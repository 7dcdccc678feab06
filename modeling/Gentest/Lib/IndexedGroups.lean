import Mathlib.Data.List.Induction
import Mathlib.Data.List.Nodup
import Mathlib.Logic.Function.Basic
import Mathlib.Tactic.TypeStar

/-!
# Entries found by an index

A vector of entries that only grows and a map from keys to positions in it, as
kept by a loop that collects items under their keys. `try_emplace` either finds
the position of a key or opens an entry at the end.

After the loop there is one entry for each key, in the order in which the keys
first appeared, and each has seen the items of its key in their order.
-/

namespace IndexedGroups

variable {κ α ι : Type*} [DecidableEq κ] {key : α → κ}

/-- The map gives for each key the position of the entry that has it. -/
def Consistent (key : α → κ) (entries : List α) (index : κ → Option Nat) : Prop :=
  ∀ k i, index k = some i ↔ entries[i]?.map key = some k

omit [DecidableEq κ] in
theorem Consistent.modify {entries : List α} {index : κ → Option Nat} (h : Consistent key entries index) (i : Nat)
    {f : α → α} (hf : ∀ a, key (f a) = key a) : Consistent key (entries.modify i f) index := by
  intro k j
  rw [h k j, List.getElem?_modify]
  cases entries[j]? with
  | none => rfl
  | some a =>
    simp only [Option.map_some, Option.map_eq_map]
    split
    · rw [hf]
    · rfl

theorem Consistent.append {entries : List α} {index : κ → Option Nat} (h : Consistent key entries index) {k : κ}
    (hk : index k = none) {a : α} (ha : key a = k) :
    Consistent key (entries ++ [a]) (Function.update index k (some entries.length)) := by
  intro k' j
  rw [Function.update_apply]
  rcases Nat.lt_trichotomy j entries.length with hj | rfl | hj
  · rw [List.getElem?_append_left hj, ← h k' j]
    split
    · rename_i heq
      subst heq
      simp only [hk, Option.some.injEq, reduceCtorEq, iff_false]
      omega
    · rfl
  · rw [List.getElem?_concat_length, Option.map_some, ha]
    split
    · rename_i heq
      simp [heq]
    · rename_i hne
      rw [h, List.getElem?_eq_none (Nat.le_refl _)]
      simp [Ne.symm hne]
  · rw [List.getElem?_eq_none (by rw [List.length_append, List.length_singleton]; exact hj)]
    split
    · simp only [Option.some.injEq, Option.map_none, reduceCtorEq, iff_false]
      omega
    · rw [h, List.getElem?_eq_none (by omega)]

structure Table (key : α → κ) where
  entries : List α
  index : κ → Option Nat
  consistent : Consistent key entries index

def Table.empty : Table key where
  entries := []
  index := fun _ => none
  consistent := by simp [Consistent]

/-- Changes the entry of the key, or a new one put at the end. -/
def Table.emplace (t : Table key) (k : κ) (new : α) (f : α → α) (hnew : key new = k) (hf : ∀ a, key (f a) = key a) :
    Table key :=
  match hk : t.index k with
  | some i => { entries := t.entries.modify i f, index := t.index, consistent := t.consistent.modify i hf }
  | none =>
    { entries := t.entries ++ [f new]
      index := Function.update t.index k (some t.entries.length)
      consistent := t.consistent.append hk ((hf new).trans hnew) }

variable {t : Table key} {k : κ} {new : α} {f : α → α}

omit [DecidableEq κ] in
theorem Table.index_none_iff : t.index k = none ↔ k ∉ t.entries.map key := by
  rw [List.mem_map, not_exists]
  constructor
  · rintro hnone a ⟨ha, rfl⟩
    obtain ⟨i, hi⟩ := List.getElem?_of_mem ha
    have hindex := (t.consistent (key a) i).mpr (by rw [hi, Option.map_some])
    rw [hnone] at hindex
    cases hindex
  · intro hnot
    by_contra hsome
    obtain ⟨i, hi⟩ := Option.ne_none_iff_exists'.mp hsome
    obtain ⟨a, ha, hkey⟩ := Option.map_eq_some_iff.mp ((t.consistent k i).mp hi)
    exact hnot a ⟨List.mem_of_getElem? ha, hkey⟩

omit [DecidableEq κ] in
theorem Table.keys_nodup (t : Table key) : (t.entries.map key).Nodup := by
  rw [List.nodup_iff_getElem?_ne_getElem?]
  intro i j hij hj heq
  rw [List.length_map] at hj
  have hposition : ∀ m, (t.entries.map key)[m]? = some (key t.entries[j]) → t.index (key t.entries[j]) = some m := by
    intro m hm
    rw [List.getElem?_map] at hm
    exact (t.consistent _ m).mpr hm
  have hlast : (t.entries.map key)[j]? = some (key t.entries[j]) := by
    rw [List.getElem?_map, List.getElem?_eq_getElem hj, Option.map_some]
  have hsame := (hposition i (heq.trans hlast)).symm.trans (hposition j hlast)
  exact Nat.ne_of_lt hij (Option.some.inj hsame)

theorem Table.emplace_entries (hnew : key new = k) (hf : ∀ a, key (f a) = key a) :
    (t.emplace k new f hnew hf).entries =
      if k ∈ t.entries.map key then t.entries.map fun a => if key a = k then f a else a else t.entries ++ [f new] := by
  unfold emplace
  split
  · rename_i i hi
    have hmem : k ∈ t.entries.map key := by
      by_contra hnot
      rw [t.index_none_iff.mpr hnot] at hi
      cases hi
    rw [if_pos hmem]
    refine List.ext_getElem? fun j => ?_
    rw [List.getElem?_modify, List.getElem?_map]
    cases hj : t.entries[j]? with
    | none => rfl
    | some a =>
      have hposition : key a = k ↔ i = j := by
        have hiff := t.consistent k j
        rw [hi, hj, Option.map_some, Option.some.injEq, Option.some.injEq] at hiff
        exact hiff.symm
      simp only [Option.map_some, Option.map_eq_map, hposition]
  · rename_i hnone
    rw [if_neg (t.index_none_iff.mp hnone)]

theorem Table.emplace_map {ks : List κ} {g : κ → α} (hg : ∀ k, key (g k) = k) (ht : t.entries = ks.map g)
    (hnew : key new = k) (hf : ∀ a, key (f a) = key a) (hfresh : k ∉ ks → g k = new) :
    (t.emplace k new f hnew hf).entries =
      (if k ∈ ks then ks else ks ++ [k]).map fun k' => if k' = k then f (g k') else g k' := by
  have hkeys : t.entries.map key = ks := by
    rw [ht, List.map_map]
    exact (List.map_congr_left fun k' _ => hg k').trans (List.map_id ks)
  rw [emplace_entries, hkeys]
  split
  · rw [ht, List.map_map]
    exact List.map_congr_left fun k' _ => by simp [hg]
  · rename_i hk
    rw [List.map_append, List.map_singleton, if_pos rfl, hfresh hk, ht]
    congr 1
    refine List.map_congr_left fun k' hk' => ?_
    rw [if_neg]
    rintro rfl
    exact hk hk'

theorem eraseDups_concat (ks : List κ) (k : κ) :
    (ks ++ [k]).eraseDups = if k ∈ ks then ks.eraseDups else ks.eraseDups ++ [k] := by
  rw [List.eraseDups_append]
  split
  · rename_i hk
    simp [List.removeAll, hk]
  · rename_i hk
    simp [List.removeAll, hk, List.eraseDups_cons]

section

variable (k : ι → κ) (new : κ → α) (f : ι → α → α) (hnew : ∀ k, key (new k) = k) (hf : ∀ i a, key (f i a) = key a)

def collect (items : List ι) : Table key :=
  items.foldl (fun t i => t.emplace (k i) (new (k i)) (f i) (hnew (k i)) (hf i)) Table.empty

def entryOf (k : ι → κ) (new : κ → α) (f : ι → α → α) (items : List ι) (key : κ) : α :=
  (items.filter (k · = key)).foldl (fun a i => f i a) (new key)

include hnew hf in
theorem key_entryOf (items : List ι) (k' : κ) : key (entryOf k new f items k') = k' := by
  unfold entryOf
  generalize items.filter (k · = k') = own
  have hkeep : ∀ a, key (own.foldl (fun a i => f i a) a) = key a := by
    induction own with
    | nil => exact fun _ => rfl
    | cons i own ih => exact fun a => (ih (f i a)).trans (hf i a)
  rw [hkeep, hnew]

theorem entryOf_concat (items : List ι) (i : ι) (k' : κ) :
    entryOf k new f (items ++ [i]) k' = if k' = k i then f i (entryOf k new f items k') else entryOf k new f items k' := by
  unfold entryOf
  rw [List.filter_append, List.foldl_append]
  split
  · rename_i heq
    simp [heq]
  · rename_i hne
    simp [Ne.symm hne]

/-- What the loop leaves: an entry for each key, in the order of their first items. -/
theorem collect_entries (items : List ι) :
    (collect k new f hnew hf items).entries = (items.map k).eraseDups.map (entryOf k new f items) := by
  induction items using List.reverseRecOn with
  | nil => rfl
  | append_singleton items i ih =>
    have hfresh : k i ∉ (items.map k).eraseDups → entryOf k new f items (k i) = new (k i) := by
      intro hnot
      rw [List.mem_eraseDups] at hnot
      have hnone : items.filter (k · = k i) = [] :=
        List.filter_eq_nil_iff.mpr fun j hj heq => hnot (List.mem_map.mpr ⟨j, hj, of_decide_eq_true heq⟩)
      rw [entryOf, hnone, List.foldl_nil]
    have hstep := Table.emplace_map (key_entryOf k new f hnew hf items) ih (hnew (k i)) (hf i) hfresh
    have hcollect : collect k new f hnew hf (items ++ [i]) =
        (collect k new f hnew hf items).emplace (k i) (new (k i)) (f i) (hnew (k i)) (hf i) := List.foldl_concat ..
    rw [hcollect, hstep, List.map_append, List.map_singleton, eraseDups_concat]
    simp only [List.mem_eraseDups]
    exact List.map_congr_left fun k' _ => (entryOf_concat k new f items i k').symm

end

theorem nodup_eraseDups (ks : List κ) : ks.eraseDups.Nodup := by
  induction ks using List.reverseRecOn with
  | nil => exact List.nodup_nil
  | append_singleton ks k ih =>
    rw [eraseDups_concat]
    split
    · exact ih
    · rename_i hk
      exact List.nodup_append.mpr ⟨ih, List.nodup_singleton k, by
        rintro a ha b hb rfl
        exact hk (List.mem_eraseDups.mp (List.mem_singleton.mp hb ▸ ha))⟩

-- ---------------------------------------------------------------------------
-- Groups laid end to end
-- ---------------------------------------------------------------------------

/-- Between two items of one key there is none of another. -/
def Contiguous (k : ι → κ) (items : List ι) : Prop :=
  ∀ a b c, [a, b, c].Sublist items → k a = k c → k b = k a

omit [DecidableEq κ] in
theorem contiguous_flatMap {β : Type*} {blocks : List β} {blockKey : β → κ} {members : β → List ι} {k : ι → κ}
    (hnodup : (blocks.map blockKey).Nodup) (hkey : ∀ b ∈ blocks, ∀ i ∈ members b, k i = blockKey b) :
    Contiguous k (blocks.flatMap members) := by
  induction blocks with
  | nil => intro a b c hsub; simp at hsub
  | cons block blocks ih =>
    intro a b c hsub hends
    rw [List.map_cons, List.nodup_cons] at hnodup
    rw [List.forall_mem_cons] at hkey
    -- an item of a later block has another key
    have hlater : ∀ i ∈ blocks.flatMap members, k i ≠ blockKey block := by
      intro i hi heq
      obtain ⟨other, hother, hmem⟩ := List.mem_flatMap.mp hi
      exact hnodup.1 (List.mem_map.mpr ⟨other, hother, (hkey.2 other hother i hmem).symm.trans heq⟩)
    rw [List.flatMap_cons, List.sublist_append_iff] at hsub
    obtain ⟨front, back, heq, hfront, hback⟩ := hsub
    match front, heq with
    | [], heq =>
      obtain rfl : [a, b, c] = back := heq
      exact ih hnodup.2 hkey.2 a b c hback hends
    | [_, _, _], heq =>
      obtain ⟨rfl, rfl, rfl, rfl⟩ := by simpa using heq
      have hmem := fun i hi => hkey.1 i (hfront.subset hi)
      rw [hmem a (by simp), hmem b (by simp)]
    | [_], heq =>
      obtain ⟨rfl, rfl⟩ := by simpa using heq
      have ha := hkey.1 a (hfront.subset (by simp))
      exact absurd (hends.symm.trans ha) (hlater c (hback.subset (by simp)))
    | [_, _], heq =>
      obtain ⟨rfl, rfl, rfl⟩ := by simpa using heq
      have ha := hkey.1 a (hfront.subset (by simp))
      exact absurd (hends.symm.trans ha) (hlater c (hback.subset (by simp)))

end IndexedGroups
