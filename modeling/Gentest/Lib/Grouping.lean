import Mathlib.Data.List.Nodup
import Mathlib.Tactic.TypeStar

/-!
# Grouping a list of keyed values

Values are collected under their keys, in the order in which the keys first
appear, as when each is added to the entry of its key in an ordered dictionary.
A list laid out in blocks, one key to a block, comes back block by block
exactly when no two blocks share their key. In a plain dictionary the last
value of a key replaces the ones before.
-/

namespace Grouping

variable {κ α : Type*} [DecidableEq κ]

/-- Adds a value to the group of its key, or opens one at the end. -/
def add (k : κ) (a : α) : List (κ × List α) → List (κ × List α)
  | [] => [(k, [a])]
  | group :: groups =>
    if group.1 = k then (k, group.2 ++ [a]) :: groups else group :: add k a groups

def addAll (done : List (κ × List α)) (entries : List (κ × α)) : List (κ × List α) :=
  entries.foldl (fun done entry => add entry.1 entry.2 done) done

def groups (entries : List (κ × α)) : List (κ × List α) := addAll [] entries

def entries (blocks : List (κ × List α)) : List (κ × α) :=
  blocks.flatMap fun block => block.2.map (block.1, ·)

/-- The items of a dictionary that is filled with the entries. -/
def last (entries : List (κ × α)) : List (κ × α) :=
  (groups entries).filterMap fun group => group.2.getLast?.map (group.1, ·)

variable {k : κ} {a : α} {as : List α} {blocks done : List (κ × List α)}

theorem add_keys :
    (add k a done).map Prod.fst =
      if k ∈ done.map Prod.fst then done.map Prod.fst else done.map Prod.fst ++ [k] := by
  induction done with
  | nil => rfl
  | cons group done ih =>
    by_cases hk : group.1 = k
    · simp [add, hk]
    · have hne : k ≠ group.1 := Ne.symm hk
      simp only [add, hk, if_false, List.map_cons, ih, List.mem_cons, hne, false_or]
      split <;> rfl

theorem add_keys_nodup (h : (done.map Prod.fst).Nodup) : ((add k a done).map Prod.fst).Nodup := by
  rw [add_keys]
  split
  · exact h
  · rename_i hk
    refine List.nodup_append.mpr ⟨h, List.nodup_singleton k, ?_⟩
    rintro j hj i hi rfl
    rw [List.mem_singleton] at hi
    exact hk (hi ▸ hj)

theorem addAll_keys_nodup (es : List (κ × α)) (h : (done.map Prod.fst).Nodup) :
    ((addAll done es).map Prod.fst).Nodup := by
  induction es generalizing done with
  | nil => exact h
  | cons entry es ih => exact ih (add_keys_nodup h)

theorem add_new (hk : k ∉ done.map Prod.fst) : add k a done = done ++ [(k, [a])] := by
  induction done with
  | nil => rfl
  | cons group done ih =>
    simp only [List.map_cons, List.mem_cons, not_or] at hk
    simp [add, Ne.symm hk.1, ih hk.2]

theorem add_last (hk : k ∉ done.map Prod.fst) (bs : List α) :
    add k a (done ++ [(k, bs)]) = done ++ [(k, bs ++ [a])] := by
  induction done with
  | nil => simp [add]
  | cons group done ih =>
    simp only [List.map_cons, List.mem_cons, not_or] at hk
    simp [add, Ne.symm hk.1, ih hk.2]

theorem addAll_last (hk : k ∉ done.map Prod.fst) (as bs : List α) :
    addAll (done ++ [(k, bs)]) (as.map (k, ·)) = done ++ [(k, bs ++ as)] := by
  induction as generalizing bs with
  | nil => simp [addAll]
  | cons a as ih =>
    have hnext := ih (bs ++ [a])
    simp only [addAll, List.map_cons, List.foldl_cons, add_last hk] at hnext ⊢
    simpa using hnext

/-- A new key opens a group, and the values of its block follow it there. -/
theorem addAll_block (hk : k ∉ done.map Prod.fst) (hne : as ≠ []) :
    addAll done (as.map (k, ·)) = done ++ [(k, as)] := by
  obtain ⟨a, as, rfl⟩ := List.exists_cons_of_ne_nil hne
  have hlast := addAll_last hk as [a]
  simp only [addAll, List.map_cons, List.foldl_cons, add_new hk] at hlast ⊢
  simpa using hlast

theorem addAll_entries (done : List (κ × List α)) (hne : ∀ block ∈ blocks, block.2 ≠ [])
    (h : ((done ++ blocks).map Prod.fst).Nodup) :
    addAll done (entries blocks) = done ++ blocks := by
  induction blocks generalizing done with
  | nil => simp [entries, addAll]
  | cons block blocks ih =>
    have hk : block.1 ∉ done.map Prod.fst := by
      rw [List.map_append, List.map_cons] at h
      have hdisjoint := (List.nodup_append.mp h).2.2
      exact fun hmem => hdisjoint _ hmem _ List.mem_cons_self rfl
    have hblock := addAll_block hk (hne block List.mem_cons_self)
    have hrest := ih (done ++ [block])
      (fun block hblock => hne block (List.mem_cons_of_mem _ hblock)) (by simpa using h)
    calc addAll done (entries (block :: blocks))
        = addAll (addAll done (block.2.map (block.1, ·))) (entries blocks) := by
          simp [addAll, entries, List.foldl_append]
      _ = addAll (done ++ [block]) (entries blocks) := by rw [hblock]
      _ = done ++ block :: blocks := by simpa using hrest

theorem groups_entries (hne : ∀ block ∈ blocks, block.2 ≠ []) :
    groups (entries blocks) = blocks ↔ (blocks.map Prod.fst).Nodup := by
  constructor
  · intro h
    rw [← h]
    exact addAll_keys_nodup _ List.nodup_nil
  · intro h
    exact addAll_entries [] hne h

omit [DecidableEq κ] in
theorem entries_filter (p : κ → Bool) (blocks : List (κ × List α)) :
    (entries blocks).filter (p ·.1) = entries (blocks.filter (p ·.1)) := by
  induction blocks with
  | nil => rfl
  | cons block blocks ih =>
    have hcons : ∀ bs : List (κ × List α),
        entries (block :: bs) = block.2.map (block.1, ·) ++ entries bs := fun _ => rfl
    rw [hcons, List.filter_append, ih, List.filter_cons, List.filter_map]
    cases hp : p block.1 with
    | false => simp [Function.comp_def, hp]
    | true => simp [Function.comp_def, hp, hcons]

theorem last_of_nodup {es : List (κ × α)} (h : (es.map Prod.fst).Nodup) : last es = es := by
  let blocks : List (κ × List α) := es.map fun entry => (entry.1, [entry.2])
  have hentries : entries blocks = es := by
    simp [blocks, entries, List.flatMap_map]
  have hkeys : (blocks.map Prod.fst).Nodup := by
    simpa [blocks, Function.comp_def] using h
  have hne : ∀ block ∈ blocks, block.2 ≠ [] := by
    intro block hblock
    obtain ⟨entry, -, rfl⟩ := List.mem_map.mp hblock
    exact List.cons_ne_nil _ _
  have hgroups : groups es = blocks := by
    rw [← hentries]
    exact (groups_entries hne).mpr hkeys
  rw [last, hgroups, List.filterMap_map]
  simp [Function.comp_def]

/-- Enters the entries in a dictionary, given as a function. -/
def fill (dict : κ → Option α) (entries : List (κ × α)) : κ → Option α :=
  entries.foldl (fun dict entry => Function.update dict entry.1 (some entry.2)) dict

theorem fill_eq_some {dict : κ → Option α} {es : List (κ × α)} (h : (es.map Prod.fst).Nodup) :
    fill dict es k = some a ↔ (k, a) ∈ es ∨ (k ∉ es.map Prod.fst ∧ dict k = some a) := by
  induction es generalizing dict with
  | nil => simp [fill]
  | cons entry es ih =>
    rw [List.map_cons, List.nodup_cons] at h
    have hfill : fill dict (entry :: es) =
        fill (Function.update dict entry.1 (some entry.2)) es := rfl
    rw [hfill, ih h.2, List.mem_cons, List.map_cons, List.mem_cons, Function.update_apply]
    by_cases hk : k = entry.1
    · subst hk
      have hmem : (entry.1, a) ∉ es := fun hmem => h.1 (List.mem_map.mpr ⟨_, hmem, rfl⟩)
      simp [h.1, hmem, Prod.ext_iff, eq_comm]
    · simp [hk, Prod.ext_iff]

theorem fill_mem {es : List (κ × α)} (h : (es.map Prod.fst).Nodup) :
    fill (fun _ => none) es k = some a ↔ (k, a) ∈ es := by
  simp [fill_eq_some h]

-- ---------------------------------------------------------------------------
-- Handing out by key
-- ---------------------------------------------------------------------------

section

variable {κ α : Type*} [DecidableEq κ] [DecidableEq α] {key : α → κ} {a : α} {slots : List κ} {items : List α}

def handOut (key : α → κ) (slots : List κ) (items : List α) : List α :=
  slots.flatMap fun slot => items.filter fun a => key a = slot

theorem count_handOut : (handOut key slots items).count a = slots.count (key a) * items.count a := by
  induction slots with
  | nil => simp [handOut]
  | cons slot slots ih =>
    have hcons : handOut key (slot :: slots) items = items.filter (fun a => key a = slot) ++ handOut key slots items := rfl
    rw [hcons, List.count_append, ih]
    by_cases hkey : key a = slot
    · have htaken : (items.filter fun a => key a = slot).count a = items.count a :=
        List.count_filter (decide_eq_true hkey)
      rw [htaken, hkey, List.count_cons_self, Nat.succ_mul, Nat.add_comm]
    · have hleft : a ∉ items.filter fun a => key a = slot := fun hmem =>
        hkey (of_decide_eq_true (List.mem_filter.mp hmem).2)
      rw [List.count_eq_zero_of_not_mem hleft, List.count_cons_of_ne (Ne.symm hkey), Nat.zero_add]

theorem handOut_perm_iff : (handOut key slots items).Perm items ↔ ∀ a ∈ items, slots.count (key a) = 1 := by
  rw [List.perm_iff_count]
  constructor
  · intro h a ha
    have hcount := h a
    rw [count_handOut] at hcount
    exact Nat.eq_of_mul_eq_mul_right (List.count_pos_iff.mpr ha) (hcount.trans (Nat.one_mul _).symm)
  · intro h a
    rw [count_handOut]
    by_cases ha : a ∈ items
    · rw [h a ha, Nat.one_mul]
    · rw [List.count_eq_zero_of_not_mem ha, Nat.mul_zero]

end

-- ---------------------------------------------------------------------------
-- The first of each key
-- ---------------------------------------------------------------------------

section

variable {κ ν α : Type*} [DecidableEq κ] [DecidableEq ν] {key : α → κ} {name : α → ν} {a : α} {seen : List κ}
  {items : List α}

/-- The items whose key neither is seen nor is that of an item before. -/
def firsts (key : α → κ) : List κ → List α → List α
  | _, [] => []
  | seen, a :: items => if key a ∈ seen then firsts key seen items else a :: firsts key (key a :: seen) items

theorem mem_of_mem_firsts (h : a ∈ firsts key seen items) : a ∈ items ∧ key a ∉ seen := by
  induction items generalizing seen with
  | nil => cases h
  | cons b items ih =>
    rw [firsts] at h
    split at h
    · exact ⟨List.mem_cons_of_mem _ (ih h).1, (ih h).2⟩
    · rename_i hb
      obtain rfl | h := List.mem_cons.mp h
      · exact ⟨List.mem_cons_self, hb⟩
      · exact ⟨List.mem_cons_of_mem _ (ih h).1, fun hmem => (ih h).2 (List.mem_cons_of_mem _ hmem)⟩

theorem exists_first (ha : a ∈ items) (hseen : key a ∉ seen) : ∃ b ∈ firsts key seen items, key b = key a := by
  induction items generalizing seen with
  | nil => cases ha
  | cons b items ih =>
    rw [firsts]
    obtain rfl | ha := List.mem_cons.mp ha
    · rw [if_neg hseen]
      exact ⟨a, List.mem_cons_self, rfl⟩
    · split
      · exact ih ha hseen
      · by_cases hsame : key b = key a
        · exact ⟨b, List.mem_cons_self, hsame⟩
        · obtain ⟨c, hc, hkey⟩ := ih ha (List.not_mem_cons_of_ne_of_not_mem (Ne.symm hsame) hseen)
          exact ⟨c, List.mem_cons_of_mem _ hc, hkey⟩

theorem eq_of_mem_firsts {b : α} (ha : a ∈ firsts key seen items) (hb : b ∈ firsts key seen items)
    (hkey : key a = key b) : a = b := by
  induction items generalizing seen with
  | nil => cases ha
  | cons c items ih =>
    rw [firsts] at ha hb
    split at ha
    · rename_i hc
      rw [if_pos hc] at hb
      exact ih ha hb
    · rename_i hc
      rw [if_neg hc] at hb
      have hlater : ∀ d ∈ firsts key (key c :: seen) items, key d ≠ key c := fun d hd heq =>
        (mem_of_mem_firsts hd).2 (heq ▸ List.mem_cons_self)
      obtain rfl | ha := List.mem_cons.mp ha <;> obtain rfl | hb := List.mem_cons.mp hb
      · rfl
      · exact absurd hkey.symm (hlater b hb)
      · exact absurd hkey (hlater a ha)
      · exact ih ha hb

theorem firsts_congr {named : List ν} (hseen : ∀ a ∈ items, (key a ∈ seen ↔ name a ∈ named))
    (hsame : ∀ a ∈ items, ∀ b ∈ items, (key a = key b ↔ name a = name b)) :
    firsts key seen items = firsts name named items := by
  induction items generalizing seen named with
  | nil => rfl
  | cons a items ih =>
    obtain ⟨hhead, hmore⟩ := List.forall_mem_cons.mp hseen
    have hrest : ∀ b ∈ items, ∀ c ∈ items, (key b = key c ↔ name b = name c) := fun b hb c hc =>
      hsame b (List.mem_cons_of_mem _ hb) c (List.mem_cons_of_mem _ hc)
    rw [firsts, firsts]
    by_cases ha : key a ∈ seen
    · rw [if_pos ha, if_pos (hhead.mp ha)]
      exact ih hmore hrest
    · rw [if_neg ha, if_neg (mt hhead.mpr ha)]
      refine congrArg (a :: ·) (ih (fun b hb => ?_) hrest)
      rw [List.mem_cons, List.mem_cons, hmore b hb, hsame b (List.mem_cons_of_mem _ hb) a List.mem_cons_self]

/-- A coarser key keeps the first of each name exactly when it tells the names apart. -/
theorem firsts_eq_iff (hcoarse : ∀ a ∈ items, ∀ b ∈ items, name a = name b → key a = key b) :
    firsts key seen items = firsts name [] items ↔
      (∀ a ∈ items, key a ∉ seen) ∧ ∀ a ∈ items, ∀ b ∈ items, key a = key b → name a = name b := by
  constructor
  · intro h
    have hfirst : ∀ a ∈ items, ∃ b ∈ firsts key seen items, key b = key a ∧ name b = name a := by
      intro a ha
      obtain ⟨b, hb, hname⟩ : ∃ b ∈ firsts name [] items, name b = name a := exists_first ha List.not_mem_nil
      exact ⟨b, h ▸ hb, hcoarse b (mem_of_mem_firsts hb).1 a ha hname, hname⟩
    refine ⟨fun a ha => ?_, fun a ha b hb hkey => ?_⟩
    · obtain ⟨b, hb, hkey, -⟩ := hfirst a ha
      exact hkey ▸ (mem_of_mem_firsts hb).2
    · obtain ⟨a', ha', hkeya, hnamea⟩ := hfirst a ha
      obtain ⟨b', hb', hkeyb, hnameb⟩ := hfirst b hb
      obtain rfl := eq_of_mem_firsts ha' hb' (hkeya.trans (hkey.trans hkeyb.symm))
      exact hnamea.symm.trans hnameb
  · rintro ⟨hseen, hsame⟩
    exact firsts_congr (fun a ha => iff_of_false (hseen a ha) List.not_mem_nil)
      fun a ha b hb => ⟨hsame a ha b hb, hcoarse a ha b hb⟩

end

end Grouping
