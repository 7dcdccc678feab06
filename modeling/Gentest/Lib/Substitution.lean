import Mathlib.Data.List.Infix
import Mathlib.Data.List.Nodup
import Mathlib.Data.List.Basic
import Mathlib.Logic.Function.Basic

/-!
# Replacing placeholders one after the other

`replaceAll` replaces the occurrences of a needle from left to right and does not look
into what it inserted. The letters of a text may be more than the characters that are
compared; with a mark of its origin on each letter the texts of a run show what became
of every block that was inserted.

A template is filled by one pass for each placeholder. The passes agree with filling all
holes at once exactly when no block holds the spelling of a placeholder of a later pass.
-/

namespace Substitution

-- ---------------------------------------------------------------------------
-- Replacing
-- ---------------------------------------------------------------------------

section Apart

variable {α κ : Type} {key : α → κ} {needle : List κ}

/-- No occurrence begins in `u` and ends in `v`. -/
def Apart (key : α → κ) (needle : List κ) (u v : List α) : Prop :=
  ∀ front back, front ≠ [] → back ≠ [] → needle = front ++ back → front <:+ u.map key → ¬back <+: v.map key

theorem Apart.of_suffix {u u' v : List α} (h : Apart key needle u v) (hu : u' <:+ u) : Apart key needle u' v :=
  fun front back hfront hback heq hsuffix => h front back hfront hback heq (hsuffix.trans (hu.map key))

theorem apart_of_head {u v : List α} {a : α} (ha : key a ∉ needle) : Apart key needle u (a :: v) := by
  rintro front (_ | ⟨b, back⟩) - hback heq - hstarts
  · exact hback rfl
  · obtain ⟨rfl, -⟩ := List.cons_prefix_cons.mp hstarts
    exact ha (heq ▸ List.mem_append_right _ List.mem_cons_self)

theorem apart_of_last {u v : List α} {a : α} (hu : u.getLast? = some a) (ha : key a ∉ needle) :
    Apart key needle u v := by
  rintro front back hfront - heq hsuffix -
  obtain ⟨rest, hrest⟩ := hsuffix
  have hlast : (u.map key).getLast? = some (key a) := by rw [List.getLast?_map, hu, Option.map_some]
  rw [← hrest, List.getLast?_append_of_ne_nil _ hfront] at hlast
  exact ha (heq ▸ List.mem_append_left _ (List.mem_of_getLast? hlast))

end Apart

section Replace

variable {α β κ : Type} [DecidableEq κ] (key : α → κ) (needle : List κ) (sub : List α)

/-- The first `skip` letters are the rest of an occurrence. -/
def replaceFrom : Nat → List α → List α
  | _, [] => []
  | skip + 1, _ :: rest => replaceFrom skip rest
  | 0, a :: rest =>
    if needle <+: (a :: rest).map key then sub ++ replaceFrom (needle.length - 1) rest
    else a :: replaceFrom 0 rest

def replaceAll (text : List α) : List α := replaceFrom key needle sub 0 text

def Occurs (text : List α) : Prop := needle <:+: text.map key

instance (text : List α) : Decidable (Occurs key needle text) := inferInstanceAs (Decidable (_ <:+: _))

variable {key needle sub}

theorem replaceFrom_length (u v : List α) : replaceFrom key needle sub u.length (u ++ v) = replaceAll key needle sub v := by
  induction u with
  | nil => rfl
  | cons a u ih => exact ih

@[simp] theorem replaceAll_nil : replaceAll key needle sub [] = [] := rfl

theorem replaceAll_match {occ : List α} (hne : needle ≠ []) (hocc : occ.map key = needle) (text : List α) :
    replaceAll key needle sub (occ ++ text) = sub ++ replaceAll key needle sub text := by
  cases occ with
  | nil => exact absurd hocc.symm hne
  | cons a occ =>
    have hstarts : needle <+: (a :: (occ ++ text)).map key := by
      rw [← List.cons_append, List.map_append, hocc]
      exact List.prefix_append _ _
    have hlength : needle.length - 1 = occ.length := by rw [← hocc, List.length_map, List.length_cons, Nat.add_sub_cancel]
    change (if needle <+: (a :: (occ ++ text)).map key then _ else _) = _
    rw [if_pos hstarts, hlength]
    exact congrArg (sub ++ ·) (replaceFrom_length occ text)

theorem replaceAll_cons {a : α} {rest : List α} (h : ¬needle <+: (a :: rest).map key) :
    replaceAll key needle sub (a :: rest) = a :: replaceAll key needle sub rest := if_neg h

theorem replaceAll_append (hne : needle ≠ []) {u v : List α} (h : Apart key needle u v) :
    replaceAll key needle sub (u ++ v) = replaceAll key needle sub u ++ replaceAll key needle sub v := by
  induction hn : u.length using Nat.strongRecOn generalizing u with
  | ind n ih =>
    cases u with
    | nil => rfl
    | cons a u =>
      by_cases hocc : needle <+: (a :: u).map key
      · -- an occurrence at the front lies in `u`
        obtain ⟨tail, htail⟩ := hocc
        obtain ⟨occ, rest, hsplit, hoccKeys, -⟩ := List.map_eq_append_iff.mp htail.symm
        have hlen : rest.length < n := by
          have hpos : 0 < occ.length := by
            rw [← List.length_map key, hoccKeys]
            exact List.length_pos_iff.mpr hne
          rw [← hn, hsplit, List.length_append]
          omega
        have hrest := ih rest.length hlen (h.of_suffix (hsplit ▸ List.suffix_append occ rest)) rfl
        rw [hsplit, List.append_assoc, replaceAll_match hne hoccKeys, replaceAll_match hne hoccKeys, hrest,
          List.append_assoc]
      · have hwhole : ¬needle <+: (a :: (u ++ v)).map key := by
          rintro ⟨tail, htail⟩
          rw [← List.cons_append, List.map_append] at htail
          rcases List.append_eq_append_iff.mp htail with ⟨more, hmore, -⟩ | ⟨more, hmore, hv⟩
          · exact hocc ⟨more, hmore.symm⟩
          · by_cases hnil : more = []
            · subst hnil
              exact hocc ⟨[], by rw [List.append_nil, hmore, List.append_nil]⟩
            · exact h _ more (by simp) hnil hmore List.suffix_rfl ⟨tail, hv.symm⟩
        have hrest := ih u.length (hn ▸ Nat.lt_succ_self _) (h.of_suffix (List.suffix_cons a u)) rfl
        rw [List.cons_append, replaceAll_cons hwhole, replaceAll_cons hocc, hrest, List.cons_append]

theorem replaceAll_of_not_occurs {text : List α} (h : ¬Occurs key needle text) :
    replaceAll key needle sub text = text := by
  induction text with
  | nil => rfl
  | cons a text ih =>
    have hhead : ¬needle <+: (a :: text).map key := fun hstarts => h hstarts.isInfix
    have hrest : ¬Occurs key needle text := fun hocc => h (hocc.trans (List.suffix_cons _ _).isInfix)
    rw [replaceAll_cons hhead, ih hrest]

theorem mem_replaceAll {text : List α} {a : α} (h : a ∈ replaceAll key needle sub text) : a ∈ sub ∨ a ∈ text := by
  have hfrom : ∀ skip, a ∈ replaceFrom key needle sub skip text → a ∈ sub ∨ a ∈ text := by
    clear h
    induction text with
    | nil => exact fun skip h => by cases skip <;> cases h
    | cons b text ih =>
      have hrest : ∀ skip, a ∈ replaceFrom key needle sub skip text → a ∈ sub ∨ a ∈ b :: text := fun skip h =>
        (ih skip h).imp_right (List.mem_cons_of_mem b)
      intro skip h
      cases skip with
      | succ skip => exact hrest skip h
      | zero =>
        change a ∈ (if needle <+: (b :: text).map key then _ else _) at h
        split at h
        · rcases List.mem_append.mp h with h | h
          · exact .inl h
          · exact hrest _ h
        · rcases List.mem_cons.mp h with rfl | h
          · exact .inr List.mem_cons_self
          · exact hrest _ h
  exact hfrom 0 h

theorem replaceAll_map {key' : β → κ} {f : α → β} (hkey : ∀ a, key' (f a) = key a) (text : List α) :
    replaceAll key' needle (sub.map f) (text.map f) = (replaceAll key needle sub text).map f := by
  have hkeys : ∀ l : List α, (l.map f).map key' = l.map key := fun l => by
    rw [List.map_map]
    exact List.map_congr_left fun a _ => hkey a
  have hfrom : ∀ skip, replaceFrom key' needle (sub.map f) skip (text.map f) =
      (replaceFrom key needle sub skip text).map f := by
    induction text with
    | nil => exact fun skip => by cases skip <;> rfl
    | cons a text ih =>
      intro skip
      cases skip with
      | succ skip => exact ih skip
      | zero =>
        have hhead : needle <+: (f a :: text.map f).map key' ↔ needle <+: (a :: text).map key := by
          rw [← List.map_cons, hkeys]
        change (if needle <+: (f a :: text.map f).map key' then _ else _) =
          (if needle <+: (a :: text).map key then _ else _ : List α).map f
        by_cases hocc : needle <+: (a :: text).map key
        · rw [if_pos hocc, if_pos (hhead.mpr hocc), List.map_append, ih]
        · rw [if_neg hocc, if_neg (hhead.not.mpr hocc), List.map_cons, ih]
  exact hfrom 0

omit [DecidableEq κ] in
theorem occurs_append_iff {u v : List α} (h : Apart key needle u v) :
    Occurs key needle (u ++ v) ↔ Occurs key needle u ∨ Occurs key needle v := by
  unfold Occurs
  rw [List.map_append]
  constructor
  · rintro ⟨front, back, heq⟩
    rw [List.append_assoc] at heq
    rcases List.append_eq_append_iff.mp heq with ⟨more, hu, hmore⟩ | ⟨more, -, hv⟩
    · -- the needle begins in `u`
      rcases List.append_eq_append_iff.mp hmore with ⟨rest, hrest, -⟩ | ⟨rest, hneedle, hv⟩
      · exact .inl ⟨front, rest, by rw [hu, hrest, List.append_assoc]⟩
      · by_cases hnil : rest = []
        · subst hnil
          exact .inl ⟨front, [], by rw [hneedle, hu, List.append_nil, List.append_nil]⟩
        · by_cases hmoreNil : more = []
          · subst hmoreNil
            exact .inr ⟨[], back, by rw [hneedle, List.nil_append, List.nil_append, hv]⟩
          · exact absurd ⟨back, hv.symm⟩ (h more rest hmoreNil hnil hneedle ⟨front, hu.symm⟩)
    · exact .inr ⟨more, back, by rw [List.append_assoc, hv]⟩
  · rintro (h | h)
    · exact h.trans (List.prefix_append _ _).isInfix
    · exact h.trans (List.suffix_append _ _).isInfix

end Replace

-- ---------------------------------------------------------------------------
-- Occurrences that do not overlap
-- ---------------------------------------------------------------------------

section Borderless

variable {α κ : Type}

def Borderless (needle : List κ) : Prop :=
  ∀ front back, front ≠ [] → back ≠ [] → needle = front ++ back → ¬back <+: needle

variable [DecidableEq κ] {key : α → κ} {needle : List κ} {sub : List α}

theorem replaceAll_occurrence (hne : needle ≠ []) (hborder : Borderless needle) {occ : List α}
    (hocc : occ.map key = needle) (front back : List α) :
    replaceAll key needle sub (front ++ (occ ++ back)) =
      replaceAll key needle sub front ++ (sub ++ replaceAll key needle sub back) := by
  have hapart : Apart key needle front (occ ++ back) := by
    intro begin_ rest hbegin hrest heq _ hstarts
    refine hborder begin_ rest hbegin hrest heq ?_
    rw [List.map_append, hocc] at hstarts
    refine List.prefix_of_prefix_length_le hstarts (List.prefix_append _ _) ?_
    rw [heq, List.length_append]
    omega
  rw [replaceAll_append hne hapart, replaceAll_match hne hocc]

theorem lost_of_occurrence (hne : needle ≠ []) (hborder : Borderless needle) {occ : List α}
    (hocc : occ.map key = needle) {front back : List α} {a : α} (hfront : a ∉ front) (hback : a ∉ back)
    (hsub : a ∉ sub) : a ∉ replaceAll key needle sub (front ++ (occ ++ back)) := by
  rw [replaceAll_occurrence hne hborder hocc]
  intro h
  rcases List.mem_append.mp h with h | h
  · exact (mem_replaceAll h).elim hsub hfront
  · rcases List.mem_append.mp h with h | h
    · exact hsub h
    · exact (mem_replaceAll h).elim hsub hback

end Borderless

-- ---------------------------------------------------------------------------
-- Templates
-- ---------------------------------------------------------------------------

structure Template (ι κ : Type) where
  head : List κ
  rest : List (ι × List κ)

section Fill

variable {ι κ α : Type}

def Template.holes (t : Template ι κ) : List ι := t.rest.map Prod.fst

def Template.fill (embed : κ → α) (value : ι → List α) (t : Template ι κ) : List α :=
  t.head.map embed ++ t.rest.flatMap fun hole => value hole.1 ++ hole.2.map embed

theorem fill_congr {t : Template ι κ} {embed : κ → α} {value value' : ι → List α}
    (h : ∀ x ∈ t.holes, value x = value' x) : t.fill embed value = t.fill embed value' :=
  congrArg (t.head.map embed ++ ·) (List.flatMap_congr fun hole hhole => by rw [h _ (List.mem_map_of_mem hhole)])

/-- A letter that ends or begins a text and stands in no placeholder. -/
def Separates (spelling : ι → List κ) (c : κ) : Prop := ∀ h, c ∉ spelling h

/-- The text between holes ends with a separating letter and spells no placeholder, also
not with the placeholder in front of it. -/
structure Template.Spaced (spelling : ι → List κ) (t : Template ι κ) : Prop where
  nonempty : ∀ h, spelling h ≠ []
  borderless : ∀ h, Borderless (spelling h)
  head_end : ∃ c, t.head.getLast? = some c ∧ Separates spelling c
  head_clean : ∀ h, ¬spelling h <:+: t.head
  text_end : ∀ hole ∈ t.rest, ∃ c, hole.2.getLast? = some c ∧ Separates spelling c
  text_clean : ∀ hole ∈ t.rest, ∀ h, ¬spelling h <:+: hole.2
  hole_clean : ∀ hole ∈ t.rest, ∀ h, h ≠ hole.1 → ¬spelling h <:+: spelling hole.1 ++ hole.2

/-- A separating letter follows wherever the hole stands. -/
def Template.Framed (spelling : ι → List κ) (t : Template ι κ) (h : ι) : Prop :=
  ∀ hole ∈ t.rest, hole.1 = h → ∃ c, hole.2.head? = some c ∧ Separates spelling c

variable {t : Template ι κ} {spelling : ι → List κ} {key : α → κ} {embed : κ → α}

theorem map_embed (hkey : ∀ c, key (embed c) = c) (text : List κ) : (text.map embed).map key = text := by
  rw [List.map_map]
  exact (List.map_congr_left fun c _ => hkey c).trans (List.map_id text)

theorem apart_of_text_end (hkey : ∀ c, key (embed c) = c) {text : List κ} {x : ι}
    (hend : ∃ c, text.getLast? = some c ∧ Separates spelling c) (rest : List α) :
    Apart key (spelling x) (text.map embed) rest := by
  obtain ⟨c, hlast, hc⟩ := hend
  refine apart_of_last (a := embed c) ?_ ?_
  · rw [List.getLast?_map, hlast, Option.map_some]
  · rw [hkey]
    exact hc x

variable [DecidableEq ι] [DecidableEq κ] {value : ι → List α} {x : ι} {sub : List α}

omit [DecidableEq ι] in
theorem replaceAll_text (ht : t.Spaced spelling) (hkey : ∀ c, key (embed c) = c) {text : List κ}
    (hclean : ¬spelling x <:+: text) (hend : ∃ c, text.getLast? = some c ∧ Separates spelling c) (rest : List α) :
    replaceAll key (spelling x) sub (text.map embed ++ rest) =
      text.map embed ++ replaceAll key (spelling x) sub rest := by
  have hnone : ¬Occurs key (spelling x) (text.map embed) := by
    rwa [Occurs, map_embed hkey]
  rw [replaceAll_append (ht.nonempty x) (apart_of_text_end hkey hend rest), replaceAll_of_not_occurs hnone]

theorem replaceAll_hole (ht : t.Spaced spelling) (hkey : ∀ c, key (embed c) = c)
    (hx : value x = (spelling x).map embed) {hole : ι × List κ} (hmem : hole ∈ t.rest)
    (hvalue : value hole.1 = (spelling hole.1).map embed ∨
      t.Framed spelling hole.1 ∧ ¬Occurs key (spelling x) (value hole.1)) (rest : List α) :
    replaceAll key (spelling x) sub (value hole.1 ++ hole.2.map embed ++ rest) =
      Function.update value x sub hole.1 ++ hole.2.map embed ++ replaceAll key (spelling x) sub rest := by
  obtain ⟨h, text⟩ := hole
  have htext : replaceAll key (spelling x) sub (text.map embed ++ rest) =
      text.map embed ++ replaceAll key (spelling x) sub rest :=
    replaceAll_text ht hkey (ht.text_clean _ hmem x) (ht.text_end _ hmem) rest
  by_cases hh : h = x
  · subst hh
    rw [Function.update_self, List.append_assoc, hx, replaceAll_match (ht.nonempty h) (map_embed hkey _), htext,
      List.append_assoc]
  · rw [Function.update_of_ne hh]
    rcases hvalue with hspelled | ⟨hframed, hnone⟩
    · -- a placeholder of another pass is text like the text behind it
      have hend : ∃ c, (spelling h ++ text).getLast? = some c ∧ Separates spelling c := by
        obtain ⟨c, hlast, hc⟩ := ht.text_end _ hmem
        refine ⟨c, ?_, hc⟩
        rw [List.getLast?_append_of_ne_nil]
        · exact hlast
        · rintro rfl
          cases hlast
      have hclean := ht.hole_clean _ hmem x (Ne.symm hh)
      rw [hspelled, ← List.map_append]
      exact replaceAll_text ht hkey hclean hend rest
    · obtain ⟨c, hhead, hc⟩ := hframed _ hmem rfl
      have hapart : Apart key (spelling x) (value h) (text.map embed ++ rest) := by
        cases text with
        | nil => cases hhead
        | cons d text =>
          obtain rfl : d = c := Option.some.inj hhead
          exact apart_of_head (by rw [hkey]; exact hc x)
      rw [List.append_assoc, replaceAll_append (ht.nonempty x) hapart, replaceAll_of_not_occurs hnone, htext,
        List.append_assoc]

/-- One pass fills its hole and leaves the rest as it is, where no block that was filled
in before spells its placeholder. -/
theorem replaceAll_fill (ht : t.Spaced spelling) (hkey : ∀ c, key (embed c) = c)
    (hx : value x = (spelling x).map embed)
    (hvalue : ∀ h ∈ t.holes, value h = (spelling h).map embed ∨
      t.Framed spelling h ∧ ¬Occurs key (spelling x) (value h)) :
    replaceAll key (spelling x) sub (t.fill embed value) = t.fill embed (Function.update value x sub) := by
  have hrest : ∀ rest : List (ι × List κ), (∀ hole ∈ rest, hole ∈ t.rest) →
      replaceAll key (spelling x) sub (rest.flatMap fun hole => value hole.1 ++ hole.2.map embed) =
        rest.flatMap fun hole => Function.update value x sub hole.1 ++ hole.2.map embed := by
    intro rest
    induction rest with
    | nil => exact fun _ => rfl
    | cons hole rest ih =>
      intro hmem
      have hhole := hmem hole List.mem_cons_self
      rw [List.flatMap_cons, List.flatMap_cons,
        replaceAll_hole ht hkey hx hhole (hvalue _ (List.mem_map_of_mem hhole)),
        ih fun hole h => hmem hole (List.mem_cons_of_mem _ h)]
  rw [Template.fill, replaceAll_text ht hkey (ht.head_clean x) ht.head_end, hrest _ fun _ h => h, Template.fill]

omit [DecidableEq ι] [DecidableEq κ] in
theorem occurs_fill_of_hole (hkey : ∀ c, key (embed c) = c) {h : ι} (hh : h ∈ t.holes)
    (hvalue : value h = (spelling h).map embed) : Occurs key (spelling h) (t.fill embed value) := by
  obtain ⟨hole, hmem, rfl⟩ := List.mem_map.mp hh
  obtain ⟨before, behind, hrest⟩ := List.append_of_mem hmem
  have hspelled : spelling hole.1 = (value hole.1).map key := by rw [hvalue, map_embed hkey]
  rw [Occurs, Template.fill, hrest, List.flatMap_append, List.flatMap_cons, hspelled]
  refine List.IsInfix.map key ?_
  exact ⟨t.head.map embed ++ before.flatMap fun hole => value hole.1 ++ hole.2.map embed, hole.2.map embed ++
    behind.flatMap fun hole => value hole.1 ++ hole.2.map embed, by simp only [List.append_assoc]⟩

end Fill

-- ---------------------------------------------------------------------------
-- Runs of passes
-- ---------------------------------------------------------------------------

section Runs

variable {ι κ α β : Type} [DecidableEq ι]

/-- What stands in the holes once the blocks of `done` are filled in. -/
def valueOf (embed : κ → α) (spelling : ι → List κ) (insert : ι → List κ → List α) (done : List (ι × List κ)) :
    ι → List α :=
  done.foldl (fun value pass => Function.update value pass.1 (insert pass.1 pass.2)) fun h => (spelling h).map embed

def runPasses [DecidableEq κ] (key : α → κ) (spelling : ι → List κ) (insert : ι → List κ → List α)
    (passes : List (ι × List κ)) (text : List α) : List α :=
  passes.foldl (fun text pass => replaceAll key (spelling pass.1) (insert pass.1 pass.2) text) text

variable {t : Template ι κ} {spelling : ι → List κ} {embed : κ → α} {insert : ι → List κ → List α}
  {done passes : List (ι × List κ)}

theorem valueOf_concat (pass : ι × List κ) : valueOf embed spelling insert (done ++ [pass]) =
    Function.update (valueOf embed spelling insert done) pass.1 (insert pass.1 pass.2) := by
  rw [valueOf, List.foldl_append]
  rfl

theorem valueOf_of_notMem {h : ι} (hh : h ∉ done.map Prod.fst) :
    valueOf embed spelling insert done h = (spelling h).map embed := by
  induction done using List.reverseRecOn with
  | nil => rfl
  | append_singleton done pass ih =>
    rw [List.map_append, List.mem_append, not_or] at hh
    have hne : h ≠ pass.1 := by
      rintro rfl
      exact hh.2 (List.mem_singleton_self _)
    rw [valueOf_concat, Function.update_of_ne hne, ih hh.1]

theorem valueOf_of_mem {pass : ι × List κ} (hnodup : (done.map Prod.fst).Nodup) (hpass : pass ∈ done) :
    valueOf embed spelling insert done pass.1 = insert pass.1 pass.2 := by
  induction done using List.reverseRecOn with
  | nil => cases hpass
  | append_singleton done last ih =>
    rw [List.map_append, List.nodup_append] at hnodup
    rw [valueOf_concat]
    rcases List.mem_append.mp hpass with hpass | hpass
    · have hne : pass.1 ≠ last.1 := hnodup.2.2 _ (List.mem_map_of_mem hpass) _ (List.mem_singleton_self _)
      rw [Function.update_of_ne hne, ih hnodup.1 hpass]
    · obtain rfl := List.mem_singleton.mp hpass
      rw [Function.update_self]

/-- No later placeholder is spelled in a block that stands in the template. -/
def Keeps (t : Template ι κ) (spelling : ι → List κ) (earlier later : ι × List κ) : Prop :=
  earlier.1 ∈ t.holes → ¬spelling later.1 <:+: earlier.2

/-- The hole is there once at most, with a separating letter behind it. -/
def Placed (t : Template ι κ) (spelling : ι → List κ) (h : ι) : Prop :=
  t.Framed spelling h ∧ t.holes.count h ≤ 1

variable [DecidableEq κ] {key : α → κ}

theorem replaceAll_valueOf (ht : t.Spaced spelling) (hkey : ∀ c, key (embed c) = c)
    (hinsert : ∀ h block, (insert h block).map key = block) {pass : ι × List κ}
    (hnodup : ((done ++ [pass]).map Prod.fst).Nodup) (hplaced : ∀ p ∈ done, Placed t spelling p.1)
    (hkeeps : ∀ p ∈ done, Keeps t spelling p pass) :
    replaceAll key (spelling pass.1) (insert pass.1 pass.2) (t.fill embed (valueOf embed spelling insert done)) =
      t.fill embed (valueOf embed spelling insert (done ++ [pass])) := by
  rw [List.map_append, List.nodup_append] at hnodup
  have hnew : pass.1 ∉ done.map Prod.fst := fun hmem =>
    hnodup.2.2 _ hmem _ (List.mem_singleton_self _) rfl
  rw [valueOf_concat]
  refine replaceAll_fill ht hkey (valueOf_of_notMem hnew) fun h hh => ?_
  by_cases hdone : h ∈ done.map Prod.fst
  · obtain ⟨p, hp, rfl⟩ := List.mem_map.mp hdone
    refine .inr ⟨(hplaced p hp).1, ?_⟩
    rw [valueOf_of_mem hnodup.1 hp, Occurs, hinsert]
    exact hkeeps p hp hh
  · exact .inl (valueOf_of_notMem hdone)

theorem runPasses_fill (ht : t.Spaced spelling) (hkey : ∀ c, key (embed c) = c)
    (hinsert : ∀ h block, (insert h block).map key = block) (hnodup : ((done ++ passes).map Prod.fst).Nodup)
    (hplaced : ∀ p ∈ (done ++ passes).dropLast, Placed t spelling p.1)
    (hdone : ∀ q ∈ passes, ∀ p ∈ done, Keeps t spelling p q) (hpasses : passes.Pairwise (Keeps t spelling)) :
    runPasses key spelling insert passes (t.fill embed (valueOf embed spelling insert done)) =
      t.fill embed (valueOf embed spelling insert (done ++ passes)) := by
  induction passes generalizing done with
  | nil => rw [List.append_nil]; rfl
  | cons pass passes ih =>
    have hsplit : done ++ pass :: passes = (done ++ [pass]) ++ passes := by simp
    rw [hsplit] at hnodup hplaced
    obtain ⟨hfirst, hpasses⟩ := List.pairwise_cons.mp hpasses
    have hplacedDone : ∀ p ∈ done, Placed t spelling p.1 := fun p hp => hplaced p (by
      rw [List.append_assoc, List.dropLast_append_of_ne_nil (by simp)]
      exact List.mem_append_left _ hp)
    have hnodupFirst : ((done ++ [pass]).map Prod.fst).Nodup := by
      rw [List.map_append] at hnodup
      exact (List.nodup_append.mp hnodup).1
    have hstep := replaceAll_valueOf ht hkey hinsert hnodupFirst hplacedDone (hdone pass List.mem_cons_self)
    rw [hsplit, ← ih hnodup hplaced ?_ hpasses, ← hstep]
    · rfl
    · intro q hq p hp
      rcases List.mem_append.mp hp with hp | hp
      · exact hdone q (List.mem_cons_of_mem _ hq) p hp
      · obtain rfl := List.mem_singleton.mp hp
        exact hfirst q hq

end Runs

-- ---------------------------------------------------------------------------
-- Letters that know their block
-- ---------------------------------------------------------------------------

abbrev Letter (ι κ : Type) := κ × Option (ι × Nat)

section Letters

variable {ι κ : Type}

def plain (c : κ) : Letter ι κ := (c, none)

def marked (h : ι) (block : List κ) : List (Letter ι κ) := block.mapIdx fun i c => (c, some (h, i))

theorem marked_fst (h : ι) (block : List κ) : (marked h block).map Prod.fst = block := by
  refine List.ext_getElem (by simp [marked]) fun i hi hi' => ?_
  simp [marked]

theorem mem_marked {h : ι} {block : List κ} {a : Letter ι κ} (ha : a ∈ marked h block) : ∃ i, a.2 = some (h, i) := by
  obtain ⟨i, hi, rfl⟩ := List.mem_mapIdx.mp ha
  exact ⟨i, rfl⟩

theorem marked_nodup (h : ι) (block : List κ) : (marked h block).Nodup := by
  have hmarks : (marked h block).map Prod.snd = (List.range block.length).map fun i => some (h, i) := by
    refine List.ext_getElem (by simp [marked]) fun i hi hi' => ?_
    simp [marked]
  refine List.Nodup.of_map Prod.snd (hmarks ▸ List.nodup_range.map fun i j hij => ?_)
  exact (Prod.mk.inj (Option.some.inj hij)).2

variable [DecidableEq ι] [DecidableEq κ] {t : Template ι κ} {spelling : ι → List κ} {done passes : List (ι × List κ)}

omit [DecidableEq κ] in
theorem mem_valueOf {h : ι} {a : Letter ι κ} (ha : a ∈ valueOf plain spelling marked done h) :
    a.2 = none ∨ ∃ i, a.2 = some (h, i) := by
  induction done using List.reverseRecOn with
  | nil =>
    obtain ⟨c, -, rfl⟩ := List.mem_map.mp ha
    exact .inl rfl
  | append_singleton done pass ih =>
    rw [valueOf_concat] at ha
    by_cases hh : h = pass.1
    · subst hh
      rw [Function.update_self] at ha
      exact .inr (mem_marked ha)
    · rw [Function.update_of_ne hh] at ha
      exact ih ha

omit [DecidableEq κ] in
theorem mem_flatMap_holes {rest : List (ι × List κ)} {h : ι} (hh : h ∉ rest.map Prod.fst) {a : Letter ι κ} {i : Nat}
    (ha : a.2 = some (h, i)) :
    a ∉ rest.flatMap fun hole => valueOf plain spelling marked done hole.1 ++ hole.2.map plain := by
  intro hmem
  obtain ⟨hole, hhole, hmem⟩ := List.mem_flatMap.mp hmem
  rcases List.mem_append.mp hmem with hmem | hmem
  · rcases mem_valueOf hmem with hnone | ⟨j, hj⟩
    · rw [ha] at hnone
      cases hnone
    · rw [ha, Option.some.injEq, Prod.mk.injEq] at hj
      exact hh (hj.1 ▸ List.mem_map_of_mem hhole)
  · obtain ⟨c, -, rfl⟩ := List.mem_map.mp hmem
    cases ha

/-- A placeholder in a block is replaced in a later pass, and letters of the block are lost. -/
theorem lost_of_stray (ht : t.Spaced spelling) (hnodup : (done.map Prod.fst).Nodup) {p : ι × List κ} (hp : p ∈ done)
    (hcount : t.holes.count p.1 ≤ 1) (hhole : p.1 ∈ t.holes) {x : ι} (hstray : spelling x <:+: p.2)
    {sub : List (Letter ι κ)} (hsub : ∀ a ∈ sub, ∀ i, a.2 ≠ some (p.1, i)) :
    ∃ a ∈ marked p.1 p.2,
      a ∉ replaceAll Prod.fst (spelling x) sub (t.fill plain (valueOf plain spelling marked done)) := by
  obtain ⟨front, back, hblock⟩ := hstray
  obtain ⟨hole, hmem, hfst⟩ := List.mem_map.mp hhole
  obtain ⟨before, behind, hrest⟩ := List.append_of_mem hmem
  -- the hole stands nowhere else
  have hothers : hole.1 ∉ before.map Prod.fst ∧ hole.1 ∉ behind.map Prod.fst := by
    rw [Template.holes, hrest, ← hfst, List.map_append, List.map_cons, List.count_append, List.count_cons_self] at hcount
    exact ⟨fun h => absurd (List.count_pos_iff.mpr h) (by omega), fun h => absurd (List.count_pos_iff.mpr h) (by omega)⟩
  -- the marked block, cut at the placeholder
  have hmarked : (marked p.1 p.2).map Prod.fst = front ++ (spelling x ++ back) := by
    rw [marked_fst, ← hblock, List.append_assoc]
  obtain ⟨first, rest, hfirst, -, hrestKeys⟩ := List.map_eq_append_iff.mp hmarked
  obtain ⟨occ, last, hocc, hoccKeys, -⟩ := List.map_eq_append_iff.mp hrestKeys
  have hunique := marked_nodup p.1 p.2
  rw [hfirst, hocc, List.nodup_append] at hunique
  obtain ⟨-, hunique, hapart⟩ := hunique
  obtain ⟨a, ha⟩ := List.exists_mem_of_ne_nil occ fun hnil => ht.nonempty x (by rw [← hoccKeys, hnil, List.map_nil])
  have hain : a ∈ marked p.1 p.2 := by
    rw [hfirst, hocc]
    exact List.mem_append_right _ (List.mem_append_left _ ha)
  obtain ⟨i, hi⟩ := mem_marked hain
  refine ⟨a, hain, ?_⟩
  have hvalue : valueOf plain spelling marked done hole.1 = first ++ (occ ++ last) := by
    rw [hfst, valueOf_of_mem hnodup hp, hfirst, hocc]
  have htext : t.fill plain (valueOf plain spelling marked done) =
      (t.head.map plain ++ (before.flatMap fun hole => valueOf plain spelling marked done hole.1 ++ hole.2.map plain) ++
        first) ++ (occ ++ (last ++ hole.2.map plain ++
          behind.flatMap fun hole => valueOf plain spelling marked done hole.1 ++ hole.2.map plain)) := by
    rw [Template.fill, hrest, List.flatMap_append, List.flatMap_cons, hvalue]
    simp only [List.append_assoc]
  have hplain : ∀ text : List κ, a ∉ text.map plain := by
    intro text hmem
    obtain ⟨c, -, rfl⟩ := List.mem_map.mp hmem
    cases hi
  rw [htext]
  refine lost_of_occurrence (ht.nonempty x) (ht.borderless x) hoccKeys ?_ ?_ fun hmem => hsub a hmem i hi
  · intro hmem
    rcases List.mem_append.mp hmem with hmem | hmem
    · rcases List.mem_append.mp hmem with hmem | hmem
      · exact hplain _ hmem
      · exact mem_flatMap_holes hothers.1 (hfst ▸ hi) hmem
    · exact hapart a hmem a (List.mem_append_left _ ha) rfl
  · intro hmem
    rcases List.mem_append.mp hmem with hmem | hmem
    · rcases List.mem_append.mp hmem with hmem | hmem
      · exact (List.nodup_append.mp hunique).2.2 a ha a hmem rfl
      · exact hplain _ hmem
    · exact mem_flatMap_holes hothers.2 (hfst ▸ hi) hmem

omit [DecidableEq ι] in
theorem lost_runPasses {p : ι × List κ} (hnew : p.1 ∉ passes.map Prod.fst) {a : Letter ι κ} (ha : a ∈ marked p.1 p.2)
    {text : List (Letter ι κ)} (htext : a ∉ text) : a ∉ runPasses Prod.fst spelling marked passes text := by
  induction passes generalizing text with
  | nil => exact htext
  | cons pass passes ih =>
    rw [List.map_cons, List.mem_cons, not_or] at hnew
    refine ih hnew.2 fun hmem => ?_
    rcases mem_replaceAll hmem with hmem | hmem
    · obtain ⟨i, hi⟩ := mem_marked ha
      obtain ⟨j, hj⟩ := mem_marked hmem
      rw [hi, Option.some.injEq, Prod.mk.injEq] at hj
      exact hnew.1 hj.1
    · exact htext hmem

theorem keeps_of_runPasses (ht : t.Spaced spelling) (hnodup : ((done ++ passes).map Prod.fst).Nodup)
    (hplaced : ∀ p ∈ (done ++ passes).dropLast, Placed t spelling p.1)
    (hrun : runPasses Prod.fst spelling marked passes (t.fill plain (valueOf plain spelling marked done)) =
      t.fill plain (valueOf plain spelling marked (done ++ passes))) :
    (∀ q ∈ passes, ∀ p ∈ done, Keeps t spelling p q) ∧ passes.Pairwise (Keeps t spelling) := by
  induction passes generalizing done with
  | nil => exact ⟨fun _ h => (nomatch h), List.Pairwise.nil⟩
  | cons pass passes ih =>
    have hsplit : done ++ pass :: passes = (done ++ [pass]) ++ passes := by simp
    have hplacedDone : ∀ p ∈ done, Placed t spelling p.1 := fun p hp => hplaced p (by
      rw [List.dropLast_append_of_ne_nil (by simp)]
      exact List.mem_append_left _ hp)
    have hnodupFirst : ((done ++ [pass]).map Prod.fst).Nodup := by
      rw [hsplit, List.map_append] at hnodup
      exact (List.nodup_append.mp hnodup).1
    by_cases hkeeps : ∀ p ∈ done, Keeps t spelling p pass
    · have hstep : replaceAll Prod.fst (spelling pass.1) (marked pass.1 pass.2)
            (t.fill plain (valueOf plain spelling marked done)) =
          t.fill plain (valueOf plain spelling marked (done ++ [pass])) :=
        replaceAll_valueOf ht (fun _ => rfl) marked_fst hnodupFirst hplacedDone hkeeps
      change runPasses Prod.fst spelling marked passes
        (replaceAll Prod.fst (spelling pass.1) (marked pass.1 pass.2) _) = _ at hrun
      rw [hstep, hsplit] at hrun
      rw [hsplit] at hnodup hplaced
      obtain ⟨hlater, hpasses⟩ := ih hnodup hplaced hrun
      refine ⟨List.forall_mem_cons.mpr ⟨hkeeps, fun q hq p hp => hlater q hq p (List.mem_append_left _ hp)⟩,
        List.pairwise_cons.mpr ⟨fun q hq => hlater q hq pass (by simp), hpasses⟩⟩
    · -- letters of a block are lost in this pass and do not come back
      exfalso
      simp only [Keeps, not_forall, not_not] at hkeeps
      obtain ⟨p, hp, hhole, hstray⟩ := hkeeps
      have hnodupDone : (done.map Prod.fst).Nodup := by
        rw [List.map_append] at hnodupFirst
        exact (List.nodup_append.mp hnodupFirst).1
      have hnew : p.1 ∉ (pass :: passes).map Prod.fst := by
        rw [List.map_append] at hnodup
        exact fun hmem => (List.nodup_append.mp hnodup).2.2 _ (List.mem_map_of_mem hp) _ hmem rfl
      rw [List.map_cons, List.mem_cons, not_or] at hnew
      have hsub : ∀ a ∈ marked pass.1 pass.2, ∀ i, a.2 ≠ some (p.1, i) := by
        intro a ha i hi
        obtain ⟨j, hj⟩ := mem_marked ha
        rw [hi, Option.some.injEq, Prod.mk.injEq] at hj
        exact hnew.1 hj.1
      obtain ⟨a, ha, hlost⟩ := lost_of_stray ht hnodupDone hp (hplacedDone p hp).2 hhole hstray hsub
      have hgone : a ∉ runPasses Prod.fst spelling marked passes _ := lost_runPasses hnew.2 ha hlost
      refine hgone ?_
      change a ∈ runPasses Prod.fst spelling marked (pass :: passes) _
      rw [hrun, Template.fill]
      obtain ⟨hole, hmem, hfst⟩ := List.mem_map.mp hhole
      refine List.mem_append_right _ (List.mem_flatMap.mpr ⟨hole, hmem, List.mem_append_left _ ?_⟩)
      rw [hfst, valueOf_of_mem hnodup (List.mem_append_left _ hp)]
      exact ha

end Letters

end Substitution
