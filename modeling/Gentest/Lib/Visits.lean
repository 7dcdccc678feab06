import Mathlib.Data.List.Basic
import Mathlib.Logic.Function.Basic

/-!
# Visiting combinations with a shared map

Nested visitors go through the combinations of several axes. Each binds the names of
a block in a map that all of them share, visits what is below it and puts back what
the names were bound to before. `visit_eq` says what this comes to: every combination
is seen once, the first axis slowest, with the map it asks for, and the map is as it
was in the end.
-/

namespace Visits

variable {ν β σ α : Type*}

/-- One choice from each axis, the first axis slowest. -/
def product : List (List α) → List (List α)
  | [] => [[]]
  | axis :: axes => axis.flatMap fun a => (product axes).map (a :: ·)

attribute [local grind =] product

theorem product_append (front behind : List (List α)) :
    product (front ++ behind) = (product front).flatMap fun xs => (product behind).map (xs ++ ·) := by
  induction front with
  | nil => simp [product]
  | cons axis front ih =>
    simp only [List.cons_append, product, ih, List.flatMap_assoc, List.map_flatMap, List.flatMap_map, List.map_map]
    rfl

theorem mem_product {axes : List (List α)} {choice : List α} :
    choice ∈ product axes ↔ List.Forall₂ (· ∈ ·) choice axes := by
  induction axes generalizing choice with
  | nil =>
    rw [product, List.mem_singleton]
    constructor
    · rintro rfl
      exact .nil
    · rintro ⟨⟩
      rfl
  | cons axis axes ih =>
    simp only [product, List.mem_flatMap, List.mem_map]
    constructor
    · rintro ⟨a, ha, rest, hrest, rfl⟩
      exact .cons ha (ih.mp hrest)
    · rintro (_ | ⟨ha, hrest⟩)
      exact ⟨_, ha, _, ih.mpr hrest, rfl⟩

theorem product_map (f : α → σ) (axes : List (List α)) :
    product (axes.map (·.map f)) = (product axes).map (·.map f) := by
  induction axes with
  | nil => rfl
  | cons axis axes ih =>
    simp only [List.map_cons, product, ih, List.map_flatMap, List.flatMap_map, List.map_map]
    rfl

theorem product_ne_nil {axes : List (List α)} (h : ∀ axis ∈ axes, axis ≠ []) : product axes ≠ [] := by
  induction axes with
  | nil => exact List.cons_ne_nil _ _
  | cons axis axes ih =>
    obtain ⟨haxis, hmore⟩ := List.forall_mem_cons.mp h
    obtain ⟨a, axis, rfl⟩ := List.exists_cons_of_ne_nil haxis
    simp [product, ih hmore]

theorem foldl_product (axes : List (List (List α))) (out : List (List α)) :
    axes.foldl (fun out axis => out.flatMap fun acc => axis.map (acc ++ ·)) out =
      out.flatMap fun acc => (product axes).map fun choice => acc ++ choice.flatten := by
  induction axes generalizing out with
  | nil => simp [product]
  | cons axis axes ih =>
    rw [List.foldl_cons, ih, product]
    simp only [List.flatMap_assoc, List.flatMap_map, List.map_flatMap, List.map_map]
    simp only [Function.comp_def, List.flatten_cons, List.append_assoc]

-- ---------------------------------------------------------------------------
-- The shared map
-- ---------------------------------------------------------------------------

variable [DecidableEq ν]

abbrev Store (ν β : Type*) := ν → Option β

def setValue (name : ν) (value : β) (current : Store ν β) : Option β × Store ν β :=
  (current name, Function.update current name (some value))

def restoreValue (name : ν) (previous : Option β) (current : Store ν β) : Store ν β :=
  Function.update current name previous

/-- Binds the names of a block one after the other; what they were bound to, last name
first. -/
def setAll : List (ν × β) → List (ν × Option β) → Store ν β → List (ν × Option β) × Store ν β
  | [], previous, current => (previous, current)
  | (name, value) :: block, previous, current =>
    let out := setValue name value current
    setAll block ((name, out.1) :: previous) out.2

def restoreAll (previous : List (ν × Option β)) (current : Store ν β) : Store ν β :=
  previous.foldl (fun current entry => restoreValue entry.1 entry.2 current) current

def assign (current : Store ν β) (block : List (ν × β)) : Store ν β :=
  block.foldl (fun current entry => Function.update current entry.1 (some entry.2)) current

theorem setAll_store (block : List (ν × β)) (previous : List (ν × Option β)) (current : Store ν β) :
    (setAll block previous current).2 = assign current block := by
  induction block generalizing previous current with
  | nil => rfl
  | cons entry block ih => exact ih _ _

theorem restoreAll_setAll (block : List (ν × β)) (previous : List (ν × Option β)) (current : Store ν β) :
    restoreAll (setAll block previous current).1 (setAll block previous current).2 = restoreAll previous current := by
  induction block generalizing previous current with
  | nil => rfl
  | cons entry block ih =>
    obtain ⟨name, value⟩ := entry
    have hback := ih ((name, current name) :: previous) (Function.update current name (some value))
    refine hback.trans ?_
    simp [restoreAll, restoreValue]

theorem assign_append (current : Store ν β) (front behind : List (ν × β)) :
    assign current (front ++ behind) = assign (assign current front) behind := List.foldl_append

theorem assign_eq_lookup [BEq ν] [LawfulBEq ν] {block : List (ν × β)} (h : (block.map Prod.fst).Nodup) (name : ν) :
    assign (fun _ => none) block name = block.lookup name := by
  have hgeneral : ∀ (block : List (ν × β)) (current : Store ν β), (block.map Prod.fst).Nodup →
      assign current block name = (block.lookup name).or (current name) := by
    intro block
    induction block with
    | nil => intro current _; rfl
    | cons entry block ih =>
      intro current hnodup
      obtain ⟨key, value⟩ := entry
      obtain ⟨hkey, hmore⟩ := List.nodup_cons.mp hnodup
      have hrest := ih (Function.update current key (some value)) hmore
      refine hrest.trans ?_
      by_cases hname : name = key
      · subst hname
        have hnone : block.lookup name = none := by
          rw [List.lookup_eq_none_iff]
          intro entry hentry
          exact bne_iff_ne.mpr fun heq => hkey (List.mem_map.mpr ⟨entry, hentry, heq.symm⟩)
        simp [hnone]
      · simp [List.lookup_cons, beq_false_of_ne hname, Function.update_of_ne hname]
  rw [hgeneral block _ h]
  simp

-- ---------------------------------------------------------------------------
-- Visitors
-- ---------------------------------------------------------------------------

/-- The visitor of the axes, each a list of blocks; `leaf` sees the map at the
bottom. -/
def visit (leaf : Store ν β → σ → σ) : List (List (List (ν × β))) → Store ν β × σ → Store ν β × σ
  | [], s => (s.1, leaf s.1 s.2)
  | axis :: axes, s =>
    axis.foldl (fun s block =>
      let bound := setAll block [] s.1
      let out := visit leaf axes (bound.2, s.2)
      (restoreAll bound.1 out.1, out.2)) s

theorem visit_eq (leaf : Store ν β → σ → σ) (axes : List (List (List (ν × β)))) (current : Store ν β) (s : σ) :
    visit leaf axes (current, s) =
      (current, (product axes).foldl (fun s blocks => leaf (assign current blocks.flatten) s) s) := by
  induction axes generalizing current s with
  | nil => rfl
  | cons axis axes ih =>
    rw [visit, product]
    induction axis generalizing s with
    | nil => rfl
    | cons block axis iha =>
      -- one block: the map is back, and what is below it was seen with the block bound
      have hblock : visit leaf axes ((setAll block [] current).2, s) =
          (assign current block, ((product axes).map (block :: ·)).foldl
            (fun s blocks => leaf (assign current blocks.flatten) s) s) := by
        rw [setAll_store, ih, List.foldl_map]
        simp only [List.flatten_cons, assign_append]
      have hback : restoreAll (setAll block [] current).1 (assign current block) = current := by
        rw [← setAll_store block []]
        exact restoreAll_setAll block [] current
      rw [List.foldl_cons, List.flatMap_cons, List.foldl_append]
      simp only [hblock, hback]
      exact iha _

end Visits
