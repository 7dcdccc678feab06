import Mathlib.Data.List.Basic
import Mathlib.Tactic.TypeStar

/-!
# Reading a list of arguments

An argument of a command stays or is removed, alone or together with the argument
after it, which is its value. A `Reading` says which, for each argument that stands
where an option may stand; `left` are the arguments that stay. Two readings of one
list are compared through the arguments that the finer one leaves.
-/

namespace Arguments

inductive Reading
  | keep
  | keepWithNext
  | drop
  | dropWithNext
  deriving DecidableEq

/-- What becomes of the next argument when it is the value of the one before. -/
inductive Value
  | kept
  | dropped
  deriving DecidableEq

variable {α : Type*} {reading finer : α → Reading} {pending : Option Value} {a : α} {args more : List α}

def Reading.next : Reading → Option Value
  | .keep | .drop => none
  | .keepWithNext => some .kept
  | .dropWithNext => some .dropped

def Reading.stays : Reading → Bool
  | .keep | .keepWithNext => true
  | .drop | .dropWithNext => false

/-- The arguments that stay; the first one is a value if `pending` says so. -/
def left (reading : α → Reading) : Option Value → List α → List α
  | _, [] => []
  | some .kept, a :: args => a :: left reading none args
  | some .dropped, _ :: args => left reading none args
  | none, a :: args =>
    if (reading a).stays then a :: left reading (reading a).next args else left reading (reading a).next args

/-- Whether the argument behind the list is a value of the list's last one. -/
def after (reading : α → Reading) : Option Value → List α → Option Value
  | pending, [] => pending
  | some _, _ :: args => after reading none args
  | none, a :: args => after reading (reading a).next args

attribute [local simp] left after Reading.next Reading.stays

@[simp] theorem left_nil : left reading pending [] = [] := by
  cases pending <;> rfl

@[simp] theorem left_kept : left reading (some .kept) (a :: args) = a :: left reading none args := rfl

@[simp] theorem left_dropped : left reading (some .dropped) (a :: args) = left reading none args := rfl

theorem left_keep (h : reading a = .keep) : left reading none (a :: args) = a :: left reading none args := by
  simp [left, h, Reading.stays, Reading.next]

theorem left_keepWithNext (h : reading a = .keepWithNext) :
    left reading none (a :: args) = a :: left reading (some .kept) args := by
  simp [left, h, Reading.stays, Reading.next]

theorem left_drop (h : reading a = .drop) : left reading none (a :: args) = left reading none args := by
  simp [left, h, Reading.stays, Reading.next]

theorem left_dropWithNext (h : reading a = .dropWithNext) :
    left reading none (a :: args) = left reading (some .dropped) args := by
  simp [left, h, Reading.stays, Reading.next]

theorem left_append :
    left reading pending (args ++ more) =
      left reading pending args ++ left reading (after reading pending args) more := by
  induction args generalizing pending with
  | nil => simp [after]
  | cons a args ih =>
    rcases pending with _ | value
    · simp only [List.cons_append, left, after, ih]
      split <;> rfl
    · cases value <;> simp [after, ih]

theorem left_eq_self (h : ∀ a ∈ args, reading a = .keep) : left reading none args = args := by
  induction args with
  | nil => rfl
  | cons a args ih =>
    rw [left_keep (h a List.mem_cons_self), ih fun b hb => h b (List.mem_cons_of_mem a hb)]

/-- A reading that never keeps a value leaves only what it keeps by itself. -/
theorem keep_of_mem_left (h : ∀ a, reading a ≠ .keepWithNext) (hpending : pending ≠ some .kept)
    (ha : a ∈ left reading pending args) : reading a = .keep := by
  induction args generalizing pending with
  | nil => simp at ha
  | cons b args ih =>
    rcases pending with _ | value
    · cases hb : reading b with
      | keep =>
        rw [left_keep hb, List.mem_cons] at ha
        rcases ha with rfl | ha
        · exact hb
        · exact ih (by simp) ha
      | keepWithNext => exact absurd hb (h b)
      | drop =>
        rw [left_drop hb] at ha
        exact ih (by simp) ha
      | dropWithNext =>
        rw [left_dropWithNext hb] at ha
        exact ih (by simp) ha
    · cases value with
      | kept => exact absurd rfl hpending
      | dropped => exact ih (by simp) ha

-- ---------------------------------------------------------------------------
-- One argument after the other
-- ---------------------------------------------------------------------------

def Reading.staysAt (reading : α → Reading) : Option Value → α → Bool
  | none, a => (reading a).stays
  | some .kept, _ => true
  | some .dropped, _ => false

def Reading.nextAt (reading : α → Reading) : Option Value → α → Option Value
  | none, a => (reading a).next
  | some _, _ => none

theorem left_cons_of_staysAt (h : Reading.staysAt reading pending a = true) :
    left reading pending (a :: args) = a :: left reading (Reading.nextAt reading pending a) args := by
  rcases pending with _ | value
  · have hstays : (reading a).stays = true := h
    rw [left, if_pos hstays]
    rfl
  · cases value with
    | kept => rfl
    | dropped => cases h

theorem left_cons_of_not_staysAt (h : Reading.staysAt reading pending a = false) :
    left reading pending (a :: args) = left reading (Reading.nextAt reading pending a) args := by
  rcases pending with _ | value
  · have hstays : (reading a).stays = false := h
    rw [left, hstays]
    rfl
  · cases value with
    | kept => cases h
    | dropped => rfl

theorem count_left_cons [DecidableEq α] (b : α) :
    (left reading pending (a :: args)).count b =
      (left reading (Reading.nextAt reading pending a) args).count b +
        if Reading.staysAt reading pending a = true ∧ a = b then 1 else 0 := by
  cases h : Reading.staysAt reading pending a with
  | true =>
    rw [left_cons_of_staysAt h, List.count_cons]
    simp
  | false => simp [left_cons_of_not_staysAt h]

theorem after_cons : after reading pending (a :: args) = after reading (Reading.nextAt reading pending a) args := by
  cases pending <;> rfl

theorem left_sublist_cons :
    (left reading (Reading.nextAt reading pending a) args).Sublist (left reading pending (a :: args)) := by
  cases h : Reading.staysAt reading pending a with
  | true =>
    rw [left_cons_of_staysAt h]
    exact List.sublist_cons_self a _
  | false => rw [left_cons_of_not_staysAt h]

theorem left_sublist : (left reading pending args).Sublist args := by
  induction args generalizing pending with
  | nil => simp
  | cons a args ih =>
    cases h : Reading.staysAt reading pending a with
    | true =>
      rw [left_cons_of_staysAt h]
      exact ih.cons_cons a
    | false =>
      rw [left_cons_of_not_staysAt h]
      exact ih.cons a

theorem mem_of_mem_left (h : a ∈ left reading pending args) : a ∈ args := left_sublist.subset h

theorem count_left_eq_zero [DecidableEq α] (h : a ∉ args) : (left reading pending args).count a = 0 :=
  List.count_eq_zero.mpr (mt mem_of_mem_left h)

-- ---------------------------------------------------------------------------
-- Taking an argument out
-- ---------------------------------------------------------------------------

theorem after_append : after reading pending (args ++ more) = after reading (after reading pending args) more := by
  induction args generalizing pending with
  | nil => rfl
  | cons a args ih => rw [List.cons_append, after_cons, after_cons, ih]

/-- What the test finds is removed by itself and is no value. -/
def Aside (reading : α → Reading) (test : α → Bool) : Option Value → List α → Prop
  | _, [] => True
  | pending, a :: args =>
    (test a = true → pending = none ∧ reading a = .drop) ∧ Aside reading test (Reading.nextAt reading pending a) args

instance instDecidableAside (reading : α → Reading) (test : α → Bool) (pending : Option Value) (args : List α) :
    Decidable (Aside reading test pending args) :=
  match args with
  | [] => inferInstanceAs (Decidable True)
  | a :: args =>
    have := instDecidableAside reading test (Reading.nextAt reading pending a) args
    inferInstanceAs (Decidable ((test a = true → pending = none ∧ reading a = .drop) ∧ Aside _ _ _ args))

variable {test : α → Bool}

theorem aside_append :
    Aside reading test pending (args ++ more) ↔
      Aside reading test pending args ∧ Aside reading test (after reading pending args) more := by
  induction args generalizing pending with
  | nil => simp [Aside, after]
  | cons a args ih => simp only [List.cons_append, Aside, after_cons, ih, and_assoc]

theorem aside_of_none (h : ∀ a ∈ args, test a = false) : Aside reading test pending args := by
  induction args generalizing pending with
  | nil => trivial
  | cons a args ih =>
    refine ⟨fun ha => ?_, ih fun b hb => h b (List.mem_cons_of_mem a hb)⟩
    rw [h a List.mem_cons_self] at ha
    cases ha

theorem Aside.eraseP (h : Aside reading test pending args) :
    left reading pending (args.eraseP test) = left reading pending args ∧
      after reading pending (args.eraseP test) = after reading pending args := by
  induction args generalizing pending with
  | nil => exact ⟨rfl, rfl⟩
  | cons a args ih =>
    obtain ⟨ha, hargs⟩ := h
    cases htest : test a with
    | true =>
      obtain ⟨rfl, hdrop⟩ := ha htest
      rw [List.eraseP_cons_of_pos htest, left_drop hdrop, after_cons]
      exact ⟨rfl, by rw [Reading.nextAt, hdrop]; rfl⟩
    | false =>
      obtain ⟨hleft, hafter⟩ := ih hargs
      rw [List.eraseP_cons_of_neg (by simp [htest]), after_cons, after_cons, hafter]
      refine ⟨?_, rfl⟩
      cases hstays : Reading.staysAt reading pending a with
      | true => rw [left_cons_of_staysAt hstays, left_cons_of_staysAt hstays, hleft]
      | false => rw [left_cons_of_not_staysAt hstays, left_cons_of_not_staysAt hstays, hleft]

-- ---------------------------------------------------------------------------
-- Two readings of one list
-- ---------------------------------------------------------------------------

/-- What the finer reading removes, the other one removes in the same way. -/
def Refines (finer reading : α → Reading) : Prop :=
  ∀ a, (finer a).stays = false → reading a = finer a

/-- The two readings leave the same when the coarser one keeps whatever the finer
one leaves. -/
theorem left_eq_of_kept (pending : Option Value) (href : Refines finer reading) (h : ∀ a ∈ left finer pending args, reading a = .keep) :
    left reading (pending.filter (· = .dropped)) args = left finer pending args := by
  induction args generalizing pending with
  | nil => simp
  | cons a args ih =>
    rcases pending with _ | value
    · simp only [Option.filter_none]
      cases ha : finer a with
      | keep =>
        rw [left_keep ha] at h ⊢
        rw [left_keep (h a List.mem_cons_self)]
        exact congrArg _ (ih none fun b hb => h b (List.mem_cons_of_mem a hb))
      | keepWithNext =>
        rw [left_keepWithNext ha] at h ⊢
        rw [left_keep (h a List.mem_cons_self)]
        exact congrArg _ (ih (some .kept) fun b hb => h b (List.mem_cons_of_mem a hb))
      | drop =>
        rw [left_drop ha] at h ⊢
        rw [left_drop ((href a (by rw [ha]; rfl)).trans ha)]
        exact ih none h
      | dropWithNext =>
        rw [left_dropWithNext ha] at h ⊢
        rw [left_dropWithNext ((href a (by rw [ha]; rfl)).trans ha)]
        exact ih (some .dropped) h
    · cases value with
      | kept =>
        rw [left_kept] at h ⊢
        have hkept : (some Value.kept).filter (· = .dropped) = none := rfl
        rw [hkept, left_keep (h a List.mem_cons_self)]
        exact congrArg _ (ih none fun b hb => h b (List.mem_cons_of_mem a hb))
      | dropped => exact ih none h

theorem left_eq_iff (href : Refines finer reading) (h : ∀ a, reading a ≠ .keepWithNext) :
    left reading none args = left finer none args ↔ ∀ a ∈ left finer none args, reading a = .keep := by
  constructor
  · intro heq a ha
    exact keep_of_mem_left h (by simp) (heq ▸ ha)
  · intro hkept
    exact left_eq_of_kept none href hkept

end Arguments
