import Gentest.Mock.InstanceState
import Mathlib.Algebra.GroupWithZero.Nat
import Mathlib.Data.List.Induction

/-!
# Call accounting of a mock

Which expectation handles which call of a method, which calls are unexpected,
and what verification reports. The expectations of a method with their cursor
form a queue; `served` says in closed form what it is after `j` calls.
-/

namespace Gentest.Mock

-- ---------------------------------------------------------------------------
-- The queue of one method
-- ---------------------------------------------------------------------------

section Queue

variable {V R : Type} {es : List (Expectation V R)} {e : Expectation V R}

/-- The expectations and the cursor after `j` calls. -/
def served : List (Expectation V R) → Nat → List (Expectation V R) × Nat
  | [], _ => ([], 0)
  | e :: es, j =>
    if e.allowExcess = true ∨ j < e.expectedCalls then ({ e with observedCalls := j } :: es, 0)
    else
      ({ e with observedCalls := e.expectedCalls } :: (served es (j - e.expectedCalls)).1,
        (served es (j - e.expectedCalls)).2 + 1)

def demand (es : List (Expectation V R)) : Nat := (es.map Expectation.expectedCalls).sum

@[simp] theorem demand_cons (e : Expectation V R) (es : List (Expectation V R)) :
    demand (e :: es) = e.expectedCalls + demand es := by
  simp [demand]

def Fresh (es : List (Expectation V R)) : Prop :=
  ∀ e ∈ es, e.observedCalls = 0 ∧ e.alreadyVerified = false

theorem served_zero (hfresh : Fresh es) (hpos : ∀ e ∈ es, 1 ≤ e.expectedCalls) :
    served es 0 = (es, 0) := by
  cases es with
  | nil => rfl
  | cons e es =>
    have hzero := (hfresh e (List.mem_cons_self ..)).1
    have hone := hpos e (List.mem_cons_self ..)
    rw [served, if_pos (.inr (by omega))]
    cases e
    simp_all

theorem served_succ_none (h : (served es j).1[(served es j).2]? = none) :
    served es (j + 1) = served es j := by
  induction es generalizing j with
  | nil => rfl
  | cons e es ih =>
    by_cases hopen : e.allowExcess = true ∨ j < e.expectedCalls
    · simp [served, hopen] at h
    · have hdone : ¬(e.allowExcess = true ∨ j + 1 < e.expectedCalls) := by
        rw [not_or] at hopen ⊢
        exact ⟨hopen.1, by omega⟩
      have hsub : j + 1 - e.expectedCalls = j - e.expectedCalls + 1 := by
        rw [not_or] at hopen
        omega
      rw [served, if_neg hopen, List.getElem?_cons_succ] at h
      rw [served, served, if_neg hopen, if_neg hdone, hsub, ih h]

/-- A call is taken by the expectation at the cursor, which moves on when that
one has all its calls. -/
theorem served_succ_some (hfresh : Fresh es) (hpos : ∀ e ∈ es, 1 ≤ e.expectedCalls)
    (h : (served es j).1[(served es j).2]? = some e) :
    served es (j + 1) =
        ((served es j).1.set (served es j).2 { e with observedCalls := e.observedCalls + 1 },
          if !e.allowExcess && decide (e.observedCalls + 1 ≥ e.expectedCalls) then (served es j).2 + 1
          else (served es j).2) ∧
      (e.allowExcess = false → e.observedCalls < e.expectedCalls) := by
  induction es generalizing j with
  | nil => simp [served] at h
  | cons x es ih =>
    have hone := hpos x (List.mem_cons_self ..)
    by_cases hopen : x.allowExcess = true ∨ j < x.expectedCalls
    · rw [served, if_pos hopen, List.getElem?_cons_zero] at h
      cases h
      rw [served, served, if_pos hopen]
      refine ⟨?_, fun hex => hopen.resolve_left (ne_true_of_eq_false hex)⟩
      by_cases hmore : x.allowExcess = true ∨ j + 1 < x.expectedCalls
      · have hstay : (!x.allowExcess && decide (j + 1 ≥ x.expectedCalls)) = false := by
          rcases hmore with hex | hlt
          · simp [hex]
          · simp [Nat.not_le.mpr hlt]
        rw [if_pos hmore]
        simp [hstay]
      · have hmoves : (!x.allowExcess && decide (j + 1 ≥ x.expectedCalls)) = true := by
          rw [not_or] at hmore
          simp only [Bool.not_eq_true] at hmore
          simp [hmore.1, Nat.not_lt.mp hmore.2]
        have hlast : j + 1 = x.expectedCalls := by
          rw [not_or] at hmore
          have := hopen.resolve_left hmore.1
          omega
        have hrest : served es 0 = (es, 0) :=
          served_zero (fun e he => hfresh e (List.mem_cons_of_mem _ he)) fun e he => hpos e (List.mem_cons_of_mem _ he)
        rw [if_neg hmore]
        simp only [hmoves, if_true, List.set_cons_zero]
        rw [hlast, Nat.sub_self, hrest]
    · rw [served, if_neg hopen, List.getElem?_cons_succ] at h
      have hdone : ¬(x.allowExcess = true ∨ j + 1 < x.expectedCalls) := by
        rw [not_or] at hopen ⊢
        exact ⟨hopen.1, by omega⟩
      have hsub : j + 1 - x.expectedCalls = j - x.expectedCalls + 1 := by
        rw [not_or] at hopen
        omega
      obtain ⟨hnext, hlt⟩ := ih (fun e he => hfresh e (List.mem_cons_of_mem _ he))
        (fun e he => hpos e (List.mem_cons_of_mem _ he)) h
      refine ⟨?_, hlt⟩
      rw [served, served, if_neg hopen, if_neg hdone, hsub, hnext]
      simp only [List.set_cons_succ]
      split <;> rfl

theorem served_append_cursor {pre : List (Expectation V R)} (rest : List (Expectation V R))
    (hno : ∀ e ∈ pre, e.allowExcess = false)
    (hle : demand pre ≤ j) : (served (pre ++ rest) j).2 = pre.length + (served rest (j - demand pre)).2 := by
  induction pre generalizing j with
  | nil => simp [demand]
  | cons x pre ih =>
    rw [demand_cons] at hle
    have hclosed : ¬(x.allowExcess = true ∨ j < x.expectedCalls) := by
      rw [hno x (List.mem_cons_self ..)]
      simpa using Nat.le_trans (Nat.le_add_right _ _) hle
    have hrest := ih (fun e he => hno e (List.mem_cons_of_mem _ he)) (j := j - x.expectedCalls) (by omega)
    rw [List.cons_append, served, if_neg hclosed, hrest, demand_cons, List.length_cons, Nat.sub_sub]
    omega

/-- Between the demand of the expectations before it and its own, the cursor
is on an expectation; with `allow_excess` it stays there. -/
theorem cursor_at {i : Nat} (hno : ∀ e ∈ es.take i, e.allowExcess = false) (hle : demand (es.take i) ≤ j)
    (he : es[i]? = some e) (hopen : e.allowExcess = true ∨ j < demand (es.take i) + e.expectedCalls) :
    (served es j).2 = i := by
  obtain ⟨hi, rfl⟩ := List.getElem?_eq_some_iff.mp he
  have hsplit : es = es.take i ++ es[i] :: es.drop (i + 1) := by
    rw [← List.drop_eq_getElem_cons hi, List.take_append_drop]
  have hcursor := served_append_cursor (es[i] :: es.drop (i + 1)) hno hle
  rw [← hsplit, served, if_pos (hopen.imp_right fun h => by omega), List.length_take_of_le (Nat.le_of_lt hi)] at hcursor
  exact hcursor

theorem cursor_lt {i : Nat} (h : j < demand (es.take i)) : (served es j).2 < i := by
  induction es generalizing i j with
  | nil => simp [demand] at h
  | cons x es ih =>
    cases i with
    | zero => simp [demand] at h
    | succ i =>
      rw [List.take_succ_cons, demand_cons] at h
      rw [served]
      split
      · exact Nat.succ_pos i
      · rename_i hclosed
        rw [not_or] at hclosed
        exact Nat.succ_lt_succ (ih (by omega))

theorem cursor_end (hno : ∀ e ∈ es, e.allowExcess = false) (hle : demand es ≤ j) : (served es j).2 = es.length := by
  have hcursor := served_append_cursor [] hno hle
  rwa [List.append_nil, served] at hcursor

@[simp] theorem served_length (es : List (Expectation V R)) (j : Nat) : (served es j).1.length = es.length := by
  induction es generalizing j with
  | nil => rfl
  | cons x es ih =>
    rw [served]
    split
    · rfl
    · simp [ih]

theorem served_not_verified (hfresh : Fresh es) : ∀ e ∈ (served es j).1, e.alreadyVerified = false := by
  induction es generalizing j with
  | nil => exact nofun
  | cons x es ih =>
    have hx := (hfresh x (List.mem_cons_self ..)).2
    have hrest : Fresh es := fun e he => hfresh e (List.mem_cons_of_mem _ he)
    rw [served]
    split
    · intro e he
      rcases List.mem_cons.mp he with rfl | he
      · exact hx
      · exact (hrest e he).2
    · intro e he
      rcases List.mem_cons.mp he with rfl | he
      · exact hx
      · exact ih hrest e he

/-- Every expectation has its calls exactly when all of them have been made. -/
theorem served_complete (hpos : ∀ e ∈ es, 1 ≤ e.expectedCalls) (hfresh : Fresh es)
    (hno : ∀ e ∈ es, e.allowExcess = false) :
    (∀ e ∈ (served es j).1, ¬e.observedCalls < e.expectedCalls) ↔ demand es ≤ j := by
  induction es generalizing j with
  | nil => simp [served, demand]
  | cons x es ih =>
    have hrest := ih (fun e he => hpos e (List.mem_cons_of_mem _ he)) (fun e he => hfresh e (List.mem_cons_of_mem _ he))
      (fun e he => hno e (List.mem_cons_of_mem _ he)) (j := j - x.expectedCalls)
    rw [served, demand_cons]
    split
    · rename_i hopen
      have hlt : j < x.expectedCalls := hopen.resolve_left (ne_true_of_eq_false (hno x (List.mem_cons_self ..)))
      constructor
      · intro h
        exact absurd hlt (h _ (List.mem_cons_self ..))
      · intro h
        omega
    · rename_i hclosed
      rw [not_or] at hclosed
      rw [List.forall_mem_cons, hrest]
      simp only [Nat.lt_irrefl, not_false_eq_true, true_and]
      omega

theorem cursor_le (es : List (Expectation V R)) (j : Nat) : (served es j).2 ≤ es.length := by
  induction es generalizing j with
  | nil => exact Nat.le_refl _
  | cons x es ih =>
    rw [served]
    split
    · exact Nat.zero_le _
    · exact Nat.succ_le_succ (ih _)

end Queue

-- ---------------------------------------------------------------------------
-- The methods of a mock
-- ---------------------------------------------------------------------------

section Methods

variable {Id V R : Type} [DecidableEq Id] {s : InstanceState Id V R} {id : Id}

theorem lookup_map_at (l : List (Id × MethodEntry V R)) (id id' : Id) (f : MethodEntry V R → MethodEntry V R) :
    (l.map fun p => (p.1, if p.1 = id then f p.2 else p.2)).lookup id' =
      if id' = id then (l.lookup id').map f else l.lookup id' := by
  induction l with
  | nil => simp
  | cons p l ih =>
    obtain ⟨k, m⟩ := p
    simp only [List.map_cons, List.lookup_cons, ih]
    by_cases hk : id' = k
    · subst hk
      by_cases hid : id' = id <;> simp [hid]
    · have hne : (id' == k) = false := by simpa using hk
      simp [hne]

theorem find_modify (s : InstanceState Id V R) (id id' : Id) (f : MethodEntry V R → MethodEntry V R) :
    (s.modify id f).find id' = if id' = id then (s.find id').map f else s.find id' :=
  lookup_map_at s.methods id id' f

/-- The entry of a method after `j` calls. -/
def entryAfter (m : Option (MethodEntry V R)) (j : Nat) : Option (MethodEntry V R) :=
  m.map fun m =>
    { m with expectations := (served m.expectations j).1, nextExpectation := (served m.expectations j).2 }

/-- A call reaches a method under its identity or its fallback identity. -/
def Dispatch.concerns (id : Id) (d : Dispatch Id V) : Bool := d.id == id || d.fallbackId == id

/-- The calls that reach a method know it under no second identity that has
expectations of its own. -/
def Unshared (s : InstanceState Id V R) (id : Id) (d : Dispatch Id V) : Prop :=
  d.concerns id = true → (d.id ≠ id → s.find d.id = none) ∧ (d.fallbackId ≠ id → s.find d.fallbackId = none)

theorem take_concerned {d : Dispatch Id V} (hd : d.concerns id = true) (hun : Unshared s id d) :
    s.take d = ((s.find id).bind MethodEntry.tryTakeExpectation).map fun t => (id, t) := by
  obtain ⟨hid, hfb⟩ := hun hd
  unfold InstanceState.take
  by_cases h : d.id = id
  · subst h
    cases htake : (s.find d.id).bind MethodEntry.tryTakeExpectation with
    | some t => rfl
    | none =>
      by_cases hsame : d.fallbackId = d.id
      · simp [hsame]
      · simp [hsame, hfb hsame]
  · have hf : d.fallbackId = id := by simpa [Dispatch.concerns, h] using hd
    subst hf
    have hne : d.fallbackId ≠ d.id := fun heq => h heq.symm
    simp [hid h, hne]

theorem take_apart {d : Dispatch Id V} (hd : d.concerns id = false) (h : s.take d = some (k, t)) : k ≠ id := by
  simp only [Dispatch.concerns, Bool.or_eq_false_iff, beq_eq_false_iff_ne] at hd
  unfold InstanceState.take at h
  split at h
  · cases h
    exact hd.1
  · split at h
    · cases h
    · obtain ⟨t', -, heq⟩ := Option.map_eq_some_iff.mp h
      cases heq
      exact hd.2

def expectationsOf (m : Option (MethodEntry V R)) : List (Expectation V R) :=
  match m with
  | none => []
  | some m => m.expectations

theorem tryTake_none {m : Option (MethodEntry V R)} (hend : (served (expectationsOf m) j).2 = (expectationsOf m).length) :
    (entryAfter m j).bind MethodEntry.tryTakeExpectation = none ∧ entryAfter m (j + 1) = entryAfter m j := by
  cases m with
  | none => exact ⟨rfl, rfl⟩
  | some m =>
    have hnone : (served m.expectations j).1[(served m.expectations j).2]? = none := by
      rw [List.getElem?_eq_none_iff, served_length]
      exact Nat.le_of_eq hend.symm
    refine ⟨?_, ?_⟩
    · simp [entryAfter, MethodEntry.tryTakeExpectation, hnone]
    · simp [entryAfter, served_succ_none hnone]

theorem tryTake_some {m : Option (MethodEntry V R)} (hfresh : Fresh (expectationsOf m))
    (hpos : ∀ e ∈ expectationsOf m, 1 ≤ e.expectedCalls)
    (hlt : (served (expectationsOf m) j).2 < (expectationsOf m).length) :
    ∃ t, (entryAfter m j).bind MethodEntry.tryTakeExpectation = some t ∧ some t.entry = entryAfter m (j + 1) ∧
      t.index = (served (expectationsOf m) j).2 ∧ t.unexpected = false := by
  cases m with
  | none => simp [expectationsOf] at hlt
  | some m =>
    obtain ⟨e, hsome⟩ : ∃ e, (served m.expectations j).1[(served m.expectations j).2]? = some e :=
      ⟨_, List.getElem?_eq_getElem (by rw [served_length]; exact hlt)⟩
    obtain ⟨hnext, hobs⟩ := served_succ_some hfresh hpos hsome
    simp only [expectationsOf] at hnext ⊢
    simp only [entryAfter, Option.map_some, Option.bind_some, MethodEntry.tryTakeExpectation, hsome, hnext]
    refine ⟨_, rfl, rfl, rfl, ?_⟩
    cases hex : e.allowExcess with
    | true => rfl
    | false => simpa using hobs hex

theorem entryAfter_zero (m : Option (MethodEntry V R)) (hfresh : Fresh (expectationsOf m))
    (hpos : ∀ e ∈ expectationsOf m, 1 ≤ e.expectedCalls) (hnext : ∀ m' ∈ m, m'.nextExpectation = 0) :
    entryAfter m 0 = m := by
  cases m with
  | none => rfl
  | some m =>
    have hzero : served m.expectations 0 = (m.expectations, 0) := served_zero hfresh hpos
    have hcursor := hnext m rfl
    simp only [entryAfter, Option.map_some, hzero]
    cases m
    simp_all

/-- A mock that is configured and has not been called. -/
structure Ready (s : InstanceState Id V R) (id : Id) : Prop where
  fresh : Fresh (expectationsOf (s.find id))
  cursor : ∀ m ∈ s.find id, m.nextExpectation = 0

def callsOf (id : Id) (calls : List (Dispatch Id V)) : Nat := calls.countP (Dispatch.concerns id)

/-- What is known of a mock after some calls: the queue of the method has
served those that reach it. -/
structure Served (s₀ : InstanceState Id V R) (id : Id) (calls : List (Dispatch Id V)) (s : InstanceState Id V R) :
    Prop where
  find : s.find id = entryAfter (s₀.find id) (callsOf id calls)
  nice : s.niceMode = s₀.niceMode
  absent : ∀ k, s₀.find k = none → s.find k = none

theorem Served.unshared {s₀ : InstanceState Id V R} {d : Dispatch Id V} (h : Served s₀ id calls s)
    (hun : Unshared s₀ id d) :
    Unshared s id d := by
  intro hd
  obtain ⟨hid, hfb⟩ := hun hd
  exact ⟨fun hne => h.absent _ (hid hne), fun hne => h.absent _ (hfb hne)⟩

theorem callsOf_lt_of_split {calls : List (Dispatch Id V)} (hsplit : calls = before ++ d :: after) (hd : d.concerns id = true) :
    callsOf id before < callsOf id calls := by
  rw [hsplit, callsOf, callsOf, List.countP_append, List.countP_cons, if_pos hd]
  omega

theorem exists_split {calls : List (Dispatch Id V)} {n : Nat} (h : n < callsOf id calls) :
    ∃ before d after, calls = before ++ d :: after ∧ d.concerns id = true ∧ callsOf id before = n := by
  induction calls using List.reverseRecOn with
  | nil => simp [callsOf] at h
  | append_singleton calls d ih =>
    by_cases hlt : n < callsOf id calls
    · obtain ⟨before, c, after, rfl, hc, hn⟩ := ih hlt
      exact ⟨before, c, after ++ [d], by simp, hc, hn⟩
    · rw [callsOf, List.countP_append, List.countP_singleton] at h
      cases hd : d.concerns id with
      | false =>
        rw [hd] at h
        simp only [Bool.false_eq_true, if_false, Nat.add_zero] at h
        exact absurd h hlt
      | true =>
        rw [hd, if_pos rfl] at h
        refine ⟨calls, d, [], rfl, hd, ?_⟩
        unfold callsOf at hlt ⊢
        omega

end Methods

-- ---------------------------------------------------------------------------
-- One call
-- ---------------------------------------------------------------------------

section Arguments

variable {V R : Type}

def MockFailure.isCount : MockFailure → Bool
  | .unexpectedCall _ => true
  | .shortfall .. => true
  | _ => false

theorem reportFirst_not_count [DecidableEq V] [ToString V] (methodName : String) (i : Nat) (es as : List V) :
    ∀ f ∈ reportFirstTupleArgMismatch methodName i es as, f.isCount = false := by
  induction es generalizing i as with
  | nil => exact nofun
  | cons e es ih =>
    cases as with
    | nil => exact nofun
    | cons a as =>
      unfold reportFirstTupleArgMismatch
      split
      · intro f hf
        rw [List.mem_singleton.mp hf]
        rfl
      · exact ih (i + 1) as

theorem matchPredicates_not_count (methodName : String) (i : Nat) (ps : List (ArgPredicate V)) (as : List V) :
    ∀ f ∈ tupleArgsMatchPredicates methodName i ps as, f.isCount = false := by
  induction ps generalizing i as with
  | nil => exact nofun
  | cons p ps ih =>
    cases as with
    | nil => exact nofun
    | cons a as =>
      unfold tupleArgsMatchPredicates
      split
      · exact ih (i + 1) as
      · intro f hf
        rw [List.mem_singleton.mp hf]
        rfl

theorem checkArgs_not_count [DecidableEq V] [ToString V] (e : Expectation V R) (methodName : String) (args : List V) :
    ∀ f ∈ e.checkArgs methodName args, f.isCount = false := by
  unfold Expectation.checkArgs
  split
  · split
    · exact nofun
    · intro f hf
      rw [List.mem_singleton.mp hf]
      rfl
  · split
    · exact matchPredicates_not_count _ _ _ _
    · split
      · exact reportFirst_not_count _ _ _ _
      · exact nofun

end Arguments

section Calls

variable {Id V R : Type} [DecidableEq Id] [DecidableEq V] [ToString V] [Inhabited R]
variable {s : InstanceState Id V R} {id : Id} {d : Dispatch Id V}

theorem dispatch_nice : (s.dispatchWithFallback d).1.niceMode = s.niceMode := by
  unfold InstanceState.dispatchWithFallback
  split <;> rfl

theorem dispatch_absent (h : s.find k = none) : (s.dispatchWithFallback d).1.find k = none := by
  unfold InstanceState.dispatchWithFallback
  split
  · exact h
  · rw [find_modify]
    split
    · simp [InstanceState.start, InstanceState.find] at h ⊢
      exact h
    · exact h

theorem dispatch_apart (hd : d.concerns id = false) :
    (s.dispatchWithFallback d).1.find id = s.find id ∧
      ∀ i, (s.dispatchWithFallback d).2.handledBy ≠ some (id, i) := by
  unfold InstanceState.dispatchWithFallback
  split
  · exact ⟨rfl, nofun⟩
  · rename_i k t htake
    have hne := take_apart hd htake
    refine ⟨?_, fun i heq => hne (congrArg Prod.fst (Option.some.inj heq))⟩
    rw [find_modify, if_neg hne.symm]
    rfl

theorem dispatch_beyond (hd : d.concerns id = true) (hun : Unshared s id d) (hfind : s.find id = entryAfter m j)
    (hend : (served (expectationsOf m) j).2 = (expectationsOf m).length) :
    (s.dispatchWithFallback d).1.find id = entryAfter m (j + 1) ∧
      (s.dispatchWithFallback d).2.handledBy = none ∧
      (s.dispatchWithFallback d).2.failures = if s.niceMode then [] else [.unexpectedCall d.methodName] := by
  obtain ⟨hnone, hsame⟩ := tryTake_none hend
  have htake : s.take d = none := by rw [take_concerned hd hun, hfind, hnone]; rfl
  unfold InstanceState.dispatchWithFallback
  rw [htake, hsame]
  exact ⟨hfind, rfl, rfl⟩

theorem dispatch_within (hd : d.concerns id = true) (hun : Unshared s id d) (hfind : s.find id = entryAfter m j)
    (hfresh : Fresh (expectationsOf m)) (hpos : ∀ e ∈ expectationsOf m, 1 ≤ e.expectedCalls)
    (hlt : (served (expectationsOf m) j).2 < (expectationsOf m).length) :
    (s.dispatchWithFallback d).1.find id = entryAfter m (j + 1) ∧
      (s.dispatchWithFallback d).2.handledBy = some (id, (served (expectationsOf m) j).2) ∧
      ∀ f ∈ (s.dispatchWithFallback d).2.failures, f.isCount = false := by
  obtain ⟨t, htry, hentry, hindex, hun'⟩ := tryTake_some hfresh hpos hlt
  have htake : s.take d = some (id, t) := by rw [take_concerned hd hun, hfind, htry]; rfl
  unfold InstanceState.dispatchWithFallback
  rw [htake]
  refine ⟨?_, congrArg (fun i => some (id, i)) hindex, ?_⟩
  · simp only [find_modify, if_true]
    rw [← hentry]
    have hsome : (s.find id).isSome := by
      rw [hfind]
      cases h : entryAfter m j with
      | none => simp [h] at htry
      | some m' => rfl
    obtain ⟨m', hm'⟩ := Option.isSome_iff_exists.mp hsome
    show (s.find id).map _ = _
    rw [hm']
    rfl
  · simp only [hun', Bool.false_eq_true, if_false, List.nil_append]
    exact checkArgs_not_count _ _ _

-- ---------------------------------------------------------------------------
-- Runs of calls
-- ---------------------------------------------------------------------------

theorem served_run {s₀ : InstanceState Id V R} (hready : Ready s₀ id)
    (hpos : ∀ e ∈ expectationsOf (s₀.find id), 1 ≤ e.expectedCalls) (hun : ∀ d ∈ calls, Unshared s₀ id d) :
    Served s₀ id calls (runDispatches s₀ calls) := by
  induction calls using List.reverseRecOn with
  | nil => exact ⟨(entryAfter_zero _ hready.fresh hpos hready.cursor).symm, rfl, fun _ h => h⟩
  | append_singleton calls d ih =>
    have h := ih fun d hd => hun d (List.mem_append_left _ hd)
    have hund := h.unshared (hun d (by simp))
    have hstep : runDispatches s₀ (calls ++ [d]) = ((runDispatches s₀ calls).dispatchWithFallback d).1 := by
      simp [runDispatches, List.foldl_append]
    rw [hstep]
    refine ⟨?_, dispatch_nice.trans h.nice, fun k hk => dispatch_absent (h.absent k hk)⟩
    cases hd : d.concerns id with
    | false =>
      rw [(dispatch_apart hd).1, h.find, callsOf, callsOf, List.countP_append, List.countP_singleton, hd]
      rfl
    | true =>
      have hcount : callsOf id (calls ++ [d]) = callsOf id calls + 1 := by
        rw [callsOf, callsOf, List.countP_append, List.countP_singleton, hd]
        rfl
      rw [hcount]
      rcases Nat.lt_or_eq_of_le (cursor_le (expectationsOf (s₀.find id)) (callsOf id calls)) with hlt | heq
      · exact (dispatch_within hd hund h.find hready.fresh hpos hlt).1
      · exact (dispatch_beyond hd hund h.find heq).1

end Calls

end Gentest.Mock
