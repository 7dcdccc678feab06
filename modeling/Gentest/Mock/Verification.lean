import Gentest.Mock.CallAccounting

/-!
# Verification and freezing of a mock

What `verify_all` reports after a run of calls, that repeating it reports
nothing more, and that neither expectations nor the mode change once a mock is
in use. `mock_call_accounting` puts the accounting of a method together.
-/

namespace Gentest.Mock

-- ---------------------------------------------------------------------------
-- How many calls each expectation handled
-- ---------------------------------------------------------------------------

section Queue

variable {V R : Type} {es : List (Expectation V R)} {e : Expectation V R}

theorem served_get {i : Nat} (h : es[i]? = some e) :
    ∃ n, (served es j).1[i]? = some { e with observedCalls := n } := by
  induction es generalizing i j with
  | nil => simp at h
  | cons x es ih =>
    rw [served]
    split
    · cases i with
      | zero =>
        cases h
        exact ⟨_, rfl⟩
      | succ i =>
        rw [List.getElem?_cons_succ] at h ⊢
        exact ⟨e.observedCalls, h⟩
    · cases i with
      | zero =>
        cases h
        exact ⟨_, rfl⟩
      | succ i =>
        rw [List.getElem?_cons_succ] at h ⊢
        exact ih h

def observedAt (es : List (Expectation V R)) (j i : Nat) : Nat :=
  match (served es j).1[i]? with
  | none => 0
  | some e => e.observedCalls

theorem served_eq_mapIdx (es : List (Expectation V R)) (j : Nat) :
    (served es j).1 = es.mapIdx fun i e => { e with observedCalls := observedAt es j i } := by
  refine List.ext_getElem? fun i => ?_
  rw [List.getElem?_mapIdx]
  cases h : es[i]? with
  | none =>
    rw [List.getElem?_eq_none_iff] at h
    rw [List.getElem?_eq_none_iff.mpr (by rw [served_length]; exact h)]
    rfl
  | some e =>
    obtain ⟨n, hn⟩ := served_get (j := j) h
    rw [observedAt, hn]
    rfl

theorem observedAt_succ (hfresh : Fresh es) (hpos : ∀ e ∈ es, 1 ≤ e.expectedCalls) {i : Nat} :
    observedAt es (j + 1) i =
      observedAt es j i + if (served es j).2 < es.length ∧ (served es j).2 = i then 1 else 0 := by
  rcases Nat.lt_or_eq_of_le (cursor_le es j) with hlt | heq
  · obtain ⟨e, hsome⟩ : ∃ e, (served es j).1[(served es j).2]? = some e :=
      ⟨_, List.getElem?_eq_getElem (by rw [served_length]; exact hlt)⟩
    have hnext := (served_succ_some hfresh hpos hsome).1
    unfold observedAt
    rw [hnext]
    by_cases hi : (served es j).2 = i
    · subst hi
      rw [List.getElem?_set_self (by rw [served_length]; exact hlt), hsome, if_pos ⟨hlt, rfl⟩]
    · rw [List.getElem?_set_ne hi, if_neg fun h => hi h.2]
      rfl
  · have hnone : (served es j).1[(served es j).2]? = none := by
      rw [List.getElem?_eq_none_iff, served_length]
      exact Nat.le_of_eq heq.symm
    rw [observedAt, served_succ_none hnone, if_neg fun h => by omega]
    rfl

end Queue

section Runs

variable {Id V R : Type} [DecidableEq Id] [DecidableEq V] [ToString V] [Inhabited R]
variable {s₀ s : InstanceState Id V R} {id : Id} {d : Dispatch Id V} {calls : List (Dispatch Id V)}

def handlers (s : InstanceState Id V R) : List (Dispatch Id V) → List (Option (Id × Nat))
  | [] => []
  | d :: calls => (s.dispatchWithFallback d).2.handledBy :: handlers (s.dispatchWithFallback d).1 calls

theorem handlers_append_singleton (s : InstanceState Id V R) (calls : List (Dispatch Id V)) (d : Dispatch Id V) :
    handlers s (calls ++ [d]) =
      handlers s calls ++ [((runDispatches s calls).dispatchWithFallback d).2.handledBy] := by
  induction calls generalizing s with
  | nil => rfl
  | cons c calls ih =>
    rw [List.cons_append, handlers, handlers, ih]
    rfl

/-- The calls the `i`-th expectation of a method handled. -/
def handledCount (s : InstanceState Id V R) (calls : List (Dispatch Id V)) (id : Id) (i : Nat) : Nat :=
  (handlers s calls).count (some (id, i))

theorem observedAt_eq_handled (hready : Ready s₀ id)
    (hpos : ∀ e ∈ expectationsOf (s₀.find id), 1 ≤ e.expectedCalls) (hun : ∀ d ∈ calls, Unshared s₀ id d) (i : Nat) :
    observedAt (expectationsOf (s₀.find id)) (callsOf id calls) i = handledCount s₀ calls id i := by
  induction calls using List.reverseRecOn with
  | nil =>
    have hzero := served_zero hready.fresh hpos
    simp only [callsOf, List.countP_nil, observedAt, hzero, handledCount, handlers, List.count_nil]
    split
    · rfl
    · rename_i e he
      exact (hready.fresh e (List.mem_of_getElem? he)).1
  | append_singleton calls d ih =>
    have hun' : ∀ d ∈ calls, Unshared s₀ id d := fun d hd => hun d (List.mem_append_left _ hd)
    have h := served_run hready hpos hun'
    have hund := h.unshared (hun d (by simp))
    rw [handledCount, handlers_append_singleton, List.count_append, List.count_singleton, ← handledCount, ← ih hun']
    cases hd : d.concerns id with
    | false =>
      have hne := (dispatch_apart (s := runDispatches s₀ calls) hd).2 i
      rw [callsOf, List.countP_append, List.countP_singleton, hd, if_neg Bool.false_ne_true, ← callsOf]
      simp [hne]
    | true =>
      rw [callsOf, List.countP_append, List.countP_singleton, hd, if_pos rfl, ← callsOf,
        observedAt_succ hready.fresh hpos]
      congr 1
      rcases Nat.lt_or_eq_of_le (cursor_le (expectationsOf (s₀.find id)) (callsOf id calls)) with hlt | heq
      · rw [(dispatch_within hd hund h.find hready.fresh hpos hlt).2.1]
        by_cases hi : (served (expectationsOf (s₀.find id)) (callsOf id calls)).2 = i
        · subst hi
          simp [hlt]
        · simp [hi]
      · rw [(dispatch_beyond hd hund h.find heq).2.1]
        simp [heq]

end Runs

-- ---------------------------------------------------------------------------
-- Verification
-- ---------------------------------------------------------------------------

section Verify

variable {Id V R : Type} [DecidableEq Id] {s : InstanceState Id V R} {id : Id}

def failuresOf (id : Id) (fs : List (Id × MockFailure)) : List MockFailure :=
  fs.filterMap fun p => if p.1 = id then some p.2 else none

theorem failuresOf_tagged (k : Id) (fs : List MockFailure) :
    failuresOf id (fs.map fun f => (k, f)) = if k = id then fs else [] := by
  by_cases hk : k = id <;> simp [failuresOf, hk, List.filterMap_map]

def verifyEntry (m : Option (MethodEntry V R)) : List MockFailure :=
  match m with
  | none => []
  | some m => m.verify.2

theorem lookup_map_values (l : List (Id × MethodEntry V R)) (f : MethodEntry V R → MethodEntry V R) :
    (l.map fun p => (p.1, f p.2)).lookup id = (l.lookup id).map f := by
  induction l with
  | nil => rfl
  | cons p l ih =>
    obtain ⟨k, m⟩ := p
    simp only [List.map_cons, List.lookup_cons, ih]
    cases id == k <;> rfl

theorem verifyAll_find (s : InstanceState Id V R) (id : Id) :
    s.verifyAll.1.find id = (s.find id).map fun m => m.verify.1 :=
  lookup_map_values s.methods fun m => m.verify.1

theorem verifyAll_failures (s : InstanceState Id V R) (id : Id) :
    failuresOf id s.verifyAll.2 = verifyEntry (s.find id) := by
  have hmethods : ∀ l : List (Id × MethodEntry V R), (l.map Prod.fst).Nodup →
      failuresOf id (l.flatMap fun p => p.2.verify.2.map fun f => (p.1, f)) = verifyEntry (l.lookup id) := by
    intro l
    induction l with
    | nil => exact fun _ => rfl
    | cons p l ih =>
      obtain ⟨k, m⟩ := p
      intro hnodup
      rw [List.map_cons, List.nodup_cons] at hnodup
      have hrest := ih hnodup.2
      have happend : failuresOf id (((k, m) :: l).flatMap fun p => p.2.verify.2.map fun f => (p.1, f)) =
          (if k = id then m.verify.2 else []) ++ verifyEntry (l.lookup id) := by
        rw [← hrest, ← failuresOf_tagged, List.flatMap_cons, failuresOf, List.filterMap_append]
        rfl
      rw [happend, List.lookup_cons]
      by_cases hk : k = id
      · subst hk
        have habsent : l.lookup k = none := by
          rw [List.lookup_eq_none_iff]
          intro q hq
          simp only [bne_iff_ne, ne_eq]
          intro hqk
          exact hnodup.1 (List.mem_map.mpr ⟨q, hq, hqk.symm⟩)
        simp [habsent, verifyEntry]
      · have hne : (id == k) = false := by simpa using Ne.symm hk
        simp [hk, hne]
  exact hmethods s.methods s.distinct

theorem verify_verified {e : Expectation V R} (h : e.alreadyVerified = true) : e.verify name = (e, []) := by
  simp [Expectation.verify, h]

theorem verify_marks (e : Expectation V R) : (e.verify name).1.alreadyVerified = true := by
  unfold Expectation.verify
  split
  · assumption
  · rfl

theorem verifyTimes_verified (id : Id) (v : Nat) (s : InstanceState Id V R)
    (h : ∀ m ∈ s.find id, ∀ e ∈ m.expectations, e.alreadyVerified = true) : failuresOf id (verifyTimes v s) = [] := by
  induction v generalizing s with
  | zero => rfl
  | succ v ih =>
    have hfirst : failuresOf id s.verifyAll.2 = [] := by
      rw [verifyAll_failures]
      cases hm : s.find id with
      | none => rfl
      | some m =>
        refine List.flatMap_eq_nil_iff.mpr fun e he => ?_
        rw [verify_verified (h m hm e he)]
    have hrest := ih s.verifyAll.1 (by
      intro m hm e he
      rw [verifyAll_find] at hm
      obtain ⟨m', hm', rfl⟩ := Option.map_eq_some_iff.mp hm
      obtain ⟨e', he', rfl⟩ := List.mem_map.mp he
      exact verify_marks e')
    rw [verifyTimes, failuresOf, List.filterMap_append, ← failuresOf, ← failuresOf, hfirst, hrest]
    rfl

theorem verifyTimes_failures (v : Nat) (s : InstanceState Id V R) :
    failuresOf id (verifyTimes v s) = if v = 0 then [] else verifyEntry (s.find id) := by
  cases v with
  | zero => rfl
  | succ v =>
    have hrest := verifyTimes_verified id v s.verifyAll.1 (by
      intro m hm e he
      rw [verifyAll_find] at hm
      obtain ⟨m', hm', rfl⟩ := Option.map_eq_some_iff.mp hm
      obtain ⟨e', he', rfl⟩ := List.mem_map.mp he
      exact verify_marks e')
    rw [verifyTimes, failuresOf, List.filterMap_append, ← failuresOf, ← failuresOf, hrest, verifyAll_failures,
      List.append_nil]
    rfl

/-- One shortfall for each expectation with fewer calls than it asks for. -/
def shortfalls (methodName : String) (es : List (Expectation V R)) (count : Nat → Nat) : List MockFailure :=
  (es.mapIdx fun i e =>
    if count i < e.expectedCalls then [MockFailure.shortfall e.expectedCalls methodName (count i)] else []).flatten

def nameOf (m : Option (MethodEntry V R)) : String :=
  match m with
  | none => ""
  | some m => m.methodName

theorem verifyEntry_after {m : Option (MethodEntry V R)} (hfresh : Fresh (expectationsOf m)) (j : Nat) :
    verifyEntry (entryAfter m j) = shortfalls (nameOf m) (expectationsOf m) (observedAt (expectationsOf m) j) := by
  cases m with
  | none => rfl
  | some m =>
    have hserved := served_eq_mapIdx m.expectations j
    have hverified : ∀ e ∈ (served m.expectations j).1, e.verify m.methodName =
        ({ e with alreadyVerified := true }, if e.observedCalls < e.expectedCalls
          then [.shortfall e.expectedCalls m.methodName e.observedCalls] else []) := by
      intro e he
      simp [Expectation.verify, served_not_verified hfresh e he]
    show (served m.expectations j).1.flatMap (fun e => (e.verify m.methodName).2) = _
    rw [List.flatMap_congr fun e he => congrArg Prod.snd (hverified e he), hserved, List.flatMap_def]
    refine congrArg List.flatten (List.ext_getElem? fun i => ?_)
    rw [List.getElem?_map, List.getElem?_mapIdx, List.getElem?_mapIdx, Option.map_map]
    rfl

theorem verifyEntry_nil_iff {m : Option (MethodEntry V R)} (hfresh : Fresh (expectationsOf m)) :
    verifyEntry (entryAfter m j) = [] ↔
      ∀ e ∈ (served (expectationsOf m) j).1, ¬e.observedCalls < e.expectedCalls := by
  cases m with
  | none => exact ⟨fun _ => nofun, fun _ => rfl⟩
  | some m =>
    show (served m.expectations j).1.flatMap (fun e => (e.verify m.methodName).2) = [] ↔ _
    rw [List.flatMap_eq_nil_iff]
    refine forall₂_congr fun e he => ?_
    simp [Expectation.verify, served_not_verified hfresh e he]

end Verify

-- ---------------------------------------------------------------------------
-- Configuration and freezing
-- ---------------------------------------------------------------------------

section Unused

variable {Id V R : Type} [DecidableEq Id] {s : InstanceState Id V R} {id : Id}

/-- Nothing has been called: every method is at its first expectation. -/
def Unused (s : InstanceState Id V R) : Prop :=
  ∀ id m, s.find id = some m → m.nextExpectation = 0 ∧ Fresh m.expectations

theorem Unused.ready (h : Unused s) (id : Id) : Ready s id := by
  refine ⟨?_, fun m hm => (h id m hm).1⟩
  cases hm : s.find id with
  | none => exact nofun
  | some m => exact (h id m hm).2

theorem Unused.modify (h : Unused s)
    (hf : ∀ m, m.nextExpectation = 0 → Fresh m.expectations → (f m).nextExpectation = 0 ∧ Fresh (f m).expectations) :
    Unused (s.modify id f) := by
  intro k m hm
  rw [find_modify] at hm
  split at hm
  · obtain ⟨m', hm', rfl⟩ := Option.map_eq_some_iff.mp hm
    exact hf m' (h k m' hm').1 (h k m' hm').2
  · exact h k m hm

theorem Unused.ensure (h : Unused s) : Unused (s.ensure id) := by
  unfold InstanceState.ensure
  split
  · exact h
  · intro k m hm
    simp only [InstanceState.find, List.lookup_append] at hm
    cases hk : s.methods.lookup k with
    | some m' =>
      rw [hk] at hm
      cases hm
      exact h k m hk
    | none =>
      rw [hk] at hm
      by_cases hid : k = id
      · subst hid
        simp only [List.lookup_cons, beq_self_eq_true, Option.none_or, Option.some.injEq] at hm
        subst hm
        exact ⟨rfl, List.forall_mem_nil _⟩
      · have hne : (k == id) = false := by simpa using hid
        simp [List.lookup_cons, hne] at hm

theorem Setting.fresh (setting : Setting V R) (e : Expectation V R) :
    (setting.apply e).observedCalls = e.observedCalls ∧ (setting.apply e).alreadyVerified = e.alreadyVerified := by
  cases setting <;> exact ⟨rfl, rfl⟩

end Unused

section Configuration

variable {Id V R : Type} [DecidableEq Id] [DecidableEq V] [ToString V] [Inhabited R]
variable {s : InstanceState Id V R} {id : Id} {op : Op Id V R}

/-- In use: no setter, no new expectation and no change of mode gets through. -/
def Frozen (s : InstanceState Id V R) : Prop := s.frozen = true ∧ s.runtimeStarted = true

theorem Frozen.configures (h : Frozen s) (hop : op.configures = true) : op.apply s = s := by
  obtain ⟨hfrozen, hstarted⟩ := h
  cases op with
  | pushExpectation id name => simp [Op.apply, InstanceState.pushExpectation, hfrozen]
  | configure id i setting => simp [Op.apply, InstanceState.configure, hstarted]
  | setNice v => simp [Op.apply, InstanceState.setNice, hfrozen]
  | dispatch d => cases hop
  | verifyAll => cases hop

theorem frozen_of_use (hop : op.configures = false) : Frozen (op.apply s) := by
  cases op with
  | pushExpectation id name => cases hop
  | configure id i setting => cases hop
  | setNice v => cases hop
  | dispatch d =>
    show Frozen (s.dispatchWithFallback d).1
    unfold InstanceState.dispatchWithFallback
    split <;> exact ⟨rfl, rfl⟩
  | verifyAll => exact ⟨rfl, rfl⟩

theorem Frozen.apply (h : Frozen s) : Frozen (op.apply s) := by
  cases hop : op.configures with
  | true => rw [h.configures hop]; exact h
  | false => exact frozen_of_use hop

theorem frozen_run (hused : ∃ op ∈ ops, Op.configures op = false) : Frozen (runOps s ops) := by
  obtain ⟨op, hmem, hop⟩ := hused
  obtain ⟨before, after, rfl⟩ := List.append_of_mem hmem
  rw [runOps, List.foldl_append, List.foldl_cons]
  generalize List.foldl Op.apply s before = t
  have hrun : ∀ (after : List (Op Id V R)) (t : InstanceState Id V R), Frozen t → Frozen (after.foldl Op.apply t) := by
    intro after
    induction after with
    | nil => exact fun t h => h
    | cons op after ih => exact fun t h => ih _ h.apply
  exact hrun after _ (frozen_of_use hop)

theorem Unused.apply (h : Unused s) (hop : op.configures = true) : Unused (op.apply s) := by
  cases op with
  | pushExpectation id name =>
    show Unused (s.pushExpectation id name)
    unfold InstanceState.pushExpectation
    split
    · exact h
    · refine h.ensure.modify fun m hnext hfresh => ⟨hnext, fun e he => ?_⟩
      rcases List.mem_append.mp he with he | he
      · exact hfresh e he
      · rw [List.mem_singleton.mp he]
        exact ⟨rfl, rfl⟩
  | configure id i setting =>
    show Unused (s.configure id i setting)
    unfold InstanceState.configure
    split
    · exact h
    · refine h.modify fun m hnext hfresh => ⟨hnext, fun e he => ?_⟩
      obtain ⟨k, hk, rfl⟩ := List.getElem_of_mem he
      rw [List.getElem_modify]
      split
      · rw [(setting.fresh _).1, (setting.fresh _).2]
        exact hfresh _ (List.getElem_mem _)
      · exact hfresh _ (List.getElem_mem _)
  | setNice v =>
    show Unused (s.setNice v)
    unfold InstanceState.setNice
    split <;> exact h
  | dispatch d => cases hop
  | verifyAll => cases hop

theorem unused_run (hops : ∀ op ∈ ops, Op.configures op = true) : Unused (runOps ({} : InstanceState Id V R) ops) := by
  have hrun : ∀ (ops : List (Op Id V R)) (s : InstanceState Id V R), (∀ op ∈ ops, op.configures = true) →
      Unused s → Unused (runOps s ops) := by
    intro ops
    induction ops with
    | nil => exact fun s _ h => h
    | cons op ops ih =>
      intro s hops h
      exact ih _ (fun op hmem => hops op (List.mem_cons_of_mem _ hmem)) (h.apply (hops op (List.mem_cons_self ..)))
  exact hrun ops {} hops nofun

end Configuration

-- ---------------------------------------------------------------------------
-- The accounting of a method
-- ---------------------------------------------------------------------------

section Accounting

variable {Id V R : Type} [DecidableEq Id] [DecidableEq V] [ToString V] [Inhabited R]
variable {s : InstanceState Id V R} {id : Id} {calls : List (Dispatch Id V)}

/-- What the call `d` made after the calls `before` did. -/
def resultOf (s : InstanceState Id V R) (before : List (Dispatch Id V)) (d : Dispatch Id V) : DispatchResult Id R :=
  ((runDispatches s before).dispatchWithFallback d).2

/-- No failure about the number of calls, neither from the calls that reach
the method nor from `v` verifications after them. -/
def NoCountFailure (s : InstanceState Id V R) (id : Id) (calls : List (Dispatch Id V)) (v : Nat) : Prop :=
  (∀ before d after, calls = before ++ d :: after → d.concerns id = true →
    ∀ f ∈ (resultOf s before d).failures, f.isCount = false) ∧
  failuresOf id (verifyTimes v (runDispatches s calls)) = []

/-- The accounting of a method none of whose expectations allows excess. -/
structure Accounting (s : InstanceState Id V R) (id : Id) (es : List (Expectation V R))
    (calls : List (Dispatch Id V)) : Prop where
  /-- the call whose number is in an expectation's range is handled by it -/
  handled : ∀ before d after, calls = before ++ d :: after → d.concerns id = true → ∀ i e, es[i]? = some e →
    demand (es.take i) < callsOf id before + 1 → callsOf id before + 1 ≤ demand (es.take i) + e.expectedCalls →
      (resultOf s before d).handledBy = some (id, i) ∧ ∀ f ∈ (resultOf s before d).failures, f.isCount = false
  /-- every further call is unexpected, which a nice mock does not mind -/
  beyond : ∀ before d after, calls = before ++ d :: after → d.concerns id = true →
    demand es < callsOf id before + 1 →
      (resultOf s before d).handledBy = none ∧
        (resultOf s before d).failures = if s.niceMode then [] else [.unexpectedCall d.methodName]
  /-- verification reports each expectation with too few calls once -/
  verified : ∀ v, failuresOf id (verifyTimes v (runDispatches s calls)) =
    if v = 0 then [] else shortfalls (nameOf (s.find id)) es (handledCount s calls id)
  exact : s.niceMode = false → ∀ v, 0 < v → (NoCountFailure s id calls v ↔ callsOf id calls = demand es)

/-- The accounting of a method whose `i`-th expectation allows excess: it is
never left. -/
structure ExcessAccounting (s : InstanceState Id V R) (id : Id) (es : List (Expectation V R))
    (calls : List (Dispatch Id V)) (i : Nat) : Prop where
  before : ∀ before d after, calls = before ++ d :: after → d.concerns id = true → ∀ k e, k < i → es[k]? = some e →
    demand (es.take k) < callsOf id before + 1 → callsOf id before + 1 ≤ demand (es.take k) + e.expectedCalls →
      (resultOf s before d).handledBy = some (id, k)
  absorbs : ∀ before d after, calls = before ++ d :: after → d.concerns id = true →
    demand (es.take i) < callsOf id before + 1 → (resultOf s before d).handledBy = some (id, i)
  unreached : ∀ before d after, calls = before ++ d :: after → d.concerns id = true →
    ∀ k, i < k → (resultOf s before d).handledBy ≠ some (id, k)
  expected : ∀ before d after, calls = before ++ d :: after → d.concerns id = true →
    ∀ f ∈ (resultOf s before d).failures, f.isCount = false

theorem result_within (hready : Ready s id) (hpos : ∀ e ∈ expectationsOf (s.find id), 1 ≤ e.expectedCalls)
    (hun : ∀ d ∈ calls, Unshared s id d) (hsplit : calls = before ++ d :: after) (hd : d.concerns id = true)
    (hlt : (served (expectationsOf (s.find id)) (callsOf id before)).2 < (expectationsOf (s.find id)).length) :
    (resultOf s before d).handledBy = some (id, (served (expectationsOf (s.find id)) (callsOf id before)).2) ∧
      ∀ f ∈ (resultOf s before d).failures, f.isCount = false := by
  subst hsplit
  have h := served_run hready hpos fun d hd => hun d (List.mem_append_left _ hd)
  exact (dispatch_within hd (h.unshared (hun d (by simp))) h.find hready.fresh hpos hlt).2

theorem result_beyond (hready : Ready s id) (hpos : ∀ e ∈ expectationsOf (s.find id), 1 ≤ e.expectedCalls)
    (hun : ∀ d ∈ calls, Unshared s id d) (hsplit : calls = before ++ d :: after) (hd : d.concerns id = true)
    (hend : (served (expectationsOf (s.find id)) (callsOf id before)).2 = (expectationsOf (s.find id)).length) :
    (resultOf s before d).handledBy = none ∧
      (resultOf s before d).failures = if s.niceMode then [] else [.unexpectedCall d.methodName] := by
  subst hsplit
  have h := served_run hready hpos fun d hd => hun d (List.mem_append_left _ hd)
  have hres := (dispatch_beyond hd (h.unshared (hun d (by simp))) h.find hend).2
  rw [h.nice] at hres
  exact hres

theorem accounting (hready : Ready s id) (hpos : ∀ e ∈ expectationsOf (s.find id), 1 ≤ e.expectedCalls)
    (hun : ∀ d ∈ calls, Unshared s id d) (hno : ∀ e ∈ expectationsOf (s.find id), e.allowExcess = false) :
    Accounting s id (expectationsOf (s.find id)) calls := by
  have hverify : ∀ v, failuresOf id (verifyTimes v (runDispatches s calls)) =
      if v = 0 then [] else verifyEntry (entryAfter (s.find id) (callsOf id calls)) := by
    intro v
    rw [verifyTimes_failures, (served_run hready hpos hun).find]
  have hbeyond : ∀ before d after, calls = before ++ d :: after → d.concerns id = true →
      demand (expectationsOf (s.find id)) < callsOf id before + 1 →
        (resultOf s before d).handledBy = none ∧
          (resultOf s before d).failures = if s.niceMode then [] else [.unexpectedCall d.methodName] :=
    fun before d after hsplit hd hlt =>
      result_beyond hready hpos hun hsplit hd (cursor_end hno (Nat.lt_succ_iff.mp hlt))
  refine ⟨?_, hbeyond, ?_, ?_⟩
  · intro before d after hsplit hd i e he hlow hhigh
    have hcursor : (served (expectationsOf (s.find id)) (callsOf id before)).2 = i :=
      cursor_at (fun e he => hno e (List.mem_of_mem_take he)) (by omega) he (.inr (by omega))
    have hres := result_within hready hpos hun hsplit hd
      (by rw [hcursor]; exact (List.getElem?_eq_some_iff.mp he).1)
    rw [hcursor] at hres
    exact hres
  · intro v
    rw [hverify, verifyEntry_after hready.fresh, funext (observedAt_eq_handled hready hpos hun)]
  · intro hstrict v hv
    have hcomplete : failuresOf id (verifyTimes v (runDispatches s calls)) = [] ↔
        demand (expectationsOf (s.find id)) ≤ callsOf id calls := by
      rw [hverify, if_neg (by omega), ← served_complete hpos hready.fresh hno]
      exact verifyEntry_nil_iff hready.fresh
    constructor
    · rintro ⟨hcalls, hver⟩
      refine Nat.le_antisymm (Nat.not_lt.mp fun hmore => ?_) (hcomplete.mp hver)
      obtain ⟨before, d, after, hsplit, hd, hn⟩ := exists_split hmore
      have hfail := (hbeyond before d after hsplit hd (by omega)).2
      rw [hstrict] at hfail
      have hcount := hcalls before d after hsplit hd (.unexpectedCall d.methodName) (by simp [hfail])
      cases hcount
    · intro heq
      refine ⟨fun before d after hsplit hd => ?_, hcomplete.mpr (Nat.le_of_eq heq.symm)⟩
      have hlt := callsOf_lt_of_split hsplit hd
      refine (result_within hready hpos hun hsplit hd (cursor_lt ?_)).2
      rw [List.take_length]
      omega

theorem excessAccounting {i : Nat} (hready : Ready s id) (hpos : ∀ e ∈ expectationsOf (s.find id), 1 ≤ e.expectedCalls)
    (hun : ∀ d ∈ calls, Unshared s id d) (he : (expectationsOf (s.find id))[i]? = some e)
    (hexcess : e.allowExcess = true) (hno : ∀ e ∈ (expectationsOf (s.find id)).take i, e.allowExcess = false) :
    ExcessAccounting s id (expectationsOf (s.find id)) calls i := by
  have hi := (List.getElem?_eq_some_iff.mp he).1
  have hle : ∀ j, (served (expectationsOf (s.find id)) j).2 ≤ i := by
    intro j
    by_cases hj : demand ((expectationsOf (s.find id)).take i) ≤ j
    · exact Nat.le_of_eq (cursor_at hno hj he (.inl hexcess))
    · exact Nat.le_of_lt (cursor_lt (by omega))
  have hwithin := fun before d after (hsplit : calls = before ++ d :: after) (hd : d.concerns id = true) =>
    result_within hready hpos hun hsplit hd (Nat.lt_of_le_of_lt (hle (callsOf id before)) hi)
  refine ⟨?_, ?_, ?_, fun before d after hsplit hd => (hwithin before d after hsplit hd).2⟩
  · intro before d after hsplit hd k x hk hx hlow hhigh
    have hprior : ∀ e ∈ (expectationsOf (s.find id)).take k, e.allowExcess = false :=
      fun e he => hno e ((List.take_sublist_take_left (Nat.le_of_lt hk)).subset he)
    rw [(hwithin before d after hsplit hd).1, cursor_at hprior (by omega) hx (.inr (by omega))]
  · intro before d after hsplit hd hlow
    rw [(hwithin before d after hsplit hd).1, cursor_at hno (by omega) he (.inl hexcess)]
  · intro before d after hsplit hd k hk heq
    rw [(hwithin before d after hsplit hd).1] at heq
    have := hle (callsOf id before)
    cases heq
    omega

/-- A mock that is configured and then called: which expectation handles which
call, what is unexpected, what verification reports; and configuration is over
with the first call or verification. -/
theorem mock_call_accounting (config : List (Op Id V R)) (hconfig : ∀ op ∈ config, op.configures = true) (id : Id)
    (calls : List (Dispatch Id V)) (hun : ∀ d ∈ calls, Unshared (runOps {} config) id d)
    (hpos : ∀ e ∈ expectationsOf ((runOps {} config).find id), 1 ≤ e.expectedCalls) :
    ((∀ e ∈ expectationsOf ((runOps {} config).find id), e.allowExcess = false) →
      Accounting (runOps {} config) id (expectationsOf ((runOps {} config).find id)) calls) ∧
    (∀ (i : Nat) e, (expectationsOf ((runOps {} config).find id))[i]? = some e → e.allowExcess = true →
      (∀ e ∈ (expectationsOf ((runOps {} config).find id)).take i, e.allowExcess = false) →
        ExcessAccounting (runOps {} config) id (expectationsOf ((runOps {} config).find id)) calls i) ∧
    (∀ ops : List (Op Id V R), (∃ op ∈ ops, op.configures = false) → ∀ op : Op Id V R, op.configures = true →
      op.apply (runOps (runOps {} config) ops) = runOps (runOps {} config) ops) := by
  have hready := (unused_run hconfig).ready id
  refine ⟨accounting hready hpos hun, fun i e he hexcess hno => excessAccounting hready hpos hun he hexcess hno, ?_⟩
  intro ops hused op hop
  exact (frozen_run hused).configures hop

end Accounting

def readThreeTimes : List (Op Nat Nat Nat) :=
  [.pushExpectation 0 "read", .configure 0 0 (.expectedCalls 2), .pushExpectation 0 "read"]

theorem three_reads_accounted :
    NoCountFailure (runOps {} readThreeTimes) 0
      [dispatch 0 "read" [4], dispatch 0 "read" [5], dispatch 0 "read" [6]] 2 := by
  refine (((mock_call_accounting readThreeTimes (by decide) 0 _ ?_ (by decide)).1 (by decide)).exact rfl 2
    (by decide)).mpr rfl
  intro d hd _
  simp only [List.mem_cons, List.not_mem_nil, or_false] at hd
  rcases hd with rfl | rfl | rfl <;> exact ⟨fun h => absurd rfl h, fun h => absurd rfl h⟩

end Gentest.Mock
