import Gentest.Scan.Directives

/-!
# Conditional groups

What the stack of frames is for is `Group`: the branches of an open conditional seen so
far. The branch that is open is chosen when its condition was true, or it is an `#else`,
and no branch before it was. On every run a frame is active exactly when its branch and
those around it are chosen.
-/

namespace Gentest.Scan

/-- A branch with what its condition came to, or an `#else`. -/
inductive Branch
  | condition (holds : Bool)
  | otherwise
  deriving DecidableEq, Repr

def Branch.holds : Branch → Bool
  | .condition holds => holds
  | .otherwise => true

abbrev Group := List Branch

def Group.chosen : Group → Bool
  | [] => false
  | branch :: earlier => branch.holds && earlier.all fun b => !b.holds

/-- Which of the open conditionals are active, innermost first. -/
def activeFlags : List Group → List Bool
  | [] => []
  | group :: outer => (group.chosen && (activeFlags outer).headD true) :: activeFlags outer

/-- A logical line with what the evaluator says of its condition, and its number. -/
structure ScanLine where
  rawLine : List Char
  evaluated : Option Bool := none
  lineNumber : Nat := 0
  deriving DecidableEq, Repr

def ScanStreamState.handle (s : ScanStreamState) (line : ScanLine) : ScanStreamState :=
  handlePreprocessorLogicalLine line.rawLine line.evaluated line.lineNumber s

def ScanStreamState.handleAll (s : ScanStreamState) (lines : List ScanLine) : ScanStreamState :=
  lines.foldl ScanStreamState.handle s

/-- A branch of the innermost group. Without one it is stray. -/
def nextBranch (branch : Branch) : List Group → List Group
  | [] => []
  | group :: outer => (branch :: group) :: outer

def groupsAfterLine (s : ScanStreamState) (groups : List Group) (line : ScanLine) : List Group :=
  match directiveOf line.rawLine with
  | some (.if_, _) => [.condition (line.evaluated.getD false)] :: groups
  | some (.ifdef, rest) => [.condition (s.isDefined rest)] :: groups
  | some (.ifndef, rest) => [.condition (!s.isDefined rest)] :: groups
  | some (.elif, _) => nextBranch (.condition (line.evaluated.getD false)) groups
  | some (.else_, _) => nextBranch .otherwise groups
  | some (.endif, _) => groups.tail
  | _ => groups

def groupsAfter (s : ScanStreamState) : List Group → List ScanLine → List Group
  | groups, [] => groups
  | groups, line :: lines => groupsAfter (s.handle line) (groupsAfterLine s groups line) lines

/-- The state of a scan before its first line. -/
structure ScanStreamState.Start (s : ScanStreamState) : Prop where
  conditionals : s.conditionals = []
  active : s.currentBranchActive = true

-- ---------------------------------------------------------------------------
-- What a line does
-- ---------------------------------------------------------------------------

def ScanLine.keyword (line : ScanLine) : Keyword :=
  ((directiveOf line.rawLine).map Prod.fst).getD .other

/-- The lines neither close the conditional around them nor go on to its next branch;
`depth` conditionals are open inside it. -/
def Inside : Nat → List ScanLine → Prop
  | _, [] => True
  | depth, line :: lines =>
    match line.keyword with
    | .if_ | .ifdef | .ifndef => Inside (depth + 1) lines
    | .elif | .else_ => 0 < depth ∧ Inside depth lines
    | .endif => 0 < depth ∧ Inside (depth - 1) lines
    | _ => Inside depth lines

instance decidableInside : (depth : Nat) → (lines : List ScanLine) → Decidable (Inside depth lines)
  | _, [] => inferInstanceAs (Decidable True)
  | depth, line :: lines => by
    unfold Inside
    have := decidableInside (depth + 1) lines
    have := decidableInside depth lines
    have := decidableInside (depth - 1) lines
    cases line.keyword <;> dsimp only <;> infer_instance

/-- `#elif`, `#else` and `#endif`. -/
def Keyword.Continues (keyword : Keyword) : Prop :=
  keyword = .elif ∨ keyword = .else_ ∨ keyword = .endif

/-- What holds of a state of a scan with these groups open. -/
structure WellBranched (s : ScanStreamState) (groups : List Group) : Prop where
  current : s.currentBranchActive = (s.conditionals.head?.map (·.active)).getD true
  nested : (s.conditionals.map (·.active)).Pairwise fun inner outer => inner = true → outer = true
  chosen : s.conditionals.map (·.active) = activeFlags groups
  inactive : s.currentBranchActive = false → ∀ lines, Inside 0 lines →
    (s.handleAll lines).currentBranchActive = false ∧ (s.handleAll lines).objectLikeMacros = s.objectLikeMacros
  stray : s.conditionals = [] → ∀ line : ScanLine, line.keyword.Continues → s.handle line = s
  enclosing : ∀ line : ScanLine, line.keyword.Continues →
    (s.handle line).objectLikeMacros = s.objectLikeMacros ∧
      ∃ innermost, innermost.length ≤ 1 ∧ (s.handle line).conditionals = innermost ++ s.conditionals.tail

section

variable {s : ScanStreamState} {line : ScanLine} {lines : List ScanLine} {groups : List Group} {group : Group}
  {rest : List Char} {frame : ScanConditionalFrame} {frames outer : List ScanConditionalFrame}

@[simp] theorem conditionals_warn (keyword : String) (n : Nat) :
    (warnUnknownPreprocessorCondition keyword rest n s).conditionals = s.conditionals := by
  simp only [warnUnknownPreprocessorCondition]
  split <;> rfl

@[simp] theorem objectLikeMacros_warn (keyword : String) (n : Nat) :
    (warnUnknownPreprocessorCondition keyword rest n s).objectLikeMacros = s.objectLikeMacros := by
  simp only [warnUnknownPreprocessorCondition]
  split <;> rfl

@[simp] theorem currentBranchActive_warn (keyword : String) (n : Nat) :
    (warnUnknownPreprocessorCondition keyword rest n s).currentBranchActive = s.currentBranchActive := by
  simp only [warnUnknownPreprocessorCondition]
  split <;> rfl

def innermostActive (frames : List ScanConditionalFrame) : Bool :=
  (frames.head?.map (·.active)).getD true

/-- The flags of each frame tell of its group and of the frames around it. -/
def Framed : List ScanConditionalFrame → List Group → Prop
  | [], [] => True
  | frame :: outer, group :: groups =>
    frame.parentActive = innermostActive outer ∧ frame.active = (frame.parentActive && group.chosen) ∧
      (frame.parentActive = true → frame.branchTaken = group.any Branch.holds) ∧ Framed outer groups
  | _, _ => False

structure Tracks (s : ScanStreamState) (groups : List Group) : Prop where
  current : s.currentBranchActive = innermostActive s.conditionals
  framed : Framed s.conditionals groups

theorem Framed.active (h : Framed frames groups) : frames.map (·.active) = activeFlags groups := by
  induction frames generalizing groups with
  | nil =>
    cases groups with
    | nil => rfl
    | cons group groups => exact h.elim
  | cons frame outer ih =>
    cases groups with
    | nil => exact h.elim
    | cons group groups =>
      obtain ⟨hparent, hactive, -, houter⟩ := h
      have hhead : innermostActive outer = (activeFlags groups).headD true := by
        rw [← ih houter]
        cases outer <;> rfl
      rw [List.map_cons, ih houter, activeFlags, hactive, hparent, hhead, Bool.and_comm]

theorem Tracks.opened {s' : ScanStreamState} (hs : Tracks s groups) (hframes : s'.conditionals = s.conditionals)
    (hactive : s'.currentBranchActive = s.currentBranchActive) (holds : Bool) :
    Tracks (s'.openConditional (s.currentBranchActive && holds)) ([.condition holds] :: groups) := by
  refine ⟨rfl, ?_⟩
  simp only [ScanStreamState.openConditional, updatePreprocessorBranchState, Framed, hframes, hactive]
  refine ⟨hs.current, ?_, ?_, hs.framed⟩
  · simp [Group.chosen, Branch.holds]
  · intro hparent
    simp [hparent, Branch.holds]

theorem Tracks.next {s' : ScanStreamState} {taken : Bool} (hs : Tracks s (group :: groups))
    (hframes : s.conditionals = frame :: outer) (branch : Branch)
    (htaken : frame.parentActive = true → taken = (frame.branchTaken || branch.holds))
    (hframes' : s'.conditionals =
      ⟨frame.parentActive, taken, frame.parentActive && !frame.branchTaken && branch.holds⟩ :: outer)
    (hactive : s'.currentBranchActive = innermostActive s'.conditionals) :
    Tracks s' ((branch :: group) :: groups) := by
  have hframed := hs.framed
  rw [hframes] at hframed
  obtain ⟨hparent, -, hany, houter⟩ := hframed
  refine ⟨hactive, ?_⟩
  rw [hframes']
  refine ⟨hparent, ?_, ?_, houter⟩
  · cases hp : frame.parentActive with
    | false => rfl
    | true =>
      rw [hany hp, Group.chosen, Bool.true_and, Bool.and_comm]
      simp [List.all_eq_not_any_not]
  · intro hp
    rw [htaken hp, hany hp, List.any_cons, Bool.or_comm]

theorem Tracks.nil (hs : Tracks s groups) (hframes : s.conditionals = []) : groups = [] := by
  have hframed := hs.framed
  rw [hframes] at hframed
  cases groups with
  | nil => rfl
  | cons group groups => exact hframed.elim

theorem Tracks.cons (hs : Tracks s groups) (hframes : s.conditionals = frame :: outer) :
    ∃ group groups', groups = group :: groups' := by
  have hframed := hs.framed
  rw [hframes] at hframed
  cases groups with
  | nil => exact hframed.elim
  | cons group groups => exact ⟨group, groups, rfl⟩

theorem Tracks.elif (hs : Tracks s groups) (line : ScanLine) (rest : List Char) :
    Tracks (handleElif s rest line.evaluated line.lineNumber)
      (nextBranch (.condition (line.evaluated.getD false)) groups) := by
  unfold handleElif
  split
  · rename_i hframes
    obtain rfl := hs.nil hframes
    exact hs
  · rename_i frame outer hframes
    obtain ⟨group, groups, rfl⟩ := hs.cons hframes
    refine hs.next hframes (.condition (line.evaluated.getD false)) (fun hparent => ?_) rfl rfl
    rw [hparent, Branch.holds]
    cases frame.branchTaken <;> rfl

theorem Tracks.else_ (hs : Tracks s groups) :
    Tracks (handleElse s) (nextBranch .otherwise groups) := by
  unfold handleElse
  split
  · rename_i hframes
    obtain rfl := hs.nil hframes
    exact hs
  · rename_i frame outer hframes
    obtain ⟨group, groups, rfl⟩ := hs.cons hframes
    refine hs.next hframes .otherwise (fun _ => (Bool.or_true _).symm) ?_ rfl
    simp [updatePreprocessorBranchState, Branch.holds]

theorem Tracks.endif (hs : Tracks s groups) :
    Tracks (updatePreprocessorBranchState { s with conditionals := s.conditionals.tail }) groups.tail := by
  refine ⟨rfl, ?_⟩
  have hframed := hs.framed
  cases hframes : s.conditionals with
  | nil =>
    rw [hs.nil hframes]
    simp [updatePreprocessorBranchState, Framed]
  | cons frame outer =>
    obtain ⟨group, groups, rfl⟩ := hs.cons hframes
    rw [hframes] at hframed
    simpa [updatePreprocessorBranchState, hframes] using hframed.2.2.2

theorem Tracks.of_macros {s' : ScanStreamState} (hs : Tracks s groups) (hframes : s'.conditionals = s.conditionals)
    (hactive : s'.currentBranchActive = s.currentBranchActive) : Tracks s' groups :=
  ⟨by rw [hactive, hframes, hs.current], by rw [hframes]; exact hs.framed⟩

theorem handleDefine_conditionals : (handleDefine s rest).conditionals = s.conditionals := by
  unfold handleDefine
  split
  · rfl
  · dsimp only
    split <;> rfl

theorem handleDefine_active : (handleDefine s rest).currentBranchActive = s.currentBranchActive := by
  unfold handleDefine
  split
  · rfl
  · dsimp only
    split <;> rfl

theorem handleUndef_conditionals : (handleUndef s rest).conditionals = s.conditionals := by
  unfold handleUndef
  split <;> rfl

theorem handleUndef_active : (handleUndef s rest).currentBranchActive = s.currentBranchActive := by
  unfold handleUndef
  split <;> rfl

theorem Tracks.handle (hs : Tracks s groups) (line : ScanLine) :
    Tracks (s.handle line) (groupsAfterLine s groups line) := by
  unfold ScanStreamState.handle handlePreprocessorLogicalLine groupsAfterLine
  cases hdirective : directiveOf line.rawLine with
  | none => exact hs
  | some directive =>
    obtain ⟨keyword, rest⟩ := directive
    cases keyword with
    | if_ =>
      dsimp only [handleIf]
      split
      · exact hs.opened (conditionals_warn ..) (currentBranchActive_warn ..) _
      · exact hs.opened rfl rfl _
    | ifdef | ifndef => exact hs.opened rfl rfl _
    | elif => exact hs.elif line rest
    | else_ => exact hs.else_
    | endif => exact hs.endif
    | define =>
      dsimp only
      split
      · exact hs.of_macros handleDefine_conditionals handleDefine_active
      · exact hs
    | undef =>
      dsimp only
      split
      · exact hs.of_macros handleUndef_conditionals handleUndef_active
      · exact hs
    | other => exact hs

theorem Tracks.handleAll (hs : Tracks s groups) (lines : List ScanLine) :
    Tracks (s.handleAll lines) (groupsAfter s groups lines) := by
  induction lines generalizing s groups with
  | nil => exact hs
  | cons line lines ih => exact ih (hs.handle line)

theorem ScanStreamState.Start.tracks (hs : s.Start) : Tracks s [] :=
  ⟨by rw [hs.active, hs.conditionals]; rfl, by rw [hs.conditionals]; trivial⟩

-- ---------------------------------------------------------------------------
-- Inside an inactive branch
-- ---------------------------------------------------------------------------

theorem Tracks.current_eq (hs : Tracks s groups) : s.currentBranchActive = (activeFlags groups).headD true := by
  rw [hs.current, ← hs.framed.active]
  cases s.conditionals <;> rfl

theorem activeFlags_append {base : List Group} (hbase : (activeFlags base).headD true = false) (inner : List Group) :
    (activeFlags (inner ++ base)).headD true = false := by
  induction inner with
  | nil => exact hbase
  | cons group inner ih => rw [List.cons_append, activeFlags, List.headD_cons, ih, Bool.and_false]

theorem activeFlags_nested (groups : List Group) :
    (activeFlags groups).Pairwise fun inner outer => inner = true → outer = true := by
  induction groups with
  | nil => exact .nil
  | cons group groups ih =>
    refine .cons (fun outer houter hinner => ?_) ih
    have hhead := (Bool.and_eq_true_iff.mp hinner).2
    cases hflags : activeFlags groups with
    | nil =>
      rw [hflags] at houter
      cases houter
    | cons first others =>
      rw [hflags] at houter hhead ih
      obtain rfl | hothers := List.mem_cons.mp houter
      · exact hhead
      · exact List.rel_of_pairwise_cons ih hothers hhead

theorem handle_macros
    (hkeyword : s.currentBranchActive = false ∨ line.keyword ≠ .define ∧ line.keyword ≠ .undef) :
    (s.handle line).objectLikeMacros = s.objectLikeMacros := by
  unfold ScanStreamState.handle handlePreprocessorLogicalLine
  unfold ScanLine.keyword at hkeyword
  cases hdirective : directiveOf line.rawLine with
  | none => rfl
  | some directive =>
    obtain ⟨keyword, rest⟩ := directive
    rw [hdirective] at hkeyword
    cases keyword with
    | if_ =>
      dsimp only [handleIf]
      split
      · exact objectLikeMacros_warn ..
      · rfl
    | ifdef | ifndef | endif | other => rfl
    | elif =>
      dsimp only [handleElif]
      split
      · rfl
      · dsimp only [updatePreprocessorBranchState]
        split
        · exact objectLikeMacros_warn ..
        · rfl
    | else_ =>
      dsimp only [handleElse]
      split <;> rfl
    | define | undef =>
      have hinactive := hkeyword.resolve_right (by simp)
      simp [hinactive]

theorem Keyword.Continues.no_definition {keyword : Keyword} (h : keyword.Continues) :
    keyword ≠ .define ∧ keyword ≠ .undef := by
  obtain rfl | rfl | rfl := h <;> decide

theorem Tracks.inside {base : List Group} (hbase : (activeFlags base).headD true = false) :
    ∀ (lines : List ScanLine) {s : ScanStreamState} (inner : List Group), Tracks s (inner ++ base) →
      Inside inner.length lines →
      (s.handleAll lines).currentBranchActive = false ∧ (s.handleAll lines).objectLikeMacros = s.objectLikeMacros
  | [], s, inner, hs, _ => ⟨by rw [ScanStreamState.handleAll, List.foldl_nil, hs.current_eq, activeFlags_append hbase], rfl⟩
  | line :: lines, s, inner, hs, hinside => by
    have hactive : s.currentBranchActive = false := by rw [hs.current_eq, activeFlags_append hbase]
    have hmacros := @handle_macros s line (.inl hactive)
    have hline := hs.handle line
    unfold groupsAfterLine at hline
    unfold Inside ScanLine.keyword at hinside
    have hgo : ∀ inner', Tracks (s.handle line) (inner' ++ base) → Inside inner'.length lines →
        (s.handleAll (line :: lines)).currentBranchActive = false ∧
          (s.handleAll (line :: lines)).objectLikeMacros = s.objectLikeMacros := by
      intro inner' hs' hinside'
      obtain ⟨hcurrent, hsame⟩ := Tracks.inside hbase lines inner' hs' hinside'
      exact ⟨hcurrent, hsame.trans hmacros⟩
    cases hdirective : directiveOf line.rawLine with
    | none =>
      rw [hdirective] at hline hinside
      exact hgo inner hline hinside
    | some directive =>
      obtain ⟨keyword, rest⟩ := directive
      rw [hdirective] at hline hinside
      cases keyword with
      | if_ | ifdef | ifndef => exact hgo (_ :: inner) hline hinside
      | elif | else_ =>
        obtain ⟨hdepth, hinside⟩ := hinside
        obtain ⟨group, inner, rfl⟩ := List.exists_cons_of_length_pos hdepth
        exact hgo ((_ :: group) :: inner) hline hinside
      | endif =>
        obtain ⟨hdepth, hinside⟩ := hinside
        obtain ⟨group, inner, rfl⟩ := List.exists_cons_of_length_pos hdepth
        exact hgo inner hline hinside
      | define | undef | other => exact hgo inner hline hinside

theorem chosen_unique (group later : Group) (hlater : later ≠ []) (h : group.chosen = true) :
    Group.chosen (later ++ group) = false := by
  obtain ⟨branch, later, rfl⟩ := List.exists_cons_of_ne_nil hlater
  cases group with
  | nil => cases h
  | cons first earlier =>
    have hfirst := (Bool.and_eq_true_iff.mp h).1
    simp [Group.chosen, List.all_append, hfirst]

theorem handle_continues (hkeyword : line.keyword.Continues) :
    (∃ innermost, innermost.length ≤ 1 ∧ (s.handle line).conditionals = innermost ++ s.conditionals.tail) ∧
      (s.conditionals = [] → s.currentBranchActive = true → s.handle line = s) := by
  unfold ScanStreamState.handle handlePreprocessorLogicalLine
  unfold ScanLine.keyword at hkeyword
  cases hdirective : directiveOf line.rawLine with
  | none =>
    rw [hdirective] at hkeyword
    simp [Keyword.Continues] at hkeyword
  | some directive =>
    obtain ⟨keyword, rest⟩ := directive
    rw [hdirective] at hkeyword
    cases keyword with
    | elif =>
      dsimp only [handleElif]
      cases hframes : s.conditionals with
      | nil => exact ⟨⟨[], Nat.zero_le _, hframes⟩, fun _ _ => rfl⟩
      | cons frame outer => exact ⟨⟨[_], Nat.le_refl _, rfl⟩, nofun⟩
    | else_ =>
      dsimp only [handleElse]
      cases hframes : s.conditionals with
      | nil => exact ⟨⟨[], Nat.zero_le _, hframes⟩, fun _ _ => rfl⟩
      | cons frame outer => exact ⟨⟨[_], Nat.le_refl _, rfl⟩, nofun⟩
    | endif =>
      refine ⟨⟨[], Nat.zero_le _, rfl⟩, fun hframes hactive => ?_⟩
      obtain ⟨_⟩ := s
      cases hframes
      cases hactive
      rfl
    | if_ | ifdef | ifndef | define | undef | other => simp [Keyword.Continues] at hkeyword

theorem Tracks.wellBranched (hs : Tracks s groups) : WellBranched s groups where
  current := hs.current
  nested := hs.framed.active ▸ activeFlags_nested groups
  chosen := hs.framed.active
  inactive := by
    intro hactive lines hinside
    rw [hs.current_eq] at hactive
    exact Tracks.inside hactive lines [] hs hinside
  stray := by
    intro hframes line hkeyword
    have hactive : s.currentBranchActive = true := by
      rw [hs.current, hframes]
      rfl
    exact (handle_continues hkeyword).2 hframes hactive
  enclosing line hkeyword := ⟨handle_macros (.inr hkeyword.no_definition), (handle_continues hkeyword).1⟩

/-- On every run from the start of a scan, whatever the evaluator says of the conditions. -/
theorem conditionals_wellBranched (hs : s.Start) (lines : List ScanLine) :
    WellBranched (s.handleAll lines) (groupsAfter s [] lines) ∧
      ∀ group later : Group, later ≠ [] → group.chosen = true → Group.chosen (later ++ group) = false :=
  ⟨(hs.tracks.handleAll lines).wellBranched, chosen_unique⟩

/-- A stray `#else`, then an `#elif` behind the `#else` of a condition nobody can evaluate. -/
def malformedLines : List ScanLine :=
  [⟨"#else".toList, none, 1⟩, ⟨"#if X".toList, none, 2⟩, ⟨"#else".toList, none, 3⟩, ⟨"#elif 1".toList, some true, 4⟩]

theorem malformed_wellBranched :
    WellBranched (({} : ScanStreamState).handleAll malformedLines) (groupsAfter {} [] malformedLines) :=
  (conditionals_wellBranched ⟨rfl, rfl⟩ malformedLines).1

end

end Gentest.Scan
