import Gentest.Codegen.FaithfulText
import Gentest.Codegen.WrapperSpacing

/-!
# Which texts of a user spell a placeholder in the wrappers

The code of a wrapper holds the names and the arguments of its case and what its fixtures
are made with, and no other text of a user. So whether a registration is filled in
faithfully is a condition on the texts of users alone.
-/

namespace Gentest.Codegen.RegistrationText

variable {x : Placeholder} {pieces rest : List Piece} {text : List Char}

-- ---------------------------------------------------------------------------
-- The texts of a wrapper
-- ---------------------------------------------------------------------------

def typeTexts (types : List FreeFixtureUse) : List (List Char) := types.map fun fx => fx.typeName.toList

/-- The texts that the fixtures are looked up by. -/
def initTexts (types : List FreeFixtureUse) : List (List Char) :=
  types.flatMap fun fx =>
    match fx.scope with
    | .localScope => [fx.typeName.toList]
    | .suite => [fx.suiteName.toList, fx.lookupName.toList]
    | .global => [fx.lookupName.toList]

def WrapperSpec.argTexts (spec : WrapperSpec) : List (List Char) :=
  if spec.kind.withFixtures then
    spec.freeArgs.filterMap fun
      | .fixture _ => none
      | .value expression => some expression
  else [spec.valueArgs.toList]

def WrapperSpec.fixtureTexts (spec : WrapperSpec) : List (List Char) :=
  if spec.kind.withFixtures then typeTexts spec.fixtures ++ initTexts spec.fixtures else []

def WrapperSpec.texts (spec : WrapperSpec) : List (List Char) :=
  if spec.returnsAsync = false ∧ spec.isSimple then [spec.callee.toList]
  else spec.namespaceParts.map String.toList ++ (if spec.kind.isMember then [spec.method.toList] else []) ++
    spec.callee.toList :: (spec.argTexts ++ spec.fixtureTexts)

/-- The texts of a user in the wrapper of a case. -/
def wrapperTexts (test : WrappedCase) : List (List Char) := (buildWrapperSpec test 0).texts

-- not by `rfl`: `simp` also uses these equations on hypotheses
@[simp] theorem userTexts_nil : userTexts [] = [] := by
  simp [userTexts]

@[simp] theorem userTexts_fixed (text : String) : userTexts (.fixed text :: rest) = userTexts rest := by
  rw [userTexts, List.filterMap_cons_none rfl, userTexts]

@[simp] theorem userTexts_numbered (front : String) (n : Nat) :
    userTexts (.numbered front n :: rest) = userTexts rest := by
  rw [userTexts, List.filterMap_cons_none rfl, userTexts]

@[simp] theorem userTexts_user : userTexts (.user text :: rest) = text :: userTexts rest := by
  simp [userTexts, Piece.text?]

@[simp] theorem userTexts_escaped : userTexts (.escaped text :: rest) = text :: userTexts rest := by
  simp [userTexts, Piece.text?]

@[simp] theorem userTexts_append : userTexts (pieces ++ rest) = userTexts pieces ++ userTexts rest :=
  List.filterMap_append

@[simp] theorem userTexts_flatMap {β : Type} (f : β → List Piece) (l : List β) :
    userTexts (l.flatMap f) = l.flatMap fun a => userTexts (f a) := by
  induction l with
  | nil => rfl
  | cons a l ih => simp [ih]

@[simp] theorem userTexts_code (parts : List (List Piece)) : userTexts (code parts) = parts.flatMap userTexts := by
  rw [code, ← List.flatMap_id, userTexts_flatMap]
  rfl

theorem mem_userTexts_commaSeparated {parts : List (List Piece)} :
    text ∈ userTexts (commaSeparated parts) ↔ ∃ part ∈ parts, text ∈ userTexts part := by
  unfold commaSeparated
  induction parts with
  | nil => simp
  | cons part parts ih =>
    cases parts with
    | nil => simp
    | cons next parts =>
      rw [List.intercalate_cons_cons, userTexts_append, userTexts_append, List.mem_append, List.mem_append, ih,
        List.exists_mem_cons_iff]
      simp

theorem written_eq_nil (h : written pieces = []) (htext : text ∈ userTexts pieces) : text = [] := by
  obtain ⟨piece, hpiece, hsome⟩ := List.mem_filterMap.mp htext
  have hletters := List.flatMap_eq_nil_iff.mp h piece hpiece
  cases piece <;> cases hsome
  case user => exact hletters
  case escaped =>
    cases text with
    | nil => rfl
    | cons c text =>
      have hescape : escapeChar c = [] := (List.append_eq_nil_iff.mp hletters).1
      rcases escapeChar_cases c with hplain | ⟨-, d, -, hpair⟩
      · exact absurd (hplain.symm.trans hescape) (List.cons_ne_nil _ _)
      · exact absurd (hpair.symm.trans hescape) (List.cons_ne_nil _ _)

theorem mem_userTexts_formatCallArgs (ht : text ≠ []) :
    text ∈ userTexts (formatCallArgs pieces) ↔ text ∈ userTexts pieces := by
  unfold formatCallArgs
  split
  case isTrue hempty => exact iff_of_false (by simp) fun htext => ht (written_eq_nil hempty htext)
  case isFalse => simp

theorem userTexts_formatCallArgs (h : userTexts pieces = []) : userTexts (formatCallArgs pieces) = [] := by
  unfold formatCallArgs
  split <;> simp [h]

theorem userTexts_prependCallArg (first : String) (h : userTexts pieces = []) :
    userTexts (prependCallArg first pieces) = [] := by
  unfold prependCallArg
  split
  · rfl
  · simp [h]

theorem userTexts_fixtureCalls {state : List Piece} (hstate : userTexts state = []) (fixtures : List FreeFixtureUse) :
    userTexts (buildHelperFixtureCallList state fixtures) = [] := by
  refine List.eq_nil_iff_forall_not_mem.mpr fun text htext => ?_
  obtain ⟨part, hpart, hwithin⟩ := mem_userTexts_commaSeparated.mp htext
  obtain ⟨p, -, rfl⟩ := List.mem_map.mp hpart
  simp [hstate] at hwithin

@[simp] theorem userTexts_fixtureArgs {state : List Piece} (hstate : userTexts state = []) (fixtures : List FreeFixtureUse) :
    userTexts (formatCallArgs (buildHelperFixtureCallList state fixtures)) = [] :=
  userTexts_formatCallArgs (userTexts_fixtureCalls hstate fixtures)

@[simp] theorem userTexts_ownAndFixtureArgs (first : String) {state : List Piece} (hstate : userTexts state = [])
    (fixtures : List FreeFixtureUse) :
    userTexts (formatCallArgs (prependCallArg first (buildHelperFixtureCallList state fixtures))) = [] :=
  userTexts_formatCallArgs (userTexts_prependCallArg first (userTexts_fixtureCalls hstate fixtures))

theorem userTexts_helperParams (fixtures : List FreeFixtureUse) (includeSelf : Bool) :
    userTexts (buildHelperParamDecls fixtures includeSelf) = [] := by
  refine List.eq_nil_iff_forall_not_mem.mpr fun text htext => ?_
  obtain ⟨part, hpart, hwithin⟩ := mem_userTexts_commaSeparated.mp htext
  rcases List.mem_append.mp hpart with hself | hfixture
  · cases includeSelf
    · cases hself
    · obtain rfl := List.mem_singleton.mp hself
      cases hwithin
  · obtain ⟨p, -, rfl⟩ := List.mem_map.mp hfixture
    cases hwithin

theorem mem_userTexts_callArgs (spec : WrapperSpec) (ht : text ≠ []) :
    text ∈ userTexts spec.callArgs ↔ text ∈ spec.argTexts := by
  unfold WrapperSpec.callArgs WrapperSpec.argTexts
  rw [mem_userTexts_formatCallArgs ht]
  split
  · rw [buildHelperBoundArgList, mem_userTexts_commaSeparated, List.mem_filterMap]
    simp only [List.mem_map, exists_exists_and_eq_and]
    refine exists_congr fun arg => and_congr_right fun _ => ?_
    cases arg with
    | fixture index => simp [forwardFixture]
    | value expression => simp [eq_comm]
  · rfl

theorem mem_userTexts_callExpr (spec : WrapperSpec) (ht : text ≠ []) : text ∈ userTexts spec.callExpr ↔
    text = (if spec.kind.isMember then spec.method else spec.callee).toList ∨ text ∈ spec.argTexts := by
  unfold WrapperSpec.callExpr
  split
  · split <;> simp [mem_userTexts_callArgs spec ht]
  · simp [mem_userTexts_callArgs spec ht]

theorem mem_userTexts_wrapInNamespaces (parts : List String) (body : List Piece) :
    text ∈ userTexts (wrapInNamespaces parts body) ↔ text ∈ parts.map String.toList ∨ text ∈ userTexts body := by
  have hparts : ∀ {l : List String}, (text ∈ l.flatMap fun part => [part.toList]) ↔ text ∈ l.map String.toList := by
    simp [eq_comm]
  simp only [wrapInNamespaces, userTexts_code, userTexts_flatMap, List.flatMap_cons, List.flatMap_nil, List.append_nil,
    List.mem_append, userTexts_fixed, userTexts_user, userTexts_nil, hparts, List.map_reverse, List.mem_reverse]
  tauto

theorem mem_userTexts_helperDefinition (spec : WrapperSpec) {helperName : List Piece} (hname : userTexts helperName = [])
    (ht : text ≠ []) : text ∈ userTexts (buildHelperDefinition spec helperName) ↔
      text ∈ spec.namespaceParts.map String.toList ∨
        text = (if spec.kind.isMember then spec.method else spec.callee).toList ∨ text ∈ spec.argTexts := by
  rw [buildHelperDefinition, mem_userTexts_wrapInNamespaces]
  simp [hname, userTexts_helperParams, mem_userTexts_callExpr spec ht]

@[simp] theorem mem_userTexts_invokeWith (spec : WrapperSpec) {args : List Piece} (hargs : userTexts args = []) :
    text ∈ userTexts (spec.invokeWith args) ↔ text ∈ spec.namespaceParts.map String.toList := by
  unfold WrapperSpec.invokeWith makeInvokeForFree qualifyGlobalName WrapperSpec.helperName
  split <;> simp [hargs, eq_comm]

@[simp] theorem mem_userTexts_awaitWith (spec : WrapperSpec) {args : List Piece} (hargs : userTexts args = []) :
    text ∈ userTexts (spec.awaitWith args) ↔ text ∈ spec.namespaceParts.map String.toList := by
  simp [WrapperSpec.awaitWith, qualifyGlobalName, WrapperSpec.asyncHelperName, hargs, eq_comm]

-- ---------------------------------------------------------------------------
-- The texts of fixtures
-- ---------------------------------------------------------------------------

theorem mem_userTexts_zipIdx {types : List FreeFixtureUse} {f : FreeFixtureUse × Nat → List Piece}
    (texts : FreeFixtureUse → List (List Char)) (h : ∀ fx i, userTexts (f (fx, i)) = texts fx) :
    text ∈ userTexts (types.zipIdx.flatMap f) ↔ ∃ fx ∈ types, text ∈ texts fx := by
  rw [userTexts_flatMap, List.mem_flatMap, ← exists_mem_zipIdx fun fx => text ∈ texts fx]
  exact exists_congr fun ⟨fx, i⟩ => by rw [h]

section Fixtures

variable (types : List FreeFixtureUse) {state : List Piece}

@[simp] theorem mem_userTexts_fixtureDecls : text ∈ userTexts (buildFixtureDecls types) ↔ text ∈ typeTexts types := by
  rw [buildFixtureDecls, mem_userTexts_zipIdx (fun fx => [fx.typeName.toList]) fun _ _ => rfl]
  simp [typeTexts, eq_comm]

@[simp] theorem mem_userTexts_fixtureStateDecls :
    text ∈ userTexts (buildFixtureStateDecls types) ↔ text ∈ typeTexts types := by
  rw [buildFixtureStateDecls,
    mem_userTexts_zipIdx (fun fx => [fx.typeName.toList, fx.typeName.toList]) fun _ _ => rfl]
  simp [typeTexts, eq_comm]

theorem mem_userTexts_inits (indent leave : String) (hstate : userTexts state = []) :
    text ∈ userTexts (fixtureInits indent leave state types) ↔ text ∈ initTexts types := by
  rw [initTexts, List.mem_flatMap]
  refine mem_userTexts_zipIdx _ fun fx i => ?_
  dsimp only
  cases fx.scope <;> simp [hstate]

@[simp] theorem mem_userTexts_fixtureInits : text ∈ userTexts (buildFixtureInits types) ↔ text ∈ initTexts types :=
  mem_userTexts_inits types _ _ rfl

@[simp] theorem mem_userTexts_fixtureAsyncInits :
    text ∈ userTexts (buildFixtureAsyncInits types) ↔ text ∈ initTexts types :=
  mem_userTexts_inits types _ _ rfl

@[simp] theorem mem_userTexts_fixtureBenchInits :
    text ∈ userTexts (buildFixtureBenchInits types) ↔ text ∈ initTexts types :=
  mem_userTexts_inits types _ _ rfl

@[simp] theorem userTexts_benchState : userTexts benchState = [] := by
  simp [benchState]

@[simp] theorem userTexts_fixtureSetupTracked (hstate : userTexts state = []) :
    userTexts (buildFixtureSetupTracked state types) = [] := by
  simp [buildFixtureSetupTracked, setupTracked, hstate]

@[simp] theorem userTexts_fixtureAsyncSetupTracked : userTexts (buildFixtureAsyncSetupTracked types) = [] := by
  simp [buildFixtureAsyncSetupTracked, setupTracked]

@[simp] theorem userTexts_fixtureTeardownGuarded (hstate : userTexts state = []) :
    userTexts (buildFixtureTeardownGuarded state types) = [] := by
  simp [buildFixtureTeardownGuarded, teardownGuarded, hstate]

@[simp] theorem userTexts_fixtureAsyncTeardownGuarded : userTexts (buildFixtureAsyncTeardownGuarded types) = [] := by
  simp [buildFixtureAsyncTeardownGuarded, teardownGuarded]

@[simp] theorem userTexts_fixtureSetupFlags : userTexts (buildFixtureSetupFlags types) = [] := by
  simp [buildFixtureSetupFlags]

@[simp] theorem userTexts_fixtureStateSetupFlags : userTexts (buildFixtureStateSetupFlags types) = [] := by
  simp [buildFixtureStateSetupFlags]

end Fixtures

-- ---------------------------------------------------------------------------
-- Whole wrappers
-- ---------------------------------------------------------------------------

section Wrapper

variable (spec : WrapperSpec) (invoke benchInvoke : List Piece)

theorem mem_userTexts_wrapperFreeTest :
    text ∈ userTexts (wrapperFreeTest spec invoke) ↔ text ∈ userTexts invoke := by
  simp [wrapperFreeTest, WrapperSpec.wrapperName]

theorem mem_userTexts_wrapperFree : text ∈ userTexts (wrapperFree spec invoke) ↔ text ∈ userTexts invoke := by
  simp [wrapperFree, WrapperSpec.wrapperName]

theorem mem_userTexts_wrapperFreeFixtures : text ∈ userTexts (wrapperFreeFixtures spec invoke benchInvoke) ↔
    text ∈ typeTexts spec.fixtures ∨ text ∈ initTexts spec.fixtures ∨ text ∈ userTexts benchInvoke ∨
      text ∈ userTexts invoke := by
  simp [wrapperFreeFixtures, WrapperSpec.wrapperName]
  tauto

theorem mem_userTexts_wrapperEphemeral : text ∈ userTexts (wrapperEphemeral spec invoke benchInvoke) ↔
    text = spec.callee.toList ∨ text ∈ userTexts benchInvoke ∨ text ∈ userTexts invoke := by
  simp [wrapperEphemeral, WrapperSpec.wrapperName]
  tauto

theorem mem_userTexts_wrapperStateful : text ∈ userTexts (wrapperStateful spec invoke) ↔
    text = spec.callee.toList ∨ text ∈ userTexts invoke := by
  simp [wrapperStateful, WrapperSpec.wrapperName]

theorem mem_userTexts_wrapperEphemeralFixtures :
    text ∈ userTexts (wrapperEphemeralFixtures spec invoke benchInvoke) ↔ text = spec.callee.toList ∨
      text ∈ typeTexts spec.fixtures ∨ text ∈ initTexts spec.fixtures ∨ text ∈ userTexts benchInvoke ∨
        text ∈ userTexts invoke := by
  simp [wrapperEphemeralFixtures, WrapperSpec.wrapperName]
  tauto

theorem mem_userTexts_wrapperStatefulFixtures :
    text ∈ userTexts (wrapperStatefulFixtures spec invoke benchInvoke) ↔ text = spec.callee.toList ∨
      text ∈ typeTexts spec.fixtures ∨ text ∈ initTexts spec.fixtures ∨ text ∈ userTexts benchInvoke ∨
        text ∈ userTexts invoke := by
  simp [wrapperStatefulFixtures, WrapperSpec.wrapperName]
  tauto

theorem userTexts_asyncStub : userTexts (asyncStub spec) = [] := by
  simp [asyncStub, WrapperSpec.wrapperName]

end Wrapper

section Wrapped

variable (spec : WrapperSpec)

theorem mem_texts_of_helper (h : ¬(spec.returnsAsync = false ∧ spec.isSimple = true)) :
    text ∈ spec.texts ↔ text ∈ spec.namespaceParts.map String.toList ∨
      (spec.kind.isMember = true ∧ text = spec.method.toList) ∨ text = spec.callee.toList ∨ text ∈ spec.argTexts ∨
        (spec.kind.withFixtures = true ∧ (text ∈ typeTexts spec.fixtures ∨ text ∈ initTexts spec.fixtures)) := by
  rw [WrapperSpec.texts, if_neg h, WrapperSpec.fixtureTexts]
  cases spec.kind.isMember <;> cases spec.kind.withFixtures <;> simp

theorem mem_userTexts_simple (hsimple : spec.isSimple = true) (ht : text ≠ []) :
    text ∈ userTexts (makeInvokeForFree spec (qualifyGlobalCallee spec.callee)
      (formatCallArgs [.user spec.valueArgs.toList])) ↔ text = spec.callee.toList := by
  have hargs : text ∉ userTexts (formatCallArgs [.user spec.valueArgs.toList]) := by
    have hvalue : spec.valueArgs = "" := by simp_all [WrapperSpec.isSimple]
    rw [mem_userTexts_formatCallArgs ht, hvalue]
    simpa using ht
  have hcallee : text ∈ userTexts (qualifyGlobalCallee spec.callee) ↔ text = spec.callee.toList := by
    unfold qualifyGlobalCallee
    split <;> simp
  rw [← hcallee]
  unfold makeInvokeForFree
  split <;> simp [hargs]

/-- The wrapper of a case that is called through a helper. -/
theorem mem_userTexts_helped (hasync : spec.returnsAsync = false) (hsimple : spec.isSimple = false) (ht : text ≠ []) :
    text ∈ userTexts (appendWrapper spec) ↔ text ∈ spec.texts := by
  rw [mem_texts_of_helper spec (by simp [hsimple]), appendWrapper, if_neg (by simp [hasync]), if_neg (by simp [hsimple]),
    userTexts_append, List.mem_append, mem_userTexts_helperDefinition spec (by simp [WrapperSpec.helperName]) ht]
  cases hkind : spec.kind <;> simp only [WrapperKind.isMember, WrapperKind.withFixtures]
  case free =>
    simp [mem_userTexts_wrapperFree, -List.mem_map]
    tauto
  case freeWithFixtures =>
    simp [mem_userTexts_wrapperFreeFixtures, -List.mem_map]
    tauto
  case memberEphemeral =>
    simp [mem_userTexts_wrapperEphemeral, -List.mem_map]
    tauto
  case memberShared =>
    simp [mem_userTexts_wrapperStateful, -List.mem_map]
    tauto
  case memberEphemeralWithFixtures =>
    simp [mem_userTexts_wrapperEphemeralFixtures, -List.mem_map]
    tauto
  case memberSharedWithFixtures =>
    simp [mem_userTexts_wrapperStatefulFixtures, -List.mem_map]
    tauto

theorem mem_userTexts_appendWrapper (hasync : spec.returnsAsync = false) (ht : text ≠ []) :
    text ∈ userTexts (appendWrapper spec) ↔ text ∈ spec.texts := by
  by_cases hsimple : spec.isSimple = true
  · rw [appendWrapper, if_neg (by simp [hasync]), if_pos hsimple, mem_userTexts_wrapperFreeTest,
      mem_userTexts_simple spec hsimple ht, WrapperSpec.texts, if_pos ⟨hasync, hsimple⟩, List.mem_singleton]
  · exact mem_userTexts_helped spec hasync (Bool.eq_false_of_not_eq_true hsimple) ht

theorem mem_userTexts_asyncFixtureCall (invoke : List Piece) :
    text ∈ userTexts (asyncFixtureCall spec invoke) ↔ text ∈ userTexts invoke := by
  unfold asyncFixtureCall asyncLocalTeardownCall
  split <;> simp

theorem mem_userTexts_asyncBody : text ∈ userTexts (asyncBody spec) ↔
    text ∈ spec.namespaceParts.map String.toList ∨ (spec.kind.isMember = true ∧ text = spec.callee.toList) ∨
      (spec.kind.withFixtures = true ∧ (text ∈ typeTexts spec.fixtures ∨ text ∈ initTexts spec.fixtures)) := by
  unfold asyncBody
  cases hkind : spec.kind <;> simp only [WrapperKind.isMember, WrapperKind.withFixtures]
  all_goals
    simp [asyncOwnFixture, asyncSharedFixture, asyncFixtures, asyncLocalTeardownCall, asyncOwnSetup, asyncOwnTeardown,
      mem_userTexts_asyncFixtureCall, -List.mem_map]
  all_goals tauto

theorem mem_userTexts_appendAsyncWrapper (hasync : spec.returnsAsync = true) (ht : text ≠ []) :
    text ∈ userTexts (appendAsyncWrapper spec) ↔ text ∈ spec.texts := by
  have hentry : text ∈ userTexts (asyncEntrypoint spec (asyncBody spec)) ↔ text ∈ userTexts (asyncBody spec) := by
    simp [asyncEntrypoint]
  rw [mem_texts_of_helper spec (by simp [hasync]), appendAsyncWrapper, if_pos hasync, userTexts_append, List.mem_append,
    mem_userTexts_helperDefinition spec (by simp [WrapperSpec.asyncHelperName]) ht, hentry, mem_userTexts_asyncBody]
  cases spec.kind.isMember <;> simp [-List.mem_map] <;> tauto

theorem mem_userTexts_wrapperPieces (ht : text ≠ []) : text ∈ userTexts (wrapperPieces spec) ↔ text ∈ spec.texts := by
  rw [wrapperPieces, userTexts_append, List.mem_append]
  cases hasync : spec.returnsAsync
  case false =>
    rw [mem_userTexts_appendWrapper spec hasync ht, appendAsyncWrapper, if_neg (by simp [hasync])]
    simp
  case true =>
    rw [mem_userTexts_appendAsyncWrapper spec hasync ht, appendWrapper, if_pos hasync, userTexts_asyncStub]
    simp

end Wrapped

theorem buildWrapperSpec_texts (test : WrappedCase) (idx : Nat) : (buildWrapperSpec test idx).texts = wrapperTexts test := by
  unfold wrapperTexts buildWrapperSpec
  dsimp only
  split
  · split <;> rfl
  · rfl

theorem infix_renderWrappers (cases : List WrappedCase) :
    spelling x <:+: renderWrappers cases ↔ ∃ test ∈ cases, ∃ text ∈ wrapperTexts test, spelling x <:+: text := by
  have hspelled : ∀ {text : List Char}, spelling x <:+: text → text ≠ [] := by
    rintro text h rfl
    exact spelling_infix_nil x h
  have hcase : ∀ p : WrappedCase × Nat,
      (∃ text ∈ userTexts (wrapperPieces (buildWrapperSpec p.1 p.2)), spelling x <:+: text) ↔
        ∃ text ∈ wrapperTexts p.1, spelling x <:+: text := by
    intro p
    refine exists_congr fun text => and_congr_left fun hwithin => ?_
    rw [mem_userTexts_wrapperPieces _ (hspelled hwithin), buildWrapperSpec_texts]
  rw [renderWrappers, infix_written (.flatMap fun p _ => spaced_wrapperPieces _), userTexts_flatMap,
    ← exists_mem_zipIdx fun test => ∃ text ∈ wrapperTexts test, spelling x <:+: text]
  simp only [List.mem_flatMap, ← hcase]
  constructor
  · rintro ⟨text, ⟨p, hp, htext⟩, hwithin⟩
    exact ⟨p, hp, text, htext, hwithin⟩
  · rintro ⟨p, hp, text, htext, hwithin⟩
    exact ⟨text, ⟨p, hp, htext⟩, hwithin⟩

-- ---------------------------------------------------------------------------
-- Registrations with their wrappers
-- ---------------------------------------------------------------------------

/-- No text of a user spells a placeholder that is replaced after the block that the text
stands in. -/
structure UserTextsKept (cases : List WrappedCase) (fixtures : List FixtureDeclInfo) : Prop where
  traits : ∀ test ∈ cases, ∀ text ∈ test.info.tags ++ test.info.requirements,
    ∀ x ∈ [Placeholder.globalWrapperImpls, .wrapperImpls, .caseInits, .fixtureRegistrations, .registerFn],
      ¬spelling x <:+: text.toList
  wrappers : ∀ test ∈ cases, ∀ text ∈ wrapperTexts test,
    ∀ x ∈ [Placeholder.wrapperImpls, .caseInits, .fixtureRegistrations, .registerFn], ¬spelling x <:+: text
  entries : ∀ test ∈ cases, ∀ text ∈ entryTexts test.info,
    ∀ x ∈ [Placeholder.fixtureRegistrations, .registerFn], ¬spelling x <:+: text.toList
  registrations : ∀ fx ∈ fixtures, ∀ text ∈ registrationTexts fx, ¬spelling .registerFn <:+: text.toList

theorem textsKept_iff_userTextsKept (cases : List WrappedCase) (fixtures : List FixtureDeclInfo) :
    TextsKept (cases.map WrappedCase.info) fixtures (renderWrappers cases) ↔ UserTextsKept cases fixtures := by
  constructor
  · rintro ⟨htraits, hwrappers, hentries, hregistrations⟩
    refine ⟨fun test htest => htraits _ (List.mem_map_of_mem htest), fun test htest text htext x hx hwithin => ?_,
      fun test htest => hentries _ (List.mem_map_of_mem htest), hregistrations⟩
    exact hwrappers x hx ((infix_renderWrappers cases).mpr ⟨test, htest, text, htext, hwithin⟩)
  · rintro ⟨htraits, hwrappers, hentries, hregistrations⟩
    refine ⟨List.forall_mem_map.mpr htraits, fun x hx hwithin => ?_, List.forall_mem_map.mpr hentries, hregistrations⟩
    obtain ⟨test, htest, text, htext, hspelled⟩ := (infix_renderWrappers cases).mp hwithin
    exact hwrappers test htest text htext x hx hspelled

/-- With the wrappers of the cases a registration is filled in faithfully exactly when no
text of a user spells a placeholder that is still to be replaced. -/
theorem rendered_faithfully_iff (texts : SupportTexts) (cases : List WrappedCase) (fixtures : List FixtureDeclInfo)
    (hasMocks : Bool) (registerFn : List Char) (textual : Bool) :
    Faithful (renderedBlocks texts (fun _ => renderWrappers cases) (cases.map WrappedCase.info) fixtures hasMocks registerFn)
      textual ↔ UserTextsKept cases fixtures := by
  rw [faithful_iff_blocksKept (rendered ..), blocksKept_iff, textsKept_iff_userTextsKept]

end Gentest.Codegen.RegistrationText
