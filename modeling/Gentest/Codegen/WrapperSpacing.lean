import Gentest.Codegen.SpelledTexts
import Gentest.Codegen.WrapperText

/-!
# The fixed texts of the wrappers

No fixed text of a wrapper opens a placeholder, and the letter behind a text of a user
stands in none. So the code spells a placeholder exactly when a text of a user in it does.
-/

namespace Gentest.Codegen.RegistrationText

variable {x : Placeholder} {piece : Piece} {pieces rest : List Piece} {text letters : List Char}

-- ---------------------------------------------------------------------------
-- Spaced pieces
-- ---------------------------------------------------------------------------

def Piece.text? : Piece → Option (List Char)
  | .fixed _ | .numbered _ _ => none
  | .user text | .escaped text => some text

def userTexts (pieces : List Piece) : List (List Char) := pieces.filterMap Piece.text?

/-- No placeholder begins in the text, also none that goes on behind it. -/
def inert (text : List Char) : Bool := text.all (· != '{') || fixedText text

/-- No placeholder reaches into the pieces from the front. -/
def Begins (pieces : List Piece) : Prop := (written pieces).head?.any separates = true

inductive Spaced : List Piece → Prop
  | nil : Spaced []
  | fixed {piece : Piece} {rest : List Piece} :
    piece.text? = none → inert piece.letters = true → Spaced rest → Spaced (piece :: rest)
  | text {piece : Piece} {text : List Char} {rest : List Piece} :
    piece.text? = some text → Begins rest → Spaced rest → Spaced (piece :: rest)

theorem infix_append_of_notMem {u v : List Char} (hu : '{' ∉ u) : spelling x <:+: u ++ v ↔ spelling x <:+: v := by
  induction u with
  | nil => rfl
  | cons c u ih =>
    rw [List.mem_cons, not_or] at hu
    have hstarts : ¬spelling x <+: c :: (u ++ v) := fun h => hu.1 (List.cons_prefix_cons.mp h).1
    rw [List.cons_append, List.infix_cons_iff, or_iff_right hstarts, ih hu.2]

theorem notMem_of_all (h : text.all (· != '{') = true) : '{' ∉ text := fun hmem => by
  simpa using List.all_eq_true.mp h '{' hmem

theorem infix_append_of_inert {u v : List Char} (hu : inert u = true) :
    spelling x <:+: u ++ v ↔ spelling x <:+: v := by
  rw [inert, Bool.or_eq_true] at hu
  rcases hu with hnone | hfixed
  · exact infix_append_of_notMem (notMem_of_all hnone)
  · rw [infix_append_of_last (Bool.and_eq_true _ _ ▸ hfixed : _ ∧ _).2, or_iff_right (not_infix_fixed hfixed)]

theorem infix_letters (h : piece.text? = some text) : spelling x <:+: piece.letters ↔ spelling x <:+: text := by
  cases piece <;> cases h
  case user => rfl
  case escaped => exact infix_escapeString _

/-- Spaced pieces spell a placeholder where one of their texts does. -/
theorem infix_written (h : Spaced pieces) :
    spelling x <:+: written pieces ↔ ∃ text ∈ userTexts pieces, spelling x <:+: text := by
  induction h with
  | nil => exact iff_of_false (not_spelled_of_not_opens rfl x) (by simp [userTexts])
  | @fixed piece rest hnone hinert _ ih =>
    rw [written, List.flatMap_cons, ← written, infix_append_of_inert hinert, ih, userTexts, userTexts,
      List.filterMap_cons_none hnone]
  | @text piece text rest hsome hbegins _ ih =>
    rw [written, List.flatMap_cons, ← written, infix_append_of_head hbegins, infix_letters hsome, ih, userTexts,
      userTexts, List.filterMap_cons_some hsome, List.exists_mem_cons_iff]

-- ---------------------------------------------------------------------------
-- Pieces put together
-- ---------------------------------------------------------------------------

theorem Begins.append (h : Begins pieces) : Begins (pieces ++ rest) := by
  rw [Begins, written, List.flatMap_append, List.head?_append, ← written]
  obtain ⟨c, hc, -⟩ := (Option.any_eq_true _ _).mp h
  rw [hc, Option.some_or, ← hc]
  exact h

theorem Begins.literal {c : Char} (hc : separates c = true) : Begins (.fixed (String.ofList (c :: letters)) :: rest) := by
  rw [Begins, written, List.flatMap_cons, Piece.letters, String.toList_ofList]
  exact hc

theorem Begins.count {c : Char} {n : Nat} (hc : separates c = true) :
    Begins (.numbered (String.ofList (c :: letters)) n :: rest) := by
  rw [Begins, written, List.flatMap_cons, Piece.letters, String.toList_ofList]
  exact hc

theorem Spaced.literal (h : inert letters = true) (hrest : Spaced rest) :
    Spaced (.fixed (String.ofList letters) :: rest) := by
  refine .fixed rfl ?_ hrest
  rw [Piece.letters, String.toList_ofList]
  exact h

theorem Spaced.count {n : Nat} (h : letters.all (· != '{') = true) (hrest : Spaced rest) :
    Spaced (.numbered (String.ofList letters) n :: rest) := by
  have hdigits : (Nat.toDigits 10 n).all (· != '{') = true := by
    refine List.all_eq_true.mpr fun c hc => bne_iff_ne.mpr ?_
    rintro rfl
    simpa using Nat.isDigit_of_mem_toDigits (by decide) (by decide) hc
  refine .fixed rfl ?_ hrest
  rw [Piece.letters, String.toList_ofList, inert, List.all_append, h, hdigits]
  rfl

theorem Spaced.append (h : Spaced pieces) (hrest : Spaced rest) : Spaced (pieces ++ rest) := by
  induction h with
  | nil => exact hrest
  | fixed hnone hinert _ ih => exact .fixed hnone hinert ih
  | text hsome hbegins _ ih => exact .text hsome hbegins.append ih

theorem Spaced.code {parts : List (List Piece)} (h : parts.Forall Spaced) : Spaced (code parts) := by
  induction parts with
  | nil => exact .nil
  | cons part parts ih =>
    rw [List.forall_cons] at h
    exact h.1.append (ih h.2)

theorem Spaced.flatMap {β : Type} {f : β → List Piece} {l : List β} (h : ∀ a ∈ l, Spaced (f a)) :
    Spaced (l.flatMap f) := by
  induction l with
  | nil => exact .nil
  | cons a l ih =>
    rw [List.forall_mem_cons] at h
    exact h.1.append (ih h.2)

/-- Spaced in front of pieces that no placeholder reaches into. -/
def Loose (pieces : List Piece) : Prop := ∀ rest, Begins rest → Spaced rest → Spaced (pieces ++ rest)

theorem Spaced.loose (h : Spaced pieces) : Loose pieces := fun _ _ hrest => h.append hrest

theorem loose_user (text : List Char) : Loose [.user text] := fun _ hbegins hrest => .text rfl hbegins hrest

theorem loose_commaSeparated {parts : List (List Piece)} (h : ∀ part ∈ parts, Loose part) :
    Loose (commaSeparated parts) := by
  unfold commaSeparated
  induction parts with
  | nil => exact Spaced.nil.loose
  | cons part parts ih =>
    rw [List.forall_mem_cons] at h
    cases parts with
    | nil => simpa using h.1
    | cons next parts =>
      intro rest hbegins hrest
      rw [List.intercalate_cons_cons, List.append_assoc, List.append_assoc]
      exact h.1 _ (.literal rfl) (.literal rfl (ih h.2 rest hbegins hrest))

-- ---------------------------------------------------------------------------
-- Calls
-- ---------------------------------------------------------------------------

theorem begins_formatCallArgs (args : List Piece) : Begins (formatCallArgs args) := by
  unfold formatCallArgs
  split
  · exact .literal rfl
  · exact .literal rfl

theorem spaced_formatCallArgs {args : List Piece} (h : Loose args) : Spaced (formatCallArgs args) := by
  unfold formatCallArgs
  split
  · exact .literal rfl .nil
  · exact .literal rfl (h _ (.literal rfl) (.literal rfl .nil))

theorem spaced_qualifyGlobalName (parts : List String) {name : List Piece} (h : Spaced name) :
    Spaced (qualifyGlobalName parts name) :=
  .code ⟨.literal rfl .nil, .flatMap fun _ _ => .text rfl (.literal rfl) (.literal rfl .nil), h⟩

theorem loose_qualifyGlobalCallee (callee : String) : Loose (qualifyGlobalCallee callee) := by
  unfold qualifyGlobalCallee
  split
  · exact loose_user _
  · exact fun _ hbegins hrest => .literal rfl (.text rfl hbegins hrest)

theorem spaced_wrapInNamespaces (parts : List String) {body : List Piece} (h : Spaced body) :
    Spaced (wrapInNamespaces parts body) :=
  .code ⟨.flatMap fun _ _ => .literal rfl (.text rfl (.literal rfl) (.literal rfl .nil)), h,
    .flatMap fun _ _ => .literal rfl (.text rfl (.literal rfl) (.literal rfl .nil))⟩

theorem loose_helperParams (fixtures : List FreeFixtureUse) (includeSelf : Bool) :
    Loose (buildHelperParamDecls fixtures includeSelf) := by
  refine loose_commaSeparated fun part hpart => Spaced.loose ?_
  rcases List.mem_append.mp hpart with hself | hfixture
  · cases includeSelf
    · cases hself
    · obtain rfl := List.mem_singleton.mp hself
      exact .literal rfl .nil
  · obtain ⟨p, -, rfl⟩ := List.mem_map.mp hfixture
    exact .count rfl .nil

theorem loose_boundArgs (boundArgs : List FreeCallArg) : Loose (buildHelperBoundArgList boundArgs) := by
  refine loose_commaSeparated fun part hpart => ?_
  obtain ⟨arg, -, rfl⟩ := List.mem_map.mp hpart
  cases arg with
  | fixture index => exact Spaced.loose (.count rfl (.count rfl (.literal rfl .nil)))
  | value expression => exact loose_user _

theorem spaced_benchState : Spaced benchState := .literal rfl .nil

theorem loose_fixtureCalls {state : List Piece} (hstate : Spaced state) (fixtures : List FreeFixtureUse) :
    Loose (buildHelperFixtureCallList state fixtures) := by
  refine loose_commaSeparated fun part hpart => Spaced.loose ?_
  obtain ⟨p, -, rfl⟩ := List.mem_map.mp hpart
  exact .code ⟨hstate, .count rfl (.literal rfl .nil)⟩

theorem loose_prependCallArg {args : List Piece} (hfirst : inert letters = true) (hargs : Loose args) :
    Loose (prependCallArg (String.ofList letters) args) := by
  unfold prependCallArg
  split
  · exact (Spaced.literal hfirst .nil).loose
  · intro rest hbegins hrest
    have happend : code [[Piece.fixed (String.ofList letters), Piece.fixed ", "], args] ++ rest =
        Piece.fixed (String.ofList letters) :: Piece.fixed ", " :: (args ++ rest) := by simp [code]
    rw [happend]
    exact .literal hfirst (.literal rfl (hargs rest hbegins hrest))

theorem spaced_callArgs (spec : WrapperSpec) : Spaced spec.callArgs := by
  refine spaced_formatCallArgs ?_
  split
  · exact loose_boundArgs _
  · exact loose_user _

theorem spaced_callExpr (spec : WrapperSpec) : Spaced spec.callExpr := by
  have hcall : ∀ text, Spaced (.user text :: spec.callArgs) := fun _ =>
    .text rfl (begins_formatCallArgs _) (spaced_callArgs spec)
  unfold WrapperSpec.callExpr
  split
  · refine .code ⟨.literal rfl (.literal rfl .nil), ?_, hcall _⟩
    split
    · exact .literal rfl .nil
    · exact .nil
  · exact hcall _

theorem spaced_helperDefinition (spec : WrapperSpec) {helperName : List Piece} (h : Spaced helperName) :
    Spaced (buildHelperDefinition spec helperName) := by
  have hbody : Spaced (code [[") \x7b\n", "    return "], spec.callExpr, [";\n", "\x7d\n\n"]]) :=
    .code ⟨.literal rfl (.literal rfl .nil), spaced_callExpr spec, .literal rfl (.literal rfl .nil)⟩
  exact spaced_wrapInNamespaces _ (.literal rfl (h.append (.literal rfl
    (loose_helperParams _ _ _ (.literal rfl) hbody))))

theorem spaced_makeInvokeForFree (spec : WrapperSpec) {fn args : List Piece} (hfn : Loose fn) (hbegins : Begins args)
    (hargs : Spaced args) : Spaced (makeInvokeForFree spec fn args) := by
  have hcall : ∀ {tail : List Piece}, Spaced tail → Spaced (fn ++ (args ++ tail)) := fun htail =>
    hfn _ hbegins.append (hargs.append htail)
  unfold makeInvokeForFree
  split
  · exact .literal rfl (hcall (.literal rfl .nil))
  · exact .literal rfl (hcall (.literal rfl .nil))

theorem spaced_invokeWith (spec : WrapperSpec) {args : List Piece} (hbegins : Begins args) (hargs : Spaced args) :
    Spaced (spec.invokeWith args) :=
  spaced_makeInvokeForFree spec (spaced_qualifyGlobalName _ (.count rfl .nil)).loose hbegins hargs

theorem spaced_awaitWith (spec : WrapperSpec) {args : List Piece} (hargs : Spaced args) : Spaced (spec.awaitWith args) :=
  .code ⟨.literal rfl .nil, spaced_qualifyGlobalName _ (.count rfl .nil), hargs, .literal rfl .nil⟩

-- ---------------------------------------------------------------------------
-- Fixtures
-- ---------------------------------------------------------------------------

theorem spaced_fixtureDecls (types : List FreeFixtureUse) : Spaced (buildFixtureDecls types) :=
  .flatMap fun ⟨_, _⟩ _ => .count rfl (.literal rfl (.text rfl (.literal rfl) (.literal rfl .nil)))

theorem spaced_fixtureStateDecls (types : List FreeFixtureUse) : Spaced (buildFixtureStateDecls types) :=
  .flatMap fun ⟨_, _⟩ _ => .literal rfl <| .text rfl (.count rfl) <| .count rfl <| .literal rfl <|
    .text rfl (.literal rfl) (.literal rfl .nil)

section State

variable {state : List Piece} (types : List FreeFixtureUse)

theorem spaced_fixtureInits {indent leave : List Char} (hindent : inert indent = true) (hleave : inert leave = true)
    (hstate : Spaced state) : Spaced (fixtureInits (String.ofList indent) (String.ofList leave) state types) := by
  refine .flatMap fun ⟨fx, i⟩ _ => ?_
  have hleaves : Spaced [.fixed (String.ofList leave), .fixed ";\n"] := .literal hleave (.literal rfl .nil)
  dsimp only
  split
  case h_1 =>
    exact .code ⟨.literal hindent (.literal rfl .nil), hstate,
      .count rfl (.literal rfl (.text rfl (.literal rfl) (.literal rfl hleaves)))⟩
  case h_2 =>
    exact .code ⟨.literal hindent (.literal rfl .nil), hstate, .count rfl <| .literal rfl <|
      .text rfl (.literal rfl) <| .literal rfl <| .text rfl (.literal rfl) <| .literal rfl hleaves⟩
  case h_3 =>
    exact .code ⟨.literal hindent (.literal rfl .nil), hstate,
      .count rfl (.literal rfl (.text rfl (.literal rfl) (.literal rfl hleaves)))⟩

theorem spaced_setupTracked {call : List Char} (hcall : inert call = true) (hstate : Spaced state) :
    Spaced (setupTracked (String.ofList call) state types) :=
  .flatMap fun _ _ => .code ⟨.literal rfl .nil, hstate, .count rfl (.literal rfl (.literal rfl (.literal hcall .nil))),
    hstate, .count rfl (.literal rfl .nil)⟩

theorem spaced_teardownGuarded {indent call : List Char} (hindent : inert indent = true) (hcall : inert call = true)
    (hstate : Spaced state) : Spaced (teardownGuarded (String.ofList indent) (String.ofList call) state types) :=
  .flatMap fun _ _ => .code ⟨.literal hindent (.literal rfl .nil), hstate, .count rfl (.literal rfl (.literal hcall .nil)),
    hstate, .count rfl (.literal rfl .nil)⟩

theorem spaced_fixtureSetupFlags : Spaced (buildFixtureSetupFlags types) :=
  .flatMap fun _ _ => .count rfl (.literal rfl .nil)

theorem spaced_fixtureStateSetupFlags : Spaced (buildFixtureStateSetupFlags types) :=
  .flatMap fun _ _ => .count rfl (.literal rfl .nil)

end State

-- ---------------------------------------------------------------------------
-- Wrappers
-- ---------------------------------------------------------------------------

section Wrappers

variable (spec : WrapperSpec) {invoke benchInvoke body : List Piece}

theorem spaced_wrapperName : Spaced spec.wrapperName := .count rfl .nil

theorem spaced_wrapperFreeTest (h : Spaced invoke) : Spaced (wrapperFreeTest spec invoke) := by
  refine .code ⟨?_, spaced_wrapperName spec, ?_, h, ?_⟩
  all_goals repeat first | exact .nil | refine .literal rfl ?_

theorem spaced_wrapperFree (h : Spaced invoke) : Spaced (wrapperFree spec invoke) := by
  refine .code ⟨?_, spaced_wrapperName spec, ?_, h, ?_, h, ?_⟩
  all_goals repeat first | exact .nil | refine .literal rfl ?_

theorem spaced_wrapperFreeFixtures (h : Spaced invoke) (hbench : Spaced benchInvoke) :
    Spaced (wrapperFreeFixtures spec invoke benchInvoke) := by
  refine .code ⟨?_, spaced_wrapperName spec, ?_, spaced_fixtureStateDecls _, spaced_fixtureStateSetupFlags _, ?_,
    spaced_fixtureInits _ rfl rfl spaced_benchState, spaced_setupTracked _ rfl spaced_benchState, ?_,
    spaced_teardownGuarded _ rfl rfl spaced_benchState, ?_, hbench, ?_, spaced_fixtureDecls _,
    spaced_fixtureInits _ rfl rfl .nil, spaced_fixtureSetupFlags _, ?_, spaced_setupTracked _ rfl .nil, ?_, h, ?_,
    spaced_teardownGuarded _ rfl rfl .nil, ?_⟩
  all_goals repeat first | exact .nil | refine .literal rfl ?_

theorem spaced_wrapperEphemeral (h : Spaced invoke) (hbench : Spaced benchInvoke) :
    Spaced (wrapperEphemeral spec invoke benchInvoke) := by
  refine .code ⟨?_, spaced_wrapperName spec, ?_, hbench, ?_, h, ?_⟩
  all_goals repeat first | exact .nil | refine .literal rfl ?_ | refine .text rfl (.literal rfl) ?_

theorem spaced_wrapperStateful (h : Spaced invoke) : Spaced (wrapperStateful spec invoke) := by
  refine .code ⟨?_, spaced_wrapperName spec, ?_, h, ?_, h, ?_⟩
  all_goals repeat first | exact .nil | refine .literal rfl ?_ | refine .text rfl (.literal rfl) ?_

theorem spaced_wrapperEphemeralFixtures (h : Spaced invoke) (hbench : Spaced benchInvoke) :
    Spaced (wrapperEphemeralFixtures spec invoke benchInvoke) := by
  refine .code ⟨?_, spaced_wrapperName spec, ?_, spaced_fixtureStateDecls _, ?_, spaced_fixtureStateSetupFlags _, ?_,
    spaced_fixtureInits _ rfl rfl spaced_benchState, spaced_setupTracked _ rfl spaced_benchState, ?_,
    spaced_teardownGuarded _ rfl rfl spaced_benchState, ?_, hbench, ?_, spaced_fixtureDecls _,
    spaced_fixtureInits _ rfl rfl .nil, spaced_fixtureSetupFlags _, ?_, spaced_setupTracked _ rfl .nil, ?_, h, ?_,
    spaced_teardownGuarded _ rfl rfl .nil, ?_⟩
  all_goals repeat first | exact .nil | refine .literal rfl ?_ | refine .text rfl (.literal rfl) ?_

theorem spaced_wrapperStatefulFixtures (h : Spaced invoke) (hbench : Spaced benchInvoke) :
    Spaced (wrapperStatefulFixtures spec invoke benchInvoke) := by
  refine .code ⟨?_, spaced_wrapperName spec, ?_, spaced_fixtureStateDecls _, spaced_fixtureStateSetupFlags _, ?_,
    spaced_fixtureInits _ rfl rfl spaced_benchState, spaced_setupTracked _ rfl spaced_benchState, ?_,
    spaced_teardownGuarded _ rfl rfl spaced_benchState, ?_, hbench, ?_, spaced_fixtureDecls _,
    spaced_fixtureInits _ rfl rfl .nil, spaced_fixtureSetupFlags _, ?_, spaced_setupTracked _ rfl .nil, ?_, h, ?_,
    spaced_teardownGuarded _ rfl rfl .nil, ?_⟩
  all_goals repeat first | exact .nil | refine .literal rfl ?_ | refine .text rfl (.literal rfl) ?_

theorem spaced_asyncStub : Spaced (asyncStub spec) := by
  refine .code ⟨?_, spaced_wrapperName spec, ?_⟩
  all_goals repeat first | exact .nil | refine .literal rfl ?_

theorem spaced_appendWrapper : Spaced (appendWrapper spec) := by
  have hown : ∀ {first : List Char}, inert ('(' :: first) = true →
      Spaced (spec.invokeWith [.fixed (String.ofList ('(' :: first))]) := fun hfirst =>
    spaced_invokeWith spec (.literal rfl) (.literal hfirst .nil)
  have hcalls : ∀ {args : List Piece}, Loose args → Spaced (spec.invokeWith (formatCallArgs args)) := fun hargs =>
    spaced_invokeWith spec (begins_formatCallArgs _) (spaced_formatCallArgs hargs)
  have hfixtures := loose_fixtureCalls .nil spec.fixtures
  have hbench := loose_fixtureCalls spaced_benchState spec.fixtures
  unfold appendWrapper
  split
  · exact spaced_asyncStub spec
  split
  · exact spaced_wrapperFreeTest spec (spaced_makeInvokeForFree spec (loose_qualifyGlobalCallee _)
      (begins_formatCallArgs _) (spaced_formatCallArgs (loose_user _)))
  refine (spaced_helperDefinition spec (.count rfl .nil)).append ?_
  split
  case h_1 => exact spaced_wrapperFree spec (hown rfl)
  case h_2 => exact spaced_wrapperFreeFixtures spec (hcalls hfixtures) (hcalls hbench)
  case h_3 => exact spaced_wrapperEphemeral spec (hown rfl) (hown rfl)
  case h_4 => exact spaced_wrapperStateful spec (hown rfl)
  case h_5 =>
    exact spaced_wrapperEphemeralFixtures spec (hcalls (loose_prependCallArg rfl hfixtures))
      (hcalls (loose_prependCallArg rfl hbench))
  case h_6 =>
    exact spaced_wrapperStatefulFixtures spec (hcalls (loose_prependCallArg rfl hfixtures))
      (hcalls (loose_prependCallArg rfl hbench))

theorem spaced_asyncLocalTeardownCall {teardown : List Piece} (h : Spaced body) (hteardown : Spaced teardown) :
    Spaced (asyncLocalTeardownCall body teardown) := by
  refine .code ⟨?_, h, ?_, hteardown, ?_⟩
  all_goals repeat first | exact .nil | refine .literal rfl ?_

theorem spaced_asyncEntrypoint (h : Spaced body) : Spaced (asyncEntrypoint spec body) := by
  refine .code ⟨?_, h, ?_⟩
  all_goals repeat first | exact .nil | refine .literal rfl ?_ | refine .count rfl ?_

theorem spaced_asyncOwnFixture : Spaced (asyncOwnFixture spec) := by
  unfold asyncOwnFixture
  repeat first | exact .nil | refine .literal rfl ?_ | refine .text rfl (.literal rfl) ?_

theorem spaced_asyncSharedFixture : Spaced (asyncSharedFixture spec) := by
  unfold asyncSharedFixture
  repeat first | exact .nil | refine .literal rfl ?_ | refine .text rfl (.literal rfl) ?_

theorem spaced_asyncOwnSetup : Spaced asyncOwnSetup := .literal rfl (.literal rfl .nil)

theorem spaced_asyncOwnTeardown : Spaced asyncOwnTeardown := .literal rfl .nil

theorem spaced_asyncFixtures : Spaced (asyncFixtures spec) :=
  .code ⟨spaced_fixtureDecls _, spaced_fixtureInits _ rfl rfl .nil, spaced_fixtureSetupFlags _⟩

theorem spaced_asyncFixtureCall (h : Spaced invoke) : Spaced (asyncFixtureCall spec invoke) := by
  unfold asyncFixtureCall
  split
  · exact spaced_asyncLocalTeardownCall
      (.code ⟨spaced_setupTracked _ rfl .nil, .literal rfl .nil, h, .literal rfl .nil⟩)
      (spaced_teardownGuarded _ rfl rfl .nil)
  · exact .code ⟨.literal rfl .nil, h, .literal rfl .nil⟩

theorem spaced_asyncBody : Spaced (asyncBody spec) := by
  have hown : ∀ {first : List Char}, inert first = true → Spaced (spec.awaitWith [.fixed (String.ofList first)]) :=
    fun hfirst => spaced_awaitWith spec (.literal hfirst .nil)
  have hcalls : ∀ {args : List Piece}, Loose args → Spaced (spec.awaitWith (formatCallArgs args)) := fun hargs =>
    spaced_awaitWith spec (spaced_formatCallArgs hargs)
  have hfixtures := loose_fixtureCalls .nil spec.fixtures
  unfold asyncBody
  split
  case h_1 => exact .code ⟨.literal rfl (.literal rfl .nil), hown rfl, .literal rfl .nil⟩
  case h_2 => exact .code ⟨.literal rfl .nil, spaced_asyncFixtures spec, spaced_asyncFixtureCall spec (hcalls hfixtures)⟩
  case h_3 =>
    exact .code ⟨spaced_asyncOwnFixture spec, spaced_asyncLocalTeardownCall
      (.code ⟨spaced_asyncOwnSetup, .literal rfl .nil, hown rfl, .literal rfl .nil⟩) spaced_asyncOwnTeardown⟩
  case h_4 => exact .code ⟨spaced_asyncSharedFixture spec, .literal rfl .nil, hown rfl, .literal rfl .nil⟩
  case h_5 =>
    exact .code ⟨spaced_asyncOwnFixture spec, spaced_asyncFixtures spec, spaced_asyncLocalTeardownCall
      (.code ⟨spaced_asyncOwnSetup, spaced_setupTracked _ rfl .nil, .literal rfl .nil,
        hcalls (loose_prependCallArg rfl hfixtures), .literal rfl .nil⟩)
      (.code ⟨spaced_teardownGuarded _ rfl rfl .nil, spaced_asyncOwnTeardown⟩)⟩
  case h_6 =>
    exact .code ⟨spaced_asyncSharedFixture spec, spaced_asyncFixtures spec,
      spaced_asyncFixtureCall spec (hcalls (loose_prependCallArg rfl hfixtures))⟩

theorem spaced_wrapperPieces : Spaced (wrapperPieces spec) := by
  refine (spaced_appendWrapper spec).append ?_
  unfold appendAsyncWrapper
  split
  · exact (spaced_helperDefinition spec (.count rfl .nil)).append (spaced_asyncEntrypoint spec (spaced_asyncBody spec))
  · exact .nil

end Wrappers

end Gentest.Codegen.RegistrationText
