import Gentest.Codegen.CompileCommands
import Gentest.Lib.Decimal

/-!
# What the context fingerprint sees

The semantic context is meant to be the command line without its compiler, its
source and the options that name outputs, steer dependency files or map modules.
Which arguments those are depends on the driver: `-MT` takes the next argument as a
target for a GNU driver and selects the C runtime for `cl`, and `/Fo…` is an output
for `cl` and a path for a GNU driver. `Driver.reading` removes them the way the
command's own driver reads them, and the two removals are compared.
-/

namespace Gentest.Codegen

open Arguments

-- ---------------------------------------------------------------------------
-- Reading a command as its driver does
-- ---------------------------------------------------------------------------

inductive Driver
  | gnu
  | cl
  deriving DecidableEq

/-- The options of each driver that name an output or steer dependency files. `cl`
takes the values of `/Fo`, `/Fd` and `/Fe` joined; alone they name no output. -/
def Driver.outputReading : Driver → String → Option Reading
  | .gnu, argument =>
    if ["-o", "-MF", "-MT", "-MQ", "-MJ", "--dependency-file"].contains argument then some .dropWithNext
    else if joinedWith ["-MF", "-MT", "-MQ", "-MJ"] argument then some .drop
    else if ["-MD", "-MMD", "-MP"].contains argument then some .drop
    else none
  | .cl, argument =>
    if argument = "-o" then some .dropWithNext
    else if joinedWith ["/Fo", "/Fd", "/Fe"] argument then some .drop
    else none

/-- Compile-only flags, module maps and what `should_strip_compdb_arg` lists. -/
def Driver.dropsSpelling (driver : Driver) (argument : String) : Bool :=
  isCmakeModuleMapResponse argument || argument = "-c" || argument = "-fsyntax-only" ||
    (driver = .cl && argument = "/c") || shouldStripCompdbArg argument true

structure ScanCommand extends CompileCommand where
  source : String
  driver : Driver

section

variable (host : Host) (takesValue : Driver → String → Bool)

/-- How the driver reads an argument, and whether what it reads is among the things
that a context may leave out. The other options that take the next argument as
their value are those of `takesValue`. A source is not spelled like an output
option. -/
def Driver.reading (driver : Driver) (directory source argument : String) : Reading :=
  match driver.outputReading argument with
  | some reading => reading
  | none =>
    if isMsvcModuleMappingValueFlag argument then .dropWithNext
    else if driver.dropsSpelling argument then .drop
    else if takesValue driver argument then .keepWithNext
    else if !isCompileOutputOption argument && namesSource host directory source argument then .drop
    else if driver = .cl && joinsSource host directory source argument then .drop
    else .keep

def ScanCommand.context (c : ScanCommand) : List String :=
  normalizedSemanticCompileContext host c.toCompileCommand c.source

/-- The command line after removing only what its own driver reads as the compiler,
the source, compile-only flags, outputs, dependency files and module mapping. -/
def ScanCommand.remaining (c : ScanCommand) : List String :=
  left (c.driver.reading host takesValue c.directory c.source) none (argumentsAfterCompiler c.commandLine)

/-- None of the remaining arguments is one that the flat list would skip. -/
def ScanCommand.ReadAlike (c : ScanCommand) : Prop :=
  ∀ argument ∈ c.remaining host takesValue, semanticReading host c.directory c.source argument = .keep

instance (c : ScanCommand) : Decidable (c.ReadAlike host takesValue) :=
  inferInstanceAs (Decidable (∀ argument ∈ _, _ = _))

end

-- ---------------------------------------------------------------------------
-- The flat list removes what either driver would
-- ---------------------------------------------------------------------------

section

variable {host : Host} {takesValue : Driver → String → Bool} {driver : Driver}
  {directory source argument : String}

theorem isJoinedCompileOutputOption_of_joinedWith {options : List String}
    (hsub : options ⊆ ["-MF", "-MT", "-MQ", "-MJ", "/Fo", "/Fd", "/Fe"]) (h : joinedWith options argument = true) :
    isJoinedCompileOutputOption argument = true := by
  obtain ⟨front, hfront, hlong⟩ := List.any_eq_true.mp h
  exact List.any_eq_true.mpr ⟨front, hsub hfront, hlong⟩

theorem semanticReading_joined {options : List String} (h : joinedWith options argument = true)
    (hsub : options ⊆ ["-MF", "-MT", "-MQ", "-MJ", "/Fo", "/Fd", "/Fe"])
    (hskip : ∀ spelling ∈ skippingSpellings, joinedWith options spelling = false) :
    semanticReading host directory source argument = .drop := by
  refine semanticReading_drop (not_mem_of_test _ h hskip) (.inr (.inl ?_))
  simp [isJoinedCompileOutputOption_of_joinedWith hsub h]

theorem semanticReading_of_outputReading {reading : Reading} (h : driver.outputReading argument = some reading) :
    semanticReading host directory source argument = reading := by
  cases driver with
  | gnu =>
    simp only [Driver.outputReading] at h
    split at h
    · rename_i hmem
      obtain rfl := Option.some.inj h
      have hsub : ∀ spelling ∈ ["-o", "-MF", "-MT", "-MQ", "-MJ", "--dependency-file"],
          spelling ∈ skippingSpellings := by decide
      exact semanticReading_dropWithNext (hsub argument (List.contains_iff_mem.mp hmem))
    · split at h
      · rename_i hjoined
        obtain rfl := Option.some.inj h
        exact semanticReading_joined hjoined (by decide) (by decide +kernel)
      · split at h
        · rename_i hflag
          obtain rfl := Option.some.inj h
          refine semanticReading_drop (not_mem_of_test _ hflag (by decide)) (.inr (.inl ?_))
          simp only [List.contains_iff_mem, List.mem_cons, List.not_mem_nil, or_false] at hflag
          rcases hflag with rfl | rfl | rfl <;> decide +kernel
        · cases h
  | cl =>
    simp only [Driver.outputReading] at h
    split at h
    · rename_i heq
      obtain rfl := Option.some.inj h
      exact semanticReading_dropWithNext (by subst heq; decide)
    · split at h
      · rename_i hjoined
        obtain rfl := Option.some.inj h
        exact semanticReading_joined hjoined (by decide) (by decide +kernel)
      · cases h

theorem Driver.reading_refines :
    Refines (driver.reading host takesValue directory source) (semanticReading host directory source) := by
  intro argument hstays
  generalize hr : driver.reading host takesValue directory source argument = r at hstays ⊢
  unfold Driver.reading at hr
  cases hout : driver.outputReading argument with
  | some reading =>
    simp only [hout] at hr
    exact hr ▸ semanticReading_of_outputReading hout
  | none =>
    simp only [hout] at hr
    split at hr
    · rename_i hvalue
      exact hr ▸ semanticReading_dropWithNext (skips_iff.mp (by simp [hvalue]))
    · rename_i hvalue
      have hskip : isCompileOutputOption argument = false → argument ∉ skippingSpellings := by
        intro houtput hmem
        simpa [houtput, hvalue] using skips_iff.mpr hmem
      split at hr
      · rename_i hdrop
        refine hr ▸ semanticReading_drop (hskip (Bool.eq_false_iff.mpr fun houtput => ?_)) ?_
        · refine not_mem_of_test driver.dropsSpelling hdrop ?_ (List.contains_iff_mem.mp houtput)
          cases driver <;> decide +kernel
        · simp only [Driver.dropsSpelling, Bool.or_eq_true, Bool.and_eq_true, decide_eq_true_eq] at hdrop
          rcases hdrop with (((h | h) | h) | ⟨-, h⟩) | h <;> simp [h]
      · split at hr
        · rw [← hr] at hstays
          cases hstays
        · split at hr
          · rename_i hsource
            simp only [Bool.and_eq_true, Bool.not_eq_true'] at hsource
            exact hr ▸ semanticReading_drop (hskip hsource.1) (.inr (.inr (.inl hsource.2)))
          · split at hr
            · rename_i hjoins
              simp only [Bool.and_eq_true, decide_eq_true_eq] at hjoins
              refine hr ▸ semanticReading_drop ?_ (.inr (.inr (.inr hjoins.2)))
              exact not_mem_of_test (fun spelling => (joinedMsvcSourceArgPath spelling).isSome)
                (joinedMsvcSourceArgPath_isSome hjoins.2) (by decide +kernel)
            · rw [← hr] at hstays
              cases hstays

theorem ScanCommand.context_eq_iff (c : ScanCommand) :
    left (semanticReading host c.directory c.source) none (argumentsAfterCompiler c.commandLine) =
      c.remaining host takesValue ↔ c.ReadAlike host takesValue :=
  left_eq_iff Driver.reading_refines fun _ => semanticReading_ne_keepWithNext

end

-- ---------------------------------------------------------------------------
-- A command for given tokens
-- ---------------------------------------------------------------------------

section

variable {host : Host} {takesValue : Driver → String → Bool}

def Driver.compiler : Driver → String
  | .gnu => "clang++"
  | .cl => "clang-cl"

/-- The command of the same driver that is the context of `c` and nothing else. -/
def ScanCommand.plain (host : Host) (c : ScanCommand) : ScanCommand :=
  { c with
    commandLine := c.driver.compiler ::
      left (semanticReading host c.directory c.source) none (argumentsAfterCompiler c.commandLine) }

theorem ScanCommand.plain_arguments (c : ScanCommand) :
    argumentsAfterCompiler (c.plain host).commandLine =
      left (semanticReading host c.directory c.source) none (argumentsAfterCompiler c.commandLine) := by
  refine argumentsAfterCompiler_cons ?_
  cases hdriver : c.driver <;> decide +kernel

theorem ScanCommand.plain_left (c : ScanCommand) :
    left (semanticReading host c.directory c.source) none (argumentsAfterCompiler (c.plain host).commandLine) =
      left (semanticReading host c.directory c.source) none (argumentsAfterCompiler c.commandLine) := by
  rw [c.plain_arguments]
  exact left_eq_self fun token htoken =>
    keep_of_mem_left (fun _ => semanticReading_ne_keepWithNext) (by simp) htoken

theorem ScanCommand.plain_context (c : ScanCommand) : (c.plain host).context host = c.context host :=
  congrArg (List.cons _) c.plain_left

/-- The plain command is read alike by its driver: all of it is kept by the loop, and
the driver removes no more than the loop. -/
theorem ScanCommand.plain_readAlike (c : ScanCommand) : (c.plain host).ReadAlike host takesValue := by
  intro token htoken
  have hmem : token ∈ argumentsAfterCompiler (c.plain host).commandLine := mem_of_mem_left htoken
  rw [c.plain_arguments] at hmem
  exact keep_of_mem_left (fun _ => semanticReading_ne_keepWithNext) (by simp) hmem

end

-- ---------------------------------------------------------------------------
-- The bytes that are hashed
-- ---------------------------------------------------------------------------

theorem hashedText_cons (token : String) (tokens : List String) :
    hashedText (token :: tokens) =
      Nat.toDigits 10 (Utf8.encode token.toList).length ++ '\x00' :: (token.toList ++ '\x00' :: hashedText tokens) := by
  simp [hashedText]

theorem hashedText_injective : Function.Injective hashedText := by
  intro tokens
  induction tokens with
  | nil =>
    intro tokens' h
    cases tokens' with
    | nil => rfl
    | cons token' tokens' => simp [hashedText] at h
  | cons token tokens ih =>
    intro tokens' h
    cases tokens' with
    | nil => simp [hashedText] at h
    | cons token' tokens' =>
      rw [hashedText_cons, hashedText_cons] at h
      -- the first zero ends the length, and the length says after how many bytes the token ends
      obtain ⟨hlength, hrest⟩ := Decimal.toDigits_append_inj (by decide) h
      have hbytes := congrArg Utf8.encode hrest
      rw [Utf8.encode_append, Utf8.encode_append] at hbytes
      obtain ⟨htoken, hmore⟩ := List.append_inj hbytes hlength
      obtain rfl := String.toList_injective (Utf8.encode_injective htoken)
      rw [ih (List.cons.inj (Utf8.encode_injective hmore)).2]

theorem hashedBytes_injective : Function.Injective hashedBytes := fun _ _ h =>
  hashedText_injective (Utf8.encode_injective h)

-- ---------------------------------------------------------------------------
-- Soundness of the context
-- ---------------------------------------------------------------------------

/-- Contexts tell commands apart as far as both are read alike by the loop and by
their drivers. Every other command shares its context with one that is read alike
and differs from it in what remains. The hashed bytes determine the tokens. -/
theorem semantic_context_sound_exactly (host : Host) (takesValue : Driver → String → Bool) :
    (∀ c d : ScanCommand, c.ReadAlike host takesValue → d.ReadAlike host takesValue →
      c.context host = d.context host → c.remaining host takesValue = d.remaining host takesValue) ∧
    (∀ c : ScanCommand, ¬c.ReadAlike host takesValue →
      ∃ d : ScanCommand, d.ReadAlike host takesValue ∧ c.context host = d.context host ∧
        c.remaining host takesValue ≠ d.remaining host takesValue) ∧
    ∀ tokens tokens' : List String, hashedBytes tokens = hashedBytes tokens' → tokens = tokens' := by
  refine ⟨?_, ?_, fun tokens tokens' h => hashedBytes_injective h⟩
  · intro c d hc hd hcontext
    rw [← c.context_eq_iff.mpr hc, ← d.context_eq_iff.mpr hd]
    exact (List.cons.inj hcontext).2
  · intro c hc
    refine ⟨c.plain host, c.plain_readAlike, c.plain_context.symm, ?_⟩
    intro hremaining
    have hread : (c.plain host).ReadAlike host takesValue := c.plain_readAlike
    have hplain := (c.plain host).context_eq_iff.mpr hread
    rw [← hremaining] at hplain
    exact hc (c.context_eq_iff.mp (c.plain_left.symm.trans hplain))

/-- Two `cl` commands that select the static runtime and define different macros. -/
def staticRuntimeCommand (macroArg : String) : ScanCommand where
  directory := "/build"
  commandLine := ["cl", "-MT", macroArg, "-c", "/src/case.cpp"]
  source := "/src/case.cpp"
  driver := .cl

theorem static_runtime_hides_macro :
    (staticRuntimeCommand "-DPOSIX").context plainHost = (staticRuntimeCommand "-DWIDE").context plainHost ∧
      (staticRuntimeCommand "-DPOSIX").remaining plainHost (fun _ _ => false) ≠
        (staticRuntimeCommand "-DWIDE").remaining plainHost (fun _ _ => false) := by
  decide +kernel

end Gentest.Codegen
