import Gentest.Codegen.AdjustedCommand

/-!
# The compiler behind launchers

A compile command may run its compiler through caches and through `env`. The scan for the
compiler steps over these wrappers and gives up at an argument it does not know; its
callers then take the first argument for the compiler, which is a wrapper.
-/

namespace Gentest.Codegen

-- ---------------------------------------------------------------------------
-- The scan
-- ---------------------------------------------------------------------------

/-- The loop of `compiler_arg_index_for_resource_dir_probe`, one constructor for each branch
of its body, without a bound on the rounds. -/
inductive ScansTo : List String → Option (List String) → Prop
  | ended : ScansTo [] none
  | blank {arg rest found} : (arg = "" || arg = "--") = true → ScansTo rest found → ScansTo (arg :: rest) found
  | cmakeEnv {arg rest found} : (arg = "" || arg = "--") = false → isCmakeEnvWrapperAt (arg :: rest) = true →
    ScansTo (advancePastEnvArguments (rest.drop 2)) found → ScansTo (arg :: rest) found
  | env {arg rest found} : (arg = "" || arg = "--") = false → isCmakeEnvWrapperAt (arg :: rest) = false →
    isPlainEnvWrapperAt (arg :: rest) = true → ScansTo (advancePastEnvArguments rest) found →
      ScansTo (arg :: rest) found
  | launcher {arg rest found} : (arg = "" || arg = "--") = false → isCmakeEnvWrapperAt (arg :: rest) = false →
    isPlainEnvWrapperAt (arg :: rest) = false → isKnownCompilerLauncher arg = true → ScansTo rest found →
      ScansTo (arg :: rest) found
  | stopped {arg rest} : (arg = "" || arg = "--") = false → isCmakeEnvWrapperAt (arg :: rest) = false →
    isPlainEnvWrapperAt (arg :: rest) = false → isKnownCompilerLauncher arg = false →
      ScansTo (arg :: rest) (if isKnownCompilerDriver arg then some (arg :: rest) else none)

variable {commandLine rest : List String} {arg : String} {found : Option (List String)}

theorem length_advancePastEnvArguments_le (args : List String) : (advancePastEnvArguments args).length ≤ args.length :=
  (advancePastEnvArguments_suffix args).length_le

theorem exists_scansTo (commandLine : List String) : ∃ found, ScansTo commandLine found := by
  match commandLine with
  | [] => exact ⟨none, .ended⟩
  | arg :: rest =>
    have hcmakeLength : (advancePastEnvArguments (rest.drop 2)).length ≤ rest.length :=
      (length_advancePastEnvArguments_le _).trans (List.drop_suffix 2 rest).length_le
    have henvLength := length_advancePastEnvArguments_le rest
    obtain ⟨foundRest, hrest⟩ := exists_scansTo rest
    obtain ⟨foundCmake, hfoundCmake⟩ := exists_scansTo (advancePastEnvArguments (rest.drop 2))
    obtain ⟨foundEnv, hfoundEnv⟩ := exists_scansTo (advancePastEnvArguments rest)
    cases hblank : (arg = "" || arg = "--") with
    | true => exact ⟨_, .blank hblank hrest⟩
    | false =>
      cases hcmake : isCmakeEnvWrapperAt (arg :: rest) with
      | true => exact ⟨_, .cmakeEnv hblank hcmake hfoundCmake⟩
      | false =>
        cases henv : isPlainEnvWrapperAt (arg :: rest) with
        | true => exact ⟨_, .env hblank hcmake henv hfoundEnv⟩
        | false =>
          cases hlauncher : isKnownCompilerLauncher arg with
          | true => exact ⟨_, .launcher hblank hcmake henv hlauncher hrest⟩
          | false => exact ⟨_, .stopped hblank hcmake henv hlauncher⟩
termination_by commandLine.length
decreasing_by all_goals simp only [List.length_cons]; omega

theorem ScansTo.compilerArgsFrom_eq (h : ScansTo commandLine found) (rounds : Nat)
    (hrounds : commandLine.length ≤ rounds) : compilerArgsFrom rounds commandLine = found := by
  induction h generalizing rounds with
  | ended => cases rounds <;> rfl
  | @blank arg rest _ hblank _ ih =>
    obtain ⟨rounds, rfl⟩ := Nat.exists_eq_add_of_le' (Nat.le_trans (Nat.le_add_left 1 _) hrounds)
    rw [compilerArgsFrom, if_pos hblank]
    exact ih rounds (Nat.le_of_succ_le_succ hrounds)
  | @cmakeEnv arg rest _ hblank hcmake _ ih =>
    obtain ⟨rounds, rfl⟩ := Nat.exists_eq_add_of_le' (Nat.le_trans (Nat.le_add_left 1 _) hrounds)
    have hlength := (length_advancePastEnvArguments_le (rest.drop 2)).trans (List.drop_suffix 2 rest).length_le
    rw [List.length_cons] at hrounds
    rw [compilerArgsFrom, if_neg (by simp [hblank]), if_pos hcmake]
    exact ih rounds (by omega)
  | @env arg rest _ hblank hcmake henv _ ih =>
    obtain ⟨rounds, rfl⟩ := Nat.exists_eq_add_of_le' (Nat.le_trans (Nat.le_add_left 1 _) hrounds)
    have hlength := length_advancePastEnvArguments_le rest
    rw [List.length_cons] at hrounds
    rw [compilerArgsFrom, if_neg (by simp [hblank]), if_neg (by simp [hcmake]), if_pos henv]
    exact ih rounds (by omega)
  | @launcher arg rest _ hblank hcmake henv hlauncher _ ih =>
    obtain ⟨rounds, rfl⟩ := Nat.exists_eq_add_of_le' (Nat.le_trans (Nat.le_add_left 1 _) hrounds)
    rw [compilerArgsFrom, if_neg (by simp [hblank]), if_neg (by simp [hcmake]), if_neg (by simp [henv]),
      if_pos hlauncher]
    exact ih rounds (Nat.le_of_succ_le_succ hrounds)
  | @stopped arg rest hblank hcmake henv hlauncher =>
    obtain ⟨rounds, rfl⟩ := Nat.exists_eq_add_of_le' (Nat.le_trans (Nat.le_add_left 1 _) hrounds)
    rw [compilerArgsFrom, if_neg (by simp [hblank]), if_neg (by simp [hcmake]), if_neg (by simp [henv]),
      if_neg (by simp [hlauncher])]

theorem ScansTo.probe_eq (h : ScansTo commandLine found) : compilerArgsForResourceDirProbe commandLine = found :=
  h.compilerArgsFrom_eq _ (Nat.le_refl _)

-- ---------------------------------------------------------------------------
-- Wrappers
-- ---------------------------------------------------------------------------

/-- The options that `advance_past_env_arguments` knows in one argument, and assignments. -/
def isKnownEnvArgument (text : String) : Bool :=
  startsWith text "-u" || startsWith text "--unset=" || startsWith text "--modify-env=" || text = "-i" ||
    text = "--ignore-environment" || isCmakeEnvAssignment text

/-- What `env` takes for an option or an assignment. -/
def isEnvArgument (text : String) : Bool := startsWith text "-" || isCmakeEnvAssignment text

/-- Options and assignments in front of the command of `env`. -/
inductive EnvArgument
  | unset (option name : String) (h : option = "-u" ∨ option = "--unset")
  /-- An assignment or an option in one argument. -/
  | single (text : String) (h : isEnvArgument text = true ∧ text ∉ ["--", "-u", "--unset"])
  /-- Another option with its value in the next argument. -/
  | valued (option value : String)
    (h : isEnvArgument option = true ∧ option ∉ ["--", "-u", "--unset"] ∧ isKnownEnvArgument option = false)

def EnvArgument.written : EnvArgument → List String
  | .unset option name _ => [option, name]
  | .single text _ => [text]
  | .valued option value _ => [option, value]

/-- The arguments of `env`; behind the separator there may be more assignments. -/
structure EnvArguments where
  arguments : List EnvArgument
  separator : Option (List String) := none
  assignments : ∀ text ∈ separator.getD [], isCmakeEnvAssignment text = true := by simp

def EnvArguments.written (env : EnvArguments) : List String :=
  env.arguments.flatMap EnvArgument.written ++ env.separator.elim [] ("--" :: ·)

inductive Wrapper
  | launcher (path : String) (h : isKnownCompilerLauncher path = true)
  | env (path : String) (h : basenameWithoutExtension path = "env") (arguments : EnvArguments)
  | cmakeEnv (path : String) (h : basenameWithoutExtension path = "cmake") (arguments : EnvArguments)

def Wrapper.path : Wrapper → String
  | .launcher path _ | .env path .. | .cmakeEnv path .. => path

def Wrapper.written : Wrapper → List String
  | .launcher path _ => [path]
  | .env path _ arguments => path :: arguments.written
  | .cmakeEnv path _ arguments => path :: "-E" :: "env" :: arguments.written

def Wrapper.envArguments : Wrapper → Option EnvArguments
  | .launcher .. => none
  | .env _ _ arguments | .cmakeEnv _ _ arguments => some arguments

/-- `env` runs the first argument that is neither an option nor an assignment. -/
def Wrapper.Runs (wrapper : Wrapper) (command : String) : Prop :=
  ∀ arguments ∈ wrapper.envArguments, arguments.separator = none → isEnvArgument command = false

def commandOf (wrappers : List Wrapper) (compiler : String) : String := (wrappers.head?.map Wrapper.path).getD compiler

/-- Each wrapper runs the next one, and the last one the compiler. -/
def RunsInTurn : List Wrapper → String → Prop
  | [], _ => True
  | wrapper :: wrappers, compiler => wrapper.Runs (commandOf wrappers compiler) ∧ RunsInTurn wrappers compiler

def NamesWrapper (text : String) : Prop :=
  isKnownCompilerLauncher text = true ∨ basenameWithoutExtension text = "env" ∨ basenameWithoutExtension text = "cmake"

/-- A command line `w ++ [c] ++ args`. -/
structure LaunchLine where
  wrappers : List Wrapper
  compiler : String
  arguments : List String
  runs : RunsInTurn wrappers compiler
  not_blank : (compiler = "" || compiler = "--") = false
  not_wrapper : ¬NamesWrapper compiler

def LaunchLine.front (line : LaunchLine) : List String := line.wrappers.flatMap Wrapper.written ++ [line.compiler]

def LaunchLine.written (line : LaunchLine) : List String := line.front ++ line.arguments

-- ---------------------------------------------------------------------------
-- The compiler part
-- ---------------------------------------------------------------------------

def compilerPart (commandLine : List String) : List String :=
  commandLine.take (commandLine.length - (argumentsAfterCompiler commandLine).length)

/-- The command line that `build_adjusted_command_line` looks for the compiler in. -/
def sanitizedCommandLine (commandLine : List String) : List String :=
  let stripped := stripShellControlTail commandLine
  if stripped.contains missingCompdbSyntheticCommandMarker then [] else stripped

/-- The scans end, and `normalized_semantic_compile_context` and
`build_adjusted_command_line` take the wrappers and the compiler for the compiler part. -/
def LaunchLine.Treated (line : LaunchLine) : Prop :=
  (∃ found, ScansTo line.written found) ∧ (∃ found, ScansTo (sanitizedCommandLine line.written) found) ∧
    compilerPart line.written = line.front ∧ compilerPart (sanitizedCommandLine line.written) = line.front

-- ---------------------------------------------------------------------------
-- The condition
-- ---------------------------------------------------------------------------

def EnvArgument.Known : EnvArgument → Prop
  | .unset .. => True
  | .single text _ => isKnownEnvArgument text = true
  | .valued .. => False

/-- All options are known, and no assignment stands behind the separator. -/
def Wrapper.Known (wrapper : Wrapper) : Prop :=
  ∀ env ∈ wrapper.envArguments, (∀ argument ∈ env.arguments, argument.Known) ∧ env.separator.getD [] = []

def HasShellControl (arg : String) : Prop :=
  isShellControlToken arg = true ∨ (trimEmbeddedShellControlTail arg).isSome = true

/-- The compiler's name is known unless nothing stands in front of it. -/
structure LaunchLine.Recognised (line : LaunchLine) : Prop where
  wrappers_known : ∀ wrapper ∈ line.wrappers, wrapper.Known
  compiler_known : line.wrappers = [] ∨ isKnownCompilerDriver line.compiler = true
  no_shell : ∀ arg ∈ line.front, ¬HasShellControl arg
  no_marker : missingCompdbSyntheticCommandMarker ∉ stripShellControlTail line.written

def EnvArgument.Plain : EnvArgument → Prop
  | .unset .. => True
  | .single text _ | .valued text _ _ => isKnownEnvArgument text = false → ¬NamesWrapper text

/-- What the scan does not know as an argument of `env` does not look like another wrapper
(as `--chdir=/usr/bin/ccache` does). -/
def LaunchLine.Plain (line : LaunchLine) : Prop :=
  ∀ wrapper ∈ line.wrappers, ∀ env ∈ wrapper.envArguments,
    (∀ argument ∈ env.arguments, argument.Plain) ∧ ∀ text ∈ env.separator.getD [], ¬NamesWrapper text

-- ---------------------------------------------------------------------------
-- One wrapper
-- ---------------------------------------------------------------------------

variable {wrapper : Wrapper} {wrappers : List Wrapper} {env : EnvArguments} {compiler command : String}

theorem isCmakeEnvWrapperAt_of_ne (h : basenameWithoutExtension arg ≠ "cmake") (rest : List String) :
    isCmakeEnvWrapperAt (arg :: rest) = false := by
  rcases rest with _ | ⟨option, _ | ⟨tool, rest⟩⟩
  · rfl
  · rfl
  · simp [isCmakeEnvWrapperAt, h]

theorem scansTo_stopped (hblank : (arg = "" || arg = "--") = false) (h : ¬NamesWrapper arg) (rest : List String) :
    ScansTo (arg :: rest) (if isKnownCompilerDriver arg then some (arg :: rest) else none) := by
  rw [NamesWrapper, not_or, not_or, Bool.not_eq_true] at h
  obtain ⟨hlauncher, henv, hcmake⟩ := h
  exact .stopped hblank (isCmakeEnvWrapperAt_of_ne hcmake rest) (by simp [isPlainEnvWrapperAt, henv]) hlauncher

theorem not_blank_of_basename (h : basenameWithoutExtension arg ∉ ["", "--"]) : (arg = "" || arg = "--") = false := by
  rw [Bool.or_eq_false_iff, decide_eq_false_iff_not, decide_eq_false_iff_not]
  constructor
  · rintro rfl
    exact h (by decide +kernel)
  · rintro rfl
    exact h (by decide +kernel)

def Wrapper.passed (wrapper : Wrapper) (rest : List String) : List String :=
  match wrapper.envArguments with
  | none => rest
  | some env => advancePastEnvArguments (env.written ++ rest)

theorem Wrapper.scansTo (wrapper : Wrapper) (h : ScansTo (wrapper.passed rest) found) :
    ScansTo (wrapper.written ++ rest) found := by
  cases wrapper with
  | launcher path hpath =>
    have hname := hpath
    simp only [isKnownCompilerLauncher, List.contains_iff_mem] at hname
    have hother : basenameWithoutExtension path ∉ ["", "--", "cmake", "env"] := by
      generalize basenameWithoutExtension path = name at hname
      revert name
      decide +kernel
    simp only [List.mem_cons, List.not_mem_nil, or_false, not_or] at hother
    obtain ⟨hempty, hdashes, hcmake, henv⟩ := hother
    exact .launcher (not_blank_of_basename (by simp [hempty, hdashes])) (isCmakeEnvWrapperAt_of_ne hcmake _)
      (by simp [isPlainEnvWrapperAt, henv]) hpath h
  | env path hpath env =>
    refine .env (not_blank_of_basename ?_) (isCmakeEnvWrapperAt_of_ne ?_ _) (by simp [isPlainEnvWrapperAt, hpath]) h
    · rw [hpath]
      decide
    · rw [hpath]
      decide
  | cmakeEnv path hpath env =>
    refine .cmakeEnv (not_blank_of_basename ?_) (by simp [isCmakeEnvWrapperAt, hpath]) h
    rw [hpath]
    decide

theorem advance_known {text : String} (hother : text ∉ ["--", "-u", "--unset"])
    (hknown : isKnownEnvArgument text = true) (rest : List String) :
    advancePastEnvArguments (text :: rest) = advancePastEnvArguments rest := by
  simp only [List.mem_cons, List.not_mem_nil, or_false, not_or] at hother
  conv_lhs => unfold advancePastEnvArguments
  rw [if_neg hother.1, if_neg (by simp [hother]), if_pos (by simpa [isKnownEnvArgument] using hknown)]

theorem advance_unknown {text : String} (hother : text ∉ ["--", "-u", "--unset"])
    (hunknown : isKnownEnvArgument text = false) (rest : List String) :
    advancePastEnvArguments (text :: rest) = text :: rest := by
  simp only [List.mem_cons, List.not_mem_nil, or_false, not_or] at hother
  conv_lhs => unfold advancePastEnvArguments
  rw [if_neg hother.1, if_neg (by simp [hother]), if_neg (by simpa [isKnownEnvArgument] using hunknown)]

theorem advance_unset {option : String} (h : option = "-u" ∨ option = "--unset") (name : String) (rest : List String) :
    advancePastEnvArguments (option :: name :: rest) = advancePastEnvArguments rest := by
  obtain rfl | rfl := h <;> simp [advancePastEnvArguments]

theorem advance_separator (rest : List String) : advancePastEnvArguments ("--" :: rest) = rest := by
  unfold advancePastEnvArguments
  exact if_pos rfl

theorem startsWith_trans {text front part : String} (h : startsWith text front = true)
    (hfront : startsWith front part = true) : startsWith text part = true := by
  rw [startsWith, List.isPrefixOf_iff_prefix] at *
  exact hfront.trans h

theorem isEnvArgument_of_known {text : String} (h : isKnownEnvArgument text = true) : isEnvArgument text = true := by
  simp only [isKnownEnvArgument, Bool.or_eq_true, decide_eq_true_eq, or_assoc] at h
  rw [isEnvArgument, Bool.or_eq_true]
  obtain h | h | h | rfl | rfl | h := h
  · exact .inl (startsWith_trans h (by decide))
  · exact .inl (startsWith_trans h (by decide))
  · exact .inl (startsWith_trans h (by decide))
  · exact .inl (by decide)
  · exact .inl (by decide)
  · exact .inr h

theorem advance_command (h : isEnvArgument command = false) (rest : List String) :
    advancePastEnvArguments (command :: rest) = command :: rest := by
  refine advance_unknown (fun hmem => ?_) (Bool.eq_false_iff.mpr fun hknown => ?_) rest
  · have hdash : ∀ text ∈ ["--", "-u", "--unset"], isEnvArgument text = true := by decide +kernel
    rw [hdash command hmem] at h
    cases h
  · rw [isEnvArgument_of_known hknown] at h
    cases h

theorem advance_arguments {arguments : List EnvArgument} (h : ∀ argument ∈ arguments, argument.Known)
    (rest : List String) :
    advancePastEnvArguments (arguments.flatMap EnvArgument.written ++ rest) = advancePastEnvArguments rest := by
  induction arguments with
  | nil => rfl
  | cons argument arguments ih =>
    have hmore := ih fun other hother => h other (List.mem_cons_of_mem _ hother)
    have hargument := h argument List.mem_cons_self
    rw [List.flatMap_cons, List.append_assoc]
    cases argument with
    | unset option name hoption => exact (advance_unset hoption name _).trans hmore
    | single text htext => exact (advance_known htext.2 hargument _).trans hmore
    | valued => exact hargument.elim

theorem Wrapper.passed_known (hknown : wrapper.Known) (hruns : wrapper.Runs command) (rest : List String) :
    wrapper.passed (command :: rest) = command :: rest := by
  unfold Wrapper.passed
  cases henv : wrapper.envArguments with
  | none => rfl
  | some env =>
    obtain ⟨harguments, hbehind⟩ := hknown env henv
    dsimp only
    rw [EnvArguments.written, List.append_assoc, advance_arguments harguments]
    cases hseparator : env.separator with
    | none => exact advance_command (hruns env henv hseparator) rest
    | some assignments =>
      rw [hseparator, Option.getD_some] at hbehind
      rw [hbehind]
      exact advance_separator _

theorem advance_astray {arguments : List EnvArgument} (hunknown : ¬∀ argument ∈ arguments, argument.Known)
    (hplain : ∀ argument ∈ arguments, argument.Plain) (rest : List String) :
    ∃ text more, advancePastEnvArguments (arguments.flatMap EnvArgument.written ++ rest) = text :: (more ++ rest) ∧
      isEnvArgument text = true ∧ text ≠ "--" ∧ ¬NamesWrapper text := by
  induction arguments with
  | nil => exact absurd nofun hunknown
  | cons argument arguments ih =>
    have hmore : argument.Known → ∃ text more,
        advancePastEnvArguments (arguments.flatMap EnvArgument.written ++ rest) = text :: (more ++ rest) ∧
          isEnvArgument text = true ∧ text ≠ "--" ∧ ¬NamesWrapper text := by
      intro hknown
      refine ih (fun hall => hunknown ?_) fun other hother => hplain other (List.mem_cons_of_mem _ hother)
      exact List.forall_mem_cons.mpr ⟨hknown, hall⟩
    have hargument := hplain argument List.mem_cons_self
    rw [List.flatMap_cons, List.append_assoc]
    cases argument with
    | unset option name hoption =>
      obtain ⟨text, more, hadvance, htext⟩ := hmore trivial
      exact ⟨text, more, (advance_unset hoption name _).trans hadvance, htext⟩
    | single text htext =>
      cases hknown : isKnownEnvArgument text with
      | true =>
        obtain ⟨other, more, hadvance, hother⟩ := hmore hknown
        exact ⟨other, more, (advance_known htext.2 hknown _).trans hadvance, hother⟩
      | false =>
        refine ⟨text, arguments.flatMap EnvArgument.written, advance_unknown htext.2 hknown _, htext.1, ?_,
          hargument hknown⟩
        rintro rfl
        exact htext.2 (by decide)
    | valued option value hoption =>
      refine ⟨option, value :: arguments.flatMap EnvArgument.written, advance_unknown hoption.2.1 hoption.2.2 _,
        hoption.1, ?_, hargument hoption.2.2⟩
      rintro rfl
      exact hoption.2.1 (by decide)

theorem not_blank_of_envArgument {text : String} (h : isEnvArgument text = true) (hdashes : text ≠ "--") :
    (text = "" || text = "--") = false := by
  rw [Bool.or_eq_false_iff, decide_eq_false_iff_not, decide_eq_false_iff_not]
  refine ⟨?_, hdashes⟩
  rintro rfl
  exact absurd h (by decide +kernel)

theorem Wrapper.passed_astray (hunknown : ¬wrapper.Known)
    (hplain : ∀ env ∈ wrapper.envArguments,
      (∀ argument ∈ env.arguments, argument.Plain) ∧ ∀ text ∈ env.separator.getD [], ¬NamesWrapper text)
    (rest : List String) :
    ∃ text more, wrapper.passed rest = text :: (more ++ rest) ∧ (text = "" || text = "--") = false ∧
      ¬NamesWrapper text := by
  unfold Wrapper.passed
  unfold Wrapper.Known at hunknown
  cases henv : wrapper.envArguments with
  | none =>
    rw [henv] at hunknown
    exact absurd nofun hunknown
  | some env =>
    obtain ⟨hargumentsPlain, hbehindPlain⟩ := hplain env henv
    dsimp only
    rw [EnvArguments.written, List.append_assoc]
    by_cases harguments : ∀ argument ∈ env.arguments, argument.Known
    · rw [advance_arguments harguments]
      cases hbehind : env.separator.getD [] with
      | nil =>
        refine absurd (fun other hother => ?_) hunknown
        rw [henv] at hother
        cases hother
        exact ⟨harguments, hbehind⟩
      | cons text more =>
        have hmem : text ∈ env.separator.getD [] := by rw [hbehind]; exact List.mem_cons_self
        have hassignment : isEnvArgument text = true := by simp [isEnvArgument, env.assignments text hmem]
        have hseparator : env.separator = some (text :: more) := by
          cases hnone : env.separator with
          | none => rw [hnone] at hbehind; cases hbehind
          | some => rw [hnone] at hbehind; exact congrArg some hbehind
        rw [hseparator]
        refine ⟨text, more, advance_separator _, not_blank_of_envArgument hassignment ?_, hbehindPlain text hmem⟩
        rintro rfl
        exact absurd (env.assignments _ hmem) (by decide)
    · obtain ⟨text, more, hadvance, hargument, hdashes, hname⟩ := advance_astray harguments hargumentsPlain
        (env.separator.elim [] ("--" :: ·) ++ rest)
      refine ⟨text, more ++ env.separator.elim [] ("--" :: ·), ?_, not_blank_of_envArgument hargument hdashes, hname⟩
      rw [hadvance, List.append_assoc]

-- ---------------------------------------------------------------------------
-- Lines
-- ---------------------------------------------------------------------------

theorem exists_commandOf (wrappers : List Wrapper) (compiler : String) (arguments : List String) :
    ∃ more, wrappers.flatMap Wrapper.written ++ compiler :: arguments = commandOf wrappers compiler :: more := by
  cases wrappers with
  | nil => exact ⟨arguments, rfl⟩
  | cons wrapper wrappers => cases wrapper <;> exact ⟨_, rfl⟩

theorem scansTo_known (hruns : RunsInTurn wrappers compiler) (hknown : ∀ wrapper ∈ wrappers, wrapper.Known)
    {arguments : List String} (h : ScansTo (compiler :: arguments) found) :
    ScansTo (wrappers.flatMap Wrapper.written ++ compiler :: arguments) found := by
  induction wrappers with
  | nil => exact h
  | cons wrapper wrappers ih =>
    have hmore := ih hruns.2 fun other hother => hknown other (List.mem_cons_of_mem _ hother)
    rw [List.flatMap_cons, List.append_assoc]
    refine wrapper.scansTo ?_
    obtain ⟨more, hcommand⟩ := exists_commandOf wrappers compiler arguments
    rw [hcommand] at hmore ⊢
    rw [Wrapper.passed_known (hknown wrapper List.mem_cons_self) hruns.1]
    exact hmore

theorem scansTo_astray (hruns : RunsInTurn wrappers compiler) (hunknown : ¬∀ wrapper ∈ wrappers, wrapper.Known)
    (hplain : ∀ wrapper ∈ wrappers, ∀ env ∈ wrapper.envArguments,
      (∀ argument ∈ env.arguments, argument.Plain) ∧ ∀ text ∈ env.separator.getD [], ¬NamesWrapper text)
    (arguments : List String) :
    ∃ found, ScansTo (wrappers.flatMap Wrapper.written ++ compiler :: arguments) found ∧
      ∀ rest ∈ found, ∃ text more, rest = text :: (more ++ compiler :: arguments) := by
  induction wrappers with
  | nil => exact absurd nofun hunknown
  | cons wrapper wrappers ih =>
    rw [List.flatMap_cons, List.append_assoc]
    by_cases hwrapper : wrapper.Known
    · obtain ⟨found, hfound, hrest⟩ := ih hruns.2 (fun hall => hunknown (List.forall_mem_cons.mpr ⟨hwrapper, hall⟩))
        fun other hother => hplain other (List.mem_cons_of_mem _ hother)
      refine ⟨found, wrapper.scansTo ?_, hrest⟩
      obtain ⟨more, hcommand⟩ := exists_commandOf wrappers compiler arguments
      rw [hcommand] at hfound ⊢
      rw [Wrapper.passed_known hwrapper hruns.1]
      exact hfound
    · obtain ⟨text, more, hpassed, hblank, hname⟩ := Wrapper.passed_astray hwrapper
        (hplain wrapper List.mem_cons_self) (wrappers.flatMap Wrapper.written ++ compiler :: arguments)
      have hstopped := scansTo_stopped hblank hname (more ++ (wrappers.flatMap Wrapper.written ++ compiler :: arguments))
      refine ⟨_, wrapper.scansTo (by rw [hpassed]; exact hstopped), fun rest hrest => ?_⟩
      split at hrest
      · cases hrest
        exact ⟨text, more ++ wrappers.flatMap Wrapper.written, by simp⟩
      · cases hrest

theorem compilerPart_eq_iff {front arguments : List String} :
    compilerPart (front ++ arguments) = front ↔
      (argumentsAfterCompiler (front ++ arguments)).length = arguments.length := by
  have hlength := (argumentsAfterCompiler_suffix (front ++ arguments)).length_le
  rw [compilerPart]
  rw [List.length_append] at hlength ⊢
  constructor
  · intro h
    have hfront := congrArg List.length h
    rw [List.length_take, List.length_append] at hfront
    omega
  · intro h
    rw [h, Nat.add_sub_cancel, List.take_left]

theorem LaunchLine.written_eq (line : LaunchLine) :
    line.written = line.wrappers.flatMap Wrapper.written ++ line.compiler :: line.arguments := by
  rw [LaunchLine.written, LaunchLine.front, List.append_assoc, List.singleton_append]

theorem LaunchLine.compilerPart_of_known (line : LaunchLine) (hwrappers : ∀ wrapper ∈ line.wrappers, wrapper.Known)
    (hcompiler : line.wrappers = [] ∨ isKnownCompilerDriver line.compiler = true) (arguments : List String) :
    compilerPart (line.front ++ arguments) = line.front := by
  have hstopped := scansTo_stopped line.not_blank line.not_wrapper arguments
  have hprobe := (scansTo_known line.runs hwrappers hstopped).probe_eq
  rw [compilerPart_eq_iff, argumentsAfterCompiler, fromCompiler, LaunchLine.front, List.append_assoc,
    List.singleton_append, hprobe]
  split
  · rfl
  · rename_i hunknown
    rw [hcompiler.resolve_right hunknown]
    rfl

theorem LaunchLine.known_of_compilerPart (line : LaunchLine) (hplain : line.Plain)
    (h : compilerPart line.written = line.front) :
    (∀ wrapper ∈ line.wrappers, wrapper.Known) ∧
      (line.wrappers = [] ∨ isKnownCompilerDriver line.compiler = true) := by
  rw [LaunchLine.written, compilerPart_eq_iff, ← LaunchLine.written, argumentsAfterCompiler, List.length_drop] at h
  have hfirst : compilerArgsForResourceDirProbe line.written = none → line.wrappers = [] := by
    intro hnone
    rw [fromCompiler, hnone, Option.getD_none, line.written_eq, List.length_append, List.length_cons] at h
    cases hwrappers : line.wrappers with
    | nil => rfl
    | cons wrapper wrappers =>
      rw [hwrappers, List.flatMap_cons, List.length_append] at h
      have hwritten : 0 < wrapper.written.length := by cases wrapper <;> exact Nat.succ_pos _
      omega
  by_cases hwrappers : ∀ wrapper ∈ line.wrappers, wrapper.Known
  · refine ⟨hwrappers, ?_⟩
    have hstopped := scansTo_stopped line.not_blank line.not_wrapper line.arguments
    have hprobe := (scansTo_known line.runs hwrappers hstopped).probe_eq
    rw [← line.written_eq] at hprobe
    cases hcompiler : isKnownCompilerDriver line.compiler with
    | true => exact .inr rfl
    | false =>
      rw [hcompiler] at hprobe
      exact .inl (hfirst hprobe)
  · obtain ⟨found, hscan, hfound⟩ := scansTo_astray line.runs hwrappers hplain line.arguments
    have hprobe := hscan.probe_eq
    rw [← line.written_eq] at hprobe
    cases found with
    | none =>
      rw [hfirst hprobe] at hwrappers
      exact absurd (List.forall_mem_nil _) hwrappers
    | some rest =>
      obtain ⟨text, more, rfl⟩ := hfound rest rfl
      rw [fromCompiler, hprobe, Option.getD_some, List.length_cons, List.length_append, List.length_cons] at h
      omega

-- ---------------------------------------------------------------------------
-- Shell tails
-- ---------------------------------------------------------------------------

theorem stripShellControlTail_append {front arguments : List String} (h : ∀ arg ∈ front, ¬HasShellControl arg) :
    stripShellControlTail (front ++ arguments) = front ++ stripShellControlTail arguments := by
  induction front with
  | nil => rfl
  | cons arg front ih =>
    obtain ⟨htoken, hembedded⟩ := not_or.mp (h arg List.mem_cons_self)
    rw [Bool.not_eq_true, Option.isSome_eq_false_iff, Option.isNone_iff_eq_none] at hembedded
    rw [List.cons_append, stripShellControlTail, if_neg htoken, hembedded,
      ih fun other hother => h other (List.mem_cons_of_mem _ hother)]
    rfl

theorem beforeFirst_length {part text before : List Char} (hpart : part ≠ []) (h : beforeFirst part text = some before) :
    before.length < text.length := by
  induction text generalizing before with
  | nil =>
    rw [beforeFirst, if_neg (by simpa using hpart)] at h
    cases h
  | cons ch text ih =>
    rw [beforeFirst] at h
    split at h
    · cases h
      exact Nat.succ_pos _
    · obtain ⟨shorter, hshorter, rfl⟩ := Option.map_eq_some_iff.mp h
      exact Nat.succ_lt_succ (ih hshorter)

theorem length_trimView_le (text : List Char) : (trimView text).length ≤ text.length := by
  rw [trimView, List.length_reverse]
  refine (List.dropWhile_suffix _).length_le.trans ?_
  rw [List.length_reverse]
  exact (List.dropWhile_suffix _).length_le

theorem trimEmbeddedShellControlTail_ne (arg : String) : trimEmbeddedShellControlTail arg ≠ some arg := by
  intro h
  rw [trimEmbeddedShellControlTail] at h
  split at h
  · rename_i before hbefore
    obtain ⟨pattern, hpattern, hfound⟩ := List.exists_of_findSome?_eq_some hbefore
    have hnonempty : ∀ pattern ∈ [" && ", " || ", " ; ", " | "], pattern.toList ≠ [] := by decide
    have hshorter := beforeFirst_length (hnonempty pattern hpattern) hfound
    have htrim := length_trimView_le before
    have hlength := congrArg (fun text => text.toList.length) (Option.some.inj h)
    simp only [String.toList_ofList] at hlength
    omega
  · split at h
    · rename_i hleading
      rw [← Option.some.inj h] at hleading
      exact absurd hleading (by decide)
    · cases h

theorem noShell_of_prefix {front commandLine : List String} (hwhole : front <+: commandLine)
    (h : front <+: stripShellControlTail commandLine) : ∀ arg ∈ front, ¬HasShellControl arg := by
  induction front generalizing commandLine with
  | nil => exact nofun
  | cons arg front ih =>
    obtain ⟨rest, rfl⟩ := hwhole
    rw [List.cons_append, stripShellControlTail] at h
    split at h
    · cases List.prefix_nil.mp h
    · rename_i htoken
      cases htrimmed : trimEmbeddedShellControlTail arg with
      | some trimmed =>
        rw [htrimmed] at h
        dsimp only at h
        split at h
        · cases List.prefix_nil.mp h
        · have harg := (List.cons_prefix_cons.mp h).1
          exact absurd (htrimmed.trans (congrArg some harg.symm)) (trimEmbeddedShellControlTail_ne arg)
      | none =>
        rw [htrimmed] at h
        refine List.forall_mem_cons.mpr ⟨?_, ih ⟨rest, rfl⟩ (List.cons_prefix_cons.mp h).2⟩
        rw [HasShellControl, not_or, htrimmed]
        exact ⟨htoken, by simp⟩

theorem LaunchLine.Treated.context_eq {line : LaunchLine} (h : line.Treated) (host : Host) (directory source : String) :
    normalizedSemanticCompileContext host { directory, commandLine := line.written } source =
      ("directory=" ++ normalizeCompdbLookupPath host directory "") ::
        Arguments.left (semanticReading host directory source) none line.arguments := by
  have hpart := h.2.2.1
  rw [LaunchLine.written, compilerPart_eq_iff] at hpart
  obtain ⟨passed, hpassed⟩ := argumentsAfterCompiler_suffix (line.front ++ line.arguments)
  rw [normalizedSemanticCompileContext, LaunchLine.written, List.append_inj_right' hpassed hpart]

/-- Behind launchers and `env` the compiler is found when its name and the options of
`env` are known. -/
theorem treated_iff_recognised (line : LaunchLine) :
    (line.Recognised → line.Treated) ∧ (line.Plain → line.Treated → line.Recognised) := by
  refine ⟨fun h => ⟨exists_scansTo _, exists_scansTo _, ?_, ?_⟩, fun hplain h => ?_⟩
  · exact line.compilerPart_of_known h.wrappers_known h.compiler_known line.arguments
  · rw [sanitizedCommandLine, if_neg (by simpa using h.no_marker), LaunchLine.written,
      stripShellControlTail_append h.no_shell]
    exact line.compilerPart_of_known h.wrappers_known h.compiler_known _
  · obtain ⟨-, -, hwhole, hsanitized⟩ := h
    obtain ⟨hwrappers, hcompiler⟩ := line.known_of_compilerPart hplain hwhole
    have hfront : line.front <+: sanitizedCommandLine line.written := by
      rw [← hsanitized]
      exact List.take_prefix _ _
    have hne : line.front ≠ [] := by simp [LaunchLine.front]
    rw [sanitizedCommandLine] at hfront
    split at hfront
    · exact absurd (List.prefix_nil.mp hfront) hne
    · rename_i hmarker
      exact ⟨hwrappers, hcompiler, noShell_of_prefix ⟨line.arguments, rfl⟩ hfront, by simpa using hmarker⟩

/-- `ccache g++-13 -c a.cpp` -/
def versionedBehindCache : LaunchLine where
  wrappers := [.launcher "ccache" (by decide +kernel)]
  compiler := "g++-13"
  arguments := ["-c", "a.cpp"]
  runs := ⟨(nofun), trivial⟩
  not_blank := by decide
  not_wrapper := by
    rintro (h | h | h)
    · exact absurd h (by decide +kernel)
    · exact absurd h (by decide +kernel)
    · exact absurd h (by decide +kernel)

theorem versioned_not_treated : ¬versionedBehindCache.Treated := by
  rintro ⟨-, -, h, -⟩
  exact absurd h (by decide +kernel)

end Gentest.Codegen
