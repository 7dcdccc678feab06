import Gentest.Codegen.AdjustedCommand

/-!
# The command that precompiles a module

`build_module_precompile_command` takes the adjusted command of a module source, removes
what compiles or names outputs and puts its own source and output behind the rest. Each
argument is looked at by itself, without the option that it may be the value of.
-/

namespace Gentest.Codegen

open Arguments

-- ---------------------------------------------------------------------------
-- The code
-- ---------------------------------------------------------------------------

def lowercased (text : String) : String := String.ofList (text.toList.map Char.toLower)

def isMsvcSourceModeArg (arg : String) : Bool :=
  ["/tp", "/tc", "/tp-", "/tc-"].contains (lowercased arg) || (joinedMsvcSourceArgPath arg).isSome

def isCxxSourceInputPath (path : String) : Bool :=
  if path = "" || startsWith path "-" || startsWith path "@" then false
  else if startsWith path "/" && !(path.toList.drop 1).contains '/' && !(path.toList.drop 1).contains '\\' then false
  else
    let extension := (fileName path).toList.drop (basenameWithoutExtension path).length
    [".c", ".cc", ".cp", ".cpp", ".cxx", ".c++", ".m", ".mm", ".cu", ".cppm", ".ccm", ".cxxm", ".c++m", ".ixx",
      ".mxx"].contains (lowercased (String.ofList extension))

def hasExplicitCxxStandardArg : List String → Bool
  | [] => false
  | arg :: rest =>
    if arg = "-std" || arg = "/std" then !rest.isEmpty
    else startsWith arg "-std=" || startsWith arg "/std:" || hasExplicitCxxStandardArg rest

def defaultCxxStandardArg (args : List String) : String :=
  if prefersMsvcStyleStandardFlag args then "/std:c++20" else "-std=c++20"

/-- What `build_module_precompile_command` is called with beside the adjusted command. -/
structure PrecompileJob where
  sourceFile : String
  workingDirectory : String
  pcmPath : String
  treatAsNamedModuleSource : Bool := false

section

variable (host : Host) (job : PrecompileJob)

def PrecompileJob.isSourceArg (arg : String) : Bool :=
  normalizeCompdbLookupPath host job.sourceFile job.workingDirectory ≠ "" &&
    (namesSource host job.workingDirectory job.sourceFile arg || joinsSource host job.workingDirectory job.sourceFile arg)

def PrecompileJob.forceModuleLanguageMode (job : PrecompileJob) : Bool :=
  job.treatAsNamedModuleSource || sourceRequiresExplicitModuleLanguageMode job.sourceFile

def PrecompileJob.reading (arg : String) (next : Option String) : Reading :=
  if arg = "-c" || arg = "--precompile" || arg = "/c" then .drop
  else if arg = "--" then .drop
  else if job.forceModuleLanguageMode && isMsvcSourceModeArg arg then .drop
  else if job.forceModuleLanguageMode && arg = "-x" && next.isSome then .dropWithNext
  else if job.forceModuleLanguageMode && startsWith arg "-x" then .drop
  else if ["-o", "-MF", "-MT", "-MQ", "-MJ", "-fmodule-output"].contains arg then .dropWithNext
  else if arg = "-MD" || arg = "-MMD" then .drop
  else if arg = "-Xclang" && next = some "-emit-module-interface" then .dropWithNext
  else if ["-o", "-fmodule-output=", "/Fo", "-MF", "-MT", "-MQ", "-MJ"].any (startsWith arg) then .drop
  else if job.isSourceArg host arg || isCxxSourceInputPath arg then .drop
  else .keep

def PrecompileJob.kept : (skipNextArg : Bool) → List String → List String
  | _, [] => []
  | true, _ :: rest => PrecompileJob.kept false rest
  | false, arg :: rest =>
    match job.reading host arg rest.head? with
    | .drop => PrecompileJob.kept false rest
    | .dropWithNext => PrecompileJob.kept true rest
    | .keep | .keepWithNext => arg :: PrecompileJob.kept false rest

def PrecompileJob.appended (adjusted : List String) : List String :=
  (if hasExplicitCxxStandardArg adjusted then [] else [defaultCxxStandardArg adjusted]) ++
    (if job.forceModuleLanguageMode || !hasExplicitLanguageMode adjusted.tail &&
        sourceRequiresExplicitModuleLanguageMode job.sourceFile then ["-x", "c++-module"] else []) ++
    if adjusted.contains "--driver-mode=cl" && startsWith job.sourceFile "/" then
      ["--precompile", "-o", job.pcmPath, "--", job.sourceFile]
    else ["--precompile", job.sourceFile, "-o", job.pcmPath]

def buildModulePrecompileCommand : (adjusted : List String) → List String
  | [] => []
  | compiler :: arguments => compiler :: (job.kept host false arguments ++ job.appended (compiler :: arguments))

end

-- ---------------------------------------------------------------------------
-- Command lines
-- ---------------------------------------------------------------------------

inductive CommandDialect
  | gnu
  | cl
  deriving DecidableEq

/-- The compile, output, dependency-file and language-mode options without a value, or with
a joined one. -/
def CommandDialect.exceptedAlone (force : Bool) : CommandDialect → String → Bool
  | .gnu, arg =>
    ["-c", "--precompile", "--", "-MD", "-MMD", "-fmodule-output"].contains arg ||
      joinedWith ["-o", "-MF", "-MT", "-MQ", "-MJ", "-fmodule-output="] arg || force && joinedWith ["-x"] arg
  | .cl, arg =>
    ["-c", "/c", "--precompile", "--", "-fmodule-output"].contains arg ||
      joinedWith ["-o", "/Fo", "-fmodule-output="] arg ||
        force && (joinedWith ["-x"] arg || ["/TP", "/TC", "/Tp", "/Tc", "/TP-", "/TC-"].contains arg)

def CommandDialect.exceptedWithValue (force : Bool) (dialect : CommandDialect) (arg value : String) : Bool :=
  (match dialect with
    | .gnu => ["-o", "-MF", "-MT", "-MQ", "-MJ"].contains arg
    | .cl => arg = "-o") ||
  arg = "-Xclang" && value = "-emit-module-interface" || force && arg = "-x"

/-- The exact spellings that are excepted options of the driver in every mode. -/
def CommandDialect.exceptedSpellings : CommandDialect → List String
  | .gnu =>
    ["-c", "--precompile", "--", "-MD", "-MMD", "-fmodule-output", "-o", "-MF", "-MT", "-MQ", "-MJ"]
  | .cl => ["-c", "/c", "--precompile", "--", "-fmodule-output", "-o"]

/-- The parts of a command line behind the compiler, as the driver reads them. -/
inductive CommandItem (host : Host) (job : PrecompileJob) (dialect : CommandDialect)
  /-- An option that the command has to keep, with a separate value or without. -/
  | option (spelling : String) (value : Option String) (h : spelling ∉ dialect.exceptedSpellings)
  | exceptedAlone (spelling : String) (h : dialect.exceptedAlone job.forceModuleLanguageMode spelling = true)
  | exceptedWithValue (spelling value : String)
    (h : dialect.exceptedWithValue job.forceModuleLanguageMode spelling value = true)
  | source (path : String) (h : job.isSourceArg host path = true ∨ isCxxSourceInputPath path = true)
    (hinput : startsWith path "-" = false)
  | input (path : String) (h : ¬(job.isSourceArg host path = true ∨ isCxxSourceInputPath path = true))
    (hinput : startsWith path "-" = false)

variable {host : Host} {job : PrecompileJob} {dialect : CommandDialect}

def CommandItem.written : CommandItem host job dialect → List String
  | .option spelling value _ => spelling :: value.toList
  | .exceptedAlone spelling _ => [spelling]
  | .exceptedWithValue spelling value _ => [spelling, value]
  | .source path .. => [path]
  | .input path .. => [path]

def CommandItem.remaining (item : CommandItem host job dialect) : List String :=
  match item with
  | .option spelling value _ => spelling :: value.toList
  | .exceptedAlone .. | .exceptedWithValue .. | .source .. => []
  | .input path .. => [path]

/-- Everything but the excepted options and the sources comes back, in order. -/
def OptionsKept (compiler : String) (items : List (CommandItem host job dialect)) : Prop :=
  let adjusted := compiler :: items.flatMap CommandItem.written
  buildModulePrecompileCommand host job adjusted =
    compiler :: (items.flatMap CommandItem.remaining ++ job.appended adjusted)

-- ---------------------------------------------------------------------------
-- The condition
-- ---------------------------------------------------------------------------

/-- The loop keeps an argument that stands in front of `next`. -/
def KeptBefore (host : Host) (job : PrecompileJob) (arg : String) (next : Option String) : Prop :=
  job.reading host arg next = .keep

/-- Options, their values and inputs are kept where they stand, and nothing follows a
`-fmodule-output` without a value. -/
def ReadByItems : List (CommandItem host job dialect) → Prop
  | [] => True
  | item :: items =>
    let next := (items.flatMap CommandItem.written).head?
    (match item with
      | .option spelling none _ => KeptBefore host job spelling next
      | .option spelling (some value) _ => KeptBefore host job spelling (some value) ∧ KeptBefore host job value next
      | .input path .. => KeptBefore host job path next
      | .exceptedAlone spelling _ => spelling = "-fmodule-output" → next = none
      | .exceptedWithValue .. | .source .. => True) ∧ ReadByItems items

-- ---------------------------------------------------------------------------
-- Readings
-- ---------------------------------------------------------------------------

variable {arg value compiler : String} {next : Option String} {args : List String}
  {items : List (CommandItem host job dialect)}

def takingSpellings : List String := ["-o", "-MF", "-MT", "-MQ", "-MJ", "-fmodule-output", "-x", "-Xclang"]

def PrecompileJob.dropsAlone (job : PrecompileJob) (arg : String) : Bool :=
  ["-c", "--precompile", "/c", "--", "-MD", "-MMD"].contains arg ||
    job.forceModuleLanguageMode && (isMsvcSourceModeArg arg || startsWith arg "-x") ||
      ["-o", "-fmodule-output=", "/Fo", "-MF", "-MT", "-MQ", "-MJ"].any (startsWith arg)

attribute [local grind =] PrecompileJob.reading PrecompileJob.dropsAlone PrecompileJob.kept isMsvcSourceModeArg
  CommandDialect.exceptedAlone CommandDialect.exceptedWithValue

theorem reading_of_not_taking (htaking : arg ∉ takingSpellings) :
    job.reading host arg next =
      if job.dropsAlone arg || job.isSourceArg host arg || isCxxSourceInputPath arg then .drop else .keep := by
  simp only [takingSpellings, List.mem_cons, List.not_mem_nil, or_false, not_or] at htaking
  obtain ⟨h1, h2, h3, h4, h5, h6, h7, h8⟩ := htaking
  have hmode : (job.forceModuleLanguageMode && decide (arg = "-x") && next.isSome) = false := by simp [h7]
  have hvalue : ["-o", "-MF", "-MT", "-MQ", "-MJ", "-fmodule-output"].contains arg = false := by
    simp [h1, h2, h3, h4, h5, h6]
  have hclang : (decide (arg = "-Xclang") && decide (next = some "-emit-module-interface")) = false := by simp [h8]
  unfold PrecompileJob.reading PrecompileJob.dropsAlone
  rw [hmode, hvalue, hclang]
  simp only [Bool.false_eq_true, if_false, List.contains_cons, List.contains_nil, Bool.or_false]
  generalize isMsvcSourceModeArg arg = mode
  generalize job.forceModuleLanguageMode = force
  generalize job.isSourceArg host arg = isSource
  generalize isCxxSourceInputPath arg = isPath
  generalize (["-o", "-fmodule-output=", "/Fo", "-MF", "-MT", "-MQ", "-MJ"].any (startsWith arg)) = joined
  generalize startsWith arg "-x" = modeX
  simp only [Bool.or_eq_true, Bool.and_eq_true, beq_iff_eq, decide_eq_true_eq]
  clear hmode hvalue hclang h1 h2 h3 h4 h5 h6 h7 h8
  split_ifs <;> first | rfl | (exfalso; tauto)

theorem startsWith_of_joinedWith {fronts : List String} (h : joinedWith fronts arg = true) :
    fronts.any (startsWith arg) = true := by
  obtain ⟨front, hfront, hlong⟩ := List.any_eq_true.mp h
  exact List.any_eq_true.mpr ⟨front, hfront, (Bool.and_eq_true_iff.mp hlong).2⟩

theorem any_startsWith_mono {fronts others : List String} (hsub : fronts ⊆ others)
    (h : fronts.any (startsWith arg) = true) : others.any (startsWith arg) = true := by
  obtain ⟨front, hfront, hstarts⟩ := List.any_eq_true.mp h
  exact List.any_eq_true.mpr ⟨front, hsub hfront, hstarts⟩

theorem dropsAlone_of_excepted (h : dialect.exceptedAlone job.forceModuleLanguageMode arg = true)
    (houtput : arg ≠ "-fmodule-output") : job.dropsAlone arg = true := by
  have hjoined : ∀ fronts : List String, fronts ⊆ ["-o", "-fmodule-output=", "/Fo", "-MF", "-MT", "-MQ", "-MJ"] →
      joinedWith fronts arg = true → job.dropsAlone arg = true := by
    intro fronts hsub hfronts
    have hany := any_startsWith_mono hsub (startsWith_of_joinedWith hfronts)
    simp [PrecompileJob.dropsAlone, hany]
  have hlisted : ∀ spellings : List String, spellings ⊆ ["-c", "--precompile", "/c", "--", "-MD", "-MMD", "-fmodule-output"] →
      spellings.contains arg = true → job.dropsAlone arg = true := by
    intro spellings hsub hmem
    have harg := hsub (List.contains_iff_mem.mp hmem)
    simp only [List.mem_cons, List.not_mem_nil, or_false, houtput] at harg
    have hcontains : ["-c", "--precompile", "/c", "--", "-MD", "-MMD"].contains arg = true := by
      simpa only [List.contains_iff_mem, List.mem_cons, List.not_mem_nil, or_false] using harg
    rw [PrecompileJob.dropsAlone, hcontains]
    rfl
  have hmode : job.forceModuleLanguageMode = true → (joinedWith ["-x"] arg = true ∨ isMsvcSourceModeArg arg = true) →
      job.dropsAlone arg = true := by
    intro hforce harg
    have hany : (isMsvcSourceModeArg arg || startsWith arg "-x") = true := by
      obtain harg | harg := harg
      · have hstarts := startsWith_of_joinedWith harg
        simp only [List.any_cons, List.any_nil, Bool.or_false] at hstarts
        rw [hstarts, Bool.or_true]
      · rw [harg, Bool.true_or]
    rw [PrecompileJob.dropsAlone, hforce, hany]
    simp
  cases dialect with
  | gnu =>
    simp only [CommandDialect.exceptedAlone, Bool.or_eq_true, Bool.and_eq_true] at h
    obtain (h | h) | ⟨hforce, h⟩ := h
    · exact hlisted _ (by decide) h
    · exact hjoined _ (by decide) h
    · exact hmode hforce (.inl h)
  | cl =>
    have hmodes : ∀ spelling ∈ ["/TP", "/TC", "/Tp", "/Tc", "/TP-", "/TC-"], isMsvcSourceModeArg spelling = true := by
      simp [isMsvcSourceModeArg, lowercased, joinedMsvcSourceArgPath]
    simp only [CommandDialect.exceptedAlone, Bool.or_eq_true, Bool.and_eq_true] at h
    obtain (h | h) | ⟨hforce, h | h⟩ := h
    · exact hlisted _ (by decide) h
    · exact hjoined _ (by decide) h
    · exact hmode hforce (.inl h)
    · exact hmode hforce (.inr (hmodes _ (List.contains_iff_mem.mp h)))

theorem reading_exceptedAlone (h : dialect.exceptedAlone job.forceModuleLanguageMode arg = true)
    (houtput : arg ≠ "-fmodule-output") : job.reading host arg next = .drop := by
  have htaking : ∀ (dialect : CommandDialect) (force : Bool), ∀ spelling ∈ takingSpellings,
      dialect.exceptedAlone force spelling = true → spelling = "-fmodule-output" := by
    intro dialect force
    cases dialect <;> cases force <;> decide +kernel
  rw [reading_of_not_taking fun hmem => houtput (htaking _ _ arg hmem h), dropsAlone_of_excepted h houtput]
  rfl

theorem reading_exceptedWithValue (h : dialect.exceptedWithValue job.forceModuleLanguageMode arg value = true) :
    job.reading host arg (some value) = .dropWithNext := by
  have hfile : ["-o", "-MF", "-MT", "-MQ", "-MJ"].contains arg = true →
      job.reading host arg (some value) = .dropWithNext := by
    intro hmem
    have hnot : ∀ spelling ∈ ["-o", "-MF", "-MT", "-MQ", "-MJ"],
        ["-c", "--precompile", "/c", "--"].contains spelling = false ∧ isMsvcSourceModeArg spelling = false ∧
          startsWith spelling "-x" = false := by
      simp [isMsvcSourceModeArg, lowercased, joinedMsvcSourceArgPath, startsWith, List.isPrefixOf]
    have hwaiting : ["-o", "-MF", "-MT", "-MQ", "-MJ", "-fmodule-output"].contains arg = true := by
      simp only [List.contains_iff_mem, List.mem_cons, List.not_mem_nil, or_false] at hmem ⊢
      tauto
    obtain ⟨hcompile, hmode, hx⟩ := hnot arg (List.contains_iff_mem.mp hmem)
    simp only [List.contains_cons, List.contains_nil, Bool.or_false, Bool.or_eq_false_iff, beq_eq_false_iff_ne]
      at hcompile
    obtain ⟨h1, h2, h3, h4⟩ := hcompile
    have hne : arg ≠ "-x" := by
      rintro rfl
      exact absurd hx (by decide)
    unfold PrecompileJob.reading
    rw [if_neg (by simp [h1, h2, h3]), if_neg h4, if_neg (by simp [hmode]), if_neg (by simp [hne]),
      if_neg (by simp [hx]), if_pos hwaiting]
  simp only [CommandDialect.exceptedWithValue, Bool.or_eq_true, Bool.and_eq_true, decide_eq_true_eq] at h
  obtain (h | ⟨rfl, rfl⟩) | ⟨hforce, rfl⟩ := h
  · refine hfile ?_
    cases dialect with
    | gnu => exact h
    | cl =>
      rw [of_decide_eq_true h]
      rfl
  · have hmode : isMsvcSourceModeArg "-Xclang" = false := by
      simp [isMsvcSourceModeArg, lowercased, joinedMsvcSourceArgPath]
    have hx : startsWith "-Xclang" "-x" = false := by decide
    unfold PrecompileJob.reading
    rw [if_neg (by decide), if_neg (by decide), if_neg (by simp [hmode]), if_neg (by simp), if_neg (by simp [hx]),
      if_neg (by decide), if_neg (by decide), if_pos (by decide)]
  · have hmode : isMsvcSourceModeArg "-x" = false := by
      simp [isMsvcSourceModeArg, lowercased, joinedMsvcSourceArgPath]
    unfold PrecompileJob.reading
    rw [if_neg (by decide), if_neg (by decide), if_neg (by simp [hmode]), if_pos (by simp [hforce])]

theorem reading_moduleOutput : job.reading host "-fmodule-output" next = .dropWithNext := by
  have hmode : isMsvcSourceModeArg "-fmodule-output" = false := by
    simp [isMsvcSourceModeArg, lowercased, joinedMsvcSourceArgPath]
  have hx : startsWith "-fmodule-output" "-x" = false := by decide
  unfold PrecompileJob.reading
  rw [if_neg (by decide), if_neg (by decide), if_neg (by simp [hmode]), if_neg (by simp), if_neg (by simp [hx]),
    if_pos (by decide)]

theorem reading_ne_keepWithNext : job.reading host arg next ≠ .keepWithNext := by
  unfold PrecompileJob.reading
  split_ifs <;> exact (nomatch ·)

theorem reading_source (h : job.isSourceArg host arg = true ∨ isCxxSourceInputPath arg = true)
    (hinput : startsWith arg "-" = false) : job.reading host arg next = .drop := by
  have hdash : ∀ spelling ∈ takingSpellings, startsWith spelling "-" = true := by decide
  rw [reading_of_not_taking fun hmem => by rw [hdash arg hmem] at hinput; cases hinput]
  obtain h | h := h <;> simp [h]

-- ---------------------------------------------------------------------------
-- The loop
-- ---------------------------------------------------------------------------

theorem kept_keep (h : KeptBefore host job arg args.head?) :
    job.kept host false (arg :: args) = arg :: job.kept host false args := by
  rw [PrecompileJob.kept, h]

theorem kept_drop (h : job.reading host arg args.head? = .drop) :
    job.kept host false (arg :: args) = job.kept host false args := by
  rw [PrecompileJob.kept, h]

theorem kept_dropWithNext (h : job.reading host arg (some value) = .dropWithNext) :
    job.kept host false (arg :: value :: args) = job.kept host false args := by
  rw [PrecompileJob.kept, List.head?_cons, h]
  rfl

theorem kept_items (h : ReadByItems items) :
    job.kept host false (items.flatMap CommandItem.written) = items.flatMap CommandItem.remaining := by
  induction items with
  | nil => rfl
  | cons item items ih =>
    obtain ⟨hitem, hitems⟩ := h
    have hmore := ih hitems
    rw [List.flatMap_cons, List.flatMap_cons, ← hmore]
    cases item with
    | option spelling separate hoption =>
      cases separate with
      | none => exact kept_keep hitem
      | some value =>
        exact (kept_keep hitem.1).trans (congrArg (spelling :: ·) (kept_keep hitem.2))
    | exceptedAlone spelling hexcepted =>
      by_cases houtput : spelling = "-fmodule-output"
      · have hnil : items.flatMap CommandItem.written = [] := List.head?_eq_none_iff.mp (hitem houtput)
        subst houtput
        rw [hnil]
        change job.kept host false ["-fmodule-output"] = []
        rw [PrecompileJob.kept, reading_moduleOutput]
        rfl
      · exact kept_drop (reading_exceptedAlone hexcepted houtput)
    | exceptedWithValue spelling value hexcepted => exact kept_dropWithNext (reading_exceptedWithValue hexcepted)
    | source path hsource hinput => exact kept_drop (reading_source hsource hinput)
    | input path hsource hinput => exact kept_keep hitem

theorem optionsKept_iff (compiler : String) (items : List (CommandItem host job dialect)) :
    OptionsKept compiler items ↔
      job.kept host false (items.flatMap CommandItem.written) = items.flatMap CommandItem.remaining := by
  rw [OptionsKept, buildModulePrecompileCommand, List.cons.injEq, List.append_cancel_right_eq]
  exact and_iff_right rfl

-- ---------------------------------------------------------------------------
-- What is kept was kept where it stands
-- ---------------------------------------------------------------------------

theorem exists_of_mem_kept {skipNextArg : Bool} (h : arg ∈ job.kept host skipNextArg args) :
    ∃ next, KeptBefore host job arg next := by
  induction args generalizing skipNextArg with
  | nil => cases skipNextArg <;> cases h
  | cons other args ih =>
    cases skipNextArg with
    | true => exact ih h
    | false =>
      rw [PrecompileJob.kept] at h
      cases hreading : job.reading host other args.head? with
      | keep =>
        rw [hreading] at h
        obtain rfl | h := List.mem_cons.mp h
        · exact ⟨_, hreading⟩
        · exact ih h
      | keepWithNext => exact absurd hreading reading_ne_keepWithNext
      | drop =>
        rw [hreading] at h
        exact ih h
      | dropWithNext =>
        rw [hreading] at h
        exact ih h

theorem keptBefore_congr {other : Option String} (h : KeptBefore host job arg next)
    (hclang : arg = "-Xclang" → other ≠ some "-emit-module-interface") : KeptBefore host job arg other := by
  unfold KeptBefore PrecompileJob.reading at *
  split_ifs at h with hcompile hdashes hmode hx hjoinedX hwaiting hdepfile hmodule hjoined hsource
  rw [if_neg hcompile, if_neg hdashes, if_neg hmode, if_neg ?_, if_neg hjoinedX, if_neg hwaiting, if_neg hdepfile,
    if_neg ?_, if_neg hjoined, if_neg hsource]
  · intro hclangNext
    rw [Bool.and_eq_true, decide_eq_true_eq, decide_eq_true_eq] at hclangNext
    exact hclang hclangNext.1 hclangNext.2
  · intro hseparate
    simp only [Bool.and_eq_true, decide_eq_true_eq] at hseparate
    obtain ⟨⟨hforce, rfl⟩, -⟩ := hseparate
    exact hjoinedX (by rw [hforce]; decide)

/-- No kept argument is spelled `-emit-module-interface`, and a `-fmodule-output` has its
value. -/
def PlainItems (items : List (CommandItem host job dialect)) : Prop :=
  "-emit-module-interface" ∉ items.flatMap CommandItem.remaining ∧
    ∀ h, CommandItem.exceptedAlone "-fmodule-output" h ∉ items

theorem head_ne_emit (h : "-emit-module-interface" ∉ items.flatMap CommandItem.remaining) :
    (items.flatMap CommandItem.written).head? ≠ some "-emit-module-interface" := by
  cases items with
  | nil => exact nofun
  | cons item items =>
    rw [List.flatMap_cons, List.mem_append, not_or] at h
    intro hhead
    cases item with
    | option spelling separate hoption =>
      obtain rfl := Option.some.inj hhead
      exact h.1 List.mem_cons_self
    | exceptedAlone spelling hexcepted =>
      obtain rfl := Option.some.inj hhead
      have hnot : ∀ (dialect : CommandDialect) (force : Bool),
          dialect.exceptedAlone force "-emit-module-interface" = false := by
        intro dialect force
        cases dialect <;> cases force <;> decide +kernel
      rw [hnot] at hexcepted
      cases hexcepted
    | exceptedWithValue spelling value hexcepted =>
      obtain rfl := Option.some.inj hhead
      have hnot : ∀ (dialect : CommandDialect) (force : Bool),
          dialect.exceptedWithValue force "-emit-module-interface" value = false := by
        intro dialect force
        cases dialect <;> cases force <;> simp [CommandDialect.exceptedWithValue]
      rw [hnot] at hexcepted
      cases hexcepted
    | source path hsource hinput =>
      obtain rfl := Option.some.inj hhead
      exact absurd hinput (by decide)
    | input path hsource hinput =>
      obtain rfl := Option.some.inj hhead
      exact absurd hinput (by decide)

theorem readByItems_of_kept (hplain : PlainItems items)
    (h : ∀ arg ∈ items.flatMap CommandItem.remaining, ∃ next, KeptBefore host job arg next) : ReadByItems items := by
  induction items with
  | nil => trivial
  | cons item items ih =>
    obtain ⟨hemit, houtput⟩ := hplain
    rw [List.flatMap_cons] at hemit h
    have hrest : "-emit-module-interface" ∉ items.flatMap CommandItem.remaining :=
      fun hmem => hemit (List.mem_append_right _ hmem)
    have hhead := head_ne_emit hrest
    refine ⟨?_, ih ⟨hrest, fun hexcepted hmem => houtput hexcepted (List.mem_cons_of_mem _ hmem)⟩
      fun arg harg => h arg (List.mem_append_right _ harg)⟩
    have hhere : ∀ arg ∈ item.remaining, ∀ next, next ≠ some "-emit-module-interface" → KeptBefore host job arg next := by
      intro arg harg next hnext
      obtain ⟨other, hother⟩ := h arg (List.mem_append_left _ harg)
      exact keptBefore_congr hother fun _ => hnext
    cases item with
    | option spelling separate hoption =>
      cases separate with
      | none => exact hhere spelling (by simp [CommandItem.remaining]) _ hhead
      | some value =>
        have hvalue : value ∈ [spelling, value] := by simp
        refine ⟨hhere spelling List.mem_cons_self _ fun heq => hemit (List.mem_append_left _ ?_),
          hhere value hvalue _ hhead⟩
        rw [← Option.some.inj heq]
        exact hvalue
    | exceptedAlone spelling hexcepted =>
      rintro rfl
      exact absurd List.mem_cons_self (houtput hexcepted)
    | exceptedWithValue => trivial
    | source => trivial
    | input path hsource hinput => exact hhere path (by simp [CommandItem.remaining]) _ hhead

/-- The command keeps its options where each part is read as what it is, and (the spellings
that look at the next argument apart) only there. -/
theorem options_kept_iff (compiler : String) (items : List (CommandItem host job dialect)) :
    (ReadByItems items → OptionsKept compiler items) ∧
      (PlainItems items → OptionsKept compiler items → ReadByItems items) := by
  refine ⟨fun h => (optionsKept_iff compiler items).mpr (kept_items h), fun hplain h => ?_⟩
  refine readByItems_of_kept hplain fun arg harg => ?_
  rw [← (optionsKept_iff compiler items).mp h] at harg
  exact exists_of_mem_kept harg

/-- `clang++ -include x.cpp -std=c++20 /src/m.cppm` -/
def includingItems : List (CommandItem plainHost { sourceFile := "/src/m.cppm", workingDirectory := "/build", pcmPath := "/build/m.pcm" } .gnu) :=
  [.option "-include" (some "x.cpp") (by decide), .option "-std=c++20" none (by decide),
    .source "/src/m.cppm" (.inr (by decide +kernel)) (by decide)]

theorem included_source_lost : ¬OptionsKept "clang++" includingItems := by
  rw [optionsKept_iff]
  decide +kernel

end Gentest.Codegen
