import Gentest.Codegen.CodegenModel
import Gentest.Lib.Arguments
import Gentest.Lib.Utf8
import Mathlib.Data.String.Basic

/-!
# Compile commands and their semantic context

A compile command of the database is a directory and a list of arguments: the
compiler, possibly behind a launcher, then its options and the source.
`normalized_semantic_compile_context` removes what only steers the build and keeps
the rest as the context that two commands are compared by. One flat list of
spellings decides for both drivers. Paths are POSIX paths.
-/

namespace Gentest.Codegen

open Arguments

-- ---------------------------------------------------------------------------
-- Texts and paths
-- ---------------------------------------------------------------------------

def startsWith (text front : String) : Bool := front.toList.isPrefixOf text.toList

def contains (text part : String) : Bool := text.toList.tails.any part.toList.isPrefixOf

def isAbsolute (path : String) : Bool := startsWith path "/"

def basenameWithoutExtension (path : String) : String := replaceExtension (fileName path) ""

structure Host where
  /-- The canonical form of a path, after `weakly_canonical` and
  `lexically_normal`; a relative path counts from the working directory. -/
  canonicalKey : String → String
  /-- `llvm::sys::findProgramByName`: a file of that name in a directory of the
  search path. -/
  findProgramByName : String → Option String
  basename_found : ∀ {name path : String}, findProgramByName name = some path →
    basenameWithoutExtension path = basenameWithoutExtension name

def plainHost : Host where
  canonicalKey := id
  findProgramByName _ := none
  basename_found h := nomatch h

def normalizeCompdbLookupPath (host : Host) (path directory : String) : String :=
  if path = "" then ""
  else host.canonicalKey (if !isAbsolute path && directory ≠ "" then joinPath directory path else path)

-- ---------------------------------------------------------------------------
-- The compiler of a command
-- ---------------------------------------------------------------------------

def hasNumericSuffixAfter (text front : String) : Bool :=
  startsWith text front &&
    let digits := text.toList.drop front.length
    !digits.isEmpty && digits.all Char.isDigit

def isClangLikeName (name : String) : Bool :=
  ["clang", "clang++", "clang-cl"].contains name || hasNumericSuffixAfter name "clang-" ||
    hasNumericSuffixAfter name "clang++-"

def isClangLikeCompiler (path : String) : Bool := isClangLikeName (basenameWithoutExtension path)

def isKnownCompilerLauncher (path : String) : Bool :=
  ["ccache", "sccache", "distcc", "icecc", "buildcache"].contains (basenameWithoutExtension path)

def isKnownCompilerDriver (path : String) : Bool :=
  isClangLikeCompiler path ||
    ["c++", "g++", "gcc", "cc", "cxx", "cl", "clang-cl"].contains (basenameWithoutExtension path)

def isCmakeEnvWrapperAt : List String → Bool
  | arg :: option :: tool :: _ => basenameWithoutExtension arg = "cmake" && option = "-E" && tool = "env"
  | _ => false

def isPlainEnvWrapperAt : List String → Bool
  | arg :: _ => basenameWithoutExtension arg = "env"
  | [] => false

def isCmakeEnvAssignment (arg : String) : Bool :=
  !(arg = "" || startsWith arg "-") && (arg.toList.drop 1).contains '=' && arg.toList.head? ≠ some '='

def advancePastEnvArguments : List String → List String
  | [] => []
  | arg :: rest =>
    if arg = "--" then rest
    else if arg = "-u" || arg = "--unset" then
      match rest with
      | [] => []
      | _ :: more => advancePastEnvArguments more
    else if startsWith arg "-u" || startsWith arg "--unset=" || startsWith arg "--modify-env=" || arg = "-i" ||
        arg = "--ignore-environment" || isCmakeEnvAssignment arg then
      advancePastEnvArguments rest
    else arg :: rest

/-- The command line from the compiler on, or nothing when the first argument that
is no launcher is no compiler either. The rounds are bounded by the arguments. -/
def compilerArgsFrom : Nat → List String → Option (List String)
  | 0, _ => none
  | _, [] => none
  | rounds + 1, arg :: rest =>
    if arg = "" || arg = "--" then compilerArgsFrom rounds rest
    else if isCmakeEnvWrapperAt (arg :: rest) then compilerArgsFrom rounds (advancePastEnvArguments (rest.drop 2))
    else if isPlainEnvWrapperAt (arg :: rest) then compilerArgsFrom rounds (advancePastEnvArguments rest)
    else if isKnownCompilerLauncher arg then compilerArgsFrom rounds rest
    else if isKnownCompilerDriver arg then some (arg :: rest)
    else none

/-- `compiler_arg_index_for_resource_dir_probe`, as what stands from that index on. -/
def compilerArgsForResourceDirProbe (commandLine : List String) : Option (List String) :=
  compilerArgsFrom commandLine.length commandLine

/-- The command line from the compiler on; the first argument is taken for the
compiler when none is recognised. -/
def fromCompiler (commandLine : List String) : List String :=
  (compilerArgsForResourceDirProbe commandLine).getD commandLine

def argumentsAfterCompiler (commandLine : List String) : List String := (fromCompiler commandLine).drop 1

theorem advancePastEnvArguments_suffix (args : List String) : advancePastEnvArguments args <:+ args := by
  fun_induction advancePastEnvArguments args with
  | case1 => exact List.suffix_refl _
  | case2 rest => exact List.suffix_cons _ _
  | case3 arg => exact List.nil_suffix
  | case4 arg _ _ skipped more ih => exact ih.trans ((List.suffix_cons _ _).trans (List.suffix_cons _ _))
  | case5 arg rest _ _ _ ih => exact ih.trans (List.suffix_cons _ _)
  | case6 arg rest => exact List.suffix_refl _

theorem compilerArgsFrom_suffix {rounds : Nat} {args found : List String}
    (h : compilerArgsFrom rounds args = some found) : found <:+ args := by
  fun_induction compilerArgsFrom rounds args with
  | case1 => cases h
  | case2 => cases h
  | case3 rounds arg rest _ ih => exact (ih h).trans (List.suffix_cons _ _)
  | case4 rounds arg rest _ _ ih =>
    refine (ih h).trans ((advancePastEnvArguments_suffix _).trans ?_)
    exact (List.drop_suffix 2 rest).trans (List.suffix_cons _ _)
  | case5 rounds arg rest _ _ _ ih =>
    exact (ih h).trans ((advancePastEnvArguments_suffix _).trans (List.suffix_cons _ _))
  | case6 rounds arg rest _ _ _ _ ih => exact (ih h).trans (List.suffix_cons _ _)
  | case7 rounds arg rest => exact (Option.some.inj h) ▸ List.suffix_refl _
  | case8 => cases h

theorem argumentsAfterCompiler_suffix (args : List String) : argumentsAfterCompiler args <:+ args := by
  refine (List.drop_suffix 1 _).trans ?_
  unfold fromCompiler
  cases hfound : compilerArgsForResourceDirProbe args with
  | none => exact List.suffix_refl _
  | some found => exact compilerArgsFrom_suffix hfound

theorem basename_ne_of_isClangLikeCompiler {path name : String} (h : isClangLikeCompiler path = true)
    (hname : isClangLikeName name = false) : basenameWithoutExtension path ≠ name := by
  rintro rfl
  rw [isClangLikeCompiler, hname] at h
  cases h

theorem compilerArgsForResourceDirProbe_cons {compiler : String} {arguments : List String}
    (h : isClangLikeCompiler compiler = true) :
    compilerArgsForResourceDirProbe (compiler :: arguments) = some (compiler :: arguments) := by
  have hname : ∀ name ∈ ["", "--", "cmake", "env", "ccache", "sccache", "distcc", "icecc", "buildcache"],
      basenameWithoutExtension compiler ≠ name := by
    intro name hmem
    refine basename_ne_of_isClangLikeCompiler h ?_
    revert name
    decide +kernel
  have hempty : compiler ≠ "" := by
    rintro rfl
    exact hname "" (by simp) (by decide +kernel)
  have hdashes : compiler ≠ "--" := by
    rintro rfl
    exact hname "--" (by simp) (by decide +kernel)
  have hcmake : isCmakeEnvWrapperAt (compiler :: arguments) = false := by
    rcases arguments with _ | ⟨option, _ | ⟨tool, rest⟩⟩
    · rfl
    · rfl
    · simp [isCmakeEnvWrapperAt, hname "cmake" (by simp)]
  have henv : isPlainEnvWrapperAt (compiler :: arguments) = false := by
    simp [isPlainEnvWrapperAt, hname "env" (by simp)]
  have hlauncher : isKnownCompilerLauncher compiler = false := by
    simp [isKnownCompilerLauncher, hname "ccache" (by simp), hname "sccache" (by simp), hname "distcc" (by simp),
      hname "icecc" (by simp), hname "buildcache" (by simp)]
  have hdriver : isKnownCompilerDriver compiler = true := by
    simp [isKnownCompilerDriver, h]
  simp [compilerArgsForResourceDirProbe, compilerArgsFrom, hempty, hdashes, hcmake, henv, hlauncher, hdriver]

theorem argumentsAfterCompiler_cons {compiler : String} {arguments : List String}
    (h : isClangLikeCompiler compiler = true) : argumentsAfterCompiler (compiler :: arguments) = arguments := by
  simp [argumentsAfterCompiler, fromCompiler, compilerArgsForResourceDirProbe_cons h]

-- ---------------------------------------------------------------------------
-- Spellings
-- ---------------------------------------------------------------------------

def isMsvcModuleMappingValueFlag (arg : String) : Bool :=
  ["-ifcOutput", "/ifcOutput", "-reference", "/reference", "-headerUnit:angle", "/headerUnit:angle",
    "-headerUnit:quote", "/headerUnit:quote"].contains arg

def isMsvcModuleMappingFlag (arg : String) : Bool :=
  isMsvcModuleMappingValueFlag arg ||
    ["-interface", "/interface", "-internalPartition", "/internalPartition"].contains arg

def isCmakeModuleMapResponse (argument : String) : Bool := startsWith argument "@" && contains argument ".modmap"

def shouldStripCompdbArg (arg : String) (preserveModuleMappingArgs : Bool) : Bool :=
  let isBuildSystemDependencyScanArg :=
    startsWith arg "-fmodule-mapper=" || startsWith arg "-fdeps-format=" || startsWith arg "-fdeps-file=" ||
      startsWith arg "-fdeps-target="
  let isModuleMappingArg :=
    startsWith arg "-fmodule-file=" || startsWith arg "-fprebuilt-module-path=" || isCmakeModuleMapResponse arg
  arg = "-fmodules-ts" || arg = "-fmodule-header" || arg = "-fmodule-only" || isBuildSystemDependencyScanArg ||
    (!preserveModuleMappingArgs && isModuleMappingArg) || arg = "-fconcepts-diagnostics-depth" ||
    startsWith arg "-fconcepts-diagnostics-depth=" || isMsvcModuleMappingFlag arg || arg = "-Werror" ||
    startsWith arg "-Werror=" || arg = "-pedantic-errors"

/-- The source of `/Tp<file>` and `/Tc<file>`. -/
def joinedMsvcSourceArgPath (arg : String) : Option String :=
  match arg.toList with
  | '/' :: t :: kind :: first :: rest =>
    if t.toLower = 't' && (kind.toLower = 'p' || kind.toLower = 'c') && first ≠ '-' then
      some (String.ofList (first :: rest))
    else none
  | _ => none

def isCompileOutputOption (argument : String) : Bool :=
  ["-o", "-MF", "-MT", "-MQ", "-MJ", "--dependency-file", "/Fo", "/Fd", "/Fe"].contains argument

/-- One of the options with its value joined to it. -/
def joinedWith (options : List String) (argument : String) : Bool :=
  options.any fun front => front.length < argument.length && startsWith argument front

def isJoinedCompileOutputOption (argument : String) : Bool :=
  joinedWith ["-MF", "-MT", "-MQ", "-MJ", "/Fo", "/Fd", "/Fe"] argument

-- ---------------------------------------------------------------------------
-- The semantic context
-- ---------------------------------------------------------------------------

structure CompileCommand where
  directory : String
  commandLine : List String
  deriving DecidableEq

/-- Whether an argument is the source, by itself or behind `/Tp` or `/Tc`. -/
def namesSource (host : Host) (directory source argument : String) : Bool :=
  normalizeCompdbLookupPath host argument directory = normalizeCompdbLookupPath host source directory

def joinsSource (host : Host) (directory source argument : String) : Bool :=
  (joinedMsvcSourceArgPath argument).any (namesSource host directory source)

/-- How the loop of `normalized_semantic_compile_context` treats an argument. -/
def semanticReading (host : Host) (directory source argument : String) : Reading :=
  if isCompileOutputOption argument || isMsvcModuleMappingValueFlag argument then .dropWithNext
  else if isCmakeModuleMapResponse argument then .drop
  else if isJoinedCompileOutputOption argument || argument = "-c" || argument = "/c" || argument = "-MD" ||
      argument = "-MMD" || argument = "-MP" || argument = "-fsyntax-only" || shouldStripCompdbArg argument true then
    .drop
  else if namesSource host directory source argument then .drop
  else if joinsSource host directory source argument then .drop
  else .keep

def normalizedSemanticCompileContext (host : Host) (command : CompileCommand) (source : String) : List String :=
  ("directory=" ++ normalizeCompdbLookupPath host command.directory "") ::
    left (semanticReading host command.directory source) none (argumentsAfterCompiler command.commandLine)

/-- Each token behind its length in bytes, both ended by a zero. -/
def hashedText (tokens : List String) : List Char :=
  tokens.flatMap fun token => Nat.toDigits 10 (Utf8.encode token.toList).length ++ '\x00' :: token.toList ++ ['\x00']

/-- What `semantic_compile_context_fingerprint` feeds to SHA-256. -/
def hashedBytes (tokens : List String) : List UInt8 := Utf8.encode (hashedText tokens)

-- ---------------------------------------------------------------------------
-- What the flat list does with an argument
-- ---------------------------------------------------------------------------

section

variable {host : Host} {directory source argument : String}

theorem semanticReading_ne_keepWithNext : semanticReading host directory source argument ≠ .keepWithNext := by
  unfold semanticReading
  repeat' split
  all_goals simp

/-- The spellings that make the loop skip the next argument. -/
def skippingSpellings : List String :=
  ["-o", "-MF", "-MT", "-MQ", "-MJ", "--dependency-file", "/Fo", "/Fd", "/Fe", "-ifcOutput", "/ifcOutput",
    "-reference", "/reference", "-headerUnit:angle", "/headerUnit:angle", "-headerUnit:quote",
    "/headerUnit:quote"]

theorem skips_iff :
    (isCompileOutputOption argument || isMsvcModuleMappingValueFlag argument) = true ↔
      argument ∈ skippingSpellings := by
  simp only [isCompileOutputOption, isMsvcModuleMappingValueFlag, skippingSpellings, Bool.or_eq_true,
    List.contains_iff_mem, ← List.mem_append]
  rfl

theorem semanticReading_dropWithNext (h : argument ∈ skippingSpellings) :
    semanticReading host directory source argument = .dropWithNext := by
  rw [semanticReading, if_pos (skips_iff.mpr h)]

theorem semanticReading_drop (hskip : argument ∉ skippingSpellings)
    (hdrop : isCmakeModuleMapResponse argument = true ∨
      (isJoinedCompileOutputOption argument || argument = "-c" || argument = "/c" || argument = "-MD" ||
        argument = "-MMD" || argument = "-MP" || argument = "-fsyntax-only" ||
        shouldStripCompdbArg argument true) = true ∨
      namesSource host directory source argument = true ∨ joinsSource host directory source argument = true) :
    semanticReading host directory source argument = .drop := by
  rw [semanticReading, if_neg (mt skips_iff.mp hskip)]
  rcases hdrop with h | h | h | h
  · rw [if_pos h]
  all_goals
    repeat' split
    all_goals rfl

theorem not_mem_of_test (test : String → Bool) {spellings : List String} (h : test argument = true)
    (hskip : ∀ spelling ∈ spellings, test spelling = false) : argument ∉ spellings := by
  intro hmem
  rw [hskip argument hmem] at h
  cases h

theorem joinedMsvcSourceArgPath_isSome (h : joinsSource host directory source argument = true) :
    (joinedMsvcSourceArgPath argument).isSome = true := by
  unfold joinsSource at h
  cases hpath : joinedMsvcSourceArgPath argument with
  | none => rw [hpath] at h; cases h
  | some path => rfl

end

end Gentest.Codegen
