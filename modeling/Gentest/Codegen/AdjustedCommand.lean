import Gentest.Codegen.CompileCommands

/-!
# The command of the host scan

`build_adjusted_command_line` turns a compile command into one for the host's clang:
the compiler is replaced, arguments of the tool are put in front, and options that
clang does not take are removed or respelled. `adjusted_scan_preserves_semantic_context`
then asks whether every token of the selected context is still there, in order.
-/

namespace Gentest.Codegen

open Arguments

-- ---------------------------------------------------------------------------
-- Shell tails
-- ---------------------------------------------------------------------------

def isShellControlToken (arg : String) : Bool := ["&&", "||", ";", "|"].contains arg

def beforeFirst (part : List Char) : List Char → Option (List Char)
  | [] => if part.isEmpty then some [] else none
  | c :: rest => if part.isPrefixOf (c :: rest) then some [] else (beforeFirst part rest).map (c :: ·)

def trimEmbeddedShellControlTail (arg : String) : Option String :=
  match [" && ", " || ", " ; ", " | "].findSome? fun pattern => beforeFirst pattern.toList arg.toList with
  | some front => some (String.ofList (trimView front))
  | none => if ["&& ", "|| ", "; ", "| "].any (startsWith arg) then some "" else none

def stripShellControlTail : List String → List String
  | [] => []
  | arg :: rest =>
    if isShellControlToken arg then []
    else match trimEmbeddedShellControlTail arg with
      | some trimmed => if trimmed = "" then [] else [trimmed]
      | none => arg :: stripShellControlTail rest

-- ---------------------------------------------------------------------------
-- Settings of the scan
-- ---------------------------------------------------------------------------

/-- The other inputs of `build_adjusted_command_line`. The tool only starts with
clang drivers of its own: `resolve_default_compiler_path` and
`resolve_explicit_host_clang_path` let no other through. -/
structure ScanSettings where
  resourceDirForCompiler : String → String
  defaultCompilerPath : String
  defaultSysroot : String := ""
  extraArgs : List String := []
  compdbDir : String := ""
  extraModuleArgs : List String := []
  explicitHostClangPath : String := ""
  forcedCompilerPath : String := ""
  default_clang : isClangLikeCompiler defaultCompilerPath = true
  host_clang : explicitHostClangPath = "" ∨ isClangLikeCompiler explicitHostClangPath = true

def missingCompdbSyntheticCommandMarker : String := "__gentest_missing_compdb_entry__"

def hasOptionArg (option joined : String) : List String → Bool
  | [] => false
  | arg :: rest =>
    if arg = option then
      match rest with
      | [] => false
      | _ :: _ => true
    else startsWith arg joined || hasOptionArg option joined rest

def hasSysrootArg (args : List String) : Bool :=
  hasOptionArg "-isysroot" "-isysroot" args || hasOptionArg "--sysroot" "--sysroot=" args

def prefersMsvcStyleStandardFlag (args : List String) : Bool :=
  args.head?.any (fun arg => ["cl", "clang-cl"].contains (basenameWithoutExtension arg)) ||
    args.any fun arg => arg = "--driver-mode=cl" || arg = "/clang:--driver-mode=cl"

def hasExplicitLanguageMode (args : List String) : Bool :=
  args.any fun arg => ["/TP", "/Tc", "/TP-", "/Tc-"].contains arg || startsWith arg "-x"

def sourceRequiresExplicitModuleLanguageMode (path : String) : Bool :=
  let name := fileName path
  let extension := (name.toList.drop (basenameWithoutExtension path).length).map Char.toLower
  [".ixx", ".mxx", ".cppm", ".ccm", ".cxxm"].contains (String.ofList extension)

section

variable (host : Host) (settings : ScanSettings)

-- ---------------------------------------------------------------------------
-- The compiler of the scan
-- ---------------------------------------------------------------------------

def isExplicitPath (path : String) : Bool := path.toList.contains '/' || path.toList.contains '\\'

def resolveProgramInvocationPath (program : String) : String :=
  if program = "" then ""
  else if isExplicitPath program then program
  else (host.findProgramByName program).getD program

def resolvedDefaultClangCompiler : Option String :=
  if settings.defaultCompilerPath = "" then none
  else
    let resolved := resolveProgramInvocationPath host settings.defaultCompilerPath
    if resolved ≠ "" && isClangLikeCompiler resolved then some resolved else none

def resolveClangCompilerPath (candidate : String) (explicitPath : Bool) : String :=
  let selected := resolveProgramInvocationPath host candidate
  if !explicitPath && ["clang", "clang++", "clang-cl"].contains (basenameWithoutExtension candidate) then
    (resolvedDefaultClangCompiler host settings).getD selected
  else if !explicitPath && selected = candidate && settings.defaultCompilerPath ≠ "" then
    (resolvedDefaultClangCompiler host settings).getD selected
  else selected

/-- `compiler_for_resource_dir_probe` -/
def compilerForResourceDirProbe (commandLine : List String) : String :=
  match compilerArgsForResourceDirProbe commandLine with
  | some (compiler :: _) => if isClangLikeCompiler compiler then compiler else settings.defaultCompilerPath
  | _ => settings.defaultCompilerPath

def selectClangToolchainCompiler (commandLine : List String) (compilerArg : String) : String :=
  let forced := resolveClangCompilerPath host settings settings.forcedCompilerPath
    (isExplicitPath settings.forcedCompilerPath)
  if settings.explicitHostClangPath ≠ "" then
    resolveProgramInvocationPath host settings.explicitHostClangPath
  else if settings.forcedCompilerPath ≠ "" && isClangLikeCompiler forced then forced
  else if !isClangLikeCompiler compilerArg then
    let probed := compilerForResourceDirProbe settings commandLine
    if probed = "" then resolveProgramInvocationPath host compilerArg else probed
  else resolveClangCompilerPath host settings compilerArg (isExplicitPath compilerArg)

-- ---------------------------------------------------------------------------
-- The arguments of the scan
-- ---------------------------------------------------------------------------

def isSeparateValueModuleFlag (arg : String) : Bool :=
  ["-fmodule-mapper", "-fdeps-format", "-fdeps-file", "-fdeps-target", "-fmodule-file", "-fprebuilt-module-path",
    "-fconcepts-diagnostics-depth"].contains arg

def canBeSeparateFlagValue (next : String) : Bool := next ≠ "" && next.toList.head? ≠ some '-'

/-- The value of a module mapping flag of `cl`, rather than the next flag. -/
def canBeMappingValue (next : String) : Bool := canBeSeparateFlagValue next && !isMsvcModuleMappingFlag next

def isJoinedMsvcModuleMappingFlag (arg : String) : Bool :=
  ["-ifcOutput=", "/ifcOutput:", "-reference=", "/reference:", "-headerUnit:angle=", "/headerUnit:angle:",
    "-headerUnit:quote=", "/headerUnit:quote:"].any (startsWith arg)

def rewriteJoinedMsvcSourceArg (originalArg path : String) : String :=
  String.ofList (originalArg.toList.take 3) ++ path

/-- An argument that is neither removed nor joined: a joined source is respelled. -/
def respell (file arg : String) : String :=
  if joinsSource host settings.compdbDir file arg then rewriteJoinedMsvcSourceArg arg file else arg

/-- The loop over the arguments behind the compiler; `skipNextArg` is set when the
next one was consumed as a value. -/
def rewriteArguments (file : String) (preserveModuleMappingArgs : Bool) : Bool → List String → List String
  | _, [] => []
  | true, _ :: rest => rewriteArguments file preserveModuleMappingArgs false rest
  | false, arg :: rest =>
    if arg = "--" then rewriteArguments file preserveModuleMappingArgs false rest
    else if isShellControlToken arg then []
    else if preserveModuleMappingArgs && (arg = "-fmodule-file" || arg = "-fprebuilt-module-path") then
      match rest with
      | [] => []
      | next :: _ =>
        if canBeSeparateFlagValue next then
          (arg ++ "=" ++ next) :: rewriteArguments file preserveModuleMappingArgs true rest
        else rewriteArguments file preserveModuleMappingArgs false rest
    else if isSeparateValueModuleFlag arg then
      rewriteArguments file preserveModuleMappingArgs (rest.head?.any canBeSeparateFlagValue) rest
    else if isMsvcModuleMappingValueFlag arg then
      rewriteArguments file preserveModuleMappingArgs (rest.head?.any canBeMappingValue) rest
    else if isJoinedMsvcModuleMappingFlag arg then rewriteArguments file preserveModuleMappingArgs false rest
    else if shouldStripCompdbArg arg preserveModuleMappingArgs then
      rewriteArguments file preserveModuleMappingArgs false rest
    else respell host settings file arg :: rewriteArguments file preserveModuleMappingArgs false rest

def resourceDirArgs (resourceDir : String) : List String :=
  if resourceDir ≠ "" then ["-resource-dir=" ++ resourceDir] else []

def languageModeArgs (commandLine : List String) (file : String) : List String :=
  if !hasExplicitLanguageMode commandLine && sourceRequiresExplicitModuleLanguageMode file then
    ["-x", "c++-module"]
  else []

def sysrootArgs (commandLine : List String) : List String :=
  if settings.defaultSysroot ≠ "" && !hasSysrootArg commandLine && !prefersMsvcStyleStandardFlag commandLine then
    ["-isysroot", settings.defaultSysroot]
  else []

def frontArguments (commandLine : List String) (file compiler : String) : List String :=
  resourceDirArgs (settings.resourceDirForCompiler compiler) ++ sysrootArgs settings commandLine ++
    settings.extraArgs ++ languageModeArgs commandLine file

/-- The invocation for a source without a compile command, on Linux. -/
def syntheticFallback (file : String) : List String :=
  let declaresStandardLibrary := settings.extraArgs.any fun arg =>
    arg = "-nostdinc++" || startsWith arg "--gcc-toolchain=" || arg = "--gcc-toolchain"
  settings.defaultCompilerPath ::
    ((if declaresStandardLibrary then [] else ["--gcc-toolchain=/usr"]) ++
      resourceDirArgs (settings.resourceDirForCompiler settings.defaultCompilerPath) ++ sysrootArgs settings [] ++
      settings.extraArgs ++ languageModeArgs [] file ++ settings.extraModuleArgs ++ [file])

def isPosixInput (file arg : String) : Bool :=
  startsWith arg "/" && normalizeCompdbLookupPath host arg "" = normalizeCompdbLookupPath host file ""

/-- Moves the input behind `--` at the end. -/
def relocateInput (file : String) (adjusted : List String) : List String :=
  match adjusted.find? (isPosixInput host file) with
  | some input => adjusted.eraseP (isPosixInput host file) ++ ["--", input]
  | none => adjusted

def buildAdjustedCommandLine (commandLine : List String) (file : String) (preserveModuleMappingArgs : Bool) :
    List String :=
  let stripped := stripShellControlTail commandLine
  let sanitized := if stripped.contains missingCompdbSyntheticCommandMarker then [] else stripped
  match fromCompiler sanitized with
  | [] => syntheticFallback settings file
  | compilerArg :: arguments =>
    let compiler := selectClangToolchainCompiler host settings sanitized compilerArg
    let adjusted := (if compiler = "" then compilerArg else compiler) ::
      (frontArguments settings sanitized file (if compiler = "" then settings.defaultCompilerPath else compiler) ++
        rewriteArguments host settings file preserveModuleMappingArgs false arguments ++ settings.extraModuleArgs)
    if sanitized.contains "--driver-mode=cl" then relocateInput host file adjusted else adjusted

end

-- ---------------------------------------------------------------------------
-- The check on the adjusted command
-- ---------------------------------------------------------------------------

def missingToken : List String → List String → Option String
  | [], _ => none
  | token :: tokens, adjusted =>
    match adjusted.dropWhile (· ≠ token) with
    | [] => some token
    | _ :: rest => missingToken tokens rest

def adjustedScanPreservesSemanticContext (host : Host) (selected : CompileCommand) (source : String)
    (adjustedCommandLine : List String) : Option String :=
  missingToken (normalizedSemanticCompileContext host selected source)
    (normalizedSemanticCompileContext host { selected with commandLine := adjustedCommandLine } source)

end Gentest.Codegen
