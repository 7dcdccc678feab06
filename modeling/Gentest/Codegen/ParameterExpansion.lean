import Gentest.Codegen.CaseNames
import Gentest.Codegen.TemplateCombos
import Gentest.Codegen.TypeKind

/-!
# Expansion of parameters

An annotated function becomes one case for each choice of template arguments, of a
row of each pack and of a value on each scalar axis. Nested visitors bind the values
in one map, and a case is dropped when the text of its names and its place was seen
before.
-/

namespace Gentest.Codegen

-- ---------------------------------------------------------------------------
-- Declarations
-- ---------------------------------------------------------------------------

structure FunctionParam where
  name : List Char
  typeSpelling : List Char
  hasDefaultArg : Bool
  /-- What inferring the fixture type of the parameter reports. -/
  fixtureFailure : Option String

structure ScalarAxis where
  origin : String
  name : List Char
  values : Except String (List (List Char))

/-- An annotated function with its validated summary; the scalar axes stand as they
are visited. -/
structure Declaration where
  source : CaseSource
  templateParams : List TemplateParamInfo
  params : List FunctionParam
  templateSets : List TemplateBindingSet
  scalars : List ScalarAxis
  packs : List ParamPack
  template_iff : source.isFunctionTemplate = true ↔ templateParams ≠ []
  sets_named : (templateSets.map (·.paramName)).Nodup
  sets_filled : ∀ set ∈ templateSets, set.candidates ≠ []
  packs_shaped : ∀ pack ∈ packs, ∀ row ∈ pack.rows, row.length = pack.names.length

theorem parametersPack_shaped {texts : List (List Char)} {errors : List String} {pack : ParamPack}
    (h : parametersPack texts = (errors, some pack)) : ∀ row ∈ pack.rows, row.length = pack.names.length := by
  cases texts with
  | nil => cases h
  | cons first texts =>
    intro row hrow
    rw [(parametersPack_rows h).2, List.mem_filterMap] at hrow
    obtain ⟨text, -, hread⟩ := hrow
    cases hok : readRow pack.names text with
    | error message => simp [hok, Except.toOption] at hread
    | ok stored =>
      obtain rfl : stored = row := by simpa [hok, Except.toOption] using hread
      exact (readRow_eq_ok hok).2

-- ---------------------------------------------------------------------------
-- Names of axes
-- ---------------------------------------------------------------------------

/-- One name more, unless no parameter or another axis has it. -/
def checkAxisName (known : List (List Char)) (unknown duplicate : String → String) (names : List (List Char))
    (name : List Char) : Except String (List (List Char)) :=
  if !known.contains name then .error (unknown (String.ofList name))
  else if names.contains name then .error (duplicate (String.ofList name))
  else .ok (name :: names)

def knownNames (params : List FunctionParam) : List (List Char) := (params.map (·.name)).filter (· ≠ [])

def validateAxes (d : Declaration) : Except String (List (List Char)) := do
  let known := knownNames d.params
  let names ← d.scalars.foldlM (fun names axis =>
    checkAxisName known (fun name => "unknown parameter name '" ++ name ++ "' in " ++ axis.origin ++ "(...)")
      (fun name => "duplicate parameter axis for '" ++ name ++ "'") names axis.name) []
  (d.packs.flatMap (·.names)).foldlM
    (checkAxisName known (fun name => "unknown parameter name '" ++ name ++ "' in parameters_pack(...)")
      fun name => "parameter '" ++ name ++ "' supplied by multiple parameter sets/packs") names

-- ---------------------------------------------------------------------------
-- Roles of parameters
-- ---------------------------------------------------------------------------

inductive ParamRole where
  | value
  | defaulted
  | fixture (index : Nat)
  deriving DecidableEq

def inferRoles (valueAxisNames : List (List Char)) : Nat → List FunctionParam →
    Except String (List (FunctionParam × ParamRole))
  | _, [] => .ok []
  | fixtures, param :: params =>
    if param.name ≠ [] ∧ valueAxisNames.contains param.name then do
      let roles ← inferRoles valueAxisNames fixtures params
      .ok ((param, .value) :: roles)
    else if param.hasDefaultArg then do
      let roles ← inferRoles valueAxisNames fixtures params
      .ok ((param, .defaulted) :: roles)
    else
      match param.fixtureFailure with
      | some message => .error message
      | none => do
        let roles ← inferRoles valueAxisNames (fixtures + 1) params
        .ok ((param, .fixture fixtures) :: roles)

abbrev Bindings := List (List Char × List Char)

def scalarAxis (axis : ScalarAxis) : Except String Bindings := axis.values.map (·.map (axis.name, ·))

-- ---------------------------------------------------------------------------
-- Cases
-- ---------------------------------------------------------------------------

inductive FreeCallArg where
  | fixture (index : Nat)
  | value (expression : List Char)
  deriving DecidableEq

structure ExpandedCase where
  info : TestCaseInfo
  templateArgs : List String
  freeCallArgs : List FreeCallArg

def valueExprs (args : List FreeCallArg) : List String :=
  args.filterMap fun arg => match arg with
    | .fixture _ => none
    | .value expr => some (String.ofList expr)

/-- What one case is made of: its template arguments and its value expressions. -/
def instantiation (tplOrdered : List (List Char)) (args : List FreeCallArg) : List String × List String :=
  (tplOrdered.map String.ofList, valueExprs args)

def Declaration.case (d : Declaration) (tplOrdered : List (List Char)) (args : List FreeCallArg) : ExpandedCase where
  info := d.source.caseInfo (instantiation tplOrdered args)
  templateArgs := tplOrdered.map String.ofList
  freeCallArgs := args

structure Expansion where
  seen : List String
  out : List ExpandedCase
  reports : List String

def Expansion.addCase (s : Expansion) (case : ExpandedCase) : Expansion :=
  let key := case.info.seenKey
  if key ∈ s.seen then s else { s with seen := key :: s.seen, out := s.out ++ [case] }

abbrev NameMap := Visits.Store (List Char) (List Char)

/-- What reports that an importer cannot name what an expression of some kind names. -/
abbrev ImporterCheck := String → List Char → Option String

def callArg (importer : ImporterCheck) (current : NameMap) : FunctionParam × ParamRole → Except String (List FreeCallArg)
  | (_, .fixture index) => .ok [.fixture index]
  | (_, .defaulted) => .ok []
  | (param, .value) =>
    if param.name = [] then
      .error "missing value for unnamed function parameter in parameters(...) or parameters_pack(...)"
    else
      match current param.name with
      | none =>
        .error ("missing value for function parameter '" ++ String.ofList param.name ++
          "' in parameters(...) or parameters_pack(...)")
      | some value =>
        let expr := quoteForType (classifyType param.typeSpelling) value param.typeSpelling
        match importer "parameter expression" expr with
        | some message => .error message
        | none => .ok [.value expr]

def emitCase (d : Declaration) (importer : ImporterCheck) (roles : List (FunctionParam × ParamRole))
    (tplCombo : List (List Char)) (current : NameMap) (s : Expansion) : Expansion :=
  match roles.mapM (callArg importer current) with
  | .error message => { s with reports := s.reports ++ [message] }
  | .ok args => s.addCase (d.case tplCombo args.flatten)

-- ---------------------------------------------------------------------------
-- Visitors
-- ---------------------------------------------------------------------------

section Visitors

variable (emit : NameMap → Expansion → Expansion)

def visitScalars : List Bindings → NameMap × Expansion → NameMap × Expansion
  | [], s => (s.1, emit s.1 s.2)
  | axis :: axes, s =>
    axis.foldl (fun s nv =>
      let bound := Visits.setValue nv.1 nv.2 s.1
      let out := visitScalars axes (bound.2, s.2)
      (Visits.restoreValue nv.1 bound.1 out.1, out.2)) s

def visitPacks (scalarAxes : List Bindings) : List ParamPack → NameMap × Expansion → NameMap × Expansion
  | [], s => if scalarAxes = [] then (s.1, emit s.1 s.2) else visitScalars emit scalarAxes s
  | pack :: packs, s =>
    pack.rows.foldl (fun s row =>
      let bound := Visits.setAll (pack.names.zip row) [] s.1
      let out := visitPacks scalarAxes packs (bound.2, s.2)
      (Visits.restoreAll bound.1 out.1, out.2)) s

end Visitors

def visitCombos (d : Declaration) (importer : ImporterCheck) (roles : List (FunctionParam × ParamRole))
    (scalarAxes : List Bindings) (combos : List (List (List Char))) (s : NameMap × Expansion) : NameMap × Expansion :=
  combos.foldl (fun s tplCombo =>
    let emit := emitCase d importer roles tplCombo
    if d.packs = [] then
      if scalarAxes = [] then (s.1, emit s.1 s.2) else visitScalars emit scalarAxes s
    else visitPacks emit scalarAxes d.packs s) s

/-- The bindings of the template combinations that an importer cannot name. -/
def importerTemplateBindings (importer : ImporterCheck) (combos : List (List (List Char))) : Option String :=
  combos.flatten.findSome? (importer "template binding")

def prepare (d : Declaration) (importer : ImporterCheck) :
    Except String (List (List (List Char)) × List (FunctionParam × ParamRole) × List Bindings) := do
  let combos ← templateCombos d.templateSets d.templateParams
  match importerTemplateBindings importer combos with
  | some message => .error message
  | none =>
    let valueAxisNames ← validateAxes d
    let roles ← inferRoles valueAxisNames 0 d.params
    let scalarAxes ← d.scalars.mapM scalarAxis
    .ok (combos, roles, scalarAxes)

/-- The map of current values in the end, and what was emitted and reported. -/
def expand (d : Declaration) (importer : ImporterCheck) (s : Expansion) : NameMap × Expansion :=
  match prepare d importer with
  | .error message => (fun _ => none, { s with reports := s.reports ++ [message] })
  | .ok (combos, roles, scalarAxes) => visitCombos d importer roles scalarAxes combos (fun _ => none, s)

end Gentest.Codegen
