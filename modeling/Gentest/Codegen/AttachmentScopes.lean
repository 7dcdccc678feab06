import Gentest.Codegen.MockManifest
import Gentest.Lib.ScopeText
import Mathlib.Data.List.DropRight
import Mathlib.Data.List.Infix

/-!
# Scopes around a mock in a module

The attachment of a mocked class of a module is put behind the class. The namespaces that are
open there are closed before it and opened again behind it, with the text that opened them up
to its first brace. Texts are those of one file, so that offsets tell braces apart.
-/

namespace Gentest.Codegen.AttachmentScopes

open MockManifest (MockNamespaceScopeInfo)
open ScopeText

-- ---------------------------------------------------------------------------
-- The namespaces around a class
-- ---------------------------------------------------------------------------

structure NamespaceDecl where
  name : List Char
  isInline : Bool
  isAnonymous : Bool := false
  /-- From where the declaration begins to its closing brace. -/
  sourceText : List Char
  rBrace : Option Nat

inductive DeclContext
  | namespaceDecl (ns : NamespaceDecl)
  | exportDecl
  | linkageSpec
  | record
  | translationUnit

/-- The checks of `handle_mock_target_type` on the scopes around a class of a module. -/
def scopesAccepted (contexts : List DeclContext) : Bool :=
  contexts.all fun
    | .namespaceDecl ns => !ns.isAnonymous
    | .record => false
    | _ => true

def rtrim (text : List Char) : List Char := text.rdropWhile isBlank

def namespaceReopenPrefix (ns : NamespaceDecl) : List Char :=
  if ns.rBrace.isNone then []
  else if '{' ∈ ns.sourceText then rtrim (ns.sourceText.takeWhile (· ≠ '{'))
  else []

def DeclContext.isExport : DeclContext → Bool
  | .exportDecl => true
  | _ => false

/-- Whether the innermost of the contexts is an export declaration. -/
def inExport (contexts : List DeclContext) : Bool := contexts.head?.any DeclContext.isExport

/-- The named namespaces among the contexts, each with whether it is exported. -/
def namespaceDecls : List DeclContext → List (NamespaceDecl × Bool)
  | [] => []
  | .namespaceDecl ns :: contexts =>
    if ns.isAnonymous then namespaceDecls contexts else (ns, inExport contexts) :: namespaceDecls contexts
  | _ :: contexts => namespaceDecls contexts

structure ChainState where
  chain : List MockNamespaceScopeInfo := []
  currentGroup : Nat := 0
  currentGroupEnd : Option Nat := none

def isShorthandNestedNamespace (chain : List MockNamespaceScopeInfo) (reopenPrefix : List Char) : Bool :=
  !chain.isEmpty && !reopenPrefix.isEmpty && !decide ("namespace".toList <:+: reopenPrefix)

def ChainState.newGroup (s : ChainState) (ns : NamespaceDecl) : Bool :=
  !isShorthandNestedNamespace s.chain (namespaceReopenPrefix ns) &&
    (s.currentGroupEnd.isNone || ns.rBrace.isNone || s.currentGroupEnd ≠ ns.rBrace)

def ChainState.add (s : ChainState) : NamespaceDecl × Bool → ChainState
  | (ns, isExported) =>
    let currentGroup := if s.newGroup ns then s.currentGroup + 1 else s.currentGroup
    { chain := s.chain ++
        [{ name := String.ofList ns.name
           isInline := ns.isInline
           isExported
           lexicalCloseGroup := currentGroup
           reopenPrefix := if s.newGroup ns then String.ofList (namespaceReopenPrefix ns) else "" }]
      currentGroup
      currentGroupEnd := if s.newGroup ns then ns.rBrace else s.currentGroupEnd }

/-- The chain of a class, from its contexts with the innermost first. -/
def collectAttachmentNamespaceChain (contexts : List DeclContext) : List MockNamespaceScopeInfo :=
  ((namespaceDecls contexts).reverse.foldl ChainState.add {}).chain

-- ---------------------------------------------------------------------------
-- The text around an attachment
-- ---------------------------------------------------------------------------

def exportText (isExported : Bool) : List Char := if isExported then "export ".toList else []

/-- The text without what follows its first brace and the blanks before it. -/
def cutAtBrace (text : List Char) : List Char := rtrim (text.takeWhile (· ≠ '{'))

/-- What is read before a brace opens a scope with the head. -/
def OpensBehind (front head : List Char) : Prop := (step (step (lex {} front) ' ').1 '{').2 = some (.opened head)

/-- A further name of `namespace a::b`, which is declared by the text from there on. -/
structure InnerName where
  name : List Char
  isInline : Bool
  text : List Char

def IsName (name : List Char) : Prop := ∀ ch ∈ name, isWordChar ch = true

structure NamespaceOpening where
  exported : Bool
  text : List Char
  name : List Char
  isInline : Bool
  inner : List InnerName
  body : List Char
  rBrace : Nat
  head : List Char
  /-- No scope is opened or closed before the brace. -/
  silent : events {} (exportText exported ++ text) = []
  opens : (step (lex {} (exportText exported ++ text)) '{').2 = some (.opened head)
  keyword : "namespace".toList <:+: rtrim text
  isName : IsName name
  innerNames : ∀ i ∈ inner, IsName i.name
  /-- The text from a further name on is not the whole head. -/
  innerHeads : ∀ i ∈ inner, ¬ OpensBehind (cutAtBrace i.text) head

inductive Opening
  | namespaceBlock (ns : NamespaceOpening)
  | exportBlock
  | linkageBlock (language : List Char)

def Opening.head : Opening → List Char
  | .namespaceBlock ns => ns.head
  | .exportBlock => "export".toList
  | .linkageBlock language => "extern \"".toList ++ language ++ ['"']

def Opening.rBrace? : Opening → Option Nat
  | .namespaceBlock ns => some ns.rBrace
  | _ => none

def NamespaceOpening.decl (ns : NamespaceOpening) : NamespaceDecl where
  name := ns.name
  isInline := ns.isInline
  sourceText := ns.text ++ '{' :: ns.body
  rBrace := some ns.rBrace

def NamespaceOpening.innerDecl (ns : NamespaceOpening) (i : InnerName) : NamespaceDecl where
  name := i.name
  isInline := i.isInline
  sourceText := i.text ++ '{' :: ns.body
  rBrace := some ns.rBrace

/-- The contexts that an opening declares, the innermost first. -/
def Opening.contexts : Opening → List DeclContext
  | .namespaceBlock ns =>
    ns.inner.reverse.map (fun i => .namespaceDecl (ns.innerDecl i)) ++ [.namespaceDecl ns.decl] ++
      if ns.exported then [.exportDecl] else []
  | .exportBlock => [.exportDecl]
  | .linkageBlock _ => [.linkageSpec]

/-- The openings around the definition of a class, the outermost first, and those around the
declaration that puts it where it belongs. They are the same unless the class is defined by a
qualified name. -/
structure Nest where
  openings : List Opening
  belongs : List Opening
  ordered : (belongs.filterMap Opening.rBrace?).Pairwise (· > ·)

/-- What `getDeclContext` and `getParent` lead through. -/
def Nest.contexts (nest : Nest) : List DeclContext :=
  nest.belongs.reverse.flatMap Opening.contexts ++ [.translationUnit]

def Nest.chain (nest : Nest) : List MockNamespaceScopeInfo := collectAttachmentNamespaceChain nest.contexts

def Nest.scopes (nest : Nest) : List (List Char) := (nest.openings.map Opening.head).reverse

/-- The brace of a namespace is the first of its text, and no line comment, directive or spliced
line ends right before it. -/
structure NamespaceOpening.BraceApart (ns : NamespaceOpening) : Prop where
  first : '{' ∉ ns.text
  line : (lex {} (exportText ns.exported ++ rtrim ns.text)).mode.endsAtLine = false
  splice : (lex {} (exportText ns.exported ++ rtrim ns.text)).spliced = true →
    (ns.text.rtakeWhile isBlank).head? ≠ some '\n'

theorem scopesAccepted_contexts (nest : Nest) : scopesAccepted nest.contexts = true := by
  refine List.all_eq_true.mpr fun context hcontext => ?_
  obtain hcontext | hcontext := List.mem_append.mp hcontext
  · obtain ⟨o, -, hcontext⟩ := List.mem_flatMap.mp hcontext
    cases o with
    | namespaceBlock ns =>
      simp only [Opening.contexts, List.mem_append, List.mem_map, List.mem_singleton] at hcontext
      obtain (⟨i, -, rfl⟩ | rfl) | hexport := hcontext
      · rfl
      · rfl
      · split at hexport
        · rw [List.mem_singleton.mp hexport]
        · cases hexport
    | exportBlock => rw [List.mem_singleton.mp hcontext]
    | linkageBlock language => rw [List.mem_singleton.mp hcontext]
  · rw [List.mem_singleton.mp hcontext]

-- ---------------------------------------------------------------------------
-- The chain, opening by opening
-- ---------------------------------------------------------------------------

/-- The namespaces that an opening declares, the outermost first. -/
def Opening.decls (outer : Bool) : Opening → List (NamespaceDecl × Bool)
  | .namespaceBlock ns => (ns.decl, ns.exported || outer) :: ns.inner.map fun i => (ns.innerDecl i, false)
  | _ => []

def Opening.isExport : Opening → Bool
  | .exportBlock => true
  | _ => false

def fronts (chain : List MockNamespaceScopeInfo) : List (List Char) :=
  chain.flatMap fun ns => if ns.reopenPrefix = "" then [] else [exportText ns.isExported ++ ns.reopenPrefix.toList]

inductive Opens : Bool → List Opening → List (List Char) → Prop
  | nil {outer} : Opens outer [] []
  | skip {outer o openings fronts} : Opens o.isExport openings fronts → Opens outer (o :: openings) fronts
  | own {outer ns openings fronts} : Opens false openings fronts →
      Opens outer (.namespaceBlock ns :: openings) ((exportText (ns.exported || outer) ++ cutAtBrace ns.text) :: fronts)
  | further {outer ns openings fronts} (i : InnerName) : i ∈ ns.inner → Opens false openings fronts →
      Opens outer (.namespaceBlock ns :: openings) (cutAtBrace i.text :: fronts)

theorem not_mem_cutAtBrace (text : List Char) : '{' ∉ cutAtBrace text := by
  intro hmem
  have hmem := List.mem_takeWhile_imp ((List.rdropWhile_prefix isBlank _).subset hmem)
  simp at hmem

variable {outer : Bool} {openings : List Opening} {added : List (List Char)}

theorem Opens.length_le (h : Opens outer openings added) : added.length ≤ openings.length := by
  induction h with
  | nil => exact le_refl _
  | skip _ ih => exact ih.trans (Nat.le_succ _)
  | own _ ih => exact Nat.succ_le_succ ih
  | further _ _ _ ih => exact Nat.succ_le_succ ih

theorem not_mem_exportText (isExported : Bool) : '{' ∉ exportText isExported := by
  cases isExported <;> decide

theorem Opens.not_mem (h : Opens outer openings added) : ∀ front ∈ added, '{' ∉ front := by
  induction h with
  | nil => exact nofun
  | skip _ ih => exact ih
  | own _ ih =>
    refine List.forall_mem_cons.mpr ⟨fun hmem => ?_, ih⟩
    obtain hmem | hmem := List.mem_append.mp hmem
    · exact not_mem_exportText _ hmem
    · exact not_mem_cutAtBrace _ hmem
  | further i _ _ ih => exact List.forall_mem_cons.mpr ⟨not_mem_cutAtBrace _, ih⟩

theorem Opens.all (h : Opens outer openings added) (hlength : openings.length ≤ added.length)
    (hheads : List.Forall₂ OpensBehind added (openings.map Opening.head)) (houter : outer = false) :
    ∀ o ∈ openings, ∃ ns, o = .namespaceBlock ns ∧ OpensBehind (exportText ns.exported ++ cutAtBrace ns.text) ns.head := by
  induction h with
  | nil => exact nofun
  | skip h _ =>
    have hle := h.length_le
    rw [List.length_cons] at hlength
    omega
  | @own outer ns openings fronts h ih =>
    rw [List.map_cons, List.forall₂_cons] at hheads
    obtain ⟨hfirst, hrest⟩ := hheads
    rw [houter, Bool.or_false] at hfirst
    exact List.forall_mem_cons.mpr ⟨⟨ns, rfl, hfirst⟩, ih (Nat.le_of_succ_le_succ hlength) hrest rfl⟩
  | @further outer ns openings fronts i hi h ih =>
    rw [List.map_cons, List.forall₂_cons] at hheads
    exact absurd hheads.1 (ns.innerHeads i hi)

theorem NamespaceOpening.BraceApart.cutAtBrace_eq {ns : NamespaceOpening} (h : ns.BraceApart) :
    cutAtBrace ns.text = rtrim ns.text :=
  congrArg rtrim (List.takeWhile_eq_self_iff.mpr fun _ hch => decide_eq_true fun hbrace => h.first (hbrace ▸ hch))

/-- The front of a namespace whose brace stands apart opens its scope, and nothing before. -/
theorem NamespaceOpening.BraceApart.opens {ns : NamespaceOpening} (h : ns.BraceApart) :
    events {} (exportText ns.exported ++ cutAtBrace ns.text) = [] ∧
      OpensBehind (exportText ns.exported ++ cutAtBrace ns.text) ns.head := by
  have hcut : ns.text = rtrim ns.text ++ ns.text.rtakeWhile isBlank := List.rdropWhile_append_rtakeWhile.symm
  have hsilent := ns.silent
  have hopens := ns.opens
  rw [hcut, ← List.append_assoc, events_append, List.append_eq_nil_iff] at hsilent
  rw [hcut, ← List.append_assoc, lex_append] at hopens
  rw [h.cutAtBrace_eq]
  exact ⟨hsilent.1, opened_behind_space (fun ch => List.mem_rtakeWhile_imp) h.line h.splice hopens⟩

theorem add_new {s : ChainState} {ns : NamespaceDecl} {isExported : Bool} (hnew : s.newGroup ns = true) :
    s.add (ns, isExported) =
      { chain := s.chain ++
          [{ name := String.ofList ns.name, isInline := ns.isInline, isExported,
             lexicalCloseGroup := s.currentGroup + 1, reopenPrefix := String.ofList (namespaceReopenPrefix ns) }]
        currentGroup := s.currentGroup + 1
        currentGroupEnd := ns.rBrace } := by
  simp [ChainState.add, hnew]

end Gentest.Codegen.AttachmentScopes
