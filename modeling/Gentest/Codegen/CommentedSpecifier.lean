import Gentest.Codegen.ArgumentLiterals

/-!
# Attribute specifiers with comments

An attribute specifier as tokens with white space and comments in any place between
them. Comments are known to the scanner that picks gentest's part out of a list, not
to what reads a namespace, a name or arguments: only behind an attribute, in front
of names where no such scanner runs, and in attributes that are dropped do they
stay without a trace, the first two only if they hold no letter.
-/

namespace Gentest.Codegen

open Scanner

-- ---------------------------------------------------------------------------
-- Tokens and comments
-- ---------------------------------------------------------------------------

inductive CommentText
  | line (content : List Char) (newline : Char)
  | block (content : List Char)

/-- The content holds no end of the comment. -/
def blockContent : List Char → Bool
  | [] => true
  | ch :: rest => !(ch == '*' && rest.head? == some '/') && blockContent rest

def CommentText.text : CommentText → List Char
  | .line content newline => '/' :: '/' :: (content ++ [newline])
  | .block content => '/' :: '*' :: (content ++ ['*', '/'])

def isNewline (ch : Char) : Bool := ch == '\n' || ch == '\r'

def CommentText.Spelled : CommentText → Prop
  | .line content newline => (∀ ch ∈ content, isNewline ch = false) ∧ isNewline newline = true
  | .block content => blockContent content = true

inductive Piece
  | token (t : Token)
  | comment (c : CommentText)

namespace Piece

def text : Piece → List Char
  | .token t => t.text
  | .comment c => c.text

def Spelled : Piece → Prop
  | .token t => t.Spelled
  | .comment c => c.Spelled

def isToken : Piece → Bool
  | .token _ => true
  | .comment _ => false

/-- White space or a comment. -/
def InGap : Piece → Prop
  | .token (.code ch) => isSpace ch = true
  | .token _ => False
  | .comment c => c.Spelled

end Piece

def piecesText (ps : List Piece) : List Char := ps.flatMap Piece.text

def withoutComments (ps : List Piece) : List Piece := ps.filter Piece.isToken

def tokensOf : List Piece → List Token
  | [] => []
  | .token t :: ps => t :: tokensOf ps
  | .comment _ :: ps => tokensOf ps

def word (name : List Char) : List Piece := name.map fun ch => .token (.code ch)

def IsGap (ps : List Piece) : Prop := ∀ p ∈ ps, p.InGap

/-- No byte of it starts a name. -/
def Nameless (ps : List Piece) : Prop := ∀ ch ∈ piecesText ps, isNameStart ch = false

def CommentFree (ps : List Piece) : Prop := ∀ p ∈ ps, p.isToken = true

-- ---------------------------------------------------------------------------
-- Attributes
-- ---------------------------------------------------------------------------

/-- `::` and a further name. -/
structure Scope where
  before : List Piece
  behind : List Piece
  name : List Char

structure AttributeTokens where
  lead : List Piece
  first : List Char
  scopes : List Scope
  /-- What stands in front of the parenthesis and inside. -/
  call : Option (List Piece × List Piece)
  behind : List Piece

namespace AttributeTokens

def scopePieces (s : Scope) : List Piece := s.before ++ word [':', ':'] ++ s.behind ++ word s.name

def callPieces : Option (List Piece × List Piece) → List Piece
  | none => []
  | some (gap, args) => gap ++ (Piece.token (.opening '(') :: args) ++ [Piece.token (.closing ')')]

/-- From the name to the parenthesis behind the arguments. -/
def core (a : AttributeTokens) : List Piece := word a.first ++ (a.scopes.flatMap scopePieces ++ callPieces a.call)

def pieces (a : AttributeTokens) : List Piece := a.lead ++ (a.core ++ a.behind)

def strip (a : AttributeTokens) : AttributeTokens where
  lead := withoutComments a.lead
  first := a.first
  scopes := a.scopes.map fun s => ⟨withoutComments s.before, withoutComments s.behind, s.name⟩
  call := a.call.map fun call => (withoutComments call.1, withoutComments call.2)
  behind := withoutComments a.behind

structure WellFormed (a : AttributeTokens) : Prop where
  lead : IsGap a.lead
  first : isIdentifier a.first = true
  scopes : ∀ s ∈ a.scopes, IsGap s.before ∧ IsGap s.behind ∧ isIdentifier s.name = true
  call : ∀ call ∈ a.call, IsGap call.1 ∧ (∀ p ∈ call.2, p.Spelled) ∧ nestAfter [] (tokensOf call.2) = some []
  behind : IsGap a.behind

/-- gentest's in a list without `using`. -/
def IsGentests (a : AttributeTokens) : Prop := a.first = gentestName ∧ a.scopes ≠ []

/-- No comment from the name to the parenthesis behind the arguments, no name in the
ones behind, and arguments whose parenthesis is found. -/
structure Plain (a : AttributeTokens) : Prop where
  scopes : ∀ s ∈ a.scopes, CommentFree s.before ∧ CommentFree s.behind
  call : ∀ call ∈ a.call, CommentFree call.1 ∧ CommentFree call.2 ∧ Found [')'] ['('] (tokensOf call.2)
  behind : Nameless a.behind

def resolve (name scopedName : List Char) : List Char :=
  if name = gentestName then scopedName else name ++ [':', ':'] ++ scopedName

def parsed (a : AttributeTokens) : ParsedAttribute where
  name := a.scopes.foldl (fun name s => resolve name s.name) a.first
  arguments := match a.call with
    | none => []
    | some (_, args) => splitArguments (tokensText (tokensOf args))

end AttributeTokens

-- ---------------------------------------------------------------------------
-- Specifiers
-- ---------------------------------------------------------------------------

def listPieces (items : List (List Piece)) : List Piece := [Piece.token (.code ',')].intercalate items

/-- A comma stands inside of brackets only. -/
def Token.inItem (t : Token) (stack : List Char) : Option (List Char) :=
  match t, stack with
  | .code ch, [] => if ch = ',' then none else some []
  | t, stack => t.nest stack

def inItemAfter : List Char → List Token → Option (List Char)
  | stack, [] => some stack
  | stack, t :: ts => (t.inItem stack).bind (inItemAfter · ts)

inductive ListItem
  | gentests (a : AttributeTokens)
  | foreign (ps : List Piece)

namespace ListItem

def pieces : ListItem → List Piece
  | .gentests a => a.pieces
  | .foreign ps => ps

def strip : ListItem → ListItem
  | .gentests a => .gentests a.strip
  | .foreign ps => .foreign (withoutComments ps)

def WellFormed : ListItem → Prop
  | .gentests a => a.WellFormed ∧ a.IsGentests
  | .foreign ps => (∀ p ∈ ps, p.Spelled) ∧ inItemAfter [] (tokensOf ps) = some [] ∧
    isGentestScopedAttributeToken (piecesText (withoutComments ps)) = false

def Plain : ListItem → Prop
  | .gentests a => CommentFree a.lead ∧ a.Plain
  | .foreign ps => isGentestScopedAttributeToken (piecesText ps) = false

def parsed : ListItem → List ParsedAttribute
  | .gentests a => [a.parsed]
  | .foreign _ => []

end ListItem

inductive Specifier
  /-- `using` with a namespace for all attributes. -/
  | withUsing (outer afterUsing : List Piece) (namespaceName : List Char) (beforeColon : List Piece)
    (attributes : List AttributeTokens)
  | list (items : List ListItem)

def usingWord : List Char := ['u', 's', 'i', 'n', 'g']

namespace Specifier

def inner : Specifier → List Piece
  | .withUsing outer afterUsing namespaceName beforeColon attributes =>
    outer ++ (word usingWord ++ afterUsing ++ word namespaceName ++ beforeColon ++ word [':'] ++
      listPieces (attributes.map AttributeTokens.pieces))
  | .list items => listPieces (items.map ListItem.pieces)

def text (s : Specifier) : List Char := brackets (piecesText s.inner)

def strip : Specifier → Specifier
  | .withUsing outer afterUsing namespaceName beforeColon attributes =>
    .withUsing (withoutComments outer) (withoutComments afterUsing) namespaceName (withoutComments beforeColon)
      (attributes.map AttributeTokens.strip)
  | .list items => .list (items.map ListItem.strip)

/-- A specifier with an attribute of gentest. -/
def WellFormed : Specifier → Prop
  | .withUsing outer afterUsing namespaceName beforeColon attributes =>
    IsGap outer ∧ IsGap afterUsing ∧ isIdentifier namespaceName = true ∧ IsGap beforeColon ∧
      ∀ a ∈ attributes, a.WellFormed
  | .list items => (∀ item ∈ items, item.WellFormed) ∧ ∃ a, ListItem.gentests a ∈ items

def parsed : Specifier → List Char × List ParsedAttribute
  | .withUsing _ _ namespaceName _ attributes => (namespaceName, attributes.map AttributeTokens.parsed)
  | .list items => (gentestName, items.flatMap ListItem.parsed)

end Specifier

-- ---------------------------------------------------------------------------
-- What the scanners make of it
-- ---------------------------------------------------------------------------

/-- The scanner that knows comments sees the token as what it is. -/
def Token.Legible (before rest : List Char) (t : Token) : Prop :=
  t.ReadsApostrophe before rest ∧
    match t with
    | .code ch => tryStartRawString (ch :: rest) = none ∧ ¬(ch = '/' ∧ (rest.head? = some '/' ∨ rest.head? = some '*'))
    | .raw _ delimiter _ => '"' ∉ delimiter
    | _ => True

def Piece.Legible (before rest : List Char) : Piece → Prop
  | .token t => t.Legible before rest
  | .comment _ => True

def AllLegible (rest : List Char) : List Char → List Piece → Prop
  | _, [] => True
  | before, p :: ps => p.Legible before (piecesText ps ++ rest) ∧ AllLegible rest (p.text.reverse ++ before) ps

/-- The list does not start with the bytes of `using`, and its tokens are legible. -/
def Specifier.Legible : Specifier → Prop
  | .withUsing .. => True
  | .list items =>
    usingWord.isPrefixOf (trimView (piecesText (listPieces (items.map ListItem.pieces)))) = false ∧
      AllLegible [] [] (listPieces (items.map ListItem.pieces))

/-- Comments stand where they are skipped. -/
def Specifier.Placed : Specifier → Prop
  | .withUsing outer afterUsing _ beforeColon attributes =>
    CommentFree outer ∧ CommentFree afterUsing ∧ CommentFree beforeColon ∧ ∀ a ∈ attributes, Nameless a.lead ∧ a.Plain
  | .list items => ∀ item ∈ items, item.Plain

/-- A token that is reported for want of its namespace is reported with its comments. -/
def ListItem.Bare : ListItem → Prop
  | .gentests _ => True
  | .foreign ps => CommentFree ps ∨
    (isKnownGentestUnscopedToken (piecesText ps) = false ∧
      isKnownGentestUnscopedToken (piecesText (withoutComments ps)) = false)

/-- No comment changes which tokens are reported. -/
def Specifier.Bare : Specifier → Prop
  | .withUsing .. => True
  | .list items => ∀ item ∈ items, item.Bare

structure Specifier.Harmless (s : Specifier) : Prop where
  placed : s.Placed
  bare : s.Bare
  legible : s.Legible
  stripLegible : s.strip.Legible

-- ---------------------------------------------------------------------------
-- Texts
-- ---------------------------------------------------------------------------

@[simp] theorem piecesText_nil : piecesText [] = [] := rfl

@[simp] theorem piecesText_cons (p : Piece) (ps : List Piece) : piecesText (p :: ps) = p.text ++ piecesText ps := rfl

@[simp] theorem piecesText_append (ps qs : List Piece) : piecesText (ps ++ qs) = piecesText ps ++ piecesText qs :=
  List.flatMap_append

@[simp] theorem piecesText_word (name : List Char) : piecesText (word name) = name := by
  induction name with
  | nil => rfl
  | cons ch name ih => exact congrArg (ch :: ·) ih

theorem piecesText_of_commentFree {ps : List Piece} (h : CommentFree ps) : piecesText ps = tokensText (tokensOf ps) := by
  induction ps with
  | nil => rfl
  | cons p ps ih =>
    obtain ⟨hp, hps⟩ := List.forall_mem_cons.mp h
    cases p with
    | token t =>
      rw [piecesText_cons, ih hps]
      rfl
    | comment c => cases hp

@[simp] theorem listPieces_nil : listPieces [] = [] := rfl

@[simp] theorem listPieces_single (item : List Piece) : listPieces [item] = item := List.intercalate_singleton

@[simp] theorem listPieces_cons (item next : List Piece) (items : List (List Piece)) :
    listPieces (item :: next :: items) = item ++ Piece.token (.code ',') :: listPieces (next :: items) := by
  simp [listPieces, List.intercalate_cons_cons]

theorem commentFree_withoutComments (ps : List Piece) : CommentFree (withoutComments ps) :=
  fun _ hp => (List.mem_filter.mp hp).2

theorem IsGap.withoutComments {ps : List Piece} (h : IsGap ps) : IsGap (withoutComments ps) :=
  fun p hp => h p (List.mem_filter.mp hp).1

theorem tokensOf_withoutComments (ps : List Piece) : tokensOf (withoutComments ps) = tokensOf ps := by
  induction ps with
  | nil => rfl
  | cons p ps ih =>
    cases p with
    | token t => exact congrArg (t :: ·) ih
    | comment c => exact ih

theorem mem_of_mem_tokensOf {ps : List Piece} {t : Token} (h : t ∈ tokensOf ps) : Piece.token t ∈ ps := by
  induction ps with
  | nil => cases h
  | cons p ps ih =>
    cases p with
    | token u =>
      obtain rfl | h := List.mem_cons.mp h
      · exact List.mem_cons_self
      · exact List.mem_cons_of_mem _ (ih h)
    | comment c => exact List.mem_cons_of_mem _ (ih h)

theorem withoutComments_of_commentFree {ps : List Piece} (h : CommentFree ps) : withoutComments ps = ps :=
  List.filter_eq_self.mpr h

theorem spaces_of_gap {ps : List Piece} (hgap : IsGap ps) (hfree : CommentFree ps) :
    ∀ ch ∈ piecesText ps, isSpace ch = true := by
  intro ch hch
  obtain ⟨p, hp, hch⟩ := List.mem_flatMap.mp hch
  have hspace := hgap p hp
  cases p with
  | comment c => cases hfree _ hp
  | token t =>
    cases t with
    | code space =>
      obtain rfl := List.mem_singleton.mp hch
      exact hspace
    | _ => cases hspace

theorem isNameStart_of_isSpace {ch : Char} (h : isSpace ch = true) : isNameStart ch = false := by
  rw [← Bool.not_eq_true]
  intro hname
  rw [isSpace_of_isIdentifierChar (isIdentifierChar_of_isNameStart hname)] at h
  cases h

theorem nameless_of_gap {ps : List Piece} (hgap : IsGap ps) (hfree : CommentFree ps) : Nameless ps :=
  fun ch hch => isNameStart_of_isSpace (spaces_of_gap hgap hfree ch hch)

end Gentest.Codegen
