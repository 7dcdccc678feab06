import Gentest.Codegen.CommentsHarmless

/-!
# Specifiers with and without comments

Where comments stand only where they are skipped a specifier reads as its attributes
say, and they say the same without the comments.
-/

namespace Gentest.Codegen

open Scanner Trimming

-- ---------------------------------------------------------------------------
-- Attributes spread over a text
-- ---------------------------------------------------------------------------

/-- Attributes with text between them that holds no name. -/
inductive Spread : List AttributeTokens → List Char → Prop
  | nil {text : List Char} : (∀ ch ∈ text, isNameStart ch = false) → Spread [] text
  | cons {a : AttributeTokens} {attributes : List AttributeTokens} {front tail : List Char} :
    (∀ ch ∈ front, isNameStart ch = false) → a.WellFormed → a.Plain → Follows tail → Spread attributes tail →
      Spread (a :: attributes) (front ++ (piecesText a.core ++ tail))

theorem core_ne_nil {a : AttributeTokens} (h : a.WellFormed) : 0 < (piecesText a.core).length := by
  have hfirst := h.first
  cases hname : a.first with
  | nil =>
    rw [hname] at hfirst
    cases hfirst
  | cons ch name => simp [AttributeTokens.core, hname]

theorem Spread.parses {attributes : List AttributeTokens} {text : List Char} (h : Spread attributes text) {list : List Char} :
    ∀ front, list = front ++ text →
      ParsesWithin list text.length text (attributes.map AttributeTokens.parsed) := by
  induction h with
  | @nil text hnames =>
    intro front _
    have hnil := @ParsesWithin.nil list
    have hall := hnil.nameless hnames
    rwa [List.append_nil, Nat.zero_add] at hall
  | @cons a attributes before tail hnames hwell hplain hfollows hspread ih =>
    intro front hlist
    have htail := ih (front ++ before ++ piecesText a.core) (by rw [hlist]; simp)
    have hattribute := ParsesWithin.attribute hwell hplain hfollows (by rw [hlist, ← List.append_assoc]) htail
    have hall := hattribute.nameless hnames
    intro rounds hrounds
    refine hall rounds (le_trans ?_ hrounds)
    have hcore := core_ne_nil hwell
    rw [List.length_append, List.length_append]
    omega

theorem Spread.parseAttributeList {attributes : List AttributeTokens} {text : List Char} (h : Spread attributes text) :
    parseAttributeList text = attributes.map AttributeTokens.parsed :=
  h.parses [] rfl text.length le_rfl

-- ---------------------------------------------------------------------------
-- What follows an attribute
-- ---------------------------------------------------------------------------

theorem follows_gap {gap : List Piece} (hgap : IsGap gap) {rest : List Char} (hrest : rest = [] ∨ rest.head? = some ',') :
    Follows (piecesText gap ++ rest) := by
  induction gap with
  | nil =>
    obtain rfl | hhead := hrest
    · exact ⟨fun _ h => (nomatch h), fun _ h => (nomatch h)⟩
    · cases rest with
      | nil => cases hhead
      | cons ch rest =>
        cases hhead
        exact ⟨endsName_cons (by decide) _, fun ch hch => .inl (Option.some.inj hch).symm⟩
  | cons p gap ih =>
    obtain ⟨hp, hgaps⟩ := List.forall_mem_cons.mp hgap
    cases p with
    | comment c =>
      have htext : ∃ more, piecesText (Piece.comment c :: gap) ++ rest = '/' :: more := by
        cases c with
        | line content newline => exact ⟨_, rfl⟩
        | block content => exact ⟨_, rfl⟩
      obtain ⟨more, htext⟩ := htext
      rw [htext]
      exact ⟨endsName_cons (by decide) _, fun ch hch => .inr (Option.some.inj hch).symm⟩
    | token t =>
      cases t with
      | code ch =>
        have hspace : isSpace ch = true := hp
        refine ⟨endsName_cons (isIdentifierChar_of_isSpace hspace) _, ?_⟩
        have hmore := (ih hgaps).2
        rw [piecesText_cons]
        simpa [Piece.text, Token.text, List.dropWhile_cons_of_pos hspace] using hmore
      | _ => cases hp

theorem Follows.of_start {text short : List Char} (h : Follows text) (hstarts : short <+: text) : Follows short := by
  obtain ⟨rest, rfl⟩ := hstarts
  refine ⟨fun ch hch => h.1 ch ?_, fun ch hch => h.2 ch ?_⟩
  · rw [List.head?_append, hch]
    rfl
  · rw [List.dropWhile_append]
    cases hdrop : short.dropWhile isSpace with
    | nil =>
      rw [hdrop] at hch
      cases hch
    | cons first more =>
      rw [hdrop] at hch
      exact hch

theorem Follows.comma {text : List Char} (h : Follows text) (rest : List Char) : Follows (text ++ ',' :: rest) := by
  refine ⟨fun ch hch => ?_, fun ch hch => ?_⟩
  · cases text with
    | nil =>
      cases hch
      rfl
    | cons first text => exact h.1 ch hch
  · rw [List.dropWhile_append] at hch
    cases hdrop : text.dropWhile isSpace with
    | nil =>
      rw [hdrop] at hch
      cases hch
      exact .inl rfl
    | cons first more =>
      rw [hdrop] at hch
      exact h.2 ch (by rw [hdrop]; exact hch)

-- ---------------------------------------------------------------------------
-- White space at the ends
-- ---------------------------------------------------------------------------

theorem core_front {a : AttributeTokens} (h : a.WellFormed) :
    ∃ ch more, piecesText a.core = ch :: more ∧ isSpace ch = false := by
  have hfirst := h.first
  cases hname : a.first with
  | nil =>
    rw [hname] at hfirst
    cases hfirst
  | cons ch name =>
    rw [hname] at hfirst
    have hch := isSpace_of_isIdentifierChar (isIdentifier_all hfirst ch List.mem_cons_self)
    refine ⟨ch, name ++ piecesText (a.scopes.flatMap AttributeTokens.scopePieces ++ AttributeTokens.callPieces a.call), ?_, hch⟩
    rw [AttributeTokens.core, piecesText_append, piecesText_word, hname]
    rfl

theorem identifier_last {name : List Char} (h : isIdentifier name = true) :
    ∃ front last, name = front ++ [last] ∧ isSpace last = false := by
  obtain rfl | ⟨front, last, rfl⟩ := List.eq_nil_or_concat name
  · cases h
  · rw [List.concat_eq_append] at h ⊢
    exact ⟨front, last, rfl, isSpace_of_isIdentifierChar (isIdentifier_all h last (by simp))⟩

theorem core_last {a : AttributeTokens} (h : a.WellFormed) :
    ∃ front last, piecesText a.core = front ++ [last] ∧ isSpace last = false := by
  cases hcall : a.call with
  | some call =>
    refine ⟨a.first ++ piecesText (a.scopes.flatMap AttributeTokens.scopePieces ++
      (call.1 ++ (Piece.token (.opening '(') :: call.2))), ')', ?_, rfl⟩
    simp [AttributeTokens.core, hcall, AttributeTokens.callPieces, Piece.text, Token.text]
  | none =>
    obtain hscopes | ⟨scopes, s, hscopes⟩ := List.eq_nil_or_concat a.scopes
    · obtain ⟨front, last, hname, hlast⟩ := identifier_last h.first
      refine ⟨front, last, ?_, hlast⟩
      simp [AttributeTokens.core, hcall, hscopes, AttributeTokens.callPieces, hname]
    · rw [List.concat_eq_append] at hscopes
      have hs := (h.scopes s (by rw [hscopes]; simp)).2.2
      obtain ⟨front, last, hname, hlast⟩ := identifier_last hs
      refine ⟨a.first ++ piecesText (scopes.flatMap AttributeTokens.scopePieces ++
        (s.before ++ word [':', ':'] ++ s.behind)) ++ front, last, ?_, hlast⟩
      simp [AttributeTokens.core, hcall, hscopes, AttributeTokens.callPieces, AttributeTokens.scopePieces, hname]

theorem Spread.dropWhile {attributes : List AttributeTokens} {text : List Char} (h : Spread attributes text) :
    Spread attributes (text.dropWhile isSpace) := by
  cases h with
  | nil hnames => exact .nil fun ch hch => hnames ch (List.dropWhile_subset _ hch)
  | @cons a attributes front tail hnames hwell hplain hfollows hspread =>
    obtain ⟨ch, more, hcore, hch⟩ := core_front hwell
    have hself : (piecesText a.core ++ tail).dropWhile isSpace = piecesText a.core ++ tail := by
      rw [hcore]
      exact List.dropWhile_cons_of_neg (by simp [hch])
    rw [List.dropWhile_append, hself]
    split
    · exact @Spread.cons a attributes [] tail (fun _ h => (nomatch h)) hwell hplain hfollows hspread
    · exact .cons (fun ch hch => hnames ch (List.dropWhile_subset _ hch)) hwell hplain hfollows hspread

theorem Spread.rdropWhile {attributes : List AttributeTokens} {text : List Char} (h : Spread attributes text) :
    Spread attributes (text.rdropWhile isSpace) := by
  induction h with
  | nil hnames => exact .nil fun ch hch => hnames ch ((List.rdropWhile_prefix isSpace _).subset hch)
  | @cons a attributes front tail hnames hwell hplain hfollows hspread ih =>
    obtain ⟨before, last, hcore, hlast⟩ := core_last hwell
    have hkept : (front ++ (piecesText a.core ++ tail)).rdropWhile isSpace =
        front ++ (piecesText a.core ++ tail.rdropWhile isSpace) := by
      rw [hcore, List.append_assoc, List.singleton_append, ← List.append_assoc,
        rdropWhile_append_cons hlast]
      simp
    rw [hkept]
    exact .cons hnames hwell hplain (hfollows.of_start (List.rdropWhile_prefix isSpace tail)) ih

theorem Spread.trimView {attributes : List AttributeTokens} {text : List Char} (h : Spread attributes text) :
    Spread attributes (trimView text) :=
  h.dropWhile.rdropWhile

theorem Spread.behind {attributes : List AttributeTokens} {front text : List Char}
    (hfront : ∀ ch ∈ front, isNameStart ch = false) (h : Spread attributes text) : Spread attributes (front ++ text) := by
  cases h with
  | nil hnames => exact .nil fun ch hch => (List.mem_append.mp hch).elim (hfront ch) (hnames ch)
  | @cons a attributes before tail hnames hwell hplain hfollows hspread =>
    rw [← List.append_assoc]
    exact .cons (fun ch hch => (List.mem_append.mp hch).elim (hfront ch) (hnames ch)) hwell hplain hfollows hspread

-- ---------------------------------------------------------------------------
-- Lists of attributes
-- ---------------------------------------------------------------------------

theorem spread_listPieces {attributes : List AttributeTokens} (hwell : ∀ a ∈ attributes, a.WellFormed)
    (hplaced : ∀ a ∈ attributes, Nameless a.lead ∧ a.Plain) :
    Spread attributes (piecesText (listPieces (attributes.map AttributeTokens.pieces))) := by
  induction attributes with
  | nil => exact .nil fun _ h => (nomatch h)
  | cons a attributes ih =>
    obtain ⟨ha, hwell⟩ := List.forall_mem_cons.mp hwell
    obtain ⟨⟨hlead, hplain⟩, hplaced⟩ := List.forall_mem_cons.mp hplaced
    cases attributes with
    | nil =>
      have hfollows := follows_gap ha.behind (.inl (rfl : ([] : List Char) = []))
      rw [List.append_nil] at hfollows
      have hspread := Spread.cons hlead ha hplain hfollows (.nil hplain.behind)
      simpa [AttributeTokens.pieces] using hspread
    | cons next attributes =>
      have hmore := ih hwell hplaced
      generalize htext : piecesText (listPieces ((next :: attributes).map AttributeTokens.pieces)) = text at hmore
      have hcomma : ∀ ch ∈ [','], isNameStart ch = false := by decide
      have htail : Spread (next :: attributes) (piecesText a.behind ++ ',' :: text) :=
        (hmore.behind hcomma).behind hplain.behind
      have hspread := Spread.cons hlead ha hplain (follows_gap ha.behind (.inr (rfl : (',' :: text).head? = some ','))) htail
      rw [List.map_cons] at htext ⊢
      rw [List.map_cons, listPieces_cons, piecesText_append, piecesText_cons, htext]
      simpa [AttributeTokens.pieces, Piece.text, Token.text] using hspread

/-- The text of one of gentest's attributes without the white space around it. -/
theorem trimView_pieces {a : AttributeTokens} (ha : a.WellFormed) (hlead : CommentFree a.lead) :
    trimView (piecesText a.pieces) = piecesText a.core ++ (piecesText a.behind).rdropWhile isSpace := by
  obtain ⟨ch, more, hcore, hch⟩ := core_front ha
  obtain ⟨front, last, hlastCore, hlast⟩ := core_last ha
  have hspaces := spaces_of_gap ha.lead hlead
  rw [trimView_eq, AttributeTokens.pieces, piecesText_append, trim_all_left hspaces, piecesText_append, trim, hcore,
    List.cons_append, List.dropWhile_cons_of_neg (by simp [hch]), ← List.cons_append, ← hcore, hlastCore, List.append_assoc,
    List.singleton_append, rdropWhile_append_cons hlast]
  simp

theorem spread_joinComma {attributes : List AttributeTokens} (hwell : ∀ a ∈ attributes, a.WellFormed)
    (hplain : ∀ a ∈ attributes, CommentFree a.lead ∧ a.Plain) :
    Spread attributes (joinComma (attributes.map fun a => trimView (piecesText a.pieces))) := by
  induction attributes with
  | nil => exact .nil fun _ h => (nomatch h)
  | cons a attributes ih =>
    obtain ⟨ha, hwell⟩ := List.forall_mem_cons.mp hwell
    obtain ⟨⟨hlead, ha'⟩, hplain⟩ := List.forall_mem_cons.mp hplain
    have hbehind : ∀ ch ∈ (piecesText a.behind).rdropWhile isSpace, isNameStart ch = false :=
      fun ch hch => ha'.behind ch ((List.rdropWhile_prefix isSpace _).subset hch)
    have hstarts := List.rdropWhile_prefix isSpace (piecesText a.behind)
    have hfollows := (follows_gap ha.behind (.inl (rfl : ([] : List Char) = []))).of_start (hstarts.trans (by simp))
    rw [List.map_cons, trimView_pieces ha hlead]
    cases attributes with
    | nil =>
      have hspread := @Spread.cons a [] [] _ (fun _ h => (nomatch h)) ha ha' hfollows (.nil hbehind)
      simpa [joinComma] using hspread
    | cons next attributes =>
      have hmore := ih hwell hplain
      have hjoin : ∀ (x : List Char) (y : List Char) (ys : List (List Char)),
          joinComma (x :: y :: ys) = x ++ ',' :: ' ' :: joinComma (y :: ys) := by
        intro x y ys
        simp [joinComma, List.intercalate_cons_cons]
      have hcomma : ∀ ch ∈ [',', ' '], isNameStart ch = false := by decide
      have htail := (hmore.behind hcomma).behind hbehind
      have hspread := @Spread.cons a _ [] _ (fun _ h => (nomatch h)) ha ha' (hfollows.comma _) htail
      rw [List.map_cons] at hspread ⊢
      rw [hjoin]
      simpa using hspread

-- ---------------------------------------------------------------------------
-- Without `using`
-- ---------------------------------------------------------------------------

def ListItem.attributes : ListItem → List AttributeTokens
  | .gentests a => [a]
  | .foreign _ => []

theorem isScoped_gentests {a : AttributeTokens} (ha : a.WellFormed) (hgentests : a.IsGentests)
    (hplain : CommentFree a.lead ∧ a.Plain) : isGentestScopedAttributeToken (piecesText a.pieces) = true := by
  obtain ⟨hfirst, hscopes⟩ := hgentests
  cases hcases : a.scopes with
  | nil => exact absurd hcases hscopes
  | cons s scopes =>
    have hs : s ∈ a.scopes := by
      rw [hcases]
      exact List.mem_cons_self
    have hspaces := spaces_of_gap (ha.scopes s hs).1 (hplain.2.scopes s hs).1
    obtain ⟨more, hmore⟩ : ∃ more, trimView (piecesText a.pieces) =
        gentestName ++ (piecesText s.before ++ ':' :: ':' :: more) := by
      rw [trimView_pieces ha hplain.1, AttributeTokens.core, hcases, hfirst]
      exact ⟨piecesText s.behind ++ (s.name ++ (piecesText (scopes.flatMap AttributeTokens.scopePieces) ++
        (piecesText (AttributeTokens.callPieces a.call) ++ (piecesText a.behind).rdropWhile isSpace))), by
        simp [AttributeTokens.scopePieces]⟩
    have hends := endsName_spaces hspaces (endsName_cons (by decide : isIdentifierChar ':' = false) (':' :: more))
    have hleading : leadingName (gentestName ++ (piecesText s.before ++ ':' :: ':' :: more)) =
        some (gentestName, piecesText s.before ++ ':' :: ':' :: more) :=
      leadingName_append (by decide) hends
    have hdrop : (piecesText s.before ++ ':' :: ':' :: more).dropWhile isSpace = ':' :: ':' :: more := dropWhile_all hspaces _
    rw [isGentestScopedAttributeToken, hmore, hleading]
    simp [hdrop, List.isPrefixOf]

theorem candidatesOf_item {item : ListItem} (hwell : item.WellFormed) (hplain : item.Plain) :
    candidatesOf item.pieces = item.attributes.map fun a => trimView (piecesText a.pieces) := by
  cases item with
  | gentests a => exact if_pos (isScoped_gentests hwell.1 hwell.2 hplain)
  | foreign ps =>
    refine if_neg ?_
    rw [show isGentestScopedAttributeToken (piecesText (ListItem.foreign ps).pieces) = false from hplain]
    exact Bool.false_ne_true

def Piece.isSpacePiece : Piece → Bool
  | .token (.code ch) => isSpace ch
  | _ => false

theorem Piece.text_front {p : Piece} (hspelled : p.Spelled) (h : p.isSpacePiece = false) :
    ∃ ch more, p.text = ch :: more ∧ isSpace ch = false := by
  cases p with
  | comment c =>
    cases c with
    | line content newline => exact ⟨'/', _, rfl, rfl⟩
    | block content => exact ⟨'/', _, rfl, rfl⟩
  | token t =>
    cases t with
    | code ch => exact ⟨ch, [], rfl, h⟩
    | separator => exact ⟨'\'', [], rfl, rfl⟩
    | opening ch =>
      refine ⟨ch, [], rfl, ?_⟩
      simp only [Piece.Spelled, Token.Spelled, isOpening, Bool.or_eq_true, beq_iff_eq] at hspelled
      obtain (rfl | rfl) | rfl := hspelled
      all_goals rfl
    | closing ch =>
      refine ⟨ch, [], rfl, ?_⟩
      simp only [Piece.Spelled, Token.Spelled, isClosing, Bool.or_eq_true, beq_iff_eq] at hspelled
      obtain (rfl | rfl) | rfl := hspelled
      all_goals rfl
    | string body => exact ⟨'"', _, rfl, rfl⟩
    | character body => exact ⟨'\'', _, rfl, rfl⟩
    | raw start delimiter content =>
      have hstarts : ∀ start ∈ rawStringPrefixes, ∃ ch more, start = ch :: more ∧ isSpace ch = false := by
        intro start hstart
        simp only [rawStringPrefixes, List.mem_cons, List.not_mem_nil, or_false] at hstart
        obtain rfl | rfl | rfl | rfl | rfl := hstart
        all_goals exact ⟨_, _, rfl, rfl⟩
      obtain ⟨ch, more, hstart, hch⟩ := hstarts start hspelled.1
      subst hstart
      exact ⟨ch, _, rfl, hch⟩

theorem piecesText_dropWhile {ps : List Piece} (hspelled : ∀ p ∈ ps, p.Spelled) :
    piecesText (ps.dropWhile Piece.isSpacePiece) = (piecesText ps).dropWhile isSpace := by
  induction ps with
  | nil => rfl
  | cons p ps ih =>
    obtain ⟨hp, hps⟩ := List.forall_mem_cons.mp hspelled
    cases hspace : p.isSpacePiece with
    | true =>
      have hsingle : ∃ ch, p.text = [ch] ∧ isSpace ch = true := by
        cases p with
        | comment c => cases hspace
        | token t =>
          cases t with
          | code ch => exact ⟨ch, rfl, hspace⟩
          | _ => cases hspace
      obtain ⟨ch, htext, hch⟩ := hsingle
      rw [List.dropWhile_cons_of_pos hspace, ih hps, piecesText_cons, htext]
      exact (List.dropWhile_cons_of_pos hch).symm
    | false =>
      obtain ⟨ch, more, htext, hch⟩ := Piece.text_front hp hspace
      rw [List.dropWhile_cons_of_neg (by simp [hspace]), piecesText_cons, htext, List.cons_append,
        List.dropWhile_cons_of_neg (by simp [hch])]

theorem listPieces_dropWhile (item : List Piece) (items : List (List Piece)) :
    (listPieces (item :: items)).dropWhile Piece.isSpacePiece =
      listPieces (item.dropWhile Piece.isSpacePiece :: items) := by
  cases items with
  | nil => rw [listPieces_single, listPieces_single]
  | cons next items =>
    rw [listPieces_cons, listPieces_cons]
    exact dropWhile_append_cons rfl _ _

theorem tokensOf_spaces {ps : List Piece} (h : ∀ p ∈ ps, p.isSpacePiece = true) (stack : List Char) :
    inItemAfter stack (tokensOf ps) = some stack := by
  induction ps with
  | nil => rfl
  | cons p ps ih =>
    obtain ⟨hp, hps⟩ := List.forall_mem_cons.mp h
    cases p with
    | comment c => cases hp
    | token t =>
      cases t with
      | code ch =>
        have hsingle := inItemAfter_space (show isSpace ch = true from hp) stack
        have hsplit := inItemAfter_append stack [.code ch] (tokensOf ps)
        rw [hsingle, Option.bind_some, ih hps] at hsplit
        exact hsplit
      | _ => cases hp

theorem IsItem.dropWhile {ps : List Piece} (h : IsItem ps) : IsItem (ps.dropWhile Piece.isSpacePiece) := by
  refine ⟨fun p hp => h.spelled p (List.dropWhile_subset _ hp), ?_⟩
  have hnest := h.nest
  rw [← List.takeWhile_append_dropWhile (p := Piece.isSpacePiece) (l := ps), tokensOf_append, inItemAfter_append,
    tokensOf_spaces fun p hp => List.mem_takeWhile_imp hp] at hnest
  exact hnest

theorem candidatesOf_dropWhile {ps : List Piece} (h : ∀ p ∈ ps, p.Spelled) :
    candidatesOf (ps.dropWhile Piece.isSpacePiece) = candidatesOf ps := by
  have htrim : trimView ((piecesText ps).dropWhile isSpace) = trimView (piecesText ps) := trim_dropWhile _
  unfold candidatesOf
  rw [piecesText_dropWhile h, ← isGentestScopedAttributeToken_trimView, htrim, isGentestScopedAttributeToken_trimView]

theorem misScopedOf_dropWhile {ps : List Piece} (h : ∀ p ∈ ps, p.Spelled) :
    misScopedOf (ps.dropWhile Piece.isSpacePiece) = misScopedOf ps := by
  have htrim : trimView ((piecesText ps).dropWhile isSpace) = trimView (piecesText ps) := trim_dropWhile _
  unfold misScopedOf
  rw [piecesText_dropWhile h, ← isGentestScopedAttributeToken_trimView, ← isKnownGentestUnscopedToken_trimView, htrim,
    isGentestScopedAttributeToken_trimView, isKnownGentestUnscopedToken_trimView]

theorem spelled_listPieces {items : List (List Piece)} (hitems : ∀ ps ∈ items, IsItem ps) :
    ∀ p ∈ listPieces items, p.Spelled := by
  induction items with
  | nil => exact fun _ h => (nomatch h)
  | cons item items ih =>
    obtain ⟨hitem, hrest⟩ := List.forall_mem_cons.mp hitems
    cases items with
    | nil =>
      rw [listPieces_single]
      exact hitem.spelled
    | cons next items =>
      rw [listPieces_cons]
      intro p hp
      obtain hp | hp := List.mem_append.mp hp
      · exact hitem.spelled p hp
      · obtain rfl | hp := List.mem_cons.mp hp
        · exact ⟨by decide, by decide, by decide, by decide⟩
        · exact ih hrest p hp

/-- The payload of a list without the white space around it. -/
theorem extract_items {items : List (List Piece)} (hitems : ∀ ps ∈ items, IsItem ps)
    (hlegible : AllLegible [] [] (listPieces items)) (hne : items.flatMap candidatesOf ≠ []) :
    extractGentestScopedPayload (trimView (piecesText (listPieces items))) =
      (if (items.flatMap candidatesOf).foldl appendCandidate [] = [] then none
        else some ((items.flatMap candidatesOf).foldl appendCandidate []), items.flatMap misScopedOf) := by
  cases items with
  | nil => exact absurd rfl hne
  | cons item items =>
    obtain ⟨hitem, hrest⟩ := List.forall_mem_cons.mp hitems
    have hspelled := spelled_listPieces hitems
    have hlegible' : AllLegible [] [] (listPieces (item.dropWhile Piece.isSpacePiece :: items)) := by
      have hsplit := @List.takeWhile_append_dropWhile _ Piece.isSpacePiece (listPieces (item :: items))
      have hspaces : ∀ ch ∈ (piecesText ((listPieces (item :: items)).takeWhile Piece.isSpacePiece)).reverse,
          isSpace ch = true := by
        intro ch hch
        obtain ⟨p, hp, hch⟩ := List.mem_flatMap.mp (List.mem_reverse.mp hch)
        have hspace := List.mem_takeWhile_imp hp
        cases p with
        | comment c => cases hspace
        | token t =>
          cases t with
          | code space =>
            obtain rfl := List.mem_singleton.mp hch
            exact hspace
          | _ => cases hspace
      rw [← hsplit] at hlegible
      have hback := (allLegible_append.mp hlegible).2
      rw [← List.nil_append ((piecesText _).reverse ++ []), List.append_nil] at hback
      rw [← listPieces_dropWhile]
      exact hback.shortenFront hspaces
    have hitems' : ∀ ps ∈ item.dropWhile Piece.isSpacePiece :: items, IsItem ps :=
      List.forall_mem_cons.mpr ⟨hitem.dropWhile, hrest⟩
    obtain ⟨st, hreads, hcandidates, hmisScoped⟩ := PayloadScan.reads_items hitems' hlegible' [] []
    have htext : trimView (piecesText (listPieces (item :: items))) =
        (piecesText (listPieces (item.dropWhile Piece.isSpacePiece :: items))).rdropWhile isSpace := by
      rw [trimView_eq, trim, ← piecesText_dropWhile hspelled, listPieces_dropWhile]
    have hsame : (item.dropWhile Piece.isSpacePiece :: items).flatMap candidatesOf = (item :: items).flatMap candidatesOf := by
      rw [List.flatMap_cons, List.flatMap_cons, candidatesOf_dropWhile hitem.spelled]
    have hsame' : (item.dropWhile Piece.isSpacePiece :: items).flatMap misScopedOf = (item :: items).flatMap misScopedOf := by
      rw [List.flatMap_cons, List.flatMap_cons, misScopedOf_dropWhile hitem.spelled]
    rw [List.nil_append, hsame] at hcandidates
    rw [List.nil_append, hsame'] at hmisScoped
    rw [extractGentestScopedPayload, htext]
    have hscan : scan PayloadScan.step {} [] ((piecesText (listPieces (item.dropWhile Piece.isSpacePiece :: items))).rdropWhile isSpace) =
        .ok st := by
      have hall := hreads.scan_all
      exact hall
    rw [hscan]
    dsimp only
    rw [hcandidates, hmisScoped]
    simp only [hne, false_or]

-- ---------------------------------------------------------------------------
-- Attributes as items
-- ---------------------------------------------------------------------------

theorem IsItem.append {ps qs : List Piece} (hps : IsItem ps) (hqs : IsItem qs) : IsItem (ps ++ qs) := by
  refine ⟨fun p hp => (List.mem_append.mp hp).elim (hps.spelled p) (hqs.spelled p), ?_⟩
  rw [tokensOf_append, inItemAfter_append, hps.nest]
  exact hqs.nest

/-- Code that opens nothing and is no comma. -/
def PlainCode (ch : Char) : Prop :=
  ch ≠ '"' ∧ ch ≠ '\'' ∧ isOpening ch = false ∧ isClosing ch = false ∧ ch ≠ ','

theorem plainCode_of_identifier {ch : Char} (h : isIdentifierChar ch = true) : PlainCode ch := by
  have hothers : ∀ ch ∈ ['"', '\'', '(', ')', '[', ']', '\x7b', '\x7d', ','], isIdentifierChar ch = false := by decide
  have hne : ∀ other ∈ ['"', '\'', '(', ')', '[', ']', '\x7b', '\x7d', ','], ch ≠ other := by
    rintro other hother rfl
    rw [hothers ch hother] at h
    cases h
  simp only [List.mem_cons, List.not_mem_nil, or_false, forall_eq_or_imp, forall_eq] at hne
  simp [PlainCode, isOpening, isClosing, hne]

theorem plainCode_of_space {ch : Char} (h : isSpace ch = true) : PlainCode ch := by
  have hspaces : ∀ ch ∈ [' ', '\t', '\n', '\x0b', '\x0c', '\r'], PlainCode ch := by
    unfold PlainCode
    decide
  exact hspaces ch (isSpace_cases h)

theorem isItem_code {ch : Char} (h : PlainCode ch) : IsItem [.token (.code ch)] := by
  obtain ⟨hstring, hchar, hopening, hclosing, hcomma⟩ := h
  refine ⟨fun p hp => ?_, ?_⟩
  · rw [List.mem_singleton.mp hp]
    exact ⟨hstring, hchar, hopening, hclosing⟩
  · simp [tokensOf, inItemAfter, Token.inItem, hcomma]

theorem isItem_nil : IsItem [] := ⟨fun _ h => (nomatch h), rfl⟩

theorem isItem_word {name : List Char} (h : ∀ ch ∈ name, PlainCode ch) : IsItem (word name) := by
  induction name with
  | nil => exact isItem_nil
  | cons ch name ih =>
    obtain ⟨hch, hname⟩ := List.forall_mem_cons.mp h
    exact (isItem_code hch).append (ih hname)

theorem isItem_identifier {name : List Char} (h : isIdentifier name = true) : IsItem (word name) :=
  isItem_word fun ch hch => plainCode_of_identifier (isIdentifier_all h ch hch)

theorem isItem_gap {gap : List Piece} (h : IsGap gap) : IsItem gap := by
  induction gap with
  | nil => exact isItem_nil
  | cons p gap ih =>
    obtain ⟨hp, hgaps⟩ := List.forall_mem_cons.mp h
    have hfirst : IsItem [p] := by
      cases p with
      | comment c =>
        refine ⟨fun q hq => ?_, rfl⟩
        rw [List.mem_singleton.mp hq]
        exact hp
      | token t =>
        cases t with
        | code ch => exact isItem_code (plainCode_of_space hp)
        | _ => cases hp
    exact hfirst.append (ih hgaps)

theorem isItem_scopes {scopes : List Scope}
    (h : ∀ s ∈ scopes, IsGap s.before ∧ IsGap s.behind ∧ isIdentifier s.name = true) :
    IsItem (scopes.flatMap AttributeTokens.scopePieces) := by
  induction scopes with
  | nil => exact isItem_nil
  | cons s scopes ih =>
    obtain ⟨⟨hbefore, hbehind, hname⟩, hscopes⟩ := List.forall_mem_cons.mp h
    have hcolons : IsItem (word [':', ':']) := isItem_word (by unfold PlainCode; decide)
    exact ((((isItem_gap hbefore).append hcolons).append (isItem_gap hbehind)).append (isItem_identifier hname)).append
      (ih hscopes)

theorem nest_append {t : Token} {stack stack' : List Char} (h : t.nest stack = some stack') (base : List Char) :
    t.nest (stack ++ base) = some (stack' ++ base) := by
  cases t with
  | closing ch =>
    cases stack with
    | nil => cases h
    | cons closer stack =>
      have hclose : (if ch = closer then some stack else none) = some stack' := h
      split at hclose
      · rename_i hch
        cases hclose
        exact if_pos hch
      · cases hclose
  | _ =>
    cases h
    rfl

theorem inItemAfter_above {ts : List Token} {stack stack' : List Char} (h : nestAfter stack ts = some stack') (closer : Char) :
    inItemAfter (stack ++ [closer]) ts = some (stack' ++ [closer]) := by
  induction ts generalizing stack with
  | nil =>
    cases h
    rfl
  | cons t ts ih =>
    obtain ⟨next, hnext, hrest⟩ := Option.bind_eq_some_iff.mp h
    have hsame : t.inItem (stack ++ [closer]) = t.nest (stack ++ [closer]) := by
      cases t with
      | code ch =>
        cases stack with
        | nil => rfl
        | cons first stack => rfl
      | _ => rfl
    rw [inItemAfter, hsame, nest_append hnext [closer]]
    exact ih hrest

theorem isItem_call {call : Option (List Piece × List Piece)}
    (h : ∀ c ∈ call, IsGap c.1 ∧ (∀ p ∈ c.2, p.Spelled) ∧ nestAfter [] (tokensOf c.2) = some []) :
    IsItem (AttributeTokens.callPieces call) := by
  cases call with
  | none => exact isItem_nil
  | some call =>
    obtain ⟨gap, args⟩ := call
    obtain ⟨hgap, hspelled, hnest⟩ := h _ rfl
    have hargs : IsItem (Piece.token (.opening '(') :: args ++ [Piece.token (.closing ')')]) := by
      refine ⟨fun p hp => ?_, ?_⟩
      · obtain hp | hp := List.mem_append.mp hp
        · obtain rfl | hp := List.mem_cons.mp hp
          · rfl
          · exact hspelled p hp
        · rw [List.mem_singleton.mp hp]
          rfl
      · have habove := inItemAfter_above hnest ')'
        rw [tokensOf_append]
        change inItemAfter [] (Token.opening '(' :: (tokensOf args ++ [Token.closing ')'])) = some []
        rw [inItemAfter]
        change inItemAfter ([] ++ [')']) (tokensOf args ++ [Token.closing ')']) = some []
        rw [inItemAfter_append, habove]
        rfl
    have hall := (isItem_gap hgap).append hargs
    rwa [← List.append_assoc] at hall

theorem isItem_attribute {a : AttributeTokens} (h : a.WellFormed) : IsItem a.pieces :=
  (isItem_gap h.lead).append
    (((isItem_identifier h.first).append ((isItem_scopes h.scopes).append (isItem_call h.call))).append
      (isItem_gap h.behind))

theorem isItem_item {item : ListItem} (h : item.WellFormed) : IsItem item.pieces := by
  cases item with
  | gentests a => exact isItem_attribute h.1
  | foreign ps => exact ⟨h.1, h.2.1⟩

-- ---------------------------------------------------------------------------
-- Specifiers
-- ---------------------------------------------------------------------------

theorem candidatesOf_items {items : List ListItem} (hwell : ∀ item ∈ items, item.WellFormed)
    (hplain : ∀ item ∈ items, item.Plain) :
    (items.map ListItem.pieces).flatMap candidatesOf =
      (items.flatMap ListItem.attributes).map fun a => trimView (piecesText a.pieces) := by
  rw [List.flatMap_map, List.map_flatMap]
  exact List.flatMap_congr fun item hitem => candidatesOf_item (hwell item hitem) (hplain item hitem)

theorem parsed_items (items : List ListItem) :
    items.flatMap ListItem.parsed = (items.flatMap ListItem.attributes).map AttributeTokens.parsed := by
  rw [List.map_flatMap]
  refine List.flatMap_congr fun item _ => ?_
  cases item <;> rfl

/-- What is accepted of a specifier, and the tokens that are reported. -/
def readSpecifier (attributeText : List Char) : Option (List Char × List ParsedAttribute) × List (List Char) :=
  (readAttributes attributeText, (parseAttributeNamespaceAndPayload attributeText).2)

theorem readSpecifier_of_parse {attributeText payload namespaceName : List Char} {misScoped : List (List Char)}
    (h : parseAttributeNamespaceAndPayload attributeText = (some (namespaceName, payload), misScoped)) :
    readSpecifier attributeText = (some (namespaceName, parseAttributeList payload), misScoped) := by
  rw [readSpecifier, readAttributes, h, Option.map_some]

/-- The tokens of a specifier that are reported. -/
def Specifier.misScoped : Specifier → List (List Char)
  | .withUsing .. => []
  | .list items => items.flatMap fun item => misScopedOf item.pieces

theorem read_list {items : List ListItem} (hwell : (Specifier.list items).WellFormed)
    (hplaced : (Specifier.list items).Placed) (hlegible : (Specifier.list items).Legible) :
    readSpecifier (Specifier.list items).text = (some (Specifier.list items).parsed, (Specifier.list items).misScoped) := by
  obtain ⟨hitems, a, ha⟩ := hwell
  obtain ⟨husing, hlegible⟩ := hlegible
  have hcandidates := candidatesOf_items hitems hplaced
  have hattributes : ∀ b ∈ items.flatMap ListItem.attributes, b.WellFormed ∧ CommentFree b.lead ∧ b.Plain := by
    intro b hb
    obtain ⟨item, hitem, hb⟩ := List.mem_flatMap.mp hb
    cases item with
    | gentests c =>
      obtain rfl := List.mem_singleton.mp hb
      exact ⟨(hitems _ hitem).1, hplaced _ hitem⟩
    | foreign ps => cases hb
  cases hlist : items.flatMap ListItem.attributes with
  | nil =>
    have hmem : a ∈ items.flatMap ListItem.attributes := List.mem_flatMap.mpr ⟨_, ha, List.mem_singleton.mpr rfl⟩
    rw [hlist] at hmem
    cases hmem
  | cons first rest =>
    rw [hlist] at hcandidates hattributes
    have hne : (items.map ListItem.pieces).flatMap candidatesOf ≠ [] := by
      rw [hcandidates]
      exact List.cons_ne_nil _ _
    have hspread := spread_joinComma (fun b hb => (hattributes b hb).1) fun b hb => (hattributes b hb).2
    have hfirst : trimView (piecesText first.pieces) ≠ [] := by
      obtain ⟨hfirstWell, hlead, -⟩ := hattributes first List.mem_cons_self
      obtain ⟨ch, more, hcore, -⟩ := core_front hfirstWell
      rw [trimView_pieces hfirstWell hlead, hcore]
      exact List.cons_ne_nil _ _
    have hpayload : ((items.map ListItem.pieces).flatMap candidatesOf).foldl appendCandidate [] =
        joinComma ((first :: rest).map fun b => trimView (piecesText b.pieces)) := by
      rw [hcandidates]
      exact foldl_appendCandidate _ hfirst _
    have hpayloadNe : joinComma ((first :: rest).map fun b => trimView (piecesText b.pieces)) ≠ [] := by
      intro hnil
      rw [hnil] at hspread
      have hparses := hspread.parseAttributeList
      cases hparses
    have hextract := extract_items (fun ps hps => by
      obtain ⟨item, hitem, rfl⟩ := List.mem_map.mp hps
      exact isItem_item (hitems item hitem)) hlegible hne
    rw [hpayload, if_neg hpayloadNe] at hextract
    have hspecifier : parseAttributeSpecifier (trimView (piecesText (listPieces (items.map ListItem.pieces)))) =
        (some (gentestName, joinComma ((first :: rest).map fun b => trimView (piecesText b.pieces))),
          (items.map ListItem.pieces).flatMap misScopedOf) := by
      unfold parseAttributeSpecifier
      rw [if_neg (by rw [show (['u', 's', 'i', 'n', 'g'] : List Char) = usingWord from rfl, husing]; exact Bool.false_ne_true)]
      dsimp only
      rw [hextract]
    have hparse : parseAttributeNamespaceAndPayload (Specifier.list items).text =
        (some (gentestName, joinComma ((first :: rest).map fun b => trimView (piecesText b.pieces))),
          (items.map ListItem.pieces).flatMap misScopedOf) := by
      rw [Specifier.text, Specifier.inner, parse_brackets, hspecifier]
    rw [readSpecifier_of_parse hparse, hspread.parseAttributeList, Specifier.parsed, Specifier.misScoped, parsed_items,
      hlist, List.flatMap_map]

theorem read_using {outer afterUsing beforeColon : List Piece} {namespaceName : List Char}
    {attributes : List AttributeTokens}
    (hwell : (Specifier.withUsing outer afterUsing namespaceName beforeColon attributes).WellFormed)
    (hplaced : (Specifier.withUsing outer afterUsing namespaceName beforeColon attributes).Placed) :
    readSpecifier (Specifier.withUsing outer afterUsing namespaceName beforeColon attributes).text =
      (some (Specifier.withUsing outer afterUsing namespaceName beforeColon attributes).parsed,
        (Specifier.withUsing outer afterUsing namespaceName beforeColon attributes).misScoped) := by
  obtain ⟨houter, hafter, hname, hbefore, hattributes⟩ := hwell
  obtain ⟨houterFree, hafterFree, hbeforeFree, hplain⟩ := hplaced
  have hspread := spread_listPieces hattributes hplain
  generalize htext : piecesText (listPieces (attributes.map AttributeTokens.pieces)) = list at hspread
  have hinner : piecesText (Specifier.withUsing outer afterUsing namespaceName beforeColon attributes).inner =
      piecesText outer ++ (usingWord ++ (piecesText afterUsing ++ (namespaceName ++ (piecesText beforeColon ++ ':' :: list)))) := by
    simp [Specifier.inner, htext]
  have houterSpaces := spaces_of_gap houter houterFree
  have hafterSpaces := spaces_of_gap hafter hafterFree
  have hbeforeSpaces := spaces_of_gap hbefore hbeforeFree
  have hcolon : isSpace ':' = false := by decide
  have hrdrop : ∀ front list : List Char, (front ++ ':' :: list).rdropWhile isSpace = front ++ ':' :: list.rdropWhile isSpace :=
    rdropWhile_append_cons hcolon
  have htrimmed : trimView (piecesText outer ++ (usingWord ++ (piecesText afterUsing ++
      (namespaceName ++ (piecesText beforeColon ++ ':' :: list))))) =
      usingWord ++ (piecesText afterUsing ++ (namespaceName ++ (piecesText beforeColon ++ ':' :: list.rdropWhile isSpace))) := by
    have hfront : (usingWord ++ (piecesText afterUsing ++ (namespaceName ++ (piecesText beforeColon ++ ':' :: list)))).dropWhile
        isSpace = usingWord ++ (piecesText afterUsing ++ (namespaceName ++ (piecesText beforeColon ++ ':' :: list))) := rfl
    rw [trimView_eq, trim_all_left houterSpaces, trim, hfront]
    have hsplit := hrdrop (usingWord ++ (piecesText afterUsing ++ (namespaceName ++ piecesText beforeColon))) list
    simpa using hsplit
  have hview : trimView (piecesText afterUsing ++ (namespaceName ++ (piecesText beforeColon ++ ':' :: list.rdropWhile isSpace))) =
      namespaceName ++ (piecesText beforeColon ++ ':' :: list.rdropWhile isSpace) := by
    rw [trimView_eq, trim_all_left hafterSpaces, trim, dropWhile_identifier hname]
    have hsplit := hrdrop (namespaceName ++ piecesText beforeColon) (list.rdropWhile isSpace)
    rw [List.rdropWhile_idempotent] at hsplit
    simpa using hsplit
  have hends := endsName_spaces hbeforeSpaces (endsName_cons (by decide : isIdentifierChar ':' = false) (list.rdropWhile isSpace))
  have hleading := leadingName_append hname hends
  have hnone : (piecesText beforeColon ++ ':' :: list.rdropWhile isSpace).takeWhile isIdentifierChar = [] := by
    cases hfirst : piecesText beforeColon ++ ':' :: list.rdropWhile isSpace with
    | nil => rfl
    | cons ch more =>
      rw [List.takeWhile_cons_of_neg]
      rw [hends ch (by rw [hfirst]; rfl)]
      exact Bool.false_ne_true
  have htake : (namespaceName ++ (piecesText beforeColon ++ ':' :: list.rdropWhile isSpace)).takeWhile isIdentifierChar =
      namespaceName := by
    rw [List.takeWhile_append_of_pos (isIdentifier_all hname), hnone, List.append_nil]
  have hdrop : (namespaceName ++ (piecesText beforeColon ++ ':' :: list.rdropWhile isSpace)).dropWhile isIdentifierChar =
      piecesText beforeColon ++ ':' :: list.rdropWhile isSpace := by
    have hwhole := @List.takeWhile_append_dropWhile _ isIdentifierChar
      (namespaceName ++ (piecesText beforeColon ++ ':' :: list.rdropWhile isSpace))
    rw [htake] at hwhole
    exact List.append_cancel_left hwhole
  have hargs : trimView (piecesText beforeColon ++ ':' :: list.rdropWhile isSpace) = ':' :: list.rdropWhile isSpace := by
    have hself : (':' :: list.rdropWhile isSpace).dropWhile isSpace = ':' :: list.rdropWhile isSpace :=
      List.dropWhile_cons_of_neg (by simp [hcolon])
    have hsplit := hrdrop [] (list.rdropWhile isSpace)
    rw [List.rdropWhile_idempotent] at hsplit
    rw [trimView_eq, trim_all_left hbeforeSpaces, trim, hself]
    exact hsplit
  have hne : namespaceName ≠ [] := by
    rintro rfl
    cases hname
  have hlist : trimView (list.rdropWhile isSpace) = trimView list := trim_rdropWhile list
  have hspecifier : parseAttributeSpecifier (usingWord ++ (piecesText afterUsing ++
      (namespaceName ++ (piecesText beforeColon ++ ':' :: list.rdropWhile isSpace)))) =
      (some (namespaceName, trimView list), []) := by
    have hstarts : ['u', 's', 'i', 'n', 'g'].isPrefixOf (usingWord ++ (piecesText afterUsing ++
        (namespaceName ++ (piecesText beforeColon ++ ':' :: list.rdropWhile isSpace)))) = true := rfl
    unfold parseAttributeSpecifier
    rw [if_pos hstarts]
    dsimp only
    rw [show List.drop 5 (usingWord ++ (piecesText afterUsing ++
      (namespaceName ++ (piecesText beforeColon ++ ':' :: list.rdropWhile isSpace)))) = piecesText afterUsing ++
      (namespaceName ++ (piecesText beforeColon ++ ':' :: list.rdropWhile isSpace)) from rfl, hview, htake, hdrop, hargs,
      if_neg hne]
    exact congrArg (fun payload => (some (namespaceName, payload), [])) hlist
  have hparse : parseAttributeNamespaceAndPayload
      (Specifier.withUsing outer afterUsing namespaceName beforeColon attributes).text =
      (some (namespaceName, trimView list), []) := by
    rw [Specifier.text, hinner, parse_brackets, htrimmed, hspecifier]
  rw [readSpecifier_of_parse hparse, hspread.trimView.parseAttributeList, Specifier.parsed, Specifier.misScoped]

/-- What a specifier reads as where its comments stand in places that are skipped. -/
theorem read_specifier {s : Specifier} (hwell : s.WellFormed) (hplaced : s.Placed) (hlegible : s.Legible) :
    readSpecifier s.text = (some s.parsed, s.misScoped) := by
  cases s with
  | withUsing outer afterUsing namespaceName beforeColon attributes => exact read_using hwell hplaced
  | list items => exact read_list hwell hplaced hlegible

-- ---------------------------------------------------------------------------
-- Without the comments
-- ---------------------------------------------------------------------------

theorem nameless_withoutComments {ps : List Piece} (h : IsGap ps) : Nameless (withoutComments ps) :=
  nameless_of_gap h.withoutComments (commentFree_withoutComments ps)

theorem AttributeTokens.WellFormed.strip {a : AttributeTokens} (h : a.WellFormed) : a.strip.WellFormed := by
  refine ⟨h.lead.withoutComments, h.first, fun s hs => ?_, fun call hcall => ?_, h.behind.withoutComments⟩
  · obtain ⟨s, hmem, rfl⟩ := List.mem_map.mp hs
    obtain ⟨hbefore, hbehind, hname⟩ := h.scopes s hmem
    exact ⟨hbefore.withoutComments, hbehind.withoutComments, hname⟩
  · obtain ⟨call, hmem, rfl⟩ := Option.map_eq_some_iff.mp hcall
    obtain ⟨hgap, hspelled, hnest⟩ := h.call call hmem
    refine ⟨hgap.withoutComments, fun p hp => hspelled p (List.mem_filter.mp hp).1, ?_⟩
    rw [tokensOf_withoutComments]
    exact hnest

theorem AttributeTokens.Plain.strip {a : AttributeTokens} (hwell : a.WellFormed) (h : a.Plain) : a.strip.Plain := by
  refine ⟨fun s hs => ?_, fun call hcall => ?_, nameless_withoutComments hwell.behind⟩
  · obtain ⟨s, -, rfl⟩ := List.mem_map.mp hs
    exact ⟨commentFree_withoutComments _, commentFree_withoutComments _⟩
  · obtain ⟨call, hmem, rfl⟩ := Option.map_eq_some_iff.mp hcall
    refine ⟨commentFree_withoutComments _, commentFree_withoutComments _, ?_⟩
    rw [tokensOf_withoutComments]
    exact (h.call call hmem).2.2

theorem parsed_strip (a : AttributeTokens) : a.strip.parsed = a.parsed := by
  unfold AttributeTokens.parsed AttributeTokens.strip
  congr 1
  · rw [List.foldl_map]
  · cases a.call with
    | none => rfl
    | some call =>
      dsimp only [Option.map_some]
      rw [tokensOf_withoutComments]

theorem Specifier.WellFormed.strip {s : Specifier} (h : s.WellFormed) : s.strip.WellFormed := by
  cases s with
  | withUsing outer afterUsing namespaceName beforeColon attributes =>
    obtain ⟨houter, hafter, hname, hbefore, hattributes⟩ := h
    refine ⟨houter.withoutComments, hafter.withoutComments, hname, hbefore.withoutComments, fun a ha => ?_⟩
    obtain ⟨a, hmem, rfl⟩ := List.mem_map.mp ha
    exact (hattributes a hmem).strip
  | list items =>
    obtain ⟨hitems, a, ha⟩ := h
    refine ⟨fun item hitem => ?_, a.strip, List.mem_map.mpr ⟨_, ha, rfl⟩⟩
    obtain ⟨item, hmem, rfl⟩ := List.mem_map.mp hitem
    cases item with
    | gentests b =>
      obtain ⟨hb, hfirst, hscopes⟩ := hitems _ hmem
      exact ⟨hb.strip, hfirst, fun hnil => hscopes (List.map_eq_nil_iff.mp hnil)⟩
    | foreign ps =>
      obtain ⟨hspelled, hnest, hscoped⟩ := hitems _ hmem
      refine ⟨fun p hp => hspelled p (List.mem_filter.mp hp).1, ?_, ?_⟩
      · rw [tokensOf_withoutComments]
        exact hnest
      · rw [withoutComments_of_commentFree (commentFree_withoutComments ps)]
        exact hscoped

theorem Specifier.Placed.strip {s : Specifier} (hwell : s.WellFormed) (h : s.Placed) : s.strip.Placed := by
  cases s with
  | withUsing outer afterUsing namespaceName beforeColon attributes =>
    refine ⟨commentFree_withoutComments _, commentFree_withoutComments _, commentFree_withoutComments _, fun a ha => ?_⟩
    obtain ⟨a, hmem, rfl⟩ := List.mem_map.mp ha
    have hattribute := hwell.2.2.2.2 a hmem
    exact ⟨nameless_withoutComments hattribute.lead, (h.2.2.2 a hmem).2.strip hattribute⟩
  | list items =>
    intro item hitem
    obtain ⟨item, hmem, rfl⟩ := List.mem_map.mp hitem
    cases item with
    | gentests a => exact ⟨commentFree_withoutComments _, (h _ hmem).2.strip (hwell.1 _ hmem).1⟩
    | foreign ps => exact (hwell.1 _ hmem).2.2

theorem Specifier.parsed_strip (s : Specifier) : s.strip.parsed = s.parsed := by
  cases s with
  | withUsing outer afterUsing namespaceName beforeColon attributes =>
    unfold Specifier.strip Specifier.parsed
    dsimp only
    rw [List.map_map]
    congr 1
    exact List.map_congr_left fun a _ => Codegen.parsed_strip a
  | list items =>
    unfold Specifier.strip Specifier.parsed
    dsimp only
    rw [List.flatMap_map]
    congr 1
    refine List.flatMap_congr fun item _ => ?_
    cases item with
    | gentests a => exact congrArg ([·]) (Codegen.parsed_strip a)
    | foreign ps => rfl

theorem misScopedOf_strip {item : ListItem} (hwell : item.WellFormed) (hplain : item.Plain) (hbare : item.Bare) :
    misScopedOf item.strip.pieces = misScopedOf item.pieces := by
  cases item with
  | gentests a =>
    have hscoped := isScoped_gentests hwell.1 hwell.2 hplain
    have hstrip := isScoped_gentests hwell.1.strip ⟨hwell.2.1, fun hnil => hwell.2.2 (List.map_eq_nil_iff.mp hnil)⟩
      ⟨commentFree_withoutComments _, hplain.2.strip hwell.1⟩
    simp [misScopedOf, ListItem.strip, ListItem.pieces, hscoped, hstrip]
  | foreign ps =>
    obtain hfree | ⟨hknown, hknown'⟩ := hbare
    · rw [ListItem.strip, withoutComments_of_commentFree hfree]
    · simp [misScopedOf, ListItem.strip, ListItem.pieces, hknown, hknown']

theorem Specifier.misScoped_strip {s : Specifier} (hwell : s.WellFormed) (h : s.Harmless) :
    s.strip.misScoped = s.misScoped := by
  cases s with
  | withUsing outer afterUsing namespaceName beforeColon attributes => rfl
  | list items =>
    unfold Specifier.strip Specifier.misScoped
    dsimp only
    rw [List.flatMap_map]
    exact List.flatMap_congr fun item hitem =>
      misScopedOf_strip (hwell.1 item hitem) (h.placed item hitem) (h.bare item hitem)

/-- Comments that stand where they are skipped leave no trace. -/
theorem read_withoutComments {s : Specifier} (hwell : s.WellFormed) (h : s.Harmless) :
    readSpecifier s.text = readSpecifier s.strip.text := by
  rw [read_specifier hwell h.placed h.legible,
    read_specifier hwell.strip (h.placed.strip hwell) h.stripLegible, Specifier.parsed_strip,
    Specifier.misScoped_strip hwell h]

-- ---------------------------------------------------------------------------
-- Specifiers that can be checked
-- ---------------------------------------------------------------------------

instance decidableCommentSpelled : ∀ c : CommentText, Decidable c.Spelled
  | .line _ _ => inferInstanceAs (Decidable (_ ∧ _))
  | .block _ => inferInstanceAs (Decidable (_ = true))

instance decidablePieceSpelled : ∀ p : Piece, Decidable p.Spelled
  | .token t => inferInstanceAs (Decidable t.Spelled)
  | .comment c => inferInstanceAs (Decidable c.Spelled)

instance decidableInGap : ∀ p : Piece, Decidable p.InGap
  | .token (.code _) => inferInstanceAs (Decidable (_ = true))
  | .token .separator | .token (.opening _) | .token (.closing _) | .token (.string _) | .token (.character _)
  | .token (.raw ..) => isFalse id
  | .comment c => inferInstanceAs (Decidable c.Spelled)

instance (ps : List Piece) : Decidable (IsGap ps) := inferInstanceAs (Decidable (∀ p ∈ ps, p.InGap))

instance (ps : List Piece) : Decidable (Nameless ps) :=
  inferInstanceAs (Decidable (∀ ch ∈ piecesText ps, isNameStart ch = false))

instance (ps : List Piece) : Decidable (CommentFree ps) := inferInstanceAs (Decidable (∀ p ∈ ps, p.isToken = true))

instance decidablePieceLegible (before rest : List Char) : ∀ p : Piece, Decidable (p.Legible before rest)
  | .token (.code _) | .token (.raw ..) | .token .separator | .token (.opening _) | .token (.closing _)
  | .token (.string _) | .token (.character _) =>
    inferInstanceAs (Decidable (_ ∧ _))
  | .comment _ => isTrue trivial

instance decidableAllLegible (rest : List Char) : ∀ (before : List Char) (ps : List Piece), Decidable (AllLegible rest before ps)
  | _, [] => isTrue trivial
  | before, p :: ps =>
    have := decidableAllLegible rest (p.text.reverse ++ before) ps
    inferInstanceAs (Decidable (_ ∧ _))

/-- An attribute of gentest with one string as its argument. -/
def testAttribute (behind : List Piece) : AttributeTokens where
  lead := []
  first := gentestName
  scopes := [⟨[], [], "test".toList⟩]
  call := some ([], [.token (.string ['a'])])
  behind := behind

theorem testAttribute_wellFormed {behind : List Piece} (h : IsGap behind) : (testAttribute behind).WellFormed := by
  refine ⟨fun _ hp => (nomatch hp), rfl, fun s hs => ?_, fun call hcall => ?_, h⟩
  · rw [List.mem_singleton.mp hs]
    decide
  · cases hcall
    decide

theorem testAttribute_gentests (behind : List Piece) : (testAttribute behind).IsGentests :=
  ⟨rfl, List.cons_ne_nil _ _⟩

/-- `[[gentest::test("a")/*1*/, nodiscard/*fast*/]]` -/
def harmlessSpecifier : Specifier :=
  .list [.gentests (testAttribute [.comment (.block ['1'])]),
    .foreign (.token (.code ' ') :: word "nodiscard".toList ++ [.comment (.block "fast".toList)])]

theorem harmlessSpecifier_read : readSpecifier harmlessSpecifier.text = readSpecifier harmlessSpecifier.strip.text := by
  refine read_withoutComments ⟨fun item hitem => ?_, _, List.mem_cons_self⟩ ⟨fun item hitem => ?_, fun item hitem => ?_, ?_, ?_⟩
  · obtain rfl | hitem := List.mem_cons.mp hitem
    · exact ⟨testAttribute_wellFormed (by decide), testAttribute_gentests _⟩
    · rw [List.mem_singleton.mp hitem]
      exact ⟨by decide, by decide, by decide⟩
  · obtain rfl | hitem := List.mem_cons.mp hitem
    · refine ⟨by decide, fun s hs => ?_, fun call hcall => ?_, by decide⟩
      · rw [List.mem_singleton.mp hs]
        decide
      · cases hcall
        decide
    · rw [List.mem_singleton.mp hitem]
      show isGentestScopedAttributeToken _ = false
      decide
  · obtain rfl | hitem := List.mem_cons.mp hitem
    · exact trivial
    · rw [List.mem_singleton.mp hitem]
      exact .inr ⟨by decide, by decide⟩
  · exact ⟨by decide +kernel, by decide +kernel⟩
  · exact ⟨by decide +kernel, by decide +kernel⟩

/-- The word in the comment of `[[gentest::test("a")/*fast*/]]` becomes an attribute. -/
theorem comment_becomes_attribute :
    ∃ s : Specifier, s.WellFormed ∧ s.text = "[[gentest::test(\"a\")/*fast*/]]".toList ∧
      readSpecifier s.strip.text = (some (gentestName, [⟨"test".toList, [['a']]⟩]), []) ∧
      readSpecifier s.text = (some (gentestName, [⟨"test".toList, [['a']]⟩, ⟨"fast".toList, []⟩]), []) := by
  refine ⟨.list [.gentests (testAttribute [.comment (.block "fast".toList)])], ⟨fun item hitem => ?_, _, List.mem_cons_self⟩,
    by decide, by decide +kernel, by decide +kernel⟩
  rw [List.mem_singleton.mp hitem]
  exact ⟨testAttribute_wellFormed (by decide), testAttribute_gentests _⟩

end Gentest.Codegen
