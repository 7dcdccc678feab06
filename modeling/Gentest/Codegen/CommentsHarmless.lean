import Gentest.Codegen.PayloadReads

/-!
# Comments that leave no trace

What a specifier reads as is told from its attributes alone when comments stand only
where they are skipped: the same then with and without them.
-/

namespace Gentest.Codegen

open Scanner Trimming

-- ---------------------------------------------------------------------------
-- The arguments of one attribute
-- ---------------------------------------------------------------------------

theorem detectRawStringStart_some {text : List Char} {found : RawStringStart} (h : detectRawStringStart text = some found) :
    ∃ start ∈ rawStringPrefixes, ∃ delimiter more, text = start ++ (delimiter ++ '(' :: more) ∧
      ∀ ch ∈ delimiter, ch ≠ '(' ∧ ch ≠ ')' ∧ ch ≠ '\\' ∧ isSpace ch = false := by
  unfold detectRawStringStart at h
  split at h
  · cases h
  · rename_i start hfind
    obtain ⟨delimiter, hdelimiter, -⟩ := Option.map_eq_some_iff.mp h
    have hstarts : start.isPrefixOf text = true := by simpa using List.find?_some hfind
    obtain ⟨behind, rfl⟩ := List.isPrefixOf_iff_prefix.mp hstarts
    rw [List.drop_left] at hdelimiter
    simp only [rawDelimiter, Bool.and_eq_true, List.all_eq_true, List.contains_iff_mem, Option.ite_none_right_eq_some,
      Option.some.injEq] at hdelimiter
    obtain ⟨⟨hall, hmem⟩, rfl⟩ := hdelimiter
    obtain ⟨more, hmore⟩ := dropWhile_paren hmem
    refine ⟨start, List.mem_of_find?_eq_some hfind, behind.takeWhile (· != '('), more, ?_, fun ch hch => ?_⟩
    · rw [← hmore, List.takeWhile_append_dropWhile]
    · have hallowed := hall ch hch
      have hopen := List.mem_takeWhile_imp hch
      simp only [bne_iff_ne, ne_eq, Bool.not_eq_true'] at hallowed hopen
      exact ⟨hopen, hallowed.1.2, hallowed.1.1, hallowed.2⟩

theorem prefix_of_append_cons {α : Type*} {x y t tail : List α} {a : α} (h : x ++ y = t ++ a :: tail) (ha : a ∉ x) :
    ∃ more, t = x ++ more := by
  obtain ⟨more, ht, -⟩ | ⟨more, rfl, htail⟩ := List.append_eq_append_iff.mp h
  · exact ⟨more, ht⟩
  · cases more with
    | nil => exact ⟨[], by simp⟩
    | cons b more =>
      obtain rfl := (List.cons.inj htail).1
      exact absurd (by simp) ha

/-- A raw string does not start in front of a parenthesis and end its start behind it. -/
theorem detectRawStringStart_paren {text tail : List Char} (h : detectRawStringStart (text ++ [')']) = none) :
    detectRawStringStart (text ++ ')' :: tail) = none := by
  by_contra hsome
  obtain ⟨found, hfound⟩ := Option.ne_none_iff_exists'.mp hsome
  obtain ⟨start, hstart, delimiter, more, hsplit, hdelimiter⟩ := detectRawStringStart_some hfound
  have hclean : ')' ∉ start ++ (delimiter ++ ['(']) := by
    have hstarts : ∀ start ∈ rawStringPrefixes, ')' ∉ start := by decide
    simp only [List.mem_append, List.mem_singleton, not_or]
    exact ⟨hstarts start hstart, fun hmem => (hdelimiter _ hmem).2.1 rfl, by decide⟩
  have hsplit : start ++ (delimiter ++ ['(']) ++ more = text ++ ')' :: tail := by
    rw [hsplit]
    simp
  obtain ⟨behind, rfl⟩ := prefix_of_append_cons hsplit hclean
  have hdetect := detectRawStringStart_raw hstart hdelimiter (behind ++ [')'])
  have htext : start ++ (delimiter ++ ['(']) ++ behind ++ [')'] = start ++ (delimiter ++ '(' :: (behind ++ [')'])) := by simp
  rw [htext, hdetect] at h
  cases h

/-- What is found between parentheses on their own is found in any text. -/
theorem Found.paren {ts : List Token} {before front tail : List Char} (h : Found [')'] (before ++ ['(']) ts) :
    Found (')' :: tail) (before ++ '(' :: front) ts := by
  induction ts generalizing before with
  | nil => trivial
  | cons t ts ih =>
    obtain ⟨⟨hraw, happ⟩, hmore⟩ := h
    have hfront : ∀ rest, shouldEnterCharLiteral (before ++ '(' :: front) rest =
        shouldEnterCharLiteral (before ++ ['(']) rest := fun rest =>
      (shouldEnterCharLiteral_front (by decide) before front rest).trans
        (shouldEnterCharLiteral_front (by decide) before [] rest).symm
    have hhead : (tokensText ts ++ ')' :: tail).head? = (tokensText ts ++ [')']).head? := by
      cases tokensText ts with
      | nil => rfl
      | cons ch text => rfl
    rw [← List.append_assoc] at hmore
    refine ⟨⟨?_, ?_⟩, by rw [← List.append_assoc]; exact ih hmore⟩
    · cases t with
      | code ch => exact @detectRawStringStart_paren (ch :: tokensText ts) _ hraw
      | _ => trivial
    · cases t with
      | separator => exact (hfront _).trans ((shouldEnterCharLiteral_congr hhead _).trans happ)
      | character body =>
        refine (hfront _).trans ((shouldEnterCharLiteral_congr ?_ _).trans happ)
        cases body with
        | nil => rfl
        | cons ch body => rfl
      | _ => trivial

theorem readArguments_tokens {ts : List Token} (hspelled : ∀ t ∈ ts, t.Spelled) (hnest : nestAfter [] ts = some [])
    (hfound : Found [')'] ['('] ts) (front tail : List Char) :
    readArguments (front ++ '(' :: (tokensText ts ++ ')' :: tail)) ('(' :: (tokensText ts ++ ')' :: tail)) =
      (splitArguments (tokensText ts), tail) := by
  have hbefore : textBefore (front ++ '(' :: (tokensText ts ++ ')' :: tail)) (tokensText ts ++ ')' :: tail) =
      '(' :: front.reverse := by
    have hsplit : front ++ '(' :: (tokensText ts ++ ')' :: tail) = (front ++ ['(']) ++ (tokensText ts ++ ')' :: tail) := by
      simp
    rw [textBefore, hsplit, List.length_append, Nat.add_sub_cancel, List.take_left]
    simp
  have hround : roundsAfter 1 ts = some 1 := roundsAfter_of_nestAfter hspelled hnest
  have hparen : Found (')' :: tail) ('(' :: front.reverse) ts := @Found.paren _ [] _ _ hfound
  have hscan := (ClosingScan.marked_tokens hspelled hround hparen []).reads.scan_append
  have hclose : scan ClosingScan.step (ClosingScan.outside 1 (tokensText ts)) ((tokensText ts).reverse ++ '(' :: front.reverse)
      (')' :: tail) = .error (tokensText ts, tail) := rfl
  rw [List.nil_append, hclose] at hscan
  have hstart : ClosingScan.outside 1 [] = {} := rfl
  rw [hstart] at hscan
  rw [readArguments, hbefore, hscan]

-- ---------------------------------------------------------------------------
-- One attribute
-- ---------------------------------------------------------------------------

/-- A text that ends an attribute. -/
def Follows (text : List Char) : Prop :=
  EndsName text ∧ ∀ ch, (text.dropWhile isSpace).head? = some ch → ch = ',' ∨ ch = '/'

def NoScope (text : List Char) : Prop := ∀ inner, text.dropWhile isSpace ≠ ':' :: ':' :: inner

theorem isIdentifierChar_of_isSpace {ch : Char} (h : isSpace ch = true) : isIdentifierChar ch = false := by
  rw [← Bool.not_eq_true]
  intro hidentifier
  rw [isSpace_of_isIdentifierChar hidentifier] at h
  cases h

theorem endsName_spaces {spaces rest : List Char} (hspaces : ∀ ch ∈ spaces, isSpace ch = true) (h : EndsName rest) :
    EndsName (spaces ++ rest) := by
  cases spaces with
  | nil => exact h
  | cons ch spaces =>
    rintro next hnext
    cases hnext
    exact isIdentifierChar_of_isSpace (hspaces ch List.mem_cons_self)

theorem endsName_cons {ch : Char} (h : isIdentifierChar ch = false) (rest : List Char) : EndsName (ch :: rest) := by
  rintro next hnext
  cases hnext
  exact h

theorem dropWhile_identifier {name : List Char} (h : isIdentifier name = true) (rest : List Char) :
    (name ++ rest).dropWhile isSpace = name ++ rest := by
  cases name with
  | nil => cases h
  | cons ch name =>
    have hspace := isSpace_of_isIdentifierChar (isIdentifier_all h ch List.mem_cons_self)
    exact List.dropWhile_cons_of_neg (by simp [hspace])

theorem scopes_endsName {scopes : List Scope} (hgaps : ∀ s ∈ scopes, IsGap s.before ∧ IsGap s.behind ∧ isIdentifier s.name = true)
    (hfree : ∀ s ∈ scopes, CommentFree s.before ∧ CommentFree s.behind) {rest : List Char} (h : EndsName rest) :
    EndsName (piecesText (scopes.flatMap AttributeTokens.scopePieces) ++ rest) := by
  cases scopes with
  | nil => exact h
  | cons s scopes =>
    have hspaces := spaces_of_gap (hgaps s List.mem_cons_self).1 (hfree s List.mem_cons_self).1
    have hcolon := endsName_cons (by decide : isIdentifierChar ':' = false)
      (':' :: (piecesText s.behind ++ (s.name ++ (piecesText (scopes.flatMap AttributeTokens.scopePieces) ++ rest))))
    simpa [AttributeTokens.scopePieces] using endsName_spaces hspaces hcolon

theorem readScopes_scopes {scopes : List Scope}
    (hgaps : ∀ s ∈ scopes, IsGap s.before ∧ IsGap s.behind ∧ isIdentifier s.name = true)
    (hfree : ∀ s ∈ scopes, CommentFree s.before ∧ CommentFree s.behind) {rest : List Char} (hends : EndsName rest)
    (hnone : NoScope rest) {rounds : Nat} (hrounds : scopes.length ≤ rounds) (name : List Char) :
    readScopes rounds name (piecesText (scopes.flatMap AttributeTokens.scopePieces) ++ rest) =
      (scopes.foldl (fun name s => AttributeTokens.resolve name s.name) name, rest) := by
  induction scopes generalizing rounds name with
  | nil =>
    cases rounds with
    | zero => rfl
    | succ rounds =>
      simp only [List.flatMap_nil, piecesText_nil, List.nil_append, List.foldl_nil, readScopes]
      split
      · rename_i inner hinner
        exact absurd hinner (hnone inner)
      · rfl
  | cons s scopes ih =>
    obtain ⟨⟨hbefore, hbehind, hname⟩, hgaps⟩ := List.forall_mem_cons.mp hgaps
    obtain ⟨⟨hfreeBefore, hfreeBehind⟩, hfree⟩ := List.forall_mem_cons.mp hfree
    obtain ⟨rounds, rfl⟩ : ∃ n, rounds = n + 1 := ⟨rounds - 1, by rw [List.length_cons] at hrounds; omega⟩
    have htext : piecesText ((s :: scopes).flatMap AttributeTokens.scopePieces) ++ rest = piecesText s.before ++
        ':' :: ':' :: (piecesText s.behind ++ (s.name ++ (piecesText (scopes.flatMap AttributeTokens.scopePieces) ++ rest))) := by
      simp [AttributeTokens.scopePieces]
    have hfirst : (piecesText s.before ++ ':' :: ':' :: (piecesText s.behind ++
        (s.name ++ (piecesText (scopes.flatMap AttributeTokens.scopePieces) ++ rest)))).dropWhile isSpace =
        ':' :: ':' :: (piecesText s.behind ++ (s.name ++ (piecesText (scopes.flatMap AttributeTokens.scopePieces) ++ rest))) :=
      dropWhile_all (spaces_of_gap hbefore hfreeBefore) _
    have hsecond : (piecesText s.behind ++ (s.name ++ (piecesText (scopes.flatMap AttributeTokens.scopePieces) ++
        rest))).dropWhile isSpace = s.name ++ (piecesText (scopes.flatMap AttributeTokens.scopePieces) ++ rest) :=
      (dropWhile_all (spaces_of_gap hbehind hfreeBehind) _).trans (dropWhile_identifier hname _)
    have hleading := leadingName_append hname (scopes_endsName hgaps hfree hends)
    rw [htext, readScopes, hfirst]
    simp only [hsecond, hleading]
    exact ih hgaps hfree (by simpa using hrounds) _

-- ---------------------------------------------------------------------------
-- The loop over attributes
-- ---------------------------------------------------------------------------

/-- A number of rounds that is enough. -/
def ParsesWithin (list : List Char) (n : Nat) (text : List Char) (attributes : List ParsedAttribute) : Prop :=
  ∀ rounds, n ≤ rounds → parseAttributes list rounds text = attributes

variable {list : List Char} {n : Nat} {attributes : List ParsedAttribute}

theorem parseAttributes_dropWhile (rounds : Nat) (text : List Char) :
    parseAttributes list rounds (text.dropWhile isSpace) = parseAttributes list rounds text := by
  cases rounds with
  | zero => rfl
  | succ rounds => rw [parseAttributes, parseAttributes, List.dropWhile_idempotent]

theorem parseAttributes_name {text name rest : List Char} (hdrop : text.dropWhile isSpace = text)
    (hleading : leadingName text = some (name, rest)) (rounds : Nat) :
    parseAttributes list (rounds + 1) text =
      ⟨(readScopes rest.length name rest).1,
        (readArguments list ((readScopes rest.length name rest).2.dropWhile isSpace)).1⟩ ::
        parseAttributes list rounds (skipComma
          ((readArguments list ((readScopes rest.length name rest).2.dropWhile isSpace)).2.dropWhile isSpace)) := by
  cases text with
  | nil => cases hleading
  | cons ch text =>
    rw [parseAttributes, hdrop]
    simp only [hleading]

theorem parseAttributes_skip {ch : Char} (hspace : isSpace ch = false) (hname : isNameStart ch = false) (rounds : Nat)
    (text : List Char) : parseAttributes list (rounds + 1) (ch :: text) = parseAttributes list rounds text := by
  have hnone : leadingName (ch :: text) = none := by simp [leadingName, hname]
  rw [parseAttributes, List.dropWhile_cons_of_neg (by simp [hspace])]
  simp only [hnone]

theorem ParsesWithin.nil : ParsesWithin list 0 [] [] := by
  intro rounds _
  cases rounds with
  | zero => rfl
  | succ rounds => rfl

theorem ParsesWithin.nameless {front text : List Char} (hfront : ∀ ch ∈ front, isNameStart ch = false)
    (h : ParsesWithin list n text attributes) : ParsesWithin list (n + front.length) (front ++ text) attributes := by
  induction front with
  | nil => exact h
  | cons ch front ih =>
    obtain ⟨hch, hfront⟩ := List.forall_mem_cons.mp hfront
    have hmore := ih hfront
    intro rounds hrounds
    obtain ⟨rounds, rfl⟩ : ∃ m, rounds = m + 1 := ⟨rounds - 1, by rw [List.length_cons] at hrounds; omega⟩
    have hless : n + front.length ≤ rounds := by
      rw [List.length_cons] at hrounds
      omega
    by_cases hspace : isSpace ch = true
    · have hdrop : (ch :: (front ++ text)).dropWhile isSpace = (front ++ text).dropWhile isSpace :=
        List.dropWhile_cons_of_pos hspace
      rw [List.cons_append, ← parseAttributes_dropWhile, hdrop, parseAttributes_dropWhile]
      exact hmore _ (hless.trans (Nat.le_succ _))
    · rw [List.cons_append, parseAttributes_skip (by simpa using hspace) hch]
      exact hmore _ hless

theorem ParsesWithin.behind {text : List Char} (h : ParsesWithin list n text attributes) :
    ParsesWithin list n (skipComma (text.dropWhile isSpace)) attributes := by
  intro rounds hrounds
  have hdropped : ∀ rounds, n ≤ rounds → parseAttributes list rounds (text.dropWhile isSpace) = attributes := by
    intro rounds hrounds
    rw [parseAttributes_dropWhile]
    exact h rounds hrounds
  unfold skipComma
  split
  · rename_i rest hcomma
    rw [hcomma] at hdropped
    rw [← @parseAttributes_skip _ ',' rfl rfl]
    exact hdropped (rounds + 1) (hrounds.trans (Nat.le_succ _))
  · exact hdropped rounds hrounds

theorem length_scopes (scopes : List Scope) :
    scopes.length ≤ (piecesText (scopes.flatMap AttributeTokens.scopePieces)).length := by
  induction scopes with
  | nil => exact Nat.zero_le _
  | cons s scopes ih =>
    simp only [List.flatMap_cons, piecesText_append, AttributeTokens.scopePieces, piecesText_word, List.length_append,
      List.length_cons, List.length_nil]
    omega

theorem ParsesWithin.attribute {a : AttributeTokens} (hwell : a.WellFormed) (hplain : a.Plain) {tail front : List Char}
    (hfollows : Follows tail) (hlist : list = front ++ (piecesText a.core ++ tail))
    (h : ParsesWithin list n tail attributes) :
    ParsesWithin list (n + 1) (piecesText a.core ++ tail) (a.parsed :: attributes) := by
  intro rounds hrounds
  obtain ⟨rounds, rfl⟩ : ∃ m, rounds = m + 1 := ⟨rounds - 1, by omega⟩
  have hmore := h.behind rounds (by omega)
  obtain ⟨hends, hhead⟩ := hfollows
  have hcore : piecesText a.core ++ tail = a.first ++ (piecesText (a.scopes.flatMap AttributeTokens.scopePieces) ++
      (piecesText (AttributeTokens.callPieces a.call) ++ tail)) := by
    simp [AttributeTokens.core]
  -- what the loop over scopes leaves, and what is read of it
  obtain ⟨hcallEnds, hnone, harguments⟩ : EndsName (piecesText (AttributeTokens.callPieces a.call) ++ tail) ∧
      NoScope (piecesText (AttributeTokens.callPieces a.call) ++ tail) ∧
      ∃ left, readArguments list ((piecesText (AttributeTokens.callPieces a.call) ++ tail).dropWhile isSpace) =
        (a.parsed.arguments, left) ∧ left.dropWhile isSpace = tail.dropWhile isSpace := by
    cases hcall : a.call with
    | none =>
      have hread : readArguments list (tail.dropWhile isSpace) = ([], tail.dropWhile isSpace) := by
        unfold readArguments
        split
        · rename_i text hparen
          obtain hch | hch := hhead '(' (by rw [hparen]; rfl)
          · cases hch
          · cases hch
        · rfl
      refine ⟨hends, fun inner hinner => ?_, tail.dropWhile isSpace, ?_, List.dropWhile_idempotent isSpace tail⟩
      · obtain hch | hch := hhead ':' (by
          rw [AttributeTokens.callPieces, piecesText_nil, List.nil_append] at hinner
          rw [hinner]
          rfl)
        · cases hch
        · cases hch
      · simpa [AttributeTokens.callPieces, AttributeTokens.parsed, hcall] using hread
    | some call =>
      obtain ⟨gap, args⟩ := call
      obtain ⟨hgap, hspelled, hnest⟩ := hwell.call _ hcall
      obtain ⟨hgapFree, hargsFree, hfound⟩ := hplain.call _ hcall
      have hspaces := spaces_of_gap hgap hgapFree
      have htokens : ∀ t ∈ tokensOf args, t.Spelled := by
        intro t ht
        exact hspelled (.token t) (mem_of_mem_tokensOf ht)
      have htext : piecesText (AttributeTokens.callPieces (some (gap, args))) ++ tail =
          piecesText gap ++ '(' :: (tokensText (tokensOf args) ++ ')' :: tail) := by
        have hargs := piecesText_of_commentFree hargsFree
        simp [AttributeTokens.callPieces, Piece.text, hargs]
      have hdrop : (piecesText gap ++ '(' :: (tokensText (tokensOf args) ++ ')' :: tail)).dropWhile isSpace =
          '(' :: (tokensText (tokensOf args) ++ ')' :: tail) := dropWhile_all hspaces _
      rw [htext]
      refine ⟨endsName_spaces hspaces (endsName_cons (by decide) _), fun inner hinner => ?_, tail, ?_, rfl⟩
      · rw [hdrop] at hinner
        cases hinner
      · have hread := readArguments_tokens htokens hnest hfound
          (front ++ (a.first ++ (piecesText (a.scopes.flatMap AttributeTokens.scopePieces) ++ piecesText gap))) tail
        rw [hdrop, hlist, hcore, hcall, htext]
        simpa [AttributeTokens.parsed, hcall] using hread
  obtain ⟨left, harguments, hleft⟩ := harguments
  have hscopesEnds := scopes_endsName hwell.scopes hplain.scopes hcallEnds
  have hleading := leadingName_append hwell.first hscopesEnds
  have hrounds : a.scopes.length ≤ (piecesText (a.scopes.flatMap AttributeTokens.scopePieces) ++
      (piecesText (AttributeTokens.callPieces a.call) ++ tail)).length := by
    rw [List.length_append]
    exact (length_scopes a.scopes).trans (Nat.le_add_right _ _)
  have hscopes := readScopes_scopes hwell.scopes hplain.scopes hcallEnds hnone hrounds a.first
  rw [hcore, parseAttributes_name (dropWhile_identifier hwell.first _) hleading]
  simp only [hscopes, harguments, hleft, hmore]
  rfl

end Gentest.Codegen
