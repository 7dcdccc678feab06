import Gentest.Codegen.RegistrationText

/-!
# The template of a registration

The template with the common fragment in its place is spaced: its texts open no
placeholder, and a letter that stands in no placeholder ends each of them. A registration
source starts from the same template without the head of a header.
-/

namespace Gentest.Codegen.RegistrationText

open Substitution

-- ---------------------------------------------------------------------------
-- The template filled at once
-- ---------------------------------------------------------------------------

/-- The template of a registration header, or of a registration source. -/
def headerTemplate (textual : Bool) : Template Placeholder Char :=
  { tuRegistrationHeader with
    head := if textual then preambleGuard else autoGeneratedComment ++ (pragmaOnce ++ preambleGuard) }

/-- Every placeholder replaced by its block, those of the common fragment included. -/
def simultaneous {α : Type} (embed : Char → α) (value : Placeholder → List α) (textual : Bool) : List α :=
  (headerTemplate textual).fill embed fun h =>
    if h = .registrationCommon then registrationCommon.fill embed value else value h

/-- The template with the common fragment in its place. -/
def wholeTemplate (textual : Bool) : Template Placeholder Char where
  head := (headerTemplate textual).head
  rest := [
    (.registrationPreamble, "\n#endif\n".toList),
    (.wrapperSupportCommon, "\n".toList),
    (.globalWrapperImpls, "\nnamespace gentest::generated::".toList),
    (.registerFn, " \x7b\n".toList ++ "\n".toList),
    (.forwardDecls, "\n\nnamespace \x7b\n\n".toList),
    (.traitDecls, "\n".toList ++ "\n\nconstexpr std::array<gentest::Case, ".toList)] ++
    tuRegistrationHeader.rest.drop 5

theorem simultaneous_eq {α : Type} (embed : Char → α) (value : Placeholder → List α) (textual : Bool) :
    simultaneous embed value textual = (wholeTemplate textual).fill embed value := by
  simp only [simultaneous, headerTemplate, wholeTemplate, Template.fill, tuRegistrationHeader, registrationCommon,
    List.flatMap_cons, List.flatMap_nil, List.map_append, List.append_assoc, List.drop_succ_cons, List.drop_zero,
    List.cons_append, List.nil_append, List.append_nil, reduceCtorEq, if_true, if_false]

-- ---------------------------------------------------------------------------
-- Spellings
-- ---------------------------------------------------------------------------

def nameLetter (c : Char) : Bool := c.isUpper || c == '_'

def separates (c : Char) : Bool := !(nameLetter c || c == '{' || c == '}')

/-- Whether a letter stands right before another one somewhere. -/
def adjacent (c d : Char) : List Char → Bool
  | [] => false
  | e :: rest => (e == c && rest.head? == some d) || adjacent c d rest

def opens (text : List Char) : Bool := adjacent '{' '{' text

theorem name_letters (h : Placeholder) : h.name.toList.all nameLetter = true := by
  cases h <;> (unfold Placeholder.name; rw [String.toList_ofList]; rfl)

theorem name_injective : Function.Injective Placeholder.name := by
  intro h h' heq
  cases h <;> cases h' <;> first | rfl | simp [Placeholder.name] at heq

theorem name_ne_nil (h : Placeholder) : h.name.toList ≠ [] := by
  cases h <;> simp [Placeholder.name]

theorem nameLetter_ne {c d : Char} (hc : nameLetter c = true) (hd : nameLetter d = false) : c ≠ d := by
  rintro rfl
  rw [hc] at hd
  cases hd

theorem name_notMem {c : Char} (hc : nameLetter c = false) (h : Placeholder) : c ∉ h.name.toList := fun hmem =>
  nameLetter_ne (List.all_eq_true.mp (name_letters h) c hmem) hc rfl

theorem separates_spec {c : Char} (hc : separates c = true) : Separates spelling c := by
  intro h hmem
  simp only [separates, Bool.not_eq_true', Bool.or_eq_false_iff, beq_eq_false_iff_ne] at hc
  obtain ⟨⟨hletter, hopen⟩, hclose⟩ := hc
  simp [spelling, hopen, hclose, name_notMem hletter h] at hmem

theorem any_separates_spec {c : Option Char} (hc : c.any separates = true) : ∃ d, c = some d ∧ Separates spelling d := by
  obtain ⟨d, rfl, hd⟩ := (Option.any_eq_true _ _).mp hc
  exact ⟨d, rfl, separates_spec hd⟩

theorem adjacent_append_of_notMem {c d : Char} {u v : List Char} (hu : c ∉ u) :
    adjacent c d (u ++ v) = adjacent c d v := by
  induction u with
  | nil => rfl
  | cons e u ih =>
    rw [List.mem_cons, not_or] at hu
    simp [adjacent, ih hu.2, Ne.symm hu.1]

theorem adjacent_append_cons {c d e : Char} (he : e ≠ d) (u v : List Char) :
    adjacent c d (u ++ e :: v) = (adjacent c d u || adjacent c d (e :: v)) := by
  induction u with
  | nil => rfl
  | cons f u ih =>
    have hhead : ((u ++ e :: v).head? == some d) = (u.head? == some d) := by
      cases u with
      | nil => simp [he]
      | cons g u => rfl
    rw [List.cons_append, adjacent, ih, hhead, ← Bool.or_assoc, ← adjacent]

theorem adjacent_iff {c d : Char} {text : List Char} : adjacent c d text = true ↔ [c, d] <:+: text := by
  induction text with
  | nil => simp [adjacent]
  | cons e text ih =>
    have hhead : [c, d] <+: e :: text ↔ e = c ∧ text.head? = some d := by
      rw [List.cons_prefix_cons]
      refine and_congr eq_comm ?_
      cases text with
      | nil => simp
      | cons f text => simp [List.cons_prefix_cons, eq_comm]
    rw [adjacent, List.infix_cons_iff, Bool.or_eq_true, Bool.and_eq_true, beq_iff_eq, beq_iff_eq, ih, hhead]

theorem adjacent_of_isInfix {c d : Char} {needle text : List Char} (h : needle <:+: text)
    (hneedle : adjacent c d needle = true) : adjacent c d text = true :=
  adjacent_iff.mpr ((adjacent_iff.mp hneedle).trans h)

theorem not_spelled_of_not_opens {text : List Char} (h : opens text = false) (x : Placeholder) : ¬spelling x <:+: text :=
  fun hwithin => by rw [opens, adjacent_of_isInfix hwithin rfl] at h; cases h

theorem opens_tail (h : Placeholder) {text : List Char} (htext : opens text = false) :
    opens ((spelling h).tail ++ text) = false := by
  have hrest : opens (h.name.toList ++ ['}', '}'] ++ text) = false := by
    rw [opens, adjacent_append_of_notMem (by simp [name_notMem (c := '{') rfl h])]
    exact htext
  change opens ('{' :: (h.name.toList ++ ['}', '}'] ++ text)) = false
  rw [opens, adjacent, ← opens, hrest, Bool.or_false]
  have hletters := name_letters h
  cases hname : h.name.toList with
  | nil => exact absurd hname (name_ne_nil h)
  | cons c name =>
    rw [hname, List.all_cons, Bool.and_eq_true] at hletters
    simp [nameLetter_ne hletters.1 (d := '{') rfl]

theorem spelling_infix_spelling {h x : Placeholder} {text : List Char} (htext : opens text = false)
    (hwithin : spelling x <:+: spelling h ++ text) : x = h := by
  rcases List.infix_cons_iff.mp hwithin with hstarts | hwithin
  · have hnames : x.name.toList ++ ['}', '}'] <+: h.name.toList ++ (['}', '}'] ++ text) := by
      simpa [spelling] using hstarts
    have htake : ∀ (y : Placeholder) (rest : List Char),
        (y.name.toList ++ '}' :: rest).takeWhile nameLetter = y.name.toList := fun y rest => by
      rw [List.takeWhile_append_of_pos (List.all_eq_true.mp (name_letters y))]
      simp [nameLetter]
    obtain ⟨tail, htail⟩ := hnames
    have hname : x.name.toList = h.name.toList := by
      rw [← htake x ('}' :: tail), ← htake h ('}' :: text)]
      exact congrArg _ (by simpa using htail)
    exact name_injective (String.toList_injective hname)
  · have hnone := not_spelled_of_not_opens (opens_tail h htext) x
    exact absurd hwithin hnone

theorem spelling_borderless (h : Placeholder) : Borderless (spelling h) := by
  rintro (_ | ⟨c, front⟩) back hfront hback heq hstarts
  · exact hfront rfl
  · -- the end opens like the whole, but behind the first brace nothing opens
    have htail : (spelling h).tail = front ++ back := by rw [heq]; rfl
    have hlast : back.getLast? = some '}' := by
      rw [← List.getLast?_append_of_ne_nil (c :: front) hback, ← heq]
      rw [spelling, List.getLast?_append_of_ne_nil _ (by simp)]
      rfl
    obtain ⟨tail, htailEq⟩ := hstarts
    rcases back with _ | ⟨d, _ | ⟨e, rest⟩⟩
    · exact hback rfl
    · obtain rfl : d = '{' := (List.cons.inj htailEq).1
      cases hlast
    · obtain ⟨rfl, hrest⟩ := List.cons.inj htailEq
      obtain ⟨rfl, -⟩ := List.cons.inj hrest
      have hopens : opens ((spelling h).tail ++ []) = true := by
        rw [List.append_nil, htail]
        exact adjacent_of_isInfix (List.suffix_append _ _).isInfix rfl
      rw [opens_tail h rfl] at hopens
      cases hopens

-- ---------------------------------------------------------------------------
-- The templates
-- ---------------------------------------------------------------------------

/-- A text that opens no placeholder and separates those around it. -/
def fixedText (text : List Char) : Bool := !opens text && text.getLast?.any separates

theorem spaced_of_fixed {t : Template Placeholder Char} (hhead : fixedText t.head = true)
    (hrest : t.rest.all (fun hole => fixedText hole.2) = true) : t.Spaced spelling := by
  have hspec : ∀ text, fixedText text = true →
      opens text = false ∧ ∃ c, text.getLast? = some c ∧ Separates spelling c := by
    intro text htext
    rw [fixedText, Bool.and_eq_true, Bool.not_eq_true'] at htext
    exact ⟨htext.1, any_separates_spec htext.2⟩
  have htexts : ∀ hole ∈ t.rest, _ := fun hole hmem => hspec hole.2 (List.all_eq_true.mp hrest hole hmem)
  exact {
    nonempty := fun h => List.cons_ne_nil _ _
    borderless := spelling_borderless
    head_end := (hspec _ hhead).2
    head_clean := not_spelled_of_not_opens (hspec _ hhead).1
    text_end := fun hole hmem => (htexts hole hmem).2
    text_clean := fun hole hmem => not_spelled_of_not_opens (htexts hole hmem).1
    hole_clean := fun hole hmem h hne hwithin => hne (spelling_infix_spelling (htexts hole hmem).1 hwithin) }

theorem fixed_head (textual : Bool) : fixedText (headerTemplate textual).head = true := by
  unfold headerTemplate autoGeneratedComment pragmaOnce preambleGuard
  repeat rw [String.toList_ofList]
  cases textual <;> rfl

theorem spaced_header (textual : Bool) : (headerTemplate textual).Spaced spelling := by
  refine spaced_of_fixed (fixed_head textual) ?_
  change tuRegistrationHeader.rest.all _ = true
  unfold tuRegistrationHeader
  rw [String.toList_append]
  repeat rw [String.toList_ofList]
  rfl

theorem spaced_whole (textual : Bool) : (wholeTemplate textual).Spaced spelling := by
  refine spaced_of_fixed (fixed_head textual) ?_
  unfold wholeTemplate tuRegistrationHeader
  rw [String.toList_append]
  repeat rw [String.toList_ofList]
  rfl

/-- Every hole but those of the registrar's name is the only one of its placeholder. -/
theorem placed_of_framed {t : Template Placeholder Char} {x : Placeholder}
    (hframed : t.rest.all (fun hole => hole.1 = .registerFn || hole.2.head?.any separates) = true)
    (hsingle : t.holes.count x ≤ 1) (hx : x ≠ .registerFn) : Placed t spelling x := by
  refine ⟨fun hole hmem heq => any_separates_spec ?_, hsingle⟩
  have hhole := List.all_eq_true.mp hframed hole hmem
  simpa [heq, hx] using hhole

theorem header_holes (textual : Bool) : (headerTemplate textual).holes =
    [.registrationPreamble, .wrapperSupportCommon, .globalWrapperImpls, .registerFn, .registrationCommon, .caseCount,
      .caseInits, .registerFn, .registerFn, .registerFn, .registerFn, .fixtureRegistrations, .registerFn, .registerFn,
      .registerFn] := rfl

theorem whole_holes (textual : Bool) : (wholeTemplate textual).holes =
    [.registrationPreamble, .wrapperSupportCommon, .globalWrapperImpls, .registerFn, .forwardDecls, .traitDecls,
      .caseCount, .caseInits, .registerFn, .registerFn, .registerFn, .registerFn, .fixtureRegistrations, .registerFn,
      .registerFn, .registerFn] := rfl

theorem placed_header (textual : Bool) {x : Placeholder} (hx : x ≠ .registerFn) :
    Placed (headerTemplate textual) spelling x := by
  refine placed_of_framed ?_ (by rw [header_holes]; cases x <;> first | decide | exact absurd rfl hx) hx
  change tuRegistrationHeader.rest.all _ = true
  unfold tuRegistrationHeader
  rw [String.toList_append]
  repeat rw [String.toList_ofList]
  rfl

theorem placed_whole (textual : Bool) {x : Placeholder} (hx : x ≠ .registerFn) :
    Placed (wholeTemplate textual) spelling x := by
  refine placed_of_framed ?_ (by rw [whole_holes]; cases x <;> first | decide | exact absurd rfl hx) hx
  unfold wholeTemplate tuRegistrationHeader
  rw [String.toList_append]
  repeat rw [String.toList_ofList]
  rfl

-- ---------------------------------------------------------------------------
-- Without the head of a header
-- ---------------------------------------------------------------------------

theorem not_adjacent_fill {t : Template Placeholder Char} {c d : Char} (hc : separates c = true) (hd : '{' ≠ d)
    (hhead : adjacent c d t.head = false) (hrest : t.rest.all (fun hole => !adjacent c d hole.2) = true) :
    adjacent c d (t.fill id spelling) = false := by
  have htexts : ∀ (rest : List (Placeholder × List Char)) (text : List Char),
      rest.all (fun hole => !adjacent c d hole.2) = true → adjacent c d text = false →
        adjacent c d (text ++ rest.flatMap fun hole => spelling hole.1 ++ hole.2.map id) = false := by
    intro rest
    induction rest with
    | nil =>
      intro text _ htext
      rwa [List.flatMap_nil, List.append_nil]
    | cons hole rest ih =>
      intro text hrest htext
      rw [List.all_cons, Bool.and_eq_true, Bool.not_eq_true'] at hrest
      have hbehind := ih hole.2 hrest.2 hrest.1
      have hhole : adjacent c d (spelling hole.1 ++ (hole.2 ++
          rest.flatMap fun hole => spelling hole.1 ++ hole.2.map id)) = false := by
        rw [adjacent_append_of_notMem (separates_spec hc hole.1), hbehind]
      rw [List.flatMap_cons, List.map_id, List.append_assoc]
      change adjacent c d (text ++ '{' :: _) = false
      rw [adjacent_append_cons hd, htext, Bool.false_or]
      exact hhole
  have hfill := htexts t.rest t.head hrest hhead
  rwa [Template.fill, List.map_id]

/-- Two pairs of letters, of the comment and of the guard, that stand nowhere behind them. -/
theorem stripped_pairs : ∀ p ∈ [('-', 'g'), ('g', 'm')],
    adjacent p.1 p.2 ((headerTemplate true).fill id spelling) = false := by
  have hchecks : [('-', 'g'), ('g', 'm')].all (fun p => separates p.1 && '{' != p.2 && !adjacent p.1 p.2 preambleGuard &&
      tuRegistrationHeader.rest.all fun hole => !adjacent p.1 p.2 hole.2) = true := by
    unfold preambleGuard tuRegistrationHeader
    rw [String.toList_append]
    repeat rw [String.toList_ofList]
    rfl
  intro p hp
  have hp := List.all_eq_true.mp hchecks p hp
  simp only [Bool.and_eq_true, Bool.not_eq_true', bne_iff_ne] at hp
  exact not_adjacent_fill hp.1.1.1 hp.1.1.2 hp.1.2 hp.2

/-- The text of the template without its first comment and its guard. -/
theorem strip_header :
    replaceAll id pragmaOnce [] (replaceAll id autoGeneratedComment [] (tuRegistrationHeader.fill id spelling)) =
      (headerTemplate true).fill id spelling := by
  have hsplit : tuRegistrationHeader.fill id spelling =
      autoGeneratedComment ++ (pragmaOnce ++ (headerTemplate true).fill id spelling) := by
    simp [Template.fill, tuRegistrationHeader, headerTemplate]
  have hchecks : '-' ∉ pragmaOnce ∧ adjacent '-' 'g' autoGeneratedComment = true ∧ adjacent 'g' 'm' pragmaOnce = true ∧
      autoGeneratedComment ≠ [] ∧ pragmaOnce ≠ [] := by
    unfold autoGeneratedComment pragmaOnce
    repeat rw [String.toList_ofList]
    exact ⟨by simp, rfl, rfl, List.cons_ne_nil _ _, List.cons_ne_nil _ _⟩
  obtain ⟨hdash, hcomment, hguard, hcommentNe, hguardNe⟩ := hchecks
  have hnoComment : ¬Substitution.Occurs id autoGeneratedComment (pragmaOnce ++ (headerTemplate true).fill id spelling) := by
    intro hocc
    rw [Substitution.Occurs, List.map_id] at hocc
    have hadjacent := adjacent_of_isInfix hocc hcomment
    rw [adjacent_append_of_notMem hdash, stripped_pairs ('-', 'g') (by simp)] at hadjacent
    cases hadjacent
  have hnoGuard : ¬Substitution.Occurs id pragmaOnce ((headerTemplate true).fill id spelling) := by
    intro hocc
    rw [Substitution.Occurs, List.map_id] at hocc
    have hadjacent := adjacent_of_isInfix hocc hguard
    rw [stripped_pairs ('g', 'm') (by simp)] at hadjacent
    cases hadjacent
  rw [hsplit, replaceAll_match hcommentNe (List.map_id _), List.nil_append, replaceAll_of_not_occurs hnoComment,
    replaceAll_match hguardNe (List.map_id _), List.nil_append, replaceAll_of_not_occurs hnoGuard]

theorem map_fill {α : Type} (embed : Char → α) (t : Template Placeholder Char) :
    (t.fill id spelling).map embed = t.fill embed fun h => (spelling h).map embed := by
  simp [Template.fill, List.map_flatMap]

theorem startBody {α : Type} {key : α → Char} {embed : Char → α} (hkey : ∀ c, key (embed c) = c) (textual : Bool) :
    (if textual then replaceAll key pragmaOnce [] (replaceAll key autoGeneratedComment []
        ((tuRegistrationHeader.fill id spelling).map embed))
      else (tuRegistrationHeader.fill id spelling).map embed) =
      (headerTemplate textual).fill embed fun h => (spelling h).map embed := by
  have hstrip : ∀ needle text : List Char,
      replaceAll key needle [] (text.map embed) = (replaceAll id needle [] text).map embed := fun needle text => by
    have hmap : replaceAll key needle (([] : List Char).map embed) (text.map embed) = _ := replaceAll_map hkey text
    exact hmap
  cases textual with
  | false => exact map_fill embed tuRegistrationHeader
  | true => rw [if_pos rfl, hstrip, hstrip, strip_header, map_fill]

end Gentest.Codegen.RegistrationText
