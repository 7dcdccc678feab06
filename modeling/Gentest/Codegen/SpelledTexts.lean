import Gentest.Codegen.RegistrationTemplate

/-!
# Which texts spell a placeholder in a block

Fixed text around the texts of a user ends and begins with letters that stand in no
placeholder, and escaping a text changes no letter of a placeholder. So a block spells a
placeholder exactly when one of the texts in it does.
-/

namespace Gentest.Codegen.RegistrationText

open Runner (FixtureLifetime)
open Substitution

variable {x : Placeholder}

-- ---------------------------------------------------------------------------
-- Texts side by side
-- ---------------------------------------------------------------------------

theorem infix_append_iff {u v : List Char} (h : Apart id (spelling x) u v) :
    spelling x <:+: u ++ v ↔ spelling x <:+: u ∨ spelling x <:+: v := by
  simpa only [Substitution.Occurs, List.map_id] using occurs_append_iff h

theorem infix_append_of_last {u v : List Char} (hu : u.getLast?.any separates = true) :
    spelling x <:+: u ++ v ↔ spelling x <:+: u ∨ spelling x <:+: v := by
  obtain ⟨c, hlast, hc⟩ := any_separates_spec hu
  exact infix_append_iff (apart_of_last hlast (hc x))

theorem infix_append_of_head {u v : List Char} (hv : v.head?.any separates = true) :
    spelling x <:+: u ++ v ↔ spelling x <:+: u ∨ spelling x <:+: v := by
  obtain ⟨c, hhead, hc⟩ := any_separates_spec hv
  cases v with
  | nil => cases hhead
  | cons d v =>
    obtain rfl := Option.some.inj hhead
    exact infix_append_iff (apart_of_head (hc x))

theorem infix_cons_of_separates {c : Char} (hc : separates c = true) (text : List Char) :
    spelling x <:+: c :: text ↔ spelling x <:+: text := by
  have hsplit := infix_append_of_last (x := x) (u := [c]) (v := text) hc
  have hsingle : ¬spelling x <:+: [c] := fun h => by simpa [spelling] using h.length_le
  rwa [List.singleton_append, or_iff_right hsingle] at hsplit

theorem infix_flatMap {β : Type} {f : β → List Char} {l : List β}
    (hends : ∀ a ∈ l, f a = [] ∨ (f a).getLast?.any separates = true) :
    spelling x <:+: l.flatMap f ↔ ∃ a ∈ l, spelling x <:+: f a := by
  have hnil : ¬spelling x <:+: [] := not_spelled_of_not_opens rfl x
  induction l with
  | nil => simp [hnil]
  | cons a l ih =>
    have hrest := ih fun b hb => hends b (List.mem_cons_of_mem a hb)
    rw [List.flatMap_cons, List.exists_mem_cons_iff]
    refine Iff.trans ?_ (or_congr_right hrest)
    rcases hends a List.mem_cons_self with hempty | hlast
    · rw [hempty, List.nil_append, or_iff_right hnil]
    · exact infix_append_of_last hlast

-- ---------------------------------------------------------------------------
-- Values in literals
-- ---------------------------------------------------------------------------

theorem escapeChar_cases (c : Char) :
    escapeChar c = [c] ∨ separates c = true ∧ ∃ d, separates d = true ∧ escapeChar c = ['\\', d] := by
  unfold escapeChar
  split
  case h_6 => exact .inl rfl
  all_goals exact .inr ⟨rfl, _, rfl, rfl⟩

theorem prefix_escapeString {w text : List Char} (hw : ∀ c ∈ w, separates c = false) :
    w <+: escapeString text ↔ w <+: text := by
  induction text generalizing w with
  | nil => rfl
  | cons c text ih =>
    cases w with
    | nil => simp
    | cons d w =>
      have hd := hw d List.mem_cons_self
      change d :: w <+: escapeChar c ++ escapeString text ↔ _
      rcases escapeChar_cases c with hplain | ⟨hc, e, -, hescape⟩
      · rw [hplain, List.singleton_append, List.cons_prefix_cons, List.cons_prefix_cons,
          ih fun c hc => hw c (List.mem_cons_of_mem d hc)]
      · -- neither the escaping letter nor the escaped one stands in a placeholder
        have hne : ∀ b, separates b = true → d ≠ b := by
          rintro b hb rfl
          rw [hb] at hd
          cases hd
        rw [hescape, List.cons_append, List.cons_prefix_cons, List.cons_prefix_cons]
        simp [hne '\\' rfl, hne c hc]

theorem spelling_letters (x : Placeholder) : ∀ c ∈ spelling x, separates c = false := fun c hc => by
  by_contra h
  exact separates_spec (Bool.eq_true_of_not_eq_false h) x hc

theorem infix_escapeString (text : List Char) : spelling x <:+: escapeString text ↔ spelling x <:+: text := by
  induction text with
  | nil => rfl
  | cons c text ih =>
    have hwhole : escapeString (c :: text) = escapeChar c ++ escapeString text := rfl
    rcases escapeChar_cases c with hplain | ⟨hc, d, hd, hescape⟩
    · rw [hplain, List.singleton_append] at hwhole
      have hstarts : spelling x <+: c :: escapeString text ↔ spelling x <+: c :: text := by
        rw [← hwhole]
        exact prefix_escapeString (spelling_letters x)
      rw [hwhole, List.infix_cons_iff, List.infix_cons_iff, ih, hstarts]
    · rw [hwhole, hescape, List.cons_append, List.cons_append, List.nil_append, infix_cons_of_separates rfl,
        infix_cons_of_separates hd, infix_cons_of_separates hc, ih]

theorem infix_quoted (value : String) : spelling x <:+: quoted value ↔ spelling x <:+: value.toList := by
  rw [quoted, infix_append_of_head rfl, infix_cons_of_separates rfl, infix_escapeString]
  exact or_iff_left (not_spelled_of_not_opens rfl x)

theorem not_infix_emptyView : ¬spelling x <:+: "std::string_view\x7b\x7d".toList := by
  rw [String.toList_ofList]
  exact not_spelled_of_not_opens rfl x

theorem infix_literalOrView (value : String) :
    spelling x <:+: literalOrView value ↔ spelling x <:+: value.toList := by
  unfold literalOrView
  split
  case isTrue hempty =>
    subst hempty
    exact iff_of_false not_infix_emptyView (not_spelled_of_not_opens rfl x)
  case isFalse => exact infix_quoted value

-- ---------------------------------------------------------------------------
-- Filled formats
-- ---------------------------------------------------------------------------

def betweenText (text : List Char) : Bool := fixedText text && text.head?.any separates

theorem not_infix_fixed {text : List Char} (h : fixedText text = true) : ¬spelling x <:+: text := by
  rw [fixedText, Bool.and_eq_true, Bool.not_eq_true'] at h
  exact not_spelled_of_not_opens h.1 x

theorem infix_append_between {u v : List Char} (hv : betweenText v = true) :
    spelling x <:+: u ++ v ↔ spelling x <:+: u := by
  rw [betweenText, Bool.and_eq_true] at hv
  rw [infix_append_of_head hv.2, or_iff_left (not_infix_fixed hv.1)]

theorem infix_fill {ι : Type} {t : Format ι} {value : ι → List Char} (hhead : fixedText t.head = true)
    (hrest : t.rest.all (fun hole => betweenText hole.2) = true) :
    spelling x <:+: t.fill id value ↔ ∃ h ∈ t.holes, spelling x <:+: value h := by
  have hlast : ∀ {text : List Char}, fixedText text = true → text.getLast?.any separates = true := fun h =>
    (Bool.and_eq_true _ _ ▸ h : _ ∧ _).2
  have hholes : ∀ hole ∈ t.rest, (value hole.1 ++ hole.2.map id).getLast?.any separates = true ∧
      (spelling x <:+: value hole.1 ++ hole.2.map id ↔ spelling x <:+: value hole.1) := by
    intro hole hmem
    have hbetween := List.all_eq_true.mp hrest hole hmem
    rw [List.map_id, infix_append_between hbetween]
    rw [betweenText, Bool.and_eq_true] at hbetween
    obtain ⟨hfixed, hfirst⟩ := hbetween
    refine ⟨?_, Iff.rfl⟩
    rw [List.getLast?_append_of_ne_nil]
    · exact hlast hfixed
    · rintro hnil
      rw [hnil] at hfirst
      cases hfirst
  rw [Template.fill, List.map_id, infix_append_of_last (hlast hhead), or_iff_right (not_infix_fixed hhead),
    infix_flatMap fun hole hmem => .inr (hholes hole hmem).1]
  simp only [Template.holes, List.mem_map]
  constructor
  · rintro ⟨hole, hmem, hwithin⟩
    exact ⟨hole.1, ⟨hole, hmem, rfl⟩, (hholes hole hmem).2.mp hwithin⟩
  · rintro ⟨_, ⟨hole, hmem, rfl⟩, hwithin⟩
    exact ⟨hole, hmem, (hholes hole hmem).2.mpr hwithin⟩

-- ---------------------------------------------------------------------------
-- The blocks
-- ---------------------------------------------------------------------------

theorem brace_notMem_toString (n : Nat) : '{' ∉ (toString n).toList := by
  have hdigits : (toString n).toList = Nat.toDigits 10 n := Nat.toList_repr
  rw [hdigits]
  exact fun h => by simpa using Nat.isDigit_of_mem_toDigits (by decide) (by decide) h

theorem brace_notMem_append {u v : String} (hu : '{' ∉ u.toList) (hv : '{' ∉ v.toList) : '{' ∉ (u ++ v).toList := by
  rw [String.toList_append, List.mem_append]
  exact fun h => h.elim hu hv

theorem not_infix_of_notMem {text : List Char} (h : '{' ∉ text) : ¬spelling x <:+: text := fun hwithin =>
  h (hwithin.subset List.mem_cons_self)

theorem not_infix_cons_of_notMem {c : Char} {text : List Char} (h : '{' ∉ text) : ¬spelling x <:+: c :: text := by
  rw [List.infix_cons_iff, not_or]
  refine ⟨fun hstarts => ?_, not_infix_of_notMem h⟩
  obtain ⟨-, hrest⟩ := List.cons_prefix_cons.mp hstarts
  exact h (hrest.subset List.mem_cons_self)

theorem brace_notMem_tagName (idx : Nat) : '{' ∉ (tagName idx).toList :=
  brace_notMem_append (by simp) (brace_notMem_toString idx)

theorem brace_notMem_reqName (idx : Nat) : '{' ∉ (reqName idx).toList :=
  brace_notMem_append (by simp) (brace_notMem_toString idx)

theorem formatSvArray_last (name : String) (values : List String) :
    (formatSvArray name values).getLast?.any separates = true := by
  unfold formatSvArray
  split
  · rw [List.getLast?_append_of_ne_nil] <;> rw [String.toList_ofList]
    · rfl
    · exact List.cons_ne_nil _ _
  · rw [List.getLast?_append_of_ne_nil] <;> rw [String.toList_ofList]
    · rfl
    · exact List.cons_ne_nil _ _

theorem infix_formatSvArray {name : String} (hname : '{' ∉ name.toList) (values : List String) :
    spelling x <:+: formatSvArray name values ↔ ∃ v ∈ values, spelling x <:+: v.toList := by
  unfold formatSvArray
  split
  case isTrue hempty =>
    subst hempty
    refine iff_of_false (not_spelled_of_not_opens ?_ x) (by simp)
    repeat rw [String.toList_ofList]
    rw [opens, List.append_assoc, adjacent_append_of_notMem (by decide), adjacent_append_of_notMem hname]
    rfl
  case isFalse =>
    repeat rw [String.toList_ofList]
    have hpieces : ∀ v ∈ values,
        ([' ', ' ', ' ', ' ', '"'] ++ escapeString v.toList ++ ['"', ',', '\n']).getLast?.any separates = true ∧
          (spelling x <:+: [' ', ' ', ' ', ' ', '"'] ++ escapeString v.toList ++ ['"', ',', '\n'] ↔
            spelling x <:+: v.toList) := by
      intro v _
      rw [List.getLast?_append_of_ne_nil _ (List.cons_ne_nil _ _), infix_append_of_head rfl, infix_append_of_last rfl,
        infix_escapeString]
      refine ⟨rfl, ?_⟩
      rw [or_iff_left (not_infix_fixed rfl), or_iff_right (not_infix_fixed rfl)]
    have hfront : ∀ front : List Char, '{' ∉ front →
        ¬spelling x <:+: front ++ [' ', '=', ' ', '{', '\n'] := by
      intro front hfront
      refine not_spelled_of_not_opens ?_ x
      rw [opens, adjacent_append_of_notMem hfront]
      rfl
    rw [infix_append_of_head rfl, infix_append_of_last ?_, or_iff_left (not_infix_fixed rfl), or_iff_right (hfront _ ?_),
      infix_flatMap fun v hv => .inr (hpieces v hv).1]
    · exact exists_congr fun v => and_congr_right fun hv => (hpieces v hv).2
    · simp only [List.mem_append, not_or]
      exact ⟨⟨⟨by decide, brace_notMem_toString _⟩, by decide⟩, hname⟩
    · rw [List.getLast?_append_of_ne_nil _ (List.cons_ne_nil _ _)]
      rfl

/-- What holds of a case with some index holds of a case. -/
theorem exists_mem_zipIdx {α : Type} {l : List α} (p : α → Prop) : (∃ a ∈ l.zipIdx, p a.1) ↔ ∃ a ∈ l, p a := by
  constructor
  · rintro ⟨a, ha, h⟩
    exact ⟨a.1, List.fst_mem_of_mem_zipIdx ha, h⟩
  · rintro ⟨a, ha, h⟩
    rw [← List.zipIdx_map_fst 0 l] at ha
    obtain ⟨b, hb, rfl⟩ := List.mem_map.mp ha
    exact ⟨b, hb, h⟩

theorem infix_renderTraitArrays (cases : List TestCaseInfo) :
    spelling x <:+: renderTraitArrays cases ↔
      ∃ test ∈ cases, ∃ text ∈ test.tags ++ test.requirements, spelling x <:+: text.toList := by
  have hends : ∀ p ∈ cases.zipIdx, (formatSvArray (tagName p.2) p.1.tags ++
      formatSvArray (reqName p.2) p.1.requirements).getLast?.any separates = true := by
    intro p _
    have hlast := formatSvArray_last (reqName p.2) p.1.requirements
    rw [List.getLast?_append_of_ne_nil]
    · exact hlast
    · intro hnil
      rw [hnil] at hlast
      cases hlast
  have hpair : ∀ p : TestCaseInfo × Nat, spelling x <:+: formatSvArray (tagName p.2) p.1.tags ++
      formatSvArray (reqName p.2) p.1.requirements ↔
        ∃ text ∈ p.1.tags ++ p.1.requirements, spelling x <:+: text.toList := by
    intro p
    rw [infix_append_of_last (formatSvArray_last _ _), infix_formatSvArray (brace_notMem_tagName p.2),
      infix_formatSvArray (brace_notMem_reqName p.2)]
    simp only [List.mem_append, or_and_right, exists_or]
  rw [renderTraitArrays, infix_flatMap fun p hp => .inr (hends p hp)]
  simp only [hpair]
  exact exists_mem_zipIdx fun test : TestCaseInfo => ∃ text ∈ test.tags ++ test.requirements, spelling x <:+: text.toList

/-- The entry with the braces of its spans counted to the values in them. -/
def spannedEntry : Format CaseField where
  head := caseEntry.head
  rest := caseEntry.rest.map fun hole =>
    (hole.1, ((hole.2.dropWhile (· == '}')).reverse.dropWhile (· == '{')).reverse)

def spannedValue (value : CaseField → List Char) (field : CaseField) : List Char :=
  if field = .tags ∨ field = .reqs then '{' :: value field ++ ['}'] else value field

theorem caseEntry_fill (value : CaseField → List Char) :
    caseEntry.fill id value = spannedEntry.fill id (spannedValue value) := by
  unfold spannedEntry caseEntry
  repeat rw [String.toList_ofList]
  simp [Template.fill, spannedValue]

theorem spannedEntry_fixed : fixedText spannedEntry.head = true ∧
    spannedEntry.rest.all (fun hole => betweenText hole.2) = true := by
  unfold spannedEntry caseEntry
  repeat rw [String.toList_ofList]
  exact ⟨rfl, rfl⟩

/-- The text of a user in a field of an entry. -/
def userText (test : TestCaseInfo) : CaseField → Option String
  | .name => some test.displayName
  | .file => some test.filename
  | .skipReason => some test.skipReason
  | .fixture => some (caseGroupingFixture test).1
  | .suite => some test.suiteName
  | .owner => some test.owner
  | _ => none

def entryTexts (test : TestCaseInfo) : List String :=
  [test.displayName, test.filename, test.skipReason, (caseGroupingFixture test).1, test.suiteName, test.owner]

theorem entryTexts_eq (test : TestCaseInfo) : entryTexts test = spannedEntry.holes.filterMap (userText test) := rfl

theorem brace_notMem_boolLiteral (value : Bool) : '{' ∉ boolLiteral value := by
  cases value <;> (unfold boolLiteral; simp)

theorem brace_notMem_caseFieldText (test : TestCaseInfo) (idx : Nat) {field : CaseField}
    (hfield : userText test field = none) : '{' ∉ caseFieldText test idx field := by
  cases field <;> try cases hfield
  case wrapper => exact brace_notMem_append (by simp) (brace_notMem_toString idx)
  case line => exact brace_notMem_toString test.line
  case isBench => exact brace_notMem_boolLiteral _
  case isJitter => exact brace_notMem_boolLiteral _
  case isBaseline => exact brace_notMem_boolLiteral _
  case tags => exact brace_notMem_tagName idx
  case reqs => exact brace_notMem_reqName idx
  case shouldSkip => exact brace_notMem_boolLiteral _
  case lifetime =>
    unfold caseFieldText fixtureLifetimeLiteral
    cases (caseGroupingFixture test).2 <;> simp
  case asyncWrapper =>
    change '{' ∉ (if test.returnsAsync then _ else _ : List Char)
    split
    · exact brace_notMem_append (by simp) (brace_notMem_toString idx)
    · simp
  case isAsync => exact brace_notMem_boolLiteral _
  case itemsPerCall => exact brace_notMem_append (brace_notMem_toString _) (by simp)

theorem infix_spannedValue (test : TestCaseInfo) (idx : Nat) (field : CaseField) :
    spelling x <:+: spannedValue (caseFieldText test idx) field ↔
      ∃ text, userText test field = some text ∧ spelling x <:+: text.toList := by
  cases huser : userText test field with
  | none =>
    have hbrace := brace_notMem_caseFieldText test idx huser
    refine iff_of_false ?_ (by simp)
    unfold spannedValue
    split
    · exact not_infix_cons_of_notMem (by simpa using hbrace)
    · exact not_infix_of_notMem hbrace
  | some text =>
    have hvalue : spelling x <:+: spannedValue (caseFieldText test idx) field ↔ spelling x <:+: text.toList := by
      cases field <;> cases huser
      case name => exact infix_escapeString _
      case file => exact infix_escapeString _
      case skipReason => exact infix_literalOrView _
      case fixture => exact infix_literalOrView _
      case suite => exact infix_literalOrView _
      case owner => exact infix_literalOrView _
    simp [hvalue]

theorem infix_caseEntry (test : TestCaseInfo) (idx : Nat) :
    spelling x <:+: caseEntry.fill id (caseFieldText test idx) ↔ ∃ text ∈ entryTexts test, spelling x <:+: text.toList := by
  rw [caseEntry_fill, infix_fill spannedEntry_fixed.1 spannedEntry_fixed.2, entryTexts_eq]
  simp only [infix_spannedValue, List.mem_filterMap]
  constructor
  · rintro ⟨field, hfield, text, huser, hwithin⟩
    exact ⟨text, ⟨field, hfield, huser⟩, hwithin⟩
  · rintro ⟨text, ⟨field, hfield, huser⟩, hwithin⟩
    exact ⟨field, hfield, text, huser, hwithin⟩

theorem caseEntry_last (value : CaseField → List Char) : (caseEntry.fill id value).getLast?.any separates = true := by
  have hrest : caseEntry.rest = caseEntry.rest.dropLast ++ [(.owner, "\n    \x7d,\n\n".toList)] := rfl
  rw [Template.fill, hrest, List.flatMap_append, List.flatMap_singleton, String.toList_ofList, ← List.append_assoc,
    ← List.append_assoc, List.map_id, List.map_id, List.getLast?_append_of_ne_nil _ (List.cons_ne_nil _ _)]
  rfl

theorem infix_renderCaseEntries (cases : List TestCaseInfo) :
    spelling x <:+: renderCaseEntries cases ↔
      ∃ test ∈ cases, ∃ text ∈ entryTexts test, spelling x <:+: text.toList := by
  rw [renderCaseEntries, infix_flatMap fun p _ => .inr (caseEntry_last _)]
  simp only [infix_caseEntry]
  exact exists_mem_zipIdx fun test => ∃ text ∈ entryTexts test, spelling x <:+: text.toList

/-- The texts of a user in the registration of a fixture. -/
def registrationTexts (fx : FixtureDeclInfo) : List String :=
  match fx.scope with
  | .localScope => []
  | .suite => [if fx.registrationTypeName = "" then fx.qualifiedName else fx.registrationTypeName, fx.suiteName,
      fx.qualifiedName]
  | .global => [if fx.registrationTypeName = "" then fx.qualifiedName else fx.registrationTypeName, fx.qualifiedName]

theorem infix_registrationTypeName (fx : FixtureDeclInfo) :
    spelling x <:+: registrationTypeName fx ↔ spelling x <:+:
      (if fx.registrationTypeName = "" then fx.qualifiedName else fx.registrationTypeName).toList := by
  have hcolons : ∀ text : List Char, spelling x <:+: (if "::".toList <+: text then text else ':' :: ':' :: text) ↔
      spelling x <:+: text := by
    intro text
    split
    · rfl
    · rw [infix_cons_of_separates rfl, infix_cons_of_separates rfl]
  rw [registrationTypeName, hcolons, apply_ite String.toList]

/-- The call of a registration around its type, its scope, its suite and its name. -/
theorem infix_registrationCall {typeName scope suite : List Char} (name : String) (hscope : betweenText scope = true)
    (hsuite : suite.head?.any separates = true) :
    spelling x <:+: "        ::gentest::detail::register_shared_fixture<".toList ++ typeName ++ ">(".toList ++ scope ++
        ", ".toList ++ suite ++ ", ".toList ++ quoted name ++ ");\n".toList ↔
      spelling x <:+: typeName ∨ spelling x <:+: suite ∨ spelling x <:+: name.toList := by
  repeat rw [String.toList_ofList]
  rw [infix_append_between rfl, infix_append_of_head (v := quoted name) rfl, infix_quoted, infix_append_between rfl,
    infix_append_of_head hsuite, infix_append_between rfl, infix_append_between hscope, infix_append_between rfl,
    infix_append_of_last rfl, or_iff_right (not_infix_fixed rfl), or_assoc]

theorem infix_renderFixtureRegistration (fx : FixtureDeclInfo) :
    spelling x <:+: renderFixtureRegistration fx ↔ ∃ text ∈ registrationTexts fx, spelling x <:+: text.toList := by
  have hnil : ¬spelling x <:+: [] := not_spelled_of_not_opens rfl x
  unfold renderFixtureRegistration registrationTexts
  cases fx.scope
  case localScope =>
    rw [if_pos rfl]
    exact iff_of_false hnil (by simp)
  case suite =>
    rw [if_neg (by decide), if_pos rfl, if_pos rfl, infix_registrationCall fx.qualifiedName _ rfl, infix_quoted,
      infix_registrationTypeName]
    · simp
    · rw [String.toList_ofList]
      rfl
  case global =>
    rw [if_neg (by decide), if_neg (by decide), if_neg (by decide), infix_registrationCall fx.qualifiedName,
      infix_registrationTypeName]
    · rw [or_iff_right not_infix_emptyView]
      simp
    · rw [String.toList_ofList]
      rfl
    · rw [String.toList_ofList]
      rfl

theorem infix_renderFixtureRegistrations (fixtures : List FixtureDeclInfo) :
    spelling x <:+: renderFixtureRegistrations fixtures ↔
      ∃ fx ∈ fixtures, ∃ text ∈ registrationTexts fx, spelling x <:+: text.toList := by
  have hends : ∀ fx ∈ fixtures, renderFixtureRegistration fx = [] ∨
      (renderFixtureRegistration fx).getLast?.any separates = true := by
    intro fx _
    unfold renderFixtureRegistration
    split
    · exact .inl rfl
    · repeat rw [String.toList_ofList]
      rw [List.getLast?_append_of_ne_nil _ (List.cons_ne_nil _ _)]
      exact .inr rfl
  rw [renderFixtureRegistrations, infix_flatMap hends]
  simp only [infix_renderFixtureRegistration]

end Gentest.Codegen.RegistrationText
