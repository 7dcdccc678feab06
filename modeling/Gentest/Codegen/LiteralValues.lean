import Gentest.Codegen.AttributeRoundTrip
import Gentest.Codegen.TypeKind
import Gentest.Lib.CppLiteral

/-!
# What the emitted literals denote

An argument is decoded when it is parsed and escaped again when it is emitted.
The decoder knows a few simple escapes and drops the backslash of every other
one; a value for a string parameter is taken for a literal when it looks like
one.
-/

namespace Gentest.Codegen

open CppLiteral

-- ---------------------------------------------------------------------------
-- Decoded parts
-- ---------------------------------------------------------------------------

def decodedEscapes : List Char := ['\\', '"', '\'', '?', 'n', 'r', 't']

def keepsEscapes : Bool → List Char → Bool
  | _, [] => true
  | true, ch :: rest => decodedEscapes.contains ch && keepsEscapes false rest
  | false, ch :: rest => keepsEscapes (ch == '\\') rest

def decodedPart : Part → List Char
  | .plain ch => [ch]
  | .simple ch => [decodeEscape ch]
  | .octal digits => digits
  | .hex digits => 'x' :: digits
  | .universal mark digits => mark :: digits

def keptPart : Part → Bool
  | .plain _ => true
  | .simple ch => decodedEscapes.contains ch
  | .octal _ | .hex _ | .universal .. => false

theorem decodeEscapes_plain (front : List Char) (h : ∀ ch ∈ front, ch ≠ '\\') (rest : List Char) :
    decodeEscapes false (front ++ rest) = front ++ decodeEscapes false rest := by
  induction front with
  | nil => rfl
  | cons ch front ih =>
    obtain ⟨hch, hfront⟩ := List.forall_mem_cons.mp h
    simp [decodeEscapes, hch, ih hfront]

theorem keepsEscapes_plain (front : List Char) (h : ∀ ch ∈ front, ch ≠ '\\') (rest : List Char) :
    keepsEscapes false (front ++ rest) = keepsEscapes false rest := by
  induction front with
  | nil => rfl
  | cons ch front ih =>
    obtain ⟨hch, hfront⟩ := List.forall_mem_cons.mp h
    simp [keepsEscapes, beq_false_of_ne hch, ih hfront]

theorem ne_backslash_of_digits {base : Nat} (hbase : base ≤ 16) {digits : List Char}
    (h : ∀ ch ∈ digits, isDigit base ch) : ∀ ch ∈ digits, ch ≠ '\\' :=
  fun ch hch => isDigit_ne hbase (h ch hch) (by decide)

theorem decodeEscapes_part {part : Part} (h : part.Spelled) (rest : List Char) :
    decodeEscapes false (part.text ++ rest) = decodedPart part ++ decodeEscapes false rest := by
  cases part with
  | plain ch => exact decodeEscapes_plain [ch] (by simpa using h.2.1) rest
  | simple ch => rfl
  | octal digits =>
    obtain ⟨ch, more, rfl⟩ := List.exists_cons_of_ne_nil h.1
    obtain ⟨hch, hmore⟩ := List.forall_mem_cons.mp h.2
    have hletter : ∀ ch ∈ "0123456789abcdefABCDEF".toList, decodeEscape ch = ch :=
      List.all_iff_forall_prop.mp (by decide)
    have hplain := decodeEscapes_plain _ (ne_backslash_of_digits (by decide) hmore) rest
    simp only [Part.text, decodedPart, List.cons_append, decodeEscapes, ↓reduceIte, hplain,
      hletter ch (mem_of_isDigit (by decide) hch)]
  | hex digits =>
    have hplain := decodeEscapes_plain _ (ne_backslash_of_digits (by decide) h.2) rest
    simp [Part.text, decodedPart, decodeEscapes, decodeEscape, hplain]
  | universal mark digits =>
    obtain ⟨hmark, -, hdigits⟩ := h
    have hletter : decodeEscape mark = mark := by
      obtain rfl | rfl := hmark
      · rfl
      · rfl
    have hplain := decodeEscapes_plain _ (ne_backslash_of_digits (by decide) hdigits) rest
    simp [Part.text, decodedPart, decodeEscapes, hletter, hplain]

theorem keepsEscapes_part {part : Part} (h : part.Spelled) (rest : List Char) :
    keepsEscapes false (part.text ++ rest) = (keptPart part && keepsEscapes false rest) := by
  cases part with
  | plain ch => exact keepsEscapes_plain [ch] (by simpa using h.2.1) rest
  | simple ch => simp [Part.text, keptPart, keepsEscapes]
  | octal digits =>
    obtain ⟨ch, more, rfl⟩ := List.exists_cons_of_ne_nil h.1
    have hch := mem_of_isDigit (by decide) (h.2 ch List.mem_cons_self)
    have hletter : ∀ ch ∈ "0123456789abcdefABCDEF".toList, decodedEscapes.contains ch = false :=
      List.all_iff_forall_prop.mp (by decide)
    simp only [Part.text, keptPart, List.cons_append, keepsEscapes, beq_self_eq_true, hletter ch hch,
      Bool.false_and]
  | hex digits => rfl
  | universal mark digits =>
    obtain rfl | rfl := h.1
    · rfl
    · rfl

theorem length_units_le_decoded {part : Part} (h : part.Spelled) :
    part.units.length ≤ (decodedPart part).length := by
  cases part with
  | octal digits => exact List.length_pos_of_ne_nil h.1
  | universal mark digits =>
    have hencoded := Char.utf8Size_le_four (Char.ofNat (number 16 digits))
    have hlength := h.2.1
    simp only [Part.units, decodedPart, Utf8.encode_cons, Utf8.encode_nil, List.append_nil, List.length_map,
      String.length_utf8EncodeChar, List.length_cons]
    omega
  | _ => simp [Part.units, decodedPart]

theorem units_eq_decoded_iff {part : Part} (h : part.Spelled) :
    part.units = (decodedPart part).map Char.toNat ↔ keptPart part = true := by
  cases part with
  | plain ch => simp [Part.units, decodedPart, keptPart]
  | simple ch =>
    have hall : ∀ ch ∈ ['\'', '"', '?', '\\', 'a', 'b', 'f', 'n', 'r', 't', 'v'],
        (Part.simple ch).units = (decodedPart (.simple ch)).map Char.toNat ↔ keptPart (.simple ch) = true :=
      List.all_iff_forall_prop.mp (by decide)
    exact hall ch (simpleEscape_cases h)
  | octal digits =>
    obtain ⟨ch, more, rfl⟩ := List.exists_cons_of_ne_nil h.1
    simp only [keptPart, Bool.false_eq_true, iff_false]
    intro heq
    cases more with
    | nil =>
      obtain ⟨value, hvalue⟩ := Option.isSome_iff_exists.mp (h.2 ch List.mem_cons_self)
      have hlt := digit?_lt hvalue
      have hrange := isDigit_range (h.2 ch List.mem_cons_self)
      simp only [Part.units, number, List.foldl_cons, List.foldl_nil, hvalue, Option.getD_some, decodedPart,
        List.map_cons, List.map_nil, List.cons.injEq, and_true] at heq
      omega
    | cons next more => simp [Part.units, decodedPart] at heq
  | hex digits =>
    simp only [keptPart, Bool.false_eq_true, iff_false]
    intro heq
    have heq := congrArg List.length heq
    exact h.1 (by simpa [Part.units, decodedPart] using heq)
  | universal mark digits =>
    have hencoded := Char.utf8Size_le_four (Char.ofNat (number 16 digits))
    have hlength := h.2.1
    simp only [keptPart, Bool.false_eq_true, iff_false]
    intro heq
    have heq := congrArg List.length heq
    simp only [Part.units, decodedPart, Utf8.encode_cons, Utf8.encode_nil, List.append_nil, List.length_map,
      String.length_utf8EncodeChar, List.length_cons] at heq
    omega

-- ---------------------------------------------------------------------------
-- Escaped values
-- ---------------------------------------------------------------------------

def escapedPart (ch : Char) : Part :=
  match ch with
  | '\\' => .simple '\\'
  | '"' => .simple '"'
  | '\n' => .simple 'n'
  | '\r' => .simple 'r'
  | '\t' => .simple 't'
  | ch => .plain ch

theorem readPart_escapeChar (ch : Char) (rest : List Char) :
    readPart (escapeChar ch ++ rest) = some (escapedPart ch, rest) ∧ (escapedPart ch).units = [ch.toNat] := by
  unfold escapeChar
  split
  case h_6 hmark hquote hline hreturn htab =>
    have hpart : escapedPart ch = .plain ch := by
      unfold escapedPart
      split
      all_goals trivial
    have hread : readPart ([ch] ++ rest) = some (.plain ch, rest) := by
      simp only [List.singleton_append, readPart, if_neg hmark, if_neg (not_or.mpr ⟨hquote, hline⟩)]
    rw [hpart]
    exact ⟨hread, rfl⟩
  all_goals exact ⟨rfl, rfl⟩

theorem readPartsFrom_escapeString (value : List Char) {rounds : Nat} (h : value.length ≤ rounds) :
    readPartsFrom rounds (escapeString value) = some (value.map escapedPart) := by
  induction value generalizing rounds with
  | nil => cases rounds with
    | zero => rfl
    | succ rounds => rfl
  | cons ch value ih =>
    obtain ⟨rounds, rfl⟩ := Nat.exists_eq_add_of_le' (Nat.lt_of_lt_of_le (Nat.succ_pos _) h)
    obtain ⟨hread, -⟩ := readPart_escapeChar ch (escapeString value)
    have hmore := ih (Nat.le_of_succ_le_succ h)
    have htext : escapeString (ch :: value) = escapeChar ch ++ escapeString value := rfl
    rw [htext]
    cases hfront : escapeChar ch ++ escapeString value with
    | nil => simp [hfront, readPart] at hread
    | cons first more =>
      rw [hfront] at hread
      simp only [readPartsFrom, hread, hmore, Option.map_some, List.map_cons]

theorem literalUnits_escapeString (value : List Char) :
    literalUnits (escapeString value) = some (value.map Char.toNat) := by
  have hlength : value.length ≤ (escapeString value).length := by
    have hone : ∀ ch, 1 ≤ (escapeChar ch).length := fun ch => by
      unfold escapeChar
      split
      all_goals simp
    induction value with
    | nil => exact Nat.le_refl 0
    | cons ch value ih =>
      have hch := hone ch
      simp only [escapeString, List.flatMap_cons, List.length_append, List.length_cons] at ih ⊢
      omega
  rw [literalUnits, readParts, readPartsFrom_escapeString value hlength, Option.map_some, List.flatMap_map]
  have hunits : ∀ ch : Char, (escapedPart ch).units = [ch.toNat] := fun ch => (readPart_escapeChar ch []).2
  simp only [hunits, ← List.map_eq_flatMap]

-- ---------------------------------------------------------------------------
-- Literals with their quotes
-- ---------------------------------------------------------------------------

def quoted (body : List Char) : List Char := '"' :: body ++ ['"']

/-- The code units of a string literal, with white space around it or an encoding
prefix. -/
def stringLiteralUnits (text : List Char) : Option (List Nat) :=
  let token := trimView text
  match encodingPrefixes.find? (looksQuoted '"' 2 token) with
  | none => none
  | some lead => literalUnits (token.drop (lead.length + 1)).dropLast

theorem tight_prefixed {lead : List Char} (hlead : lead ∈ encodingPrefixes) (body : List Char) :
    Tight (lead ++ quoted body) := by
  have hspace : ∀ lead ∈ encodingPrefixes, ∀ ch ∈ lead, isSpace ch = false := by decide
  cases lead with
  | nil => exact tight_cons_append (by decide) (by decide)
  | cons ch lead =>
    have hch := hspace _ hlead ch List.mem_cons_self
    have htight : Tight (ch :: (lead ++ '"' :: body) ++ ['"']) := tight_cons_append hch (by decide)
    simpa [quoted] using htight

theorem stringLiteralUnits_prefixed {lead : List Char} (hlead : lead ∈ encodingPrefixes) (body : List Char) :
    stringLiteralUnits (lead ++ quoted body) = literalUnits body := by
  have hfind : encodingPrefixes.find? (looksQuoted '"' 2 (lead ++ quoted body)) = some lead := by
    have hlast : ('"' :: (body ++ ['"'])).getLast? = some '"' := List.getLast?_concat (l := '"' :: body)
    simp only [encodingPrefixes, List.mem_cons, List.not_mem_nil, or_false] at hlead
    obtain rfl | rfl | rfl | rfl | rfl := hlead
    all_goals simp [encodingPrefixes, looksQuoted, quoted, hlast]
  rw [stringLiteralUnits, (tight_prefixed hlead body).trimView]
  simp only [hfind]
  simp [quoted]

theorem stringLiteralUnits_quoted (body : List Char) : stringLiteralUnits (quoted body) = literalUnits body :=
  @stringLiteralUnits_prefixed [] (by decide) body

theorem length_stringLiteralUnits_lt {text : List Char} {units : List Nat}
    (h : stringLiteralUnits text = some units) : units.length < text.length := by
  have htrim : (trimView text).length ≤ text.length := by
    rw [trimView, List.length_reverse]
    refine (List.dropWhile_sublist _).length_le.trans ?_
    rw [List.length_reverse]
    exact (List.dropWhile_sublist _).length_le
  unfold stringLiteralUnits at h
  cases hfind : encodingPrefixes.find? (looksQuoted '"' 2 (trimView text)) with
  | none => simp [hfind] at h
  | some lead =>
    simp only [hfind] at h
    have hlooks := List.find?_some hfind
    simp only [looksQuoted, Bool.and_eq_true, decide_eq_true_eq] at hlooks
    have hlength := length_literalUnits_le h
    simp only [List.length_dropLast, List.length_drop] at hlength
    omega

-- ---------------------------------------------------------------------------
-- String literals
-- ---------------------------------------------------------------------------

theorem units_eq_decoded {parts : List Part} (h : ∀ part ∈ parts, part.Spelled) :
    parts.flatMap Part.units = (decodeEscapes false (parts.flatMap Part.text)).map Char.toNat ↔
      keepsEscapes false (parts.flatMap Part.text) = true := by
  have hle : ∀ parts : List Part, (∀ part ∈ parts, part.Spelled) → (parts.flatMap Part.units).length ≤
      (decodeEscapes false (parts.flatMap Part.text)).length := by
    intro parts h
    induction parts with
    | nil => exact Nat.le_refl 0
    | cons part parts ih =>
      obtain ⟨hpart, hparts⟩ := List.forall_mem_cons.mp h
      simp only [List.flatMap_cons, decodeEscapes_part hpart, List.length_append]
      exact Nat.add_le_add (length_units_le_decoded hpart) (ih hparts)
  induction parts with
  | nil => exact ⟨fun _ => rfl, fun _ => rfl⟩
  | cons part parts ih =>
    obtain ⟨hpart, hparts⟩ := List.forall_mem_cons.mp h
    simp only [List.flatMap_cons, decodeEscapes_part hpart, keepsEscapes_part hpart, List.map_append,
      Bool.and_eq_true, ← units_eq_decoded_iff hpart, ← ih hparts]
    constructor
    · intro heq
      -- neither side is ever longer than the decoded text, so equal wholes are cut alike
      have hlength := congrArg List.length heq
      have hfront := length_units_le_decoded hpart
      have hbehind := hle parts hparts
      simp only [List.length_append, List.length_map] at hlength
      exact List.append_inj heq (by rw [List.length_map]; omega)
    · rintro ⟨hfront, hbehind⟩
      rw [hfront, hbehind]

/-- The emitted literal denotes what the argument does exactly when each escape of
the argument is one that the decoder knows. -/
theorem string_literal_keeps_its_value (body : List Char) (units : List Nat)
    (h : stringLiteralUnits (quoted body) = some units) :
    stringLiteralUnits (renderArgument (unquote (quoted body))) = some units ↔ keepsEscapes false body = true := by
  rw [stringLiteralUnits_quoted] at h
  obtain ⟨parts, hspelled, rfl, rfl⟩ := literalUnits_eq_some h
  have hunquote : unquote (quoted (parts.flatMap Part.text)) = decodeEscapes false (parts.flatMap Part.text) :=
    unquote_quoted _
  have hemitted : stringLiteralUnits (renderArgument (decodeEscapes false (parts.flatMap Part.text))) =
      some ((decodeEscapes false (parts.flatMap Part.text)).map Char.toNat) :=
    (stringLiteralUnits_quoted _).trans (literalUnits_escapeString _)
  rw [hunquote, hemitted, ← units_eq_decoded hspelled, Option.some.injEq]
  exact eq_comm

/-- The literal `"a\n\"b"`. -/
theorem known_escapes_keep_their_value :
    stringLiteralUnits (renderArgument (unquote (quoted ['a', '\\', 'n', '\\', '"', 'b']))) =
      some [97, 10, 34, 98] :=
  (string_literal_keeps_its_value ['a', '\\', 'n', '\\', '"', 'b'] [97, 10, 34, 98] (by decide)).mpr (by decide)

/-- The literal `"\x41"` is one letter and is emitted as three. -/
theorem hex_escape_loses_its_value :
    ∃ body units, stringLiteralUnits (quoted body) = some units ∧
      stringLiteralUnits (renderArgument (unquote (quoted body))) ≠ some units :=
  ⟨['\\', 'x', '4', '1'], [65], by decide, by decide⟩

-- ---------------------------------------------------------------------------
-- Values of string parameters
-- ---------------------------------------------------------------------------

theorem stringLiteralPrefix_mem (typeName : List Char) : stringLiteralPrefix typeName ∈ encodingPrefixes := by
  unfold stringLiteralPrefix
  dsimp only
  split_ifs
  all_goals decide

/-- A value reaches its parameter exactly when it does not look like a literal. -/
theorem string_parameter_keeps_its_value (value typeName : List Char) (h : classifyType typeName = .string) :
    stringLiteralUnits (quoteForType (classifyType typeName) (unquote (renderArgument value)) typeName) =
        some (value.map Char.toNat) ↔
      isStringLiteral value = false := by
  rw [h, unquote_renderArgument, quoteForType]
  cases hlooks : isStringLiteral value with
  | true =>
    simp only [↓reduceIte, Bool.true_eq_false, iff_false]
    intro heq
    have hlt := length_stringLiteralUnits_lt heq
    rw [List.length_map] at hlt
    exact absurd hlt (Nat.lt_irrefl _)
  | false =>
    have hunits := stringLiteralUnits_prefixed (stringLiteralPrefix_mem typeName) (escapeString value)
    simp only [Bool.false_eq_true, ↓reduceIte, iff_true]
    rw [← literalUnits_escapeString, ← hunits]
    simp [quoted]

theorem plain_value_reaches_a_wide_parameter :
    stringLiteralUnits (quoteForType (classifyType "const std::wstring &".toList)
        (unquote (renderArgument ['a', '"', '\\'])) "const std::wstring &".toList) =
      some (['a', '"', '\\'].map Char.toNat) :=
  (string_parameter_keeps_its_value ['a', '"', '\\'] "const std::wstring &".toList (by decide)).mpr (by decide)

/-- The value `"a"`, quotes included, arrives without them. -/
theorem quoted_value_loses_its_quotes :
    ∃ value typeName, classifyType typeName = .string ∧
      stringLiteralUnits (quoteForType (classifyType typeName) (unquote (renderArgument value)) typeName) ≠
        some (value.map Char.toNat) :=
  ⟨['"', 'a', '"'], "std::string".toList, by decide, by decide⟩

end Gentest.Codegen
