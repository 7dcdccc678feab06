import Mathlib.Data.Bool.AllAny
import Mathlib.Data.List.TakeWhile
import Mathlib.Tactic.TypeStar

/-!
# Reading JSON

A reader for the format of RFC 8259. A number is kept as the text it was
written in, since readers differ in what they make of it. Surrogates that are
not paired name no character and are refused.

`render` writes a value without white space, with a writer of its own for the
characters of a string. Whatever text the reader takes for those characters,
the value is read back.
-/

-- A statement about the letters of a text is decided letter by letter, and never by going
-- through all characters.
attribute [
instance 2000] List.decidableBAll Option.decidableForallMem

inductive Json
  | null
  | bool (b : Bool)
  | num (text : List Char)
  | str (s : List Char)
  | arr (elements : List Json)
  | obj (members : List (List Char × Json))

namespace Json

-- ---------------------------------------------------------------------------
-- Strings
-- ---------------------------------------------------------------------------

def hexDigit? (c : Char) : Option Nat :=
  if '0' ≤ c ∧ c ≤ '9' then some (c.toNat - '0'.toNat)
  else if 'a' ≤ c ∧ c ≤ 'f' then some (c.toNat - 'a'.toNat + 10)
  else if 'A' ≤ c ∧ c ≤ 'F' then some (c.toNat - 'A'.toNat + 10)
  else none

/-- A character of a string, or a code unit given by its number. -/
inductive CodeUnit
  | char (c : Char)
  | code (n : Nat)
  deriving DecidableEq, Repr

def escaped? : Char → Option Char
  | '"' => some '"'
  | '\\' => some '\\'
  | '/' => some '/'
  | 'b' => some '\x08'
  | 'f' => some '\x0c'
  | 'n' => some '\n'
  | 'r' => some '\r'
  | 't' => some '\t'
  | _ => none

def readUnits : List Char → Option (List CodeUnit × List Char)
  | [] => none
  | '"' :: rest => some ([], rest)
  | '\\' :: 'u' :: a :: b :: c :: d :: rest => do
    let n := ((((← hexDigit? a) * 16) + (← hexDigit? b)) * 16 + (← hexDigit? c)) * 16 +
      (← hexDigit? d)
    let (units, rest) ← readUnits rest
    return (.code n :: units, rest)
  | '\\' :: c :: rest => do
    let c ← escaped? c
    let (units, rest) ← readUnits rest
    return (.char c :: units, rest)
  | c :: rest =>
    if c.toNat < 0x20 then none
    else do
      let (units, rest) ← readUnits rest
      return (.char c :: units, rest)

/-- Code units name a character each, or two of them a character beyond the
basic plane. -/
def decodeUnits : List CodeUnit → Option (List Char)
  | [] => some []
  | .char c :: units => (c :: ·) <$> decodeUnits units
  | .code high :: .code low :: units =>
    if 0xD800 ≤ high ∧ high < 0xDC00 ∧ 0xDC00 ≤ low ∧ low < 0xE000 then
      (Char.ofNat (0x10000 + (high - 0xD800) * 0x400 + (low - 0xDC00)) :: ·) <$> decodeUnits units
    else if 0xD800 ≤ high ∧ high < 0xE000 then none
    else (Char.ofNat high :: ·) <$> decodeUnits (.code low :: units)
  | .code n :: units =>
    if 0xD800 ≤ n ∧ n < 0xE000 then none else (Char.ofNat n :: ·) <$> decodeUnits units

def readString (text : List Char) : Option (List Char × List Char) := do
  let (units, rest) ← readUnits text
  return (← decodeUnits units, rest)

-- ---------------------------------------------------------------------------
-- Numbers
-- ---------------------------------------------------------------------------

def isNumberChar (c : Char) : Bool := c.isDigit || ['+', '-', '.', 'e', 'E'].contains c

/-- The exponent of a number, or nothing. -/
def isExponent : List Char → Bool
  | [] => true
  | c :: rest =>
    let digits := match rest with
      | '+' :: digits | '-' :: digits => digits
      | digits => digits
    (c == 'e' || c == 'E') && !digits.isEmpty && digits.all Char.isDigit

/-- The fraction and the exponent of a number, each or none of them. -/
def isFraction : List Char → Bool
  | '.' :: rest => !(rest.takeWhile Char.isDigit).isEmpty && isExponent (rest.dropWhile Char.isDigit)
  | rest => isExponent rest

def isUnsigned (text : List Char) : Bool :=
  let int := text.takeWhile Char.isDigit
  !int.isEmpty && (int == ['0'] || int.head? != some '0') && isFraction (text.dropWhile Char.isDigit)

def isNumber : List Char → Bool
  | '-' :: text => isUnsigned text
  | text => isUnsigned text

-- ---------------------------------------------------------------------------
-- Values
-- ---------------------------------------------------------------------------

def isSpace (c : Char) : Bool := [' ', '\t', '\n', '\r'].contains c

def skipSpace (text : List Char) : List Char := text.dropWhile isSpace

def readWord (word : String) (j : Json) (text : List Char) : Option (Json × List Char) :=
  if word.toList.isPrefixOf text then some (j, text.drop word.toList.length) else none

def readNumber (text : List Char) : Option (Json × List Char) :=
  let number := text.takeWhile isNumberChar
  if isNumber number then some (.num number, text.dropWhile isNumberChar) else none

mutual

/-- `fuel` bounds the calls inside one another. -/
def readValue : Nat → List Char → Option (Json × List Char)
  | 0, _ => none
  | fuel + 1, text =>
    match skipSpace text with
    | '"' :: rest => do
      let (s, rest) ← readString rest
      return (.str s, rest)
    | '[' :: rest =>
      match skipSpace rest with
      | ']' :: rest => some (.arr [], rest)
      | rest => do
        let (elements, rest) ← readElements fuel rest
        return (.arr elements, rest)
    | '{' :: rest =>
      match skipSpace rest with
      | '}' :: rest => some (.obj [], rest)
      | rest => do
        let (members, rest) ← readMembers fuel rest
        return (.obj members, rest)
    | 'n' :: rest => readWord "null" .null ('n' :: rest)
    | 't' :: rest => readWord "true" (.bool true) ('t' :: rest)
    | 'f' :: rest => readWord "false" (.bool false) ('f' :: rest)
    | rest => readNumber rest

def readElements : Nat → List Char → Option (List Json × List Char)
  | 0, _ => none
  | fuel + 1, text => do
    let (element, rest) ← readValue fuel text
    match skipSpace rest with
    | ']' :: rest => some ([element], rest)
    | ',' :: rest =>
      let (elements, rest) ← readElements fuel rest
      return (element :: elements, rest)
    | _ => none

def readMembers : Nat → List Char → Option (List (List Char × Json) × List Char)
  | 0, _ => none
  | fuel + 1, text =>
    match skipSpace text with
    | '"' :: rest => do
      let (key, rest) ← readString rest
      match skipSpace rest with
      | ':' :: rest =>
        let (value, rest) ← readValue fuel rest
        match skipSpace rest with
        | '}' :: rest => some ([(key, value)], rest)
        | ',' :: rest =>
          let (members, rest) ← readMembers fuel rest
          return ((key, value) :: members, rest)
        | _ => none
      | _ => none
    | _ => none

end

def read (text : List Char) : Option Json := do
  let (j, rest) ← readValue (text.length + 1) text
  if (skipSpace rest).isEmpty then some j else none

-- ---------------------------------------------------------------------------
-- Writing
-- ---------------------------------------------------------------------------

section

variable (esc : List Char → List Char)

mutual

def render : Json → List Char
  | .null => "null".toList
  | .bool true => "true".toList
  | .bool false => "false".toList
  | .num text => text
  | .str s => '"' :: esc s ++ ['"']
  | .arr elements => '[' :: renderElements elements ++ [']']
  | .obj members => '{' :: renderMembers members ++ ['}']

def renderElements : List Json → List Char
  | [] => []
  | [j] => render j
  | j :: k :: js => render j ++ ',' :: renderElements (k :: js)

def renderMembers : List (List Char × Json) → List Char
  | [] => []
  | [(key, j)] => '"' :: esc key ++ '"' :: ':' :: render j
  | (key, j) :: m :: ms =>
    '"' :: esc key ++ '"' :: ':' :: render j ++ ',' :: renderMembers (m :: ms)

end

attribute [local grind =] render renderElements renderMembers

theorem renderElements_eq (js : List Json) :
    renderElements esc js = [','].intercalate (js.map (render esc)) := by
  induction js with
  | nil => rfl
  | cons j js ih =>
    cases js with
    | nil => simp [renderElements]
    | cons k js =>
      rw [renderElements, ih]
      simp [List.intercalate]

theorem renderMembers_eq (ms : List (List Char × Json)) :
    renderMembers esc ms =
      [','].intercalate (ms.map fun m => '"' :: esc m.1 ++ '"' :: ':' :: render esc m.2) := by
  induction ms with
  | nil => rfl
  | cons m ms ih =>
    cases ms with
    | nil => simp [renderMembers]
    | cons k ms =>
      rw [renderMembers, ih]
      simp [List.intercalate]

end

mutual

/-- Every number in the value is one. -/
def Numeric : Json → Prop
  | .num text => isNumber text = true
  | .arr elements => NumericElements elements
  | .obj members => NumericMembers members
  | _ => True

def NumericElements : List Json → Prop
  | [] => True
  | j :: js => Numeric j ∧ NumericElements js

def NumericMembers : List (List Char × Json) → Prop
  | [] => True
  | (_, j) :: ms => Numeric j ∧ NumericMembers ms

end

theorem numericElements_iff (js : List Json) : NumericElements js ↔ ∀ j ∈ js, Numeric j := by
  induction js with
  | nil => simp [NumericElements]
  | cons j js ih => simp [NumericElements, ih]

theorem numericMembers_iff (ms : List (List Char × Json)) :
    NumericMembers ms ↔ ∀ m ∈ ms, Numeric m.2 := by
  induction ms with
  | nil => simp [NumericMembers]
  | cons m ms ih => simp [NumericMembers, ih]

/-- The reader takes what `esc` writes, up to the closing quote, for the string. -/
def Escapes (esc : List Char → List Char) : Prop :=
  ∀ s rest, readString (esc s ++ '"' :: rest) = some (s, rest)

-- ---------------------------------------------------------------------------
-- Reading back
-- ---------------------------------------------------------------------------

attribute [local grind =] readUnits isNumberChar isUnsigned isNumber isSpace readValue read

theorem readUnits_escaped (c e : Char) (h : escaped? e = some c) (hu : e ≠ 'u')
    (rest : List Char) :
    readUnits ('\\' :: e :: rest) =
      (readUnits rest).map fun r => (.char c :: r.1, r.2) := by
  rw [readUnits]
  · cases readUnits rest <;> simp [h]
  · exact fun a b c d rest he _ => hu he

theorem readUnits_plain {c : Char} (hquote : c ≠ '"') (hslash : c ≠ '\\') (h : ¬c.toNat < 0x20)
    (rest : List Char) :
    readUnits (c :: rest) = (readUnits rest).map fun r => (.char c :: r.1, r.2) := by
  rw [readUnits]
  · cases readUnits rest <;> simp [h]
  · exact hquote
  · exact fun a b c d rest hc _ => hslash hc
  · exact fun e rest hc _ => hslash hc

theorem isNumberChar_of_isDigit {c : Char} (h : c.isDigit = true) : isNumberChar c = true := by
  simp [isNumberChar, h]

theorem isExponent_chars {text : List Char} (h : isExponent text = true) :
    ∀ c ∈ text, isNumberChar c = true := by
  cases text with
  | nil => simp
  | cons e rest =>
    simp only [isExponent, Bool.and_eq_true, List.all_eq_true] at h
    obtain ⟨⟨he, -⟩, hdigits⟩ := h
    have he : isNumberChar e = true := by
      rcases Bool.or_eq_true_iff.mp he with he | he <;>
        simp [isNumberChar, beq_iff_eq.mp he]
    have hrest : ∀ c ∈ rest, isNumberChar c = true := by
      split at hdigits
      · simp only [List.mem_cons, forall_eq_or_imp]
        exact ⟨by decide, fun c hc => isNumberChar_of_isDigit (hdigits c hc)⟩
      · simp only [List.mem_cons, forall_eq_or_imp]
        exact ⟨by decide, fun c hc => isNumberChar_of_isDigit (hdigits c hc)⟩
      · exact fun c hc => isNumberChar_of_isDigit (hdigits c hc)
    simpa using ⟨he, hrest⟩

theorem takeWhile_isDigit_chars (text : List Char) :
    ∀ c ∈ text.takeWhile Char.isDigit, isNumberChar c = true :=
  fun _ hc => isNumberChar_of_isDigit (List.mem_takeWhile_imp hc)

theorem isFraction_chars {text : List Char} (h : isFraction text = true) :
    ∀ c ∈ text, isNumberChar c = true := by
  unfold isFraction at h
  split at h
  · rename_i rest
    simp only [Bool.and_eq_true] at h
    intro c hc
    rw [← List.takeWhile_append_dropWhile (p := Char.isDigit) (l := rest)] at hc
    rcases List.mem_cons.mp hc with rfl | hc
    · decide
    · rcases List.mem_append.mp hc with hc | hc
      · exact takeWhile_isDigit_chars rest c hc
      · exact isExponent_chars h.2 c hc
  · exact isExponent_chars h

theorem isUnsigned_chars {text : List Char} (h : isUnsigned text = true) :
    ∀ c ∈ text, isNumberChar c = true := by
  simp only [isUnsigned, Bool.and_eq_true] at h
  intro c hc
  rw [← List.takeWhile_append_dropWhile (p := Char.isDigit) (l := text)] at hc
  rcases List.mem_append.mp hc with hc | hc
  · exact takeWhile_isDigit_chars text c hc
  · exact isFraction_chars h.2 c hc

theorem isNumber_chars {text : List Char} (h : isNumber text = true) :
    ∀ c ∈ text, isNumberChar c = true := by
  unfold isNumber at h
  split at h
  · simp only [List.mem_cons, forall_eq_or_imp]
    exact ⟨by decide, isUnsigned_chars h⟩
  · exact isUnsigned_chars h

theorem isUnsigned_head {text : List Char} (h : isUnsigned text = true) :
    ∃ c rest, text = c :: rest ∧ c.isDigit = true := by
  cases text with
  | nil => simp [isUnsigned] at h
  | cons c rest =>
    refine ⟨c, rest, rfl, ?_⟩
    by_contra hc
    simp [isUnsigned, hc] at h

theorem isNumber_head {text : List Char} (h : isNumber text = true) :
    ∃ c rest, text = c :: rest ∧ (c = '-' ∨ c.isDigit = true) := by
  unfold isNumber at h
  split at h
  · exact ⟨'-', _, rfl, .inl rfl⟩
  · obtain ⟨c, rest, rfl, hc⟩ := isUnsigned_head h
    exact ⟨c, rest, rfl, .inr hc⟩

/-- What follows does not go on with a number. -/
def Delimited (rest : List Char) : Prop := ∀ c, rest.head? = some c → isNumberChar c = false

theorem readNumber_append {text rest : List Char} (h : isNumber text = true)
    (hrest : Delimited rest) : readNumber (text ++ rest) = some (.num text, rest) := by
  have hchars := isNumber_chars h
  have htake : rest.takeWhile isNumberChar = [] := by
    cases rest with
    | nil => rfl
    | cons c rest => simp [hrest c rfl]
  have hdrop : rest.dropWhile isNumberChar = rest := by
    cases rest with
    | nil => rfl
    | cons c rest => simp [hrest c rfl]
  simp [readNumber, List.takeWhile_append_of_pos hchars, List.dropWhile_append_of_pos hchars,
    htake, hdrop, h]

theorem not_special_of_number {c : Char} (h : c = '-' ∨ c.isDigit = true) :
    isSpace c = false ∧ c ∉ ['"', '[', ']', '{', '}', 'n', 't', 'f'] := by
  rcases h with rfl | h
  · decide
  · have hnot : ∀ d ∈ [' ', '\t', '\n', '\r', '"', '[', ']', '{', '}', 'n', 't', 'f'],
        ¬d.isDigit = true :=
      List.all_iff_forall_prop.mp (by decide)
    have hne : c ∉ [' ', '\t', '\n', '\r', '"', '[', ']', '{', '}', 'n', 't', 'f'] :=
      fun hc => hnot c hc h
    simp only [List.mem_cons, not_or] at hne
    simp [isSpace, hne]

section

variable (esc : List Char → List Char)

/-- The text of a value starts with a character that neither ends an array or
an object nor is white space. -/
theorem render_head {j : Json} (h : Numeric j) :
    ∃ c rest, render esc j = c :: rest ∧ isSpace c = false ∧ c ≠ ']' ∧ c ≠ '}' := by
  cases j with
  | null => exact ⟨_, _, rfl, by decide⟩
  | bool b => cases b <;> exact ⟨_, _, rfl, by decide⟩
  | str s => exact ⟨_, _, by rw [render, List.cons_append], by decide⟩
  | arr elements => exact ⟨_, _, by rw [render, List.cons_append], by decide⟩
  | obj members => exact ⟨_, _, by rw [render, List.cons_append], by decide⟩
  | num text =>
    obtain ⟨c, rest, rfl, hc⟩ := isNumber_head h
    have hspecial := not_special_of_number hc
    simp only [List.mem_cons, not_or] at hspecial
    obtain ⟨hspace, -, -, hbracket, -, hbrace, -⟩ := hspecial
    exact ⟨c, rest, by rw [render], hspace, hbracket, hbrace⟩

theorem renderElements_head (j : Json) (js : List Json) :
    ∃ tail, renderElements esc (j :: js) = render esc j ++ tail := by
  cases js with
  | nil => exact ⟨[], by rw [renderElements, List.append_nil]⟩
  | cons k js => exact ⟨_, by rw [renderElements]⟩

theorem renderMembers_head (m : List Char × Json) (ms : List (List Char × Json)) :
    ∃ tail, renderMembers esc (m :: ms) = '"' :: tail := by
  cases ms with
  | nil => exact ⟨_, by rw [renderMembers, List.cons_append]⟩
  | cons k ms => exact ⟨_, by rw [renderMembers, List.cons_append, List.cons_append]⟩

end

theorem skipSpace_cons {c : Char} (h : isSpace c = false) (rest : List Char) :
    skipSpace (c :: rest) = c :: rest := by
  simp [skipSpace, h]

theorem delimited_cons {c : Char} (h : isNumberChar c = false) (rest : List Char) :
    Delimited (c :: rest) := by
  rintro d ⟨⟩
  exact h

theorem readValue_num {text : List Char} (h : isNumber text = true) (fuel : Nat)
    {rest : List Char} (hrest : Delimited rest) :
    readValue (fuel + 1) (text ++ rest) = some (.num text, rest) := by
  have hread := readNumber_append h hrest
  obtain ⟨c, tail, rfl, hc⟩ := isNumber_head h
  obtain ⟨hspace, hspecial⟩ := not_special_of_number hc
  simp only [List.mem_cons, not_or] at hspecial
  rw [readValue, List.cons_append, skipSpace_cons hspace]
  split
  case h_7 => exact hread
  all_goals
    rename_i heq
    obtain ⟨rfl, -⟩ := List.cons.inj heq
    simp at hspecial

theorem readValue_word {word : String} {j : Json} (fuel : Nat) (rest : List Char)
    (h : (word, j) ∈ [("null", Json.null), ("true", .bool true), ("false", .bool false)]) :
    readValue (fuel + 1) (word.toList ++ rest) = some (j, rest) := by
  simp only [List.mem_cons, Prod.mk.injEq, List.not_mem_nil, or_false] at h
  rcases h with ⟨rfl, rfl⟩ | ⟨rfl, rfl⟩ | ⟨rfl, rfl⟩
  all_goals
    rw [readValue]
    rfl

variable {esc : List Char → List Char} {fuel : Nat} {rest : List Char}

theorem readValue_arr {j : Json} {js : List Json} (h : Numeric j)
    (hread : readElements fuel (renderElements esc (j :: js) ++ ']' :: rest) =
      some (j :: js, rest)) :
    readValue (fuel + 1) (render esc (.arr (j :: js)) ++ rest) =
      some (.arr (j :: js), rest) := by
  obtain ⟨tail, htail⟩ := renderElements_head esc j js
  obtain ⟨c, text, htext, hspace, hbracket, -⟩ := render_head esc h
  rw [htail, htext, List.cons_append, List.cons_append] at hread
  rw [render, htail, htext, List.append_assoc, List.cons_append, List.cons_append,
    readValue, skipSpace_cons (by decide)]
  simp only [List.cons_append, List.nil_append, skipSpace_cons hspace]
  split
  · rename_i heq
    exact absurd (List.cons.inj heq).1 hbracket
  · rw [hread]
    rfl

theorem readValue_obj {m : List Char × Json} {ms : List (List Char × Json)}
    (hread : readMembers fuel (renderMembers esc (m :: ms) ++ '}' :: rest) =
      some (m :: ms, rest)) :
    readValue (fuel + 1) (render esc (.obj (m :: ms)) ++ rest) = some (.obj (m :: ms), rest) := by
  obtain ⟨tail, htail⟩ := renderMembers_head esc m ms
  rw [htail, List.cons_append] at hread
  rw [render, htail, List.append_assoc, List.cons_append, readValue, skipSpace_cons (by decide)]
  have hquote : isSpace '"' = false := by decide
  simp only [List.cons_append, List.nil_append, skipSpace_cons hquote]
  split
  · rename_i heq
    exact absurd (List.cons.inj heq).1 (by decide)
  · rw [hread]
    rfl

/-- A member is read when its value is; `follow` is what stands after it. -/
theorem readMembers_cons (hesc : Escapes esc) {key follow : List Char} {j : Json}
    (hvalue : readValue fuel (render esc j ++ follow) = some (j, follow)) :
    readMembers (fuel + 1) ('"' :: esc key ++ '"' :: ':' :: render esc j ++ follow) =
      match skipSpace follow with
      | '}' :: rest => some ([(key, j)], rest)
      | ',' :: rest => (readMembers fuel rest).map fun r => ((key, j) :: r.1, r.2)
      | _ => none := by
  have hquote : isSpace '"' = false := by decide
  have hcolon : isSpace ':' = false := by decide
  rw [readMembers]
  simp only [List.cons_append, List.append_assoc, skipSpace_cons hquote, hesc key,
    Option.bind_eq_bind, Option.bind_some, skipSpace_cons hcolon, hvalue]
  split
  · rfl
  · cases readMembers fuel _ <;> rfl
  · rfl

mutual

theorem readValue_render (hesc : Escapes esc) : ∀ {j : Json}, Numeric j →
    ∀ (fuel : Nat) (rest : List Char), (render esc j).length ≤ fuel → Delimited rest →
      readValue fuel (render esc j ++ rest) = some (j, rest)
  | .null, _, fuel + 1, rest, _, _ => readValue_word fuel rest (by simp)
  | .bool true, _, fuel + 1, rest, _, _ => readValue_word fuel rest (by simp)
  | .bool false, _, fuel + 1, rest, _, _ => readValue_word fuel rest (by simp)
  | .num text, h, fuel + 1, rest, _, hrest => by
    rw [render]
    exact readValue_num h fuel hrest
  | .str s, _, fuel + 1, rest, _, _ => by
    rw [render, List.append_assoc, List.cons_append, readValue, skipSpace_cons (by decide)]
    simp [hesc s rest]
  | .arr [], _, fuel + 1, rest, _, _ => by
    rw [render, renderElements, readValue]
    rfl
  | .arr (j :: js), h, fuel + 1, rest, hfuel, _ => by
    have hlength : (renderElements esc (j :: js)).length < fuel := by
      simp only [render, List.length_append, List.length_cons, List.length_nil] at hfuel
      omega
    exact readValue_arr h.1 (readElements_render hesc (List.cons_ne_nil j js) h fuel rest hlength)
  | .obj [], _, fuel + 1, rest, _, _ => by
    rw [render, renderMembers, readValue]
    rfl
  | .obj (m :: ms), h, fuel + 1, rest, hfuel, _ => by
    have hlength : (renderMembers esc (m :: ms)).length < fuel := by
      simp only [render, List.length_append, List.length_cons, List.length_nil] at hfuel
      omega
    exact readValue_obj (readMembers_render hesc (List.cons_ne_nil m ms) h fuel rest hlength)
  | j, h, 0, rest, hfuel, _ => by
    obtain ⟨c, text, htext, -⟩ := render_head esc h
    rw [htext] at hfuel
    simp at hfuel

theorem readElements_render (hesc : Escapes esc) : ∀ {js : List Json}, js ≠ [] →
    NumericElements js → ∀ (fuel : Nat) (rest : List Char),
      (renderElements esc js).length < fuel →
      readElements fuel (renderElements esc js ++ ']' :: rest) = some (js, rest)
  | [], h, _, _, _, _ => absurd rfl h
  | [j], _, h, fuel + 1, rest, hfuel => by
    rw [renderElements] at hfuel ⊢
    have hvalue := readValue_render hesc h.1 fuel (']' :: rest) (Nat.lt_succ_iff.mp hfuel)
      (delimited_cons (by decide) rest)
    rw [readElements, hvalue]
    rfl
  | j :: k :: js, _, h, fuel + 1, rest, hfuel => by
    rw [renderElements] at hfuel ⊢
    simp only [List.length_append, List.length_cons] at hfuel
    have hvalue := readValue_render hesc h.1 fuel
      (',' :: renderElements esc (k :: js) ++ ']' :: rest) (by omega)
      (delimited_cons (by decide) _)
    have hrest := readElements_render hesc (List.cons_ne_nil k js) h.2 fuel rest (by omega)
    have hcomma : isSpace ',' = false := by decide
    rw [List.append_assoc, readElements, hvalue]
    simp only [Option.bind_eq_bind, Option.bind_some, List.cons_append, skipSpace_cons hcomma,
      hrest]
    rfl

theorem readMembers_render (hesc : Escapes esc) : ∀ {ms : List (List Char × Json)}, ms ≠ [] →
    NumericMembers ms → ∀ (fuel : Nat) (rest : List Char),
      (renderMembers esc ms).length < fuel →
      readMembers fuel (renderMembers esc ms ++ '}' :: rest) = some (ms, rest)
  | [], h, _, _, _, _ => absurd rfl h
  | [(key, j)], _, h, fuel + 1, rest, hfuel => by
    rw [renderMembers] at hfuel ⊢
    simp only [List.length_append, List.length_cons] at hfuel
    have hvalue := readValue_render hesc h.1 fuel ('}' :: rest) (by omega)
      (delimited_cons (by decide) rest)
    rw [readMembers_cons hesc hvalue, skipSpace_cons (by decide)]
    rfl
  | (key, j) :: m :: ms, _, h, fuel + 1, rest, hfuel => by
    rw [renderMembers] at hfuel ⊢
    simp only [List.length_append, List.length_cons] at hfuel
    have hvalue := readValue_render hesc h.1 fuel
      (',' :: renderMembers esc (m :: ms) ++ '}' :: rest) (by omega)
      (delimited_cons (by decide) _)
    have hrest := readMembers_render hesc (List.cons_ne_nil m ms) h.2 fuel rest (by omega)
    rw [List.append_assoc, readMembers_cons hesc hvalue, List.cons_append,
      skipSpace_cons (by decide)]
    simp [hrest]

end

/-- The text of a value is read back, with white space after it or not. -/
theorem read_render (hesc : Escapes esc) {j : Json} (h : Numeric j) {space : List Char}
    (hspace : ∀ c ∈ space, isSpace c = true) : read (render esc j ++ space) = some j := by
  have hdelimited : Delimited space := by
    intro c hc
    have hc := hspace c (List.mem_of_mem_head? hc)
    have hnone : ∀ c ∈ [' ', '\t', '\n', '\r'], isNumberChar c = false :=
      List.all_iff_forall_prop.mp (by decide)
    exact hnone c (by simpa [isSpace] using hc)
  have hread := readValue_render hesc h ((render esc j ++ space).length + 1) space
    (by simp; omega) hdelimited
  have hdrop : skipSpace space = [] := List.dropWhile_eq_nil_iff.mpr hspace
  rw [read, hread]
  simp [hdrop]

theorem read_string {text s : List Char} (h : readString text = some (s, [])) : read ('"' :: text) = some (.str s) := by
  have hskip : skipSpace ('"' :: text) = '"' :: text := skipSpace_cons (by decide) text
  rw [read, readValue, hskip]
  change ((readString text).bind fun value => some (Json.str value.1, value.2)).bind _ = _
  rw [h]
  rfl

end Json
