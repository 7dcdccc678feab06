import Gentest.Lib.Utf8
import Mathlib.Data.List.TakeWhile

/-!
# Literals of C++

What stands between the quotes of a string literal, read part by part: plain
characters, simple escapes, octal and hexadecimal escapes with as many digits as
they can take, and universal character names. Texts are lists of bytes, a byte
being the character of its number, and so are the code units.
-/

namespace CppLiteral

-- ---------------------------------------------------------------------------
-- Digits
-- ---------------------------------------------------------------------------

/-- The value of `0` to `9`, `a` to `f` and `A` to `F` below the base. -/
def digit? (base : Nat) (ch : Char) : Option Nat :=
  let code := ch.toNat
  let value :=
    if 48 ≤ code ∧ code ≤ 57 then code - 48
    else if 97 ≤ code ∧ code ≤ 102 then code - 87
    else if 65 ≤ code ∧ code ≤ 70 then code - 55
    else base
  if value < base then some value else none

def isDigit (base : Nat) (ch : Char) : Bool := (digit? base ch).isSome

def number (base : Nat) (digits : List Char) : Nat :=
  digits.foldl (fun n ch => n * base + (digit? base ch).getD 0) 0

theorem digit?_lt {base value : Nat} {ch : Char} (h : digit? base ch = some value) : value < base := by
  obtain ⟨hlt, hvalue⟩ := Option.ite_none_right_eq_some.mp h
  exact Option.some.inj hvalue ▸ hlt

theorem digit?_mono {base larger value : Nat} {ch : Char} (hbase : base ≤ larger)
    (h : digit? base ch = some value) : digit? larger ch = some value := by
  unfold digit? at h ⊢
  grind

theorem isDigit_mono {base larger : Nat} {ch : Char} (hbase : base ≤ larger) (h : isDigit base ch = true) :
    isDigit larger ch = true := by
  obtain ⟨value, hvalue⟩ := Option.isSome_iff_exists.mp h
  exact Option.isSome_iff_exists.mpr ⟨value, digit?_mono hbase hvalue⟩

theorem isDigit_range {base : Nat} {ch : Char} (h : isDigit base ch = true) :
    48 ≤ ch.toNat ∧ ch.toNat ≤ 102 := by
  unfold isDigit digit? at h
  grind

theorem mem_of_isDigit {base : Nat} (hbase : base ≤ 16) {ch : Char} (h : isDigit base ch = true) :
    ch ∈ "0123456789abcdefABCDEF".toList := by
  have hcodes : ∀ code ∈ List.range 103, isDigit 16 (Char.ofNat code) = true →
      Char.ofNat code ∈ "0123456789abcdefABCDEF".toList := by decide +kernel
  have hcode := hcodes ch.toNat (List.mem_range.mpr (Nat.lt_succ_of_le (isDigit_range h).2))
  rw [Char.ofNat_toNat] at hcode
  exact hcode (isDigit_mono hbase h)

theorem isDigit_ne {base : Nat} (hbase : base ≤ 16) {ch other : Char} (h : isDigit base ch = true)
    (hother : other ∉ "0123456789abcdefABCDEF".toList) : ch ≠ other := by
  rintro rfl
  exact hother (mem_of_isDigit hbase h)

-- ---------------------------------------------------------------------------
-- The parts of a string literal
-- ---------------------------------------------------------------------------

/-- What the letter of a simple escape stands for. -/
def simpleEscape : Char → Option Nat
  | '\'' => some 39
  | '"' => some 34
  | '?' => some 63
  | '\\' => some 92
  | 'a' => some 7
  | 'b' => some 8
  | 'f' => some 12
  | 'n' => some 10
  | 'r' => some 13
  | 't' => some 9
  | 'v' => some 11
  | _ => none

inductive Part where
  | plain (ch : Char)
  | simple (ch : Char)
  | octal (digits : List Char)
  | hex (digits : List Char)
  | universal (mark : Char) (digits : List Char)
  deriving DecidableEq, Repr

namespace Part

def text : Part → List Char
  | plain ch => [ch]
  | simple ch => ['\\', ch]
  | octal digits => '\\' :: digits
  | hex digits => '\\' :: 'x' :: digits
  | universal mark digits => '\\' :: mark :: digits

/-- The code units a part denotes; a universal character is encoded in UTF-8. -/
def units : Part → List Nat
  | plain ch => [ch.toNat]
  | simple ch => [(simpleEscape ch).getD 0]
  | octal digits => [number 8 digits]
  | hex digits => [number 16 digits]
  | universal _ digits => (Utf8.encode [Char.ofNat (number 16 digits)]).map UInt8.toNat

def Spelled : Part → Prop
  | plain ch => ch ≠ '"' ∧ ch ≠ '\\' ∧ ch ≠ '\n'
  | simple ch => (simpleEscape ch).isSome
  | octal digits => digits ≠ [] ∧ ∀ ch ∈ digits, isDigit 8 ch
  | hex digits => digits ≠ [] ∧ ∀ ch ∈ digits, isDigit 16 ch
  | universal mark digits => (mark = 'u' ∨ mark = 'U') ∧ 4 ≤ digits.length ∧ ∀ ch ∈ digits, isDigit 16 ch

end Part

/-- A numeric escape stands for one code unit. -/
def fits (value : Nat) : Bool := value < 256

def readEscape : List Char → Option (Part × List Char)
  | [] => none
  | ch :: rest =>
    if ch = 'x' then
      let digits := rest.takeWhile (isDigit 16)
      if digits ≠ [] ∧ fits (number 16 digits) then some (.hex digits, rest.dropWhile (isDigit 16)) else none
    else if ch = 'u' ∨ ch = 'U' then
      let count := if ch = 'u' then 4 else 8
      let digits := rest.take count
      if digits.length = count ∧ digits.all (isDigit 16) ∧ (number 16 digits).isValidChar then
        some (.universal ch digits, rest.drop count)
      else none
    else if isDigit 8 ch then
      let digits := (rest.take 2).takeWhile (isDigit 8)
      if fits (number 8 (ch :: digits)) then some (.octal (ch :: digits), rest.drop digits.length) else none
    else if (simpleEscape ch).isSome then some (.simple ch, rest)
    else none

def readPart : List Char → Option (Part × List Char)
  | [] => none
  | ch :: rest =>
    if ch = '\\' then readEscape rest
    else if ch = '"' ∨ ch = '\n' then none
    else some (.plain ch, rest)

def readPartsFrom : Nat → List Char → Option (List Part)
  | _, [] => some []
  | 0, _ :: _ => none
  | rounds + 1, ch :: text =>
    match readPart (ch :: text) with
    | none => none
    | some (part, rest) => (readPartsFrom rounds rest).map (part :: ·)

/-- The parts of what stands between the quotes of a string literal. -/
def readParts (body : List Char) : Option (List Part) := readPartsFrom body.length body

def literalUnits (body : List Char) : Option (List Nat) :=
  (readParts body).map fun parts => parts.flatMap Part.units

-- ---------------------------------------------------------------------------
-- Reading
-- ---------------------------------------------------------------------------

theorem simpleEscape_cases {ch : Char} (h : (simpleEscape ch).isSome) :
    ch ∈ ['\'', '"', '?', '\\', 'a', 'b', 'f', 'n', 'r', 't', 'v'] := by
  unfold simpleEscape at h
  split at h
  all_goals simp at h ⊢

theorem readEscape_spelled {text rest : List Char} {part : Part} (h : readEscape text = some (part, rest)) :
    part.Spelled ∧ '\\' :: text = part.text ++ rest := by
  unfold readEscape at h
  cases text with
  | nil => cases h
  | cons ch text =>
    simp only at h
    split at h
    · rename_i hx
      subst hx
      obtain ⟨⟨hne, -⟩, h⟩ := Option.ite_none_right_eq_some.mp h
      obtain ⟨rfl, rfl⟩ := Prod.mk.inj (Option.some.inj h)
      refine ⟨⟨hne, fun ch hch => List.mem_takeWhile_imp hch⟩, ?_⟩
      simp [Part.text]
    · split at h
      · rename_i hmark
        obtain ⟨⟨hlength, hall, -⟩, h⟩ := Option.ite_none_right_eq_some.mp h
        obtain ⟨rfl, rfl⟩ := Prod.mk.inj (Option.some.inj h)
        refine ⟨⟨hmark, ?_, List.all_eq_true.mp hall⟩, ?_⟩
        · rw [hlength]
          split <;> omega
        · simp [Part.text]
      · split at h
        · rename_i hdigit
          obtain ⟨-, h⟩ := Option.ite_none_right_eq_some.mp h
          obtain ⟨rfl, rfl⟩ := Prod.mk.inj (Option.some.inj h)
          refine ⟨⟨List.cons_ne_nil _ _, ?_⟩, ?_⟩
          · rintro c (_ | ⟨_, hc⟩)
            · exact hdigit
            · exact List.mem_takeWhile_imp hc
          · have hfront : ((text.take 2).takeWhile (isDigit 8)).IsPrefix text :=
              (List.takeWhile_prefix _).trans (List.take_prefix _ _)
            simp [Part.text, List.prefix_iff_eq_append.mp hfront]
        · obtain ⟨hsimple, h⟩ := Option.ite_none_right_eq_some.mp h
          obtain ⟨rfl, rfl⟩ := Prod.mk.inj (Option.some.inj h)
          exact ⟨hsimple, rfl⟩

theorem readPart_spelled {text rest : List Char} {part : Part} (h : readPart text = some (part, rest)) :
    part.Spelled ∧ text = part.text ++ rest := by
  cases text with
  | nil => cases h
  | cons ch text =>
    simp only [readPart] at h
    split at h
    · rename_i hmark
      subst hmark
      exact readEscape_spelled h
    · rename_i hmark
      obtain ⟨hplain, h⟩ := Option.ite_none_left_eq_some.mp h
      obtain ⟨rfl, rfl⟩ := Prod.mk.inj (Option.some.inj h)
      obtain ⟨hquote, hline⟩ := not_or.mp hplain
      exact ⟨⟨hquote, hmark, hline⟩, rfl⟩

theorem readPartsFrom_spelled {rounds : Nat} {text : List Char} {parts : List Part}
    (h : readPartsFrom rounds text = some parts) :
    (∀ part ∈ parts, part.Spelled) ∧ text = parts.flatMap Part.text := by
  induction rounds generalizing text parts with
  | zero =>
    cases text with
    | nil =>
      cases h
      exact ⟨fun _ hmem => (nomatch hmem), rfl⟩
    | cons ch text => cases h
  | succ rounds ih =>
    cases text with
    | nil =>
      cases h
      exact ⟨fun _ hmem => (nomatch hmem), rfl⟩
    | cons ch text =>
      unfold readPartsFrom at h
      cases hpart : readPart (ch :: text) with
      | none => simp [hpart] at h
      | some read =>
        obtain ⟨part, rest⟩ := read
        simp only [hpart, Option.map_eq_some_iff] at h
        obtain ⟨more, hmore, rfl⟩ := h
        obtain ⟨hspelled, htext⟩ := readPart_spelled hpart
        obtain ⟨hall, hrest⟩ := ih hmore
        exact ⟨List.forall_mem_cons.mpr ⟨hspelled, hall⟩, by rw [htext, hrest, List.flatMap_cons]⟩

theorem Part.length_units_le {part : Part} (h : part.Spelled) : part.units.length ≤ part.text.length := by
  cases part with
  | universal mark digits =>
    have hencoded := Char.utf8Size_le_four (Char.ofNat (number 16 digits))
    have hlength := h.2.1
    simp only [Part.units, Part.text, Utf8.encode_cons, Utf8.encode_nil, List.append_nil, List.length_map,
      String.length_utf8EncodeChar, List.length_cons]
    omega
  | _ => simp [Part.units, Part.text]

theorem literalUnits_eq_some {body : List Char} {units : List Nat} (h : literalUnits body = some units) :
    ∃ parts : List Part, (∀ part ∈ parts, part.Spelled) ∧ body = parts.flatMap Part.text ∧
      units = parts.flatMap Part.units := by
  obtain ⟨parts, hparts, rfl⟩ := Option.map_eq_some_iff.mp h
  obtain ⟨hall, htext⟩ := readPartsFrom_spelled hparts
  exact ⟨parts, hall, htext, rfl⟩

theorem length_literalUnits_le {body : List Char} {units : List Nat} (h : literalUnits body = some units) :
    units.length ≤ body.length := by
  obtain ⟨parts, hspelled, rfl, rfl⟩ := literalUnits_eq_some h
  clear h
  induction parts with
  | nil => exact Nat.le_refl 0
  | cons part parts ih =>
    obtain ⟨hpart, hparts⟩ := List.forall_mem_cons.mp hspelled
    simpa using Nat.add_le_add (Part.length_units_le hpart) (ih hparts)

end CppLiteral
