import Gentest.Lib.Json
import Gentest.Lib.Utf8

/-!
# JSON in bytes

A writer that copies bytes has strings of bytes: characters below 256, each
standing for a byte. What it writes for a value is the encoding of a text
exactly if each string of the value is, and then it is the text of the value
with its strings decoded.
-/

namespace Json

open String (utf8EncodeChar)
open Utf8

-- ---------------------------------------------------------------------------
-- Strings of bytes
-- ---------------------------------------------------------------------------

def byteOf (c : Char) : UInt8 := UInt8.ofNat c.toNat

def bytes (s : List Char) : List UInt8 := s.map byteOf

def IsBytes (s : List Char) : Prop := ∀ c ∈ s, c.toNat < 256

@[simp] theorem bytes_nil : bytes [] = [] := rfl

@[simp] theorem bytes_cons (c : Char) (s : List Char) : bytes (c :: s) = byteOf c :: bytes s := rfl

@[simp] theorem bytes_append (s t : List Char) : bytes (s ++ t) = bytes s ++ bytes t := List.map_append

/-- A writer of strings that escapes ASCII characters only, with ASCII texts. -/
structure EscapesAscii (escape : Char → List Char) : Prop where
  high : ∀ c, 0x80 ≤ c.toNat → escape c = [c]
  low : ∀ c, c.toNat < 0x80 → escape c ≠ [] ∧ ∀ d ∈ escape c, d.toNat < 0x80

theorem toNat_byteOf {c : Char} (h : c.toNat < 256) : (byteOf c).toNat = c.toNat := toNat_ofNat_of_lt h

theorem ofNat_byteOf {c : Char} (h : c.toNat < 256) : Char.ofNat (byteOf c).toNat = c := by
  rw [toNat_byteOf h, Char.ofNat_toNat]

theorem toNat_ofNat_byte (b : UInt8) : (Char.ofNat b.toNat).toNat = b.toNat := by
  have hvalid : b.toNat.isValidChar := .inl (Nat.lt_trans b.toNat_lt (by decide))
  rw [Char.ofNat, dif_pos hvalid]
  rfl

theorem byteOf_ofNat (b : UInt8) : byteOf (Char.ofNat b.toNat) = b := by
  rw [byteOf, toNat_ofNat_byte, UInt8.ofNat_toNat]

theorem encode_ascii {s : List Char} (h : ∀ c ∈ s, c.toNat < 0x80) : encode s = bytes s := by
  induction s with
  | nil => rfl
  | cons c s ih =>
    obtain ⟨hc, hs⟩ := List.forall_mem_cons.mp h
    rcases encodeChar_bytes c with ⟨-, hone⟩ | ⟨hhigh, -⟩
    · rw [encode_cons, hone, ih hs]
      rfl
    · omega

def escapeByte (escape : Char → List Char) (b : UInt8) : List UInt8 := bytes (escape (Char.ofNat b.toNat))

variable {escape : Char → List Char} {s t : List Char}

theorem bytes_flatMap (h : IsBytes s) : bytes (s.flatMap escape) = (bytes s).flatMap (escapeByte escape) := by
  induction s with
  | nil => rfl
  | cons c s ih =>
    obtain ⟨hc, hs⟩ := List.forall_mem_cons.mp h
    rw [List.flatMap_cons, bytes_append, ih hs, bytes_cons, List.flatMap_cons, escapeByte, ofNat_byteOf hc]

theorem EscapesAscii.replaces (h : EscapesAscii escape) : ReplacesAscii (escapeByte escape) := by
  constructor
  · intro b hb
    rw [escapeByte, h.high _ (by rw [toNat_ofNat_byte]; exact hb), bytes_cons, byteOf_ofNat, bytes_nil]
  · intro b hb
    obtain ⟨hne, hlow⟩ := h.low (Char.ofNat b.toNat) (by rw [toNat_ofNat_byte]; exact hb)
    refine ⟨fun hnil => hne (List.map_eq_nil_iff.mp hnil), fun d hd => ?_⟩
    obtain ⟨c, hc, rfl⟩ := List.mem_map.mp hd
    rw [toNat_byteOf (Nat.lt_trans (hlow c hc) (by decide))]
    exact hlow c hc

theorem EscapesAscii.valid_iff (h : EscapesAscii escape) (hs : IsBytes s) :
    Valid (bytes (s.flatMap escape)) ↔ Valid (bytes s) := by
  rw [bytes_flatMap hs, h.replaces.valid_iff]

theorem EscapesAscii.encode_flatMap (h : EscapesAscii escape) (t : List Char) :
    encode (t.flatMap escape) = (encode t).flatMap (escapeByte escape) := by
  induction t with
  | nil => rfl
  | cons c t ih =>
    rw [List.flatMap_cons, encode_append, encode_cons, List.flatMap_append, ih]
    congr 1
    rcases encodeChar_bytes c with ⟨hlow, hone⟩ | ⟨hhigh, hall⟩
    · rw [hone, List.flatMap_singleton, encode_ascii (h.low c hlow).2]
      change _ = bytes (escape (Char.ofNat (byteOf c).toNat))
      rw [ofNat_byteOf (by omega)]
    · rw [h.high c hhigh, encode_cons, encode_nil, List.append_nil, h.replaces.flatMap_high hall]

theorem EscapesAscii.encode_of_bytes (h : EscapesAscii escape) (hs : IsBytes s) (ht : encode t = bytes s) :
    encode (t.flatMap escape) = bytes (s.flatMap escape) := by
  rw [h.encode_flatMap, ht, bytes_flatMap hs]

-- ---------------------------------------------------------------------------
-- The strings of a value
-- ---------------------------------------------------------------------------

mutual

/-- Every string of the value, the names of members included. -/
def AllStrings (P : List Char → Prop) : Json → Prop
  | .str s => P s
  | .arr elements => AllStringsElements P elements
  | .obj members => AllStringsMembers P members
  | _ => True

def AllStringsElements (P : List Char → Prop) : List Json → Prop
  | [] => True
  | j :: js => AllStrings P j ∧ AllStringsElements P js

def AllStringsMembers (P : List Char → Prop) : List (List Char × Json) → Prop
  | [] => True
  | (key, j) :: ms => P key ∧ AllStrings P j ∧ AllStringsMembers P ms

end

mutual

def mapStrings (f : List Char → List Char) : Json → Json
  | .str s => .str (f s)
  | .arr elements => .arr (mapElements f elements)
  | .obj members => .obj (mapMembers f members)
  | j => j

def mapElements (f : List Char → List Char) : List Json → List Json
  | [] => []
  | j :: js => mapStrings f j :: mapElements f js

def mapMembers (f : List Char → List Char) : List (List Char × Json) → List (List Char × Json)
  | [] => []
  | (key, j) :: ms => (f key, mapStrings f j) :: mapMembers f ms

end

theorem allStringsElements_iff {P : List Char → Prop} (js : List Json) :
    AllStringsElements P js ↔ ∀ j ∈ js, AllStrings P j := by
  induction js with
  | nil => simp [AllStringsElements]
  | cons j js ih => simp [AllStringsElements, ih]

theorem allStringsMembers_iff {P : List Char → Prop} (ms : List (List Char × Json)) :
    AllStringsMembers P ms ↔ ∀ m ∈ ms, P m.1 ∧ AllStrings P m.2 := by
  induction ms with
  | nil => simp [AllStringsMembers]
  | cons m ms ih => simp [AllStringsMembers, ih, and_assoc]

-- ---------------------------------------------------------------------------
-- What is written
-- ---------------------------------------------------------------------------

theorem ascii_of_isNumber {text : List Char} (h : isNumber text = true) : ∀ c ∈ text, c.toNat < 0x80 := by
  intro c hc
  have hchar := isNumber_chars h c hc
  rw [isNumberChar, Bool.or_eq_true] at hchar
  rcases hchar with hdigit | hsign
  · simp only [Char.isDigit, Bool.and_eq_true, decide_eq_true_eq] at hdigit
    exact Nat.lt_of_le_of_lt hdigit.2 (by decide)
  · have hall : ∀ c ∈ ['+', '-', '.', 'e', 'E'], c.toNat < 0x80 := List.all_iff_forall_prop.mp (by decide)
    exact hall c (List.contains_iff_mem.mp hsign)

theorem byteOf_ascii {c : Char} (h : c.toNat < 0x80) : (byteOf c).toNat < 0x80 := by
  rw [toNat_byteOf (Nat.lt_trans h (by decide))]
  exact h

theorem valid_bytes_cons {c : Char} (hc : c.toNat < 0x80) : Valid (bytes (c :: s)) ↔ Valid (bytes s) :=
  valid_cons (byteOf_ascii hc)

theorem valid_bytes_append_cons {c : Char} (hc : c.toNat < 0x80) :
    Valid (bytes (s ++ c :: t)) ↔ Valid (bytes s) ∧ Valid (bytes t) := by
  rw [bytes_append, bytes_cons, valid_append_cons (byteOf_ascii hc)]

theorem valid_enclosed {c d : Char} (hc : c.toNat < 0x80) (hd : d.toNat < 0x80) :
    Valid (bytes (c :: s ++ [d])) ↔ Valid (bytes s) := by
  rw [List.cons_append, valid_bytes_cons hc, valid_bytes_append_cons hd]
  exact and_iff_left valid_nil

theorem valid_member (he : EscapesAscii escape) {key : List Char} (hkey : IsBytes key) :
    Valid (bytes ('"' :: key.flatMap escape ++ '"' :: ':' :: s)) ↔ Valid (bytes key) ∧ Valid (bytes s) := by
  rw [List.cons_append, valid_bytes_cons (by decide), valid_bytes_append_cons (by decide), valid_bytes_cons (by decide),
    he.valid_iff hkey]

theorem ascii_word (word : String) (h : word ∈ ["null", "true", "false"]) : ∀ c ∈ word.toList, c.toNat < 0x80 := by
  have hall : ∀ word ∈ ["null", "true", "false"], word.toList.all (fun c => c.toNat < 0x80) = true := by decide
  exact List.all_iff_forall_prop.mp (by simpa using hall word h)

theorem valid_ascii {s : List Char} (h : ∀ c ∈ s, c.toNat < 0x80) : Valid (bytes s) := ⟨s, encode_ascii h⟩

mutual

/-- What is written is the encoding of a text exactly if every string is. -/
theorem valid_render (he : EscapesAscii escape) : ∀ {j : Json}, Numeric j → AllStrings IsBytes j →
    (Valid (bytes (render (·.flatMap escape) j)) ↔ AllStrings (fun s => Valid (bytes s)) j)
  | .null, _, _ => iff_of_true (valid_ascii (ascii_word "null" (by simp))) trivial
  | .bool true, _, _ => iff_of_true (valid_ascii (ascii_word "true" (by simp))) trivial
  | .bool false, _, _ => iff_of_true (valid_ascii (ascii_word "false" (by simp))) trivial
  | .num text, hnum, _ => by
    rw [render]
    exact iff_of_true (valid_ascii (ascii_of_isNumber hnum)) trivial
  | .str s, _, hs => by
    rw [render, valid_enclosed (by decide) (by decide), he.valid_iff hs]
    rfl
  | .arr elements, hnum, hs => by
    rw [render, valid_enclosed (by decide) (by decide), valid_renderElements he hnum hs]
    rfl
  | .obj members, hnum, hs => by
    rw [render, valid_enclosed (by decide) (by decide), valid_renderMembers he hnum hs]
    rfl

theorem valid_renderElements (he : EscapesAscii escape) : ∀ {js : List Json}, NumericElements js →
    AllStringsElements IsBytes js →
    (Valid (bytes (renderElements (·.flatMap escape) js)) ↔ AllStringsElements (fun s => Valid (bytes s)) js)
  | [], _, _ => iff_of_true valid_nil trivial
  | [j], hnum, hs => by
    rw [renderElements, valid_render he hnum.1 hs.1]
    exact (and_iff_left trivial).symm
  | j :: k :: js, hnum, hs => by
    rw [renderElements, valid_bytes_append_cons (by decide), valid_render he hnum.1 hs.1,
      valid_renderElements he hnum.2 hs.2]
    rfl

theorem valid_renderMembers (he : EscapesAscii escape) : ∀ {ms : List (List Char × Json)}, NumericMembers ms →
    AllStringsMembers IsBytes ms →
    (Valid (bytes (renderMembers (·.flatMap escape) ms)) ↔ AllStringsMembers (fun s => Valid (bytes s)) ms)
  | [], _, _ => iff_of_true valid_nil trivial
  | [(key, j)], hnum, hs => by
    rw [renderMembers, valid_member he hs.1, valid_render he hnum.1 hs.2.1]
    exact and_congr_right fun _ => (and_iff_left trivial).symm
  | (key, j) :: m :: ms, hnum, hs => by
    rw [renderMembers, valid_bytes_append_cons (by decide), valid_member he hs.1, valid_render he hnum.1 hs.2.1,
      valid_renderMembers he hnum.2 hs.2.2, and_assoc]
    rfl

end

mutual

/-- What is written for the bytes is what is written for the decoded strings. -/
theorem encode_render (he : EscapesAscii escape) {f : List Char → List Char} : ∀ {j : Json}, Numeric j →
    AllStrings (fun s => IsBytes s ∧ encode (f s) = bytes s) j →
    encode (render (·.flatMap escape) (mapStrings f j)) = bytes (render (·.flatMap escape) j)
  | .null, _, _ => encode_ascii (ascii_word "null" (by simp))
  | .bool true, _, _ => encode_ascii (ascii_word "true" (by simp))
  | .bool false, _, _ => encode_ascii (ascii_word "false" (by simp))
  | .num text, hnum, _ => by
    rw [mapStrings, render]
    · exact encode_ascii (ascii_of_isNumber hnum)
    all_goals simp
  | .str s, _, hs => by
    rw [mapStrings, render, render, List.cons_append, List.cons_append, encode_cons, encode_append, bytes_cons,
      bytes_append, he.encode_of_bytes hs.1 hs.2]
    rfl
  | .arr elements, hnum, hs => by
    rw [mapStrings, render, render, List.cons_append, List.cons_append, encode_cons, encode_append, bytes_cons,
      bytes_append, encode_renderElements he hnum hs]
    rfl
  | .obj members, hnum, hs => by
    rw [mapStrings, render, render, List.cons_append, List.cons_append, encode_cons, encode_append, bytes_cons,
      bytes_append, encode_renderMembers he hnum hs]
    rfl

theorem encode_renderElements (he : EscapesAscii escape) {f : List Char → List Char} : ∀ {js : List Json},
    NumericElements js → AllStringsElements (fun s => IsBytes s ∧ encode (f s) = bytes s) js →
    encode (renderElements (·.flatMap escape) (mapElements f js)) = bytes (renderElements (·.flatMap escape) js)
  | [], _, _ => rfl
  | [j], hnum, hs => by
    rw [mapElements, mapElements, renderElements, renderElements, encode_render he hnum.1 hs.1]
  | j :: k :: js, hnum, hs => by
    have hrest := encode_renderElements he hnum.2 hs.2
    rw [mapElements] at hrest
    rw [mapElements, mapElements, renderElements, renderElements, encode_append, encode_cons, bytes_append, bytes_cons,
      encode_render he hnum.1 hs.1, hrest]
    rfl

theorem encode_renderMembers (he : EscapesAscii escape) {f : List Char → List Char} :
    ∀ {ms : List (List Char × Json)}, NumericMembers ms →
    AllStringsMembers (fun s => IsBytes s ∧ encode (f s) = bytes s) ms →
    encode (renderMembers (·.flatMap escape) (mapMembers f ms)) = bytes (renderMembers (·.flatMap escape) ms)
  | [], _, _ => rfl
  | [(key, j)], hnum, hs => by
    rw [mapMembers, mapMembers, renderMembers, renderMembers]
    simp only [List.cons_append, encode_cons, encode_append, bytes_cons, bytes_append,
      he.encode_of_bytes hs.1.1 hs.1.2, encode_render he hnum.1 hs.2.1]
    rfl
  | (key, j) :: m :: ms, hnum, hs => by
    have hrest := encode_renderMembers he hnum.2 hs.2.2
    rw [mapMembers] at hrest
    rw [mapMembers, mapMembers, renderMembers, renderMembers]
    simp only [List.cons_append, encode_cons, encode_append, bytes_cons, bytes_append,
      he.encode_of_bytes hs.1.1 hs.1.2, encode_render he hnum.1 hs.2.1, hrest]
    rfl

end

mutual

theorem numeric_mapStrings {f : List Char → List Char} : ∀ {j : Json}, Numeric j → Numeric (mapStrings f j)
  | .null, _ => trivial
  | .bool _, _ => trivial
  | .num _, hnum => hnum
  | .str _, _ => trivial
  | .arr elements, hnum => @numeric_mapElements f elements hnum
  | .obj members, hnum => @numeric_mapMembers f members hnum

theorem numeric_mapElements {f : List Char → List Char} : ∀ {js : List Json}, NumericElements js →
    NumericElements (mapElements f js)
  | [], _ => trivial
  | _ :: _, hnum => ⟨numeric_mapStrings hnum.1, numeric_mapElements hnum.2⟩

theorem numeric_mapMembers {f : List Char → List Char} : ∀ {ms : List (List Char × Json)}, NumericMembers ms →
    NumericMembers (mapMembers f ms)
  | [], _ => trivial
  | _ :: _, hnum => ⟨numeric_mapStrings hnum.1, numeric_mapMembers hnum.2⟩

end

end Json
