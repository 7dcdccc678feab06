import Gentest.Lib.Utf8
import Gentest.Report.JsonReport

/-!
# Strings in the inventory

`append_json_string` writes a JSON string for any bytes: characters with the
escapes the report has, and the replacement character for every byte that
starts no character.
-/

namespace Gentest.Report

open String (utf8EncodeChar)
open Utf8

-- ---------------------------------------------------------------------------
-- The encoder
-- ---------------------------------------------------------------------------

/-- The character behind the backslash. -/
def shortEscape? (ch : UInt8) : Option Char :=
  if ch = 0x22 then some '"'
  else if ch = 0x5C then some '\\'
  else if ch = 0x08 then some 'b'
  else if ch = 0x0C then some 'f'
  else if ch = 0x0A then some 'n'
  else if ch = 0x0D then some 'r'
  else if ch = 0x09 then some 't'
  else none

/-- `sequence_length` and the bits of `code_point` in the first byte. -/
def sequenceStart (ch : Nat) : Nat × Nat :=
  if ch < 0x80 then (1, ch)
  else if ch &&& 0xE0 = 0xC0 then (2, ch &&& 0x1F)
  else if ch &&& 0xF0 = 0xE0 then (3, ch &&& 0x0F)
  else if ch &&& 0xF8 = 0xF0 then (4, ch &&& 0x07)
  else (0, 0)

/-- The loop over the continuation bytes; that they are there has been checked. -/
def continueSequence : Nat → Nat → List UInt8 → Option Nat
  | 0, codePoint, _ => some codePoint
  | _ + 1, _, [] => none
  | left + 1, codePoint, continuation :: rest =>
    if continuation.toNat &&& 0xC0 ≠ 0x80 then none
    else continueSequence left (codePoint <<< 6 ||| (continuation.toNat &&& 0x3F)) rest

def wrongCodePoint (sequenceLength codePoint : Nat) : Bool :=
  (sequenceLength == 2 && codePoint < 0x80) || (sequenceLength == 3 && codePoint < 0x800) ||
    (sequenceLength == 4 && codePoint < 0x10000) || (0xD800 ≤ codePoint && codePoint ≤ 0xDFFF) || 0x10FFFF < codePoint

/-- The length of the sequence at a position, if it is valid. -/
def validSequence? (ch : UInt8) (rest : List UInt8) : Option Nat :=
  let start := sequenceStart ch.toNat
  if start.1 ≠ 0 ∧ start.1 ≤ (ch :: rest).length then
    match continueSequence (start.1 - 1) start.2 rest with
    | some codePoint => if wrongCodePoint start.1 codePoint then none else some start.1
    | none => none
  else none

def appendJsonFrom (value : List UInt8) : List UInt8 :=
  match value with
  | [] => []
  | ch :: rest =>
    match shortEscape? ch with
    | some e => encode ['\\', e] ++ appendJsonFrom rest
    | none =>
      if ch.toNat < 0x20 then encode (['\\', 'u'] ++ hexFour ch.toNat) ++ appendJsonFrom rest
      else
        match validSequence? ch rest with
        | none => encode ['\\', 'u', 'F', 'F', 'F', 'D'] ++ appendJsonFrom rest
        | some length => (ch :: rest).take length ++ appendJsonFrom (rest.drop (length - 1))
termination_by value.length

def appendJsonString (value : List UInt8) : List UInt8 := encode ['"'] ++ appendJsonFrom value ++ encode ['"']

-- ---------------------------------------------------------------------------
-- Sequences
-- ---------------------------------------------------------------------------

theorem sequenceStart_eq (ch : UInt8) :
    sequenceStart ch.toNat =
      if ch.toNat < 0x80 then (1, ch.toNat)
      else if ch.toNat < 0xC0 then (0, 0)
      else if ch.toNat < 0xE0 then (2, ch.toNat - 0xC0)
      else if ch.toNat < 0xF0 then (3, ch.toNat - 0xE0)
      else if ch.toNat < 0xF8 then (4, ch.toNat - 0xF0)
      else (0, 0) := by
  have hall : ∀ n : Fin 256, sequenceStart n.val =
      if n.val < 0x80 then (1, n.val)
      else if n.val < 0xC0 then (0, 0)
      else if n.val < 0xE0 then (2, n.val - 0xC0)
      else if n.val < 0xF0 then (3, n.val - 0xE0)
      else if n.val < 0xF8 then (4, n.val - 0xF0)
      else (0, 0) := by decide +kernel
  exact hall ⟨ch.toNat, ch.toNat_lt⟩

theorem continueSequence_tail {b : UInt8} (hb : Tail b) (left codePoint : Nat) (rest : List UInt8) :
    continueSequence (left + 1) codePoint (b :: rest) =
      continueSequence left (codePoint * 64 + (b.toNat - 0x80)) rest := by
  have htail := hb
  unfold Tail at htail
  rw [continueSequence, if_neg (by simpa using (tail_iff_mask b).mpr hb), hb.bits, shiftLeft_or 6 (by omega)]
  rfl

theorem continueSequence_some {left codePoint n : Nat} {rest : List UInt8}
    (h : continueSequence (left + 1) codePoint rest = some n) :
    ∃ b rest', rest = b :: rest' ∧ Tail b ∧ continueSequence left (codePoint * 64 + (b.toNat - 0x80)) rest' = some n := by
  cases rest with
  | nil => cases h
  | cons b rest =>
    have hb : Tail b := by
      by_contra hnot
      rw [continueSequence, if_pos (mt (tail_iff_mask b).mp hnot)] at h
      cases h
    rw [continueSequence_tail hb] at h
    exact ⟨b, rest, rfl, hb, h⟩

theorem sequenceStart_one {ch : UInt8} (h : ch.toNat < 0x80) : sequenceStart ch.toNat = (1, ch.toNat) := by
  rw [sequenceStart_eq, if_pos h]

theorem sequenceStart_two {ch : UInt8} (low : 0xC0 ≤ ch.toNat) (high : ch.toNat < 0xE0) :
    sequenceStart ch.toNat = (2, ch.toNat - 0xC0) := by
  rw [sequenceStart_eq, if_neg (by omega), if_neg (by omega), if_pos high]

theorem sequenceStart_three {ch : UInt8} (low : 0xE0 ≤ ch.toNat) (high : ch.toNat < 0xF0) :
    sequenceStart ch.toNat = (3, ch.toNat - 0xE0) := by
  rw [sequenceStart_eq, if_neg (by omega), if_neg (by omega), if_neg (by omega), if_pos high]

theorem sequenceStart_four {ch : UInt8} (low : 0xF0 ≤ ch.toNat) (high : ch.toNat < 0xF8) :
    sequenceStart ch.toNat = (4, ch.toNat - 0xF0) := by
  rw [sequenceStart_eq, if_neg (by omega), if_neg (by omega), if_neg (by omega), if_neg (by omega), if_pos high]

theorem wrongCodePoint_iff (length n : Nat) :
    wrongCodePoint length n = true ↔
      length = 2 ∧ n < 0x80 ∨ length = 3 ∧ n < 0x800 ∨ length = 4 ∧ n < 0x10000 ∨ (0xD800 ≤ n ∧ n ≤ 0xDFFF) ∨
        0x10FFFF < n := by
  simp [wrongCodePoint, or_assoc]

variable {ch : UInt8} {rest : List UInt8} {left bits n length : Nat}

theorem validSequence?_of_start (hstart : sequenceStart ch.toNat = (left + 1, bits)) (hlength : left ≤ rest.length)
    (hcontinue : continueSequence left bits rest = some n) (hright : ¬ wrongCodePoint (left + 1) n = true) :
    validSequence? ch rest = some (left + 1) := by
  simp only [validSequence?, hstart]
  rw [if_pos ⟨Nat.succ_ne_zero left, Nat.succ_le_succ hlength⟩, Nat.add_sub_cancel, hcontinue]
  exact if_neg hright

theorem validSequence?_some (h : validSequence? ch rest = some length) :
    ∃ left bits n, sequenceStart ch.toNat = (left + 1, bits) ∧ continueSequence left bits rest = some n ∧
      ¬ wrongCodePoint (left + 1) n = true := by
  unfold validSequence? at h
  rcases hstart : sequenceStart ch.toNat with ⟨count, bits⟩
  simp only [hstart] at h
  split at h
  · rename_i hcount
    obtain ⟨left, rfl⟩ := Nat.exists_eq_succ_of_ne_zero hcount.1
    split at h
    · rename_i n hcontinue
      split at h
      · cases h
      · rename_i hright
        exact ⟨left, bits, n, rfl, hcontinue, hright⟩
    · cases h
  · cases h

theorem validSequence?_sequence {bs : List UInt8} (h : Sequence n (ch :: bs)) (rest : List UInt8) :
    validSequence? ch (bs ++ rest) = some (bs.length + 1) := by
  cases h with
  | one h =>
    refine validSequence?_of_start (sequenceStart_one h) (Nat.zero_le _) rfl ?_
    simp only [wrongCodePoint_iff, List.length_nil]
    omega
  | two low high hb =>
    refine validSequence?_of_start (sequenceStart_two (by omega) high) (by simp) (continueSequence_tail hb ..) ?_
    simp only [wrongCodePoint_iff, List.length_cons, List.length_nil]
    unfold Tail at hb
    omega
  | three low high hb hc overlong surrogate =>
    refine validSequence?_of_start (sequenceStart_three low high) (by simp)
      ((continueSequence_tail hb ..).trans (continueSequence_tail hc ..)) ?_
    simp only [wrongCodePoint_iff, List.length_cons, List.length_nil]
    unfold Tail at hb hc
    omega
  | four low high hb hc hd overlong limit =>
    refine validSequence?_of_start (sequenceStart_four low (by omega)) (by simp)
      ((continueSequence_tail hb ..).trans ((continueSequence_tail hc ..).trans (continueSequence_tail hd ..))) ?_
    simp only [wrongCodePoint_iff, List.length_cons, List.length_nil]
    unfold Tail at hb hc hd
    omega

theorem sequence_of_validSequence? (h : validSequence? ch rest = some length) :
    ∃ n bs rest', rest = bs ++ rest' ∧ Sequence n (ch :: bs) := by
  obtain ⟨left, bits, n, hstart, hcontinue, hright⟩ := validSequence?_some h
  rw [wrongCodePoint_iff] at hright
  rw [sequenceStart_eq] at hstart
  split_ifs at hstart with h1 h2 h3 h4 h5
  · exact ⟨_, [], rest, rfl, .one h1⟩
  · cases hstart
  · obtain ⟨hleft, rfl⟩ := Prod.mk.inj hstart
    obtain rfl : left = 1 := by omega
    obtain ⟨b, rest, rfl, hb, hdone⟩ := continueSequence_some hcontinue
    obtain rfl := Option.some.inj hdone
    have htails := hb
    unfold Tail at htails
    exact ⟨_, [b], rest, rfl, .two (by omega) h3 hb⟩
  · obtain ⟨hleft, rfl⟩ := Prod.mk.inj hstart
    obtain rfl : left = 2 := by omega
    obtain ⟨b, rest, rfl, hb, hcontinue⟩ := continueSequence_some hcontinue
    obtain ⟨c, rest, rfl, hc, hdone⟩ := continueSequence_some hcontinue
    obtain rfl := Option.some.inj hdone
    have htails := And.intro hb hc
    unfold Tail at htails
    exact ⟨_, [b, c], rest, rfl, .three (by omega) h4 hb hc (by omega) (by omega)⟩
  · obtain ⟨hleft, rfl⟩ := Prod.mk.inj hstart
    obtain rfl : left = 3 := by omega
    obtain ⟨b, rest, rfl, hb, hcontinue⟩ := continueSequence_some hcontinue
    obtain ⟨c, rest, rfl, hc, hcontinue⟩ := continueSequence_some hcontinue
    obtain ⟨d, rest, rfl, hd, hdone⟩ := continueSequence_some hcontinue
    obtain rfl := Option.some.inj hdone
    have htails := And.intro hb (And.intro hc hd)
    unfold Tail at htails
    exact ⟨_, [b, c, d], rest, rfl, .four (by omega) (by omega) hb hc hd (by omega) (by omega)⟩
  · cases hstart

theorem validSequence?_startsNone (h : StartsNone (ch :: rest)) : validSequence? ch rest = none := by
  by_contra hsome
  obtain ⟨length, hlength⟩ := Option.ne_none_iff_exists'.mp hsome
  obtain ⟨n, bs, rest', rfl, hseq⟩ := sequence_of_validSequence? hlength
  obtain ⟨c, -, hc⟩ := hseq.encodeChar
  exact h c ⟨rest', by rw [hc, List.cons_append]⟩

-- ---------------------------------------------------------------------------
-- The text of the literal
-- ---------------------------------------------------------------------------

/-- What is written for a character or a byte that starts none. -/
def jsonPiece : Piece → List Char
  | .char c => escapeJsonChar c
  | .bad _ => ['\\', 'u', 'F', 'F', 'F', 'D']

theorem escapeJsonChar_ascii {n : Nat} (h : n < 0x80) :
    escapeJsonChar (Char.ofNat n) =
      match shortEscape? (UInt8.ofNat n) with
      | some e => ['\\', e]
      | none => if n < 0x20 then ['\\', 'u'] ++ hexFour n else [Char.ofNat n] := by
  have hall : ∀ n : Fin 128, escapeJsonChar (Char.ofNat n.val) =
      match shortEscape? (UInt8.ofNat n.val) with
      | some e => ['\\', e]
      | none => if n.val < 0x20 then ['\\', 'u'] ++ hexFour n.val else [Char.ofNat n.val] := by decide +kernel
  exact hall ⟨n, h⟩

theorem escapeJsonChar_high {c : Char} (h : 0x80 ≤ c.toNat) : escapeJsonChar c = [c] := by
  have hne : ∀ d : Char, d.toNat < 0x80 → c ≠ d := by
    rintro d hd rfl
    omega
  unfold escapeJsonChar
  rw [if_neg (hne _ (by decide)), if_neg (hne _ (by decide)), if_neg (hne _ (by decide)), if_neg (hne _ (by decide)),
    if_neg (hne _ (by decide)), if_neg (hne _ (by decide)), if_neg (hne _ (by decide)), if_neg (by omega)]

theorem shortEscape?_high {b : UInt8} (h : 0x80 ≤ b.toNat) : shortEscape? b = none := by
  have hne : ∀ d : UInt8, d.toNat < 0x80 → b ≠ d := by
    rintro d hd rfl
    omega
  unfold shortEscape?
  rw [if_neg (hne _ (by decide)), if_neg (hne _ (by decide)), if_neg (hne _ (by decide)), if_neg (hne _ (by decide)),
    if_neg (hne _ (by decide)), if_neg (hne _ (by decide)), if_neg (hne _ (by decide))]

theorem validSequence?_encodeChar {c : Char} {first : UInt8} {bs : List UInt8} (h : utf8EncodeChar c = first :: bs)
    (rest : List UInt8) : validSequence? first (bs ++ rest) = some (bs.length + 1) := by
  have hseq := sequence_encodeChar c
  rw [h] at hseq
  exact validSequence?_sequence hseq rest

theorem appendJsonFrom_char (c : Char) (rest : List UInt8) :
    appendJsonFrom (utf8EncodeChar c ++ rest) = encode (escapeJsonChar c) ++ appendJsonFrom rest := by
  rcases encodeChar_bytes c with ⟨hlow, hbyte⟩ | ⟨hhigh, hall⟩
  · have hvalid := validSequence?_encodeChar hbyte rest
    have hescape := escapeJsonChar_ascii hlow
    rw [Char.ofNat_toNat] at hescape
    have htoNat : (UInt8.ofNat c.toNat).toNat = c.toNat := toNat_ofNat_of_lt (by omega)
    rw [hbyte, List.singleton_append, appendJsonFrom, hescape]
    cases hshort : shortEscape? (UInt8.ofNat c.toNat) with
    | some e => rfl
    | none =>
      rw [List.nil_append] at hvalid
      simp only [htoNat]
      split
      · rfl
      · rw [hvalid]
        simp [hbyte]
  · obtain ⟨first, bs, hbytes⟩ := List.exists_cons_of_ne_nil (encodeChar_ne_nil c)
    have hvalid := validSequence?_encodeChar hbytes rest
    have hfirst : 0x80 ≤ first.toNat := hall first (by simp [hbytes])
    rw [escapeJsonChar_high hhigh, encode_cons, encode_nil, List.append_nil, hbytes, List.cons_append, appendJsonFrom,
      shortEscape?_high hfirst]
    simp only [hvalid, if_neg (show ¬ first.toNat < 0x20 by omega)]
    rw [List.take_succ_cons, Nat.add_sub_cancel, List.take_left, List.drop_left, List.cons_append]

theorem first_high_of_startsNone {b : UInt8} {bs : List UInt8} (h : StartsNone (b :: bs)) : 0x80 ≤ b.toNat := by
  by_contra hlow
  obtain ⟨c, -, hc⟩ := (Sequence.one (a := b) (by omega)).encodeChar
  exact h c ⟨bs, by rw [hc, List.singleton_append]⟩

theorem appendJsonFrom_bad {b : UInt8} {bs : List UInt8} (h : StartsNone (b :: bs)) :
    appendJsonFrom (b :: bs) = encode (jsonPiece (.bad b)) ++ appendJsonFrom bs := by
  have hhigh := first_high_of_startsNone h
  rw [appendJsonFrom, shortEscape?_high hhigh]
  simp only [validSequence?_startsNone h, if_neg (show ¬ b.toNat < 0x20 by omega), jsonPiece]

theorem appendJsonFrom_splits {value : List UInt8} {ps : List Piece} (h : Splits value ps) :
    appendJsonFrom value = encode (ps.flatMap jsonPiece) := by
  induction h with
  | nil => rw [appendJsonFrom, List.flatMap_nil, encode_nil]
  | char c h ih => rw [appendJsonFrom_char, ih, List.flatMap_cons, encode_append, jsonPiece]
  | bad hnone h ih => rw [appendJsonFrom_bad hnone, ih, List.flatMap_cons, encode_append]

-- ---------------------------------------------------------------------------
-- Reading it back
-- ---------------------------------------------------------------------------

/-- The code point a reader should find. -/
def decodedChar : Piece → Char
  | .char c => c
  | .bad _ => '\uFFFD'

def pieceUnit : Piece → Json.CodeUnit
  | .char c => escapedUnit c
  | .bad _ => .code 0xFFFD

theorem readUnits_jsonPiece (p : Piece) (rest : List Char) :
    Json.readUnits (jsonPiece p ++ rest) = (Json.readUnits rest).map fun r => (pieceUnit p :: r.1, r.2) := by
  cases p with
  | char c => exact readUnits_escapeJsonChar c rest
  | bad b =>
    simp only [jsonPiece, List.cons_append, List.nil_append]
    rw [Json.readUnits]
    cases Json.readUnits rest <;> rfl

theorem readUnits_jsonPieces (ps : List Piece) (rest : List Char) :
    Json.readUnits (ps.flatMap jsonPiece ++ '"' :: rest) = some (ps.map pieceUnit, rest) := by
  induction ps with
  | nil =>
    rw [List.flatMap_nil, List.nil_append, Json.readUnits]
    rfl
  | cons p ps ih =>
    rw [List.flatMap_cons, List.append_assoc, readUnits_jsonPiece, ih]
    rfl

theorem decodeUnits_pieceUnit (ps : List Piece) : Json.decodeUnits (ps.map pieceUnit) = some (ps.map decodedChar) := by
  induction ps with
  | nil => rfl
  | cons p ps ih =>
    rw [List.map_cons, List.map_cons]
    cases p with
    | char c =>
      rw [pieceUnit, escapedUnit]
      split
      · rename_i hcontrol
        rw [decodeUnits_code (by omega), ih, Option.map_some, Char.ofNat_toNat]
        rfl
      · rw [Json.decodeUnits, ih]
        rfl
    | bad b =>
      rw [pieceUnit, decodeUnits_code (by decide), ih, Option.map_some]
      rfl

theorem appendJsonString_reads {value : List UInt8} {ps : List Piece} (h : Splits value ps) :
    ∃ text, appendJsonString value = encode text ∧ Json.read text = some (.str (ps.map decodedChar)) := by
  refine ⟨'"' :: (ps.flatMap jsonPiece ++ ['"']), ?_, Json.read_string ?_⟩
  · rw [appendJsonString, appendJsonFrom_splits h, ← encode_append, ← encode_append, List.append_assoc,
      List.singleton_append]
  · rw [Json.readString, readUnits_jsonPieces]
    simp [decodeUnits_pieceUnit]

theorem decoded_of_encode {value : List UInt8} {ps : List Piece} (h : Splits value ps) {cs : List Char}
    (hcs : encode cs = value) : ps.map decodedChar = cs := by
  subst hcs
  rw [h.unique (splits_encode cs), List.map_map]
  exact List.map_id cs

/-- For all bytes: the literal is the encoding of a JSON string, which is read
as the characters of the bytes with the replacement character for each byte that
starts none, and as the text the bytes encode if there is one. -/
theorem append_json_string_faithful (value : List UInt8) :
    ∃ text ps, appendJsonString value = encode text ∧ Splits value ps ∧
      Json.read text = some (.str (ps.map decodedChar)) ∧
      ∀ cs, encode cs = value → ps.map decodedChar = cs := by
  obtain ⟨ps, hps⟩ := exists_splits value
  obtain ⟨text, htext, hread⟩ := appendJsonString_reads hps
  exact ⟨text, ps, htext, hps, hread, fun cs hcs => decoded_of_encode hps hcs⟩

end Gentest.Report
