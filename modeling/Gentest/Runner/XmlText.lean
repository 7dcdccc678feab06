import Gentest.Lib.Utf8
import Mathlib.Data.List.Infix

/-!
# Texts in the JUnit report

`sanitize_xml_text` replaces what XML cannot hold, `escape_xml` writes the text
of an attribute and `write_xml_cdata` the text of an element. They take any
bytes: names and messages come from the program under test.
-/

namespace Gentest.Runner

open String (utf8EncodeChar)
open Utf8

-- ---------------------------------------------------------------------------
-- Decoding
-- ---------------------------------------------------------------------------

structure Utf8DecodeResult where
  codePoint : Nat := 0
  width : Nat := 1
  valid : Bool := false
  deriving DecidableEq, Repr

def isXmlChar (codePoint : Nat) : Bool :=
  codePoint == 0x09 || codePoint == 0x0A || codePoint == 0x0D || (0x20 ≤ codePoint && codePoint ≤ 0xD7FF) ||
    (0xE000 ≤ codePoint && codePoint ≤ 0xFFFD) || (0x10000 ≤ codePoint && codePoint ≤ 0x10FFFF)

def isUtf8Continuation (ch : UInt8) : Bool := ch.toNat &&& 0xC0 == 0x80

def decodeTwo (first : Nat) : List UInt8 → Utf8DecodeResult
  | second :: _ =>
    if !isUtf8Continuation second then {}
    else { codePoint := (first &&& 0x1F) <<< 6 ||| (second.toNat &&& 0x3F), width := 2, valid := true }
  | _ => {}

def decodeThree (first : Nat) : List UInt8 → Utf8DecodeResult
  | second :: third :: _ =>
    if !isUtf8Continuation second || !isUtf8Continuation third then {}
    else if (first == 0xE0 && second.toNat < 0xA0) || (first == 0xED && 0xA0 ≤ second.toNat) then {}
    else
      { codePoint := (first &&& 0x0F) <<< 12 ||| (second.toNat &&& 0x3F) <<< 6 ||| (third.toNat &&& 0x3F)
        width := 3
        valid := true }
  | _ => {}

def decodeFour (first : Nat) : List UInt8 → Utf8DecodeResult
  | second :: third :: fourth :: _ =>
    if !isUtf8Continuation second || !isUtf8Continuation third || !isUtf8Continuation fourth then {}
    else if (first == 0xF0 && second.toNat < 0x90) || (first == 0xF4 && 0x90 ≤ second.toNat) then {}
    else
      { codePoint := (first &&& 0x07) <<< 18 ||| (second.toNat &&& 0x3F) <<< 12 ||| (third.toNat &&& 0x3F) <<< 6 |||
          (fourth.toNat &&& 0x3F)
        width := 4
        valid := true }
  | _ => {}

/-- `decode_utf8` at a position, given the bytes from there on. -/
def decodeUtf8 : List UInt8 → Utf8DecodeResult
  | [] => {}
  | first :: rest =>
    if first.toNat < 0x80 then { codePoint := first.toNat, width := 1, valid := true }
    else if first.toNat < 0xC2 then {}
    else if first.toNat ≤ 0xDF then decodeTwo first.toNat rest
    else if first.toNat ≤ 0xEF then decodeThree first.toNat rest
    else if first.toNat ≤ 0xF4 then decodeFour first.toNat rest
    else {}

theorem isUtf8Continuation_iff (ch : UInt8) : isUtf8Continuation ch = true ↔ Tail ch := by
  rw [isUtf8Continuation, beq_iff_eq, tail_iff_mask]

theorem codePoint_two {a b : UInt8} (low : 0xC2 ≤ a.toNat) (high : a.toNat < 0xE0) (hb : Tail b) :
    (a.toNat &&& 0x1F) <<< 6 ||| (b.toNat &&& 0x3F) = (a.toNat - 0xC0) * 64 + (b.toNat - 0x80) := by
  have htail := hb
  unfold Tail at htail
  rw [hb.bits, shiftLeft_or 6 (by omega), Nat.and_two_pow_sub_one_eq_mod a.toNat 5]
  omega

theorem codePoint_three {a b c : UInt8} (low : 0xE0 ≤ a.toNat) (high : a.toNat < 0xF0) (hb : Tail b) (hc : Tail c) :
    (a.toNat &&& 0x0F) <<< 12 ||| (b.toNat &&& 0x3F) <<< 6 ||| (c.toNat &&& 0x3F) =
      ((a.toNat - 0xE0) * 64 + (b.toNat - 0x80)) * 64 + (c.toNat - 0x80) := by
  have htails := And.intro hb hc
  unfold Tail at htails
  have hfirst : (a.toNat &&& 0x0F) <<< 12 ||| (b.toNat &&& 0x3F) <<< 6 =
      ((a.toNat - 0xE0) * 64 + (b.toNat - 0x80)) <<< 6 := by
    rw [hb.bits, Nat.shiftLeft_eq (b.toNat - 0x80), shiftLeft_or 12 (by omega),
      Nat.and_two_pow_sub_one_eq_mod a.toNat 4, Nat.shiftLeft_eq]
    omega
  rw [hfirst, hc.bits, shiftLeft_or 6 (by omega)]
  rfl

theorem codePoint_four {a b c d : UInt8} (low : 0xF0 ≤ a.toNat) (high : a.toNat ≤ 0xF4) (hb : Tail b) (hc : Tail c)
    (hd : Tail d) :
    (a.toNat &&& 0x07) <<< 18 ||| (b.toNat &&& 0x3F) <<< 12 ||| (c.toNat &&& 0x3F) <<< 6 ||| (d.toNat &&& 0x3F) =
      (((a.toNat - 0xF0) * 64 + (b.toNat - 0x80)) * 64 + (c.toNat - 0x80)) * 64 + (d.toNat - 0x80) := by
  have htails := And.intro hb (And.intro hc hd)
  unfold Tail at htails
  have hfirst : (a.toNat &&& 0x07) <<< 18 ||| (b.toNat &&& 0x3F) <<< 12 =
      ((a.toNat - 0xF0) * 64 + (b.toNat - 0x80)) <<< 12 := by
    rw [hb.bits, Nat.shiftLeft_eq (b.toNat - 0x80), shiftLeft_or 18 (by omega),
      Nat.and_two_pow_sub_one_eq_mod a.toNat 3, Nat.shiftLeft_eq]
    omega
  have hsecond : ((a.toNat - 0xF0) * 64 + (b.toNat - 0x80)) <<< 12 ||| (c.toNat &&& 0x3F) <<< 6 =
      (((a.toNat - 0xF0) * 64 + (b.toNat - 0x80)) * 64 + (c.toNat - 0x80)) <<< 6 := by
    rw [hc.bits, Nat.shiftLeft_eq (c.toNat - 0x80), shiftLeft_or 12 (by omega), Nat.shiftLeft_eq]
    omega
  rw [hfirst, hsecond, hd.bits, shiftLeft_or 6 (by omega)]
  rfl

theorem decodeUtf8_sequence {n : Nat} {bs : List UInt8} (h : Sequence n bs) (rest : List UInt8) :
    decodeUtf8 (bs ++ rest) = { codePoint := n, width := bs.length, valid := true } := by
  cases h with
  | one h => simp only [List.cons_append, List.nil_append, decodeUtf8, if_pos h, List.length_singleton]
  | two low high hb =>
    simp only [List.cons_append, List.nil_append, decodeUtf8, decodeTwo]
    rw [if_neg (by omega), if_neg (by omega), if_pos (by omega), (isUtf8Continuation_iff _).mpr hb,
      codePoint_two low high hb]
    rfl
  | @three a b c low high hb hc overlong surrogate =>
    have hform : ((a.toNat == 0xE0 && decide (b.toNat < 0xA0)) || (a.toNat == 0xED && decide (0xA0 ≤ b.toNat))) = false := by
      simp
      omega
    simp only [List.cons_append, List.nil_append, decodeUtf8, decodeThree]
    rw [if_neg (by omega), if_neg (by omega), if_neg (by omega), if_pos (by omega), (isUtf8Continuation_iff _).mpr hb,
      (isUtf8Continuation_iff _).mpr hc, hform, codePoint_three low high hb hc]
    rfl
  | @four a b c d low high hb hc hd overlong limit =>
    have hform : ((a.toNat == 0xF0 && decide (b.toNat < 0x90)) || (a.toNat == 0xF4 && decide (0x90 ≤ b.toNat))) = false := by
      simp
      omega
    simp only [List.cons_append, List.nil_append, decodeUtf8, decodeFour]
    rw [if_neg (by omega), if_neg (by omega), if_neg (by omega), if_neg (by omega), if_pos (by omega),
      (isUtf8Continuation_iff _).mpr hb, (isUtf8Continuation_iff _).mpr hc, (isUtf8Continuation_iff _).mpr hd, hform,
      codePoint_four low high hb hc hd]
    rfl

def StartsSequence (s : List UInt8) : Prop := ∃ n bs rest, s = bs ++ rest ∧ Sequence n bs

theorem decodeTwo_cases {a : UInt8} (low : 0xC2 ≤ a.toNat) (high : a.toNat ≤ 0xDF) (rest : List UInt8) :
    decodeTwo a.toNat rest = {} ∨ StartsSequence (a :: rest) := by
  unfold decodeTwo
  split
  · rename_i second rest
    split
    · exact .inl rfl
    · rename_i hb
      simp only [Bool.not_eq_true', Bool.not_eq_false, isUtf8Continuation_iff] at hb
      exact .inr ⟨_, [a, second], rest, rfl, .two low (Nat.lt_succ_of_le high) hb⟩
  · exact .inl rfl

theorem decodeThree_cases {a : UInt8} (low : 0xE0 ≤ a.toNat) (high : a.toNat ≤ 0xEF) (rest : List UInt8) :
    decodeThree a.toNat rest = {} ∨ StartsSequence (a :: rest) := by
  unfold decodeThree
  split
  · rename_i second third rest
    split
    · exact .inl rfl
    · rename_i htails
      simp only [Bool.or_eq_true, Bool.not_eq_true', not_or, Bool.not_eq_false, isUtf8Continuation_iff] at htails
      split
      · exact .inl rfl
      · rename_i hform
        simp only [Bool.or_eq_true, Bool.and_eq_true, beq_iff_eq, decide_eq_true_eq, not_or] at hform
        exact .inr ⟨_, [a, second, third], rest, rfl,
          .three low (by omega) htails.1 htails.2 (by omega) (by omega)⟩
  · exact .inl rfl

theorem decodeFour_cases {a : UInt8} (low : 0xF0 ≤ a.toNat) (high : a.toNat ≤ 0xF4) (rest : List UInt8) :
    decodeFour a.toNat rest = {} ∨ StartsSequence (a :: rest) := by
  unfold decodeFour
  split
  · rename_i second third fourth rest
    split
    · exact .inl rfl
    · rename_i htails
      simp only [Bool.or_eq_true, Bool.not_eq_true', not_or, Bool.not_eq_false, isUtf8Continuation_iff] at htails
      split
      · exact .inl rfl
      · rename_i hform
        simp only [Bool.or_eq_true, Bool.and_eq_true, beq_iff_eq, decide_eq_true_eq, not_or] at hform
        exact .inr ⟨_, [a, second, third, fourth], rest, rfl,
          .four low high htails.1.1 htails.1.2 htails.2 (by omega) (by omega)⟩
  · exact .inl rfl

/-- Only well-formed sequences are decoded; anything else has the width of one
byte. -/
theorem decodeUtf8_cases (s : List UInt8) : decodeUtf8 s = {} ∨ StartsSequence s := by
  cases s with
  | nil => exact .inl rfl
  | cons a rest =>
    simp only [decodeUtf8]
    split
    · rename_i h
      exact .inr ⟨_, [a], rest, rfl, .one h⟩
    split
    · exact .inl rfl
    split
    · rename_i low high
      exact decodeTwo_cases (by omega) high rest
    split
    · rename_i low high
      exact decodeThree_cases (by omega) high rest
    split
    · rename_i low high
      exact decodeFour_cases (by omega) high rest
    · exact .inl rfl

theorem decodeUtf8_encodeChar (c : Char) (rest : List UInt8) :
    decodeUtf8 (utf8EncodeChar c ++ rest) =
      { codePoint := c.toNat, width := (utf8EncodeChar c).length, valid := true } :=
  decodeUtf8_sequence (sequence_encodeChar c) rest

theorem decodeUtf8_startsNone {s : List UInt8} (h : StartsNone s) : decodeUtf8 s = {} := by
  rcases decodeUtf8_cases s with hnone | ⟨n, bs, rest, rfl, hseq⟩
  · exact hnone
  · obtain ⟨c, -, rfl⟩ := hseq.encodeChar
    exact absurd (List.prefix_append _ _) (h c)

theorem decodeUtf8_width_pos (s : List UInt8) : 0 < (decodeUtf8 s).width := by
  rcases decodeUtf8_cases s with hnone | ⟨n, bs, rest, rfl, hseq⟩
  · rw [hnone]
    exact Nat.one_pos
  · rw [decodeUtf8_sequence hseq]
    cases hseq <;> simp

-- ---------------------------------------------------------------------------
-- The writers
-- ---------------------------------------------------------------------------

def ascii (text : String) : List UInt8 := encode text.toList

def sanitizeXmlText (s : List UInt8) : List UInt8 :=
  match s with
  | [] => []
  | first :: rest =>
    let decoded := decodeUtf8 (first :: rest)
    (if !decoded.valid || !isXmlChar decoded.codePoint then ascii "?" else (first :: rest).take decoded.width) ++
      sanitizeXmlText ((first :: rest).drop decoded.width)
termination_by s.length
decreasing_by
  have hpos := decodeUtf8_width_pos (first :: rest)
  simp only [List.length_drop, List.length_cons]
  omega

def escapeXmlByte (ch : UInt8) : List UInt8 :=
  if ch = 0x26 then ascii "&amp;"
  else if ch = 0x3C then ascii "&lt;"
  else if ch = 0x3E then ascii "&gt;"
  else if ch = 0x22 then ascii "&quot;"
  else [ch]

def escapeXml (s : List UInt8) : List UInt8 := (sanitizeXmlText s).flatMap escapeXmlByte

/-- `std::string::find`. -/
def findSub (sub : List UInt8) : List UInt8 → Option Nat
  | [] => if sub = [] then some 0 else none
  | ch :: rest => if sub <+: ch :: rest then some 0 else (findSub sub rest).map (· + 1)

variable {sub s rest : List UInt8} {pos : Nat}

theorem findSub_some (h : findSub sub s = some pos) (hsub : sub ≠ []) :
    ∃ before after, s = before ++ (sub ++ after) ∧ before.length = pos ∧ ¬ sub <:+: before := by
  induction s generalizing pos with
  | nil =>
    rw [findSub, if_neg hsub] at h
    cases h
  | cons ch rest ih =>
    unfold findSub at h
    split at h
    · rename_i hfront
      obtain ⟨after, hafter⟩ := hfront
      exact ⟨[], after, hafter.symm, Option.some.inj h, fun hin => hsub (List.infix_nil.mp hin)⟩
    · rename_i hfront
      obtain ⟨pos', hpos', rfl⟩ := Option.map_eq_some_iff.mp h
      obtain ⟨before, after, rfl, hlength, hnot⟩ := ih hpos'
      refine ⟨ch :: before, after, rfl, by rw [List.length_cons, hlength], fun hin => ?_⟩
      rcases List.infix_cons_iff.mp hin with hfirst | hin
      · exact hfront (hfirst.trans (List.prefix_append (ch :: before) (sub ++ after)))
      · exact hnot hin

theorem findSub_none (h : findSub sub s = none) : ¬ sub <:+: s := by
  induction s with
  | nil =>
    unfold findSub at h
    split at h
    · cases h
    · rename_i hsub
      exact fun hin => hsub (List.infix_nil.mp hin)
  | cons ch rest ih =>
    unfold findSub at h
    split at h
    · cases h
    · rename_i hfront
      intro hin
      rcases List.infix_cons_iff.mp hin with hfirst | hin
      · exact hfront hfirst
      · exact ih (Option.map_eq_none_iff.mp h) hin

def cdataEnd : List UInt8 := ascii "]]>"

theorem cdataEnd_eq : cdataEnd = [0x5D, 0x5D, 0x3E] := by decide

theorem cdataEnd_ne_nil : cdataEnd ≠ [] := by decide

/-- The loop of `write_xml_cdata` from a position on. -/
def writeCdataFrom (s : List UInt8) : List UInt8 :=
  match _h : findSub cdataEnd s with
  | none => s
  | some pos => s.take pos ++ ascii "]]]]><![CDATA[>" ++ writeCdataFrom (s.drop (pos + 3))
termination_by s.length
decreasing_by
  obtain ⟨before, after, rfl, hlength, -⟩ := findSub_some _h cdataEnd_ne_nil
  simp only [cdataEnd_eq, List.length_drop, List.length_append, List.length_cons, List.length_nil]
  omega

def writeXmlCdata (s : List UInt8) : List UInt8 :=
  ascii "<![CDATA[" ++ writeCdataFrom (sanitizeXmlText s) ++ ascii "]]>"

-- ---------------------------------------------------------------------------
-- Sanitized texts
-- ---------------------------------------------------------------------------

/-- The text consists of characters XML 1.0 has. -/
def XmlText (cs : List Char) : Prop := ∀ c ∈ cs, isXmlChar c.toNat = true

/-- What `sanitize_xml_text` makes of a character or a byte that starts none. -/
def xmlChar : Piece → Char
  | .char c => if isXmlChar c.toNat then c else '?'
  | .bad _ => '?'

theorem isXmlChar_xmlChar (p : Piece) : isXmlChar (xmlChar p).toNat = true := by
  unfold xmlChar
  split
  · split
    · assumption
    · decide
  · decide

theorem sanitizeXmlText_splits {ps : List Piece} (h : Splits s ps) : sanitizeXmlText s = encode (ps.map xmlChar) := by
  induction h with
  | nil => rw [sanitizeXmlText, List.map_nil, encode_nil]
  | @char bs ps c h ih =>
    obtain ⟨first, rest, hcons⟩ := List.exists_cons_of_ne_nil (l := utf8EncodeChar c ++ bs)
      fun hnil => encodeChar_ne_nil c (List.append_eq_nil_iff.mp hnil).1
    rw [hcons, sanitizeXmlText, ← hcons, decodeUtf8_encodeChar, List.drop_left, List.take_left, ih, List.map_cons,
      encode_cons, xmlChar]
    by_cases hxml : isXmlChar c.toNat = true
    · simp [hxml]
    · simp [hxml, ascii]
  | @bad b bs ps hnone h ih =>
    rw [sanitizeXmlText, decodeUtf8_startsNone hnone, List.map_cons, encode_cons]
    simp [ih, ascii, xmlChar]

theorem sanitizeXmlText_encode {cs : List Char} (h : XmlText cs) : sanitizeXmlText (encode cs) = encode cs := by
  have hsame : (cs.map Piece.char).map xmlChar = cs := by
    rw [List.map_map, List.map_congr_left (g := id) fun c hc => ?_, List.map_id]
    exact if_pos (h c hc)
  rw [sanitizeXmlText_splits (splits_encode cs), hsame]

theorem sanitizeXmlText_xml (s : List UInt8) : ∃ cs, XmlText cs ∧ encode cs = sanitizeXmlText s := by
  obtain ⟨ps, hps⟩ := exists_splits s
  refine ⟨ps.map xmlChar, fun c hc => ?_, (sanitizeXmlText_splits hps).symm⟩
  obtain ⟨p, -, rfl⟩ := List.mem_map.mp hc
  exact isXmlChar_xmlChar p

-- ---------------------------------------------------------------------------
-- Entities
-- ---------------------------------------------------------------------------

/-- The four entities `escape_xml` writes. -/
def entities : List (List UInt8 × UInt8) :=
  [(ascii "&amp;", 0x26), (ascii "&lt;", 0x3C), (ascii "&gt;", 0x3E), (ascii "&quot;", 0x22)]

theorem entities_eq : entities =
    [([0x26, 0x61, 0x6D, 0x70, 0x3B], 0x26), ([0x26, 0x6C, 0x74, 0x3B], 0x3C), ([0x26, 0x67, 0x74, 0x3B], 0x3E),
      ([0x26, 0x71, 0x75, 0x6F, 0x74, 0x3B], 0x22)] := by decide

def replaceEntities : List UInt8 → List UInt8
  | [] => []
  | ch :: rest =>
    match entities.find? fun e => e.1.isPrefixOf (ch :: rest) with
    | some e => e.2 :: replaceEntities (rest.drop (e.1.length - 1))
    | none => ch :: replaceEntities rest
termination_by s => s.length
decreasing_by
  · simp only [List.length_drop, List.length_cons]
    omega
  · simp

theorem escapeXmlByte_cases (ch : UInt8) :
    (escapeXmlByte ch, ch) ∈ entities ∨
      escapeXmlByte ch = [ch] ∧ ch ≠ 0x26 ∧ ch ≠ 0x3C ∧ ch ≠ 0x3E ∧ ch ≠ 0x22 := by
  unfold escapeXmlByte
  split
  · rename_i h
    subst h
    exact .inl (by decide)
  split
  · rename_i h
    subst h
    exact .inl (by decide)
  split
  · rename_i h
    subst h
    exact .inl (by decide)
  split
  · rename_i h
    subst h
    exact .inl (by decide)
  · rename_i hamp hlt hgt hquot
    exact .inr ⟨rfl, hamp, hlt, hgt, hquot⟩

/-- An entity starts with an ampersand and has none of the characters that must
not be written, nor a further ampersand. -/
theorem entity_shape {e : List UInt8 × UInt8} (h : e ∈ entities) :
    ∃ name, e.1 = 0x26 :: name ∧ ∀ ch ∈ name, ch ≠ 0x26 ∧ ch ≠ 0x3C ∧ ch ≠ 0x3E ∧ ch ≠ 0x22 := by
  have hall : ∀ e ∈ entities, e.1 = 0x26 :: e.1.tail ∧ ∀ ch ∈ e.1.tail, ch ≠ 0x26 ∧ ch ≠ 0x3C ∧ ch ≠ 0x3E ∧ ch ≠ 0x22 := by
    rw [entities_eq]
    decide
  exact ⟨e.1.tail, hall e h⟩

theorem find?_entity {e : List UInt8 × UInt8} (h : e ∈ entities) (t : List UInt8) :
    (entities.find? fun e' => e'.1.isPrefixOf (e.1 ++ t)) = some e := by
  rw [entities_eq] at h ⊢
  simp only [List.mem_cons, List.not_mem_nil, or_false] at h
  obtain rfl | rfl | rfl | rfl := h <;> simp

theorem find?_entity_none {ch : UInt8} (h : ch ≠ 0x26) (t : List UInt8) :
    (entities.find? fun e => e.1.isPrefixOf (ch :: t)) = none := by
  rw [List.find?_eq_none]
  intro e he hfront
  obtain ⟨name, hname, -⟩ := entity_shape he
  rw [hname, List.isPrefixOf_iff_prefix, List.cons_prefix_cons] at hfront
  exact h hfront.1.symm

theorem replaceEntities_escaped (ch : UInt8) (t : List UInt8) :
    replaceEntities (escapeXmlByte ch ++ t) = ch :: replaceEntities t := by
  rcases escapeXmlByte_cases ch with hentity | ⟨hsame, hamp, -⟩
  · have hfind := find?_entity hentity t
    obtain ⟨name, hname, -⟩ := entity_shape hentity
    simp only at hname hfind
    rw [hname, List.cons_append] at hfind ⊢
    rw [replaceEntities, hfind]
    simp
  · rw [hsame, List.singleton_append, replaceEntities, find?_entity_none hamp t]

theorem replaceEntities_flatMap (s : List UInt8) : replaceEntities (s.flatMap escapeXmlByte) = s := by
  induction s with
  | nil => rw [List.flatMap_nil, replaceEntities]
  | cons ch rest ih => rw [List.flatMap_cons, replaceEntities_escaped, ih]

theorem escaped_markup (s before after : List UInt8) (ch : UInt8)
    (h : s.flatMap escapeXmlByte = before ++ ch :: after) :
    (ch ≠ 0x3C ∧ ch ≠ 0x3E ∧ ch ≠ 0x22) ∧ (ch = 0x26 → ∃ e ∈ entities, e.1 <+: ch :: after) := by
  induction s generalizing before with
  | nil => exact absurd h.symm (by simp)
  | cons first rest ih =>
    rw [List.flatMap_cons] at h
    rcases List.append_eq_append_iff.mp h with ⟨gap, rfl, hrest⟩ | ⟨gap, hfirst, hrest⟩
    · exact ih gap hrest
    -- The byte lies in what was written for the first one.
    · cases gap with
      | nil => exact ih [] hrest.symm
      | cons ch' gap =>
        obtain ⟨rfl, rfl⟩ := List.cons.inj hrest
        rcases escapeXmlByte_cases first with hentity | ⟨hsame, hamp, hlt, hgt, hquot⟩
        · obtain ⟨name, hname, hchars⟩ := entity_shape hentity
          simp only at hname
          rw [hname] at hfirst
          cases before with
          | nil =>
            obtain ⟨rfl, rfl⟩ := List.cons.inj hfirst
            refine ⟨by decide, fun _ => ⟨_, hentity, ?_⟩⟩
            rw [hname]
            exact List.prefix_append (_ :: _) _
          | cons _ before =>
            have hmem : ch ∈ name := by
              rw [(List.cons.inj hfirst).2]
              simp
            obtain ⟨hamp, hmarkup⟩ := hchars ch hmem
            exact ⟨hmarkup, fun heq => absurd heq hamp⟩
        · obtain rfl : ch = first := by
            have hmem : ch ∈ escapeXmlByte first := by
              rw [hfirst]
              simp
            rw [hsame] at hmem
            exact List.mem_singleton.mp hmem
          exact ⟨⟨hlt, hgt, hquot⟩, fun heq => absurd heq hamp⟩

-- ---------------------------------------------------------------------------
-- CDATA sections
-- ---------------------------------------------------------------------------

def cdataSection (content : List UInt8) : List UInt8 := ascii "<![CDATA[" ++ content ++ cdataEnd

theorem not_infix_after_gt (h : ¬ cdataEnd <:+: s) : ¬ cdataEnd <:+: ascii ">" ++ s := by
  intro hin
  rcases List.infix_cons_iff.mp hin with hfront | hin
  · rw [cdataEnd_eq, List.cons_prefix_cons] at hfront
    exact absurd hfront.1 (by decide)
  · exact h hin

theorem not_infix_concat (h : ¬ cdataEnd <:+: s) : ¬ cdataEnd <:+: s ++ [0x5D] := by
  intro hin
  rcases List.infix_concat_iff.mp hin with hback | hin
  · rcases List.suffix_concat_iff.mp hback with hnil | ⟨t, ht, -⟩
    · exact cdataEnd_ne_nil hnil
    · have hlast := congrArg List.getLast? ht
      rw [cdataEnd_eq, List.getLast?_concat] at hlast
      exact absurd hlast (by decide)
  · exact h hin

/-- Two brackets, behind a text the end of a section does not stand in, do not
complete it. -/
theorem not_infix_before_brackets (h : ¬ cdataEnd <:+: s) : ¬ cdataEnd <:+: s ++ ascii "]]" := by
  have htwo : s ++ ascii "]]" = s ++ [0x5D] ++ [0x5D] := by
    rw [List.append_assoc]
    rfl
  rw [htwo]
  exact not_infix_concat (not_infix_concat h)

/-- The sections written from a position on, the first of them with a text put
before it. -/
theorem writeCdataFrom_sections (s lead : List UInt8) (hlead : lead = [] ∨ lead = ascii ">") :
    ∃ contents : List (List UInt8),
      ascii "<![CDATA[" ++ (lead ++ writeCdataFrom s) ++ cdataEnd = contents.flatMap cdataSection ∧
        (∀ content ∈ contents, ¬ cdataEnd <:+: content) ∧ contents.flatten = lead ++ s := by
  have hlead' : ∀ {t : List UInt8}, ¬ cdataEnd <:+: t → ¬ cdataEnd <:+: lead ++ t := by
    intro t ht
    rcases hlead with rfl | rfl
    · exact ht
    · exact not_infix_after_gt ht
  fun_induction writeCdataFrom s generalizing lead with
  | case1 s hnone =>
    refine ⟨[lead ++ s], by simp [cdataSection], ?_, by simp⟩
    simpa using hlead' (findSub_none hnone)
  | case2 s pos hpos ih =>
    obtain ⟨before, after, rfl, hlength, hnot⟩ := findSub_some hpos cdataEnd_ne_nil
    have hdrop : (before ++ (cdataEnd ++ after)).drop (pos + 3) = after := by
      rw [← List.append_assoc]
      exact List.drop_left' (by simp [hlength, cdataEnd_eq])
    obtain ⟨contents, hwritten, hcontents, hflatten⟩ := ih (ascii ">") (.inr rfl) not_infix_after_gt
    rw [hdrop] at hwritten hflatten
    rw [List.take_left' hlength, hdrop]
    have hsplit : ascii "]]]]><![CDATA[>" = ascii "]]" ++ cdataEnd ++ ascii "<![CDATA[" ++ ascii ">" := by decide
    refine ⟨(lead ++ before ++ ascii "]]") :: contents, ?_, ?_, ?_⟩
    · rw [List.flatMap_cons, ← hwritten, hsplit, cdataSection]
      simp only [List.append_assoc]
    · rw [List.forall_mem_cons]
      refine ⟨?_, hcontents⟩
      rw [List.append_assoc]
      exact hlead' (not_infix_before_brackets hnot)
    · have hend : cdataEnd = ascii "]]" ++ ascii ">" := by decide
      rw [List.flatten_cons, hflatten, hend]
      simp only [List.append_assoc]

/-- For all bytes: the sanitized text is the encoding of a text XML 1.0 can hold
and stays as it is when it already was one; the escaped text has no markup but
entities, which stand for the sanitized text; the sections written hold the
sanitized text and end where they should. -/
theorem xml_text_safe_and_faithful (s : List UInt8) :
    (∃ cs, XmlText cs ∧ encode cs = sanitizeXmlText s) ∧
      sanitizeXmlText (sanitizeXmlText s) = sanitizeXmlText s ∧
      (∀ cs, XmlText cs → s = encode cs → sanitizeXmlText s = s) ∧
      (∀ before ch after, escapeXml s = before ++ ch :: after →
        (ch ≠ 0x3C ∧ ch ≠ 0x3E ∧ ch ≠ 0x22) ∧ (ch = 0x26 → ∃ e ∈ entities, e.1 <+: ch :: after)) ∧
      replaceEntities (escapeXml s) = sanitizeXmlText s ∧
      ∃ contents : List (List UInt8), writeXmlCdata s = contents.flatMap cdataSection ∧
        (∀ content ∈ contents, ¬ cdataEnd <:+: content) ∧ contents.flatten = sanitizeXmlText s := by
  obtain ⟨cs, hxml, hcs⟩ := sanitizeXmlText_xml s
  refine ⟨⟨cs, hxml, hcs⟩, ?_, ?_, ?_, replaceEntities_flatMap _, ?_⟩
  · rw [← hcs]
    exact sanitizeXmlText_encode hxml
  · rintro cs hxml rfl
    exact sanitizeXmlText_encode hxml
  · intro before ch after h
    exact escaped_markup (sanitizeXmlText s) before after ch h
  · exact writeCdataFrom_sections (sanitizeXmlText s) [] (.inl rfl)

end Gentest.Runner
