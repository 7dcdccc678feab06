import Gentest.Runner.XmlText
import Mathlib.Data.List.DropRight

/-!
# Texts on the terminal

The live status block cuts texts to a number of columns. `next_utf8_span` finds the code
points of any bytes and their widths, `sanitized_terminal_field` spells out what must not
reach the terminal, and `shorten_right` and `shorten_left` keep what fits.
-/

namespace Gentest.Runner

open String (utf8EncodeChar)
open Utf8

-- ---------------------------------------------------------------------------
-- Spans
-- ---------------------------------------------------------------------------

def codepointWidth (cp : Nat) : Nat :=
  if cp = 0 ∨ (0x0300 ≤ cp ∧ cp ≤ 0x036F) ∨ (0x1AB0 ≤ cp ∧ cp ≤ 0x1AFF) ∨ (0x1DC0 ≤ cp ∧ cp ≤ 0x1DFF) ∨
      (0x20D0 ≤ cp ∧ cp ≤ 0x20FF) ∨ (0xFE00 ≤ cp ∧ cp ≤ 0xFE0F) then 0
  else if (0x1100 ≤ cp ∧ cp ≤ 0x115F) ∨ (0x2329 ≤ cp ∧ cp ≤ 0x232A) ∨ (0x2E80 ≤ cp ∧ cp ≤ 0xA4CF) ∨
      (0xAC00 ≤ cp ∧ cp ≤ 0xD7A3) ∨ (0xF900 ≤ cp ∧ cp ≤ 0xFAFF) ∨ (0xFE10 ≤ cp ∧ cp ≤ 0xFE19) ∨
      (0xFE30 ≤ cp ∧ cp ≤ 0xFE6F) ∨ (0xFF00 ≤ cp ∧ cp ≤ 0xFF60) ∨ (0xFFE0 ≤ cp ∧ cp ≤ 0xFFE6) ∨
      (0x1F300 ≤ cp ∧ cp ≤ 0x1FAFF) ∨ (0x20000 ≤ cp ∧ cp ≤ 0x3FFFD) then 2
  else 1

structure Utf8Span where
  bytes : List UInt8
  width : Nat
  cp : Nat
  valid : Bool
  deriving DecidableEq

def invalidSpan (byte0 : UInt8) : Utf8Span := { bytes := [byte0], width := 1, cp := 0xFFFD, valid := false }

/-- The length that a first byte announces, and its bits of the code point. -/
def leadingBits (byte0 : Nat) : Option (Nat × Nat) :=
  if byte0 &&& 0xE0 = 0xC0 then some (2, byte0 &&& 0x1F)
  else if byte0 &&& 0xF0 = 0xE0 then some (3, byte0 &&& 0x0F)
  else if byte0 &&& 0xF8 = 0xF0 then some (4, byte0 &&& 0x07)
  else none

/-- The loop over the bytes behind the first. -/
def continuationBits : Nat → Nat → List UInt8 → Option Nat
  | 0, cp, _ => some cp
  | _ + 1, _, [] => none
  | n + 1, cp, byte :: rest =>
    if byte.toNat &&& 0xC0 ≠ 0x80 then none else continuationBits n (cp <<< 6 ||| (byte.toNat &&& 0x3F)) rest

/-- Overlong forms, surrogates and what lies beyond the last code point. -/
def rejected (length cp : Nat) : Prop :=
  (length = 2 ∧ cp < 0x80) ∨ (length = 3 ∧ cp < 0x800) ∨ (length = 4 ∧ cp < 0x10000) ∨
    (0xD800 ≤ cp ∧ cp ≤ 0xDFFF) ∨ 0x10FFFF < cp

instance (length cp : Nat) : Decidable (rejected length cp) := inferInstanceAs (Decidable (_ ∨ _))

/-- The span at a position, given the byte there and those behind it. -/
def nextUtf8Span (byte0 : UInt8) (rest : List UInt8) : Utf8Span :=
  if byte0.toNat < 0x80 then
    { bytes := [byte0], width := codepointWidth byte0.toNat, cp := byte0.toNat, valid := true }
  else
    match leadingBits byte0.toNat with
    | none => invalidSpan byte0
    | some (length, bits) =>
      match continuationBits (length - 1) bits rest with
      | none => invalidSpan byte0
      | some cp =>
        if rejected length cp then invalidSpan byte0
        else { bytes := byte0 :: rest.take (length - 1), width := codepointWidth cp, cp := cp, valid := true }

/-- The spans of a text; so many bytes at its front belong to the span before. -/
def utf8SpansFrom : Nat → List UInt8 → List Utf8Span
  | _, [] => []
  | skip + 1, _ :: rest => utf8SpansFrom skip rest
  | 0, byte0 :: rest =>
    let span := nextUtf8Span byte0 rest
    span :: utf8SpansFrom (span.bytes.length - 1) rest

def utf8Spans (text : List UInt8) : List Utf8Span := utf8SpansFrom 0 text

def displayWidth (text : List UInt8) : Nat := ((utf8Spans text).map (·.width)).sum

-- ---------------------------------------------------------------------------
-- Fields
-- ---------------------------------------------------------------------------

/-- `{:02X}` and `{:04X}`. -/
def paddedHex (digits cp : Nat) : List Char := ((Nat.toDigits 16 cp).map Char.toUpper).leftpad digits '0'

def sanitizedSpan (span : Utf8Span) : List UInt8 :=
  if span.valid = false then [0xEF, 0xBF, 0xBD]
  else if span.cp = 0x0A then ascii "\\n"
  else if span.cp = 0x0D then ascii "\\r"
  else if span.cp = 0x09 then ascii "\\t"
  else if span.cp < 0x20 ∨ span.cp = 0x7F then encode ('\\' :: 'x' :: paddedHex 2 span.cp)
  else if 0x80 ≤ span.cp ∧ span.cp ≤ 0x9F then encode ('\\' :: 'u' :: paddedHex 4 span.cp)
  else span.bytes

def sanitizedTerminalField (text : List UInt8) : List UInt8 := (utf8Spans text).flatMap sanitizedSpan

/-- The bytes up to the first span that is too much. -/
def takeSpans (budget : Nat) : Nat → List Utf8Span → List UInt8
  | _, [] => []
  | used, span :: spans =>
    if budget < used + span.width then [] else span.bytes ++ takeSpans budget (used + span.width) spans

def shortenRight (text : List UInt8) (maxWidth : Nat) : List UInt8 :=
  if maxWidth = 0 then []
  else if displayWidth text ≤ maxWidth then text
  else
    let budget := if maxWidth ≤ 3 then maxWidth else maxWidth - 3
    let front := takeSpans budget 0 (utf8Spans text)
    if maxWidth ≤ 3 then front else front ++ ascii "..."

/-- The bytes behind the last span that is too much, of spans in reverse. -/
def takeSpansBack (budget : Nat) : Nat → List Utf8Span → List UInt8 → List UInt8
  | _, [], behind => behind
  | used, span :: spans, behind =>
    if budget < used + span.width then behind
    else takeSpansBack budget (used + span.width) spans (span.bytes ++ behind)

def shortenLeft (text : List UInt8) (maxWidth : Nat) : List UInt8 :=
  if maxWidth = 0 then []
  else if displayWidth text ≤ maxWidth then text
  else
    let budget := if maxWidth ≤ 3 then maxWidth else maxWidth - 3
    let back := takeSpansBack budget 0 (utf8Spans text).reverse []
    if maxWidth ≤ 3 then back else ascii "..." ++ back

def isPadding (byte : UInt8) : Bool := byte = 0x20 || byte = 0x09 || byte = 0x0D || byte = 0x0A

def trimTrailingPadding (text : List UInt8) : List UInt8 := text.rdropWhile isPadding

-- ---------------------------------------------------------------------------
-- Spans of characters
-- ---------------------------------------------------------------------------

theorem leadingBits_eq (byte0 : UInt8) :
    leadingBits byte0.toNat =
      if byte0.toNat < 0xC0 then none
      else if byte0.toNat < 0xE0 then some (2, byte0.toNat - 0xC0)
      else if byte0.toNat < 0xF0 then some (3, byte0.toNat - 0xE0)
      else if byte0.toNat < 0xF8 then some (4, byte0.toNat - 0xF0)
      else none := by
  have hall : ∀ n : Fin 256, leadingBits n.val =
      if n.val < 0xC0 then none
      else if n.val < 0xE0 then some (2, n.val - 0xC0)
      else if n.val < 0xF0 then some (3, n.val - 0xE0)
      else if n.val < 0xF8 then some (4, n.val - 0xF0)
      else none := by decide +kernel
  exact hall ⟨byte0.toNat, byte0.toNat_lt⟩

theorem continuationBits_tail {b : UInt8} (hb : Tail b) (n cp : Nat) (rest : List UInt8) :
    continuationBits (n + 1) cp (b :: rest) = continuationBits n (cp * 64 + (b.toNat - 0x80)) rest := by
  have hbits := hb.bits
  have htail := hb
  unfold Tail at htail
  rw [continuationBits, if_neg (not_not.mpr ((tail_iff_mask b).mpr hb)), hbits, shiftLeft_or 6 (by omega)]
  rfl

theorem continuationBits_some {n cp out : Nat} {rest : List UInt8} (h : continuationBits (n + 1) cp rest = some out) :
    ∃ b more, rest = b :: more ∧ Tail b ∧ continuationBits n (cp * 64 + (b.toNat - 0x80)) more = some out := by
  cases rest with
  | nil => cases h
  | cons b more =>
    by_cases hb : Tail b
    · exact ⟨b, more, rfl, hb, continuationBits_tail hb n cp more ▸ h⟩
    · rw [continuationBits, if_pos (mt (tail_iff_mask b).mp hb)] at h
      cases h

theorem nextUtf8Span_sequence {n : Nat} {byte0 : UInt8} {more : List UInt8} (h : Sequence n (byte0 :: more))
    (rest : List UInt8) : nextUtf8Span byte0 (more ++ rest) = ⟨byte0 :: more, codepointWidth n, n, true⟩ := by
  unfold nextUtf8Span
  cases h with
  | one h => rw [if_pos h]
  | @two _ b low high hb =>
    have htail := hb
    unfold Tail at htail
    have hbits := continuationBits_tail hb 0 (byte0.toNat - 0xC0) rest
    rw [if_neg (by omega), leadingBits_eq, if_neg (by omega), if_pos high]
    dsimp only [List.cons_append, List.nil_append]
    rw [hbits, continuationBits]
    dsimp only
    rw [if_neg (by unfold rejected; omega)]
    rfl
  | @three _ b c low high hb hc overlong surrogate =>
    have htails := And.intro hb hc
    unfold Tail at htails
    have hbits := (continuationBits_tail hb 1 (byte0.toNat - 0xE0) (c :: rest)).trans (continuationBits_tail hc 0 _ rest)
    rw [if_neg (by omega), leadingBits_eq, if_neg (by omega), if_neg (by omega), if_pos high]
    dsimp only [List.cons_append, List.nil_append]
    rw [hbits, continuationBits]
    dsimp only
    rw [if_neg (by unfold rejected; omega)]
    rfl
  | @four _ b c d low high hb hc hd overlong limit =>
    have htails := And.intro hb (And.intro hc hd)
    unfold Tail at htails
    have hbits := ((continuationBits_tail hb 2 (byte0.toNat - 0xF0) (c :: d :: rest)).trans
      (continuationBits_tail hc 1 _ (d :: rest))).trans (continuationBits_tail hd 0 _ rest)
    rw [if_neg (by omega), leadingBits_eq, if_neg (by omega), if_neg (by omega), if_neg (by omega), if_pos (by omega)]
    dsimp only [List.cons_append, List.nil_append]
    rw [hbits, continuationBits]
    dsimp only
    rw [if_neg (by unfold rejected; omega)]
    rfl

theorem nextUtf8Span_cases (byte0 : UInt8) (rest : List UInt8) :
    nextUtf8Span byte0 rest = invalidSpan byte0 ∨ StartsSequence (byte0 :: rest) := by
  unfold nextUtf8Span
  split
  · rename_i h
    exact .inr ⟨_, [byte0], rest, rfl, .one h⟩
  rw [leadingBits_eq]
  split
  · exact .inl rfl
  rename_i length bits hlead
  split
  · exact .inl rfl
  rename_i cp hcp
  split
  · exact .inl rfl
  rename_i hkept
  unfold rejected at hkept
  split at hlead
  · cases hlead
  split at hlead
  · obtain ⟨rfl, rfl⟩ := Prod.mk.inj (Option.some.inj hlead)
    obtain ⟨b, more, rfl, hb, hcp⟩ := continuationBits_some hcp
    have hvalue := Option.some.inj hcp
    have htail := hb
    unfold Tail at htail
    exact .inr ⟨_, [byte0, b], more, rfl, .two (by omega) (by omega) hb⟩
  split at hlead
  · obtain ⟨rfl, rfl⟩ := Prod.mk.inj (Option.some.inj hlead)
    obtain ⟨b, more, rfl, hb, hcp⟩ := continuationBits_some hcp
    obtain ⟨c, more, rfl, hc, hcp⟩ := continuationBits_some hcp
    have hvalue := Option.some.inj hcp
    have htails := And.intro hb hc
    unfold Tail at htails
    exact .inr ⟨_, [byte0, b, c], more, rfl, .three (by omega) (by omega) hb hc (by omega) (by omega)⟩
  split at hlead
  · obtain ⟨rfl, rfl⟩ := Prod.mk.inj (Option.some.inj hlead)
    obtain ⟨b, more, rfl, hb, hcp⟩ := continuationBits_some hcp
    obtain ⟨c, more, rfl, hc, hcp⟩ := continuationBits_some hcp
    obtain ⟨d, more, rfl, hd, hcp⟩ := continuationBits_some hcp
    have hvalue := Option.some.inj hcp
    have htails := And.intro hb (And.intro hc hd)
    unfold Tail at htails
    exact .inr ⟨_, [byte0, b, c, d], more, rfl, .four (by omega) (by omega) hb hc hd (by omega) (by omega)⟩
  · cases hlead

def charSpan (c : Char) : Utf8Span := ⟨utf8EncodeChar c, codepointWidth c.toNat, c.toNat, true⟩

def pieceSpan : Piece → Utf8Span
  | .char c => charSpan c
  | .bad b => invalidSpan b

theorem utf8SpansFrom_length (front rest : List UInt8) :
    utf8SpansFrom front.length (front ++ rest) = utf8Spans rest := by
  induction front with
  | nil => rfl
  | cons b front ih => exact ih

theorem utf8Spans_char (c : Char) (rest : List UInt8) :
    utf8Spans (utf8EncodeChar c ++ rest) = charSpan c :: utf8Spans rest := by
  obtain ⟨byte0, more, hbytes⟩ := List.exists_cons_of_ne_nil (encodeChar_ne_nil c)
  have hspan := nextUtf8Span_sequence (hbytes ▸ sequence_encodeChar c) rest
  rw [hbytes, utf8Spans, List.cons_append, utf8SpansFrom, hspan, charSpan, hbytes]
  exact congrArg _ (utf8SpansFrom_length more rest)

theorem utf8Spans_splits {s : List UInt8} {ps : List Piece} (h : Splits s ps) : utf8Spans s = ps.map pieceSpan := by
  induction h with
  | nil => rfl
  | @char bs ps c h ih => rw [utf8Spans_char, ih, List.map_cons, pieceSpan]
  | @bad b bs ps hnone h ih =>
    have hspan : nextUtf8Span b bs = invalidSpan b := by
      rcases nextUtf8Span_cases b bs with hinvalid | ⟨n, front, rest, heq, hseq⟩
      · exact hinvalid
      · obtain ⟨c, -, rfl⟩ := hseq.encodeChar
        exact absurd ⟨rest, heq.symm⟩ (hnone c)
    rw [utf8Spans, utf8SpansFrom, hspan, List.map_cons, ← ih]
    rfl

theorem utf8Spans_encode_append (cs : List Char) (rest : List UInt8) :
    utf8Spans (encode cs ++ rest) = cs.map charSpan ++ utf8Spans rest := by
  induction cs with
  | nil => rfl
  | cons c cs ih => rw [encode_cons, List.append_assoc, utf8Spans_char, ih, List.map_cons, List.cons_append]

theorem utf8Spans_encode (cs : List Char) : utf8Spans (encode cs) = cs.map charSpan := by
  have happend := utf8Spans_encode_append cs []
  rwa [List.append_nil, show utf8Spans [] = [] from rfl, List.append_nil] at happend

-- ---------------------------------------------------------------------------
-- Plain texts
-- ---------------------------------------------------------------------------

def IsControl (cp : Nat) : Prop := cp < 0x20 ∨ cp = 0x7F ∨ (0x80 ≤ cp ∧ cp ≤ 0x9F)

instance (cp : Nat) : Decidable (IsControl cp) := inferInstanceAs (Decidable (_ ∨ _))

/-- UTF-8 without control code points. -/
def PlainText (bs : List UInt8) : Prop := ∃ cs, (∀ c ∈ cs, ¬IsControl c.toNat) ∧ encode cs = bs

def textWidth (cs : List Char) : Nat := (cs.map fun c => codepointWidth c.toNat).sum

theorem displayWidth_encode (cs : List Char) : displayWidth (encode cs) = textWidth cs := by
  rw [displayWidth, utf8Spans_encode, List.map_map]
  rfl

theorem PlainText.nil : PlainText [] := ⟨[], fun _ h => (nomatch h), rfl⟩

theorem PlainText.append {x y : List UInt8} (hx : PlainText x) (hy : PlainText y) : PlainText (x ++ y) := by
  obtain ⟨cs, hcs, rfl⟩ := hx
  obtain ⟨ds, hds, rfl⟩ := hy
  exact ⟨cs ++ ds, List.forall_mem_append.mpr ⟨hcs, hds⟩, encode_append cs ds⟩

theorem displayWidth_append {x : List UInt8} (hx : PlainText x) (y : List UInt8) :
    displayWidth (x ++ y) = displayWidth x + displayWidth y := by
  obtain ⟨cs, -, rfl⟩ := hx
  rw [displayWidth, utf8Spans_encode_append, List.map_append, List.sum_append, ← utf8Spans_encode]
  rfl

/-- What a field shows for a character. -/
def shownChar (c : Char) : List Char :=
  if c.toNat = 0x0A then ['\\', 'n']
  else if c.toNat = 0x0D then ['\\', 'r']
  else if c.toNat = 0x09 then ['\\', 't']
  else if c.toNat < 0x20 ∨ c.toNat = 0x7F then '\\' :: 'x' :: paddedHex 2 c.toNat
  else if 0x80 ≤ c.toNat ∧ c.toNat ≤ 0x9F then '\\' :: 'u' :: paddedHex 4 c.toNat
  else [c]

def shownPiece : Piece → List Char
  | .bad _ => ['\uFFFD']
  | .char c => shownChar c

theorem sanitizedSpan_piece (p : Piece) : sanitizedSpan (pieceSpan p) = encode (shownPiece p) := by
  cases p with
  | bad b =>
    simp only [pieceSpan, invalidSpan, sanitizedSpan, shownPiece, if_true]
    decide
  | char c =>
    have hown : encode [c] = utf8EncodeChar c := List.append_nil _
    simp only [pieceSpan, charSpan, sanitizedSpan, shownPiece, shownChar, Bool.true_eq_false, if_false, apply_ite encode,
      hown]
    rfl

theorem paddedHex_plain (cp : Nat) (h : cp < 0xA0) :
    ∀ digits ∈ [2, 4], ∀ c ∈ paddedHex digits cp, ¬IsControl c.toNat := by
  have hall : ∀ cp : Fin 0xA0, ∀ digits ∈ [2, 4], ∀ c ∈ paddedHex digits cp.val, ¬IsControl c.toNat := by
    decide +kernel
  exact hall ⟨cp, h⟩

theorem shownChar_plain (c : Char) : ∀ shown ∈ shownChar c, ¬IsControl shown.toNat := by
  unfold shownChar
  split
  · decide
  split
  · decide
  split
  · decide
  split
  · rename_i hcontrol
    have hhex := paddedHex_plain c.toNat (by omega) 2 (by decide)
    exact List.forall_mem_cons.mpr ⟨by decide, List.forall_mem_cons.mpr ⟨by decide, hhex⟩⟩
  split
  · rename_i hcontrol
    have hhex := paddedHex_plain c.toNat (by omega) 4 (by decide)
    exact List.forall_mem_cons.mpr ⟨by decide, List.forall_mem_cons.mpr ⟨by decide, hhex⟩⟩
  · rw [List.forall_mem_singleton, IsControl]
    omega

theorem shownPiece_plain (p : Piece) : ∀ c ∈ shownPiece p, ¬IsControl c.toNat := by
  cases p with
  | bad b => exact List.forall_mem_singleton.mpr (by decide)
  | char c => exact shownChar_plain c

/-- A sanitized field is plain, whatever its bytes are. -/
theorem sanitizedTerminalField_plain (text : List UInt8) : PlainText (sanitizedTerminalField text) := by
  obtain ⟨ps, hps⟩ := exists_splits text
  refine ⟨ps.flatMap shownPiece, fun c hc => ?_, ?_⟩
  · obtain ⟨p, -, hp⟩ := List.mem_flatMap.mp hc
    exact shownPiece_plain p c hp
  · rw [sanitizedTerminalField, utf8Spans_splits hps, List.flatMap_map]
    simp only [sanitizedSpan_piece]
    unfold encode
    rw [List.flatMap_assoc]

-- ---------------------------------------------------------------------------
-- Shortened texts
-- ---------------------------------------------------------------------------

theorem takeSpans_encode (budget used : Nat) (cs : List Char) (hused : used ≤ budget) :
    ∃ ds, ds <+: cs ∧ takeSpans budget used (cs.map charSpan) = encode ds ∧ used + textWidth ds ≤ budget := by
  induction cs generalizing used with
  | nil => exact ⟨[], List.prefix_rfl, rfl, hused⟩
  | cons c cs ih =>
    rw [List.map_cons, takeSpans]
    split
    · exact ⟨[], List.nil_prefix, rfl, hused⟩
    · rename_i hfits
      obtain ⟨ds, hds, htake, hwidth⟩ := ih _ (Nat.le_of_not_lt hfits)
      refine ⟨c :: ds, (List.prefix_cons_inj c).mpr hds, by rw [htake, encode_cons, charSpan], ?_⟩
      rw [textWidth, List.map_cons, List.sum_cons, ← Nat.add_assoc]
      exact hwidth

theorem takeSpansBack_encode (budget used : Nat) (cs : List Char) (behind : List Char) (hused : used ≤ budget) :
    ∃ ds, ds <+: cs ∧ takeSpansBack budget used (cs.map charSpan) (encode behind) = encode (ds.reverse ++ behind) ∧
      used + textWidth ds ≤ budget := by
  induction cs generalizing used behind with
  | nil => exact ⟨[], List.prefix_rfl, rfl, hused⟩
  | cons c cs ih =>
    rw [List.map_cons, takeSpansBack]
    split
    · exact ⟨[], List.nil_prefix, rfl, hused⟩
    · rename_i hfits
      obtain ⟨ds, hds, htake, hwidth⟩ := ih _ (c :: behind) (Nat.le_of_not_lt hfits)
      refine ⟨c :: ds, (List.prefix_cons_inj c).mpr hds, ?_, ?_⟩
      · rw [charSpan, ← encode_cons, List.reverse_cons, List.append_assoc]
        exact htake
      · rw [textWidth, List.map_cons, List.sum_cons, ← Nat.add_assoc]
        exact hwidth

theorem textWidth_reverse (cs : List Char) : textWidth cs.reverse = textWidth cs := by
  rw [textWidth, List.map_reverse, List.sum_reverse]
  rfl

theorem dots_plain : PlainText (ascii "...") := ⟨"...".toList, by decide, rfl⟩

theorem shortenRight_plain {text : List UInt8} (h : PlainText text) (maxWidth : Nat) :
    PlainText (shortenRight text maxWidth) ∧ displayWidth (shortenRight text maxWidth) ≤ maxWidth := by
  unfold shortenRight
  split
  · exact ⟨.nil, Nat.zero_le _⟩
  split
  · rename_i hfits
    exact ⟨h, hfits⟩
  obtain ⟨cs, hcs, rfl⟩ := h
  dsimp only
  rw [utf8Spans_encode]
  obtain ⟨ds, hds, htake, hwidth⟩ := takeSpans_encode (if maxWidth ≤ 3 then maxWidth else maxWidth - 3) 0 cs (Nat.zero_le _)
  have hplain : PlainText (encode ds) := ⟨ds, fun c hc => hcs c (hds.subset hc), rfl⟩
  rw [htake, displayWidth_encode] at *
  split
  · rename_i hsmall
    rw [if_pos hsmall] at hwidth
    exact ⟨hplain, by rw [displayWidth_encode]; omega⟩
  · rename_i hlarge
    rw [if_neg hlarge] at hwidth
    refine ⟨hplain.append dots_plain, ?_⟩
    rw [displayWidth_append hplain, displayWidth_encode, show displayWidth (ascii "...") = 3 from by decide]
    omega

theorem shortenLeft_plain {text : List UInt8} (h : PlainText text) (maxWidth : Nat) :
    PlainText (shortenLeft text maxWidth) ∧ displayWidth (shortenLeft text maxWidth) ≤ maxWidth := by
  unfold shortenLeft
  split
  · exact ⟨.nil, Nat.zero_le _⟩
  split
  · rename_i hfits
    exact ⟨h, hfits⟩
  obtain ⟨cs, hcs, rfl⟩ := h
  dsimp only
  rw [utf8Spans_encode, ← List.map_reverse, show ([] : List UInt8) = encode [] from rfl]
  obtain ⟨ds, hds, htake, hwidth⟩ := takeSpansBack_encode (if maxWidth ≤ 3 then maxWidth else maxWidth - 3) 0 cs.reverse [] (Nat.zero_le _)
  rw [List.append_nil] at htake
  have hplain : PlainText (encode ds.reverse) :=
    ⟨ds.reverse, fun c hc => hcs c (List.mem_reverse.mp (hds.subset (List.mem_reverse.mp hc))), rfl⟩
  have hdisplay : displayWidth (encode ds.reverse) = textWidth ds := by rw [displayWidth_encode, textWidth_reverse]
  rw [htake]
  split
  · rename_i hsmall
    rw [if_pos hsmall] at hwidth
    exact ⟨hplain, by rw [hdisplay]; omega⟩
  · rename_i hlarge
    rw [if_neg hlarge] at hwidth
    refine ⟨dots_plain.append hplain, ?_⟩
    rw [displayWidth_append dots_plain, hdisplay, show displayWidth (ascii "...") = 3 from by decide]
    omega

end Gentest.Runner
