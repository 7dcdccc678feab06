import Mathlib.Data.List.Basic
import Mathlib.Tactic.Ring

/-!
# Texts as bytes

The UTF-8 encoding of a text and what a decoder finds in arbitrary bytes: from
each position on either a character that is encoded there or a byte that starts
none. `Sequence` is the table of well-formed byte sequences by which decoders
are checked.
-/

namespace Utf8

open String (utf8EncodeChar)

def encode (cs : List Char) : List UInt8 := cs.flatMap utf8EncodeChar

/-- The bytes are the encoding of a text. -/
def Valid (bs : List UInt8) : Prop := ∃ cs, encode cs = bs

@[simp] theorem encode_nil : encode [] = [] := rfl

@[simp] theorem encode_cons (c : Char) (cs : List Char) : encode (c :: cs) = utf8EncodeChar c ++ encode cs := rfl

@[simp] theorem encode_append (cs ds : List Char) : encode (cs ++ ds) = encode cs ++ encode ds := List.flatMap_append

-- ---------------------------------------------------------------------------
-- Well-formed sequences
-- ---------------------------------------------------------------------------

def Tail (b : UInt8) : Prop := 0x80 ≤ b.toNat ∧ b.toNat < 0xC0

/-- The well-formed sequences and the code points they stand for. -/
inductive Sequence : Nat → List UInt8 → Prop
  | one {a : UInt8} (h : a.toNat < 0x80) : Sequence a.toNat [a]
  | two {a b : UInt8} (low : 0xC2 ≤ a.toNat) (high : a.toNat < 0xE0) (hb : Tail b) :
    Sequence ((a.toNat - 0xC0) * 64 + (b.toNat - 0x80)) [a, b]
  | three {a b c : UInt8} (low : 0xE0 ≤ a.toNat) (high : a.toNat < 0xF0) (hb : Tail b) (hc : Tail c)
    (overlong : a.toNat = 0xE0 → 0xA0 ≤ b.toNat) (surrogate : a.toNat = 0xED → b.toNat < 0xA0) :
    Sequence (((a.toNat - 0xE0) * 64 + (b.toNat - 0x80)) * 64 + (c.toNat - 0x80)) [a, b, c]
  | four {a b c d : UInt8} (low : 0xF0 ≤ a.toNat) (high : a.toNat ≤ 0xF4) (hb : Tail b) (hc : Tail c) (hd : Tail d)
    (overlong : a.toNat = 0xF0 → 0x90 ≤ b.toNat) (limit : a.toNat = 0xF4 → b.toNat < 0x90) :
    Sequence ((((a.toNat - 0xF0) * 64 + (b.toNat - 0x80)) * 64 + (c.toNat - 0x80)) * 64 + (d.toNat - 0x80))
      [a, b, c, d]

theorem toNat_ofNat_of_lt {n : Nat} (h : n < 256) : (UInt8.ofNat n).toNat = n := by
  rw [UInt8.toNat_ofNat']
  exact Nat.mod_eq_of_lt h

theorem scalar (c : Char) : c.toNat < 0xD800 ∨ 0xDFFF < c.toNat ∧ c.toNat < 0x110000 := c.valid

theorem sequence_encodeChar (c : Char) : Sequence c.toNat (utf8EncodeChar c) := by
  have hscalar := scalar c
  unfold utf8EncodeChar
  change Sequence c.toNat (if c.toNat ≤ 0x7f then _ else _)
  simp only [show c.val.toNat = c.toNat from rfl]
  generalize hv : c.toNat = v at hscalar ⊢
  split
  · rename_i h
    have hs := Sequence.one (a := UInt8.ofNat v)
    rw [toNat_ofNat_of_lt (by omega)] at hs
    exact hs (by omega)
  · rename_i h1
    split
    · rename_i h2
      have hs := Sequence.two (a := UInt8.ofNat (v / 64 % 0x20 + 0xc0)) (b := UInt8.ofNat (v % 0x40 + 0x80))
      rw [Tail, toNat_ofNat_of_lt (by omega), toNat_ofNat_of_lt (by omega)] at hs
      have hs := hs (by omega) (by omega) (by omega)
      rwa [show (v / 64 % 0x20 + 0xc0 - 0xC0) * 64 + (v % 0x40 + 0x80 - 0x80) = v by omega] at hs
    · rename_i h2
      split
      · rename_i h3
        have hs := Sequence.three (a := UInt8.ofNat (v / 4096 % 0x10 + 0xe0))
          (b := UInt8.ofNat (v / 64 % 0x40 + 0x80)) (c := UInt8.ofNat (v % 0x40 + 0x80))
        rw [Tail, Tail, toNat_ofNat_of_lt (by omega), toNat_ofNat_of_lt (by omega), toNat_ofNat_of_lt (by omega)] at hs
        have hs := hs (by omega) (by omega) (by omega) (by omega) (by omega) (by omega)
        rwa [show ((v / 4096 % 0x10 + 0xe0 - 0xE0) * 64 + (v / 64 % 0x40 + 0x80 - 0x80)) * 64 +
          (v % 0x40 + 0x80 - 0x80) = v by omega] at hs
      · rename_i h3
        have hs := Sequence.four (a := UInt8.ofNat (v / 262144 % 0x08 + 0xf0))
          (b := UInt8.ofNat (v / 4096 % 0x40 + 0x80)) (c := UInt8.ofNat (v / 64 % 0x40 + 0x80))
          (d := UInt8.ofNat (v % 0x40 + 0x80))
        rw [Tail, Tail, Tail, toNat_ofNat_of_lt (by omega), toNat_ofNat_of_lt (by omega),
          toNat_ofNat_of_lt (by omega), toNat_ofNat_of_lt (by omega)] at hs
        have hs := hs (by omega) (by omega) (by omega) (by omega) (by omega) (by omega) (by omega)
        rwa [show (((v / 262144 % 0x08 + 0xf0 - 0xF0) * 64 + (v / 4096 % 0x40 + 0x80 - 0x80)) * 64 +
          (v / 64 % 0x40 + 0x80 - 0x80)) * 64 + (v % 0x40 + 0x80 - 0x80) = v by omega] at hs

theorem Sequence.scalar {n : Nat} {bs : List UInt8} (h : Sequence n bs) : n.isValidChar := by
  unfold Nat.isValidChar
  cases h with
  | one h => omega
  | two low high hb =>
    unfold Tail at hb
    omega
  | three low high hb hc overlong surrogate =>
    unfold Tail at hb hc
    omega
  | four low high hb hc hd overlong limit =>
    unfold Tail at hb hc hd
    omega

theorem ofNat_eq {n : Nat} {a : UInt8} (h : n = a.toNat) : UInt8.ofNat n = a := by
  rw [h, UInt8.ofNat_toNat]

theorem Sequence.encodeChar {n : Nat} {bs : List UInt8} (h : Sequence n bs) :
    ∃ c : Char, c.toNat = n ∧ utf8EncodeChar c = bs := by
  have hn : (Char.ofNat n).toNat = n := by
    rw [Char.ofNat, dif_pos h.scalar]
    rfl
  refine ⟨Char.ofNat n, hn, ?_⟩
  unfold utf8EncodeChar
  simp only [show (Char.ofNat n).val.toNat = n from hn]
  cases h with
  | one h => rw [if_pos (by omega), ofNat_eq rfl]
  | two low high hb =>
    unfold Tail at hb
    rw [if_neg (by omega), if_pos (by omega), List.cons.injEq, List.cons.injEq]
    exact ⟨ofNat_eq (by omega), ofNat_eq (by omega), rfl⟩
  | three low high hb hc overlong surrogate =>
    unfold Tail at hb hc
    rw [if_neg (by omega), if_neg (by omega), if_pos (by omega), List.cons.injEq, List.cons.injEq, List.cons.injEq]
    exact ⟨ofNat_eq (by omega), ofNat_eq (by omega), ofNat_eq (by omega), rfl⟩
  | four low high hb hc hd overlong limit =>
    unfold Tail at hb hc hd
    rw [if_neg (by omega), if_neg (by omega), if_neg (by omega), List.cons.injEq, List.cons.injEq, List.cons.injEq,
      List.cons.injEq]
    exact ⟨ofNat_eq (by omega), ofNat_eq (by omega), ofNat_eq (by omega), ofNat_eq (by omega), rfl⟩

-- Decoders cut the bits of a code point out of the bytes and put them together.

theorem tail_iff_mask (b : UInt8) : b.toNat &&& 0xC0 = 0x80 ↔ Tail b := by
  have hall : ∀ n : Fin 256, n.val &&& 0xC0 = 0x80 ↔ 0x80 ≤ n.val ∧ n.val < 0xC0 := by decide +kernel
  exact hall ⟨b.toNat, b.toNat_lt⟩

theorem shiftLeft_or {x y : Nat} (i : Nat) (h : y < 2 ^ i) : x <<< i ||| y = x * 2 ^ i + y := by
  rw [← Nat.shiftLeft_add_eq_or_of_lt h, Nat.shiftLeft_eq]

theorem Tail.bits {b : UInt8} (h : Tail b) : b.toNat &&& 0x3F = b.toNat - 0x80 := by
  unfold Tail at h
  rw [Nat.and_two_pow_sub_one_eq_mod b.toNat 6]
  omega

theorem encodeChar_append_inj {c d : Char} {bs ds : List UInt8}
    (h : utf8EncodeChar c ++ bs = utf8EncodeChar d ++ ds) : c = d ∧ bs = ds := by
  have hc := ByteArray.utf8DecodeChar?_utf8EncodeChar_append (b := bs.toByteArray) (c := c)
  have hd := ByteArray.utf8DecodeChar?_utf8EncodeChar_append (b := ds.toByteArray) (c := d)
  rw [← List.toByteArray_append, h, List.toByteArray_append, hd] at hc
  obtain rfl := Option.some.inj hc
  exact ⟨rfl, List.append_cancel_left h⟩

theorem encodeChar_ne_nil (c : Char) : utf8EncodeChar c ≠ [] := by
  intro h
  have hlength := congrArg List.length h
  rw [String.length_utf8EncodeChar] at hlength
  exact absurd hlength (Nat.ne_of_gt c.utf8Size_pos)

theorem encode_injective {cs ds : List Char} (h : encode cs = encode ds) : cs = ds := by
  induction cs generalizing ds with
  | nil =>
    cases ds with
    | nil => rfl
    | cons d ds => exact absurd (List.append_eq_nil_iff.mp h.symm).1 (encodeChar_ne_nil d)
  | cons c cs ih =>
    cases ds with
    | nil => exact absurd (List.append_eq_nil_iff.mp h).1 (encodeChar_ne_nil c)
    | cons d ds =>
      obtain ⟨rfl, hrest⟩ := encodeChar_append_inj h
      rw [ih hrest]

-- ---------------------------------------------------------------------------
-- What a decoder finds
-- ---------------------------------------------------------------------------

/-- No character is encoded at the front. -/
def StartsNone (bs : List UInt8) : Prop := ∀ c, ¬ utf8EncodeChar c <+: bs

inductive Piece
  | char (c : Char)
  | bad (b : UInt8)
  deriving DecidableEq, Repr

/-- The characters and the bytes that start none, in order. -/
inductive Splits : List UInt8 → List Piece → Prop
  | nil : Splits [] []
  | char {bs ps} (c : Char) (h : Splits bs ps) : Splits (utf8EncodeChar c ++ bs) (.char c :: ps)
  | bad {b bs ps} (hnone : StartsNone (b :: bs)) (h : Splits bs ps) : Splits (b :: bs) (.bad b :: ps)

theorem exists_splits (bs : List UInt8) : ∃ ps, Splits bs ps := by
  induction hn : bs.length using Nat.strongRecOn generalizing bs with
  | ind n ih =>
    subst hn
    cases bs with
    | nil => exact ⟨[], .nil⟩
    | cons b bs =>
      by_cases hnone : StartsNone (b :: bs)
      · obtain ⟨ps, hps⟩ := ih bs.length (by simp) bs rfl
        exact ⟨_, .bad hnone hps⟩
      · simp only [StartsNone, not_forall, not_not] at hnone
        obtain ⟨c, rest, hc⟩ := hnone
        have hlength := congrArg List.length hc
        rw [List.length_append, String.length_utf8EncodeChar] at hlength
        have hpos := c.utf8Size_pos
        obtain ⟨ps, hps⟩ := ih rest.length (by omega) rest rfl
        rw [← hc]
        exact ⟨_, .char c hps⟩

theorem Splits.unique {bs : List UInt8} {ps qs : List Piece} (h : Splits bs ps) (h' : Splits bs qs) : ps = qs := by
  induction h generalizing qs with
  | nil =>
    generalize hbs : ([] : List UInt8) = bs at h'
    cases h' with
    | nil => rfl
    | char c _ => exact absurd (List.append_eq_nil_iff.mp hbs.symm).1 (encodeChar_ne_nil c)
    | bad _ _ => cases hbs
  | @char bs ps c _ ih =>
    generalize hbs : utf8EncodeChar c ++ bs = all at h'
    cases h' with
    | nil => exact absurd (List.append_eq_nil_iff.mp hbs).1 (encodeChar_ne_nil c)
    | char d h' =>
      obtain ⟨rfl, rfl⟩ := encodeChar_append_inj hbs
      rw [ih h']
    | bad hnone _ => exact absurd ⟨_, hbs⟩ (hnone c)
  | @bad b bs ps hnone _ ih =>
    generalize hbs : b :: bs = all at h'
    cases h' with
    | nil => cases hbs
    | char d _ => exact absurd ⟨_, hbs.symm⟩ (hnone d)
    | bad _ h' =>
      obtain ⟨rfl, rfl⟩ := List.cons.inj hbs
      rw [ih h']

theorem splits_encode (cs : List Char) : Splits (encode cs) (cs.map .char) := by
  induction cs with
  | nil => exact .nil
  | cons c cs ih => exact .char c ih

-- ---------------------------------------------------------------------------
-- Texts around ASCII characters
-- ---------------------------------------------------------------------------

/-- A character is one byte below 0x80, or all of its bytes are from there on. -/
theorem encodeChar_bytes (c : Char) :
    (c.toNat < 0x80 ∧ utf8EncodeChar c = [UInt8.ofNat c.toNat]) ∨
      0x80 ≤ c.toNat ∧ ∀ b ∈ utf8EncodeChar c, 0x80 ≤ b.toNat := by
  have hseq := sequence_encodeChar c
  generalize hn : c.toNat = n at hseq
  generalize hbs : utf8EncodeChar c = bs at hseq
  cases hseq with
  | one h => exact .inl ⟨h, by rw [UInt8.ofNat_toNat]⟩
  | two low high hb =>
    unfold Tail at hb
    exact .inr ⟨by omega, by simp; omega⟩
  | three low high hb hc overlong surrogate =>
    unfold Tail at hb hc
    exact .inr ⟨by omega, by simp; omega⟩
  | four low high hb hc hd overlong limit =>
    unfold Tail at hb hc hd
    exact .inr ⟨by omega, by simp; omega⟩

theorem Valid.append {bs ds : List UInt8} (h : Valid bs) (h' : Valid ds) : Valid (bs ++ ds) := by
  obtain ⟨cs, rfl⟩ := h
  obtain ⟨es, rfl⟩ := h'
  exact ⟨cs ++ es, encode_append cs es⟩

theorem valid_nil : Valid [] := ⟨[], rfl⟩

theorem valid_singleton {q : UInt8} (hq : q.toNat < 0x80) : Valid [q] := by
  obtain ⟨c, -, hc⟩ := (Sequence.one hq).encodeChar
  exact ⟨[c], by rw [encode_cons, encode_nil, List.append_nil, hc]⟩

theorem valid_encodeChar (c : Char) : Valid (utf8EncodeChar c) := ⟨[c], by simp⟩

theorem valid_append_cons {bs ds : List UInt8} {q : UInt8} (hq : q.toNat < 0x80) :
    Valid (bs ++ q :: ds) ↔ Valid bs ∧ Valid ds := by
  constructor
  · rintro ⟨cs, hcs⟩
    induction cs generalizing bs with
    | nil => exact absurd hcs.symm (by simp)
    | cons c cs ih =>
      rw [encode_cons] at hcs
      rcases List.append_eq_append_iff.mp hcs with ⟨gap, rfl, hrest⟩ | ⟨gap, hfirst, hrest⟩
      · obtain ⟨hgap, hds⟩ := ih hrest
        exact ⟨(valid_encodeChar c).append hgap, hds⟩
      · cases gap with
        | nil =>
          rw [List.append_nil] at hfirst
          obtain ⟨-, hds⟩ := @ih [] hrest.symm
          exact ⟨hfirst ▸ valid_encodeChar c, hds⟩
        | cons q' gap =>
          obtain ⟨rfl, rfl⟩ := List.cons.inj hrest
          rcases encodeChar_bytes c with ⟨-, hone⟩ | ⟨-, hhigh⟩
          · rw [hone] at hfirst
            obtain ⟨rfl, hgap⟩ : bs = [] ∧ gap = [] := by
              have hlength := congrArg List.length hfirst
              simp only [List.length_append, List.length_cons, List.length_nil] at hlength
              exact ⟨List.eq_nil_of_length_eq_zero (by omega), List.eq_nil_of_length_eq_zero (by omega)⟩
            subst hgap
            exact ⟨valid_nil, cs, rfl⟩
          · have hmem : q ∈ utf8EncodeChar c := by
              rw [hfirst]
              simp
            exact absurd (hhigh q hmem) (by omega)
  · rintro ⟨hbs, hds⟩
    exact hbs.append ((valid_singleton hq).append hds)

theorem valid_cons {ds : List UInt8} {q : UInt8} (hq : q.toNat < 0x80) : Valid (q :: ds) ↔ Valid ds := by
  rw [← List.nil_append (q :: ds), valid_append_cons hq]
  exact and_iff_right valid_nil

theorem valid_ascii_append {bs ds : List UInt8} (h : ∀ b ∈ bs, b.toNat < 0x80) : Valid (bs ++ ds) ↔ Valid ds := by
  induction bs with
  | nil => rfl
  | cons b bs ih =>
    obtain ⟨hb, hbs⟩ := List.forall_mem_cons.mp h
    rw [List.cons_append, valid_cons hb, ih hbs]

theorem valid_append_ascii {bs ds : List UInt8} (h : ∀ d ∈ ds, d.toNat < 0x80) : Valid (bs ++ ds) ↔ Valid bs := by
  induction ds generalizing bs with
  | nil => rw [List.append_nil]
  | cons d ds ih =>
    obtain ⟨hd, hds⟩ := List.forall_mem_cons.mp h
    have hvalid := (@ih [] hds).mpr valid_nil
    rw [List.nil_append] at hvalid
    rw [valid_append_cons hd]
    exact and_iff_left hvalid

/-- A replacement of ASCII characters by ASCII texts. -/
structure ReplacesAscii (replace : UInt8 → List UInt8) : Prop where
  high : ∀ b, 0x80 ≤ b.toNat → replace b = [b]
  low : ∀ b, b.toNat < 0x80 → replace b ≠ [] ∧ ∀ d ∈ replace b, d.toNat < 0x80

variable {replace : UInt8 → List UInt8}

theorem ReplacesAscii.flatMap_high (h : ReplacesAscii replace) {bs : List UInt8} (hbs : ∀ b ∈ bs, 0x80 ≤ b.toNat) :
    bs.flatMap replace = bs := by
  induction bs with
  | nil => rfl
  | cons b bs ih =>
    obtain ⟨hb, hbs⟩ := List.forall_mem_cons.mp hbs
    rw [List.flatMap_cons, h.high b hb, ih hbs, List.singleton_append]

/-- Bytes beyond ASCII at the front are those that were there. -/
theorem ReplacesAscii.front (h : ReplacesAscii replace) {bs front rest : List UInt8}
    (hfront : ∀ b ∈ front, 0x80 ≤ b.toNat) (heq : bs.flatMap replace = front ++ rest) :
    ∃ bs', bs = front ++ bs' ∧ bs'.flatMap replace = rest := by
  induction front generalizing bs with
  | nil => exact ⟨bs, rfl, heq⟩
  | cons b front ih =>
    obtain ⟨hb, hfront'⟩ := List.forall_mem_cons.mp hfront
    cases bs with
    | nil => cases heq
    | cons a bs =>
      rw [List.flatMap_cons] at heq
      by_cases ha : 0x80 ≤ a.toNat
      · rw [h.high a ha] at heq
        obtain ⟨rfl, hrest⟩ := List.cons.inj heq
        obtain ⟨bs', rfl, hbs'⟩ := ih hfront' hrest
        exact ⟨bs', rfl, hbs'⟩
      · obtain ⟨hne, hlow⟩ := h.low a (by omega)
        obtain ⟨d, ds, hds⟩ := List.exists_cons_of_ne_nil hne
        rw [hds] at heq hlow
        obtain ⟨rfl, -⟩ := List.cons.inj heq
        exact absurd (hlow d (List.mem_cons_self ..)) (by omega)

/-- The bytes are a text exactly if they are one after the replacement. -/
theorem ReplacesAscii.valid_iff (h : ReplacesAscii replace) (bs : List UInt8) :
    Valid (bs.flatMap replace) ↔ Valid bs := by
  constructor
  · intro hvalid
    induction hn : bs.length using Nat.strongRecOn generalizing bs with
    | ind n ih =>
      subst hn
      cases bs with
      | nil => exact valid_nil
      | cons b bs =>
        by_cases hb : b.toNat < 0x80
        · rw [List.flatMap_cons, valid_ascii_append (h.low b hb).2] at hvalid
          exact (valid_cons hb).mpr (ih bs.length (by simp) bs hvalid rfl)
        · obtain ⟨cs, hcs⟩ := hvalid
          have hfirst : (b :: bs).flatMap replace = b :: bs.flatMap replace := by
            rw [List.flatMap_cons, h.high b (by omega), List.singleton_append]
          cases cs with
          | nil =>
            rw [hfirst] at hcs
            cases hcs
          | cons c cs =>
            rw [encode_cons] at hcs
            rcases encodeChar_bytes c with ⟨hlow, hone⟩ | ⟨-, hhigh⟩
            · rw [hfirst, hone] at hcs
              obtain ⟨rfl, -⟩ := List.cons.inj hcs
              rw [toNat_ofNat_of_lt (by omega)] at hb
              exact absurd hlow hb
            · obtain ⟨bs', hbs', hrest⟩ := h.front hhigh hcs.symm
              have hlength := congrArg List.length hbs'
              have hpos := c.utf8Size_pos
              rw [List.length_append, String.length_utf8EncodeChar] at hlength
              rw [hbs']
              exact (valid_encodeChar c).append (ih bs'.length (by omega) bs' ⟨cs, hrest.symm⟩ rfl)
  · rintro ⟨cs, rfl⟩
    induction cs with
    | nil => exact valid_nil
    | cons c cs ih =>
      rw [encode_cons, List.flatMap_append]
      refine Valid.append ?_ ih
      rcases encodeChar_bytes c with ⟨hlow, hone⟩ | ⟨-, hhigh⟩
      · rw [hone, List.flatMap_singleton]
        have hall := (h.low (UInt8.ofNat c.toNat) (by rw [toNat_ofNat_of_lt (by omega)]; exact hlow)).2
        have hvalid := (@valid_ascii_append _ [] hall).mpr valid_nil
        rwa [List.append_nil] at hvalid
      · rw [h.flatMap_high hhigh]
        exact valid_encodeChar c

end Utf8
