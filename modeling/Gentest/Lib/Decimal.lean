import Mathlib.Algebra.Order.Field.Power
import Mathlib.Algebra.Order.Floor.Semiring
import Mathlib.Data.List.TakeWhile
import Mathlib.Data.Rat.Floor
import Mathlib.Tactic.Linarith
import Mathlib.Tactic.Positivity

/-!
# Decimal numerals and binary64

The numerals that `strtod` reads, without its words for infinity and NaN: a
sign, digits with a point somewhere, and an exponent. Their values are exact.
`Binary64.round` takes a value to the nearest `double`, ties to even. The two
zeros are one value here.
-/

namespace Decimal

def digitsValue (digits : List Char) : Nat := Nat.ofDigitChars 10 digits 0

def signed {α : Type} (neg : α → α) (read : List Char → Option α) : List Char → Option α
  | '-' :: text => (read text).map neg
  | '+' :: text => read text
  | text => read text

def natural (text : List Char) : Option Int :=
  if !text.isEmpty && text.all Char.isDigit then some (digitsValue text) else none

def exponent : List Char → Option Int
  | [] => some 0
  | c :: text => if c = 'e' ∨ c = 'E' then signed (- ·) natural text else none

/-- The digits after the point, if there is one, and what follows them. -/
def fraction : List Char → List Char × List Char
  | '.' :: text => text.span Char.isDigit
  | text => ([], text)

def unsigned (text : List Char) : Option ℚ :=
  let int := text.takeWhile Char.isDigit
  let (frac, rest) := fraction (text.dropWhile Char.isDigit)
  if int.isEmpty && frac.isEmpty then none
  else (exponent rest).map fun e =>
    (digitsValue (int ++ frac) : ℚ) * 10 ^ (e - (frac.length : ℤ))

def value : List Char → Option ℚ := signed (- ·) unsigned

theorem unsigned_digits {digits : List Char} (hne : digits ≠ [])
    (h : ∀ c ∈ digits, c.isDigit = true) : unsigned digits = some (digitsValue digits : ℚ) := by
  have htake : digits.takeWhile Char.isDigit = digits := List.takeWhile_eq_self_iff.mpr h
  have hdrop : digits.dropWhile Char.isDigit = [] := List.dropWhile_eq_nil_iff.mpr h
  simp [unsigned, htake, hdrop, fraction, exponent, hne]

theorem signed_digits {α : Type} {neg : α → α} {read : List Char → Option α} {digits : List Char}
    (h : ∀ c ∈ digits, c.isDigit = true) : signed neg read digits = read digits := by
  unfold signed
  split
  · exact absurd (h '-' List.mem_cons_self) (by decide)
  · exact absurd (h '+' List.mem_cons_self) (by decide)
  · rfl

theorem toDigits_append_inj {m n : Nat} {c : Char} {xs ys : List Char} (hc : c.isDigit = false)
    (h : Nat.toDigits 10 m ++ c :: xs = Nat.toDigits 10 n ++ c :: ys) : m = n ∧ xs = ys := by
  have htake : ∀ k zs, (Nat.toDigits 10 k ++ c :: zs).takeWhile Char.isDigit = Nat.toDigits 10 k := by
    intro k zs
    rw [List.takeWhile_append_of_pos fun d hd => Nat.isDigit_of_mem_toDigits (by decide) (by decide) hd]
    simp [hc]
  have hdigits := congrArg (List.takeWhile Char.isDigit) h
  rw [htake, htake] at hdigits
  rw [hdigits] at h
  refine ⟨?_, (List.cons.inj (List.append_cancel_left h)).2⟩
  rw [← Nat.ofDigitChars_ten_toDigits (n := m), hdigits, Nat.ofDigitChars_ten_toDigits]

theorem digitChar_of_isDigit {c : Char} (h : c.isDigit = true) :
    Nat.digitChar (c.toNat - '0'.toNat) = c := by
  have hc : 48 ≤ c.toNat ∧ c.toNat ≤ 57 := Char.isDigit_iff_toNat.mp h
  apply Char.toNat_inj.mp
  rw [Nat.toNat_digitChar_of_lt_ten (by change c.toNat - 48 < 10; omega)]
  change 48 + (c.toNat - 48) = c.toNat
  omega

theorem sub_zero_lt_ten {c : Char} (h : c.isDigit = true) : c.toNat - '0'.toNat < 10 := by
  have hc : 48 ≤ c.toNat ∧ c.toNat ≤ 57 := Char.isDigit_iff_toNat.mp h
  change c.toNat - 48 < 10
  omega

theorem toDigits_ofDigitChars {v : Nat} {digits : List Char} (hv : 0 < v)
    (h : ∀ c ∈ digits, c.isDigit = true) :
    Nat.toDigits 10 (Nat.ofDigitChars 10 digits v) = Nat.toDigits 10 v ++ digits := by
  induction digits generalizing v with
  | nil => simp
  | cons c rest ih =>
    have hc := h c List.mem_cons_self
    have hrest : ∀ d ∈ rest, d.isDigit = true := fun d hd => h d (List.mem_cons_of_mem _ hd)
    have hlast : Nat.toDigits 10 (10 * v + (c.toNat - '0'.toNat)) = Nat.toDigits 10 v ++ [c] := by
      rw [← Nat.toDigits_append_toDigits (by decide) hv (sub_zero_lt_ten hc),
        Nat.toDigits_of_lt_base (sub_zero_lt_ten hc), digitChar_of_isDigit hc]
    rw [Nat.ofDigitChars_cons, ih (by omega) hrest, hlast, List.append_assoc, List.singleton_append]

theorem toDigits_digitsValue {digits : List Char} (h : ∀ c ∈ digits, c.isDigit = true)
    (hne : digits ≠ []) (hzero : ∀ rest, digits = '0' :: rest → rest = []) :
    Nat.toDigits 10 (digitsValue digits) = digits := by
  cases digits with
  | nil => exact absurd rfl hne
  | cons c rest =>
    by_cases hc : c = '0'
    · subst hc
      obtain rfl := hzero rest rfl
      rfl
    · have hdigit := h c List.mem_cons_self
      have hpos : 0 < c.toNat - '0'.toNat := by
        have hrange : 48 ≤ c.toNat ∧ c.toNat ≤ 57 := Char.isDigit_iff_toNat.mp hdigit
        have hother : c.toNat ≠ 48 := fun heq => hc (Char.toNat_inj.mp heq)
        change 0 < c.toNat - 48
        omega
      rw [digitsValue, Nat.ofDigitChars_cons, Nat.mul_zero, Nat.zero_add,
        toDigits_ofDigitChars hpos fun d hd => h d (List.mem_cons_of_mem _ hd),
        Nat.toDigits_of_lt_base (sub_zero_lt_ten hdigit), digitChar_of_isDigit hdigit,
        List.singleton_append]

theorem head?_toDigits (n : Nat) :
    Nat.toDigits 10 n = ['0'] ∨ (Nat.toDigits 10 n).head? ≠ some '0' := by
  induction n using Nat.strongRecOn with
  | ind n ih =>
    rw [Nat.toDigits_eq_if (by decide)]
    split
    · have hall : ∀ n ∈ List.range 10, [n.digitChar] = ['0'] ∨ [n.digitChar].head? ≠ some '0' := by
        decide
      exact hall n (List.mem_range.mpr ‹_›)
    · rename_i hn
      right
      obtain ⟨c, digits, hcons⟩ := List.exists_cons_of_ne_nil
        (Nat.toDigits_ne_nil : Nat.toDigits 10 (n / 10) ≠ [])
      have hhead : (Nat.toDigits 10 (n / 10)).head? ≠ some '0' := by
        rcases ih (n / 10) (by omega) with hzero | hhead
        · exfalso
          have hvalue := congrArg (fun l => Nat.ofDigitChars 10 l 0) hzero
          rw [Nat.ofDigitChars_ten_toDigits] at hvalue
          have hdigit : Nat.ofDigitChars 10 ['0'] 0 = 0 := by decide
          omega
        · exact hhead
      rw [hcons] at hhead ⊢
      exact hhead

end Decimal

namespace Binary64

/-- The nearest whole number, the even one of two. -/
def nearestEven (x : ℚ) : Nat :=
  let n := ⌊x⌋₊
  if x - n < 1 / 2 ∨ (x - n = 1 / 2 ∧ n % 2 = 0) then n else n + 1

/-- The exponent of the last place of the `double` values around `x`. -/
def lastPlace (x : ℚ) : ℤ :=
  let scale : ℤ := (x.num.natAbs.log2 : ℤ) - (x.den.log2 : ℤ)
  let log := if |x| < 2 ^ scale then scale - 1 else scale
  max (log - 52) (-1074)

/-- The nearest `double`, or `none` when it is not finite. -/
def round (x : ℚ) : Option ℚ :=
  let e := lastPlace x
  let y : ℚ := nearestEven (|x| / 2 ^ e) * 2 ^ e
  if y < 2 ^ (1024 : ℤ) then some (if x < 0 then -y else y) else none

theorem nearestEven_le {x : ℚ} (h : 0 ≤ x) : (nearestEven x : ℚ) ≤ x + 1 := by
  have hfloor := Nat.floor_le h
  unfold nearestEven
  dsimp only
  split
  · linarith
  · push_cast
    linarith

theorem lastPlace_natCast_le {n k : Nat} (h : n < 2 ^ k) : lastPlace (n : ℚ) ≤ k := by
  have hlog : n.log2 ≤ k := by
    by_cases hn : n = 0
    · simp [hn]
    · exact ((Nat.log2_lt hn).mpr h).le
  have hone : Nat.log2 1 = 0 := by decide
  simp only [lastPlace, Rat.num_natCast, Int.natAbs_natCast, Rat.den_natCast, hone]
  split <;> omega

theorem round_natCast_isSome {n k : Nat} (h : n < 2 ^ k) (hk : k < 1024) :
    (round (n : ℚ)).isSome := by
  have hplace := lastPlace_natCast_le h
  have hpos : (0 : ℚ) < 2 ^ lastPlace (n : ℚ) := by positivity
  have hnonneg : (0 : ℚ) ≤ |(n : ℚ)| / 2 ^ lastPlace (n : ℚ) := by positivity
  have hpow : (2 : ℚ) ^ lastPlace (n : ℚ) ≤ 2 ^ (k : ℤ) :=
    zpow_le_zpow_right₀ (by norm_num) hplace
  have hn : (n : ℚ) < 2 ^ (k : ℤ) := by exact_mod_cast h
  have hsum : (2 : ℚ) ^ (k : ℤ) + 2 ^ (k : ℤ) ≤ 2 ^ (1024 : ℤ) := by
    calc (2 : ℚ) ^ (k : ℤ) + 2 ^ (k : ℤ) = 2 ^ ((k : ℤ) + 1) := by
          rw [zpow_add_one₀ (by norm_num)]
          ring
      _ ≤ 2 ^ (1024 : ℤ) := zpow_le_zpow_right₀ (by norm_num) (by omega)
  have hlt : (nearestEven (|(n : ℚ)| / 2 ^ lastPlace (n : ℚ)) : ℚ) * 2 ^ lastPlace (n : ℚ) <
      2 ^ (1024 : ℤ) := by
    calc (nearestEven (|(n : ℚ)| / 2 ^ lastPlace (n : ℚ)) : ℚ) * 2 ^ lastPlace (n : ℚ)
        ≤ (|(n : ℚ)| / 2 ^ lastPlace (n : ℚ) + 1) * 2 ^ lastPlace (n : ℚ) :=
          mul_le_mul_of_nonneg_right (nearestEven_le hnonneg) hpos.le
      _ = n + 2 ^ lastPlace (n : ℚ) := by
          rw [add_mul, one_mul, div_mul_cancel₀ _ hpos.ne', abs_of_nonneg (Nat.cast_nonneg n)]
      _ < 2 ^ (1024 : ℤ) := (add_lt_add_of_lt_of_le hn hpow).trans_le hsum
  simp only [round, if_pos hlt, Option.isSome_some]

theorem round_neg_isSome (x : ℚ) : (round (-x)).isSome = (round x).isSome := by
  have hplace : lastPlace (-x) = lastPlace x := by
    simp [lastPlace]
  simp only [round, hplace, abs_neg]
  split <;> rfl

end Binary64
