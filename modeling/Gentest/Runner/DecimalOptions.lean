import Gentest.Lib.Decimal
import Gentest.Lib.Fallible

/-!
# Decimal option values

Two parsers of unsigned 64-bit numbers: the runner's for option values
(`runner_cli.cpp`) and the generator's for the items of a benchmark
(`validate.cpp`). Both accumulate digits behind a guard against overflow.
-/

namespace Gentest.Options

inductive ParseU64DecimalStatus where
  | ok
  | empty
  | nonDecimal
  | overflow
  deriving DecidableEq, Repr

structure ParseU64DecimalResult where
  value : UInt64 := 0
  status : ParseU64DecimalStatus := .ok
  deriving DecidableEq, Repr

/-- `static_cast<std::uint64_t>(-1)`, and the maximum of the type. -/
def maxValue : UInt64 := 0 - 1

def digitOf (ch : Char) : UInt64 := UInt64.ofNat (ch.toNat - '0'.toNat)

def appendDigit (v : UInt64) (ch : Char) : Except ParseU64DecimalStatus UInt64 :=
  if ch < '0' ∨ '9' < ch then .error .nonDecimal
  else if (maxValue - digitOf ch) / 10 < v then .error .overflow
  else .ok (v * 10 + digitOf ch)

def accumulate (v : UInt64) (s : List Char) : Except ParseU64DecimalStatus UInt64 :=
  s.foldlM appendDigit v

def parseU64DecimalStrict (s : List Char) : ParseU64DecimalResult :=
  if s.isEmpty then { value := 0, status := .empty }
  else match accumulate 0 s with
    | .ok v => { value := v, status := .ok }
    | .error status => { value := 0, status := status }

def parsePositiveU64 (text : List Char) : Option UInt64 :=
  if text.isEmpty then none
  else if 1 < text.length ∧ text.head? = some '0' then none
  else match accumulate 0 text with
    | .error _ => none
    | .ok value => if value = 0 then none else some value

/-- What the runner makes of the value of a numeric option, or its complaint. -/
def parseU64Option (optName value : String) : Except String UInt64 :=
  match parseU64DecimalStrict value.toList with
  | ⟨v, .ok⟩ => .ok v
  | ⟨_, .empty⟩ => .error s!"error: {optName} requires a value\n"
  | ⟨_, .overflow⟩ => .error s!"error: {optName} value is out of range for uint64: '{value}'\n"
  | ⟨_, .nonDecimal⟩ =>
    .error s!"error: {optName} must be a non-negative decimal integer, got: '{value}'\n"

-- ---------------------------------------------------------------------------
-- One digit
-- ---------------------------------------------------------------------------

theorem isDigit_iff {ch : Char} : ch.isDigit = true ↔ ¬ (ch < '0' ∨ '9' < ch) := by
  rw [Char.isDigit_iff_toNat, not_or, Char.lt_def, Char.lt_def, UInt32.lt_iff_toNat_lt,
    UInt32.lt_iff_toNat_lt]
  change _ ↔ ¬ ch.toNat < '0'.toNat ∧ ¬ '9'.toNat < ch.toNat
  omega

theorem digitOf_toNat {ch : Char} (h : ch.isDigit = true) :
    (digitOf ch).toNat = ch.toNat - '0'.toNat := by
  have hten := Decimal.sub_zero_lt_ten h
  exact UInt64.toNat_ofNat_of_lt' (Nat.lt_trans hten (by decide))

/-- The truncated quotient decides whether the next number still fits. -/
theorem guard_iff {v d : UInt64} (hd : d.toNat < 10) :
    (maxValue - d) / 10 < v ↔ 2 ^ 64 ≤ v.toNat * 10 + d.toNat := by
  have hmax : maxValue.toNat = 2 ^ 64 - 1 := by decide
  have hle : d ≤ maxValue := UInt64.le_iff_toNat_le.mpr (by omega)
  rw [UInt64.lt_iff_toNat_lt, UInt64.toNat_div, UInt64.toNat_sub_of_le _ _ hle, hmax]
  change (2 ^ 64 - 1 - d.toNat) / 10 < v.toNat ↔ _
  omega

theorem appendDigit_ok_iff {v w : UInt64} {ch : Char} :
    appendDigit v ch = .ok w ↔ ch.isDigit = true ∧ w.toNat = 10 * v.toNat + (ch.toNat - '0'.toNat) := by
  unfold appendDigit
  by_cases hdigit : ch.isDigit = true
  · have hten := Decimal.sub_zero_lt_ten hdigit
    have hvalue := digitOf_toNat hdigit
    rw [if_neg (isDigit_iff.mp hdigit)]
    simp only [guard_iff (hvalue ▸ hten), hdigit, true_and, hvalue]
    by_cases hover : 2 ^ 64 ≤ v.toNat * 10 + (ch.toNat - '0'.toNat)
    · have hw := w.toNat_lt
      rw [if_pos hover]
      exact ⟨nofun, fun heq => by omega⟩
    · have hsum : (v * 10 + digitOf ch).toNat = v.toNat * 10 + (ch.toNat - '0'.toNat) := by
        rw [UInt64.toNat_add, UInt64.toNat_mul, hvalue]
        change (v.toNat * 10 % 2 ^ 64 + _) % 2 ^ 64 = _
        omega
      rw [if_neg hover, Except.ok.injEq, ← UInt64.toNat_inj, hsum]
      omega
  · rw [if_pos (by rwa [isDigit_iff, not_not] at hdigit)]
    exact ⟨nofun, fun ⟨h, _⟩ => absurd h hdigit⟩

theorem appendDigit_overflow_iff {v : UInt64} {ch : Char} :
    appendDigit v ch = .error .overflow ↔
      ch.isDigit = true ∧ 2 ^ 64 ≤ 10 * v.toNat + (ch.toNat - '0'.toNat) := by
  unfold appendDigit
  by_cases hdigit : ch.isDigit = true
  · have hten := Decimal.sub_zero_lt_ten hdigit
    have hvalue := digitOf_toNat hdigit
    rw [if_neg (isDigit_iff.mp hdigit)]
    simp only [guard_iff (hvalue ▸ hten), hdigit, true_and, hvalue, Nat.mul_comm v.toNat]
    split <;> simp_all
  · rw [if_pos (by rwa [isDigit_iff, not_not] at hdigit)]
    simp [hdigit]

-- ---------------------------------------------------------------------------
-- The whole text
-- ---------------------------------------------------------------------------

theorem accumulate_cons (v : UInt64) (ch : Char) (rest : List Char) :
    accumulate v (ch :: rest) = appendDigit v ch >>= fun w => accumulate w rest := rfl

theorem le_ofDigitChars (digits : List Char) (v : Nat) : v ≤ Nat.ofDigitChars 10 digits v := by
  rw [Nat.ofDigitChars_eq_ofDigitChars_zero]
  exact Nat.le_trans (Nat.le_mul_of_pos_left v (by positivity)) (Nat.le_add_right _ _)

theorem exists_appendDigit {v : UInt64} {ch : Char} (hdigit : ch.isDigit = true)
    (hfits : 10 * v.toNat + (ch.toNat - '0'.toNat) < 2 ^ 64) :
    ∃ w, appendDigit v ch = .ok w ∧ w.toNat = 10 * v.toNat + (ch.toNat - '0'.toNat) := by
  have hvalue := UInt64.toNat_ofNat_of_lt' hfits
  exact ⟨_, appendDigit_ok_iff.mpr ⟨hdigit, hvalue⟩, hvalue⟩

theorem accumulate_ok_iff {s : List Char} {v w : UInt64} :
    accumulate v s = .ok w ↔
      (∀ c ∈ s, c.isDigit = true) ∧ w.toNat = Nat.ofDigitChars 10 s v.toNat := by
  induction s generalizing v with
  | nil =>
    change Except.ok v = Except.ok w ↔ _
    rw [Except.ok.injEq, Nat.ofDigitChars_nil, ← UInt64.toNat_inj]
    exact ⟨fun heq => ⟨fun _ hc => (nomatch hc), heq.symm⟩, fun ⟨_, heq⟩ => heq.symm⟩
  | cons ch rest ih =>
    rw [accumulate_cons, Nat.ofDigitChars_cons, List.forall_mem_cons]
    constructor
    · intro h
      obtain ⟨next, hnext, hrest⟩ := Fallible.bind_ok.mp h
      obtain ⟨hdigit, hvalue⟩ := appendDigit_ok_iff.mp hnext
      obtain ⟨hdigits, hw⟩ := ih.mp hrest
      exact ⟨⟨hdigit, hdigits⟩, hvalue ▸ hw⟩
    · rintro ⟨⟨hdigit, hdigits⟩, hw⟩
      have hle := le_ofDigitChars rest (10 * v.toNat + (ch.toNat - '0'.toNat))
      have hlt : w.toNat < 2 ^ 64 := w.toNat_lt
      have hfits : 10 * v.toNat + (ch.toNat - '0'.toNat) < 2 ^ 64 := by omega
      obtain ⟨next, hnext, hvalue⟩ := exists_appendDigit hdigit hfits
      rw [hnext]
      exact ih.mpr ⟨hdigits, hvalue ▸ hw⟩

theorem accumulate_overflow {s : List Char} {v : UInt64} (h : ∀ c ∈ s, c.isDigit = true)
    (hlarge : 2 ^ 64 ≤ Nat.ofDigitChars 10 s v.toNat) : accumulate v s = .error .overflow := by
  induction s generalizing v with
  | nil => exact absurd v.toNat_lt (by simpa using hlarge)
  | cons ch rest ih =>
    have hdigit := h ch List.mem_cons_self
    rw [accumulate_cons]
    by_cases hfits : 10 * v.toNat + (ch.toNat - '0'.toNat) < 2 ^ 64
    · obtain ⟨next, hnext, hvalue⟩ := exists_appendDigit hdigit hfits
      rw [hnext]
      refine ih (fun c hc => h c (List.mem_cons_of_mem _ hc)) ?_
      rwa [hvalue, ← Nat.ofDigitChars_cons]
    · rw [appendDigit_overflow_iff.mpr ⟨hdigit, Nat.le_of_not_lt hfits⟩]
      rfl

theorem accumulate_ne_ok (s : List Char) (v : UInt64) : accumulate v s ≠ .error .ok := by
  induction s generalizing v with
  | nil => exact nofun
  | cons ch rest ih =>
    rw [accumulate_cons]
    cases hstep : appendDigit v ch with
    | ok w => exact ih w
    | error status =>
      intro h
      unfold appendDigit at hstep
      split at hstep
      · cases hstep
        cases h
      · split at hstep <;> cases hstep
        cases h

-- ---------------------------------------------------------------------------
-- The two parsers
-- ---------------------------------------------------------------------------

theorem parseU64DecimalStrict_ok_iff (s : List Char) (n : UInt64) :
    parseU64DecimalStrict s = { value := n, status := .ok } ↔
      s ≠ [] ∧ (∀ c ∈ s, c.isDigit = true) ∧ Decimal.digitsValue s = n.toNat := by
  unfold parseU64DecimalStrict
  by_cases hempty : s = []
  · simp [hempty]
  · have hrun : accumulate 0 s = .ok n ↔ _ := accumulate_ok_iff
    rw [if_neg (by simpa using hempty)]
    cases haccumulate : accumulate 0 s with
    | ok v =>
      rw [haccumulate, Except.ok.injEq] at hrun
      simp only [ParseU64DecimalResult.mk.injEq, and_true, hrun]
      exact ⟨fun ⟨hdigits, hvalue⟩ => ⟨hempty, hdigits, hvalue.symm⟩,
        fun ⟨_, hdigits, hvalue⟩ => ⟨hdigits, hvalue.symm⟩⟩
    | error status =>
      constructor
      · intro h
        obtain rfl : status = .ok := congrArg ParseU64DecimalResult.status h
        exact absurd haccumulate (accumulate_ne_ok s 0)
      · rintro ⟨_, hdigits, hvalue⟩
        exact absurd (hrun.mpr ⟨hdigits, hvalue.symm⟩) (by rw [haccumulate]; exact nofun)

theorem parseU64DecimalStrict_overflow {s : List Char} (h : ∀ c ∈ s, c.isDigit = true)
    (hlarge : 2 ^ 64 ≤ Decimal.digitsValue s) :
    parseU64DecimalStrict s = { value := 0, status := .overflow } := by
  have hne : s ≠ [] := by
    rintro rfl
    exact absurd hlarge (by decide)
  have hrun : accumulate 0 s = .error .overflow := accumulate_overflow h hlarge
  rw [parseU64DecimalStrict, if_neg (by simpa using hne), hrun]

theorem parseU64Option_ok_iff (optName value : String) (n : UInt64) :
    parseU64Option optName value = .ok n ↔
      value.toList ≠ [] ∧ (∀ c ∈ value.toList, c.isDigit = true) ∧
        Decimal.digitsValue value.toList = n.toNat := by
  rw [← parseU64DecimalStrict_ok_iff, parseU64Option]
  split <;> simp_all

theorem parsePositiveU64_eq_some {text : List Char} {n : UInt64} :
    parsePositiveU64 text = some n ↔
      text ≠ [] ∧ ¬ (1 < text.length ∧ text.head? = some '0') ∧ accumulate 0 text = .ok n ∧ n ≠ 0 := by
  unfold parsePositiveU64
  by_cases hempty : text = []
  · simp [hempty]
  · rw [if_neg (by simpa using hempty)]
    by_cases hzero : 1 < text.length ∧ text.head? = some '0'
    · rw [if_pos hzero]
      exact ⟨nofun, fun ⟨_, hnot, _⟩ => absurd hzero hnot⟩
    · rw [if_neg hzero]
      cases accumulate 0 text with
      | error _ => exact ⟨nofun, fun ⟨_, _, h, _⟩ => (nomatch h)⟩
      | ok v =>
        by_cases hv : v = 0
        · simp only [if_pos hv, Except.ok.injEq]
          exact ⟨nofun, fun ⟨_, _, heq, hn⟩ => absurd (heq ▸ hv) hn⟩
        · simp only [if_neg hv, Except.ok.injEq, Option.some.injEq]
          exact ⟨fun heq => ⟨hempty, hzero, heq, heq ▸ hv⟩, fun ⟨_, _, heq, _⟩ => heq⟩

/-- The generator accepts the numbers from 1 on in the spelling they are printed in. -/
theorem parsePositiveU64_iff (text : List Char) (n : UInt64) :
    parsePositiveU64 text = some n ↔ text = Nat.toDigits 10 n.toNat ∧ 1 ≤ n.toNat := by
  rw [parsePositiveU64_eq_some, accumulate_ok_iff]
  constructor
  · rintro ⟨hempty, hzero, ⟨hdigits, hvalue⟩, hn⟩
    have hcanonical : Nat.toDigits 10 (Decimal.digitsValue text) = text := by
      refine Decimal.toDigits_digitsValue hdigits hempty ?_
      rintro rest rfl
      by_contra hrest
      exact hzero ⟨by simpa [List.length_pos_iff] using hrest, rfl⟩
    refine ⟨?_, Nat.pos_of_ne_zero fun heq => hn (UInt64.toNat_inj.mp heq)⟩
    rw [hvalue]
    exact hcanonical.symm
  · rintro ⟨rfl, hpos⟩
    refine ⟨Nat.toDigits_ne_nil, ?_, ⟨?_, Nat.ofDigitChars_ten_toDigits.symm⟩, ?_⟩
    · rintro ⟨hlong, hfirst⟩
      rcases Decimal.head?_toDigits n.toNat with hone | hother
      · simp [hone] at hlong
      · exact hother hfirst
    · exact fun c hc => Nat.isDigit_of_mem_toDigits (by decide) (by decide) hc
    · rintro rfl
      exact absurd hpos (by decide)

/-- Both parsers are exact: a text is read as the number it denotes and nothing else is
read, larger numbers overflow, and no turn of the loop leaves the 64 bits. -/
theorem decimalOptions_exact (s : List Char) :
    (∀ n, parseU64DecimalStrict s = { value := n, status := .ok } ↔
      s ≠ [] ∧ (∀ c ∈ s, c.isDigit = true) ∧ Decimal.digitsValue s = n.toNat) ∧
    ((∀ c ∈ s, c.isDigit = true) → 2 ^ 64 ≤ Decimal.digitsValue s →
      (parseU64DecimalStrict s).status = .overflow) ∧
    (∀ front ch rest v w, s = front ++ ch :: rest → accumulate 0 front = .ok v →
      appendDigit v ch = .ok w →
        v.toNat = Decimal.digitsValue front ∧ v.toNat * 10 + (digitOf ch).toNat < 2 ^ 64 ∧
        w.toNat = v.toNat * 10 + (digitOf ch).toNat) ∧
    ∀ n, parsePositiveU64 s = some n ↔ s = Nat.toDigits 10 n.toNat ∧ 1 ≤ n.toNat := by
  refine ⟨parseU64DecimalStrict_ok_iff s, ?_, ?_, parsePositiveU64_iff s⟩
  · intro hdigits hlarge
    rw [parseU64DecimalStrict_overflow hdigits hlarge]
  · intro front ch rest v w _ hfront hstep
    obtain ⟨hdigit, hw⟩ := appendDigit_ok_iff.mp hstep
    have hvalue := digitOf_toNat hdigit
    have hten := Decimal.sub_zero_lt_ten hdigit
    have hlt : w.toNat < 2 ^ 64 := w.toNat_lt
    refine ⟨(accumulate_ok_iff.mp hfront).2, ?_, ?_⟩
    · omega
    · omega

example : parsePositiveU64 "18446744073709551615".toList = some (0 - 1) ∧
    (parseU64DecimalStrict "18446744073709551616".toList).status = .overflow := by decide

end Gentest.Options
