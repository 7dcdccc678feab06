import Gentest.Codegen.CodegenModel
import Gentest.Lib.CppInteger
import Gentest.Lib.Decimal
import Gentest.Lib.WhileLoops
import Mathlib.Tactic.Ring
import Std.Data.String.ToInt

/-!
# Integer ranges

The bounds of `range(name, start, step, end)` are read by `std::stoll` in base ten
whatever their spelling, and the loop adds the step once more after the last value.
-/

namespace Gentest.Codegen

open CppLiteral WhileLoops

-- ---------------------------------------------------------------------------
-- Reading the bounds
-- ---------------------------------------------------------------------------

def fitsLongLong (v : Int) : Bool := -2 ^ 63 ≤ v && v < 2 ^ 63

def leadingNumber (text : List Char) : Option Int :=
  let digits := text.takeWhile (isDigit 10)
  if digits = [] then none else some (number 10 digits)

/-- `std::stoll`: no value where it throws. -/
def stoll (text : List Char) : Option Int :=
  (Decimal.signed (- ·) leadingNumber (text.dropWhile isSpace)).filter fitsLongLong

/-- Where `std::stoll` throws, the value comes from `std::stod` and `llround`, or is
zero. -/
def toInt (rounded : List Char → Int64) (text : List Char) : Int := (stoll text).getD (rounded text).toInt

theorem toInt_fits (rounded : List Char → Int64) (text : List Char) :
    fitsLongLong (toInt rounded text) = true := by
  unfold toInt
  cases hread : stoll text with
  | none => simpa [fitsLongLong] using ⟨Int64.le_toInt _, Int64.toInt_lt _⟩
  | some v => exact (Option.filter_eq_some_iff.mp hread).2

-- ---------------------------------------------------------------------------
-- The expansion
-- ---------------------------------------------------------------------------

def fmtInt (v : Int) : String := toString v

abbrev Axis := List (String × String)

/-- What becomes of a range: a report, the axis, or a step past the ends of
`long long`. -/
inductive RangeResult where
  | inconsistent
  | overflow
  | axis (values : Axis)
  deriving DecidableEq, Repr

/-- One turn of the loop from `v` on, up or down to `b`. -/
def rangeTurn (name : String) (st b : Int) (s : Int × Axis) : Step (Int × Axis) RangeResult :=
  let (v, axis) := s
  if (if 0 < st then v ≤ b else b ≤ v) then
    let axis := axis ++ [(name, fmtInt v)]
    if fitsLongLong (v + st) then .next (v + st, axis) else .done .overflow
  else .done (.axis axis)

def ExpandsTo (rounded : List Char → Int64) (name : String) (start step stop : List Char) (result : RangeResult) :
    Prop :=
  let a := toInt rounded start
  let st := if toInt rounded step = 0 then 1 else toInt rounded step
  let b := toInt rounded stop
  if (0 < st ∧ b < a) ∨ (st < 0 ∧ a < b) then result = .inconsistent
  else WhileLoops.Ends (rangeTurn name st b) (a, []) result

-- ---------------------------------------------------------------------------
-- The values of a range
-- ---------------------------------------------------------------------------

/-- The step leads from the first bound towards the second. -/
def Consistent (a s b : Int) : Prop := (0 < s ∧ a ≤ b) ∨ (s < 0 ∧ b ≤ a)

instance (a s b : Int) : Decidable (Consistent a s b) := inferInstanceAs (Decidable (_ ∨ _))

def lastIndex (a s b : Int) : Nat := (b - a).natAbs / s.natAbs

/-- From `a` in steps of `s`, up to the last value that is not beyond `b`. -/
def rangeValues (a s b : Int) : List Int := (List.range (lastIndex a s b + 1)).map fun k : Nat => a + (k : Int) * s

def rangeAxis (name : String) (values : List Int) : Axis := values.map fun v => (name, fmtInt v)

-- ---------------------------------------------------------------------------
-- The loop
-- ---------------------------------------------------------------------------

theorem fits_iff {v : Int} : fitsLongLong v = true ↔ -2 ^ 63 ≤ v ∧ v < 2 ^ 63 := by
  simp [fitsLongLong]

theorem Consistent.within {a s b : Int} (h : Consistent a s b) : if 0 < s then a ≤ b else b ≤ a := by
  unfold Consistent at h
  split <;> omega

theorem beyond_of_lastIndex {a s b : Int} (h : Consistent a s b) (hlast : lastIndex a s b = 0) :
    ¬if 0 < s then a + s ≤ b else b ≤ a + s := by
  have hs : 0 < s.natAbs := by
    unfold Consistent at h
    omega
  have hlt : (b - a).natAbs < s.natAbs := (Nat.div_eq_zero_iff_lt hs).mp hlast
  unfold Consistent at h
  split <;> omega

theorem Consistent.step {a s b : Int} {n : Nat} (h : Consistent a s b) (hlast : lastIndex a s b = n + 1) :
    Consistent (a + s) s b ∧ lastIndex (a + s) s b = n := by
  have hs : 0 < s.natAbs := by
    unfold Consistent at h
    omega
  have hle : s.natAbs ≤ (b - a).natAbs := by
    by_contra hlt
    have hzero : lastIndex a s b = 0 := Nat.div_eq_of_lt (by omega)
    omega
  have hless : (b - (a + s)).natAbs = (b - a).natAbs - s.natAbs := by
    unfold Consistent at h
    omega
  refine ⟨?_, ?_⟩
  · unfold Consistent at h ⊢
    omega
  · have hdiv := Nat.div_eq_sub_div hs hle
    unfold lastIndex at hlast ⊢
    rw [hless]
    omega

theorem rangeValues_step {a s b : Int} {n : Nat} (h : Consistent a s b) (hlast : lastIndex a s b = n + 1) :
    rangeValues a s b = a :: rangeValues (a + s) s b := by
  rw [rangeValues, rangeValues, hlast, (h.step hlast).2, List.range_succ_eq_map, List.map_cons, List.map_map]
  have hfirst : a + ((0 : Nat) : Int) * s = a := by simp
  rw [hfirst]
  congr 1
  refine List.map_congr_left fun k _ => ?_
  simp only [Function.comp_apply, Nat.cast_succ]
  ring

/-- The loop comes to an end: with the values of the range, unless the step past the
last one leaves `long long`. -/
theorem rangeTurn_ends (name : String) {a s b : Int} (h : Consistent a s b) (ha : fitsLongLong a = true)
    (hb : fitsLongLong b = true) (axis : Axis) :
    WhileLoops.Ends (rangeTurn name s b) (a, axis)
      (if fitsLongLong (a + (lastIndex a s b + 1) * s) then .axis (axis ++ rangeAxis name (rangeValues a s b))
        else .overflow) := by
  induction hlast : lastIndex a s b generalizing a axis with
  | zero =>
    have hvalues : rangeValues a s b = [a] := by simp [rangeValues, hlast]
    have hnext : a + (((0 : Nat) : Int) + 1) * s = a + s := by simp
    rw [hvalues, hnext]
    cases hfits : fitsLongLong (a + s) with
    | false =>
      refine .done ?_
      simp [rangeTurn, h.within, hfits]
    | true =>
      refine @WhileLoops.Ends.next _ _ _ _ (a + s, axis ++ [(name, fmtInt a)]) _ ?_ (.done ?_)
      · simp [rangeTurn, h.within, hfits]
      · simp [rangeTurn, beyond_of_lastIndex h hlast, rangeAxis]
  | succ n ih =>
    obtain ⟨hconsistent, hless⟩ := h.step hlast
    have hfits : fitsLongLong (a + s) = true := by
      rw [fits_iff] at ha hb ⊢
      unfold Consistent at h hconsistent
      omega
    have hend := ih hconsistent hfits (axis ++ [(name, fmtInt a)]) hless
    have hpast : a + s + ((n : Int) + 1) * s = a + (((n + 1 : Nat) : Int) + 1) * s := by
      push_cast
      ring
    have hall : axis ++ [(name, fmtInt a)] ++ rangeAxis name (rangeValues (a + s) s b) =
        axis ++ rangeAxis name (rangeValues a s b) := by
      simp [rangeValues_step h hlast, rangeAxis]
    rw [hpast, hall] at hend
    refine .next ?_ hend
    simp [rangeTurn, h.within, hfits]

-- ---------------------------------------------------------------------------
-- What is read of a literal
-- ---------------------------------------------------------------------------

/-- The decimal digits in front of the first separator, suffix or mark of a radix. -/
def frontDigits (l : IntegerLiteral) : List Char :=
  match l.radix with
  | .decimal | .octal => l.first
  | .hex _ | .binary _ => ['0']

/-- The value of a literal read in base ten up to where its first digits end. -/
def decimalReading (l : IntegerLiteral) : Int := IntegerLiteral.signed l.sign (number 10 (frontDigits l))

def boundRead (rounded : List Char → Int64) (l : IntegerLiteral) : Int :=
  if fitsLongLong (decimalReading l) then decimalReading l else (rounded l.text).toInt

theorem takeWhile_append_stop {p : Char → Bool} {front tail : List Char} (hfront : ∀ ch ∈ front, p ch = true)
    (htail : ∀ ch, tail.head? = some ch → p ch = false) : (front ++ tail).takeWhile p = front := by
  rw [List.takeWhile_append_of_pos hfront]
  cases tail with
  | nil => simp
  | cons ch tail => simp [htail ch rfl]

theorem unsignedText_front (l : IntegerLiteral) :
    frontDigits l ≠ [] ∧ (∀ ch ∈ frontDigits l, isDigit 10 ch = true) ∧
      ∃ tail, l.unsignedText = frontDigits l ++ tail ∧ ∀ ch, tail.head? = some ch → isDigit 10 ch = false := by
  obtain ⟨sign, radix, first, groups, suffix, signOk, firstOk, digits, suffixOk⟩ := l
  obtain ⟨hne, hdigits⟩ := digits first List.mem_cons_self
  have hsuffix : ∀ suffix ∈ integerSuffixes, ∀ ch ∈ suffix.head?, isDigit 10 ch = false := by decide
  have hplain : ∃ tail, ['\''].intercalate (first :: groups) ++ suffix = first ++ tail ∧
      ∀ ch, tail.head? = some ch → isDigit 10 ch = false := by
    cases groups with
    | nil => exact ⟨suffix, by simp, hsuffix suffix suffixOk⟩
    | cons group groups =>
      refine ⟨'\'' :: (['\''].intercalate (group :: groups) ++ suffix), by simp, ?_⟩
      rintro ch hch
      cases hch
      decide
  cases radix with
  | decimal => exact ⟨hne, hdigits, hplain⟩
  | octal => exact ⟨hne, fun ch hch => isDigit_mono (by decide) (hdigits ch hch), hplain⟩
  | hex capital =>
    have hzero : ∀ ch ∈ ['0'], isDigit 10 ch = true := by decide
    refine ⟨List.cons_ne_nil _ _, hzero, _, rfl, ?_⟩
    intro ch hch
    cases capital
    all_goals
      cases hch
      decide
  | binary capital =>
    have hzero : ∀ ch ∈ ['0'], isDigit 10 ch = true := by decide
    refine ⟨List.cons_ne_nil _ _, hzero, _, rfl, ?_⟩
    intro ch hch
    cases capital
    all_goals
      cases hch
      decide

theorem stoll_text (l : IntegerLiteral) :
    stoll l.text = if fitsLongLong (decimalReading l) then some (decimalReading l) else none := by
  obtain ⟨hne, hdigits, tail, htext, htail⟩ := unsignedText_front l
  obtain ⟨ch, more, hfront⟩ := List.exists_cons_of_ne_nil hne
  have hch : isDigit 10 ch = true := hdigits ch (hfront ▸ List.mem_cons_self)
  have hhead : ch ∈ "0123456789abcdefABCDEF".toList := mem_of_isDigit (by decide) hch
  have hnumber : leadingNumber l.unsignedText = some (number 10 (frontDigits l) : Int) := by
    rw [leadingNumber, htext, takeWhile_append_stop hdigits htail, if_neg hne]
  have hbody : l.unsignedText = ch :: (more ++ tail) := by rw [htext, hfront, List.cons_append]
  have hmark : ∀ ch ∈ "0123456789abcdefABCDEF".toList, isSpace ch = false ∧ ch ≠ '-' ∧ ch ≠ '+' := by decide
  obtain ⟨hspace, hminus, hplus⟩ := hmark ch hhead
  have hread : Decimal.signed (- ·) leadingNumber (l.text.dropWhile isSpace) = some (decimalReading l) := by
    have hsign := l.signOk
    simp only [List.mem_cons, List.not_mem_nil, or_false] at hsign
    unfold decimalReading IntegerLiteral.text IntegerLiteral.signed
    obtain hsign | hsign | hsign := hsign
    · rw [hsign, List.nil_append, hbody, List.dropWhile_cons_of_neg (by simp [hspace])]
      rw [hbody] at hnumber
      unfold Decimal.signed
      split
      · rename_i heq
        exact absurd (List.cons.inj heq).1 hminus
      · rename_i heq
        exact absurd (List.cons.inj heq).1 hplus
      · simpa using hnumber
    · rw [hsign]
      simp [isSpace, Decimal.signed, hnumber]
    · rw [hsign]
      simp [isSpace, Decimal.signed, hnumber]
  rw [stoll, hread]
  cases hfits : fitsLongLong (decimalReading l) with
  | true => simp [hfits]
  | false => simp [hfits]

theorem boundRead_of_fits (rounded : List Char → Int64) {l : IntegerLiteral}
    (h : fitsLongLong (decimalReading l) = true) : boundRead rounded l = decimalReading l := if_pos h

theorem toInt_text (rounded : List Char → Int64) (l : IntegerLiteral) :
    toInt rounded l.text = boundRead rounded l := by
  rw [toInt, stoll_text, boundRead]
  split
  all_goals rfl

-- ---------------------------------------------------------------------------
-- Exact ranges
-- ---------------------------------------------------------------------------

/-- The bounds as they are read, `a'`, `s'` and `b'`, give the values of the range, and
the step past the last one stays within `long long`. -/
structure ReadExactly (a s b a' s' b' : Int) : Prop where
  consistent : Consistent a' s' b'
  start : a' = a
  count : lastIndex a' s' b' = lastIndex a s b
  step : lastIndex a s b = 0 ∨ s' = s
  within : fitsLongLong (a + (lastIndex a s b + 1) * s') = true

theorem rangeAxis_injective {name : String} {values values' : List Int}
    (h : rangeAxis name values = rangeAxis name values') : values = values' := by
  refine List.map_injective_iff.mpr ?_ h
  intro v v' heq
  exact Int.repr_injective (Prod.mk.inj heq).2

theorem rangeValues_eq_iff {a s b a' s' b' : Int} :
    rangeValues a' s' b' = rangeValues a s b ↔
      a' = a ∧ lastIndex a' s' b' = lastIndex a s b ∧ (lastIndex a s b = 0 ∨ s' = s) := by
  constructor
  · intro h
    have hcount : lastIndex a' s' b' = lastIndex a s b := by
      have hlength := congrArg List.length h
      simpa [rangeValues] using hlength
    have hvalue : ∀ k : Nat, k ≤ lastIndex a s b → a' + (k : Int) * s' = a + (k : Int) * s := by
      intro k hk
      rw [rangeValues, rangeValues, hcount] at h
      exact List.map_inj_left.mp h k (List.mem_range.mpr (Nat.lt_succ_of_le hk))
    have hstart : a' = a := by simpa using hvalue 0 (Nat.zero_le _)
    refine ⟨hstart, hcount, ?_⟩
    cases hlast : lastIndex a s b with
    | zero => exact .inl rfl
    | succ n =>
      have hone := hvalue 1 (by omega)
      right
      simpa [hstart] using hone
  · rintro ⟨rfl, hcount, hzero | rfl⟩
    · simp [rangeValues, hcount, hzero]
    · rw [rangeValues, rangeValues, hcount]

theorem expandsTo_iff (rounded : List Char → Int64) (name : String) (start step stop : List Char) (a s b : Int) :
    ExpandsTo rounded name start step stop (.axis (rangeAxis name (rangeValues a s b))) ↔
      ReadExactly a s b (toInt rounded start) (if toInt rounded step = 0 then 1 else toInt rounded step)
        (toInt rounded stop) := by
  have hfitStart := toInt_fits rounded start
  have hfitStop := toInt_fits rounded stop
  have hne : (if toInt rounded step = 0 then 1 else toInt rounded step) ≠ 0 := by
    split <;> omega
  simp only [ExpandsTo]
  generalize toInt rounded start = a' at hfitStart
  generalize toInt rounded stop = b' at hfitStop
  generalize (if toInt rounded step = 0 then 1 else toInt rounded step) = s' at hne
  by_cases hconsistent : Consistent a' s' b'
  · have hgo : ¬((0 < s' ∧ b' < a') ∨ (s' < 0 ∧ a' < b')) := by
      unfold Consistent at hconsistent
      omega
    have hends := rangeTurn_ends name hconsistent hfitStart hfitStop []
    rw [if_neg hgo]
    constructor
    · intro hexact
      have heq := hexact.unique hends
      split at heq
      · rename_i hfits
        have hvalues := rangeAxis_injective (RangeResult.axis.inj heq)
        obtain ⟨hs, hcount, hsteps⟩ := rangeValues_eq_iff.mp hvalues.symm
        exact ⟨hconsistent, hs, hcount, hsteps, by rwa [hcount, hs] at hfits⟩
      · cases heq
    · rintro ⟨-, rfl, hcount, hsteps, hfits⟩
      rw [hcount, if_pos hfits, List.nil_append, rangeValues_eq_iff.mpr ⟨rfl, hcount, hsteps⟩] at hends
      exact hends
  · have hstops : (0 < s' ∧ b' < a') ∨ (s' < 0 ∧ a' < b') := by
      unfold Consistent at hconsistent
      omega
    rw [if_pos hstops]
    exact ⟨fun heq => (nomatch heq), fun hread => absurd hread.consistent hconsistent⟩

/-- A range over an integer parameter is expanded exactly when its bounds are read
exactly enough and the step past its last value does not overflow. -/
theorem integer_range_exact_iff (rounded : List Char → Int64) (name : String) (start step stop : IntegerLiteral) :
    ExpandsTo rounded name start.text step.text stop.text
        (.axis (rangeAxis name (rangeValues start.value step.value stop.value))) ↔
      ReadExactly start.value step.value stop.value (boundRead rounded start)
        (if boundRead rounded step = 0 then 1 else boundRead rounded step) (boundRead rounded stop) := by
  simp only [expandsTo_iff, toInt_text]

/-- The literals `0`, `1`, `0x10` and the two largest values of `long long`. -/
def zeroLiteral : IntegerLiteral := ⟨[], .octal, ['0'], [], [], by decide, by decide, by decide, by decide⟩

def oneLiteral : IntegerLiteral := ⟨[], .decimal, ['1'], [], [], by decide, by decide, by decide, by decide⟩

def sixteenLiteral : IntegerLiteral :=
  ⟨[], .hex false, ['1', '0'], [], [], by decide, by decide, by decide, by decide⟩

def belowLargestLiteral : IntegerLiteral :=
  ⟨[], .decimal, "9223372036854775806".toList, [], [], by decide, by decide, by decide, by decide⟩

def largestLiteral : IntegerLiteral :=
  ⟨[], .decimal, "9223372036854775807".toList, [], [], by decide, by decide, by decide, by decide⟩

/-- The bound `0x10` is read as zero, and the step past the largest value overflows. -/
theorem ranges_not_expanded :
    (Consistent zeroLiteral.value oneLiteral.value sixteenLiteral.value ∧ ∀ rounded name,
      ¬ExpandsTo rounded name zeroLiteral.text oneLiteral.text sixteenLiteral.text
        (.axis (rangeAxis name (rangeValues zeroLiteral.value oneLiteral.value sixteenLiteral.value)))) ∧
    (fitsLongLong largestLiteral.value = true ∧
      Consistent belowLargestLiteral.value oneLiteral.value largestLiteral.value ∧ ∀ rounded name,
      ¬ExpandsTo rounded name belowLargestLiteral.text oneLiteral.text largestLiteral.text
        (.axis (rangeAxis name (rangeValues belowLargestLiteral.value oneLiteral.value largestLiteral.value)))) := by
  refine ⟨⟨by decide, fun rounded name hexact => ?_⟩, by decide, by decide, fun rounded name hexact => ?_⟩
  · have hzero := boundRead_of_fits rounded (l := zeroLiteral) (by decide)
    have hone := boundRead_of_fits rounded (l := oneLiteral) (by decide)
    have hsixteen := boundRead_of_fits rounded (l := sixteenLiteral) (by decide)
    have hread := (expandsTo_iff ..).mp hexact
    simp only [toInt_text, hzero, hone, hsixteen] at hread
    exact absurd hread.count (by decide)
  · have hone := boundRead_of_fits rounded (l := oneLiteral) (by decide)
    have hread := (expandsTo_iff ..).mp hexact
    simp only [toInt_text, hone] at hread
    exact absurd hread.within (by decide)

end Gentest.Codegen
