import Gentest.Report.ReportTables
import Mathlib.Algebra.GroupWithZero.Nat
import Mathlib.Data.List.Destutter
import Mathlib.Data.Rat.Floor
import Mathlib.Data.UInt

/-!
# Histograms

With exact arithmetic a histogram of `compute_histogram` loses no sample: the
bins cut the range of the samples, and each counts the samples between its
edges. The index of a sample is a truncated quotient while the edges are
products, and the two agree on every edge.

`merge_duplicate_display_ranges` joins neighbours that are displayed alike.
-/

namespace Gentest.Report

-- ---------------------------------------------------------------------------
-- Exact arithmetic
-- ---------------------------------------------------------------------------

/-- Rational numbers in the place of `double`. -/
def rationals (format : ℚ → String) : Doubles ℚ where
  ofNat := fun n => n
  add := (· + ·)
  sub := (· - ·)
  mul := (· * ·)
  div := (· / ·)
  lt := fun a b => a < b
  le := fun a b => a ≤ b
  eq := fun a b => a == b
  toInt := fun q => q.num.tdiv q.den
  isFinite := fun _ => true
  format := format

theorem tdiv_eq_floor {q : ℚ} (h : 0 ≤ q) : q.num.tdiv q.den = ⌊q⌋ := by
  rw [Int.tdiv_eq_ediv_of_nonneg (Rat.num_nonneg.mpr h), Rat.floor_def']

-- ---------------------------------------------------------------------------
-- The parts of the histogram
-- ---------------------------------------------------------------------------

variable {F : Type} (d : Doubles F)

/-- `std::ranges::min_element` of `first :: rest`. -/
def minElement (first : F) (rest : List F) : F := rest.foldl (fun m v => if d.lt v m then v else m) first

def maxElement (first : F) (rest : List F) : F := rest.foldl (fun m v => if d.lt m v then v else m) first

def histBins (first : F) (rest : List F) (bins : Int) : Nat :=
  if d.eq (minElement d first rest) (maxElement d first rest) then 1 else if bins > 0 then bins.toNat else 1

def histWidth (first : F) (rest : List F) (bins : Int) : F :=
  if histBins d first rest bins = 1 then d.ofNat 0
  else d.div (d.sub (maxElement d first rest) (minElement d first rest)) (d.ofNat (histBins d first rest bins))

/-- The index `compute_histogram` counts a sample at. -/
def sampleIndex (first : F) (rest : List F) (bins : Int) : F → Nat :=
  histogramIndex d (minElement d first rest) (histWidth d first rest bins) (histBins d first rest bins)

def countSamples (first : F) (rest : List F) (bins : Int) : List Nat :=
  (first :: rest).foldl (fun counts v => counts.modify (sampleIndex d first rest bins v) (· + 1))
    (List.replicate (histBins d first rest bins) 0)

/-- One bin, as the second loop of `compute_histogram` fills it in. -/
def binAt (first : F) (rest : List F) (bins : Int) (i : Nat) : HistogramBin F :=
  let n := histBins d first rest bins
  let edge := fun i => d.add (minElement d first rest) (d.mul (histWidth d first rest bins) (d.ofNat i))
  let count := fun i => (first :: rest).countP fun v => sampleIndex d first rest bins v == i
  { lo := if n = 1 then minElement d first rest else edge i
    hi := if n = 1 ∨ i + 1 = n then maxElement d first rest else edge (i + 1)
    count := count i
    percent := percentOf d (count i) (first :: rest).length
    cumulativePercent := percentOf d ((List.range (i + 1)).map count).sum (first :: rest).length
    inclusiveHi := i + 1 == n }

theorem computeHistogram_cons (first : F) (rest : List F) (bins : Int) :
    computeHistogram d (first :: rest) bins =
      (List.range (histBins d first rest bins)).map (binAt d first rest bins) := rfl

-- ---------------------------------------------------------------------------
-- Counting
-- ---------------------------------------------------------------------------

theorem foldl_modify_count {α : Type*} (index : α → Nat) (samples : List α) (counts : List Nat) :
    samples.foldl (fun counts v => counts.modify (index v) (· + 1)) counts =
      counts.mapIdx fun i n => n + samples.countP fun v => index v == i := by
  induction samples generalizing counts with
  | nil => exact List.ext_getElem (by simp) fun i hi hi' => by simp
  | cons v samples ih =>
    rw [List.foldl_cons, ih]
    refine List.ext_getElem (by simp) fun i hi hi' => ?_
    simp only [List.getElem_mapIdx, List.getElem_modify, List.countP_cons, beq_iff_eq]
    split <;> omega

theorem sum_range_indicator (k n : Nat) :
    ((List.range n).map fun i => if k == i then 1 else 0).sum = if k < n then 1 else 0 := by
  induction n with
  | zero => rfl
  | succ n ih =>
    rw [List.range_succ, List.map_append, List.sum_append, ih]
    by_cases hk : k = n
    · simp [hk]
    · have hlt : k < n + 1 ↔ k < n := by omega
      simp [hk, hlt]

theorem sum_countP {α : Type*} (index : α → Nat) {n : Nat} (samples : List α) (h : ∀ v ∈ samples, index v < n) :
    ((List.range n).map fun i => samples.countP fun v => index v == i).sum = samples.length := by
  induction samples with
  | nil => simp
  | cons v samples ih =>
    obtain ⟨hv, hrest⟩ := List.forall_mem_cons.mp h
    simp only [List.countP_cons, List.length_cons]
    rw [List.sum_map_add, ih hrest, sum_range_indicator, if_pos hv]

theorem sampleIndex_lt (first : F) (rest : List F) (bins : Int) (v : F) :
    sampleIndex d first rest bins v < histBins d first rest bins := by
  have hpos : 0 < histBins d first rest bins := by
    unfold histBins
    split
    · exact Nat.one_pos
    · split <;> omega
  simp only [sampleIndex, histogramIndex]
  split
  · split
    · exact hpos
    · split
      · omega
      · omega
  · exact hpos

theorem countSamples_eq (first : F) (rest : List F) (bins : Int) :
    countSamples d first rest bins = (computeHistogram d (first :: rest) bins).map HistogramBin.count := by
  rw [countSamples, foldl_modify_count, computeHistogram_cons]
  refine List.ext_getElem (by simp) fun i hi hi' => ?_
  simp [binAt]

-- ---------------------------------------------------------------------------
-- The range of the samples
-- ---------------------------------------------------------------------------

theorem isLeast_foldl {α : Type*} [LinearOrder α] (first : α) (rest : List α) :
    IsLeast {v | v ∈ first :: rest} (rest.foldl (fun m v => if v < m then v else m) first) := by
  induction rest generalizing first with
  | nil => simp
  | cons v rest ih =>
    rw [List.foldl_cons]
    obtain ⟨hmem, hle⟩ := ih (if v < first then v else first)
    refine ⟨?_, ?_⟩
    · rcases List.mem_cons.mp hmem with hfirst | hrest
      · simp only [Set.mem_ofPred_eq, List.mem_cons, hfirst]
        split <;> simp
      · exact List.mem_cons_of_mem _ (List.mem_cons_of_mem _ hrest)
    · have hpick := hle (List.mem_cons_self ..)
      rintro u hu
      rcases List.mem_cons.mp hu with rfl | hu
      · refine hpick.trans ?_
        split
        · exact le_of_lt ‹_›
        · exact le_refl _
      · rcases List.mem_cons.mp hu with rfl | hu
        · refine hpick.trans ?_
          split
          · exact le_refl _
          · exact le_of_not_gt ‹_›
        · exact hle (List.mem_cons_of_mem _ hu)

variable (format : ℚ → String) (first : ℚ) (rest : List ℚ) (bins : Int)

theorem minElement_isLeast : IsLeast {v | v ∈ first :: rest} (minElement (rationals format) first rest) := by
  have h := isLeast_foldl first rest
  simpa [minElement, rationals] using h

theorem maxElement_isGreatest : IsGreatest {v | v ∈ first :: rest} (maxElement (rationals format) first rest) := by
  have h := @isLeast_foldl ℚᵒᵈ _ first rest
  have heq : maxElement (rationals format) first rest = rest.foldl (fun m v => if m < v then v else m) first := by
    simp [maxElement, rationals]
  rw [heq]
  exact h

-- ---------------------------------------------------------------------------
-- Edges
-- ---------------------------------------------------------------------------

section

variable {format first rest bins}

theorem histWidth_pos (h : histBins (rationals format) first rest bins ≠ 1) :
    0 < histWidth (rationals format) first rest bins := by
  have hle := (minElement_isLeast format first rest).2 (maxElement_isGreatest format first rest).1
  have hne : minElement (rationals format) first rest ≠ maxElement (rationals format) first rest := by
    intro heq
    refine h ?_
    rw [histBins, heq]
    exact if_pos (beq_self_eq_true _)
  have hpos : (0 : ℚ) < histBins (rationals format) first rest bins :=
    Nat.cast_pos.mpr (Nat.zero_lt_of_lt (sampleIndex_lt (rationals format) first rest bins first))
  rw [histWidth, if_neg h]
  exact div_pos (sub_pos.mpr (lt_of_le_of_ne hle hne)) hpos

theorem floor_index {v : ℚ} (hbins : histBins (rationals format) first rest bins ≠ 1)
    (hv : minElement (rationals format) first rest ≤ v) :
    sampleIndex (rationals format) first rest bins v =
      min ⌊(v - minElement (rationals format) first rest) / histWidth (rationals format) first rest bins⌋.toNat
        (histBins (rationals format) first rest bins - 1) := by
  have hwidth := histWidth_pos hbins
  have hq : 0 ≤ (v - minElement (rationals format) first rest) / histWidth (rationals format) first rest bins :=
    div_nonneg (sub_nonneg.mpr hv) hwidth.le
  have hindex := sampleIndex_lt (rationals format) first rest bins v
  have hfloor : (rationals format).toInt ((rationals format).div
      ((rationals format).sub v (minElement (rationals format) first rest)) (histWidth (rationals format) first rest bins)) =
      ⌊(v - minElement (rationals format) first rest) / histWidth (rationals format) first rest bins⌋ := tdiv_eq_floor hq
  have hnonneg := Int.floor_nonneg.mpr hq
  simp only [sampleIndex, histogramIndex, hfloor]
  rw [if_pos (by omega), if_neg (by omega)]
  split <;> omega

/-- The conversion to `int` is applied to values from zero to the number of bins. -/
theorem quotient_le {v : ℚ} (hbins : histBins (rationals format) first rest bins ≠ 1) (hv : v ∈ first :: rest) :
    0 ≤ (v - minElement (rationals format) first rest) / histWidth (rationals format) first rest bins ∧
      (v - minElement (rationals format) first rest) / histWidth (rationals format) first rest bins ≤
        histBins (rationals format) first rest bins := by
  have hmin := (minElement_isLeast format first rest).2 hv
  have hmax := (maxElement_isGreatest format first rest).2 hv
  have hwidth := histWidth_pos hbins
  have hpos : (0 : ℚ) < histBins (rationals format) first rest bins :=
    Nat.cast_pos.mpr (Nat.zero_lt_of_lt (sampleIndex_lt (rationals format) first rest bins first))
  have hrange : (histBins (rationals format) first rest bins : ℚ) * histWidth (rationals format) first rest bins =
      maxElement (rationals format) first rest - minElement (rationals format) first rest := by
    rw [histWidth, if_neg hbins]
    exact mul_div_cancel₀ _ hpos.ne'
  refine ⟨div_nonneg (sub_nonneg.mpr hmin) hwidth.le, ?_⟩
  rw [div_le_iff₀ hwidth, hrange]
  exact sub_le_sub_right hmax _

theorem sampleIndex_iff {v : ℚ} {i : Nat} (hbins : histBins (rationals format) first rest bins ≠ 1)
    (hv : v ∈ first :: rest) (hi : i < histBins (rationals format) first rest bins) :
    sampleIndex (rationals format) first rest bins v = i ↔
      minElement (rationals format) first rest + histWidth (rationals format) first rest bins * i ≤ v ∧
        if i + 1 = histBins (rationals format) first rest bins then v ≤ maxElement (rationals format) first rest
        else v < minElement (rationals format) first rest + histWidth (rationals format) first rest bins * (i + 1 : Nat) := by
  have hmin := (minElement_isLeast format first rest).2 hv
  have hmax := (maxElement_isGreatest format first rest).2 hv
  have hwidth := histWidth_pos hbins
  rw [floor_index hbins hmin]
  generalize hq : (v - minElement (rationals format) first rest) / histWidth (rationals format) first rest bins = q
  have hv' : v = minElement (rationals format) first rest + histWidth (rationals format) first rest bins * q := by
    rw [← hq, mul_div_cancel₀ _ hwidth.ne']
    ring
  have hnonneg : 0 ≤ ⌊q⌋ := by
    rw [← hq]
    exact Int.floor_nonneg.mpr (div_nonneg (sub_nonneg.mpr hmin) hwidth.le)
  have hlow : minElement (rationals format) first rest + histWidth (rationals format) first rest bins * i ≤ v ↔
      (i : Int) ≤ ⌊q⌋ := by
    rw [hv', Int.le_floor, Int.cast_natCast, add_le_add_iff_left, mul_le_mul_iff_right₀ hwidth]
  have hhigh : v < minElement (rationals format) first rest +
      histWidth (rationals format) first rest bins * (i + 1 : Nat) ↔ ⌊q⌋ < (i + 1 : Nat) := by
    rw [hv', Int.floor_lt, Int.cast_natCast, add_lt_add_iff_left, mul_lt_mul_iff_right₀ hwidth]
  rw [hlow]
  split
  · simp only [hmax, and_true]
    omega
  · rw [hhigh]
    omega

end

-- ---------------------------------------------------------------------------
-- Conservation
-- ---------------------------------------------------------------------------

/-- The bins cut the range of the samples and count each sample once, between the
edges of its bin. -/
structure Conserves (samples : List ℚ) (h : List (HistogramBin ℚ)) : Prop where
  total : (h.map HistogramBin.count).sum = samples.length
  starts : ∃ bin, h.head? = some bin ∧ IsLeast {v | v ∈ samples} bin.lo
  ends : ∃ bin, h.getLast? = some bin ∧ IsGreatest {v | v ∈ samples} bin.hi
  contiguous : ∀ i (hi : i + 1 < h.length), h[i].hi = h[i + 1].lo
  inclusive : ∀ i (hi : i < h.length), h[i].inclusiveHi = true ↔ i + 1 = h.length
  counts : ∀ bin ∈ h, bin.count = samples.countP fun v =>
    decide (bin.lo ≤ v ∧ if bin.inclusiveHi then v ≤ bin.hi else v < bin.hi)

theorem binAt_counts {i : Nat} (hi : i < histBins (rationals format) first rest bins) :
    (binAt (rationals format) first rest bins i).count = (first :: rest).countP fun v =>
      decide ((binAt (rationals format) first rest bins i).lo ≤ v ∧
        if (binAt (rationals format) first rest bins i).inclusiveHi then v ≤ (binAt (rationals format) first rest bins i).hi
        else v < (binAt (rationals format) first rest bins i).hi) := by
  refine List.countP_congr fun v hv => ?_
  rw [beq_iff_eq, decide_eq_true_eq]
  by_cases hbins : histBins (rationals format) first rest bins = 1
  · have hindex := sampleIndex_lt (rationals format) first rest bins v
    have hmin := (minElement_isLeast format first rest).2 hv
    have hmax := (maxElement_isGreatest format first rest).2 hv
    obtain rfl : i = 0 := by omega
    simp only [binAt, hbins, if_true, true_or, Nat.zero_add, beq_self_eq_true, hmin, hmax, and_self, iff_true]
    omega
  · rw [sampleIndex_iff hbins hv hi]
    simp only [binAt, hbins, if_false, false_or, beq_iff_eq]
    by_cases hlast : i + 1 = histBins (rationals format) first rest bins
    · simp only [hlast, if_true]
      rfl
    · simp only [hlast, if_false]
      rfl

theorem histogram_conserves : Conserves (first :: rest) (computeHistogram (rationals format) (first :: rest) bins) := by
  have hindex := sampleIndex_lt (rationals format) first rest bins
  have hpos : 0 < histBins (rationals format) first rest bins := Nat.zero_lt_of_lt (hindex first)
  rw [computeHistogram_cons]
  refine { total := ?_, starts := ?_, ends := ?_, contiguous := ?_, inclusive := ?_, counts := ?_ }
  · rw [List.map_map]
    exact sum_countP _ _ fun v _ => hindex v
  · refine ⟨binAt (rationals format) first rest bins 0, ?_, ?_⟩
    · simp [List.head?_range, hpos.ne']
    · have hlo : (binAt (rationals format) first rest bins 0).lo = minElement (rationals format) first rest := by
        simp only [binAt]
        split
        · rfl
        · change _ + _ * ((0 : Nat) : ℚ) = _
          rw [Nat.cast_zero, mul_zero, add_zero]
      rw [hlo]
      exact minElement_isLeast format first rest
  · refine ⟨binAt (rationals format) first rest bins (histBins (rationals format) first rest bins - 1), ?_, ?_⟩
    · simp [List.getLast?_range, hpos.ne']
    · have hhi : (binAt (rationals format) first rest bins (histBins (rationals format) first rest bins - 1)).hi =
          maxElement (rationals format) first rest := if_pos (.inr (by omega))
      rw [hhi]
      exact maxElement_isGreatest format first rest
  · intro i hi
    rw [List.length_map, List.length_range] at hi
    simp only [List.getElem_map, List.getElem_range, binAt]
    rw [if_neg (by omega), if_neg (by omega)]
  · intro i hi
    simp [binAt]
  · intro bin hbin
    obtain ⟨i, hi, rfl⟩ := List.mem_map.mp hbin
    exact binAt_counts format first rest bins (List.mem_range.mp hi)

-- ---------------------------------------------------------------------------
-- Display bins
-- ---------------------------------------------------------------------------

structure DisplayHistogramBin where
  loText : String
  hiText : String
  inclusiveHi : Bool := false
  count : UInt64 := 0
  deriving DecidableEq

def DisplayHistogramBin.range (bin : DisplayHistogramBin) : String × String := (bin.loText, bin.hiText)

def hasDuplicateDisplayRanges : List DisplayHistogramBin → Bool
  | previous :: bin :: rest =>
    (previous.loText == bin.loText && previous.hiText == bin.hiText) || hasDuplicateDisplayRanges (bin :: rest)
  | _ => false

def mergeBin (merged : List DisplayHistogramBin) (bin : DisplayHistogramBin) : List DisplayHistogramBin :=
  match merged.getLast? with
  | some last =>
    if last.loText == bin.loText && last.hiText == bin.hiText then
      merged.dropLast ++
        [{ last with count := last.count + bin.count, inclusiveHi := last.inclusiveHi || bin.inclusiveHi }]
    else merged ++ [bin]
  | none => merged ++ [bin]

def mergeDuplicateDisplayRanges : List DisplayHistogramBin → List DisplayHistogramBin
  | [] => []
  | first :: rest => rest.foldl mergeBin [first]

def mergeFrom (last : DisplayHistogramBin) : List DisplayHistogramBin → List DisplayHistogramBin
  | [] => [last]
  | bin :: rest =>
    if last.loText == bin.loText && last.hiText == bin.hiText then
      mergeFrom { last with count := last.count + bin.count, inclusiveHi := last.inclusiveHi || bin.inclusiveHi } rest
    else last :: mergeFrom bin rest

theorem foldl_mergeBin (front : List DisplayHistogramBin) (last : DisplayHistogramBin) (bins : List DisplayHistogramBin) :
    bins.foldl mergeBin (front ++ [last]) = front ++ mergeFrom last bins := by
  induction bins generalizing front last with
  | nil => rfl
  | cons bin bins ih =>
    rw [List.foldl_cons, mergeBin, mergeFrom, List.getLast?_concat]
    simp only [List.dropLast_concat]
    split
    · exact ih ..
    · rw [ih, List.append_assoc, List.singleton_append]

theorem mergeFrom_range (last : DisplayHistogramBin) (bins : List DisplayHistogramBin) :
    (mergeFrom last bins).map DisplayHistogramBin.range =
      (bins.map DisplayHistogramBin.range).destutter' (· ≠ ·) last.range := by
  induction bins generalizing last with
  | nil => rfl
  | cons bin bins ih =>
    have hsame : (last.loText == bin.loText && last.hiText == bin.hiText) = true ↔ last.range = bin.range := by
      simp [DisplayHistogramBin.range]
    rw [mergeFrom, List.map_cons, List.destutter']
    by_cases hrange : last.range = bin.range
    · rw [if_pos (hsame.mpr hrange), if_neg (not_not.mpr hrange), ih]
      rfl
    · rw [if_neg (mt hsame.mp hrange), if_pos hrange, List.map_cons, ih]

theorem mergeFrom_total (last : DisplayHistogramBin) (bins : List DisplayHistogramBin) :
    ((mergeFrom last bins).map DisplayHistogramBin.count).sum =
      last.count + (bins.map DisplayHistogramBin.count).sum := by
  induction bins generalizing last with
  | nil => simp [mergeFrom]
  | cons bin bins ih =>
    rw [mergeFrom, List.map_cons, List.sum_cons]
    split
    · rw [ih, UInt64.add_assoc]
    · rw [List.map_cons, List.sum_cons, ih]

/-- The merged bins keep the total count and the ranges in their order, each once
where it was repeated. -/
structure MergesAlike (bins merged : List DisplayHistogramBin) : Prop where
  total : (merged.map DisplayHistogramBin.count).sum = (bins.map DisplayHistogramBin.count).sum
  ranges : merged.map DisplayHistogramBin.range = (bins.map DisplayHistogramBin.range).destutter (· ≠ ·)
  apart : hasDuplicateDisplayRanges merged = false

theorem hasDuplicate_of_chain {bins : List DisplayHistogramBin}
    (h : (bins.map DisplayHistogramBin.range).IsChain (· ≠ ·)) : hasDuplicateDisplayRanges bins = false := by
  induction bins with
  | nil => rfl
  | cons previous rest ih =>
    cases rest with
    | nil => rfl
    | cons bin rest =>
      rw [List.map_cons, List.map_cons, List.isChain_cons_cons] at h
      have hne : ¬ (previous.loText = bin.loText ∧ previous.hiText = bin.hiText) := by
        simpa [DisplayHistogramBin.range] using h.1
      rw [hasDuplicateDisplayRanges, ih h.2]
      simpa using hne

theorem merge_alike (bins : List DisplayHistogramBin) : MergesAlike bins (mergeDuplicateDisplayRanges bins) := by
  cases bins with
  | nil => exact ⟨rfl, rfl, rfl⟩
  | cons first rest =>
    have hmerged : mergeDuplicateDisplayRanges (first :: rest) = mergeFrom first rest := foldl_mergeBin [] first rest
    rw [hmerged]
    refine ⟨mergeFrom_total first rest, mergeFrom_range first rest, hasDuplicate_of_chain ?_⟩
    rw [mergeFrom_range]
    exact List.isChain_destutter' _ _ _

/-- Every histogram conserves its samples, each counted inside the vector, and
merging the bins of any display keeps what it shows. -/
theorem histogram_conserves_samples (format : ℚ → String) (first : ℚ) (rest : List ℚ) (bins : Int)
    (displayed : List DisplayHistogramBin) :
    Conserves (first :: rest) (computeHistogram (rationals format) (first :: rest) bins) ∧
      (∀ v ∈ first :: rest, sampleIndex (rationals format) first rest bins v <
        (computeHistogram (rationals format) (first :: rest) bins).length ∧
        (histBins (rationals format) first rest bins ≠ 1 →
          0 ≤ (v - minElement (rationals format) first rest) / histWidth (rationals format) first rest bins ∧
            (v - minElement (rationals format) first rest) / histWidth (rationals format) first rest bins ≤
              histBins (rationals format) first rest bins)) ∧
      countSamples (rationals format) first rest bins =
        (computeHistogram (rationals format) (first :: rest) bins).map HistogramBin.count ∧
      MergesAlike displayed (mergeDuplicateDisplayRanges displayed) := by
  refine ⟨histogram_conserves format first rest bins, fun v hv => ⟨?_, fun hbins => quotient_le hbins hv⟩,
    countSamples_eq .., merge_alike displayed⟩
  rw [computeHistogram_cons, List.length_map, List.length_range]
  exact sampleIndex_lt ..

end Gentest.Report
