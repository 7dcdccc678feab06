import Gentest.Lib.Fallible
import Mathlib.Algebra.Group.Nat.Defs
import Mathlib.Data.List.NodupEquivFin

/-!
# Stored samples of a jitter run

`make_samples_json` writes at most 2048 samples of a run, spread over all of them. The
samples are of any type that is printed by `print`. `size_t` has 64 bits, so the product
of the scaled index wraps; reading past the end is a fault.
-/

namespace Gentest.Report.Thinning

variable {α : Type}

def maxStoredSamples : Nat := 2048

def storedCount (size : Nat) : Nat := min size maxStoredSamples

def sampleIndex (size storedCount i : Nat) : Nat :=
  if storedCount = size then i else i * (size - 1) % 2 ^ 64 / (storedCount - 1)

def storedSamples (samplesNs : List α) : Option (List α) :=
  (List.range (storedCount samplesNs.length)).mapM fun i =>
    samplesNs[sampleIndex samplesNs.length (storedCount samplesNs.length) i]?

def samplesHeader (size storedCount : Nat) : String :=
  "\x7b\"sample_count\":" ++ toString size ++ ",\"stored_count\":" ++ toString storedCount ++
    ",\"truncated\":" ++ (if storedCount < size then "true" else "false") ++ ",\"samples_ns\":["

def makeSamplesJson (print : α → String) (samplesNs : List α) : Option String :=
  let header := samplesHeader samplesNs.length (storedCount samplesNs.length)
  if storedCount samplesNs.length = 0 then some (header ++ "]\x7d")
  else (storedSamples samplesNs).map fun samples =>
    header ++ ",".intercalate (samples.map print) ++ "]\x7d"

-- ---------------------------------------------------------------------------
-- The scaled index
-- ---------------------------------------------------------------------------

/-- A step of the index moves it by at least one where there are as many samples as turns. -/
theorem scaled_lt {i j n k : Nat} (hk : 0 < k) (hn : k ≤ n) (hij : i < j) : i * n / k < j * n / k := by
  have hstep : i * n / k + 1 ≤ (i * n + n) / k := by
    rw [← Nat.add_div_right _ hk]
    exact Nat.div_le_div_right (Nat.add_le_add_left hn _)
  have hnext : (i * n + n) / k ≤ j * n / k := by
    refine Nat.div_le_div_right ?_
    rw [← Nat.succ_mul]
    exact Nat.mul_le_mul_right n hij
  exact Nat.lt_of_lt_of_le hstep hnext

section Thinned

variable {n : Nat} (hlong : maxStoredSamples < n) (hfits : (maxStoredSamples - 1) * (n - 1) < 2 ^ 64)

include hlong in
theorem storedCount_of_lt : storedCount n = maxStoredSamples := Nat.min_eq_right hlong.le

include hlong hfits in
theorem sampleIndex_eq {i : Nat} (hi : i < maxStoredSamples) :
    sampleIndex n (storedCount n) i = i * (n - 1) / (maxStoredSamples - 1) := by
  have hle : i * (n - 1) ≤ (maxStoredSamples - 1) * (n - 1) := Nat.mul_le_mul_right _ (Nat.le_sub_one_of_lt hi)
  rw [sampleIndex, storedCount_of_lt hlong, if_neg hlong.ne,
    Nat.mod_eq_of_lt (Nat.lt_of_le_of_lt hle hfits)]

include hlong hfits in
theorem sampleIndex_lt {i j : Nat} (hij : i < j) (hj : j < maxStoredSamples) :
    sampleIndex n (storedCount n) i < sampleIndex n (storedCount n) j := by
  rw [sampleIndex_eq hlong hfits (hij.trans hj), sampleIndex_eq hlong hfits hj]
  exact scaled_lt (by decide) (Nat.sub_le_sub_right hlong.le 1) hij

include hlong hfits in
theorem sampleIndex_first : sampleIndex n (storedCount n) 0 = 0 := by
  rw [sampleIndex_eq hlong hfits (by decide), Nat.zero_mul, Nat.zero_div]

include hlong hfits in
theorem sampleIndex_last : sampleIndex n (storedCount n) (maxStoredSamples - 1) = n - 1 := by
  rw [sampleIndex_eq hlong hfits (by decide)]
  exact Nat.mul_div_cancel_left (n - 1) (by decide)

include hlong hfits in
theorem sampleIndex_le {i : Nat} (hi : i < maxStoredSamples) : sampleIndex n (storedCount n) i ≤ n - 1 := by
  rw [sampleIndex_eq hlong hfits hi]
  refine Nat.div_le_of_le_mul ?_
  exact Nat.mul_le_mul_right _ (Nat.le_sub_one_of_lt hi)

end Thinned

-- ---------------------------------------------------------------------------
-- What is written
-- ---------------------------------------------------------------------------

theorem sublist_of_reads {samples stored : List α} {place : Nat → Nat}
    (hread : ∀ i (hi : i < stored.length), samples[place i]? = some stored[i])
    (hmono : ∀ i j, i < j → j < stored.length → place i < place j) : stored.Sublist samples := by
  rw [List.sublist_iff_exists_fin_orderEmbedding_get_eq]
  have hbound : ∀ i, i < stored.length → place i < samples.length := fun i hi =>
    (List.getElem?_eq_some_iff.mp (hread i hi)).1
  let f : Fin stored.length → Fin samples.length := fun i => ⟨place i, hbound i i.isLt⟩
  have hf : StrictMono f := fun i j hij => hmono i j hij j.isLt
  refine ⟨OrderEmbedding.ofStrictMono f hf, fun i => ?_⟩
  exact (List.getElem?_eq_some_iff.mp (hread i i.isLt)).2.symm

/-- No turn of the loop reads past the end, and turn `i` stores the sample at its index. -/
theorem storedSamples_reads {samples : List α} (hlong : maxStoredSamples < samples.length)
    (hfits : (maxStoredSamples - 1) * (samples.length - 1) < 2 ^ 64) :
    ∃ stored, storedSamples samples = some stored ∧ stored.length = maxStoredSamples ∧
      ∀ i (hi : i < stored.length),
        samples[sampleIndex samples.length (storedCount samples.length) i]? = some stored[i] := by
  obtain ⟨first, rest, hsamples⟩ := List.exists_cons_of_length_pos (Nat.zero_lt_of_lt hlong)
  have hread : ∀ i, i < maxStoredSamples →
      samples[sampleIndex samples.length (storedCount samples.length) i]? =
        some (samples.getD (sampleIndex samples.length (storedCount samples.length) i) first) := by
    intro i hi
    have hle := sampleIndex_le hlong hfits hi
    rw [List.getD_eq_getElem?_getD, List.getElem?_eq_getElem (by omega), Option.getD_some]
  refine ⟨(List.range maxStoredSamples).map fun i =>
    samples.getD (sampleIndex samples.length (storedCount samples.length) i) first, ?_, ?_, ?_⟩
  · rw [storedSamples]
    conv in List.range _ => rw [storedCount_of_lt hlong]
    exact Fallible.mapM_some_of_forall fun i hi => hread i (List.mem_range.mp hi)
  · rw [List.length_map, List.length_range]
  · intro i hi
    rw [List.length_map, List.length_range] at hi
    rw [List.getElem_map, List.getElem_range, hread i hi]

/-- What thinning must not spoil: the indices climb from the first sample to the last,
and what is written is a subsequence of the samples with both ends. -/
structure ThinningSound (print : α → String) (samples : List α) : Prop where
  increasing : ∀ i j, i < j → j < storedCount samples.length →
    sampleIndex samples.length (storedCount samples.length) i <
      sampleIndex samples.length (storedCount samples.length) j
  bounded : ∀ i, i < storedCount samples.length →
    sampleIndex samples.length (storedCount samples.length) i ≤ samples.length - 1
  first : sampleIndex samples.length (storedCount samples.length) 0 = 0
  last : sampleIndex samples.length (storedCount samples.length) (storedCount samples.length - 1) =
    samples.length - 1
  written : ∃ stored : List α, makeSamplesJson print samples = some (samplesHeader samples.length stored.length ++
      ",".intercalate (stored.map print) ++ "]\x7d") ∧
    stored.length = storedCount samples.length ∧
    (∀ i (hi : i < stored.length),
      samples[sampleIndex samples.length (storedCount samples.length) i]? = some stored[i]) ∧
    stored.Sublist samples ∧ stored.head? = samples.head? ∧ stored.getLast? = samples.getLast?

theorem samplesThinned (print : α → String) (samples : List α) (hlong : maxStoredSamples < samples.length)
    (hfits : (maxStoredSamples - 1) * (samples.length - 1) < 2 ^ 64) : ThinningSound print samples := by
  have hcount := storedCount_of_lt hlong
  have hpos : 0 < maxStoredSamples := by decide
  have hfirst := sampleIndex_first hlong hfits
  have hlast : sampleIndex samples.length (storedCount samples.length) (storedCount samples.length - 1) =
      samples.length - 1 := by
    have h := sampleIndex_last hlong hfits
    rwa [← hcount] at h
  have hmono : ∀ i j, i < j → j < storedCount samples.length → _ < _ := fun i j hij hj =>
    sampleIndex_lt hlong hfits hij (hcount ▸ hj)
  obtain ⟨stored, hstored, hlength, hread⟩ := storedSamples_reads hlong hfits
  rw [← hcount] at hlength
  refine ⟨hmono, fun i hi => sampleIndex_le hlong hfits (hcount ▸ hi), hfirst, hlast, stored, ?_, hlength,
    hread, ?_, ?_, ?_⟩
  · rw [makeSamplesJson, if_neg (by omega), hstored, hlength]
    rfl
  · exact sublist_of_reads hread fun i j hij hj => hmono i j hij (hlength ▸ hj)
  · have h := hread 0 (by omega)
    rw [hfirst] at h
    rw [List.head?_eq_getElem?, List.head?_eq_getElem?, h, List.getElem?_eq_getElem]
  · have hend : stored.length - 1 < stored.length := by omega
    have hplace : sampleIndex samples.length (storedCount samples.length) (stored.length - 1) =
        samples.length - 1 := by rw [hlength, hlast]
    rw [List.getLast?_eq_getElem?, List.getLast?_eq_getElem?, List.getElem?_eq_getElem hend,
      ← hread _ hend, hplace]

theorem range_samplesThinned : ThinningSound toString (List.range 2049) :=
  samplesThinned toString (List.range 2049) (by simp [maxStoredSamples]) (by simp [maxStoredSamples])

end Gentest.Report.Thinning
