import OpTrace.Duration
import OpTrace.Proofs.Decimal.Rounding
import OpTrace.Proofs.Histogram.Percentile

/-!
# Summaries

A summary describes the durations of the rows in whole numbers: their number, their sum, the least
and the greatest one, and three percentiles. None of these depends on the order of the rows.

A machine computes the sum in 64 bits and the ranks with numbers of 53 bits. As long as no partial
sum leaves 64 bits the sum is the same. A rank is the next whole number above a product that has
been rounded twice. The hundredths that are multiplied are never too large, and up to `2 ^ 45` rows
they are too small by so little that the product does not pass a whole number, so the ranks are the
same as well.
-/

namespace OpTrace

/-- Hundredths as the machine has them. -/
def machineHundredths (percent : Nat) : Float :=
  percent.toUInt64.toFloat / (Nat.toUInt64 100).toFloat

/-- The place of a percentile, counted from one, as the machine computes it. -/
def machineRank (percent count : Nat) : Nat :=
  max 1 (min count ⌈(Binary64.ofFloat (machineHundredths percent * count.toUInt64.toFloat)).value⌉₊)

theorem exists_of_machineHundredths_eq {percent : Nat} (significand : Nat)
    (hleast : 2 ^ 52 ≤ significand) (hmost : significand < 2 ^ 53)
    (hfloat : machineHundredths percent =
      Normal.toFloat ⟨significand, -53, hleast, hmost, by decide, by decide⟩)
    (hle : significand * 100 ≤ percent * 2 ^ 53)
    (hge : percent * 2 ^ 54 ≤ (significand * 2 + 1) * 100) :
    ∃ x : Normal, machineHundredths percent = x.toFloat ∧ x.exponent = -53 ∧
      x.value ≤ percent / 100 ∧ percent / 100 ≤ x.value + 1 / 2 ^ 54 := by
  have hle' : (significand : ℚ) * 100 ≤ percent * 2 ^ 53 := by exact_mod_cast hle
  have hge' : (percent : ℚ) * 2 ^ 54 ≤ (significand * 2 + 1) * 100 := by exact_mod_cast hge
  have hvalue : (significand : ℚ) * 2 ^ (-53 : Int) = significand / 2 ^ 53 := by
    rw [zpow_neg, div_eq_mul_inv]
    norm_cast
  refine ⟨_, hfloat, rfl, ?_, ?_⟩
  · rw [Normal.value, hvalue]
    linarith
  · rw [Normal.value, hvalue]
    linarith

/-- The hundredths of the three percentiles are not too large, and they are too small by little. -/
theorem exists_machineHundredths {percent : Nat} (h : percent ∈ [50, 95, 99]) :
    ∃ x : Normal, machineHundredths percent = x.toFloat ∧ x.exponent = -53 ∧
      x.value ≤ percent / 100 ∧ percent / 100 ≤ x.value + 1 / 2 ^ 54 := by
  simp only [List.mem_cons, List.not_mem_nil, or_false] at h
  rcases h with rfl | rfl | rfl
  · exact exists_of_machineHundredths_eq (2 ^ 52) (by decide) (by decide) (by decide) (by decide)
      (by decide)
  · exact exists_of_machineHundredths_eq 8556839292003942 (by decide) (by decide) (by decide)
      (by decide) (by decide)
  · exact exists_of_machineHundredths_eq 8917127262193582 (by decide) (by decide) (by decide)
      (by decide) (by decide)

/-- A product that is rounded like that does not pass a whole number. -/
theorem ceil_eq_of_isRounded {hundredths kept : ℚ} {unit : Int} {percent count : Nat}
    (hpercent : percent ≤ 100) (hsome : 0 < percent * count) (hcount : count < 2 ^ 45)
    (hle : hundredths ≤ percent / 100) (hge : percent / 100 ≤ hundredths + 1 / 2 ^ 54)
    (hunit : 2 ^ 52 * 2 ^ unit ≤ hundredths * count)
    (hkept : IsRounded (hundredths * count) (2 ^ unit) kept) :
    ⌈kept⌉₊ = (percent * count + 99) / 100 := by
  obtain ⟨rank, hrank⟩ : ∃ rank, rank = (percent * count + 99) / 100 := ⟨_, rfl⟩
  have hpos : 0 < rank := by omega
  have habove : percent * count ≤ 100 * rank := by omega
  have hbelow : 100 * rank ≤ percent * count + 99 := by omega
  have habove' : (percent : ℚ) * count ≤ 100 * rank := by exact_mod_cast habove
  have hbelow' : 100 * (rank : ℚ) ≤ percent * count + 99 := by exact_mod_cast hbelow
  have hcount' : (count : ℚ) < 2 ^ 45 := by exact_mod_cast hcount
  have hpercent' : (percent : ℚ) ≤ 100 := by exact_mod_cast hpercent
  have hnonneg : (0 : ℚ) ≤ count := Nat.cast_nonneg count
  have hproduct : hundredths * count ≤ percent / 100 * count :=
    mul_le_mul_of_nonneg_right hle hnonneg
  have hproduct' : percent / 100 * count ≤ (hundredths + 1 / 2 ^ 54) * count :=
    mul_le_mul_of_nonneg_right hge hnonneg
  -- the unit and what the hundredths lack add up to less than a hundredth
  have hstep : (2 : ℚ) ^ unit < 1 / 2 ^ 7 := by
    have hall : (percent : ℚ) * count ≤ 100 * count := mul_le_mul_of_nonneg_right hpercent' hnonneg
    linarith
  rw [← hrank, Nat.ceil_eq_iff hpos.ne', Nat.cast_pred hpos]
  constructor
  · have hnear := (abs_lt.mp hkept.near).1
    linarith
  · exact hkept.le_natCast (by linarith) (by linarith)

/-- The machine finds the nearest rank. -/
theorem machineRank_eq {percent count : Nat} (hpercent : percent ∈ [50, 95, 99])
    (hpos : 0 < count) (hcount : count < 2 ^ 45) :
    machineRank percent count = nearestRank percent count := by
  obtain ⟨x, hx, hexponent, hle, hge⟩ := exists_machineHundredths hpercent
  have hlt : count < 2 ^ 53 := by omega
  obtain ⟨hlow, hhigh⟩ := Normal.exponent_ofNat_bounds hpos hlt
  obtain ⟨z, unit, hproduct, hunit, hrounded⟩ :=
    x.exists_mul (.ofNat count hpos hlt) (by omega) (by omega)
  have hpercent' : 0 < percent ∧ percent ≤ 100 := by
    simp only [List.mem_cons, List.not_mem_nil, or_false] at hpercent
    omega
  rw [Normal.value_ofNat] at hunit hrounded
  rw [machineRank, nearestRank, hx, ← Normal.toFloat_ofNat hpos hlt, hproduct, Normal.value_ofFloat_toFloat,
    ceil_eq_of_isRounded hpercent'.2 (Nat.mul_pos hpercent'.1 hpos) hcount hle hge hunit hrounded]

def FitsMachine (n : Int) : Prop := shortest ≤ n ∧ n ≤ longest

instance (n : Int) : Decidable (FitsMachine n) := inferInstanceAs (Decidable (_ ∧ _))

/-- The sum of values, with none if a partial sum leaves 64 bits. -/
def machineSum (values : List Int) : Option Int :=
  values.foldlM (fun sum value ↦ if FitsMachine (sum + value) then some (sum + value) else none) 0

/-- The sum is there if all partial sums fit, and then it is exact. -/
theorem machineSum_eq {values : List Int} (h : ∀ front, front <+: values → FitsMachine front.sum) :
    machineSum values = some values.sum := by
  induction values using List.reverseRecOn with
  | nil => rfl
  | append_singleton front last ih =>
    have hfront := ih fun part hpart ↦ h part (hpart.trans (List.prefix_append ..))
    have hall := h _ List.prefix_rfl
    rw [machineSum, List.foldlM_append, ← machineSum, hfront]
    simp only [List.sum_append, List.sum_singleton] at hall ⊢
    simp [hall]

/-- The first of sorted values is the least one. -/
theorem isLeast_head {first : Int} {others : List Int}
    (h : (first :: others).Pairwise (· ≤ ·)) : IsLeast {value | value ∈ first :: others} first := by
  refine ⟨List.mem_cons_self, fun value (hvalue : value ∈ first :: others) ↦ ?_⟩
  rcases List.mem_cons.mp hvalue with rfl | hvalue
  · exact le_rfl
  · exact (List.pairwise_cons.mp h).1 value hvalue

/-- The last of sorted values is the greatest one. -/
theorem isGreatest_getLast {sorted : List Int} (h : sorted.Pairwise (· ≤ ·)) (hsome : sorted ≠ []) :
    IsGreatest {value | value ∈ sorted} (sorted.getLast hsome) := by
  refine ⟨List.getLast_mem hsome, fun value (hvalue : value ∈ sorted) ↦ ?_⟩
  have hsplit := List.dropLast_append_getLast hsome
  rw [← hsplit, List.pairwise_append] at h
  rw [← hsplit, List.mem_append, List.mem_singleton] at hvalue
  rcases hvalue with hfront | rfl
  · exact h.2.2 value hfront _ (List.mem_singleton_self _)
  · exact le_rfl

def machinePercentile (sorted : List Int) (percent : Nat) : Int :=
  sorted.getD (machineRank percent sorted.length - 1) 0

/-- What a summary says of durations. -/
structure Summary.Describes (summary : Summary) (durations : List Int) : Prop where
  count : summary.count = durations.length
  total : summary.total = durations.sum
  least : IsLeast {duration | duration ∈ durations} summary.least
  greatest : IsGreatest {duration | duration ∈ durations} summary.greatest
  p50 : IsPercentile durations 50 summary.p50
  p95 : IsPercentile durations 95 summary.p95
  p99 : IsPercentile durations 99 summary.p99

namespace Histogram

/-- The summary of the rows as the machine computes it. -/
def machineSummary (histogram : Histogram) : Option Summary :=
  match histogram.sortedDurations with
  | [] => none
  | least :: others => do
    let sorted := least :: others
    let total ← machineSum sorted
    return {
      count := sorted.length
      total
      least
      greatest := sorted.getLastD least
      mean := .ofFloat (Float.ofInt total / Float.ofNat sorted.length)
      p50 := machinePercentile sorted 50
      p95 := machinePercentile sorted 95
      p99 := machinePercentile sorted 99 }

variable {histogram other : Histogram}

theorem pairwise_sortedDurations (histogram : Histogram) :
    histogram.sortedDurations.Pairwise (· ≤ ·) :=
  @pairwise_mergeSort_key _ id _ _ fun _ _ _ _ ↦ rfl

theorem perm_sortedDurations (histogram : Histogram) :
    histogram.sortedDurations.Perm (histogram.rows.map (·.duration)) :=
  List.mergeSort_perm ..

/-- The order of the rows is lost when their durations are sorted. -/
theorem sortedDurations_eq_of_perm (h : other.rows.Perm histogram.rows) :
    other.sortedDurations = histogram.sortedDurations := by
  have hperm : other.sortedDurations.Perm histogram.sortedDurations :=
    (perm_sortedDurations other).trans
      ((h.map (·.duration)).trans (perm_sortedDurations histogram).symm)
  exact hperm.eq_of_pairwise (fun a b _ _ hab hba ↦ le_antisymm hab hba)
    (pairwise_sortedDurations other) (pairwise_sortedDurations histogram)

/-- The summary describes the durations of the rows. -/
theorem describes_of_summary {summary : Summary} (h : histogram.summary = some summary) :
    summary.Describes (histogram.rows.map (·.duration)) := by
  have hsorted := pairwise_sortedDurations histogram
  have hperm := perm_sortedDurations histogram
  unfold Histogram.summary at h
  split at h
  · cases h
  · next least others hdurations =>
    obtain rfl := Option.some.inj h
    rw [hdurations] at hsorted hperm
    have hsome : 0 < (least :: others).length := Nat.succ_pos _
    have hpercentile {percent : Nat} (hpos : 0 < percent) (hle : percent ≤ 100) :
        IsPercentile (histogram.rows.map (·.duration)) percent
          (percentile (least :: others) percent) :=
      (isPercentile_percentile hsorted hpos hle hsome).of_perm hperm
    exact {
      count := hperm.length_eq
      total := List.sum_eq_foldl.symm.trans hperm.sum_eq
      least := by
        simp only [← hperm.mem_iff]
        exact isLeast_head hsorted
      greatest := by
        simp only [← hperm.mem_iff]
        rw [List.getLastD_cons, ← List.getLast_eq_getLastD]
        exact isGreatest_getLast hsorted (List.cons_ne_nil _ _)
      p50 := hpercentile (by decide) (by decide)
      p95 := hpercentile (by decide) (by decide)
      p99 := hpercentile (by decide) (by decide) }

/-- The machine computes the summary if no partial sum leaves 64 bits. -/
theorem machineSummary_eq
    (hsum : ∀ front, front <+: histogram.sortedDurations → FitsMachine front.sum)
    (hcount : histogram.rows.length < 2 ^ 45) : histogram.machineSummary = histogram.summary := by
  have hlength : histogram.sortedDurations.length = histogram.rows.length := by
    rw [(perm_sortedDurations histogram).length_eq, List.length_map]
  rw [← hlength] at hcount
  unfold machineSummary Histogram.summary
  cases hdurations : histogram.sortedDurations with
  | nil => rfl
  | cons least others =>
    rw [hdurations] at hsum hcount
    have hsome : 0 < (least :: others).length := Nat.succ_pos _
    have hpercentile (percent : Nat) (hpercent : percent ∈ [50, 95, 99]) :
        machinePercentile (least :: others) percent = percentile (least :: others) percent := by
      rw [machinePercentile, machineRank_eq hpercent hsome hcount, percentile]
    have htotal : machineSum (least :: others) = some ((least :: others).foldl (· + ·) 0) := by
      rw [machineSum_eq hsum, List.sum_eq_foldl]
    simp only [htotal, hpercentile 50 (by decide), hpercentile 95 (by decide),
      hpercentile 99 (by decide)]
    rfl

/-- The summary of a histogram with a row. It describes the durations of the rows: the percentiles
are durations of rows, and they stand in their order between the least and the greatest one. It
is the same for rows in another order, and it is what the machine computes unless a partial sum
leaves 64 bits or there are more rows than ranks are exact for. -/
theorem exists_summary_describes (histogram : Histogram) (hrows : histogram.rows ≠ []) :
    ∃ summary, histogram.summary = some summary ∧
      summary.Describes (histogram.rows.map (·.duration)) ∧
      (summary.least ≤ summary.p50 ∧ summary.p50 ≤ summary.p95 ∧ summary.p95 ≤ summary.p99 ∧
        summary.p99 ≤ summary.greatest) ∧
      (∀ other : Histogram, other.rows.Perm histogram.rows → other.summary = some summary) ∧
      ((∀ front, front <+: histogram.sortedDurations → FitsMachine front.sum) →
        histogram.rows.length < 2 ^ 45 → histogram.machineSummary = some summary) := by
  obtain ⟨summary, hsummary⟩ : ∃ summary, histogram.summary = some summary := by
    unfold Histogram.summary
    cases hdurations : histogram.sortedDurations with
    | nil =>
      have hperm := perm_sortedDurations histogram
      rw [hdurations] at hperm
      exact absurd (List.map_eq_nil_iff.mp hperm.nil_eq.symm) hrows
    | cons least others => exact ⟨_, rfl⟩
  have hdescribes := describes_of_summary hsummary
  refine ⟨summary, hsummary, hdescribes, ⟨?_, ?_, ?_, ?_⟩, fun other hother ↦ ?_,
    fun hsum hcount ↦ ?_⟩
  · exact hdescribes.least.2 hdescribes.p50.mem
  · exact hdescribes.p50.le_of_le hdescribes.p95 (by decide)
  · exact hdescribes.p95.le_of_le hdescribes.p99 (by decide)
  · exact hdescribes.greatest.2 hdescribes.p99.mem
  · rw [← hsummary, Histogram.summary, Histogram.summary, sortedDurations_eq_of_perm hother]
  · rw [machineSummary_eq hsum hcount, hsummary]

end Histogram

namespace Scattered

/-- Two of four rows take equally long. -/
def histogram : Histogram :=
  { fnTag := "read", selected := 5, rows := [⟨1, 10⟩, ⟨2, 4⟩, ⟨3, 10⟩, ⟨4, 7⟩],
    findings := [.incompleteSpan 5 .finish] }

theorem sortedDurations_eq : histogram.sortedDurations = [4, 7, 10, 10] := by cbv

end Scattered

/-- Two of the four rows take 7 at most, and the rest of them take 10. -/
theorem Histogram.exists_summary_describes_of_scattered : ∃ summary,
    Scattered.histogram.summary = some summary ∧
      Scattered.histogram.machineSummary = some summary ∧ summary.total = 31 ∧
      summary.p50 = 7 ∧ summary.p99 = 10 := by
  obtain ⟨summary, hsummary, hdescribes, -, -, hmachine⟩ :=
    exists_summary_describes Scattered.histogram (by decide)
  have hsum : ∀ front, front <+: Scattered.histogram.sortedDurations → FitsMachine front.sum := by
    intro front hfront
    rw [Scattered.sortedDurations_eq, ← List.mem_inits] at hfront
    revert front
    decide
  have hsorted : ([4, 7, 10, 10] : List Int).Pairwise (· ≤ ·) := by decide
  have hperm : [4, 7, 10, 10].Perm (Scattered.histogram.rows.map (·.duration)) := by decide
  have h50 : IsPercentile [4, 7, 10, 10] 50 7 :=
    isPercentile_percentile hsorted (by decide) (by decide) (by decide)
  have h99 : IsPercentile [4, 7, 10, 10] 99 10 :=
    isPercentile_percentile hsorted (by decide) (by decide) (by decide)
  exact ⟨summary, hsummary, hmachine hsum (by decide), hdescribes.total,
    hdescribes.p50.unique (h50.of_perm hperm), hdescribes.p99.unique (h99.of_perm hperm)⟩

end OpTrace
