import OpTrace.Interval
import OpTrace.Proofs.Answer

/-!
# Where findings come from

Resolving an operation gives at most one finding, which discards it. Reading its annotations gives
findings about interval markers only, and these discard nothing.
-/

namespace OpTrace

namespace Finding

def isMarker : Finding → Bool
  | unmatchedStart _ _ _ => true
  | orphanedEnd _ _ _ => true
  | invertedInterval _ _ _ _ => true
  | _ => false

theorem discardsSpan_of_isMarker {finding : Finding} (h : finding.isMarker = true) :
    finding.discardsSpan = false := by
  cases finding <;> simp_all [isMarker, discardsSpan]

end Finding

namespace Findings

def discardsOf (findings : Findings) (opid : OpId) : Nat :=
  findings.countP fun finding ↦ finding.discardsSpan && finding.opid == opid

@[simp] theorem discardsOf_append (findings more : Findings) (opid : OpId) :
    discardsOf (findings ++ more) opid = findings.discardsOf opid + more.discardsOf opid :=
  List.countP_append

theorem discardsOf_eq_zero {findings : Findings} {opid : OpId}
    (h : ∀ finding ∈ findings, finding.discardsSpan = false) : findings.discardsOf opid = 0 := by
  rw [discardsOf, List.countP_eq_zero]
  intro finding hfinding
  simp [h finding hfinding]

end Findings

theorem Sighting.discards_of_resolve {seen : Sighting} {opid : OpId} {finding : Finding}
    (h : seen.resolve opid = .incomplete finding) :
    finding.discardsSpan = true ∧ finding.opid = opid := by
  unfold Sighting.resolve at h
  split at h
  · split at h
    · cases h
      exact ⟨rfl, rfl⟩
    · cases h
  all_goals
    cases h
    exact ⟨rfl, rfl⟩

theorem Store.discards_of_resolve {store : Store} {opid : OpId} {finding : Finding}
    (h : store.resolve opid = .ok (.incomplete finding)) :
    finding.discardsSpan = true ∧ finding.opid = opid := by
  obtain ⟨rows, -, h⟩ := bind_eq_ok.mp h
  have hresolve := pure_eq_ok.mp h
  exact Sighting.discards_of_resolve hresolve

namespace Pairing

def OnlyMarkers (state : Pairing) : Prop := ∀ finding ∈ state.findings, finding.isMarker = true

variable {state : Pairing} {opid : OpId}

theorem onlyMarkers_found (h : state.OnlyMarkers) {finding : Finding}
    (hfinding : finding.isMarker = true) : (state.found finding).OnlyMarkers := by
  intro other hother
  rcases List.mem_append.mp hother with hold | hnew
  · exact h other hold
  · rw [List.mem_singleton.mp hnew]
    exact hfinding

theorem onlyMarkers_abandon (h : state.OnlyMarkers) : (state.abandon opid).OnlyMarkers := by
  unfold abandon
  split
  · exact h
  · exact onlyMarkers_found h rfl

theorem onlyMarkers_close (h : state.OnlyMarkers) (row : AttributeRow) (label : String) :
    (state.close opid row label).OnlyMarkers := by
  unfold close
  split
  · exact onlyMarkers_found h rfl
  · dsimp only
    split
    · have hclosed : OnlyMarkers { state with opened := none } := h
      exact onlyMarkers_found hclosed rfl
    · exact h

theorem onlyMarkers_see (h : state.OnlyMarkers) (row : AttributeRow) :
    (state.see opid row).OnlyMarkers := by
  unfold see
  split
  · exact h
  · exact onlyMarkers_abandon h
  · exact onlyMarkers_close h row _

theorem onlyMarkers_foldl (h : state.OnlyMarkers) (rows : List AttributeRow) :
    (rows.foldl (see opid) state).OnlyMarkers := by
  induction rows generalizing state with
  | nil => exact h
  | cons row rows ih => exact ih (onlyMarkers_see h row)

end Pairing

/-- Annotations come with findings about markers only. -/
theorem Annotations.isMarker_of_mem_findings {opid : OpId} {rows : List AttributeRow}
    {finding : Finding} (h : finding ∈ (Annotations.ofAttributes opid rows).findings) :
    finding.isMarker = true :=
  Pairing.onlyMarkers_abandon (Pairing.onlyMarkers_foldl (by simp [Pairing.OnlyMarkers]) _) _ h

theorem Annotations.discardsOf_findings (opid other : OpId) (rows : List AttributeRow) :
    Findings.discardsOf (Annotations.ofAttributes opid rows).findings other = 0 :=
  Findings.discardsOf_eq_zero fun _ hfinding ↦
    Finding.discardsSpan_of_isMarker (Annotations.isMarker_of_mem_findings hfinding)

theorem Annotations.cycleSkipped_notMem_findings {opid : OpId} {rows : List AttributeRow}
    (map : Int) (src attach : OpId) :
    .cycleSkipped map src attach ∉ (Annotations.ofAttributes opid rows).findings := by
  intro h
  have hmarker := Annotations.isMarker_of_mem_findings h
  simp [Finding.isMarker] at hmarker

end OpTrace
