import Mathlib
import OpTrace.Proofs.Sample
import OpTrace.Proofs.Store.Grouping
import OpTrace.Proofs.Store.Matching

/-!
# Databases answer like traces in memory

A database and a trace in memory that hold the same rows give the same answers, in whatever order
the rows were written and arrived, as long as no two rows of a relation have the same number. For
questions about a pattern this asks of the database that it matches the pattern against the tags
character by character, with the letters of the ASCII alphabet in either case. It does so for every
pattern that is not too long, if all characters have letters of their own.
-/

namespace OpTrace

/-- The database takes the pattern, and matches it against the tag character by character. -/
def TagPattern.IsMatchedByCharacter (pattern : TagPattern) (tag : String) : Prop :=
  pattern.text.utf8ByteSize ≤ Database.patternBound ∧
    ((Cell.text tag).isMatched pattern = true ↔
      Glyph.Matches pattern.glyphs (tag.toList.map Char.toLower))

theorem TagPattern.isMatchedByCharacter_of_isProper {pattern : TagPattern} {tag : String}
    (hsize : pattern.text.utf8ByteSize ≤ Database.patternBound)
    (hpattern : pattern.text.toList.all Letter.isProper = true)
    (htag : tag.toList.all Letter.isProper = true) : pattern.IsMatchedByCharacter tag :=
  ⟨hsize, Cell.isMatched_text_iff hpattern htag⟩

/-- The stores give the same answers, to questions about a pattern if it is one of `patterns`. -/
structure Store.Agree (store other : Store) (patterns : TagPattern → Prop) : Prop where
  statesOf : ∀ opid, store.statesOf opid = other.statesOf opid
  statesTagged : ∀ pattern, patterns pattern →
    store.statesTagged pattern = other.statesTagged pattern
  attributesOf : ∀ opid, store.attributesOf opid = other.attributesOf opid
  mapsInto : ∀ opid, store.mapsInto opid = other.mapsInto opid
  mapsFrom : ∀ opid, store.mapsFrom opid = other.mapsFrom opid
  mapsClearedBy : ∀ opid, store.mapsClearedBy opid = other.mapsClearedBy opid
  opidsTagged : ∀ pattern, patterns pattern → ∀ window,
    store.opidsTagged pattern window = other.opidsTagged pattern window

theorem Store.Agree.refl (store : Store) {patterns : TagPattern → Prop} :
    store.Agree store patterns where
  statesOf _ := rfl
  statesTagged _ _ := rfl
  attributesOf _ := rfl
  mapsInto _ := rfl
  mapsFrom _ := rfl
  mapsClearedBy _ := rfl
  opidsTagged _ _ _ := rfl

/-- Rows with different numbers make one trace, in whatever order they arrive. -/
theorem Trace.ofRows_eq_of_perm {states states' : List StateRow}
    {attributes attributes' : List AttributeRow} {maps maps' : List MapRow}
    (hstates : states'.Perm states) (hattributes : attributes'.Perm attributes)
    (hmaps : maps'.Perm maps) (hstatesId : (states.map rowId).Nodup)
    (hattributesId : (attributes.map rowId).Nodup) (hmapsId : (maps.map rowId).Nodup) :
    ofRows states' attributes' maps' = ofRows states attributes maps := by
  simp only [ofRows, Log.ofList, Log.sortRows_eq_of_perm hstates hstatesId,
    Log.sortRows_eq_of_perm hattributes hattributesId, Log.sortRows_eq_of_perm hmaps hmapsId]

namespace Database

variable {states states' : List StateRow} {attributes attributes' : List AttributeRow}
  {maps maps' : List MapRow} {pattern : TagPattern}

theorem checkPattern_ofRows (h : ∀ row ∈ states, pattern.IsMatchedByCharacter row.fnTag) :
    (ofRows states attributes maps).checkPattern pattern = .ok () := by
  refine if_neg fun ⟨hlong, hany⟩ ↦ ?_
  cases states with
  | nil => cases hany
  | cons row states =>
    have := (h row List.mem_cons_self).1
    omega

/-- Where a pattern is matched by character, a database selects the rows that a trace selects. -/
theorem filter_isMatched (h : ∀ row ∈ states, pattern.IsMatchedByCharacter row.fnTag) :
    (Log.sortRows states).filter (fun row ↦ (Cell.text row.fnTag).isMatched pattern) =
      (Trace.ofRows states attributes maps).statesTagged pattern := by
  refine List.filter_congr fun row hrow ↦ ?_
  have hmatched := (h row (List.mem_mergeSort.mp hrow)).2
  rw [Bool.eq_iff_iff, hmatched, TagPattern.matchesTag_iff]

/-- The order of first appearance among the matching rows is the order of the groups. -/
theorem answerOpids_eq_firstAppearances (hnodup : (states.map rowId).Nodup)
    (h : ∀ row ∈ states, pattern.IsMatchedByCharacter row.fnTag) :
    (ofRows states attributes maps).answerOpids (·.fnTag.isMatched pattern) =
      .ok (Trace.firstAppearances []
        (((Trace.ofRows states attributes maps).statesTagged pattern).map (·.opid))) := by
  rw [answerOpids_ofRows _ hnodup, ← filter_isMatched h]
  rfl

/-- A database and a trace with the same rows agree. -/
theorem agree_ofRows (hstates : (states.map rowId).Nodup) :
    (ofRows states attributes maps).toStore.Agree (Trace.ofRows states attributes maps).toStore
      fun pattern ↦ ∀ row ∈ states, pattern.IsMatchedByCharacter row.fnTag where
  statesOf _ := answerStates_ofRows fun _ ↦ rfl
  statesTagged pattern h := by
    refine bind_eq_ok.mpr ⟨(), checkPattern_ofRows h, ?_⟩
    rw [← filter_isMatched h]
    exact answerStates_ofRows fun _ ↦ rfl
  attributesOf _ := answerAttributes_ofRows fun _ ↦ rfl
  mapsInto _ := answerMaps_ofRows fun _ ↦ rfl
  mapsFrom _ := answerMaps_ofRows fun _ ↦ rfl
  mapsClearedBy _ := answerMaps_ofRows fun _ ↦ rfl
  opidsTagged pattern h window := by
    refine bind_eq_ok.mpr ⟨(), checkPattern_ofRows h, ?_⟩
    exact bind_eq_ok.mpr ⟨_, answerOpids_eq_firstAppearances hstates h, rfl⟩

/-- What a database answers. Its rows may have been written in any order, and the rows of the trace
may have arrived in any other. The two agree, and what comes from the groups is the order of first
appearance. -/
theorem agree_of_perm (hstates : states'.Perm states) (hattributes : attributes'.Perm attributes)
    (hmaps : maps'.Perm maps) (hstatesId : (states.map rowId).Nodup)
    (hattributesId : (attributes.map rowId).Nodup) (hmapsId : (maps.map rowId).Nodup) :
    (ofRows states' attributes' maps').toStore.Agree (Trace.ofRows states attributes maps).toStore
        (fun pattern ↦ ∀ row ∈ states, pattern.IsMatchedByCharacter row.fnTag) ∧
      ∀ pattern : TagPattern, (∀ row ∈ states, pattern.IsMatchedByCharacter row.fnTag) →
        (ofRows states' attributes' maps').answerOpids (·.fnTag.isMatched pattern) =
          .ok (Trace.firstAppearances []
            (((Trace.ofRows states attributes maps).statesTagged pattern).map (·.opid))) := by
  have hstatesId' : (states'.map rowId).Nodup := (hstates.map rowId).nodup_iff.mpr hstatesId
  rw [← Trace.ofRows_eq_of_perm hstates hattributes hmaps hstatesId hattributesId hmapsId]
  simp only [← hstates.mem_iff]
  exact ⟨agree_ofRows hstatesId', fun pattern ↦ answerOpids_eq_firstAppearances hstatesId'⟩

end Database

namespace Shuffled

open Sample

/-- Operation 3 comes first, and the letters of its tag are not all in lower case. -/
def states : List StateRow :=
  [⟨header 1 10 "FSAL_read", 3, .init⟩, ⟨header 2 20 "fsal_write", 1, .init⟩,
    ⟨header 3 30 "cfs_read", 2, .init⟩, ⟨header 4 40 "fsal_read", 3, .finish⟩]

def attributes : List AttributeRow :=
  [⟨header 1 10 "fsal_read", 3, "size", "4096"⟩, ⟨header 2 20 "fsal_read", 3, "offset", "0"⟩]

def maps : List MapRow :=
  [⟨header 1 10 "fsal_read", "calls", 3, 1, 1⟩, ⟨header 2 20 "cfs_read", "calls", 2, 3, 1⟩]

def pattern : TagPattern := ⟨"fsal%", by decide⟩

theorem isMatchedByCharacter : ∀ row ∈ states, pattern.IsMatchedByCharacter row.fnTag := by
  have htags : ∀ row ∈ states, row.fnTag.toList.all Letter.isProper = true := by decide
  exact fun row hrow ↦
    TagPattern.isMatchedByCharacter_of_isProper (by decide) (by decide) (htags row hrow)

end Shuffled

/-- The database was written from the last row to the first and has the answers of the trace. -/
theorem Database.agree_of_shuffled :
    (ofRows Shuffled.states.reverse Shuffled.attributes.reverse
        Shuffled.maps.reverse).toStore.Agree
      (Trace.ofRows Shuffled.states Shuffled.attributes Shuffled.maps).toStore
      (fun pattern ↦ ∀ row ∈ Shuffled.states, pattern.IsMatchedByCharacter row.fnTag) ∧
    (ofRows Shuffled.states.reverse Shuffled.attributes.reverse
        Shuffled.maps.reverse).toStore.opidsTagged Shuffled.pattern {} = .ok [3, 1] := by
  obtain ⟨hagree, -⟩ := agree_of_perm Shuffled.states.reverse_perm
    Shuffled.attributes.reverse_perm Shuffled.maps.reverse_perm (by decide) (by decide) (by decide)
  refine ⟨hagree, (hagree.opidsTagged _ Shuffled.isMatchedByCharacter {}).trans ?_⟩
  cbv

end OpTrace
