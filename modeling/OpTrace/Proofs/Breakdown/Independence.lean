import OpTrace.Proofs.Breakdown.Tally

/-!
# Tags that do not interfere

A ledger answers for one child after another, each under the tag of its time. An answer under a tag
rests on the bookings under this tag alone, and a child under another tag makes none of them. Two
ledgers that agree under a tag therefore go on to agree, whatever children under other tags one of
them receives in between: what a ledger says under a tag, and what it has booked under it in the
end, is the same as if it had received no others. No booking is taken back.

The same holds of a breakdown: what becomes of the descendants with a tag, and under which key a
duplicate was booked before, is what becomes of them when no others are seen.
-/

namespace OpTrace

namespace Ledger

/-- A child that comes before the ledger: the tag of its time, and the map row that reached it. -/
structure Entry where
  smTag : String
  row : MapRow
  deriving DecidableEq, Repr

/-- What the ledger says of children, each answer beside its child. -/
def answers (ledger : Ledger) : List Entry → List (Entry × Admission)
  | [] => []
  | entry :: entries =>
    (entry, (ledger.receive entry.smTag entry.row).1) ::
      (ledger.receive entry.smTag entry.row).2.answers entries

/-- The ledger after it has received children. -/
def receiveAll (ledger : Ledger) (entries : List Entry) : Ledger :=
  entries.foldl (fun ledger entry ↦ (ledger.receive entry.smTag entry.row).2) ledger

/-- The children under a tag. -/
def under (tag : String) (entries : List Entry) : List Entry := entries.filter (·.smTag = tag)

variable {tag other : String} {ledger second : Ledger} {entry : Entry} {entries : List Entry}
  {opid : OpId}

theorem under_cons_self :
    under entry.smTag (entry :: entries) = entry :: under entry.smTag entries :=
  List.filter_cons_of_pos (decide_eq_true rfl)

theorem under_cons_of_ne (h : entry.smTag ≠ tag) :
    under tag (entry :: entries) = under tag entries :=
  List.filter_cons_of_neg (by simpa using h)

@[simp] theorem receiveAll_cons (ledger : Ledger) (entry : Entry) (entries : List Entry) :
    ledger.receiveAll (entry :: entries) =
      (ledger.receive entry.smTag entry.row).2.receiveAll entries :=
  rfl

theorem receiveAll_append (ledger : Ledger) (entries later : List Entry) :
    ledger.receiveAll (entries ++ later) = (ledger.receiveAll entries).receiveAll later :=
  List.foldl_append

/-- Whatever the ledger says of a child, it makes one booking, under the tag of the child. -/
theorem exists_book_receive (ledger : Ledger) (tag : String) (row : MapRow) :
    ∃ booked, (ledger.receive tag row).2 = ledger.book tag booked := by
  rw [receive]
  cases ledger.match? tag row with
  | none => exact ⟨row.clr, rfl⟩
  | some key => exact ⟨row.src, rfl⟩

/-- Two ledgers with the same bookings under a tag. -/
def Agree (tag : String) (ledger second : Ledger) : Prop :=
  ∀ opid, ledger.contains tag opid = second.contains tag opid

namespace Agree

theorem refl (tag : String) (ledger : Ledger) : Agree tag ledger ledger := fun _ ↦ rfl

theorem trans {third : Ledger} (h : Agree tag ledger second) (h' : Agree tag second third) :
    Agree tag ledger third :=
  fun opid ↦ (h opid).trans (h' opid)

theorem match?_eq (h : Agree tag ledger second) (row : MapRow) :
    ledger.match? tag row = second.match? tag row := by
  rw [match?, match?, h, h]

theorem book (h : Agree tag ledger second) (booked : OpId) :
    Agree tag (ledger.book tag booked) (second.book tag booked) := by
  intro opid
  rw [Bool.eq_iff_iff, contains_book, contains_book, h]

/-- Ledgers that agree under a tag say the same of a child under it. -/
theorem receive_fst (h : Agree tag ledger second) (row : MapRow) :
    (ledger.receive tag row).1 = (second.receive tag row).1 := by
  rw [receive, receive, h.match?_eq row]
  cases second.match? tag row <;> rfl

/-- Ledgers that agree under a tag agree after a child under it. -/
theorem receive_snd (h : Agree tag ledger second) (row : MapRow) :
    Agree tag (ledger.receive tag row).2 (second.receive tag row).2 := by
  rw [receive, receive, h.match?_eq row]
  cases second.match? tag row with
  | none => exact h.book row.clr
  | some key => exact h.book row.src

end Agree

/-- A booking under another tag is none under this one. -/
theorem agree_book_of_ne (h : tag ≠ other) (ledger : Ledger) (booked : OpId) :
    Agree tag (ledger.book other booked) ledger := by
  intro opid
  rw [Bool.eq_iff_iff, contains_book, or_iff_right fun heq ↦ h heq.1]

/-- A child under another tag changes nothing under this one. -/
theorem agree_receive_of_ne (h : tag ≠ other) (ledger : Ledger) (row : MapRow) :
    Agree tag (ledger.receive other row).2 ledger := by
  obtain ⟨booked, hbooked⟩ := ledger.exists_book_receive other row
  rw [hbooked]
  exact agree_book_of_ne h ledger booked

/-- Two ledgers that agree under a tag, of which one receives children and the other only those
among them under the tag, say the same of these and agree afterwards. -/
theorem Agree.answers_under (h : Agree tag ledger second) (entries : List Entry) :
    (ledger.answers entries).filter (·.1.smTag = tag) = second.answers (under tag entries) ∧
      Agree tag (ledger.receiveAll entries) (second.receiveAll (under tag entries)) := by
  induction entries generalizing ledger second with
  | nil => exact ⟨rfl, h⟩
  | cons entry entries ih =>
    by_cases htag : entry.smTag = tag
    · subst htag
      obtain ⟨hanswers, hbookings⟩ := ih (h.receive_snd entry.row)
      rw [under_cons_self, receiveAll_cons, receiveAll_cons, answers, answers,
        h.receive_fst entry.row, ← hanswers]
      exact ⟨List.filter_cons_of_pos (by simp), hbookings⟩
    · -- the second ledger does not receive this child
      have hkept : Agree tag (ledger.receive entry.smTag entry.row).2 second :=
        (agree_receive_of_ne (Ne.symm htag) ledger entry.row).trans h
      rw [under_cons_of_ne htag, receiveAll_cons, answers,
        List.filter_cons_of_neg (by simpa using htag)]
      exact ih hkept

theorem contains_receive (h : ledger.contains tag opid = true) (other : String) (row : MapRow) :
    (ledger.receive other row).2.contains tag opid = true := by
  obtain ⟨booked, hbooked⟩ := ledger.exists_book_receive other row
  rw [hbooked]
  exact contains_book.mpr (.inr h)

theorem contains_receiveAll (h : ledger.contains tag opid = true) (entries : List Entry) :
    (ledger.receiveAll entries).contains tag opid = true := by
  induction entries generalizing ledger with
  | nil => exact h
  | cons entry entries ih => exact ih (contains_receive h entry.smTag entry.row)

/-- A ledger that receives children under many tags answers for those under one tag, and has booked
under it, what a ledger does that receives these alone. What is once booked stays booked. -/
theorem tags_independent (entries : List Entry) (tag : String) :
    (({} : Ledger).answers entries).filter (·.1.smTag = tag) =
        ({} : Ledger).answers (under tag entries) ∧
      (∀ opid, (({} : Ledger).receiveAll entries).contains tag opid =
        (({} : Ledger).receiveAll (under tag entries)).contains tag opid) ∧
      ∀ opid later, (({} : Ledger).receiveAll entries).contains tag opid = true →
        (({} : Ledger).receiveAll (entries ++ later)).contains tag opid = true := by
  obtain ⟨hanswers, hbookings⟩ := (Agree.refl tag {}).answers_under entries
  refine ⟨hanswers, hbookings, fun opid later h ↦ ?_⟩
  rw [receiveAll_append]
  exact contains_receiveAll h later

namespace Mixed

open Sample

/-- Operation 4 is booked under one tag when its clearance operation, 1, is met again. -/
def early : List Entry :=
  [⟨"CFS", mapRow 1 2 1 1⟩, ⟨"KVS", mapRow 2 3 1 1⟩, ⟨"CFS", mapRow 3 4 2 1⟩]

/-- Both children hang off operation 4, each under its tag. -/
def late : List Entry := [⟨"KVS", mapRow 4 5 4 4⟩, ⟨"CFS", mapRow 5 6 4 7⟩]

end Mixed

/-- Operation 5 is counted and operation 6 is a duplicate of operation 4, as they are without the
children under the other tag. -/
theorem tags_independent_of_mixed :
    (({} : Ledger).answers (under "KVS" (Mixed.early ++ Mixed.late))).map Prod.snd =
        [.counted, .counted] ∧
      (({} : Ledger).answers (under "CFS" (Mixed.early ++ Mixed.late))).map Prod.snd =
        [.counted, .duplicate ⟨"CFS", 1⟩, .duplicate ⟨"CFS", 4⟩] ∧
      (({} : Ledger).receiveAll Mixed.early).contains "CFS" 4 = true ∧
      (({} : Ledger).receiveAll (Mixed.early ++ Mixed.late)).contains "CFS" 4 = true := by
  have hbooked : (({} : Ledger).receiveAll Mixed.early).contains "CFS" 4 = true := by decide
  refine ⟨?_, ?_, hbooked, (tags_independent Mixed.early "CFS").2.2 4 Mixed.late hbooked⟩
  · rw [← (tags_independent (Mixed.early ++ Mixed.late) "KVS").1]
    decide
  · rw [← (tags_independent (Mixed.early ++ Mixed.late) "CFS").1]
    decide

end Ledger

namespace Tally

/-- The tag of a visit with a complete span. -/
def visitTag (visit : Visit) : Option String :=
  match visit.resolution with
  | .complete span => tagOf visit.row span
  | .incomplete _ => none

/-- A tally that is like another as far as one tag goes, and has attributions of no other tag. -/
structure Restricts (tag : String) (tally second : Tally) : Prop where
  agree : Ledger.Agree tag tally.ledger second.ledger
  attributions : tally.attributions.filter (·.smTag = some tag) = second.attributions

namespace Restricts

variable {tag : String} {table : CategoryTable} {tally second : Tally} {row : MapRow} {span : Span}

theorem note (h : Restricts tag tally second) (htag : tagOf row span = some tag)
    (outcome : Outcome) :
    (tally.note row span outcome).attributions.filter (·.smTag = some tag) =
      (second.note row span outcome).attributions := by
  simp [h.attributions, htag]

/-- A descendant with the tag has the same outcome in both tallies. -/
theorem assign (h : Restricts tag tally second) (htag : tagOf row span = some tag) :
    Restricts tag (tally.assign table row span) (second.assign table row span) := by
  cases hplace : placeOf table row span with
  | none =>
    simp only [Tally.assign, hplace]
    exact ⟨h.agree, h.note htag .uncategorised⟩
  | some place =>
    obtain ⟨own, index⟩ := place
    obtain rfl : tag = own := Option.some.inj (htag.symm.trans (placeOf_eq_some.mp hplace).1)
    have hmatch := h.agree.match?_eq row
    cases hfound : second.ledger.match? tag row with
    | none =>
      simp only [Tally.assign, Ledger.receive, hplace, hmatch, hfound]
      exact ⟨h.agree.book row.clr, h.note htag _⟩
    | some key =>
      simp only [Tally.assign, Ledger.receive, hplace, hmatch, hfound]
      exact ⟨h.agree.book row.src, h.note htag _⟩

/-- A descendant without the tag is not seen in the second tally. -/
theorem of_assigned_ne {next : Tally} (h : Restricts tag tally second)
    (htag : tagOf row span ≠ some tag) (hnext : Assigned table tally row span next) :
    Restricts tag next second where
  agree := by
    have hne {own : String} (hown : tagOf row span = some own) : tag ≠ own :=
      fun heq ↦ htag (heq ▸ hown)
    cases hnext with
    | uncategorised hplace => exact h.agree
    | counted hown => exact (Ledger.agree_book_of_ne (hne hown) tally.ledger row.clr).trans h.agree
    | duplicate hown =>
      exact (Ledger.agree_book_of_ne (hne hown) tally.ledger row.src).trans h.agree
  attributions := by
    obtain ⟨outcome, hadded⟩ := hnext.attributions
    simp [hadded, h.attributions, htag]

theorem foldl_see (h : Restricts tag tally second) (visits : List Visit) :
    Restricts tag (visits.foldl (see table) tally)
      ((visits.filter (visitTag · = some tag)).foldl (see table) second) := by
  induction visits generalizing tally second with
  | nil => exact h
  | cons visit visits ih =>
    cases hresolution : visit.resolution with
    | incomplete finding =>
      have hnone : visitTag visit = none := by rw [visitTag, hresolution]
      rw [List.foldl_cons, List.filter_cons_of_neg (by simp [hnone]), see, hresolution]
      exact ih h
    | complete span =>
      have hvisit : visitTag visit = tagOf visit.row span := by rw [visitTag, hresolution]
      by_cases htag : tagOf visit.row span = some tag
      · rw [List.filter_cons_of_pos (by simp [hvisit, htag]), List.foldl_cons, List.foldl_cons,
          see, see, hresolution]
        exact ih (h.assign htag)
      · rw [List.filter_cons_of_neg (by simp [hvisit, htag]), List.foldl_cons, see, hresolution]
        exact ih (h.of_assigned_ne htag (assigned_assign ..))

end Restricts

end Tally

/-- What a breakdown says of the descendants with a tag, it says of them also when no others are
seen. -/
theorem Breakdown.attributions_ofVisits_filter (table : CategoryTable) (total : Span)
    (visits : List Visit) (tag : String) :
    (ofVisits table total visits).attributions.filter (·.smTag = some tag) =
      (ofVisits table total (visits.filter (Tally.visitTag · = some tag))).attributions := by
  have hstart : Tally.Restricts tag (Tally.start table) (Tally.start table) := ⟨.refl tag _, rfl⟩
  exact (hstart.foldl_see visits).attributions

end OpTrace
