import Mathlib
import OpTrace.Proofs.Text.Markup
import OpTrace.Proofs.Text.Number
import OpTrace.Report.Chart

/-!
# Boxes in bar charts

Every box of a chart is an element of its own: the bars, and the colours of a legend. As texts and
values are escaped, a word that begins an element stands in a chart for each such element and
nowhere else. So the boxes of a chart can be counted in its text, whatever its names are.
-/

namespace OpTrace

namespace Chart

section Lines

variable {word : List Char} {lines : List (List Markup)}

theorem occurrences_line (hword : isName word) (hne : word ≠ []) {parts : List Markup}
    (h : Markup.areNamed parts) (rest : List Char) :
    occurrences ('<' :: word) (line parts ++ rest) =
      (Markup.tagsOf parts).countP (fun tag ↦ word <+: tag.toList) +
        occurrences ('<' :: word) rest := by
  have hline : line parts ++ rest = [' ', ' '] ++ (Markup.writeAll parts ++ (['\n'] ++ rest)) := by
    simp [line]
  rw [hline, occurrences_append_of_notMem (by decide),
    Markup.occurrences_writeAll hword hne parts h, occurrences_append_of_notMem (by decide)]

theorem occurrences_lines (hword : isName word) (hne : word ≠ [])
    (h : ∀ parts ∈ lines, Markup.areNamed parts) (rest : List Char) :
    occurrences ('<' :: word) (lines.flatMap line ++ rest) =
      (lines.flatMap Markup.tagsOf).countP (fun tag ↦ word <+: tag.toList) +
        occurrences ('<' :: word) rest := by
  induction lines with
  | nil => simp
  | cons parts lines ih =>
    have hlines := ih fun later hlater ↦ h later (List.mem_cons_of_mem parts hlater)
    rw [List.flatMap_cons, List.append_assoc,
      occurrences_line hword hne (h parts List.mem_cons_self), hlines, List.flatMap_cons,
      List.countP_append, Nat.add_assoc]

/-- A bracket with a word behind it stands in a picture for each element whose tag begins with the
word: the picture itself and what is in its lines. -/
theorem occurrences_picture (frame : Frame) (hword : isName word) (hne : word ≠ [])
    (h : ∀ parts ∈ lines, Markup.areNamed parts) :
    occurrences ('<' :: word) (picture frame lines).toList =
      ("svg" :: lines.flatMap Markup.tagsOf).countP (fun tag ↦ word <+: tag.toList) := by
  have hsvg : isName "svg".toList := by decide
  have hattributes (wide high box : String) : Markup.keysNamed
      [("xmlns", "http://www.w3.org/2000/svg"), ("width", wide), ("height", high),
        ("viewBox", box)] := by
    simp only [Markup.keysNamed, List.all_cons, List.all_nil]
    decide
  have hend : occurrences ('<' :: word) "</svg>\n".toList = 0 :=
    calc
      occurrences ('<' :: word) "</svg>\n".toList
          = occurrences ('<' :: word) ['\n'] := Markup.occurrences_closing hword hne hsvg ['\n']
      _ = 0 := occurrences_cons_of_ne (by decide)
  rw [picture, String.toList_ofList, List.append_assoc, List.cons_append,
    Markup.occurrences_opening hword hsvg (hattributes _ _ _) rfl,
    occurrences_cons_of_ne (by decide), List.cons_append, occurrences_cons_of_ne (by decide),
    occurrences_lines hword hne h, hend, List.countP_cons]
  simp only [decide_eq_true_eq, add_zero, Nat.add_comm]

end Lines

/-- The lines are written with names and draw a given number of boxes. -/
structure Draws (lines : List (List Markup)) (boxes : Nat) : Prop where
  named : ∀ parts ∈ lines, Markup.areNamed parts
  counted : (lines.flatMap Markup.tagsOf).countP (fun tag ↦ "rect".toList <+: tag.toList) = boxes

namespace Draws

variable {lines front back : List (List Markup)} {m n : Nat}

/-- The boxes that lines draw stand in the text of the picture. -/
theorem occurrences_picture (h : Draws lines n) (frame : Frame) :
    occurrences "<rect".toList (picture frame lines).toList = n := by
  have hname : isName "rect".toList := by decide
  have hpicture := Chart.occurrences_picture frame hname (by decide) h.named
  rwa [List.countP_cons_of_neg (by decide), h.counted] at hpicture

theorem nil : Draws [] 0 := ⟨nofun, rfl⟩

theorem append (h : Draws front m) (h' : Draws back n) : Draws (front ++ back) (m + n) where
  named parts hparts := (List.mem_append.mp hparts).elim (h.named parts) (h'.named parts)
  counted := by rw [List.flatMap_append, List.countP_append, h.counted, h'.counted]

/-- Lines that are drawn for the members of a list one after the other. -/
theorem zipIdx {α : Type} {draw : α → Nat → List (List Markup)} {boxes : α → Nat}
    (h : ∀ item index, Draws (draw item index) (boxes item)) (items : List α) (start : Nat) :
    Draws ((items.zipIdx start).flatMap fun (item, index) ↦ draw item index)
      (items.map boxes).sum := by
  induction items generalizing start with
  | nil => exact .nil
  | cons item items ih =>
    rw [List.zipIdx_cons, List.flatMap_cons, List.map_cons, List.sum_cons]
    exact (h item start).append (ih (start + 1))

theorem zipIdx_of_one {α : Type} {draw : α → Nat → List (List Markup)}
    (h : ∀ item index, Draws (draw item index) 1) (items : List α) :
    Draws (items.zipIdx.flatMap fun (item, index) ↦ draw item index) items.length := by
  have hcount : (items.map fun _ ↦ 1).sum = items.length := by simp
  rw [← hcount]
  exact zipIdx h items 0

end Draws

theorem eachOnLine_append (front back : List Markup) :
    eachOnLine (front ++ back) = eachOnLine front ++ eachOnLine back := List.map_append

theorem draws_surroundings (frame : Frame) (title below : String) :
    Draws (eachOnLine (surroundings frame title below)) 0 where
  named := by
    simp only [surroundings, axes, tick, eachOnLine, List.map_cons, List.map_nil,
      List.cons_append, List.nil_append, List.forall_mem_cons, Markup.areNamed, Markup.isNamed,
      Markup.keysNamed, List.all_cons, List.all_nil]
    decide
  counted := rfl

theorem draws_bar (frame : Frame) (index : Nat) (base value : Int) (fill title : String) :
    Draws [[bar frame index base value fill title]] 1 where
  named := by
    simp only [bar, List.forall_mem_singleton, Markup.areNamed, Markup.isNamed, Markup.keysNamed,
      List.all_cons, List.all_nil]
    decide
  counted := rfl

theorem draws_barLabel (frame : Frame) (index : Nat) (opid : OpId) :
    Draws [[barLabel frame index opid]] 0 where
  named := by
    simp only [barLabel, List.forall_mem_singleton, Markup.areNamed, Markup.isNamed,
      Markup.keysNamed, List.all_cons, List.all_nil]
    decide
  counted := rfl

theorem draws_legendEntry (frame : Frame) (index : Nat) (name : String) :
    Draws [legendEntry frame index name] 1 where
  named := by
    simp only [legendEntry, List.forall_mem_singleton, Markup.areNamed, Markup.isNamed,
      Markup.keysNamed, List.all_cons, List.all_nil]
    decide
  counted := rfl

/-- Numbers are written without brackets. -/
theorem notMem_pos (x : Float) : '<' ∉ (pos x).toList :=
  notMem_of_isName (isName_fixed (Binary64.ofFloat x) 1) rfl

theorem notMem_size (x : Float) : '<' ∉ (size x).toList :=
  notMem_of_isName (isName_fixed (Binary64.ofFloat x) 0) rfl

end Chart

open Chart

namespace Histogram

theorem draws_chartRow (frame : Frame) (row : HistogramRow) (index : Nat) :
    Draws (eachOnLine (chartRow frame row index)) 1 :=
  (draws_bar frame index 0 row.duration _ _).append (draws_barLabel frame index row.opid)

/-- A bar chart has one box for each row. -/
theorem occurrences_toChart (histogram : Histogram) :
    occurrences "<rect".toList histogram.toChart.toList = histogram.rows.length := by
  have hrows (frame : Frame) := Draws.zipIdx_of_one (draws_chartRow frame) histogram.rows
  have hall (frame : Frame) (title below : String) :=
    (draws_surroundings frame title below).append (hrows frame)
  rw [toChart, (hall _ _ _).occurrences_picture, zero_add]

end Histogram

namespace BreakdownHistogram

/-- Each bucket with time adds one box to the stack. -/
theorem draws_stack (frame : Frame) (index : Nat) (opid : OpId) (base : Int) (place : Nat)
    (buckets : List Bucket) :
    Draws (eachOnLine (stack frame index opid base place buckets))
      (buckets.countP (·.duration ≠ 0)) := by
  induction buckets generalizing base place with
  | nil => exact .nil
  | cons bucket buckets ih =>
    rw [stack]
    by_cases hzero : bucket.duration = 0
    · rw [if_pos hzero, List.countP_cons_of_neg (by simpa using hzero)]
      exact ih base (place + 1)
    · have hbar := draws_bar frame index base bucket.duration (colour place)
        s!"opid {opid} {bucket.name}: {bucket.duration} us"
      have hstack := hbar.append (ih (base + bucket.duration) (place + 1))
      rw [if_neg hzero, List.countP_cons_of_pos (by simpa using hzero)]
      rwa [Nat.add_comm 1] at hstack

theorem draws_chartRow (frame : Frame) (row : Breakdown) (index : Nat) :
    Draws (eachOnLine (chartRow frame row index)) (row.buckets.countP (·.duration ≠ 0)) := by
  rw [chartRow, eachOnLine_append]
  exact (draws_stack frame index row.total.opid 0 0 row.buckets).append
    (draws_barLabel frame index row.total.opid)

theorem draws_legend (frame : Frame) (categories : List String) :
    Draws (categories.zipIdx.map fun (name, index) ↦ legendEntry frame index name)
      categories.length := by
  rw [List.map_eq_flatMap]
  exact Draws.zipIdx_of_one (fun name index ↦ draws_legendEntry frame index name) categories

/-- A chart of stacked bars has one box for each category and one for each bucket with time. -/
theorem occurrences_toChart (histogram : BreakdownHistogram) :
    occurrences "<rect".toList histogram.toChart.toList = histogram.categories.length +
      (histogram.rows.map fun row ↦ row.buckets.countP (·.duration ≠ 0)).sum := by
  have hrows (frame : Frame) := Draws.zipIdx (draws_chartRow frame) histogram.rows 0
  have hall (frame : Frame) (title below : String) :=
    ((draws_surroundings frame title below).append
      (draws_legend frame histogram.categories)).append (hrows frame)
  rw [toChart, (hall _ _ _).occurrences_picture, zero_add]

end BreakdownHistogram

namespace Chart

/-- A chart has as many boxes as it has bars and entries in its legend: one for each row of a
histogram, one for each category and each bucket with time where the bars are stacked. No name
brings a box with it, and no number a bracket. -/
theorem occurrences_rect_toChart :
    (∀ histogram : Histogram,
        occurrences "<rect".toList histogram.toChart.toList = histogram.rows.length) ∧
      (∀ histogram : BreakdownHistogram,
        occurrences "<rect".toList histogram.toChart.toList = histogram.categories.length +
          (histogram.rows.map fun row ↦ row.buckets.countP (·.duration ≠ 0)).sum) ∧
      ∀ x : Float, '<' ∉ (pos x).toList ∧ '<' ∉ (size x).toList :=
  ⟨Histogram.occurrences_toChart, BreakdownHistogram.occurrences_toChart,
    fun x ↦ ⟨notMem_pos x, notMem_size x⟩⟩

end Chart

end OpTrace
