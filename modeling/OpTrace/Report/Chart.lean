import OpTrace.Decimal.Text
import OpTrace.Histogram.Basic
import OpTrace.Text.Markup

/-!
# Bar charts

A histogram is drawn with one bar for each operation, a histogram of breakdowns with the categories
of each operation stacked upon each other. The time runs upwards and the operations stand side by
side, with their numbers below. A stacked chart has a legend.

Positions are machine numbers and are written with one place; sizes of the whole picture are
written without places.
-/

namespace OpTrace

namespace Chart

def barWidth : Float := 18.0
def leastWidth : Float := 320.0
def height : Float := 360.0
def marginLeft : Float := 60.0
def marginRight : Float := 20.0
def marginTop : Float := 40.0
def marginBottom : Float := 80.0

def plotHeight : Float := height - marginTop - marginBottom

def bottom : Float := marginTop + plotHeight

/-- The colours of the categories; after the last one they start again. -/
def palette : List String :=
  ["#d62728", "#1f77b4", "#2ca02c", "#ff7f0e", "#9467bd", "#8c564b", "#e377c2", "#7f7f7f"]

def colour (index : Nat) : String := palette.getD (index % palette.length) ""

def pos (x : Float) : String := (Binary64.ofFloat x).fixed 1

def size (x : Float) : String := (Binary64.ofFloat x).fixed 0

/-- The frame into which bars are drawn. -/
structure Frame where
  /-- how many bars stand side by side -/
  bars : Nat
  /-- the time at the upper end of the axis, one at least -/
  top : Int
  deriving DecidableEq, Repr

namespace Frame

/-- The frame for a number of bars of which the tallest has a given value. -/
def fit (bars : Nat) (tallest : Int) : Frame := ⟨bars, max 1 tallest⟩

def width (frame : Frame) : Float :=
  let wanted := marginLeft + marginRight + Float.ofNat frame.bars * barWidth
  if wanted < leastWidth then leastWidth else wanted

def slot (frame : Frame) : Float :=
  (frame.width - marginLeft - marginRight) / Float.ofNat (max 1 frame.bars)

def scale (frame : Frame) (value : Int) : Float :=
  Float.ofInt (max 0 value) / Float.ofInt frame.top * plotHeight

end Frame

/-- A bar at a place, from `base` upwards, with a title that shows when it is pointed at. -/
def bar (frame : Frame) (index : Nat) (base value : Int) (fill title : String) : Markup :=
  let barHeight := frame.scale value
  .element "rect"
    [("x", pos (marginLeft + Float.ofNat index * frame.slot + frame.slot * 0.15)),
      ("y", pos (marginTop + plotHeight - frame.scale base - barHeight)),
      ("width", pos (frame.slot * 0.7)), ("height", pos barHeight), ("fill", fill)]
    [.element "title" [] [.text title]]

def barLabel (frame : Frame) (index : Nat) (opid : OpId) : Markup :=
  let x := pos (marginLeft + (Float.ofNat index + 0.5) * frame.slot)
  let y := pos (marginTop + plotHeight + 8.0)
  .element "text"
    [("x", x), ("y", y), ("font-size", "8"), ("text-anchor", "end"),
      ("transform", s!"rotate(-90 {x} {y})")]
    [.text (toString opid)]

def axes (frame : Frame) : List Markup :=
  let left := size marginLeft
  let low := size bottom
  [.single "line"
      [("x1", left), ("y1", size marginTop), ("x2", left), ("y2", low), ("stroke", "black")],
    .single "line"
      [("x1", left), ("y1", low), ("x2", pos (frame.width - marginRight)), ("y2", low),
        ("stroke", "black")]]

def tick (x y : Float) (text : String) : Markup :=
  .element "text" [("x", pos x), ("y", pos y), ("font-size", "8"), ("text-anchor", "end")]
    [.text text]

def surroundings (frame : Frame) (title below : String) : List Markup :=
  let middle := pos (frame.width / 2.0)
  let half := pos (marginTop + plotHeight / 2.0)
  [.element "text" [("x", middle), ("y", "20"), ("font-size", "14"), ("text-anchor", "middle")]
      [.text title]] ++
    axes frame ++
    [tick (marginLeft - 4.0) (marginTop + 4.0) (toString frame.top),
      tick (marginLeft - 4.0) bottom "0",
      .element "text"
        [("x", "14"), ("y", half), ("font-size", "10"), ("transform", s!"rotate(-90 14 {half})"),
          ("text-anchor", "middle")]
        [.text "time (us)"],
      .element "text"
        [("x", middle), ("y", pos (height - 6.0)), ("font-size", "10"), ("text-anchor", "middle")]
        [.text below]]

def legendEntry (frame : Frame) (index : Nat) (name : String) : List Markup :=
  let y := marginTop + Float.ofNat index * 12.0
  [.single "rect"
      [("x", pos (frame.width - marginRight - 70.0)), ("y", pos y), ("width", "8"),
        ("height", "8"), ("fill", colour index)],
    .element "text"
      [("x", pos (frame.width - marginRight - 58.0)), ("y", pos (y + 7.0)), ("font-size", "8")]
      [.text name]]

/-- Parts of a picture on a line of their own. -/
def line (parts : List Markup) : List Char := ' ' :: ' ' :: Markup.writeAll parts ++ ['\n']

def picture (frame : Frame) (lines : List (List Markup)) : String :=
  let wide := size frame.width
  let high := size height
  String.ofList <|
    Markup.opening "svg"
      [("xmlns", "http://www.w3.org/2000/svg"), ("width", wide), ("height", high),
        ("viewBox", s!"0 0 {wide} {high}")] ++ '>' :: '\n' ::
    lines.flatMap line ++ "</svg>\n".toList

def tallest : List Int → Int
  | [] => 0
  | value :: values => values.foldl max value

end Chart

def Chart.eachOnLine (parts : List Markup) : List (List Markup) := parts.map fun part ↦ [part]

namespace Histogram

def chartRow (frame : Chart.Frame) (row : HistogramRow) (index : Nat) : List Markup :=
  [Chart.bar frame index 0 row.duration (Chart.colour 0) s!"opid {row.opid}: {row.duration} us",
    Chart.barLabel frame index row.opid]

def toChart (histogram : Histogram) : String :=
  let frame :=
    Chart.Frame.fit histogram.rows.length (Chart.tallest (histogram.rows.map (·.duration)))
  Chart.picture frame <|
    Chart.eachOnLine (Chart.surroundings frame (histogram.fnTag ++ " time")
      (histogram.fnTag ++ " opid(s)")) ++
    histogram.rows.zipIdx.flatMap fun (row, index) ↦ Chart.eachOnLine (chartRow frame row index)

end Histogram

namespace BreakdownHistogram

/-- The stacked bars of the buckets from place `place` on, upon bars that reach up to `base`. A
bucket without time has no bar. -/
def stack (frame : Chart.Frame) (index : Nat) (opid : OpId) (base : Int) (place : Nat) :
    List Bucket → List Markup
  | [] => []
  | bucket :: buckets =>
    if bucket.duration = 0 then stack frame index opid base (place + 1) buckets
    else
      Chart.bar frame index base bucket.duration (Chart.colour place)
          s!"opid {opid} {bucket.name}: {bucket.duration} us" ::
        stack frame index opid (base + bucket.duration) (place + 1) buckets

def chartRow (frame : Chart.Frame) (row : Breakdown) (index : Nat) : List Markup :=
  stack frame index row.total.opid 0 0 row.buckets ++ [Chart.barLabel frame index row.total.opid]

/-- The height of the stacked bars of a row, or of its whole time if that is more. -/
def rowHeight (row : Breakdown) : Int :=
  max ((row.buckets.map (·.duration)).foldl (· + ·) 0) row.total.duration

def toChart (histogram : BreakdownHistogram) : String :=
  let frame := Chart.Frame.fit histogram.rows.length (Chart.tallest (histogram.rows.map rowHeight))
  Chart.picture frame <|
    Chart.eachOnLine (Chart.surroundings frame (histogram.fnTag ++ " sub-module time")
      (histogram.fnTag ++ " opid(s)")) ++
    (histogram.categories.zipIdx.map fun (name, index) ↦ Chart.legendEntry frame index name) ++
    histogram.rows.zipIdx.flatMap fun (row, index) ↦ Chart.eachOnLine (chartRow frame row index)

end BreakdownHistogram

end OpTrace
