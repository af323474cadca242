import OpTrace.Event.Basic

/-!
# Interval markers

Some attributes are not data about an operation but mark where an interval inside it starts or
ends. Their names hold the fragment `attr_time_start` or `attr_time_end`; what stands before the
fragment is the label of the interval, or, when nothing stands there, what stands behind it.
Underscores that join the label to the fragment are no part of the label.
-/

namespace OpTrace

/-- Splits a text around the first place where the fragment occurs. -/
def splitAround (fragment : List Char) : List Char → Option (List Char × List Char)
  | [] => if fragment = [] then some ([], []) else none
  | c :: rest =>
    if fragment.isPrefixOf (c :: rest) then some ([], (c :: rest).drop fragment.length)
    else (splitAround fragment rest).map fun (before, behind) ↦ (c :: before, behind)

def trimFront (text : List Char) : List Char := text.dropWhile (· = '_')

def trimEnd (text : List Char) : List Char := (trimFront text.reverse).reverse

/-- The two ends of an interval. -/
inductive MarkerEdge where
  | start
  | finish
  deriving DecidableEq, Repr

namespace MarkerEdge

/-- A name that holds this word marks the edge. -/
def word : MarkerEdge → String
  | start => "attr_time_start"
  | finish => "attr_time_end"

def fragment (edge : MarkerEdge) : List Char := edge.word.toList

end MarkerEdge

/-- One end of an interval, and the label of the interval. -/
structure Marker where
  edge : MarkerEdge
  label : String
  deriving DecidableEq, Repr

namespace Marker

/-- The label that remains of a name once the fragment is cut out. -/
def labelAround (before behind : List Char) : List Char :=
  if trimEnd before = [] then trimFront behind else trimEnd before

def ofEdge? (edge : MarkerEdge) (name : List Char) : Option Marker :=
  (splitAround edge.fragment name).map fun (before, behind) ↦
    { edge, label := String.ofList (labelAround before behind) }

/-- Reads the name of an attribute as a marker. The start fragment is looked for first. -/
def ofName? (name : String) : Option Marker :=
  (ofEdge? .start name.toList).or (ofEdge? .finish name.toList)

end Marker

def AttributeRow.marker? (row : AttributeRow) : Option Marker :=
  Marker.ofName? row.name

end OpTrace
