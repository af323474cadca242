import OpTrace.CallTree.Basic
import OpTrace.Text.Markup

/-!
# Call trees as graph drawings

A call tree is written in the DOT language. The label of a node is a table of two rows: the state
that the node stands for, and below it what is known of it, line by line. Edges through an
operation carry its duration.
-/

namespace OpTrace

namespace CallTree

/-- The lines of a node's label, each a key and a value. -/
def labelLines (tree : CallTree) (node : Node) : List (String × String) :=
  let parent := ((tree.operation? node.opid).bind (·.parent)).getD 0
  [("opid", toString node.opid), ("parent opid", toString parent)] ++
    match node.kind with
    | .init => ("op start time", toString node.start) :: node.metadata
    | .finish => [("op end time", toString node.finish)]
    | .interval =>
      [("start time", toString node.start), ("end time", toString node.finish),
        ("time", toString node.duration ++ " us")]

end CallTree

namespace Dot

def bodyOf : List (String × String) → List Markup
  | [] => []
  | [(key, value)] => [.text (key ++ "=" ++ value)]
  | (key, value) :: lines => .text (key ++ "=" ++ value) :: .single "BR" [] :: bodyOf lines

def labelTable (header : String) (lines : List (String × String)) : Markup :=
  .element "TABLE"
    [("BORDER", "0"), ("CELLBORDER", "1"), ("CELLSPACING", "0"), ("CELLPADDING", "4")]
    [.element "TR" [] [.element "TD" [] [.text header]],
      .element "TR" [] [.element "TD" [] (bodyOf lines)]]

/-- A label as it stands in the drawing: markup between angle brackets. -/
def label (header : String) (lines : List (String × String)) : List Char :=
  '<' :: (labelTable header lines).write ++ ['>']

def nodeName (id : NodeId) : String := s!"n{id}"

def nodeLine (tree : CallTree) (node : Node) : List Char :=
  "    ".toList ++ (nodeName node.id).toList ++ " [label=".toList ++
    label node.label (tree.labelLines node) ++ "];\n".toList

def edgeLine (edge : Edge) : List Char :=
  let ends := "    " ++ nodeName edge.source ++ " -> " ++ nodeName edge.target
  (match edge.duration with
    | some duration => ends ++ s!" [label=\"{duration} us\"];\n"
    | none => ends ++ ";\n").toList

end Dot

def CallTree.toDot (tree : CallTree) : String :=
  String.ofList <|
    s!"strict digraph \"opid_{tree.root}\" \x7b\n".toList ++
      "    node [shape=plaintext];\n".toList ++
      tree.nodes.flatMap (Dot.nodeLine tree) ++ tree.edges.flatMap Dot.edgeLine ++ "\x7d\n".toList

end OpTrace
