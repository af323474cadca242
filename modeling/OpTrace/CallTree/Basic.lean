import OpTrace.CallTree.Reach
import OpTrace.Interval
import OpTrace.Span

/-!
# Call trees

Every operation of a call tree contributes a node for its `init` and one for its `finish` state,
joined by an edge that carries the duration, and a chain of nodes between them for its intervals.
A child is attached under its parent by two edges: the parent's `init` leads to the child's, and
the child's `finish` leads back to the parent's.

An operation can be attached under several parents but has one set of nodes. Nodes, edges and
operations are kept in the order in which they were made, and a node is named by its place.
-/

namespace OpTrace

/-- The name of a node: its place in the order of creation. -/
abbrev NodeId := Nat

/-- What a node stands for. -/
inductive NodeKind where
  | init
  | finish
  | interval
  deriving DecidableEq, Repr

/-- A node of the graph. -/
structure Node where
  id : NodeId
  opid : OpId
  kind : NodeKind
  label : String
  start : Time
  finish : Time
  /-- attributes of the operation that are no markers, on its `init` node -/
  metadata : List (String × String) := []
  deriving DecidableEq, Repr

/-- The time between the two times of a node. -/
def Node.duration (node : Node) : Int := elapsed node.start node.finish

/-- An edge of the graph; the one through an operation carries its duration. -/
structure Edge where
  source : NodeId
  target : NodeId
  duration : Option Int := none
  deriving DecidableEq, Repr

def Edge.link (edge : Edge) : Link := (edge.source, edge.target)

/-- The nodes of one operation. -/
structure Operation where
  span : Span
  /-- the operation under which this one was found, none for the root -/
  parent : Option OpId
  init : NodeId
  finish : NodeId
  intervals : List NodeId
  deriving DecidableEq, Repr

/-- The operations below one operation. -/
structure CallTree where
  root : OpId
  nodes : List Node := []
  edges : List Edge := []
  operations : List Operation := []
  findings : Findings := []
  deriving DecidableEq, Repr

namespace CallTree

/-- The operations of the tree, the root first. -/
def opids (tree : CallTree) : List OpId := tree.operations.map (·.span.opid)

def contains (tree : CallTree) (opid : OpId) : Bool := decide (opid ∈ tree.opids)

def operation? (tree : CallTree) (opid : OpId) : Option Operation :=
  tree.operations.find? (·.span.opid = opid)

def node? (tree : CallTree) (id : NodeId) : Option Node := tree.nodes[id]?

/-- The edges of the graph without what they carry. -/
def links (tree : CallTree) : List Link := tree.edges.map Edge.link

def hasEdge (tree : CallTree) (source target : NodeId) : Bool :=
  decide ((source, target) ∈ tree.links)

/-- The edges that leave a node, in the order of creation. -/
def edgesFrom (tree : CallTree) (id : NodeId) : List Edge := tree.edges.filter (·.source = id)

/-- The operation whose `init` node has the given name. -/
def opidOfInit? (tree : CallTree) (id : NodeId) : Option OpId :=
  match tree.node? id with
  | some node => if node.kind = .init then some node.opid else none
  | none => none

/-- The operations attached under an operation, in the order of attachment. -/
def childrenOf (tree : CallTree) (opid : OpId) : List OpId :=
  match tree.operation? opid with
  | some operation =>
    (tree.edgesFrom operation.init).filterMap fun edge ↦ tree.opidOfInit? edge.target
  | none => []

def pairs (tree : CallTree) : List (String × Int) :=
  tree.operations.map fun operation ↦
    (s!"{operation.span.fnTag} {operation.span.opid}", operation.span.duration)

def report (tree : CallTree) (findings : Findings) : CallTree :=
  { tree with findings := tree.findings ++ findings }

/-- Sets the edge between two nodes; an edge that is there keeps its place. -/
def setEdge (edge : Edge) (edges : List Edge) : List Edge :=
  if edge.link ∈ edges.map Edge.link then
    edges.map fun other ↦ if other.link = edge.link then edge else other
  else edges ++ [edge]

/-- The nodes of the intervals of an operation, named from `id` on. -/
def intervalNodes (opid : OpId) (id : NodeId) (intervals : List Interval) : List Node :=
  intervals.mapIdx fun i interval ↦
    { id := id + i, opid, kind := .interval, label := interval.label, start := interval.start,
      finish := interval.finish }

/-- The edges of a chain from one node over others to a last one; none if there are no others. -/
def chain (first : NodeId) (between : List NodeId) (last : NodeId) : List Edge :=
  if between = [] then []
  else List.zipWith (fun source target ↦ { source, target }) (first :: between) (between ++ [last])

/-- Adds the nodes and the inner edges of an operation. -/
def addOperation (tree : CallTree) (span : Span) (parent : Option OpId) (notes : Annotations) :
    CallTree :=
  let init := tree.nodes.length
  let finish := init + 1
  let inner := intervalNodes span.opid (init + 2) notes.intervals
  let state : Node :=
    { id := init, opid := span.opid, kind := .init, label := span.fnTag ++ " init",
      start := span.start, finish := span.finish }
  { tree with
    nodes := tree.nodes ++
      [{ state with metadata := notes.metadata },
        { state with id := finish, kind := .finish, label := span.fnTag ++ " finish" }] ++ inner
    edges := tree.edges ++ [{ source := init, target := finish, duration := some span.duration }] ++
      chain init (inner.map (·.id)) finish
    operations := tree.operations ++
      [{ span, parent, init, finish, intervals := inner.map (·.id) }]
    findings := tree.findings ++ notes.findings }

/-- Attaches a child under a parent, unless the parent can be reached from the child, so that the
two edges would close a cycle. -/
def attach? (tree : CallTree) (parent child : OpId) : Option CallTree :=
  match tree.operation? parent, tree.operation? child with
  | some upper, some lower =>
    if reaches tree.links lower.init upper.init then none
    else
      some { tree with
        edges := setEdge { source := lower.finish, target := upper.finish }
          (setEdge { source := upper.init, target := lower.init } tree.edges) }
  | _, _ => none

@[simp] theorem opids_report (tree : CallTree) (findings : Findings) :
    (tree.report findings).opids = tree.opids := rfl

@[simp] theorem opids_addOperation (tree : CallTree) (span : Span) (parent : Option OpId)
    (notes : Annotations) :
    (tree.addOperation span parent notes).opids = tree.opids ++ [span.opid] := by
  simp [addOperation, opids]

theorem opids_of_attach? {tree attached : CallTree} {parent child : OpId}
    (h : tree.attach? parent child = some attached) : attached.opids = tree.opids := by
  unfold attach? at h
  split at h
  · split at h
    · cases h
    · cases h; rfl
  · cases h

end CallTree

end OpTrace
