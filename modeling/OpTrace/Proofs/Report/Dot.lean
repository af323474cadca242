import OpTrace.Proofs.Text.Markup
import OpTrace.Proofs.Text.Number
import OpTrace.Report.Dot

/-!
# Labels in graph drawings

A reader of a drawing takes a label as one piece: it goes on from the bracket that opens it until
its nesting is zero. What stands in a label is escaped, so its nesting is zero only at its end, and
outside the labels no bracket opens. The reader therefore finds the labels of the nodes, each of
them whole, whatever the texts in them are.
-/

namespace OpTrace.Dot

theorem areNamed_bodyOf : ∀ lines : List (String × String), Markup.areNamed (bodyOf lines)
  | [] => rfl
  | [_] => rfl
  | _ :: line :: lines => areNamed_bodyOf (line :: lines)

theorem isNamed_labelTable (header : String) (lines : List (String × String)) :
    (labelTable header lines).isNamed := by
  simp only [labelTable, Markup.isNamed, Markup.areNamed, Markup.keysNamed, areNamed_bodyOf lines]
  decide

/-- The brackets around a label belong together, whatever texts stand in it. -/
theorem isBracketed_label (header : String) (lines : List (String × String)) :
    IsBracketed (label header lines) :=
  (Markup.balanced_write _ (isNamed_labelTable header lines)).isBracketed

/-- A piece of a drawing: a character that stands outside the labels, or a label. -/
inductive Token
  | char (c : Char)
  | label (text : List Char)
  deriving DecidableEq, Repr

namespace Token

def text : Token → List Char
  | char c => [c]
  | label text => text

def plain (text : List Char) : List Token := text.map .char

theorem flatMap_plain (text : List Char) : (plain text).flatMap Token.text = text := by
  rw [plain, List.flatMap_map]
  exact List.flatMap_singleton' text

/-- A label ends where its brackets do, and no bracket that opens one stands outside the labels. -/
def IsClosed : Token → Prop
  | char c => c ≠ '<'
  | label text => IsBracketed text

theorem isClosed_of_mem_plain {text : List Char} (h : '<' ∉ text) {token : Token}
    (htoken : token ∈ plain text) : token.IsClosed := by
  obtain ⟨c, hc, rfl⟩ := List.mem_map.mp htoken
  exact ne_of_mem_of_not_mem hc h

end Token

/-- The pieces of a text before which `begun` has been read of a label. A label begins with a
bracket and goes on until its nesting is zero; if it does not end there are no pieces. -/
def readOn (begun : List Char) : List Char → Option (List Token)
  | [] => if begun = [] then some [] else none
  | c :: rest =>
    if begun = [] ∧ c ≠ '<' then (readOn [] rest).map (.char c :: ·)
    else if nesting (begun ++ [c]) = 0 then (readOn [] rest).map (.label (begun ++ [c]) :: ·)
    else readOn (begun ++ [c]) rest

def read? (text : List Char) : Option (List Token) := readOn [] text

/-- Within a label the reader goes on to its end. -/
theorem readOn_label {text : List Char} (h : IsBracketed text) (rest : List Char) :
    ∀ later begun, text = begun ++ later → later ≠ [] →
      readOn begun (later ++ rest) = (read? rest).map (.label text :: ·)
  | [], _, _, hne => absurd rfl hne
  | c :: later, begun, htext, _ => by
    have hgoes : ¬(begun = [] ∧ c ≠ '<') := by
      rintro ⟨rfl, hc⟩
      have hopens := h.opens
      rw [htext] at hopens
      exact hc (Option.some.inj hopens)
    rw [List.cons_append, readOn, if_neg hgoes]
    cases later with
    | nil => rw [← htext, if_pos h.closes, List.nil_append, read?]
    | cons d later =>
      have hsplit : text = (begun ++ [c]) ++ d :: later := by
        rw [htext, List.append_assoc, List.singleton_append]
      -- `c` is not the last character, so the label is still open behind it
      have hinside : 0 < nesting (begun ++ [c]) := by
        have hplace := h.inside (begun ++ [c]).length (by simp) (by simp [hsplit])
        rwa [hsplit, List.take_left] at hplace
      rw [if_neg (Int.ne_of_gt hinside)]
      exact readOn_label h rest (d :: later) (begun ++ [c]) hsplit (List.cons_ne_nil d later)

/-- The reader finds the pieces of which a text is made. -/
theorem read?_flatMap {tokens : List Token} (h : ∀ token ∈ tokens, token.IsClosed) :
    read? (tokens.flatMap Token.text) = some tokens := by
  induction tokens with
  | nil => rfl
  | cons token tokens ih =>
    have hrest := ih fun later hlater ↦ h later (List.mem_cons_of_mem token hlater)
    have hfirst := h token List.mem_cons_self
    rw [List.flatMap_cons]
    cases token with
    | char c =>
      have hc : c ≠ '<' := hfirst
      rw [read?, Token.text, List.singleton_append, readOn, if_pos ⟨rfl, hc⟩, ← read?, hrest]
      rfl
    | label text =>
      have htext : IsBracketed text := hfirst
      have hne : text ≠ [] := by
        rintro rfl
        exact absurd htext.opens (by decide)
      rw [read?, Token.text, readOn_label htext _ text [] rfl hne, hrest]
      rfl

example : read? ("<b>a<c>".toList) =
    some [.label "<b>".toList, .char 'a', .label "<c>".toList] := by decide

/-- What stands in a drawing before its nodes. -/
def heading (root : OpId) : List Char :=
  s!"strict digraph \"opid_{root}\" \x7b\n".toList ++ "    node [shape=plaintext];\n".toList

/-- What stands in the line of a node before its label. -/
def nodeFront (id : NodeId) : List Char :=
  "    ".toList ++ (nodeName id).toList ++ " [label=".toList

def nodeTokens (tree : CallTree) (node : Node) : List Token :=
  Token.plain (nodeFront node.id) ++ .label (label node.label (tree.labelLines node)) ::
    Token.plain "];\n".toList

/-- A drawing in pieces: one label for each node, and text without labels around them. -/
def tokens (tree : CallTree) : List Token :=
  Token.plain (heading tree.root) ++ tree.nodes.flatMap (nodeTokens tree) ++
    Token.plain (tree.edges.flatMap edgeLine ++ "\x7d\n".toList)

theorem flatMap_nodeTokens (tree : CallTree) (node : Node) :
    (nodeTokens tree node).flatMap Token.text = nodeLine tree node := by
  have hline : nodeLine tree node =
      nodeFront node.id ++ label node.label (tree.labelLines node) ++ "];\n".toList := rfl
  rw [hline, nodeTokens, List.flatMap_append, List.flatMap_cons, Token.flatMap_plain,
    Token.flatMap_plain, Token.text, List.append_assoc]

/-- A drawing is made of its pieces. -/
theorem flatMap_tokens (tree : CallTree) :
    (tokens tree).flatMap Token.text = tree.toDot.toList := by
  have hnodes : (tree.nodes.flatMap (nodeTokens tree)).flatMap Token.text =
      tree.nodes.flatMap (nodeLine tree) := by
    rw [List.flatMap_assoc]
    exact List.flatMap_congr fun node _ ↦ flatMap_nodeTokens tree node
  have hdot : tree.toDot.toList = heading tree.root ++ tree.nodes.flatMap (nodeLine tree) ++
      tree.edges.flatMap edgeLine ++ "\x7d\n".toList := String.toList_ofList
  rw [hdot, tokens, List.flatMap_append, List.flatMap_append, Token.flatMap_plain,
    Token.flatMap_plain, hnodes, List.append_assoc _ (tree.edges.flatMap edgeLine)]

theorem notMem_toList_append {c : Char} {front back : String} (h : c ∉ front.toList)
    (h' : c ∉ back.toList) : c ∉ (front ++ back).toList := by
  rw [String.toList_append]
  exact List.not_mem_append h h'

theorem notMem_heading (root : OpId) : '<' ∉ heading root := by
  have hroot : '<' ∉ (toString root).toList := notMem_of_isName (isName_int root) rfl
  have hfront := notMem_toList_append (by decide : '<' ∉ "strict digraph \"opid_".toList) hroot
  exact List.not_mem_append (notMem_toList_append hfront (by decide)) (by decide)

theorem notMem_nodeName (id : NodeId) : '<' ∉ (nodeName id).toList :=
  notMem_toList_append (by decide : '<' ∉ "n".toList) (notMem_of_isName (isName_nat id) rfl)

theorem notMem_nodeFront (id : NodeId) : '<' ∉ nodeFront id :=
  List.not_mem_append (List.not_mem_append (by decide) (notMem_nodeName id)) (by decide)

theorem notMem_edgeLine (edge : Edge) : '<' ∉ edgeLine edge := by
  have hsource :=
    notMem_toList_append (by decide : '<' ∉ "    ".toList) (notMem_nodeName edge.source)
  have harrow := notMem_toList_append hsource (by decide : '<' ∉ " -> ".toList)
  have hends := notMem_toList_append harrow (notMem_nodeName edge.target)
  unfold edgeLine
  cases edge.duration with
  | none => exact notMem_toList_append hends (by decide)
  | some duration =>
    have htime : '<' ∉ (toString duration).toList := notMem_of_isName (isName_int duration) rfl
    have hlabel := notMem_toList_append (by decide : '<' ∉ " [label=\"".toList) htime
    exact notMem_toList_append hends (notMem_toList_append hlabel (by decide))

/-- No text in a label opens a piece of its own or leaves one open. -/
theorem isClosed_of_mem_tokens {tree : CallTree} {token : Token} (h : token ∈ tokens tree) :
    token.IsClosed := by
  rw [tokens, List.mem_append, List.mem_append] at h
  rcases h with (hheading | hnode) | hend
  · exact Token.isClosed_of_mem_plain (notMem_heading tree.root) hheading
  · obtain ⟨node, -, hnode⟩ := List.mem_flatMap.mp hnode
    rw [nodeTokens, List.mem_append, List.mem_cons] at hnode
    rcases hnode with hfront | rfl | hback
    · exact Token.isClosed_of_mem_plain (notMem_nodeFront node.id) hfront
    · exact isBracketed_label node.label (tree.labelLines node)
    · exact Token.isClosed_of_mem_plain (by decide) hback
  · have hedges : '<' ∉ tree.edges.flatMap edgeLine := by
      intro hin
      obtain ⟨edge, -, hin⟩ := List.mem_flatMap.mp hin
      exact notMem_edgeLine edge hin
    exact Token.isClosed_of_mem_plain (List.not_mem_append hedges (by decide)) hend

/-- The nesting of a label is positive on its way and zero at its end, whatever texts stand in it.
A reader that takes labels as a whole by this rule finds those of the nodes in every drawing, and
the rest of the drawing around them. -/
theorem read?_toDot :
    (∀ header lines, IsBracketed (label header lines)) ∧
      ∀ tree : CallTree, (tokens tree).flatMap Token.text = tree.toDot.toList ∧
        read? tree.toDot.toList = some (tokens tree) := by
  apply And.intro isBracketed_label
  intro tree
  apply And.intro (flatMap_tokens tree)
  rw [← flatMap_tokens tree]
  exact read?_flatMap fun _ ↦ isClosed_of_mem_tokens

end OpTrace.Dot
