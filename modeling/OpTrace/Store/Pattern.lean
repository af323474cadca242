/-!
# Tag patterns

Operations are selected by a pattern on their function tag. In a pattern `%` stands for any run
of characters and `_` for exactly one; every other character stands for itself, where letters of
the ASCII alphabet match in either case. A pattern has to match the whole tag.

Up to the first `%` a pattern is matched from its front. From there on matching goes through the
pattern from its end. For each rest of the pattern it keeps one verdict per rest of the tag, so that
its cost is the product of the two lengths, whatever the wildcards.

The size of a pattern is bounded. It is measured as the memory of an automaton that reads tags
backwards, byte by byte of their UTF-8 text.
-/

namespace OpTrace

/-- One item of a pattern on lists. -/
inductive Glyph (α : Type) where
  /-- any run of members -/
  | run
  /-- exactly one member -/
  | any
  /-- this member -/
  | lit (a : α)
  deriving DecidableEq, Repr

namespace Glyph

def ofChar (c : Char) : Glyph Char :=
  if c = '%' then run else if c = '_' then any else lit c.toLower

/-- For each rest of a list of verdicts, whether it holds a positive one. -/
def someLater : List Bool → List Bool
  | [] => []
  | verdict :: rest =>
    let later := someLater rest
    (verdict || later.headD false) :: later

/-- From the verdicts of a pattern on all rests of a list to those of the pattern with one more item
in front. The verdicts are one more than the members of the list. -/
def prepend {α : Type} [BEq α] (tag : List α) (glyph : Glyph α) (verdicts : List Bool) :
    List Bool :=
  match glyph with
  | run => someLater verdicts
  | any => verdicts.drop 1 ++ [false]
  | lit c => List.zipWith (fun d verdict ↦ c == d && verdict) tag (verdicts.drop 1) ++ [false]

/-- The verdicts of a pattern on all rests of a list, the whole list first. -/
def verdicts {α : Type} [BEq α] (tag : List α) (glyphs : List (Glyph α)) : List Bool :=
  glyphs.foldr (prepend tag) (tag.map (fun _ ↦ false) ++ [true])

/-- Do the items match the whole list? Up to the first run there is one way to match them. -/
def accept {α : Type} [BEq α] : List (Glyph α) → List α → Bool
  | [], tag => tag.isEmpty
  | run :: glyphs, tag => (verdicts tag (run :: glyphs)).headD false
  | any :: glyphs, _ :: tag => accept glyphs tag
  | lit c :: glyphs, d :: tag => c == d && accept glyphs tag
  | _ :: _, [] => false

/-- The memory of an automaton's state, in bytes. -/
def stateSize : Nat := 32

/-- The memory of a state from which several ways go on. -/
def forkSize (ways : Nat) : Nat := stateSize + 4 * ways

/-- The memory of the states that read any one character. There are nine ways through them, one for
each form of UTF-8 sequences. Together the ways have 27 states, and one more where they meet. -/
def anySize : Nat := forkSize 9 + 27 * stateSize + stateSize

/-- The memory of the states that read one item. A run has a fork in front of any one character,
which reads on or leaves. A character that stands for itself has a state for each of its bytes. -/
def size : Glyph Char → Nat
  | run => forkSize 2 + anySize
  | any => anySize
  | lit c => c.utf8Size * stateSize

def sizeBound : Nat := 10485760

end Glyph

/-- What is wrong with a text that is no pattern. -/
inductive PatternFlaw where
  /-- there are no characters -/
  | empty
  /-- the automaton takes too much memory -/
  | oversized
  deriving DecidableEq, Repr

def PatternFlaw.message : PatternFlaw → String
  | empty => "empty pattern"
  | oversized => s!"Compiled regex exceeds size limit of {Glyph.sizeBound} bytes."

/-- A pattern on function tags. It is not empty. -/
structure TagPattern where
  text : String
  text_ne : text ≠ ""
  deriving DecidableEq

namespace TagPattern

def glyphsOf (text : String) : List (Glyph Char) := text.toList.map Glyph.ofChar

/-- The memory of the automaton for a text. Beside the states of its items it has one to start, one
to accept and one for either end of the tag. -/
def textSize (text : String) : Nat :=
  ((glyphsOf text).map Glyph.size).foldl (· + ·) (4 * Glyph.stateSize)

def ofText (text : String) : Except PatternFlaw TagPattern :=
  if h : text = "" then .error .empty
  else if Glyph.sizeBound < textSize text then .error .oversized
  else .ok ⟨text, h⟩

def glyphs (pattern : TagPattern) : List (Glyph Char) := glyphsOf pattern.text

/-- A pattern without wildcards selects by name. -/
def isExact (pattern : TagPattern) : Bool :=
  pattern.text.toList.all fun c ↦ c ≠ '%' && c ≠ '_'

def matchesTag (pattern : TagPattern) (tag : String) : Bool :=
  Glyph.accept pattern.glyphs (tag.toList.map Char.toLower)

end TagPattern

end OpTrace
