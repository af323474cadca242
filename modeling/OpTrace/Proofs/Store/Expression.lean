import OpTrace.Proofs.Store.Matching
import OpTrace.Store.Expression

/-!
# What search expressions find

The parts of an expression are found in a text one behind the other, from any place on. An end of
the text takes no character but is at its own place only, and each other part takes what it matches.

The expression of a pattern is read as the two ends of the text with the items of the pattern
between them. So no character of the pattern is lost or gets a meaning, and the expression is found
in the texts that the items match as a whole.
-/

namespace OpTrace

/-- An item takes what it matches alone, and the items behind it match the rest. -/
theorem Glyph.Matches.cons_iff {α : Type} {glyph : Glyph α} {glyphs : List (Glyph α)}
    {text : List α} :
    Matches (glyph :: glyphs) text ↔
      ∃ taken rest, taken ++ rest = text ∧ Matches [glyph] taken ∧ Matches glyphs rest := by
  constructor
  · intro h
    cases h with
    | run taken h => exact ⟨taken, _, rfl, by simpa using Matches.run taken .nil, h⟩
    | any a h => exact ⟨[a], _, rfl, .any a .nil, h⟩
    | lit a h => exact ⟨[a], _, rfl, .lit a .nil, h⟩
  · rintro ⟨taken, rest, rfl, hglyph, h⟩
    cases hglyph with
    | run taken hnil =>
      rw [nil_iff.mp hnil, List.append_nil]
      exact .run taken h
    | any a hnil =>
      rw [nil_iff.mp hnil]
      exact .any a h
    | lit a hnil =>
      rw [nil_iff.mp hnil]
      exact .lit a h

namespace Expression

/-- One part of an expression. -/
inductive Part where
  /-- the front end of the text -/
  | front
  /-- the back end of the text -/
  | back
  /-- some characters of the text -/
  | glyph (glyph : Glyph Char)
  deriving DecidableEq, Repr

/-- Reads the parts behind the flags. Groups, choices, classes and numbers of times are not read. -/
def readParts? : List Char → Option (List Part)
  | [] => some []
  | '^' :: rest => (readParts? rest).map (.front :: ·)
  | '$' :: rest => (readParts? rest).map (.back :: ·)
  | '.' :: '*' :: rest => (readParts? rest).map (.glyph .run :: ·)
  | '.' :: rest => (readParts? rest).map (.glyph .any :: ·)
  | '\\' :: c :: rest => if isMeta c then (readParts? rest).map (.glyph (.lit c) :: ·) else none
  | c :: rest => if isMeta c then none else (readParts? rest).map (.glyph (.lit c) :: ·)

/-- Reads the parts of an expression in which `.` is also the end of a line. -/
def read? (expression : String) : Option (List Part) :=
  match expression.toList with
  | '(' :: '?' :: 's' :: ')' :: rest => readParts? rest
  | _ => none

/-- The parts are found at a place of a text, between the characters before and those behind. -/
inductive Occurs : List Part → List Char → List Char → Prop where
  | nil {before behind : List Char} : Occurs [] before behind
  | front {parts : List Part} {behind : List Char} :
    Occurs parts [] behind → Occurs (.front :: parts) [] behind
  | back {parts : List Part} {before : List Char} :
    Occurs parts before [] → Occurs (.back :: parts) before []
  | glyph {glyph : Glyph Char} {taken : List Char} {parts : List Part} {before behind : List Char} :
    Glyph.Matches [glyph] taken → Occurs parts (before ++ taken) behind →
      Occurs (.glyph glyph :: parts) before (taken ++ behind)

def OccursIn (parts : List Part) (text : List Char) : Prop :=
  ∃ before behind, before ++ behind = text ∧ Occurs parts before behind

/-- The two ends of the text with items between them. -/
def whole (glyphs : List (Glyph Char)) : List Part := .front :: (glyphs.map .glyph ++ [.back])

theorem occurs_back_iff {glyphs : List (Glyph Char)} {before behind : List Char} :
    Occurs (glyphs.map .glyph ++ [.back]) before behind ↔ Glyph.Matches glyphs behind := by
  induction glyphs generalizing before behind with
  | nil =>
    rw [Glyph.Matches.nil_iff]
    constructor
    · rintro (_ | _ | _)
      rfl
    · rintro rfl
      exact .back .nil
  | cons glyph glyphs ih =>
    rw [Glyph.Matches.cons_iff]
    constructor
    · rintro (_ | _ | _ | ⟨hglyph, h⟩)
      exact ⟨_, _, rfl, hglyph, ih.mp h⟩
    · rintro ⟨taken, rest, rfl, hglyph, h⟩
      exact .glyph hglyph (ih.mpr h)

/-- Between the two ends, items have to match the whole text. -/
theorem occursIn_whole_iff {glyphs : List (Glyph Char)} {text : List Char} :
    OccursIn (whole glyphs) text ↔ Glyph.Matches glyphs text := by
  constructor
  · rintro ⟨before, behind, rfl, h⟩
    cases h with
    | front h => exact occurs_back_iff.mp h
  · intro h
    exact ⟨[], text, rfl, .front (occurs_back_iff.mpr h)⟩

def spell : Glyph Char → List Char
  | .run => ".*".toList
  | .any => ".".toList
  | .lit c => escape [c]

namespace Draft

@[simp] theorem flush_wildcard (draft : Draft) (spelling : List Char) :
    (draft.wildcard spelling).flush.written = draft.flush.written ++ spelling :=
  List.append_nil _

/-- One more character of the pattern writes its item, at once or when what waits is written. -/
theorem flush_see (draft : Draft) (c : Char) :
    (draft.see c).flush.written = draft.flush.written ++ spell (.ofChar c) := by
  unfold see Glyph.ofChar
  split
  · exact flush_wildcard draft _
  · split
    · exact flush_wildcard draft _
    · simp [flush, spell, escape]

theorem flush_foldl_see (draft : Draft) (text : List Char) :
    (text.foldl see draft).flush.written =
      draft.flush.written ++ (text.map Glyph.ofChar).flatMap spell := by
  induction text generalizing draft with
  | nil => simp
  | cons c text ih =>
    rw [List.foldl_cons, ih, flush_see, List.map_cons, List.flatMap_cons, List.append_assoc]

end Draft

/-- No item is spelled such that it repeats what stands in front of it. -/
theorem head?_spell_ne (glyphs : List (Glyph Char)) :
    (glyphs.flatMap spell ++ ['$']).head? ≠ some '*' := by
  cases glyphs with
  | nil => decide
  | cons glyph glyphs =>
    cases glyph with
    | run => simp [spell]
    | any => simp [spell]
    | lit c =>
      by_cases hmeta : isMeta c = true
      · simp [spell, escape, hmeta]
      · have hne : c ≠ '*' := by
          rintro rfl
          exact hmeta (by decide)
        simp [spell, escape, hmeta, hne]

/-- The spelling of an item is read as the item. -/
theorem readParts?_spell (glyph : Glyph Char) {rest : List Char} (hrest : rest.head? ≠ some '*') :
    readParts? (spell glyph ++ rest) = (readParts? rest).map (.glyph glyph :: ·) := by
  cases glyph with
  | run => simp [spell, readParts?]
  | any =>
    have hdot : ∀ behind, rest ≠ '*' :: behind := by
      rintro behind rfl
      exact hrest rfl
    simp [spell, readParts?]
  | lit c =>
    by_cases hmeta : isMeta c = true
    · simp [spell, escape, hmeta, readParts?]
    · have hne : ∀ d, isMeta d = true → c ≠ d := by
        rintro d hd rfl
        exact hmeta hd
      have hfront := hne '^' (by decide)
      have hback := hne '$' (by decide)
      have hdot := hne '.' (by decide)
      have hbackslash := hne '\\' (by decide)
      simp [spell, escape, hmeta, readParts?, hdot, hbackslash]

theorem readParts?_flatMap_spell (glyphs : List (Glyph Char)) :
    readParts? (glyphs.flatMap spell ++ ['$']) = some (glyphs.map .glyph ++ [.back]) := by
  induction glyphs with
  | nil => rfl
  | cons glyph glyphs ih =>
    rw [List.flatMap_cons, List.append_assoc, readParts?_spell glyph (head?_spell_ne glyphs), ih]
    rfl

end Expression

/-- The expression of a pattern is read as its items between the two ends of the text. -/
theorem TagPattern.read?_expression (pattern : TagPattern) :
    Expression.read? pattern.expression = some (Expression.whole pattern.glyphs) := by
  have hstart : Expression.Draft.start.flush.written = ['(', '?', 's', ')', '^'] := by decide
  have hparts := Expression.readParts?_flatMap_spell pattern.glyphs
  unfold expression Expression.read?
  rw [String.toList_ofList, Expression.Draft.flush_foldl_see, hstart]
  exact congrArg (Option.map (Expression.Part.front :: ·)) hparts

end OpTrace
