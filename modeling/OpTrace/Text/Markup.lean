/-!
# Markup

Charts and node labels are written as markup: elements with attributes around texts and further
elements. `Markup.write` is the only place where a tree becomes text, and it escapes every text
and every value, so what a trace says can never add an element or end one.
-/

namespace OpTrace

/-- The entity for a character that has a meaning in markup, and the character itself otherwise. -/
def escapeMarkupChar (c : Char) : List Char :=
  if c = '&' then "&amp;".toList
  else if c = '<' then "&lt;".toList
  else if c = '>' then "&gt;".toList
  else if c = '"' then "&quot;".toList
  else [c]

def escapeMarkup (text : List Char) : List Char := text.flatMap escapeMarkupChar

/-- A tree of elements and texts. -/
inductive Markup where
  | text (s : String)
  /-- an element that encloses others -/
  | element (tag : String) (attributes : List (String × String)) (children : List Markup)
  /-- an element that encloses nothing -/
  | single (tag : String) (attributes : List (String × String))

namespace Markup

/-- An attribute with its value between quotes, behind a blank. -/
def writeAttribute (pair : String × String) : List Char :=
  ' ' :: pair.1.toList ++ '=' :: '"' :: escapeMarkup pair.2.toList ++ ['"']

/-- The name of an element with its attributes. -/
def opening (tag : String) (attributes : List (String × String)) : List Char :=
  '<' :: tag.toList ++ attributes.flatMap writeAttribute

mutual

def write : Markup → List Char
  | text s => escapeMarkup s.toList
  | element tag attributes children =>
    opening tag attributes ++ '>' :: writeAll children ++ '<' :: '/' :: tag.toList ++ ['>']
  | single tag attributes => opening tag attributes ++ ['/', '>']

def writeAll : List Markup → List Char
  | [] => []
  | item :: items => item.write ++ writeAll items

end

end Markup

end OpTrace
