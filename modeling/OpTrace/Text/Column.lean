/-!
# Columns of text

In tables for a reader a text fills its column from the left or from the right. Widths count
characters, and a text that is wider than its column is not cut.
-/

namespace OpTrace

def blanks (n : Nat) : String := String.ofList (List.replicate n ' ')

def alignRight (width : Nat) (text : String) : String := blanks (width - text.length) ++ text

def alignLeft (width : Nat) (text : String) : String := text ++ blanks (width - text.length)

end OpTrace
