import OpTrace.Toml.Text

/-!
# Written names

A name may stand in a key as it is if it has letters of the ASCII alphabet, digits, dashes and
underscores only. Any other name has to be quoted. Quotes without escapes are chosen for a name
that would need a backslash otherwise, unless they cannot hold it.
-/

namespace OpTrace

namespace Toml

/-- May the character stand in a key without quotes? -/
def isKeyChar (c : Char) : Bool := c.isAlphanum || c = '-' || c = '_'

/-- A character as it is written between quotes that know escapes. -/
def escapedChar (c : Char) : List Char :=
  match c with
  | '\x08' => ['\\', 'b']
  | '\t' => ['\\', 't']
  | '\n' => ['\\', 'n']
  | '\x0C' => ['\\', 'f']
  | '\r' => ['\\', 'r']
  | '"' => ['\\', '"']
  | '\\' => ['\\', '\\']
  | c =>
    if isTextChar c then [c]
    else
      let digits := (Nat.toDigits 16 c.toNat).map Char.toUpper
      ['\\', 'u'] ++ List.replicate (4 - digits.length) '0' ++ digits

def writtenName (name : String) : String :=
  let chars := name.toList
  if chars ≠ [] ∧ chars.all isKeyChar then name
  else if chars.any (fun c ↦ c = '"' || c = '\\') ∧
      chars.all (fun c ↦ c ≠ '\'' && isTextChar c) then
    String.ofList ('\'' :: (chars ++ ['\'']))
  else String.ofList ('"' :: (chars.flatMap escapedChar ++ ['"']))

end Toml

end OpTrace
