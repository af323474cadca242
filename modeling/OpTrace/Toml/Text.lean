import OpTrace.Text.Hexadecimal
import OpTrace.Toml.Fault

/-!
# Blanks, comments and quoted texts

Control characters other than the tab stand for themselves neither in comments nor in quotes. Lines
end with a line feed, perhaps behind a carriage return. Quotes come in two kinds, of which one
knows escapes, and in threes for texts of several lines. A backslash at the end of a line of such a
text joins the line to what follows the next blanks.
-/

namespace OpTrace

namespace Toml

def isBlank (c : Char) : Bool := c = ' ' || c = '\t'

def skipBlanks (text : List Char) : List Char := text.dropWhile isBlank

/-- May the character stand in a comment, or in quotes as itself? -/
def isTextChar (c : Char) : Bool := c = '\t' || (' ' ≤ c && c ≠ Char.ofNat 0x7F)

/-- Passes over a comment, up to what cannot belong to it. -/
def skipComment : List Char → List Char
  | '#' :: rest => rest.dropWhile isTextChar
  | text => text

/-- What is left behind the end of a line. -/
def afterLineEnd? : List Char → Option (List Char)
  | '\n' :: rest => some rest
  | '\r' :: '\n' :: rest => some rest
  | _ => none

/-- Passes over blanks, a comment and the end of the line, or of the text. -/
def skipLine (text : List Char) : Reading (List Char) :=
  let rest := skipComment (skipBlanks text)
  match afterLineEnd? rest with
  | some next => .ok next
  | none => if rest.isEmpty then .ok [] else .error (.atPlace rest)

def skipRestOfLine (text : List Char) : Reading (List Char) :=
  (skipLine text).mapError fun fault ↦
    { fault with complaint.detail := some (.expected ["newline", "`#`"]), isFinal := true }

/-- Passes over blanks, line ends and comments. A comment has to end before the text does; what ends
neither it nor the text is passed over, too, before the fault is noticed. -/
def skipSpaceFrom (isComment : Bool) : List Char → Reading (List Char)
  | [] => if isComment then .error (.atPlace []) else .ok []
  | '\n' :: rest => skipSpaceFrom false rest
  | '\r' :: rest =>
    match rest with
    | '\n' :: next => skipSpaceFrom false next
    | rest => .error (.atPlace rest)
  | c :: rest =>
    if isComment then
      if isTextChar c then skipSpaceFrom true rest else .error (.atPlace rest)
    else if isBlank c then skipSpaceFrom false rest
    else if c = '#' then skipSpaceFrom true rest
    else .ok (c :: rest)

def skipSpace (text : List Char) : Reading (List Char) := skipSpaceFrom false text

/-- The character with the number that the given count of hexadecimal digits write. Surrogates are
no characters. -/
def hexChar (count : Nat) (text : List Char) : Reading Char :=
  match (text.take count).mapM hexDigit? with
  | some digits =>
    if digits.length = count then
      let number := digits.foldl (fun n d ↦ 16 * n + d) 0
      if number < 0xD800 ∨ (0xDFFF < number ∧ number ≤ 0x10FFFF) then .ok (Char.ofNat number)
      else .error (.atPlace text (some .outOfRange))
    else .error (.atPlace text)
  | none => .error (.atPlace text)

def escaped? : Char → Option Char
  | 'b' => some '\x08'
  | 't' => some '\t'
  | 'n' => some '\n'
  | 'f' => some '\x0C'
  | 'r' => some '\r'
  | '"' => some '"'
  | '\\' => some '\\'
  | _ => none

def escapeLetters : List String := ["`b`", "`f`", "`n`", "`r`", "`t`", "`u`", "`U`", "`\\`", "`\"`"]

def skipEmptyLines : List Char → List Char
  | [] => []
  | '\r' :: rest =>
    match rest with
    | '\n' :: next => skipEmptyLines next
    | rest => '\r' :: rest
  | c :: rest => if isBlank c || c = '\n' then skipEmptyLines rest else c :: rest

/-- The place of a letter that a backslash cannot stand in front of: behind the letter, but the
letter itself if it takes several bytes. -/
def badLetterPlace (letter : Char) (rest : List Char) : List Char :=
  if letter.utf8Size = 1 then rest else letter :: rest

/-- What a backslash in front of the given text stands for, and how many characters behind the
backslash belong to it. It stands for nothing if it joins lines. -/
def escape (joinsLines : Bool) (text : List Char) : Reading (List Char × Nat) :=
  match if joinsLines then afterLineEnd? (skipBlanks text) else none with
  | some next => .ok ([], text.length - (skipEmptyLines next).length)
  | none =>
    match text with
    | 'u' :: rest => do return ([← final (within .shortCode (hexChar 4 rest))], 5)
    | 'U' :: rest => do return ([← final (within .longCode (hexChar 8 rest))], 9)
    | letter :: rest =>
      match escaped? letter with
      | some char => .ok ([char], 1)
      | none =>
        let place := badLetterPlace letter rest
        final (within .escape (.error (.atPlace place (some (.expected escapeLetters)))))
    | [] => .error (.atPlace [])

/-- How a text is quoted. -/
structure Quoting where
  mark : Char
  triple : Bool
  deriving DecidableEq, Repr

namespace Quoting

def construct : Quoting → Construct
  | ⟨'"', false⟩ => .basicText
  | ⟨'"', true⟩ => .longBasicText
  | ⟨_, false⟩ => .literalText
  | ⟨_, true⟩ => .longLiteralText

end Quoting

/-- Reads the rest of a text of one line. Its first `skip` characters are read already; `seen` holds
the characters of the quoted text so far, last one first. -/
def shortTextFrom (mark : Char) (skip : Nat) (seen : List Char) :
    List Char → Reading (String × List Char)
  | [] => .error (.atPlace [])
  | c :: rest =>
    match skip with
    | skip + 1 => shortTextFrom mark skip seen rest
    | 0 =>
      if c = mark then .ok (String.ofList seen.reverse, rest)
      else if c = '\\' && mark = '"' then
        if rest.isEmpty then .error (.atPlace (c :: rest))
        else do
          let (chars, width) ← escape false rest
          shortTextFrom mark width (chars.reverse ++ seen) rest
      else if isTextChar c then shortTextFrom mark 0 (c :: seen) rest
      else .error (.atPlace (c :: rest))

/-- May the text go on in this way behind one or two marks? Where there are escapes, whatever comes
next is looked at by itself. -/
def goesOn (mark : Char) (text : List Char) : Bool :=
  match text with
  | [] => false
  | c :: _ => mark = '"' || isTextChar c || (afterLineEnd? text).isSome

/-- Reads the rest of a text of several lines. Three marks end it; up to two more in front of them
belong to the text, as do one or two marks behind which the text goes on. -/
def longTextFrom (mark : Char) (skip : Nat) (seen : List Char) :
    List Char → Reading (String × List Char)
  | [] => .error (.atPlace [])
  | c :: rest =>
    match skip with
    | skip + 1 => longTextFrom mark skip seen rest
    | 0 =>
      if c = mark then
        let marks := ((c :: rest).takeWhile (· = mark)).length
        if 3 ≤ marks then
          let own := min (marks - 3) 2
          .ok (String.ofList (List.replicate own mark ++ seen).reverse,
            (c :: rest).drop (own + 3))
        else if goesOn mark (rest.drop (marks - 1)) then
          longTextFrom mark (marks - 1) (List.replicate marks mark ++ seen) rest
        else .error (.atPlace (c :: rest))
      else if c = '\\' && mark = '"' then
        if rest.isEmpty then .error (.atPlace (c :: rest))
        else do
          let (chars, width) ← escape true rest
          longTextFrom mark width (chars.reverse ++ seen) rest
      else if c = '\r' && rest.head? = some '\n' then longTextFrom mark 1 ('\n' :: seen) rest
      else if c = '\n' || isTextChar c then longTextFrom mark 0 (c :: seen) rest
      else .error (.atPlace (c :: rest))

/-- Reads a text of one line behind its opening mark. -/
def readShortText (mark : Char) (text : List Char) : Reading (String × List Char) :=
  final (within (Quoting.construct ⟨mark, false⟩) (shortTextFrom mark 0 [] text))

/-- Reads a text behind its opening mark, which may turn out to be the first of three. A line end
directly behind three marks does not belong to the text. -/
def readText (mark : Char) (text : List Char) : Reading (String × List Char) :=
  match text with
  | second :: third :: rest =>
    if second = mark ∧ third = mark then
      final (within (Quoting.construct ⟨mark, true⟩)
        (longTextFrom mark 0 [] ((afterLineEnd? rest).getD rest)))
    else readShortText mark text
  | _ => readShortText mark text

end Toml

end OpTrace
