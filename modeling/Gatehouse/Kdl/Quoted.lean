import Gatehouse.Kdl.Letters
import Gatehouse.Text.Decimal
import Gatehouse.Text.Hex

/-!
# Strings of KDL documents

A string is written between quotes on one line, or between triple quotes over several lines. A
backslash escapes a character, or swallows the blanks and line ends after it. Between hash signs
nothing is escaped. In a string of several lines the blanks before the closing quotes are cut off
the front of every line.
-/

namespace Gatehouse.Kdl

/-- The position of the first quotes (one or three of them) that no backslash escapes. -/
def closing? (quotes : List Char) : List Char → Option Nat
  | [] => none
  | '\\' :: _ :: r => (closing? quotes r).map (· + 2)
  | c :: r => if quotes.isPrefixOf (c :: r) then some 0 else (closing? quotes r).map (· + 1)

/-- The position of the first occurrence of a mark. -/
def position? (mark : List Char) : List Char → Option Nat
  | [] => none
  | c :: r => if mark.isPrefixOf (c :: r) then some 0 else (position? mark r).map (· + 1)

/-- The character that a letter after a backslash stands for. -/
def escaped? : Char → Option Char
  | '"' => some '"'
  | '\\' => some '\\'
  | 'b' => some '\x08'
  | 'f' => some '\x0c'
  | 'n' => some '\n'
  | 'r' => some '\r'
  | 't' => some '\t'
  | 's' => some ' '
  | _ => none

/-- The character with the code that is written between braces in one to six hexadecimal digits,
and the number of characters that this takes. -/
def coded? : List Char → Option (Char × Nat)
  | '\x7b' :: r => do
    let digits := r.takeWhile (· != '\x7d')
    if digits.isEmpty ∨ 6 < digits.length ∨ digits.length = r.length then none
    let n := Text.ofDigits 16 (← digits.mapM Text.hexDigit?)
    if n.isValidChar then some (Char.ofNat n, digits.length + 2) else none
  | _ => none

/-- Where the reading of escapes stands. -/
inductive Unescaping where
  | plain
  /-- After a backslash that swallows blanks and line ends. -/
  | swallowing
  /-- Inside an escape that has been read; so many characters are left of it. -/
  | skipping (left : Nat)

/-- The string that the characters between quotes stand for. -/
def unescape : Unescaping → List Char → Option (List Char)
  | _, [] => some []
  | .skipping (n + 1), _ :: r => unescape (if n = 0 then .plain else .skipping n) r
  | mode, c :: r =>
    if (isSpace c || isNewline c) && mode matches .swallowing then unescape .swallowing r
    else if c == '\\' then
      match r with
      | [] => none
      | 'u' :: code => do
        let (x, n) ← coded? code
        (unescape (.skipping (n + 1)) r).map (x :: ·)
      | e :: _ =>
        if isSpace e || isNewline e then unescape .swallowing r
        else do
          let x ← escaped? e
          (unescape (.skipping 1) r).map (x :: ·)
    else if isNewline c || isForbidden c then none
    else (unescape .plain r).map (c :: ·)

/-- Swallow the blanks and line ends after backslashes, and leave other escapes alone. -/
def joinLines : Unescaping → List Char → List Char
  | _, [] => []
  | .skipping _, c :: r => c :: joinLines .plain r
  | mode, c :: r =>
    if (isSpace c || isNewline c) && mode matches .swallowing then joinLines .swallowing r
    else if c == '\\' then
      if r.head?.any fun e => isSpace e || isNewline e then joinLines .swallowing r
      else c :: joinLines (.skipping 1) r
    else c :: joinLines .plain r

/-- A line without the blanks that its string has at the front of every line. -/
def dedentLine (margin line : List Char) : Option (List Char) :=
  if line.all isSpace then some [] else Text.dropFront? margin line

/-- The lines of a string over several lines, given the characters between the triple quotes. The
first line is empty, and the last has only blanks, which are cut off the others. -/
def dedent (body : List Char) : Option (List (List Char)) :=
  match linesOf body with
  | [] :: rest =>
    match rest.getLast? with
    | none => none
    | some margin => if margin.all isSpace then rest.dropLast.mapM (dedentLine margin) else none
  | _ => none

/-- Lines with line feeds between them. -/
def unlines (lines : List (List Char)) : List Char := ['\n'].intercalate lines

/-- A string at the front, between plain quotes, and how many characters it takes. -/
def quoted? (s : List Char) : Option (String × Nat) :=
  match s with
  | '"' :: '"' :: '"' :: r => do
    let n ← closing? ['"', '"', '"'] r
    let lines ← dedent (joinLines .plain (r.take n))
    let lines ← lines.mapM (unescape .plain)
    some (String.ofList (unlines lines), n + 6)
  | '"' :: r => do
    let n ← closing? ['"'] r
    let cs ← unescape .plain (r.take n)
    some (String.ofList cs, n + 2)
  | _ => none

/-- A string at the front, between quotes and hash signs, and how many characters it takes. -/
def rawQuoted? (s : List Char) : Option (String × Nat) :=
  let hashes := s.takeWhile (· == '#')
  match s.drop hashes.length with
  | '"' :: '"' :: '"' :: r =>
    if newlineLength r = 0 then
      -- Not the start of several lines: an empty string, if the quotes and hash signs close it.
      if hashes.isPrefixOf ('"' :: r) then some ("", 2 * hashes.length + 2) else none
    else do
      let n ← position? (['"', '"', '"'] ++ hashes) r
      let lines ← dedent (r.take n)
      if lines.any (·.any isForbidden) then none
      some (String.ofList (unlines lines), n + 6 + 2 * hashes.length)
  | '"' :: r => do
    let n ← position? ('"' :: hashes) r
    let cs := r.take n
    if cs.any fun c => isNewline c || isForbidden c then none
    some (String.ofList cs, n + 2 + 2 * hashes.length)
  | _ => none

end Gatehouse.Kdl
