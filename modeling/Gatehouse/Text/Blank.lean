/-!
# Blanks, words and lines

A blank is a character with the Unicode property White_Space. Texts are handled as lists of
characters: `trim` cuts blanks off both ends, `words` gives the maximal runs of non-blanks, and
`lines` the lines of a text, where a line ends at `\n` or `\r\n` and an empty last line does not
count.
-/

namespace Gatehouse.Text

/-- The characters with the Unicode property White_Space. -/
def isBlank (c : Char) : Bool :=
  let n := c.toNat
  (0x9 ≤ n && n ≤ 0xD) || n == 0x20 || n == 0x85 || n == 0xA0 || n == 0x1680 ||
  (0x2000 ≤ n && n ≤ 0x200A) || n == 0x2028 || n == 0x2029 || n == 0x202F || n == 0x205F ||
  n == 0x3000

/-- Cut from both ends the characters that satisfy `p`. -/
def trimWhere (p : Char → Bool) (s : List Char) : List Char :=
  ((s.dropWhile p).reverse.dropWhile p).reverse

/-- Cut the blanks off the front. -/
def trimStart (s : List Char) : List Char := s.dropWhile isBlank

/-- Cut the blanks off both ends. -/
def trim (s : List Char) : List Char := trimWhere isBlank s

/-- `trim` on strings. -/
def trimmed (s : String) : String := String.ofList (trim s.toList)

/-- The pieces of a text between the characters that satisfy `p`; always at least one. -/
def splitWhere (p : Char → Bool) : List Char → List (List Char)
  | [] => [[]]
  | c :: r =>
    if p c then [] :: splitWhere p r
    else match splitWhere p r with
      | [] => [[c]]
      | piece :: more => (c :: piece) :: more

/-- The pieces of a text between occurrences of one character. -/
def splitOn (sep : Char) (s : List Char) : List (List Char) := splitWhere (· == sep) s

/-- The maximal runs of non-blank characters. -/
def words (s : List Char) : List (List Char) :=
  (splitWhere isBlank s).filter (!·.isEmpty)

/-- Drop one carriage return at the end. -/
def dropReturn (line : List Char) : List Char :=
  if line.getLast? = some '\r' then line.dropLast else line

/-- Turn the pieces between line feeds into lines: all but the last were ended by a line feed, and
the last counts only if it is not empty. -/
def terminated : List (List Char) → List (List Char)
  | [] => []
  | [last] => if last.isEmpty then [] else [last]
  | piece :: more => dropReturn piece :: terminated more

/-- The lines of a text. -/
def lines (s : List Char) : List (List Char) := terminated (splitOn '\n' s)

/-- Split at the first occurrence of a character; `none` if there is none. -/
def cutAt (sep : Char) : List Char → Option (List Char × List Char)
  | [] => none
  | c :: r => if c == sep then some ([], r) else (cutAt sep r).map fun (a, b) => (c :: a, b)

/-- Split at the first occurrence of a text; `none` if it does not occur. -/
def cut (mark : List Char) : List Char → Option (List Char × List Char)
  | [] => if mark.isEmpty then some ([], []) else none
  | c :: r =>
    if mark.isPrefixOf (c :: r) then some ([], (c :: r).drop mark.length)
    else (cut mark r).map fun (a, b) => (c :: a, b)

/-- Does `mark` occur in the text? -/
def contains (mark s : List Char) : Bool := (cut mark s).isSome

/-- The rest after a given beginning. -/
def dropFront? : List Char → List Char → Option (List Char)
  | [], s => some s
  | _ :: _, [] => none
  | m :: mark, c :: r => if m = c then dropFront? mark r else none

/-- The text before a given last character. -/
def dropBack? (last : Char) (s : List Char) : Option (List Char) :=
  if s.getLast? = some last then some s.dropLast else none

end Gatehouse.Text
