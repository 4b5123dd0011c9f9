import Gatehouse.Text.Blank

/-!
# Characters of KDL documents

What separates words, what ends a line, and what may not be written at all.
-/

namespace Gatehouse.Kdl

/-- A blank inside a line. -/
def isSpace (c : Char) : Bool :=
  let n := c.toNat
  n == 0x9 || n == 0x20 || n == 0xA0 || n == 0x1680 || (0x2000 ≤ n && n ≤ 0x200A) ||
  n == 0x202F || n == 0x205F || n == 0x3000

/-- A character that ends a line; a carriage return and a line feed after it end one line. -/
def isNewline (c : Char) : Bool :=
  let n := c.toNat
  (0xA ≤ n && n ≤ 0xD) || n == 0x85 || n == 0x2028 || n == 0x2029

/-- A character that may not be written as itself. -/
def isForbidden (c : Char) : Bool :=
  let n := c.toNat
  n ≤ 0x8 || (0xE ≤ n && n ≤ 0x1F) || n == 0x7F || n == 0x200E || n == 0x200F ||
  (0x202A ≤ n && n ≤ 0x202E) || (0x2066 ≤ n && n ≤ 0x2069) || n == 0xFEFF

/-- The characters with a meaning of their own. -/
def punctuation : List Char :=
  ['\\', '/', '(', ')', '\x7b', '\x7d', ';', '[', ']', '"', '#', '=']

/-- May the character stand in a bare word? -/
def isWordChar (c : Char) : Bool :=
  !(isSpace c || isNewline c || isForbidden c || punctuation.contains c)

/-- The number of characters at the front that end one line, or 0. -/
def newlineLength : List Char → Nat
  | '\r' :: '\n' :: _ => 2
  | c :: _ => if isNewline c then 1 else 0
  | [] => 0

/-- The lines of a text, without what ends them; always at least one. -/
def linesOf : List Char → List (List Char)
  | [] => [[]]
  | c :: r =>
    if c == '\r' && r.head? == some '\n' then linesOf r
    else if isNewline c then [] :: linesOf r
    else match linesOf r with
      | [] => [[c]]
      | line :: more => (c :: line) :: more

end Gatehouse.Kdl
