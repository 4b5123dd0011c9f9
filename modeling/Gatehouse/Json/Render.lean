import Gatehouse.Json.Basic

/-!
# Writing JSON documents

`Json.render` writes a value without blanks, `Json.pretty` with one member or item a line and two
blanks of indentation. Only quotes, backslashes and control characters are escaped in strings.
-/

namespace Gatehouse.Json

/-- A hexadecimal digit in lower case. -/
def hexChar (n : Nat) : Char :=
  if n < 10 then Char.ofNat ('0'.toNat + n) else Char.ofNat ('a'.toNat + n - 10)

/-- A character inside a string. -/
def escape (c : Char) : List Char :=
  match c with
  | '"' => ['\\', '"']
  | '\\' => ['\\', '\\']
  | '\x08' => ['\\', 'b']
  | '\x0c' => ['\\', 'f']
  | '\n' => ['\\', 'n']
  | '\r' => ['\\', 'r']
  | '\t' => ['\\', 't']
  | c =>
    if c.toNat < 0x20 then
      ['\\', 'u', '0', '0', hexChar (c.toNat / 16), hexChar (c.toNat % 16)]
    else [c]

/-- A string with its quotes. -/
def quote (s : String) : List Char := '"' :: (s.toList.flatMap escape ++ ['"'])

mutual

/-- The characters of a value. -/
def chars : Json → List Char
  | .null => "null".toList
  | .bool b => (if b then "true" else "false").toList
  | .int n => (toString n).toList
  | .real text => text.toList
  | .str s => quote s
  | .arr [] => ['[', ']']
  | .arr (v :: items) => '[' :: (chars v ++ itemChars items)
  | .obj [] => ['\x7b', '\x7d']
  | .obj ((k, v) :: members) => '\x7b' :: (quote k ++ ':' :: (chars v ++ memberChars members))
  | .garbled => "null".toList

/-- The characters of the items after the first, and the closing bracket. -/
def itemChars : List Json → List Char
  | [] => [']']
  | v :: items => ',' :: (chars v ++ itemChars items)

/-- The characters of the members after the first, and the closing brace. -/
def memberChars : List (String × Json) → List Char
  | [] => ['\x7d']
  | (k, v) :: members => ',' :: (quote k ++ ':' :: (chars v ++ memberChars members))

end

/-- The text of a value. -/
def render (v : Json) : String := String.ofList (chars v)

/-- A line break followed by two blanks for each level. -/
def indent (level : Nat) : List Char := '\n' :: List.replicate (2 * level) ' '

mutual

/-- The characters of a value at a level of indentation. -/
def prettyChars (level : Nat) : Json → List Char
  | .arr [] => ['[', ']']
  | .arr (v :: items) =>
    '[' :: (indent (level + 1) ++ prettyChars (level + 1) v ++ prettyItems level items)
  | .obj [] => ['\x7b', '\x7d']
  | .obj ((k, v) :: members) =>
    '\x7b' :: (indent (level + 1) ++ quote k ++ [':', ' '] ++ prettyChars (level + 1) v ++
      prettyMembers level members)
  | .null => chars .null
  | .bool b => chars (.bool b)
  | .int n => chars (.int n)
  | .real text => chars (.real text)
  | .str s => chars (.str s)
  | .garbled => chars .garbled

/-- The items after the first, and the closing bracket. -/
def prettyItems (level : Nat) : List Json → List Char
  | [] => indent level ++ [']']
  | v :: items =>
    ',' :: (indent (level + 1) ++ prettyChars (level + 1) v ++ prettyItems level items)

/-- The members after the first, and the closing brace. -/
def prettyMembers (level : Nat) : List (String × Json) → List Char
  | [] => indent level ++ ['\x7d']
  | (k, v) :: members =>
    ',' :: (indent (level + 1) ++ quote k ++ [':', ' '] ++ prettyChars (level + 1) v ++
      prettyMembers level members)

end

/-- The text of a value over several lines. -/
def pretty (v : Json) : String := String.ofList (prettyChars 0 v)

end Gatehouse.Json
