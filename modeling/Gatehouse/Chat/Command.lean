import Gatehouse.Text.Blank

/-!
# Slash commands

A command is a line of a comment that, blanks at its ends aside, is a slash, a name of ASCII
letters, digits, `_` and `-` that starts with a letter or digit, and then either nothing or a blank
and any arguments. Every other line is ordinary text.
-/

namespace Gatehouse.Chat

open Text

/-- A command found in a comment, such as `/approve cancel`. -/
structure Command where
  name : String
  args : List String
  deriving DecidableEq, Repr

/-- May the character start a command's name? -/
def isNameStart (c : Char) : Bool := c.isAlphanum

/-- May the character stand in a command's name? -/
def isNameChar (c : Char) : Bool := c.isAlphanum || c == '_' || c == '-'

/-- The command on a line that has no blanks at its ends. -/
def Command.ofTrimmed? : List Char → Option Command
  | '/' :: c :: r =>
    if isNameStart c then
      let name := c :: r.takeWhile isNameChar
      let rest := r.dropWhile isNameChar
      match rest with
      | [] => some ⟨String.ofList name, []⟩
      | b :: _ =>
        if isBlank b then some ⟨String.ofList name, (words rest).map String.ofList⟩ else none
    else none
  | _ => none

/-- The command on a line, if it is one. -/
def Command.ofLine? (line : List Char) : Option Command := Command.ofTrimmed? (trim line)

/-- The commands of a text in order, one per line that is a command. -/
def commandsIn (s : List Char) : List Command := (lines s).filterMap Command.ofLine?

/-- The commands of a comment's body. -/
def extractCommands (body : String) : List Command := commandsIn body.toList

end Gatehouse.Chat
