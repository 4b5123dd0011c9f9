import Gatehouse.Kdl.Quoted
import Gatehouse.Kdl.Word

/-!
# Tokens of KDL documents

A document is first cut into tokens. Comments inside a line and line ends after a backslash count as
blanks, comments up to the end of a line as part of its end, and blanks that cannot separate anything
are dropped.
-/

namespace Gatehouse.Kdl

inductive Token where
  | value (v : Value)
  /-- A type in parentheses. -/
  | typeMark
  | blank
  | lineEnd
  | semicolon
  | equals
  | openBrace
  | closeBrace
  | openParen
  | closeParen
  | backslash
  /-- Takes away the node, entry or children after it. -/
  | slashdash
  deriving DecidableEq, Repr

namespace Token

/-- The length of a comment that may hold comments, after its first two characters; `depth` comments
are open around the place. -/
def commentLength? (depth : Nat) : List Char → Option Nat
  | [] => none
  | '*' :: '/' :: r => if depth = 0 then some 2 else (commentLength? (depth - 1) r).map (· + 2)
  | '/' :: '*' :: r => (commentLength? (depth + 1) r).map (· + 2)
  | _ :: r => (commentLength? depth r).map (· + 1)

/-- The token at the front, and how many characters it takes. -/
def front? (s : List Char) : Option (Token × Nat) :=
  match s with
  | [] => none
  | '/' :: '-' :: _ => some (.slashdash, 2)
  | '/' :: '/' :: r =>
    let comment := r.takeWhile fun c => !isNewline c
    some (.lineEnd, 2 + comment.length + newlineLength (r.drop comment.length))
  | '/' :: '*' :: r => (commentLength? 0 r).map fun n => (.blank, n + 2)
  | ';' :: _ => some (.semicolon, 1)
  | '=' :: _ => some (.equals, 1)
  | '\x7b' :: _ => some (.openBrace, 1)
  | '\x7d' :: _ => some (.closeBrace, 1)
  | '(' :: _ => some (.openParen, 1)
  | ')' :: _ => some (.closeParen, 1)
  | '\\' :: _ => some (.backslash, 1)
  | '"' :: _ => (quoted? s).map fun (t, n) => (.value (.text t), n)
  | '#' :: r =>
    let word := r.takeWhile isWordChar
    if word.isEmpty then (rawQuoted? s).map fun (t, n) => (.value (.text t), n)
    else (keywordValue? (String.ofList word)).map fun v => (.value v, word.length + 1)
  | c :: _ =>
    if isSpace c then some (.blank, 1)
    else if isNewline c then some (.lineEnd, newlineLength s)
    else
      let word := s.takeWhile isWordChar
      if word.isEmpty then none else (wordValue? word).map fun v => (.value v, word.length)

/-- The tokens of a text; the first `skip` characters belong to the token before. -/
def scan : Nat → List Char → Option (List Token)
  | _, [] => some []
  | skip + 1, _ :: r => scan skip r
  | 0, c :: r => do
    let (token, length) ← front? (c :: r)
    let rest ← scan (length - 1) r
    some (token :: rest)

/-- Turn a line end after a backslash into a blank; `continued` tells that a backslash was read, and
nothing but blanks since. -/
def joinContinued : Bool → List Token → Option (List Token)
  | false, [] => some []
  | true, [] => some [.blank]
  | false, .backslash :: r => joinContinued true r
  | false, t :: r => (joinContinued false r).map (t :: ·)
  | true, .blank :: r => joinContinued true r
  | true, .lineEnd :: r => (joinContinued false r).map (.blank :: ·)
  | true, _ :: _ => none

/-- Is a blank of no use after the token? -/
def glues : Token → Bool
  | equals => true
  | openParen => true
  | closeParen => true
  | slashdash => true
  | blank => true
  | _ => false

/-- Drop the blanks after tokens that need none, and line ends after a slashdash. -/
def dropAfter : Option Token → List Token → List Token
  | _, [] => []
  | previous, .blank :: r =>
    if previous.any glues then dropAfter previous r else .blank :: dropAfter (some .blank) r
  | previous, .lineEnd :: r =>
    if previous = some .slashdash then dropAfter previous r
    else .lineEnd :: dropAfter (some .lineEnd) r
  | _, t :: r => t :: dropAfter (some t) r

/-- Drop the blanks before an equals sign and a closing parenthesis. -/
def dropBefore : List Token → List Token
  | [] => []
  | .blank :: r =>
    match dropBefore r with
    | .equals :: rest => .equals :: rest
    | .closeParen :: rest => .closeParen :: rest
    | rest => .blank :: rest
  | t :: r => t :: dropBefore r

/-- Turn types in parentheses into single tokens. -/
def annotate : List Token → Option (List Token)
  | [] => some []
  | .openParen :: .value (.text _) :: .closeParen :: r => (annotate r).map (.typeMark :: ·)
  | .openParen :: _ => none
  | t :: r => (annotate r).map (t :: ·)

/-- A text without the byte order mark at its front. -/
def withoutMark : List Char → List Char
  | '\ufeff' :: r => r
  | s => s

/-- The tokens of a document, as far as they matter. -/
def ofText? (s : List Char) : Option (List Token) := do
  let tokens ← scan 0 (withoutMark s)
  let tokens ← joinContinued false tokens
  annotate (dropBefore (dropAfter none tokens))

end Token

end Gatehouse.Kdl
