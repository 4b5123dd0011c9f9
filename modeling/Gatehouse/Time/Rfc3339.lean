import Gatehouse.Text.Blank
import Gatehouse.Text.Decimal
import Gatehouse.Time.Instant

/-!
# Times as text

Times are written as RFC 3339 has it, in universal time with a `Z`. Reading knows three grammars:
the strict one of RFC 3339, a relaxed one for documents, and `2024-01-02 15:04:05 UTC`, which
some webhooks send.
-/

namespace Gatehouse.Instant

open Text

/-- The digits of a number, with zeros in front up to a width. -/
def padded (width n : Nat) : List Char :=
  let ds := Nat.toDigits 10 n
  List.replicate (width - ds.length) '0' ++ ds

/-- A year: four digits, or a sign and at least four digits outside 0 to 9999. -/
def yearChars (year : Int) : List Char :=
  if year < 0 then '-' :: padded 4 year.natAbs
  else if year < 10000 then padded 4 year.natAbs
  else '+' :: padded 4 year.natAbs

/-- The fraction of a second in three, six or nine digits, as many as it needs; nothing for none. -/
def fractionChars (nanos : Nat) : List Char :=
  if nanos = 0 then []
  else if nanos % 1000000 = 0 then '.' :: padded 3 (nanos / 1000000)
  else if nanos % 1000 = 0 then '.' :: padded 6 (nanos / 1000)
  else '.' :: padded 9 nanos

/-- Date and time of day with a given fraction. -/
def charsWith (fraction : List Char) (t : Instant) : List Char :=
  yearChars t.date.year ++ '-' :: (padded 2 t.date.month ++ '-' :: (padded 2 t.date.day ++
    'T' :: (padded 2 t.hour ++ ':' :: (padded 2 t.minute ++ ':' :: (padded 2 t.second ++
      (fraction ++ ['Z']))))))

/-- A time with its fraction of a second. -/
def render (t : Instant) : String := String.ofList (charsWith (fractionChars t.nanos) t)

/-- A time in whole seconds. -/
def renderSeconds (t : Instant) : String := String.ofList (charsWith [] t)

/-- A number of at least `least` and at most `most` digits, and the rest. -/
def number (least most : Nat) (s : List Char) : Option (Nat × List Char) :=
  let ds := (s.take most).takeWhile Char.isDigit
  if ds.length < least ∨ ds.isEmpty then none
  else (natural? ds).map fun n => (n, s.drop ds.length)

/-- One given character, and the rest. -/
def literal (c : Char) : List Char → Option (List Char)
  | d :: r => if c = d then some r else none
  | [] => none

/-- A number of one or two digits after any blanks. -/
def field (s : List Char) : Option (Nat × List Char) := number 1 2 (trimStart s)

/-- A year after any blanks: up to four digits, or a sign and any number of digits. -/
def yearField (s : List Char) : Option (Int × List Char) :=
  match trimStart s with
  | '-' :: r => (number 1 r.length r).map fun (n, r) => (-(n : Int), r)
  | '+' :: r => (number 1 r.length r).map fun (n, r) => ((n : Int), r)
  | s => (number 1 4 s).map fun (n, r) => ((n : Int), r)

/-- A fraction of a second, in nanoseconds; digits beyond the ninth are dropped. -/
def fraction : List Char → Option (Nat × List Char)
  | '.' :: r =>
    (number 1 9 r).map fun (n, rest) =>
      (n * Nat.pow 10 (9 - (r.length - rest.length)), rest.dropWhile Char.isDigit)
  | s => some (0, s)

/-- An offset from universal time in minutes: `Z`, or a sign, two digits of hours, a separator and two
digits of minutes. -/
def offset (separator : List Char → Option (List Char)) : List Char → Option (Int × List Char)
  | [] => none
  | c :: r =>
    if c == 'Z' || c == 'z' then some (0, r)
    else if c == '+' || c == '-' || c == '\u2212' then do
      let (hours, r) ← number 2 2 r
      let r ← separator r
      let (minutes, r) ← number 2 2 r
      if minutes < 60 ∧ hours < 24 then
        let total : Int := hours * 60 + minutes
        some (if c == '+' then total else -total, r)
      else none
    else none

/-- The instant with the given parts, seen from an offset. -/
def assemble (year : Int) (month day hour minute second nanos : Nat) (minutes : Int) :
    Option Instant := do
  let date ← Date.of? year month day
  if !date.inRange then none
  let t ← Instant.of? date hour minute second nanos
  let t := t.behind minutes
  if t.date.inRange then some t else none

/-- The relaxed grammar: fields of fewer digits, blanks before fields and separators, a blank for the
`T`, `UTC` for the offset. -/
def parseRelaxed (s : List Char) : Option Instant := do
  let (year, s) ← yearField s
  let s ← literal '-' (trimStart s)
  let (month, s) ← field s
  let s ← literal '-' (trimStart s)
  let (day, s) ← field s
  let s ← match s with
    | c :: r => if c == 'T' || c == 't' || c == ' ' then some r else none
    | [] => none
  let (hour, s) ← field s
  let s ← literal ':' (trimStart s)
  let (minute, s) ← field s
  let s ← literal ':' (trimStart s)
  let (second, s) ← field s
  let (nanos, s) ← fraction s
  let s := trimStart s
  let (minutes, s) ←
    if (s.take 3).map Char.toUpper = "UTC".toList then some (0, s.drop 3)
    else offset (fun r => some (r.dropWhile fun c => c == ':' || isBlank c)) s
  if (trimStart s).isEmpty then assemble year month day hour minute second nanos minutes else none

/-- The grammar of RFC 3339, with a blank allowed for the `T`. -/
def parseStrict (s : List Char) : Option Instant := do
  let (year, s) ← number 4 4 s
  let s ← literal '-' s
  let (month, s) ← number 2 2 s
  let s ← literal '-' s
  let (day, s) ← number 2 2 s
  let s ← match s with
    | c :: r => if c == 'T' || c == 't' || c == ' ' then some r else none
    | [] => none
  let (hour, s) ← number 2 2 s
  let s ← literal ':' s
  let (minute, s) ← number 2 2 s
  let s ← literal ':' s
  let (second, s) ← number 2 2 s
  let (nanos, s) ← fraction s
  let (minutes, s) ← offset (literal ':') s
  if s.isEmpty then assemble year month day hour minute second nanos minutes else none

/-- A time such as `2024-01-02 15:04:05 UTC`, with any blanks between its parts. -/
def parseSpaced (s : List Char) : Option Instant := do
  let (year, s) ← yearField s
  let s ← literal '-' s
  let (month, s) ← field s
  let s ← literal '-' s
  let (day, s) ← field s
  let (hour, s) ← field s
  let s ← literal ':' s
  let (minute, s) ← field s
  let s ← literal ':' s
  let (second, s) ← field s
  if trimStart s = "UTC".toList then assemble year month day hour minute second 0 0 else none

end Gatehouse.Instant
