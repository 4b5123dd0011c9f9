import Gatehouse.Json.Basic
import Gatehouse.Text.Decimal
import Gatehouse.Text.Hex

/-!
# Scanning JSON documents

A document is read in one pass over its characters. `Tree` is the state of the outer grammar: which
containers are open, what they hold so far and what may come next. `Scan` adds the state inside a
word, a number or a string. A `none` among the characters stands for a byte that is not part of
any UTF-8 character: it is allowed inside strings only, and makes the string unreadable. No depth
limit applies here, because the open containers are kept in a list.
-/

namespace Gatehouse.Json

/-- A container that is not closed yet, its content in reverse; `key` belongs to the value that is
being read. A name is `none` if it is not Unicode text. -/
inductive Frame where
  | array (items : List Json)
  | object (members : List (Option String × Json)) (key : Option String)

/-- The state of the outer grammar. -/
inductive Tree where
  /-- A value must come. -/
  | value (outer : List Frame)
  /-- After `[`: a value or `]`. -/
  | firstItem (outer : List Frame)
  /-- After a value of an array: a comma or `]`. -/
  | afterItem (items : List Json) (outer : List Frame)
  /-- After an opening brace: a name or the closing brace. -/
  | firstKey (outer : List Frame)
  /-- After a comma in an object: a name. -/
  | key (members : List (Option String × Json)) (outer : List Frame)
  /-- After a name: a colon. -/
  | colon (members : List (Option String × Json)) (key : Option String) (outer : List Frame)
  /-- After a member's value: a comma or the closing brace. -/
  | afterMember (members : List (Option String × Json)) (outer : List Frame)
  /-- The document is complete. -/
  | complete (v : Json)

namespace Tree

/-- Put a finished value where it belongs. -/
def deliver (v : Json) : List Frame → Tree
  | [] => .complete v
  | .array items :: outer => .afterItem (v :: items) outer
  | .object members name :: outer => .afterMember ((name, v) :: members) outer

/-- The object with the given members in reverse, garbled if one of the names is. -/
def close (members : List (Option String × Json)) : Json :=
  match members.reverse.mapM fun (k, v) => k.map fun k => (k, v) with
  | some ms => .obj ms
  | none => .garbled

/-- A value other than a container or a string. -/
def atom (v : Json) : Tree → Option Tree
  | .value outer => some (deliver v outer)
  | .firstItem outer => some (deliver v (.array [] :: outer))
  | _ => none

/-- A string, as a value or as a name; `none` if it is not Unicode text. -/
def text (s : Option String) : Tree → Option Tree
  | .value outer => some (deliver (s.elim .garbled .str) outer)
  | .firstItem outer => some (deliver (s.elim .garbled .str) (.array [] :: outer))
  | .firstKey outer => some (.colon [] s outer)
  | .key members outer => some (.colon members s outer)
  | _ => none

/-- A punctuation character. -/
def punctuation (c : Char) : Tree → Option Tree
  | .value outer =>
    if c == '[' then some (.firstItem outer)
    else if c == '\x7b' then some (.firstKey outer) else none
  | .firstItem outer =>
    if c == ']' then some (deliver (.arr []) outer)
    else if c == '[' then some (.firstItem (.array [] :: outer))
    else if c == '\x7b' then some (.firstKey (.array [] :: outer)) else none
  | .afterItem items outer =>
    if c == ',' then some (.value (.array items :: outer))
    else if c == ']' then some (deliver (.arr items.reverse) outer) else none
  | .firstKey outer =>
    if c == '\x7d' then some (deliver (.obj []) outer) else none
  | .colon members name outer =>
    if c == ':' then some (.value (.object members name :: outer)) else none
  | .afterMember members outer =>
    if c == ',' then some (.key members outer)
    else if c == '\x7d' then some (deliver (close members) outer) else none
  | _ => none

end Tree

/-- A piece of a string: a character, an escape that names a UTF-16 unit, or a stray byte. -/
inductive Piece where
  | char (c : Char)
  | unit (n : Nat)
  | stray

/-- The text of a string. Two units escaped in a row may form one character; a unit that is half of
a character has no text, and neither has a stray byte. -/
def Piece.text? : List Piece → Option (List Char)
  | [] => some []
  | .char c :: r => (Piece.text? r).map (c :: ·)
  | .stray :: _ => none
  | .unit high :: r =>
    if 0xD800 ≤ high && high < 0xDC00 then
      match r with
      | .unit low :: r =>
        if 0xDC00 ≤ low && low < 0xE000 then
          (Piece.text? r).map (Char.ofNat (0x10000 + (high - 0xD800) * 0x400 + (low - 0xDC00)) :: ·)
        else none
      | _ => none
    else if 0xDC00 ≤ high && high < 0xE000 then none
    else (Piece.text? r).map (Char.ofNat high :: ·)

/-- The character named by a one-letter escape. -/
def escape? : Char → Option Char
  | '"' => some '"'
  | '\\' => some '\\'
  | '/' => some '/'
  | 'b' => some '\x08'
  | 'f' => some '\x0c'
  | 'n' => some '\n'
  | 'r' => some '\r'
  | 't' => some '\t'
  | _ => none

/-- A non-empty run of digits and the rest. -/
def digits? (s : List Char) : Option (List Char × List Char) :=
  let ds := s.takeWhile Char.isDigit
  if ds.isEmpty then none else some (ds, s.dropWhile Char.isDigit)

/-- The parts of a number: sign, digits before the point, digits after it, exponent. -/
structure NumberParts where
  negative : Bool
  whole : List Char
  fraction : Option (List Char)
  exponent : Option Int

/-- A number as the grammar has it: no leading zero, digits on both sides of a point, digits in the
exponent. -/
def NumberParts.read? (s : List Char) : Option NumberParts := do
  let (negative, s) := match s with
    | '-' :: r => (true, r)
    | _ => (false, s)
  let (whole, s) ← digits? s
  if whole.head? = some '0' ∧ whole.length > 1 then none
  let (fraction, s) ← match s with
    | '.' :: r => (digits? r).map fun (ds, r) => (some ds, r)
    | _ => some (none, s)
  match s with
  | [] => some ⟨negative, whole, fraction, none⟩
  | c :: r =>
    if c == 'e' || c == 'E' then
      let (sign, r) : Int × List Char := match r with
        | '-' :: r => (-1, r)
        | '+' :: r => (1, r)
        | _ => (1, r)
      let (ds, r) ← digits? r
      if r.isEmpty then
        some ⟨negative, whole, fraction, (Text.natural? ds).map fun n => sign * (n : Int)⟩
      else none
    else none

/-- Is a number `m · 10 ^ e` too large for a double? The largest finite ones end half a unit below
`2 ^ 1024`. -/
def isHuge (m : Nat) (e : Int) : Bool :=
  if m = 0 then false
  else if e > 400 then true
  else if e < -400 - (Nat.toDigits 10 m).length then false
  else m * Nat.pow 10 e.toNat ≥ (1 <<< 1024 - 1 <<< 970) * Nat.pow 10 (-e).toNat

/-- The value of a number. -/
def NumberParts.value (text : List Char) (p : NumberParts) : Json :=
  let ds := p.whole ++ p.fraction.getD []
  let m := (Text.natural? ds).getD 0
  if p.fraction.isNone ∧ p.exponent.isNone ∧ ¬ (p.negative ∧ m = 0) ∧
      isInteger (if p.negative then -(m : Int) else m) then
    .int (if p.negative then -(m : Int) else m)
  else if isHuge m (p.exponent.getD 0 - (p.fraction.getD []).length) then .garbled
  else .real (String.ofList text)

/-- The number written by a text. -/
def ofNumber? (s : List Char) : Option Json := (NumberParts.read? s).map (·.value s)

/-- The value named by a word. -/
def ofWord? (s : List Char) : Option Json :=
  if s = "null".toList then some .null
  else if s = "true".toList then some (.bool true)
  else if s = "false".toList then some (.bool false)
  else none

/-- The state of the scanner; what is read so far of a word, number or string is in reverse. -/
inductive Scan where
  | between
  | word (read : List Char)
  | number (read : List Char)
  | string (read : List Piece)
  | escaped (read : List Piece)
  | unit (read : List Piece) (n : Nat) (left : Nat)

/-- The blanks of a document. -/
def isSpace (c : Char) : Bool := c == ' ' || c == '\n' || c == '\t' || c == '\r'

/-- May the character go on a number? -/
def isNumeric (c : Char) : Bool :=
  c.isDigit || c == '-' || c == '+' || c == '.' || c == 'e' || c == 'E'

namespace Scan

/-- A character outside words, numbers and strings. -/
def start (c : Char) (t : Tree) : Option (Scan × Tree) :=
  if isSpace c then some (.between, t)
  else if c == '"' then some (.string [], t)
  else if c == '-' || c.isDigit then some (.number [c], t)
  else if c.isAlpha then some (.word [c], t)
  else (t.punctuation c).map (.between, ·)

/-- End a word or number. -/
def finish : Scan → Tree → Option Tree
  | .between, t => some t
  | .word read, t => (ofWord? read.reverse).bind t.atom
  | .number read, t => (ofNumber? read.reverse).bind t.atom
  | _, _ => none

/-- One character, or a stray byte. -/
def step (c : Option Char) : Scan → Tree → Option (Scan × Tree)
  | .string read, t =>
    match c with
    | none => some (.string (.stray :: read), t)
    | some '"' => (t.text ((Piece.text? read.reverse).map String.ofList)).map (.between, ·)
    | some '\\' => some (.escaped read, t)
    | some c => if c.toNat < 0x20 then none else some (.string (.char c :: read), t)
  | .escaped read, t => do
    let c ← c
    if c == 'u' then some (.unit read 0 4, t)
    else (escape? c).map fun c => (.string (.char c :: read), t)
  | .unit read n left, t => do
    let d ← c >>= Text.hexDigit?
    if left ≤ 1 then some (.string (.unit (n * 16 + d) :: read), t)
    else some (.unit read (n * 16 + d) (left - 1), t)
  | .word read, t => do
    let c ← c
    if c.isAlpha then some (.word (c :: read), t) else finish (.word read) t >>= start c
  | .number read, t => do
    let c ← c
    if isNumeric c then some (.number (c :: read), t) else finish (.number read) t >>= start c
  | .between, t => c >>= fun c => start c t

/-- Read on to the end of the document. -/
def run : List (Option Char) → Scan → Tree → Option Json
  | [], s, t =>
    match s.finish t with
    | some (.complete v) => some v
    | _ => none
  | c :: r, s, t =>
    match s.step c t with
    | some (s, t) => run r s t
    | none => none

end Scan

/-- Read a document given as characters and stray bytes. -/
def read? (s : List (Option Char)) : Option Json := Scan.run s .between (.value [])

/-- Read a document given as text. -/
def parse? (s : String) : Option Json := read? (s.toList.map some)

end Gatehouse.Json
