import Gatehouse.Kdl.Token

/-!
# Reading KDL documents

A document is a list of nodes, each ended by the end of its line, a semicolon or the end of the
block it is in. Entries are separated by blanks; after them a node may have one block of
children. What follows a slashdash is read and dropped.
-/

namespace Gatehouse.Kdl

/-- An argument or a property at the front. -/
def entry? (ts : List Token) : Option (Entry × List Token) :=
  match ts with
  | .typeMark :: .value v :: r => if r.head? = some .equals then none else some (⟨none, v⟩, r)
  | .value (.text name) :: .equals :: .typeMark :: .value v :: r => some (⟨some name, v⟩, r)
  | .value (.text name) :: .equals :: .value v :: r => some (⟨some name, v⟩, r)
  | .value v :: r => if r.head? = some .equals then none else some (⟨none, v⟩, r)
  | _ => none

/-- What may still come in a node. -/
inductive Phase where
  | entries
  /-- After a block that was taken away: only blocks. -/
  | blocks
  /-- After the children: only blocks that are taken away. -/
  | done
  deriving DecidableEq

/-- The rest after the end of a node. A closing brace ends a node but belongs to the block. -/
def afterNode? : List Token → Option (List Token)
  | [] => some []
  | .lineEnd :: r => some r
  | .semicolon :: r => some r
  | .closeBrace :: r => some (.closeBrace :: r)
  | _ => none

/-- The rest after a closing brace. -/
def afterBlock? : List Token → Option (List Token)
  | .closeBrace :: r => some r
  | _ => none

mutual

/-- The nodes at the front, up to a closing brace or the end. The bound is on the depth of calls. -/
def nodes? : Nat → List Token → Option (List Node × List Token)
  | 0, _ => none
  | bound + 1, ts =>
    match ts with
    | [] => some ([], [])
    | .closeBrace :: _ => some ([], ts)
    | .blank :: r => nodes? bound r
    | .lineEnd :: r => nodes? bound r
    | .slashdash :: r => do
      let (_, r) ← node? bound r
      nodes? bound r
    | ts => do
      let (node, r) ← node? bound ts
      let (more, r) ← nodes? bound r
      some (node :: more, r)

/-- The node at the front, and what ends it. -/
def node? : Nat → List Token → Option (Node × List Token)
  | 0, _ => none
  | bound + 1, ts =>
    match ts with
    | .typeMark :: .value (.text name) :: r => do
      let (entries, children, r) ← parts? bound .entries r
      some (.mk name entries children, ← afterNode? r)
    | .value (.text name) :: r => do
      let (entries, children, r) ← parts? bound .entries r
      some (.mk name entries children, ← afterNode? r)
    | _ => none

/-- The entries and children after a node's name. -/
def parts? : Nat → Phase → List Token → Option (List Entry × List Node × List Token)
  | 0, _, _ => none
  | bound + 1, phase, ts =>
    let separated := ts.head? = some .blank
    let r := if separated then ts.drop 1 else ts
    match r with
    | .slashdash :: .openBrace :: r => do
      let (_, r) ← nodes? bound r
      parts? bound (if phase = .done then .done else .blocks) (← afterBlock? r)
    | .slashdash :: r =>
      if phase = .entries then do
        let (_, r) ← entry? r
        parts? bound .entries r
      else none
    | .openBrace :: r =>
      if phase = .done then none
      else do
        let (children, r) ← nodes? bound r
        let (entries, _, r) ← parts? bound .done (← afterBlock? r)
        some (entries, children, r)
    | .value _ :: _ =>
      if separated ∧ phase = .entries then do
        let (entry, r) ← entry? r
        let (entries, children, r) ← parts? bound .entries r
        some (entry :: entries, children, r)
      else none
    | .typeMark :: _ =>
      if separated ∧ phase = .entries then do
        let (entry, r) ← entry? r
        let (entries, children, r) ← parts? bound .entries r
        some (entry :: entries, children, r)
      else none
    | r => some ([], [], r)

end

/-- The nodes of a document. Every third call takes a token, so the bound is never reached. -/
def parse? (text : String) : Option (List Node) := do
  let tokens ← Token.ofText? text.toList
  let (nodes, rest) ← nodes? (3 * tokens.length + 3) tokens
  if rest.isEmpty then some nodes else none

end Gatehouse.Kdl
