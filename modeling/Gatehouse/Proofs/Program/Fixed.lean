import Gatehouse.Proofs.Program.Path

/-!
# Programs under fixed answers

If every question has one answer, whenever it is asked, then a program goes one way: it asks what
`asked` lists and gives `eval`. Of all paths through the program this is the one with these answers
(`Path.fixed`).
-/

namespace Gatehouse.Program

variable {Q : Type} {A : Q → Type} {α : Type}

/-- The result of a program whose questions have fixed answers. -/
def eval (answer : (q : Q) → A q) : Program Q A α → α
  | .done a => a
  | .ask q next => (next (answer q)).eval answer

/-- What a program asks whose questions have fixed answers. -/
def asked (answer : (q : Q) → A q) : Program Q A α → List (Event A)
  | .done _ => []
  | .ask q next => ⟨q, answer q⟩ :: (next (answer q)).asked answer

variable {answer : (q : Q) → A q} {p : Program Q A α} {es : List (Event A)} {a : α}

theorem path_asked (answer : (q : Q) → A q) (p : Program Q A α) :
    Path p (p.asked answer) (p.eval answer) := by
  induction p with
  | done a => exact .done a
  | ask q next ih => exact .ask q (answer q) (ih (answer q))

theorem answer_of_mem_asked (answer : (q : Q) → A q) (p : Program Q A α) :
    ∀ e ∈ p.asked answer, e.2 = answer e.1 := by
  induction p with
  | done a => simp [asked]
  | ask q next ih => exact List.forall_mem_cons.mpr ⟨rfl, ih (answer q)⟩

theorem Path.fixed (h : Path p es a) (fixed : ∀ e ∈ es, e.2 = answer e.1) :
    es = p.asked answer ∧ a = p.eval answer := by
  induction h with
  | done a => exact ⟨rfl, rfl⟩
  | @ask q r next es a _ ih =>
    obtain ⟨same, rest⟩ := List.forall_mem_cons.mp fixed
    have same : r = answer q := same
    subst same
    obtain ⟨rfl, rfl⟩ := ih rest
    exact ⟨rfl, rfl⟩

end Gatehouse.Program
