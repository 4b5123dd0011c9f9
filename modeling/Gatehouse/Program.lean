/-!
# Programs that ask questions

The parts of this library that talk to a server (a git provider, the cluster, an HTTP peer) are
written as values of `Program`: a tree that either ends with a result or asks a question and goes
on with the answer. What a question does is said elsewhere, by an interpretation; so a statement
about every behaviour of a server is a statement about every path through the tree.
-/

namespace Gatehouse

/-- A computation that asks questions of type `Q`; the answer to `q` has type `A q`. -/
inductive Program (Q : Type) (A : Q → Type) (α : Type) : Type where
  | done (result : α)
  | ask (question : Q) (next : A question → Program Q A α)

namespace Program

variable {Q Q' : Type} {A : Q → Type} {A' : Q' → Type} {α β σ : Type}

/-- Run one program and go on with its result. -/
def bind : Program Q A α → (α → Program Q A β) → Program Q A β
  | .done a, f => f a
  | .ask q next, f => .ask q fun r => (next r).bind f

instance : Monad (Program Q A) where
  pure := .done
  bind := bind

/-- The program that asks one question and ends with its answer. -/
def query (q : Q) : Program Q A (A q) := .ask q .done

/-- Run a program on a state; `answer` says how a question is answered and what it changes. -/
def run (answer : (q : Q) → σ → A q × σ) : Program Q A α → σ → α × σ
  | .done a, s => (a, s)
  | .ask q next, s => (next (answer q s).1).run answer (answer q s).2

/-- Answer every question of a program by a program that asks other questions. -/
def translate (answer : (q : Q) → Program Q' A' (A q)) : Program Q A α → Program Q' A' α
  | .done a => .done a
  | .ask q next => (answer q).bind fun r => (next r).translate answer

@[simp] theorem pure_eq (a : α) : (pure a : Program Q A α) = .done a := rfl

@[simp] theorem bind_eq (p : Program Q A α) (f : α → Program Q A β) : p >>= f = p.bind f := rfl

@[simp] theorem done_bind (a : α) (f : α → Program Q A β) : (done a).bind f = f a := rfl

@[simp] theorem ask_bind (q : Q) (next : A q → Program Q A α) (f : α → Program Q A β) :
    (ask q next).bind f = .ask q fun r => (next r).bind f := rfl

theorem bind_done (p : Program Q A α) : p.bind .done = p := by
  induction p with
  | done a => rfl
  | ask q next ih => simp [ih]

theorem bind_assoc {γ : Type} (p : Program Q A α) (f : α → Program Q A β)
    (g : β → Program Q A γ) : (p.bind f).bind g = p.bind fun a => (f a).bind g := by
  induction p with
  | done a => rfl
  | ask q next ih => simp [ih]

instance : LawfulMonad (Program Q A) :=
  LawfulMonad.mk' (Program Q A) bind_done (fun _ _ => rfl) bind_assoc

/-- Running two programs in a row is running the second where the first stopped. -/
theorem run_bind (answer : (q : Q) → σ → A q × σ) (p : Program Q A α) (f : α → Program Q A β)
    (s : σ) : (p.bind f).run answer s = (f (p.run answer s).1).run answer (p.run answer s).2 := by
  induction p generalizing s with
  | done a => rfl
  | ask q next ih => simp [run, ih]

end Program

end Gatehouse
