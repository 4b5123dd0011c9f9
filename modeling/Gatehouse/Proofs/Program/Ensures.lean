import Gatehouse.Proofs.Program.Path

/-!
# What programs ensure

`Ensures` says of a program and a state that the program ends as it should, in whatever way its
questions are answered. It is computed along the tree of the program, so what a program ensures
follows from what its parts do (`ensures_bind`); and it says the same as a statement about every
path (`ensures_iff`).
-/

namespace Gatehouse.Program

variable {Q : Type} {A : Q → Type} {α β σ : Type} {may may' : (q : Q) → σ → A q → σ → Prop}

/-- Started in a state, the program ends with a result and in a state that satisfy `post`, if `may`
says which answers a question can get and what they lead to. -/
def Ensures (may : (q : Q) → σ → A q → σ → Prop) :
    Program Q A α → σ → (α → σ → Prop) → Prop
  | .done a, s, post => post a s
  | .ask q next, s, post => ∀ r s', may q s r s' → (next r).Ensures may s' post

variable {p : Program Q A α} {f : α → Program Q A β} {s : σ} {post post' : α → σ → Prop}

@[simp] theorem ensures_done {a : α} :
    (done a : Program Q A α).Ensures may s post ↔ post a s := Iff.rfl

@[simp] theorem ensures_ask {q : Q} {next : A q → Program Q A α} :
    (ask q next).Ensures may s post ↔
      ∀ r s', may q s r s' → (next r).Ensures may s' post := Iff.rfl

theorem ensures_bind {post : β → σ → Prop} :
    (p.bind f).Ensures may s post ↔
      p.Ensures may s fun a s' => (f a).Ensures may s' post := by
  induction p generalizing s with
  | done a => rfl
  | ask q next ih =>
    simp only [ask_bind, ensures_ask]
    exact forall_congr' fun r => forall_congr' fun s' => imp_congr_right fun _ => ih r

theorem Ensures.imp (h : p.Ensures may s post) (weaker : ∀ a s', post a s' → post' a s') :
    p.Ensures may s post' := by
  induction p generalizing s with
  | done a => exact weaker a s h
  | ask q next ih => exact fun r s' answered => ih r (h r s' answered)

theorem Ensures.and (h : p.Ensures may s post) (h' : p.Ensures may s post') :
    p.Ensures may s fun a s' => post a s' ∧ post' a s' := by
  induction p generalizing s with
  | done a => exact ⟨h, h'⟩
  | ask q next ih => exact fun r s' answered => ih r (h r s' answered) (h' r s' answered)

theorem Ensures.restrict (h : p.Ensures may s post)
    (fewer : ∀ q s r s', may' q s r s' → may q s r s') : p.Ensures may' s post := by
  induction p generalizing s with
  | done a => exact h
  | ask q next ih => exact fun r s' answered => ih r (h r s' (fewer q s r s' answered))

/-- To ensure something is to end so on every path that the answers can take. -/
theorem ensures_iff :
    p.Ensures may s post ↔ ∀ es a s', Path p es a → Follows may s es s' → post a s' := by
  induction p generalizing s with
  | done a =>
    constructor
    · intro h es b s' path follows
      obtain ⟨rfl, rfl⟩ := path_done.mp path
      obtain rfl := follows_nil.mp follows
      exact h
    · intro h
      exact h [] a s (.done a) (.nil s)
  | ask q next ih =>
    constructor
    · intro h es a s' path follows
      obtain ⟨r, rest, rfl, tail⟩ := path_ask.mp path
      obtain ⟨s₁, answered, later⟩ := follows_cons.mp follows
      exact (ih r).mp (h r s₁ answered) rest a s' tail later
    · intro h r s₁ answered
      refine (ih r).mpr fun es a s' path follows => ?_
      exact h (⟨q, r⟩ :: es) a s' (.ask q r path) (.cons answered follows)

section Failing

variable {ε : Type} {x : ExceptT ε (Program Q A) α} {f : α → ExceptT ε (Program Q A) β}

@[simp] theorem ensures_pure {a : α} {post : Except ε α → σ → Prop} :
    (pure a : ExceptT ε (Program Q A) α).run.Ensures may s post ↔ post (.ok a) s := Iff.rfl

@[simp] theorem ensures_throw {e : ε} {post : Except ε α → σ → Prop} :
    (throw e : ExceptT ε (Program Q A) α).run.Ensures may s post ↔ post (.error e) s := Iff.rfl

theorem ensures_andThen {post : Except ε β → σ → Prop} :
    (x >>= f).run.Ensures may s post ↔ x.run.Ensures may s fun r s' =>
      match r with
      | .ok a => (f a).run.Ensures may s' post
      | .error e => post (.error e) s' := by
  have bound : (x >>= f).run = x.run.bind (ExceptT.bindCont f) := rfl
  rw [bound, ensures_bind]
  constructor
  · intro h
    refine h.imp fun r s' next => ?_
    cases r <;> exact next
  · intro h
    refine h.imp fun r s' next => ?_
    cases r <;> exact next

end Failing

/-- What a program ensures holds where it ends, if each question gets one of the answers that were
reckoned with. -/
theorem Ensures.run {answer : (q : Q) → σ → A q × σ} (h : p.Ensures may s post)
    (sound : ∀ q s, may q s (answer q s).1 (answer q s).2) :
    post (p.run answer s).1 (p.run answer s).2 := by
  induction p generalizing s with
  | done a => exact h
  | ask q next ih => exact ih _ (h _ _ (sound q s))

end Gatehouse.Program
