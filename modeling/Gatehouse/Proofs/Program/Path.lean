import Gatehouse.Program

/-!
# Paths through programs

A path is one way through the tree of a program: the questions in their order, each with its answer,
and the result at the end. What is shown of every path holds however the questions are answered.
`path_bind` splits a path at a point where two programs were put together, and `Follows` says what
the answers of a path do to a state. Main statement: every interpretation of a program takes a path
(`path_run`), so nothing that can happen is missed by speaking of paths.
-/

namespace Gatehouse.Program

variable {Q Q' : Type} {A : Q → Type} {A' : Q' → Type} {α β σ : Type}

/-- A question with its answer. -/
abbrev Event (A : Q → Type) : Type := (q : Q) × A q

/-- A program may ask the questions of the events, be answered as they say, and end with a result. -/
inductive Path : Program Q A α → List (Event A) → α → Prop
  | done (a : α) : Path (.done a) [] a
  | ask (q : Q) (r : A q) {next : A q → Program Q A α} {es : List (Event A)} {a : α} :
      Path (next r) es a → Path (.ask q next) (⟨q, r⟩ :: es) a

@[simp] theorem path_done {a b : α} {es : List (Event A)} :
    Path (.done a : Program Q A α) es b ↔ es = [] ∧ b = a := by
  constructor
  · intro h
    cases h
    exact ⟨rfl, rfl⟩
  · rintro ⟨rfl, rfl⟩
    exact .done b

@[simp] theorem path_ask {q : Q} {next : A q → Program Q A α} {es : List (Event A)} {a : α} :
    Path (.ask q next) es a ↔ ∃ r rest, es = ⟨q, r⟩ :: rest ∧ Path (next r) rest a := by
  constructor
  · intro h
    cases h with
    | ask _ r h => exact ⟨r, _, rfl, h⟩
  · rintro ⟨r, rest, rfl, h⟩
    exact .ask q r h

@[simp] theorem path_query {q : Q} {r : A q} {es : List (Event A)} :
    Path (query q : Program Q A (A q)) es r ↔ es = [⟨q, r⟩] := by
  constructor
  · intro h
    obtain ⟨r', rest, rfl, tail⟩ := path_ask.mp h
    obtain ⟨rfl, rfl⟩ := path_done.mp tail
    rfl
  · rintro rfl
    exact .ask q r (.done r)

theorem Path.bind {p : Program Q A α} {f : α → Program Q A β} {first second : List (Event A)}
    {a : α} {b : β} (h : Path p first a) (h' : Path (f a) second b) :
    Path (p.bind f) (first ++ second) b := by
  induction h with
  | done a => exact h'
  | ask q r _ ih => exact .ask q r (ih h')

/-- A path through two programs in a row is a path through each. -/
theorem path_bind {p : Program Q A α} {f : α → Program Q A β} {es : List (Event A)} {b : β} :
    Path (p.bind f) es b ↔
      ∃ first a second, es = first ++ second ∧ Path p first a ∧ Path (f a) second b := by
  constructor
  · intro h
    -- The point of division moves into the tree of the first program.
    induction p generalizing es with
    | done a => exact ⟨[], a, es, rfl, .done a, h⟩
    | ask q next ih =>
      obtain ⟨r, rest, rfl, tail⟩ := path_ask.mp h
      obtain ⟨first, a, second, rfl, h₁, h₂⟩ := ih r tail
      exact ⟨⟨q, r⟩ :: first, a, second, rfl, .ask q r h₁, h₂⟩
  · rintro ⟨first, a, second, rfl, h₁, h₂⟩
    exact h₁.bind h₂

/-- Of two paths through a program neither is the beginning of the other. -/
theorem Path.unique {p : Program Q A α} {first first' rest rest' : List (Event A)} {a a' : α}
    (h : Path p first a) (h' : Path p first' a') (same : first ++ rest = first' ++ rest') :
    first = first' ∧ a = a' ∧ rest = rest' := by
  induction h generalizing first' with
  | done a =>
    obtain ⟨rfl, rfl⟩ := path_done.mp h'
    exact ⟨rfl, rfl, same⟩
  | ask q r _ ih =>
    obtain ⟨r', tail, rfl, below⟩ := path_ask.mp h'
    simp only [List.cons_append, List.cons.injEq, Sigma.mk.injEq, heq_eq_eq, true_and] at same
    obtain ⟨rfl, same⟩ := same
    obtain ⟨rfl, rfl, rests⟩ := ih below same
    exact ⟨rfl, rfl, rests⟩

/-- Whatever holds of every question that translates a question holds of every question of a
translated program. -/
theorem Path.forall_translate {answer : (q : Q) → Program Q' A' (A q)} {P : Event A' → Prop}
    (each : ∀ q es r, Path (answer q) es r → ∀ e ∈ es, P e) {p : Program Q A α}
    {es : List (Event A')} {a : α} (h : Path (p.translate answer) es a) : ∀ e ∈ es, P e := by
  induction p generalizing es with
  | done b =>
    obtain ⟨rfl, -⟩ := path_done.mp h
    simp
  | ask q next ih =>
    obtain ⟨first, r, second, rfl, h₁, h₂⟩ := path_bind.mp h
    intro e member
    rcases List.mem_append.mp member with member | member
    · exact each q first r h₁ e member
    · exact ih r h₂ e member

/-- The answers of the events can be given one after the other and lead from one state to the
other, if `may q s r s'` says that `q` may be answered with `r` in `s` and leave `s'`. -/
inductive Follows (may : (q : Q) → σ → A q → σ → Prop) : σ → List (Event A) → σ → Prop
  | nil (s : σ) : Follows may s [] s
  | cons {q : Q} {r : A q} {s s' s'' : σ} {es : List (Event A)} :
      may q s r s' → Follows may s' es s'' → Follows may s (⟨q, r⟩ :: es) s''

variable {may : (q : Q) → σ → A q → σ → Prop}

@[simp] theorem follows_nil {s s' : σ} : Follows may s [] s' ↔ s' = s := by
  constructor
  · intro h
    cases h
    rfl
  · rintro rfl
    exact .nil s'

@[simp] theorem follows_cons {q : Q} {r : A q} {s s'' : σ} {es : List (Event A)} :
    Follows may s (⟨q, r⟩ :: es) s'' ↔ ∃ s', may q s r s' ∧ Follows may s' es s'' := by
  constructor
  · intro h
    cases h with
    | cons h₁ h₂ => exact ⟨_, h₁, h₂⟩
  · rintro ⟨s', h₁, h₂⟩
    exact .cons h₁ h₂

@[simp] theorem follows_append {s s'' : σ} {first second : List (Event A)} :
    Follows may s (first ++ second) s'' ↔
      ∃ s', Follows may s first s' ∧ Follows may s' second s'' := by
  induction first generalizing s with
  | nil => simp
  | cons e first ih =>
    obtain ⟨q, r⟩ := e
    simp only [List.cons_append, follows_cons, ih]
    constructor
    · rintro ⟨s₁, h₁, s', h₂, h₃⟩
      exact ⟨s', ⟨s₁, h₁, h₂⟩, h₃⟩
    · rintro ⟨s', ⟨s₁, h₁, h₂⟩, h₃⟩
      exact ⟨s₁, h₁, s', h₂, h₃⟩

/-- What each answer keeps, all of them keep. -/
theorem Follows.keeps {P : σ → Prop} {es : List (Event A)} {s s' : σ} (h : Follows may s es s')
    (each : ∀ e ∈ es, ∀ s s', may e.1 s e.2 s' → P s → P s') (start : P s) : P s' := by
  induction h with
  | nil s => exact start
  | @cons q r s₀ s₁ s₂ es h₁ h₂ ih =>
    have next : P s₁ := each ⟨q, r⟩ (by simp) s₀ s₁ h₁ start
    exact ih (fun e member => each e (List.mem_cons_of_mem _ member)) next

/-- The questions of a run with the answers that they get. -/
def trace (answer : (q : Q) → σ → A q × σ) : Program Q A α → σ → List (Event A)
  | .done _, _ => []
  | .ask q next, s => ⟨q, (answer q s).1⟩ :: (next (answer q s).1).trace answer (answer q s).2

/-- The trace of a run is a path whose answers lead to the state where the run ends. -/
theorem path_trace (may : (q : Q) → σ → A q → σ → Prop) (answer : (q : Q) → σ → A q × σ)
    (sound : ∀ q s, may q s (answer q s).1 (answer q s).2) (p : Program Q A α) (s : σ) :
    Path p (p.trace answer s) (p.run answer s).1 ∧
      Follows may s (p.trace answer s) (p.run answer s).2 := by
  induction p generalizing s with
  | done a => exact ⟨.done a, .nil s⟩
  | ask q next ih =>
    obtain ⟨path, follows⟩ := ih (answer q s).1 (answer q s).2
    exact ⟨.ask q _ path, .cons (sound q s) follows⟩

/-- Running a program on a state takes a path whose answers lead to the state where it ends. -/
theorem path_run (may : (q : Q) → σ → A q → σ → Prop) (answer : (q : Q) → σ → A q × σ)
    (sound : ∀ q s, may q s (answer q s).1 (answer q s).2) (p : Program Q A α) (s : σ) :
    ∃ es, Path p es (p.run answer s).1 ∧ Follows may s es (p.run answer s).2 :=
  ⟨_, path_trace may answer sound p s⟩

/-- The program asks only questions of one kind, however they are answered. -/
def Asks (kind : Q → Prop) : Program Q A α → Prop
  | .done _ => True
  | .ask q next => kind q ∧ ∀ r, (next r).Asks kind

variable {kind : Q → Prop} {p : Program Q A α} {f : α → Program Q A β} {es : List (Event A)}

theorem Asks.bind (h : p.Asks kind) (h' : ∀ a, (f a).Asks kind) : (p.bind f).Asks kind := by
  induction p with
  | done a => exact h' a
  | ask q next ih => exact ⟨h.1, fun r => ih r (h.2 r)⟩

theorem Asks.path {a : α} (h : p.Asks kind) (path : Path p es a) : ∀ e ∈ es, kind e.1 := by
  induction path with
  | done => simp
  | ask q r _ ih => exact List.forall_mem_cons.mpr ⟨h.1, ih (h.2 r)⟩

section Failing

variable {ε : Type} {x : ExceptT ε (Program Q A) α} {g : α → ExceptT ε (Program Q A) β}

/-- A program that may fail goes on after a step unless the step failed. -/
theorem path_andThen {r : Except ε β} :
    Path (x >>= g).run es r ↔
      (∃ e, r = .error e ∧ Path x.run es (.error e)) ∨
      ∃ first a second, es = first ++ second ∧ Path x.run first (.ok a) ∧
        Path (g a).run second r := by
  constructor
  · intro h
    obtain ⟨first, o, second, rfl, h₁, h₂⟩ := path_bind.mp h
    cases o with
    | error e =>
      obtain ⟨rfl, rfl⟩ := path_done.mp h₂
      rw [List.append_nil]
      exact .inl ⟨e, rfl, h₁⟩
    | ok a => exact .inr ⟨first, a, second, rfl, h₁, h₂⟩
  · rintro (⟨e, rfl, h⟩ | ⟨first, a, second, rfl, h₁, h₂⟩)
    · exact path_bind.mpr ⟨es, .error e, [], by simp, h, .done _⟩
    · exact path_bind.mpr ⟨first, .ok a, second, rfl, h₁, h₂⟩

theorem Asks.andThen (h : x.run.Asks kind) (h' : ∀ a, (g a).run.Asks kind) :
    (x >>= g).run.Asks kind := by
  refine Asks.bind h fun r => ?_
  cases r with
  | ok a => exact h' a
  | error e => exact trivial

end Failing

end Gatehouse.Program
