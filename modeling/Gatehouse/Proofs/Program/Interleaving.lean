import Gatehouse.Proofs.Program.Path

/-!
# Programs that run at the same time

Two programs that run at the same time ask their questions in any order that keeps the order of each.
`Woven` says so of their events, and `interleave` lets a schedule put the two into one program. Main
statement: both come to the same (`woven_iff`). What is picked out of woven events is woven from what
is picked out of each part (`Woven.filterMap`), so events that do not matter can be left out before
orders are compared.
-/

namespace Gatehouse.Program

variable {Q : Type} {A : Q → Type} {α β γ δ σ : Type}

/-- A list is made of two others, which keep their order. -/
inductive Woven : List γ → List γ → List γ → Prop
  | nil : Woven [] [] []
  | left {x : γ} {xs ys zs : List γ} : Woven xs ys zs → Woven (x :: xs) ys (x :: zs)
  | right {y : γ} {xs ys zs : List γ} : Woven xs ys zs → Woven xs (y :: ys) (y :: zs)

variable {xs ys zs : List γ}

theorem woven_nil_left : Woven [] ys zs ↔ zs = ys := by
  constructor
  · intro h
    induction ys generalizing zs with
    | nil =>
      cases h
      rfl
    | cons y ys ih =>
      cases h with
      | right h => rw [ih h]
  · rintro rfl
    induction zs with
    | nil => exact .nil
    | cons z zs ih => exact .right ih

theorem Woven.symm (h : Woven xs ys zs) : Woven ys xs zs := by
  induction h with
  | nil => exact .nil
  | left _ ih => exact .right ih
  | right _ ih => exact .left ih

theorem woven_nil_right : Woven xs [] zs ↔ zs = xs :=
  ⟨fun h => woven_nil_left.mp h.symm, fun h => (woven_nil_left.mpr h).symm⟩

theorem Woven.append (xs ys : List γ) : Woven xs ys (xs ++ ys) := by
  induction xs with
  | nil => exact woven_nil_left.mpr rfl
  | cons x xs ih => exact .left ih

theorem Woven.mem_iff {z : γ} (h : Woven xs ys zs) : z ∈ zs ↔ z ∈ xs ∨ z ∈ ys := by
  induction h with
  | nil => simp
  | left _ ih => simp [ih, or_assoc]
  | right _ ih => simp [ih, or_left_comm]

theorem Woven.filterMap (f : γ → Option δ) (h : Woven xs ys zs) :
    Woven (xs.filterMap f) (ys.filterMap f) (zs.filterMap f) := by
  induction h with
  | nil => exact .nil
  | @left x xs ys zs _ ih =>
    cases picked : f x with
    | none => simpa [picked] using ih
    | some a => simpa [picked] using ih.left
  | @right y xs ys zs _ ih =>
    cases picked : f y with
    | none => simpa [picked] using ih
    | some a => simpa [picked] using ih.right

/-- What is woven from images is the image of something woven. -/
theorem Woven.of_map {f : γ → δ} {zs : List δ} (h : Woven (xs.map f) (ys.map f) zs) :
    ∃ ws, zs = ws.map f ∧ Woven xs ys ws := by
  generalize left : xs.map f = xs' at h
  generalize right : ys.map f = ys' at h
  induction h generalizing xs ys with
  | nil =>
    obtain rfl := List.map_eq_nil_iff.mp left
    obtain rfl := List.map_eq_nil_iff.mp right
    exact ⟨[], rfl, .nil⟩
  | left _ ih =>
    obtain ⟨x, rest, rfl, rfl, tail⟩ := List.map_eq_cons_iff.mp left
    obtain ⟨ws, rfl, woven⟩ := ih tail right
    exact ⟨x :: ws, rfl, .left woven⟩
  | right _ ih =>
    obtain ⟨y, rest, rfl, rfl, tail⟩ := List.map_eq_cons_iff.mp right
    obtain ⟨ws, rfl, woven⟩ := ih left tail
    exact ⟨y :: ws, rfl, .right woven⟩

theorem woven_cons {x y : γ} :
    Woven (x :: xs) (y :: ys) zs ↔
      (∃ rest, zs = x :: rest ∧ Woven xs (y :: ys) rest) ∨
      ∃ rest, zs = y :: rest ∧ Woven (x :: xs) ys rest := by
  constructor
  · intro h
    cases h with
    | left h => exact .inl ⟨_, rfl, h⟩
    | right h => exact .inr ⟨_, rfl, h⟩
  · rintro (⟨rest, rfl, h⟩ | ⟨rest, rfl, h⟩)
    · exact .left h
    · exact .right h

/-- The ways to weave two lists of two. -/
theorem woven_pairs {a b c d : γ} (h : Woven [a, b] [c, d] zs) :
    zs = [a, b, c, d] ∨ zs = [a, c, b, d] ∨ zs = [a, c, d, b] ∨
      zs = [c, a, b, d] ∨ zs = [c, a, d, b] ∨ zs = [c, d, a, b] := by
  simpa [woven_cons, woven_nil_left, woven_nil_right, exists_or, and_or_left, or_assoc] using h

/-- Two programs as one. As long as the schedule lasts each entry lets one of them ask its next
question, the first one if it is `true`; after that they run to their ends one after the other. -/
def interleave : List Bool → Program Q A α → Program Q A β → Program Q A (α × β)
  | [], p, q => p.bind fun a => q.bind fun b => .done (a, b)
  | true :: turns, .ask question next, q => .ask question fun r => interleave turns (next r) q
  | false :: turns, p, .ask question next => .ask question fun r => interleave turns p (next r)
  | _ :: turns, p, q => interleave turns p q

/-- Events of two programs are woven exactly if some schedule leads to them. -/
theorem woven_iff {p : Program Q A α} {q : Program Q A β} {es : List (Event A)} {a : α} {b : β} :
    (∃ fs gs, Path p fs a ∧ Path q gs b ∧ Woven fs gs es) ↔
      ∃ turns, Path (interleave turns p q) es (a, b) := by
  constructor
  · rintro ⟨fs, gs, path₁, path₂, woven⟩
    induction woven generalizing p q with
    | nil => exact ⟨[], path₁.bind (path₂.bind (.done (a, b)))⟩
    | left _ ih =>
      cases path₁ with
      | ask question r tail =>
        obtain ⟨turns, path⟩ := ih tail path₂
        exact ⟨true :: turns, .ask question r path⟩
    | right _ ih =>
      cases path₂ with
      | ask question r tail =>
        obtain ⟨turns, path⟩ := ih path₁ tail
        exact ⟨false :: turns, .ask question r path⟩
  · rintro ⟨turns, path⟩
    fun_induction interleave turns p q generalizing es with
    | case1 p q =>
      obtain ⟨fs, a', rest, rfl, path₁, path⟩ := path_bind.mp path
      obtain ⟨gs, b', none, rfl, path₂, ended⟩ := path_bind.mp path
      obtain ⟨rfl, same⟩ := path_done.mp ended
      obtain ⟨rfl, rfl⟩ := Prod.mk.inj same
      rw [List.append_nil]
      exact ⟨fs, gs, path₁, path₂, .append fs gs⟩
    | case2 turns question next q ih =>
      obtain ⟨r, rest, rfl, tail⟩ := path_ask.mp path
      obtain ⟨fs, gs, path₁, path₂, woven⟩ := ih r tail
      exact ⟨_, gs, .ask question r path₁, path₂, .left woven⟩
    | case3 turns p question next ih =>
      obtain ⟨r, rest, rfl, tail⟩ := path_ask.mp path
      obtain ⟨fs, gs, path₁, path₂, woven⟩ := ih r tail
      exact ⟨fs, _, path₁, .ask question r path₂, .right woven⟩
    | case4 _ turns p q _ _ ih => exact ih path

end Gatehouse.Program
