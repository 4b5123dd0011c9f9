import Gatehouse.Git.Delivery

/-!
# Reading bodies

A body is decoded and then read as a document (`readBody_eq_ok`). Where all characters of a text are
ASCII, its bytes are its characters, so the body that it makes is read as the text is (`readBody_ascii`).
-/

namespace Gatehouse.Git

open Text

variable {α β : Type} {s : List Char}

/-- The document in a body, if there is one. -/
def document? (body : Bytes) : Option Json := Json.read? (decodeLoose 0 body)

theorem readBody_eq_ok {a : α} {read : Json → Option α} {body : Bytes} :
    readBody read body = .ok a ↔ ∃ v, document? body = some v ∧ read v = some a := by
  unfold readBody document?
  rw [Option.bind_eq_bind, ← Option.bind_eq_some_iff]
  cases (Json.read? (decodeLoose 0 body)).bind read <;> simp

theorem readBody_map (f : α → β) (read : Json → Option α) (body : Bytes) :
    readBody (fun v => (read v).map f) body = (readBody read body).map f := by
  unfold readBody
  cases Json.read? (decodeLoose 0 body) with
  | none => rfl
  | some v => cases found : read v <;> simp [found, Except.map]

/-- The bytes of a text in ASCII. -/
def asciiBytes (s : List Char) : Bytes := s.map fun c => c.toNat.toUInt8

theorem decodeLoose_ascii (ascii : ∀ c ∈ s, c.toNat < 128) :
    decodeLoose 0 (asciiBytes s) = s.map some := by
  induction s with
  | nil => rfl
  | cons c s ih =>
    obtain ⟨first, later⟩ := List.forall_mem_cons.mp ascii
    have value : c.toNat.toUInt8.toNat = c.toNat := by
      simp
      omega
    have small : c.toNat.toUInt8 < 0x80 := by
      rw [UInt8.lt_iff_toNat_lt, value]
      exact first
    have step : utf8Step c.toNat.toUInt8 (asciiBytes s) = .char c 1 := by
      rw [utf8Step, if_pos small, value, Char.ofNat_toNat]
    change decodeLoose 0 (c.toNat.toUInt8 :: asciiBytes s) = some c :: s.map some
    rw [decodeLoose, step, ← ih later]

theorem readBody_ascii {read : Json → Option α} {a : α} (ascii : s.all (·.toNat < 128) = true)
    (found : Json.read? (s.map some) >>= read = some a) :
    readBody read (asciiBytes s) = .ok a := by
  have small : ∀ c ∈ s, c.toNat < 128 := by simpa using ascii
  rw [readBody, decodeLoose_ascii small, found]

end Gatehouse.Git
