import Gatehouse.Http.Peer

/-!
# Answers to requests

A request that gets an answer passes it on if it tells of success, and else fails with the error that the
answer tells of (`Refusal`): the end of the rate limit, or a message with method, URL and body, as
something that is missing if that is the status. A request that gets none fails as a request.
-/

namespace Gatehouse.Http

variable {headers : Headers} {method : Method} {url : String} {body : Option Json} {p p' : Peer}
  {r : Response}

/-- The peer gives an answer to the request for a URL. -/
def Answered (headers : Headers) (method : Method) (url : String) (body : Option Json) (p : Peer)
    (r : Response) (p' : Peer) : Prop :=
  ∃ u, target? url = .ok u ∧
    p.deliver (u.scheme == "https".toList) (requestFor headers method u body) = (some r, p')

/-- The error that an answer without success tells of. -/
inductive Refusal (now : Int) (message : String) (r : Response) : Git.Error → Prop
  | limited {reset : Int} (limit : rateLimitReset? now r = .ok (some reset)) :
      Refusal now message r (.rateLimited reset ("code " ++ toString r.status))
  /-- The end of the rate limit cannot be computed. -/
  | overflow (large : rateLimitReset? now r = .error .overflow) : Refusal now message r .overflow
  | missing (free : rateLimitReset? now r = .ok none) (status : r.status = 404) :
      Refusal now message r (.notFound message)
  | other (free : rateLimitReset? now r = .ok none) (status : r.status ≠ 404) :
      Refusal now message r (.api r.status message)

/-- What is told of an answer without success. -/
def report (method : Method) (url : String) (r : Response) : String :=
  "[" ++ method.name ++ "] " ++ url ++ ": " ++ r.body

theorem isSuccess_iff : r.isSuccess = true ↔ 200 ≤ r.status ∧ r.status < 300 := by
  simp [Response.isSuccess]

theorem outcome_success (now : Int) (method : Method) (url : String) (success : r.isSuccess = true) :
    outcome now method url r = .ok r :=
  if_pos success

/-- The computation fails at nothing but a sum that is too large. -/
def Overflows {α : Type} (x : Except Git.Error α) : Prop := ∀ e, x = .error e → e = .overflow

theorem overflows_ok {α : Type} (a : α) : Overflows (.ok a) := fun _ failed => by cases failed

theorem overflows_checked (n : Int) : Overflows (Git.checked n) := by
  intro e failed
  unfold Git.checked at failed
  split at failed
  · cases failed
  · exact (Except.error.inj failed).symm

theorem Overflows.bind {α β : Type} {x : Except Git.Error α} {f : α → Except Git.Error β}
    (first : Overflows x) (later : ∀ a, Overflows (f a)) : Overflows (x >>= f) := by
  intro e failed
  cases x with
  | error e' =>
    obtain rfl : e' = e := Except.error.inj failed
    exact first e' rfl
  | ok a => exact later a e failed

/-- Nothing but an overflow keeps the end of a rate limit from being told. -/
theorem overflows_rateLimitReset? (now : Int) (r : Response) : Overflows (rateLimitReset? now r) := by
  have latest (told : Option Int) : Overflows (do
      let latest ← Git.checked (now + defaultResetSeconds)
      return some (told.getD latest)) :=
    (overflows_checked _).bind fun latest => overflows_ok _
  unfold rateLimitReset?
  dsimp only
  split
  · split
    · exact latest _
    · refine Overflows.bind ?_ latest
      cases integerField? r.headers ["retry-after"] with
      | none => exact overflows_ok none
      | some seconds => exact (overflows_checked _).bind fun n => overflows_ok (some n)
  · exact overflows_ok none

theorem outcome_refusal (now : Int) (method : Method) (url : String) (failure : r.isSuccess = false) :
    ∃ e, outcome now method url r = .error e ∧ Refusal now (report method url r) r e := by
  unfold outcome
  rw [if_neg (Bool.eq_false_iff.mp failure)]
  rcases limit : rateLimitReset? now r with e | _ | reset
  · obtain rfl := overflows_rateLimitReset? now r e limit
    exact ⟨_, rfl, .overflow limit⟩
  case ok.some => exact ⟨_, rfl, .limited limit⟩
  case ok.none =>
    dsimp only
    split
    · rename_i status
      exact ⟨_, rfl, .missing limit (by simpa using status)⟩
    · rename_i status
      exact ⟨_, rfl, .other limit (by simpa using status)⟩

theorem send_answered (now : Int) (answered : Answered headers method url body p r p') :
    send headers now method url body p = (outcome now method url r, p') := by
  obtain ⟨u, target, delivered⟩ := answered
  unfold send
  rw [target]
  dsimp only
  rw [delivered]

end Gatehouse.Http
