import Mathlib.Algebra.Ring.Int.Defs
import Mathlib.Data.List.Chain
import Gatehouse.Control.ConfigPass

/-!
# How long a rate limit lasts

An answer that tells of a rate limit gives the second at which it ends, or the seconds that it lasts, or
neither (`Hint`). The end of the limit, and the delay until then, are computed in signed 64-bit words. They
are what they should be exactly if no sum or difference leaves the range of those, and there is none
otherwise (`reset_arithmetic`). A peer may name numbers for which one does (`reset_overflows`): a span that
does not fit behind the present moment, or an end that lies more than the range before it.
-/

namespace Gatehouse

open Text

theorem isInt64_iff {n : Int} : isInt64 n = true ↔ -2 ^ 63 ≤ n ∧ n < 2 ^ 63 := by
  simp [isInt64]

namespace Git

variable {n : Int}

theorem checked_ok (fits : isInt64 n = true) : checked n = .ok n := if_pos fits

theorem checked_overflow (large : ¬ isInt64 n = true) : checked n = .error .overflow := if_neg large

end Git

namespace Http

variable {headers : Headers} {names : List String} {now n : Int} {r : Response}

/-- A field gives an integer of 64 bits or none. -/
theorem isInt64_of_integerField? (given : integerField? headers names = some n) :
    isInt64 n = true := by
  obtain ⟨value, -, rest⟩ := Option.bind_eq_some_iff.mp given
  obtain ⟨text, -, read⟩ := Option.bind_eq_some_iff.mp rest
  exact (Option.filter_eq_some_iff.mp read).2

/-- What an answer says of the end of its rate limit. -/
inductive Hint where
  /-- The limit ends at this second. -/
  | ends (epoch : Int)
  /-- The limit lasts for these seconds. -/
  | lasts (seconds : Int)
  | silent
  deriving DecidableEq

/-- The hint in the header fields of an answer. -/
def hint (headers : Headers) : Hint :=
  match integerField? headers ["x-ratelimit-reset", "ratelimit-reset"],
    integerField? headers ["retry-after"] with
  | some epoch, _ => .ends epoch
  | none, some seconds => .lasts seconds
  | none, none => .silent

/-- The end of the limit, as an integer of any size. -/
def Hint.due (now : Int) : Hint → Int
  | .ends epoch => epoch
  | .lasts seconds => now + seconds
  | .silent => now + 60

/-- The end of the limit that is hinted at, and the time from `later` until then, fit into 64 bits. -/
def Hint.Fits (now later : Int) : Hint → Prop
  | .ends epoch => later - 2 ^ 63 ≤ epoch
  | .lasts seconds => later - 2 ^ 63 ≤ now + seconds ∧ now + seconds < 2 ^ 63
  | .silent => True

/-- The number that a hint gives is one of 64 bits. -/
def Hint.Small : Hint → Prop
  | .ends n | .lasts n => isInt64 n = true
  | .silent => True

theorem hint_small (headers : Headers) : (hint headers).Small := by
  unfold hint
  split
  · rename_i given
    exact isInt64_of_integerField? given
  · rename_i given
    exact isInt64_of_integerField? given
  · trivial

/-- The answer tells of a rate limit. -/
def Limits (r : Response) : Prop :=
  r.status = 429 ∨ r.status = 403 ∧
    integerField? r.headers ["x-ratelimit-remaining", "ratelimit-remaining"] = some 0

theorem rateLimitReset?_none (unlimited : ¬ Limits r) : rateLimitReset? now r = .ok none := by
  unfold rateLimitReset?
  dsimp only
  rw [if_neg]
  · rfl
  · intro limited
    apply unlimited
    simpa [Limits] using limited

/-- The end of a limit is what is due if that fits into 64 bits, on a clock that leaves room for the end by
default. -/
theorem rateLimitReset?_some (room : isInt64 (now + 60) = true) (limits : Limits r) :
    rateLimitReset? now r = (Git.checked ((hint r.headers).due now)).map some := by
  have tested : (r.status == 429 || r.status == 403 &&
      integerField? r.headers ["x-ratelimit-remaining", "ratelimit-remaining"] == some 0) = true := by
    simpa [Limits] using limits
  have latest : Git.checked (now + defaultResetSeconds) = .ok (now + 60) := Git.checked_ok room
  unfold rateLimitReset?
  dsimp only
  rw [if_pos tested, latest]
  unfold hint
  cases given : integerField? r.headers ["x-ratelimit-reset", "ratelimit-reset"] with
  | some epoch =>
    have told : Git.checked epoch = .ok epoch := Git.checked_ok (isInt64_of_integerField? given)
    simp only [Hint.due, told]
    rfl
  | none =>
    cases integerField? r.headers ["retry-after"] with
    | some seconds =>
      simp only [Hint.due, Option.mapM_some]
      cases Git.checked (now + seconds) <;> rfl
    | none =>
      simp only [Hint.due, Git.checked_ok room]
      rfl

end Http

namespace Control

open Http

variable {now : Int} {t : Instant} {r : Response} {h : Hint}

/-- A clock reads a second within the first `2 ^ 40` of the epoch. -/
def OnClock (second : Int) : Prop := 0 ≤ second ∧ second ≤ 2 ^ 40

/-- The seconds to wait for an end of a limit, as an integer of any size. -/
def wait (later reset : Int) : Int := max 1 (reset - later)

theorem OnClock.room (clock : OnClock now) : isInt64 (now + 60) = true := by
  obtain ⟨low, high⟩ := clock
  rw [isInt64_iff]
  omega

/-- A limit is waited for as long as it lasts if that fits into 64 bits. -/
theorem retryAfter_ok {reset : Int} (fits : isInt64 (reset - t.epochSeconds) = true) (text : String) :
    retryAfter t (.rateLimited reset text) = .requeue (wait t.epochSeconds reset).toNat := by
  unfold retryAfter Git.gapSeconds wait
  dsimp only [Git.Error.resetTime?]
  rw [Int.max_comm, Git.checked_ok fits]

theorem retryAfter_overflow {reset : Int} (large : ¬ isInt64 (reset - t.epochSeconds) = true)
    (text : String) : retryAfter t (.rateLimited reset text) = .overflow := by
  unfold retryAfter Git.gapSeconds
  dsimp only [Git.Error.resetTime?]
  rw [Git.checked_overflow large]

theorem retryAfter_iff {reset : Int} (text : String) :
    retryAfter t (.rateLimited reset text) = .requeue (wait t.epochSeconds reset).toNat ↔
      isInt64 (reset - t.epochSeconds) = true := by
  by_cases fits : isInt64 (reset - t.epochSeconds) = true
  · exact iff_of_true (retryAfter_ok fits text) fits
  · refine iff_of_false (fun waits => ?_) fits
    cases waits.symm.trans (retryAfter_overflow fits text)

/-- A hint fits exactly if no sum or difference on the way to the delay leaves the range. -/
theorem fits_iff {later : Int} (clock : OnClock now) (clock' : OnClock later) (small : h.Small) :
    h.Fits now later ↔ isInt64 (h.due now) = true ∧ isInt64 (h.due now - later) = true := by
  obtain ⟨low, high⟩ := clock
  obtain ⟨low', high'⟩ := clock'
  cases h with
  | ends epoch =>
    have small : isInt64 epoch = true := small
    rw [isInt64_iff] at small
    simp only [Hint.Fits, Hint.due, isInt64_iff]
    omega
  | lasts seconds =>
    have small : isInt64 seconds = true := small
    rw [isInt64_iff] at small
    simp only [Hint.Fits, Hint.due, isInt64_iff]
    omega
  | silent =>
    simp only [Hint.Fits, Hint.due, isInt64_iff, true_iff]
    omega

/-- The end of a rate limit and the delay until then are exact if and only if no sum and no difference
leaves the range of 64-bit words, that is, if the hint of the answer fits. Otherwise the one or the other
overflows and there is no number at all. -/
theorem reset_arithmetic (clock : OnClock now) (clock' : OnClock t.epochSeconds) (r : Response) :
    (¬ Limits r → rateLimitReset? now r = .ok none) ∧
    (Limits r → let due := (hint r.headers).due now
      ((rateLimitReset? now r = .ok (some due) ∧ ∀ text, retryAfter t (.rateLimited due text) =
          .requeue (wait t.epochSeconds due).toNat) ↔ (hint r.headers).Fits now t.epochSeconds) ∧
      ((hint r.headers).Fits now t.epochSeconds ↔
        isInt64 due = true ∧ isInt64 (due - t.epochSeconds) = true) ∧
      (isInt64 due = true → rateLimitReset? now r = .ok (some due)) ∧
      (¬ isInt64 due = true → rateLimitReset? now r = .error .overflow) ∧
      (¬ isInt64 (due - t.epochSeconds) = true → ∀ text,
        retryAfter t (.rateLimited due text) = .overflow)) := by
  refine ⟨rateLimitReset?_none, fun limits => ?_⟩
  intro due
  have fits := fits_iff clock clock' (hint_small r.headers)
  have told : rateLimitReset? now r = (Git.checked due).map some :=
    rateLimitReset?_some clock.room limits
  have ends (fine : isInt64 due = true) : rateLimitReset? now r = .ok (some due) := by
    rw [told, Git.checked_ok fine]
    rfl
  have overflows (large : ¬ isInt64 due = true) : rateLimitReset? now r = .error .overflow := by
    rw [told, Git.checked_overflow large]
    rfl
  refine ⟨?_, fits, ends, overflows, fun large => retryAfter_overflow large⟩
  rw [fits]
  constructor
  · rintro ⟨same, waits⟩
    refine ⟨?_, (retryAfter_iff "").mp (waits "")⟩
    by_cases fine : isInt64 due = true
    · exact fine
    · cases same.symm.trans (overflows fine)
  · rintro ⟨fine, fine'⟩
    exact ⟨ends fine, retryAfter_ok fine'⟩

/-! Answers that tell of a limit. -/

/-- The first of June 2024, at noon. -/
def noon : Instant := .ofEpochSeconds 1717243200

/-- An answer that refuses a request and gives a number in one of its fields. -/
def refusal (field number : String) : Response where
  status := 429
  headers := [(field, Text.encode number)]

theorem limits_refusal (field number : String) : Limits (refusal field number) := .inl rfl

theorem onClock_noon : OnClock noon.epochSeconds := by
  have second : noon.epochSeconds = 1717243200 := by decide
  rw [second]
  exact ⟨by decide, by decide⟩

theorem reset_arithmetic_later :
    rateLimitReset? 1717243200 (refusal "retry-after" "30") = .ok (some 1717243230) ∧
    retryAfter noon (.rateLimited 1717243230 "code 429") = .requeue 30 := by
  have clock : OnClock 1717243200 := ⟨by decide, by decide⟩
  have hinted : hint (refusal "retry-after" "30").headers = .lasts 30 := by decide +kernel
  have second : noon.epochSeconds = 1717243200 := by decide
  obtain ⟨-, limited⟩ := reset_arithmetic clock onClock_noon (refusal "retry-after" "30")
  obtain ⟨computed, -⟩ := limited (limits_refusal _ _)
  rw [hinted] at computed
  obtain ⟨told, waits⟩ := computed.mpr ⟨by rw [second]; decide, by decide⟩
  have waited := waits "code 429"
  rw [second] at waited
  exact ⟨told, waited⟩

/-- There is no delay until a limit that ended before time began, though one second would do, and no end to
one that lasts nearly for ever. -/
theorem reset_overflows :
    rateLimitReset? 1717243200 (refusal "x-ratelimit-reset" "-9223372036854775808") =
      .ok (some (-9223372036854775808)) ∧
    isInt64 (-9223372036854775808 - noon.epochSeconds) = false ∧
    wait noon.epochSeconds (-9223372036854775808) = 1 ∧
    retryAfter noon (.rateLimited (-9223372036854775808) "code 429") = .overflow ∧
    (hint (refusal "retry-after" "9223372036854775807").headers).due 1717243200 =
      9223372038572019007 ∧
    isInt64 9223372038572019007 = false ∧
    rateLimitReset? 1717243200 (refusal "retry-after" "9223372036854775807") = .error .overflow := by
  refine ⟨?_, ?_, ?_, ?_, ?_, ?_, ?_⟩
  all_goals decide +kernel

end Control

end Gatehouse
