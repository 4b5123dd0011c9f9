import Gatehouse.Control.Error
import Gatehouse.Proofs.Text.Integers
import Gatehouse.Proofs.Text.Occurrences

/-!
# Rate limits in messages

The message of a rate limit tells when the limit ends, and that time is read back from it as it was,
whatever else the message says and whatever stands in front of it, as long as no other `::` does
(`reset_time_read_back`). A text without `::`, or without the words about a rate limit, tells nothing.
-/

namespace Gatehouse.Git

open Text

/-- The mark in front of the time. -/
def resetMark : List Char := "::".toList

/-- What stands in front of the mark in the message of a rate limit. -/
def sentinel : List Char := "ratelimit".toList

/-- What follows the time in the message of a rate limit. -/
def wording (text : String) : List Char := ". Rate limit exceeded, ".toList ++ text.toList

variable {start : String} {n : Int}

theorem toList_rateLimited (start : String) (n : Int) (text : String) :
    (start ++ (Error.rateLimited n text).message).toList =
      start.toList ++ sentinel ++ resetMark ++ ((toString n).toList ++ wording text) := by
  have marked : "ratelimit::".toList = sentinel ++ resetMark := by decide +kernel
  unfold Error.message wording
  rw [String.toList_append, String.toList_append, String.toList_append, String.toList_append,
    marked]
  simp only [List.append_assoc]

theorem contains_rateLimitText (start : String) (n : Int) (text : String) :
    contains rateLimitText.toList (start ++ (Error.rateLimited n text).message).toList = true := by
  have words : ". Rate limit exceeded, ".toList =
      ". ".toList ++ rateLimitText.toList ++ ", ".toList := by decide +kernel
  rw [contains_iff, toList_rateLimited]
  unfold wording
  rw [words]
  refine ⟨start.toList ++ sentinel ++ resetMark ++ (toString n).toList ++ ". ".toList,
    ", ".toList ++ text.toList, ?_⟩
  simp only [List.append_assoc]

/-- No mark ends before the one in the message if there is none in front of the message. -/
theorem mark_alone (unmarked : ¬ resetMark <:+: start.toList) :
    ¬ resetMark <:+: start.toList ++ sentinel ++ resetMark.dropLast := by
  rw [List.append_assoc, List.infix_append_iff]
  rintro (inside | behind | ⟨front, back, parts, ends, starts⟩)
  · exact unmarked inside
  · revert behind
    decide
  · -- The rest of a mark that begins in front would be empty: the message begins with a letter.
    cases back with
    | nil =>
      rw [List.append_nil] at parts
      exact unmarked (parts ▸ ends.isInfix)
    | cons c back =>
      obtain rfl : c = 'r' := (List.cons_prefix_cons.mp starts).1
      have member : 'r' ∈ resetMark := parts ▸ List.mem_append_right front List.mem_cons_self
      revert member
      decide

theorem takeWhile_epoch (n : Int) (text : String) :
    ((toString n).toList ++ wording text).takeWhile (· != '.') = (toString n).toList := by
  have stop : ". Rate limit exceeded, ".toList = '.' :: " Rate limit exceeded, ".toList := by
    decide +kernel
  have plain : ∀ c ∈ (toString n).toList, (c != '.') = true := by
    intro c member
    rcases mem_toString member with rfl | digit
    · decide
    · have other : c ≠ '.' := by
        rintro rfl
        cases digit
      simpa using other
  unfold wording
  rw [List.takeWhile_append_of_pos plain, stop, List.cons_append,
    List.takeWhile_cons_of_neg (by decide), List.append_nil]

theorem rateLimitResetTime_message (unmarked : ¬ resetMark <:+: start.toList)
    (small : isInt64 n = true) (text : String) :
    rateLimitResetTime (start ++ (Error.rateLimited n text).message) = n := by
  have found : cut [':', ':'] (start ++ (Error.rateLimited n text).message).toList =
      some (start.toList ++ sentinel, (toString n).toList ++ wording text) := by
    rw [toList_rateLimited]
    exact cut_first (mark_alone unmarked)
  unfold rateLimitResetTime
  rw [if_pos (contains_rateLimitText start n text), found]
  dsimp only
  rw [takeWhile_epoch, trim_toString, int64?_toString small, Option.getD_some]

theorem rateLimitResetTime_untold {text : String}
    (untold : ¬ (rateLimitText.toList <:+: text.toList ∧ resetMark <:+: text.toList)) :
    rateLimitResetTime text = 0 := by
  unfold rateLimitResetTime
  split
  · rename_i words
    have unmarked : ¬ resetMark <:+: text.toList := fun marked =>
      untold ⟨contains_iff.mp words, marked⟩
    have uncut : cut [':', ':'] text.toList = none := cut_eq_none unmarked
    rw [uncut]
  · rfl

/-- The end of a rate limit is read back from the message of the error, as a git provider or the
controller words it, behind any text without the mark. A text that has not both the words and the mark
in it tells of no end. -/
theorem reset_time_read_back :
    (∀ (start text : String) (n : Int), ¬ resetMark <:+: start.toList → isInt64 n = true →
      rateLimitResetTime (start ++ (Error.rateLimited n text).message) = n ∧
      rateLimitResetTime (start ++ (Control.Error.git (.rateLimited n text)).message) = n) ∧
    ∀ text : String, ¬ (rateLimitText.toList <:+: text.toList ∧ resetMark <:+: text.toList) →
      rateLimitResetTime text = 0 := by
  refine ⟨fun start text n unmarked small => ?_, fun text untold => ?_⟩
  · have back := rateLimitResetTime_message unmarked small text
    exact ⟨back, back⟩
  · exact rateLimitResetTime_untold untold

theorem reset_time_read_back_least :
    rateLimitResetTime ("hook 7: " ++
      (Error.rateLimited (-9223372036854775808) "see a::1.b, code 429").message) =
        -9223372036854775808 ∧
    rateLimitResetTime ("hook 7: " ++ (Control.Error.git
      (.rateLimited (-9223372036854775808) "see a::1.b, code 429")).message) =
        -9223372036854775808 ∧
    rateLimitResetTime "Rate limit exceeded: 5." = 0 := by
  obtain ⟨told, untold⟩ := reset_time_read_back
  obtain ⟨provider, controller⟩ := told "hook 7: " "see a::1.b, code 429" (-9223372036854775808)
    (by decide) (by decide)
  exact ⟨provider, controller, untold _ (by decide)⟩

end Gatehouse.Git
