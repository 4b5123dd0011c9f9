import Gatehouse.Chat.Approval
import Gatehouse.Proofs.Text.Lines

/-!
# Notices hold no commands

The commands of a text are those of its lines (`commandsIn_line`), and a line that starts with
anything but a blank or a slash holds none (`ofLine?_other`). Every line of a notice starts so,
whoever it names, as long as the name stays on one line.
-/

namespace Gatehouse.Chat

open Text

variable {c : Char} {line rest : List Char}

/-- No line feed stands in the text. -/
def OneLine (line : List Char) : Prop := ∀ c ∈ line, (c == '\n') = false

/-- A text holds the commands of its first line and those of the rest. -/
theorem commandsIn_line (whole : OneLine line) :
    commandsIn (line ++ '\n' :: rest) =
      (Command.ofLine? (dropReturn line)).toList ++ commandsIn rest := by
  unfold commandsIn
  rw [lines_append whole, List.filterMap_cons]
  cases Command.ofLine? (dropReturn line) <;> rfl

theorem ofLine?_other (solid : isBlank c = false) (other : c ≠ '/') :
    Command.ofLine? (c :: line) = none := by
  obtain ⟨tail, trimmed⟩ := trim_cons line solid
  rw [Command.ofLine?, trimmed]
  unfold Command.ofTrimmed?
  split
  · rename_i same
    exact absurd (List.cons.inj same).1 other
  · rfl

/-- What stands behind the first line of a text. -/
def afterLine : List Char → List Char
  | [] => []
  | c :: s => if c == '\n' then s else afterLine s

theorem afterLine_append (whole : OneLine line) : afterLine (line ++ rest) = afterLine rest := by
  induction line with
  | nil => rfl
  | cons c line ih =>
    rw [List.cons_append, afterLine, whole c (List.mem_cons_self ..)]
    exact ih fun c member => whole c (List.mem_cons_of_mem _ member)

theorem afterLine_cut (whole : OneLine line) : afterLine (line ++ '\n' :: rest) = rest := by
  rw [afterLine_append whole]
  rfl

theorem first_line (s : List Char) :
    OneLine s ∨ ∃ line rest, s = line ++ '\n' :: rest ∧ OneLine line := by
  induction s with
  | nil => exact .inl (by simp [OneLine])
  | cons c s ih =>
    by_cases ends : c = '\n'
    · exact .inr ⟨[], s, by rw [ends]; rfl, by simp [OneLine]⟩
    · have here : (c == '\n') = false := by simpa using ends
      rcases ih with whole | ⟨line, rest, rfl, whole⟩
      · exact .inl (List.forall_mem_cons.mpr ⟨here, whole⟩)
      · exact .inr ⟨c :: line, rest, rfl, List.forall_mem_cons.mpr ⟨here, whole⟩⟩

theorem dropReturn_cons (line : List Char) (solid : isBlank c = false) :
    ∃ tail, dropReturn (c :: line) = c :: tail := by
  unfold dropReturn
  split
  · rename_i ends
    cases line with
    | nil =>
      obtain rfl : c = '\r' := by simpa using ends
      cases solid
    | cons d line => exact ⟨_, rfl⟩
  · exact ⟨line, rfl⟩

theorem commandsIn_prose (solid : isBlank c = false) (other : c ≠ '/') :
    commandsIn (c :: rest) = commandsIn (afterLine rest) := by
  have here : (c == '\n') = false := by
    rw [beq_eq_false_iff_ne]
    rintro rfl
    cases solid
  rcases first_line rest with whole | ⟨line, rest, rfl, whole⟩
  · have joined : OneLine (c :: rest) := List.forall_mem_cons.mpr ⟨here, whole⟩
    have single : lines (c :: rest) = [c :: rest] := by
      unfold lines splitOn
      rw [splitWhere_line joined]
      rfl
    have after : afterLine rest = [] := by
      rw [← List.append_nil rest, afterLine_append whole]
      rfl
    rw [after, commandsIn, single, List.filterMap_cons, ofLine?_other solid other]
    rfl
  · obtain ⟨tail, same⟩ := dropReturn_cons line solid
    rw [afterLine_cut whole, ← List.cons_append,
      commandsIn_line (List.forall_mem_cons.mpr ⟨here, whole⟩), same, ofLine?_other solid other]
    rfl

theorem commandsIn_empty : commandsIn ('\n' :: rest) = commandsIn rest :=
  commandsIn_line (show OneLine [] by simp [OneLine])

theorem commandsIn_nil : commandsIn [] = [] := rfl

theorem extractCommands_approvedNotice {user : String} (whole : OneLine user.toList) :
    extractCommands (approvedNotice user) = [] := by
  unfold extractCommands approvedNotice
  simp only [String.toList_append]
  rw [String.toList_ofList, String.toList_ofList]
  simp (disch := decide) [commandsIn_prose, commandsIn_empty, commandsIn_nil, afterLine,
    afterLine_append whole]

theorem extractCommands_canceledNotice {user : String} (whole : OneLine user.toList) :
    extractCommands (canceledNotice user) = [] := by
  unfold extractCommands canceledNotice
  simp only [String.toList_append]
  rw [String.toList_ofList, String.toList_ofList]
  simp (disch := decide) [commandsIn_prose, commandsIn_empty, commandsIn_nil, afterLine,
    afterLine_append whole]

set_option maxRecDepth 2000 in
theorem extractCommands_unauthorizedNotice {user : String} (whole : OneLine user.toList) :
    extractCommands (unauthorizedNotice user) = [] := by
  unfold extractCommands unauthorizedNotice
  simp only [String.toList_append]
  repeat rw [String.toList_ofList]
  simp (disch := decide) [commandsIn_prose, commandsIn_empty, commandsIn_nil, afterLine,
    afterLine_append whole]

set_option maxRecDepth 2000 in
theorem extractCommands_helpNotice : extractCommands helpNotice = [] := by
  unfold extractCommands helpNotice
  simp only [String.toList_append]
  repeat rw [String.toList_ofList]
  simp (disch := decide) [commandsIn_prose, commandsIn_empty, commandsIn_nil, afterLine]

end Gatehouse.Chat
