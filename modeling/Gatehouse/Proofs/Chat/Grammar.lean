import Gatehouse.Proofs.Chat.Notices
import Gatehouse.Proofs.Text.Digits
import Gatehouse.Proofs.Text.Words

/-!
# The grammar of commands

A command is written as a slash, a name, and arguments that each stand behind at least one blank,
with blanks around the whole (`Spelling`). A line holds a command exactly if it is spelled so
(`ofLine?_eq_some_iff`), and none exactly if what trimming leaves of it does not start with a slash
and a name (`ofTrimmed?_eq_none_iff`). A text holds the commands of its lines in order, however the
lines are set off from each other (`command_grammar`).
-/

namespace Gatehouse.Chat

open Text

variable {t name rest line : List Char} {c : Command}

/-! Names. -/

/-- A name: ASCII letters, digits, `_` and `-`, of which the first is a letter or digit. -/
def IsName : List Char → Prop
  | [] => False
  | first :: more =>
    first.isAlphanum = true ∧ ∀ c ∈ more, c.isAlphanum = true ∨ c = '_' ∨ c = '-'

theorem isBlank_alphanum {c : Char} (solid : c.isAlphanum = true) : isBlank c = false := by
  have ranges := range_of_isAlphanum solid
  simp [isBlank]
  omega

theorem isNameChar_iff {c : Char} :
    isNameChar c = true ↔ c.isAlphanum = true ∨ c = '_' ∨ c = '-' := by
  simp [isNameChar, or_assoc]

theorem isBlank_nameChar {c : Char} (inName : isNameChar c = true) : isBlank c = false := by
  rcases isNameChar_iff.mp inName with solid | rfl | rfl
  · exact isBlank_alphanum solid
  · rfl
  · rfl

theorem IsName.solid (named : IsName name) : ∀ c ∈ name, isBlank c = false := by
  cases name with
  | nil => cases named
  | cons first more =>
    obtain ⟨start, chars⟩ := named
    exact List.forall_mem_cons.mpr ⟨isBlank_alphanum start, fun c member =>
      isBlank_nameChar (isNameChar_iff.mpr (chars c member))⟩

/-! A trimmed line. -/

/-- Does the text start with a slash and a name that ends there? -/
def NamesCommand (t : List Char) : Prop :=
  ∃ name rest, IsName name ∧ EndsWord rest ∧ t = '/' :: (name ++ rest)

theorem ofTrimmed?_slash (named : IsName name) (ends : EndsWord rest) :
    Command.ofTrimmed? ('/' :: (name ++ rest)) =
      some ⟨String.ofList name, (words rest).map String.ofList⟩ := by
  cases name with
  | nil => cases named
  | cons first more =>
    obtain ⟨start, chars⟩ := named
    have inName : ∀ c ∈ more, isNameChar c = true := fun c member =>
      isNameChar_iff.mpr (chars c member)
    rw [List.cons_append, Command.ofTrimmed?, if_pos (show isNameStart first from start),
      List.takeWhile_append_of_pos inName, List.dropWhile_append_of_pos inName]
    cases rest with
    | nil => simp [words, splitWhere]
    | cons b rest =>
      have blank : isBlank b = true := ends b rfl
      have stops : isNameChar b = false := by
        cases inName : isNameChar b with
        | false => rfl
        | true => exact absurd blank (by simp [isBlank_nameChar inName])
      simp [stops, blank]

theorem namesCommand_of_ofTrimmed? (found : Command.ofTrimmed? t = some c) : NamesCommand t := by
  unfold Command.ofTrimmed? at found
  split at found
  · rename_i first more
    split at found
    · rename_i start
      obtain ⟨run, rest, rfl, inName, stops⟩ := exists_run isNameChar more
      have chars : ∀ c ∈ run, c.isAlphanum = true ∨ c = '_' ∨ c = '-' := fun c member =>
        isNameChar_iff.mp (inName c member)
      refine ⟨first :: run, rest, ⟨start, chars⟩, ?_, by simp⟩
      cases rest with
      | nil => simp [EndsWord]
      | cons b rest =>
        rw [List.dropWhile_append_of_pos inName,
          List.dropWhile_cons_of_neg (by simp [stops b rfl])] at found
        cases blank : isBlank b with
        | true => simpa [EndsWord] using blank
        | false => simp [blank] at found
    · cases found
  · cases found

theorem ofTrimmed?_eq_none_iff : Command.ofTrimmed? t = none ↔ ¬ NamesCommand t := by
  constructor
  · rintro nothing ⟨name, rest, named, ends, rfl⟩
    rw [ofTrimmed?_slash named ends] at nothing
    cases nothing
  · intro plain
    exact Option.eq_none_iff_forall_ne_some.mpr fun c found =>
      plain (namesCommand_of_ofTrimmed? found)

/-! A line. -/

/-- A command as it is written on a line. -/
structure Spelling where
  lead : List Char
  name : List Char
  args : List SpacedWord
  trail : List Char
  lead_blank : ∀ c ∈ lead, isBlank c = true
  name_isName : IsName name
  trail_blank : ∀ c ∈ trail, isBlank c = true

/-- What is written. -/
def Spelling.text (s : Spelling) : List Char :=
  s.lead ++ '/' :: (s.name ++ spaced s.args) ++ s.trail

/-- The command that is meant. -/
def Spelling.command (s : Spelling) : Command :=
  ⟨String.ofList s.name, s.args.map fun arg => String.ofList arg.word⟩

theorem ofLine?_text (s : Spelling) : Command.ofLine? s.text = some s.command := by
  have solid : ∀ c ∈ '/' :: s.name, isBlank c = false :=
    List.forall_mem_cons.mpr ⟨rfl, s.name_isName.solid⟩
  have kept : trim s.text = '/' :: (s.name ++ spaced s.args) := by
    unfold trim Spelling.text
    rw [trimWhere_around s.lead_blank s.trail_blank]
    exact trimWhere_ends (by simp [isBlank]) (getLast?_spaced solid s.args)
  have none : ∀ c ∈ ([] : List Char), isBlank c = true := by simp
  have ends := endsWord_spaced s.args none
  have args := words_spaced s.args none
  rw [List.append_nil] at ends args
  rw [Command.ofLine?, kept, ofTrimmed?_slash s.name_isName ends, args, List.map_map]
  rfl

/-- A line is a command exactly if it is spelled as one. -/
theorem ofLine?_eq_some_iff :
    Command.ofLine? line = some c ↔ ∃ s : Spelling, s.text = line ∧ s.command = c := by
  constructor
  · intro found
    obtain ⟨name, rest, named, ends, trimmed⟩ := namesCommand_of_ofTrimmed? found
    obtain ⟨lead, trail, whole, leadBlank, trailBlank⟩ := trimWhere_parts isBlank line
    obtain ⟨args, more, rfl, moreBlank⟩ := exists_spaced rest ends
    rw [Command.ofLine?, trimmed, ofTrimmed?_slash named ends, words_spaced args moreBlank,
      List.map_map] at found
    have behind : ∀ c ∈ more ++ trail, isBlank c = true :=
      List.forall_mem_append.mpr ⟨moreBlank, trailBlank⟩
    refine ⟨⟨lead, name, args, more ++ trail, leadBlank, named, behind⟩, ?_,
      Option.some.inj found⟩
    rw [← trim, trimmed] at whole
    rw [whole, Spelling.text]
    simp
  · rintro ⟨s, rfl, rfl⟩
    exact ofLine?_text s

/-! Many lines. -/

/-- A line of a text: a command, or one that is none after trimming. -/
inductive Line where
  | command (s : Spelling) (whole : OneLine s.text)
  | prose (text : List Char) (plain : ¬ NamesCommand (trim text)) (whole : OneLine text)

/-- What is written on the line. -/
def Line.text : Line → List Char
  | .command s _ => s.text
  | .prose text _ _ => text

/-- The command on the line. -/
def Line.command? : Line → Option Command
  | .command s _ => some s.command
  | .prose .. => none

theorem Line.whole : (l : Line) → OneLine l.text
  | .command _ whole => whole
  | .prose _ _ whole => whole

theorem ofLine?_line (l : Line) : Command.ofLine? l.text = l.command? := by
  cases l with
  | command s whole => exact ofLine?_text s
  | prose text plain whole => exact ofTrimmed?_eq_none_iff.mpr plain

/-- Whatever stands on one line is a line. -/
theorem exists_line (whole : OneLine line) : ∃ l : Line, l.text = line := by
  cases found : Command.ofLine? line with
  | none => exact ⟨.prose line (ofTrimmed?_eq_none_iff.mp found) whole, rfl⟩
  | some c =>
    obtain ⟨s, rfl, -⟩ := ofLine?_eq_some_iff.mp found
    exact ⟨.command s whole, rfl⟩

/-- How a line is set off from the next one. -/
inductive Break where
  | feed
  | returnFeed

def Break.text : Break → List Char
  | .feed => ['\n']
  | .returnFeed => ['\r', '\n']

/-- Lines one below the other. Each but the last is followed by its break. -/
def layout : List (Line × Break) → List Char
  | [] => []
  | [(l, _)] => l.text
  | (l, ending) :: more => l.text ++ ending.text ++ layout more

theorem ofLine?_return (line : List Char) :
    Command.ofLine? (line ++ ['\r']) = Command.ofLine? line := by
  have front : ∀ c ∈ ([] : List Char), isBlank c = true := by simp
  have back : ∀ c ∈ ['\r'], isBlank c = true := by simp [isBlank]
  have same : trim ([] ++ line ++ ['\r']) = trim line := trimWhere_around front back line
  rw [List.nil_append] at same
  rw [Command.ofLine?, same, Command.ofLine?]

theorem ofLine?_dropReturn (line : List Char) :
    Command.ofLine? (dropReturn line) = Command.ofLine? line := by
  unfold dropReturn
  split
  · rename_i ending
    obtain ⟨front, rfl⟩ := List.getLast?_eq_some_iff.mp ending
    rw [List.dropLast_concat, ofLine?_return]
  · rfl

theorem commandsIn_pieces (s : List Char) :
    commandsIn s = (splitOn '\n' s).filterMap Command.ofLine? :=
  filterMap_terminated ofLine?_dropReturn rfl _

theorem commandsIn_cut (a b : List Char) :
    commandsIn (a ++ '\n' :: b) = commandsIn a ++ commandsIn b := by
  rw [commandsIn_pieces, splitOn, splitWhere_cut rfl, List.filterMap_append, ← splitOn, ← splitOn,
    ← commandsIn_pieces, ← commandsIn_pieces]

theorem commandsIn_whole (whole : OneLine line) :
    commandsIn line = (Command.ofLine? line).toList := by
  rw [commandsIn_pieces, splitOn, splitWhere_line whole, List.filterMap_cons]
  cases Command.ofLine? line <;> rfl

theorem commandsIn_break (l : Line) (ending : Break) (s : List Char) :
    commandsIn (l.text ++ ending.text ++ s) = l.command?.toList ++ commandsIn s := by
  have returned : OneLine (l.text ++ ['\r']) :=
    List.forall_mem_append.mpr ⟨l.whole, by simp⟩
  cases ending with
  | feed =>
    rw [Break.text, List.append_assoc, List.singleton_append, commandsIn_cut,
      commandsIn_whole l.whole, ofLine?_line]
  | returnFeed =>
    have whole : l.text ++ Break.returnFeed.text ++ s = (l.text ++ ['\r']) ++ '\n' :: s := by
      simp [Break.text]
    rw [whole, commandsIn_cut, commandsIn_whole returned, ofLine?_return, ofLine?_line]

theorem commandsIn_layout (ls : List (Line × Break)) :
    commandsIn (layout ls) = ls.filterMap fun l => l.1.command? := by
  induction ls with
  | nil => rfl
  | cons first more ih =>
    obtain ⟨l, ending⟩ := first
    cases more with
    | nil =>
      rw [layout, commandsIn_whole l.whole, ofLine?_line]
      cases found : l.command? <;> simp [found]
    | cons next more =>
      rw [layout, commandsIn_break, ih]
      · cases found : l.command? <;> simp [found, List.filterMap_cons]
      · simp

/-- Every text is laid out in lines. -/
theorem exists_layout (s : List Char) : ∃ first more, layout (first :: more) = s := by
  rcases first_line s with whole | ⟨line, rest, rfl, whole⟩
  · obtain ⟨l, rfl⟩ := exists_line whole
    exact ⟨(l, .feed), [], rfl⟩
  · obtain ⟨l, rfl⟩ := exists_line whole
    obtain ⟨first, more, rfl⟩ := exists_layout rest
    exact ⟨(l, .feed), first :: more, by simp [layout, Break.text]⟩
termination_by s.length

/-- Extraction gives the commands as they were spelled, line by line, and no others. Any text is laid
out in lines, and two texts with a line feed between them hold the commands of both. -/
theorem command_grammar :
    (∀ ls : List (Line × Break), extractCommands (String.ofList (layout ls)) =
      ls.filterMap fun l => l.1.command?) ∧
    (∀ body : String, ∃ ls, body = String.ofList (layout ls)) ∧
    ∀ a b : String, extractCommands (a ++ "\n" ++ b) = extractCommands a ++ extractCommands b := by
  refine ⟨fun ls => ?_, fun body => ?_, fun a b => ?_⟩
  · rw [extractCommands, String.toList_ofList, commandsIn_layout]
  · obtain ⟨first, more, text⟩ := exists_layout body.toList
    exact ⟨first :: more, by rw [text, String.ofList_toList]⟩
  · have feed : "\n".toList = ['\n'] := rfl
    rw [extractCommands, String.toList_append, String.toList_append, feed, List.append_assoc]
    exact commandsIn_cut a.toList b.toList

example : extractCommands "Looks good to me.\n\n/ci-approve\nthanks!\n  /approve check\r\n" =
    [⟨"ci-approve", []⟩, ⟨"approve", ["check"]⟩] := by decide +kernel

end Gatehouse.Chat
