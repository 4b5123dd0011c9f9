import Gatehouse.Gitlab.Client
import Gatehouse.Json.Render
import Gatehouse.Proofs.Program.Fallible
import Gatehouse.Proofs.Text.Lines
import Mathlib.Data.List.Forall2

/-!
# Counting the lines of a diff

A unified diff names the two versions of a file, if it does, and then has hunks of lines that were
added, deleted or kept. GitLab sends the text of it, and the added and deleted lines are counted by their
first characters. A line that says of itself that it was added or deleted is told apart from the names of
the versions by its next two characters, so one whose content begins with the same sign twice is not
counted (`diff_counts`), and a count may be too small (`diff_miscounted`).
-/

namespace Gatehouse.Gitlab

open Git Http Text

deriving instance DecidableEq for FileDiff

/-! Diffs as they are written. -/

/-- What became of a line. -/
inductive Mark where
  | added
  | deleted
  | kept
  deriving DecidableEq

/-- The sign in front of a line. -/
def Mark.sign : Mark → Char
  | .added => '+'
  | .deleted => '-'
  | .kept => ' '

/-- A line of a file, and what became of it. -/
structure MarkedLine where
  mark : Mark
  content : List Char

/-- A part of a file: where it is, and its lines. -/
structure Hunk where
  place : List Char
  lines : List MarkedLine

/-- What became of a file: the names of its two versions, and the parts in which they differ. -/
structure UnifiedDiff where
  names : Option (List Char × List Char)
  hunks : List Hunk

/-- A line with its sign. -/
def MarkedLine.text (l : MarkedLine) : List Char := l.mark.sign :: l.content

/-- The lines that name the two versions. -/
def headLines : Option (List Char × List Char) → List (List Char)
  | none => []
  | some (old, new) => ["--- ".toList ++ old, "+++ ".toList ++ new]

/-- The lines of a hunk. -/
def Hunk.texts (h : Hunk) : List (List Char) :=
  ("@@".toList ++ h.place) :: h.lines.map MarkedLine.text

namespace UnifiedDiff

/-- The lines of a diff. -/
def texts (d : UnifiedDiff) : List (List Char) := headLines d.names ++ d.hunks.flatMap Hunk.texts

/-- The marked lines of a diff, from all hunks. -/
def marked (d : UnifiedDiff) : List MarkedLine := d.hunks.flatMap Hunk.lines

/-- The number of lines with a mark. -/
def count (d : UnifiedDiff) (m : Mark) : Nat := d.marked.countP (·.mark = m)

/-- The text is that of the diff, with line feeds between its lines or after each of them. -/
def Writes (d : UnifiedDiff) (s : String) : Prop :=
  (∀ line ∈ d.texts, '\n' ∉ line) ∧ Joined d.texts s.toList

end UnifiedDiff

/-- The line looks like one that names a version, but for its place. -/
def MarkedLine.Veiled (l : MarkedLine) : Prop := [l.mark.sign, l.mark.sign] <+: l.content

instance (l : MarkedLine) : Decidable l.Veiled :=
  inferInstanceAs (Decidable ([l.mark.sign, l.mark.sign] <+: l.content))

/-! Lines by their first characters. -/

/-- The line has a sign in front, and not three of them. -/
def isSigned (sign : Char) (line : List Char) : Bool :=
  line.head? == some sign && !(List.replicate 3 sign).isPrefixOf line

theorem isAdded_eq : isAdded = isSigned '+' := rfl

theorem isDeleted_eq : isDeleted = isSigned '-' := rfl

variable {sign : Char} {m : Mark} {d : UnifiedDiff} {file : FileDiff}

/-- Carriage returns are no signs. -/
theorem isSigned_dropReturn (solid : sign ≠ '\r') (line : List Char) :
    isSigned sign (dropReturn line) = isSigned sign line := by
  unfold dropReturn
  split
  · rename_i last
    obtain ⟨front, rfl⟩ := List.getLast?_eq_some_iff.mp last
    rw [List.dropLast_concat]
    match front with
    | [] => simp [isSigned, solid.symm]
    | [a] => simp [isSigned, List.isPrefixOf]
    | [a, b] => simp [isSigned, List.isPrefixOf, solid]
    | a :: b :: c :: front => simp [isSigned, List.isPrefixOf]
  · rfl

theorem isSigned_text (l : MarkedLine) (counted : m ≠ .kept) :
    isSigned m.sign l.text = decide (l.mark = m ∧ ¬ l.Veiled) := by
  obtain ⟨mark, content⟩ := l
  cases m with
  | kept => exact absurd rfl counted
  | added =>
    cases mark
    all_goals simp [isSigned, MarkedLine.text, MarkedLine.Veiled, Mark.sign,
      ← List.isPrefixOf_iff_prefix]
  | deleted =>
    cases mark
    all_goals simp [isSigned, MarkedLine.text, MarkedLine.Veiled, Mark.sign,
      ← List.isPrefixOf_iff_prefix]

/-- No line but a marked one is counted. -/
theorem countP_texts (d : UnifiedDiff) (counted : m ≠ .kept) :
    d.texts.countP (isSigned m.sign) = d.marked.countP fun l => l.mark = m ∧ ¬ l.Veiled := by
  have head : (headLines d.names).countP (isSigned m.sign) = 0 := by
    have named (old new : List Char) : isSigned m.sign ("--- ".toList ++ old) = false ∧
        isSigned m.sign ("+++ ".toList ++ new) = false := by
      cases m with
      | kept => exact absurd rfl counted
      | added => exact ⟨rfl, rfl⟩
      | deleted => exact ⟨rfl, rfl⟩
    cases names : d.names with
    | none => rfl
    | some pair =>
      obtain ⟨old, new⟩ := pair
      obtain ⟨first, second⟩ := named old new
      simp only [headLines, List.countP_cons, List.countP_nil, first, second]
      rfl
  have hunk (h : Hunk) : h.texts.countP (isSigned m.sign) =
      h.lines.countP fun l => l.mark = m ∧ ¬ l.Veiled := by
    have start : isSigned m.sign ("@@".toList ++ h.place) = false := by
      cases m <;> rfl
    have same : isSigned m.sign ∘ MarkedLine.text =
        fun l => decide (l.mark = m ∧ ¬ l.Veiled) := by
      funext l
      exact isSigned_text l counted
    rw [Hunk.texts, List.countP_cons_of_neg (ne_true_of_eq_false start), List.countP_map, same]
  rw [UnifiedDiff.texts, List.countP_append, head, Nat.zero_add, UnifiedDiff.marked,
    List.countP_flatMap, List.countP_flatMap]
  exact congrArg List.sum (List.map_congr_left fun h _ => hunk h)

/-- A written diff is counted without the veiled lines. -/
theorem signed_lines (writes : d.Writes file.diff) (counted : m ≠ .kept) :
    ((lines file.diff.toList).filter (isSigned m.sign)).length =
      d.marked.countP fun l => l.mark = m ∧ ¬ l.Veiled := by
  have solid : m.sign ≠ '\r' := by cases m <;> decide
  rw [← List.countP_eq_length_filter, countP_lines (isSigned_dropReturn solid) rfl writes.1 writes.2,
    countP_texts d counted]

theorem count_eq_iff (d : UnifiedDiff) (m : Mark) :
    (d.marked.countP fun l => l.mark = m ∧ ¬ l.Veiled) = d.count m ↔
      ∀ l ∈ d.marked, l.mark = m → ¬ l.Veiled := by
  have among : (d.marked.countP fun l => l.mark = m ∧ ¬ l.Veiled) =
      (d.marked.filter (·.mark = m)).countP fun l => ¬ l.Veiled := by
    rw [List.countP_filter]
    congr 1
    funext l
    simp [Bool.and_comm]
  have all : d.count m = (d.marked.filter (·.mark = m)).length := List.countP_eq_length_filter
  rw [among, all, List.countP_eq_length]
  simp only [List.mem_filter, decide_eq_true_eq, and_imp]

/-! The answer of a client. -/

/-- The counts of a changed file are those of a diff, less the veiled lines. -/
structure Counts (d : UnifiedDiff) (change : Change) : Prop where
  additions : change.additions = d.marked.countP fun l => l.mark = .added ∧ ¬ l.Veiled
  deletions : change.deletions = d.marked.countP fun l => l.mark = .deleted ∧ ¬ l.Veiled

theorem counts_toChange (writes : d.Writes file.diff) : Counts d file.toChange where
  additions := by
    change ((lines file.diff.toList).filter isAdded).length = _
    rw [isAdded_eq]
    exact signed_lines writes (m := .added) nofun
  deletions := by
    change ((lines file.diff.toList).filter isDeleted).length = _
    rw [isDeleted_eq]
    exact signed_lines writes (m := .deleted) nofun

theorem Counts.exact_iff {change : Change} (counts : Counts d change) :
    (change.additions = d.count .added ↔ ∀ l ∈ d.marked, l.mark = .added → ¬ l.Veiled) ∧
    (change.deletions = d.count .deleted ↔ ∀ l ∈ d.marked, l.mark = .deleted → ¬ l.Veiled) := by
  rw [counts.additions, counts.deletions]
  exact ⟨count_eq_iff d .added, count_eq_iff d .deleted⟩

theorem answer_getPullRequestDiff {c : Client} {now id : Int} {p p' : Peer} {files : List FileDiff}
    (given : getJson c.headers now readChanges (c.url s!"/merge_requests/{id}/changes") p =
      (.ok files, p')) :
    c.answer now (.getPullRequestDiff id) p = (.ok ⟨files.map FileDiff.toChange⟩, p') :=
  run_andThen_ok given

/-- Of the changes that the server sends, each is given the counts of its diff. They are too small by
the lines that look like names of versions, and exact if there are none. -/
theorem diff_counts (c : Client) (now id : Int) (p : Peer) {p' : Peer} {files : List FileDiff}
    (given : getJson c.headers now readChanges (c.url s!"/merge_requests/{id}/changes") p =
      (.ok files, p')) :
    ∃ diff, c.answer now (.getPullRequestDiff id) p = (.ok diff, p') ∧
      List.Forall₂ (fun file change => ∀ d : UnifiedDiff, d.Writes file.diff →
        Counts d change ∧
        (change.additions = d.count .added ↔ ∀ l ∈ d.marked, l.mark = .added → ¬ l.Veiled) ∧
        (change.deletions = d.count .deleted ↔ ∀ l ∈ d.marked, l.mark = .deleted → ¬ l.Veiled))
        files diff.changes := by
  refine ⟨_, answer_getPullRequestDiff given, ?_⟩
  rw [List.forall₂_map_right_iff, List.forall₂_same]
  intro file _ d writes
  have counts := counts_toChange writes
  exact ⟨counts, counts.exact_iff⟩

/-! Two diffs. -/

/-- A server that sends the diff of one file. -/
def oneChange (diff : String) : Peer where
  script := [some {
    status := 200
    body := (Json.obj [("changes", .arr [.obj [("old_path", .str "x"), ("new_path", .str "x"),
      ("diff", .str diff)]])]).render }]

/-- A client of a project on a server without secrets. -/
def reader : Client where
  headers := []
  projectUrl := "http://h/api/v4/projects/p"
  repository := "p"
  webhookSecret := none

/-- A line is replaced by two. -/
def plainDiff : UnifiedDiff where
  names := some ("a/x".toList, "b/x".toList)
  hunks := [{
    place := " -1,2 +1,2 @@".toList
    lines := [⟨.deleted, "old".toList⟩, ⟨.added, "new".toList⟩, ⟨.added, "more".toList⟩,
      ⟨.kept, "same".toList⟩] }]

/-- A remark and a line are replaced by a count and a line. -/
def veiledDiff : UnifiedDiff where
  names := none
  hunks := [{
    place := " -1,2 +1,2 @@".toList
    lines := [⟨.deleted, "-- note".toList⟩, ⟨.deleted, "x".toList⟩, ⟨.added, "++count;".toList⟩,
      ⟨.added, "y".toList⟩] }]

/-- The text of `plainDiff`. -/
def plainText : String := "--- a/x\n+++ b/x\n@@ -1,2 +1,2 @@\n-old\n+new\n+more\n same"

/-- The text of `veiledDiff`. -/
def veiledText : String := "@@ -1,2 +1,2 @@\n--- note\n-x\n+++count;\n+y\n"

theorem plainDiff_writes : plainDiff.Writes plainText := by
  have text : plainText.toList = List.intercalate ['\n'] plainDiff.texts := by decide +kernel
  refine ⟨by decide +kernel, ?_⟩
  rw [text]
  exact .between

theorem veiledDiff_writes : veiledDiff.Writes veiledText := by
  have text : veiledText.toList = veiledDiff.texts.flatMap (· ++ ['\n']) := by decide +kernel
  refine ⟨by decide +kernel, ?_⟩
  rw [text]
  exact .ended

theorem diff_counts_plain :
    ∃ change, (reader.answer 0 (.getPullRequestDiff 7) (oneChange plainText)).1 = .ok ⟨[change]⟩ ∧
      change.additions = 2 ∧ change.deletions = 1 := by
  have sent : (getJson reader.headers 0 readChanges (reader.url s!"/merge_requests/{7}/changes")
      (oneChange plainText)).1 = .ok [⟨"x", "x", false, plainText⟩] := by decide +kernel
  obtain ⟨⟨changes⟩, answered, counted⟩ := diff_counts reader 0 7 (oneChange plainText)
    (Prod.ext sent rfl)
  obtain ⟨change, rest, here, last, rfl⟩ := List.forall₂_cons_left_iff.mp counted
  obtain rfl := List.forall₂_nil_left_iff.mp last
  obtain ⟨-, additions, deletions⟩ := here plainDiff plainDiff_writes
  refine ⟨change, congrArg Prod.fst answered, ?_, ?_⟩
  · exact additions.mpr (by decide)
  · exact deletions.mpr (by decide)

/-- A line that was added or deleted is not counted if it looks like a name. -/
theorem diff_miscounted :
    veiledDiff.Writes veiledText ∧
    (reader.answer 0 (.getPullRequestDiff 7) (oneChange veiledText)).1 =
      .ok ⟨[{ filename := "x", additions := 1, deletions := 1 }]⟩ ∧
    veiledDiff.count .added = 2 ∧ veiledDiff.count .deleted = 2 := by
  refine ⟨veiledDiff_writes, ?_, ?_, ?_⟩
  all_goals decide +kernel

end Gatehouse.Gitlab
