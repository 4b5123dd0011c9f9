import Gatehouse.Proofs.Chat.Overlap
import Gatehouse.Proofs.Control.Task

/-!
# Label events that are handled at the same time

The webhook server handles every event in a task of its own. Two tasks that turn over refused moves of
one label leave it as it was before the moves, unless both look at it before either turns it: then the
second turn sets what the first one set, and the label ends turned over.
-/

namespace Gatehouse.Control

open Chat Git Program Resource

variable {w w' : World} {repository : String} {id : Int} {config config₁ config₂ : RepoConfig}
  {event event₁ event₂ : Webhook} {es es₁ es₂ : List Event} {original : Labels}

/-- What the events do with the label, in order. -/
def touches (es : List Event) : List Touch := (es.filterMap Event.operation?).filterMap touch?

theorem jobRefs?_moved {pr : PullRequest} (type : event.eventType = .pullRequestChanged)
    (subject : subject? event = some pr) : jobRefs? event repository = none := by
  obtain ⟨here, action, -⟩ := (subject?_moved type).mp subject
  rw [jobRefs?, type]
  simp only [here]
  rcases action with action | action
  · simp [action, asksForBuild]
  · simp [action, asksForBuild]

/-- The task of a moved label only has operations done. -/
theorem task_of_move {v : Git.View} (move : RefusedMove v repository id event)
    (task : Path (handleEvent config (.inMemory repository) event) es ()) :
    ∃ gs o, es = gs.map (onGit (.inMemory repository)) ∧
      Path ((defaultDispatcher repository).dispatch event) gs o := by
  obtain ⟨pr, subject, -⟩ := move.subject
  obtain ⟨triggered, made, gs, o, rfl, triggers, dispatches⟩ := path_handleEvent.mp task
  have idle : triggered = [] := by
    unfold triggerJob at triggers
    rw [jobRefs?_moved move.type subject] at triggers
    exact (course_pure.mp triggers).1
  rw [idle]
  exact ⟨gs, o, rfl, dispatches⟩

/-- Two people who may not approve moved the label of a pull request, and the events of both moves are
handled in tasks of their own, whose questions come in any order. The label ends as it was before the
moves, unless the repository answers and both tasks look at the label before either moves it. Then the
label ends turned over. -/
theorem concurrent_moves (stored : original repository id ≠ none)
    (toggled : w.servers.store.view.labels =
      relabel repository id Chat.flip (relabel repository id Chat.flip original))
    (move₁ : RefusedMove w.servers.store.view repository id event₁)
    (move₂ : RefusedMove w.servers.store.view repository id event₂)
    (task₁ : Path (handleEvent config₁ (.inMemory repository) event₁) es₁ ())
    (task₂ : Path (handleEvent config₂ (.inMemory repository) event₂) es₂ ())
    (woven : Woven es₁ es₂ es) (follows : Follows World.Serves w es w') :
    (w'.servers.store.view.labels = original ↔
      ¬ (w.servers.store.view.Answers repository ∧ overlapping (touches es) = true)) ∧
    (w.servers.store.view.Answers repository → overlapping (touches es) = true →
      w'.servers.store.view.labels = relabel repository id Chat.flip original) := by
  have before : w.servers.store.view.labels = original := toggled.trans relabel_flip_flip
  obtain ⟨gs₁, o₁, rfl, path₁⟩ := task_of_move move₁ task₁
  obtain ⟨gs₂, o₂, rfl, path₂⟩ := task_of_move move₂ task₂
  obtain ⟨gs, rfl, woven'⟩ := woven.of_map
  have same : touches (gs.map (onGit (.inMemory repository))) = gs.filterMap touch? := by
    rw [touches, operations_onGit]
  rw [same]
  by_cases answers : w.servers.store.view.Answers repository
  · obtain ⟨set, there⟩ := Option.ne_none_iff_exists'.mp stored
    have turned : relabel repository id Chat.flip original ≠ original := relabel_flip_ne there
    have after := moves_woven answers (before ▸ there) move₁ move₂ path₁ path₂ woven'
      (follows_onGit follows)
    rw [after, before]
    cases overlapping (gs.filterMap touch?) with
    | true => simp [answers, turned]
    | false => simp [relabel_keep]
  · have kept := follows_shut answers (follows_onGit follows)
    rw [kept, before]
    simp [answers]

def eveUnlabels : Webhook :=
  { malloryLabels with
    sender := { id := 8, name := "eve" }
    pullRequest := some { bugFix with action := .unlabeled, labelChanged := [⟨approvedLabel⟩] } }

/-- Eve took the label off, mallory put it back on, and both moves are handled by a schedule. -/
def evesAndMallorys (turns : List Bool) : Work (Unit × Unit) :=
  interleave turns (handleEvent hosted (.inMemory "org/repo") eveUnlabels)
    (handleEvent hosted (.inMemory "org/repo") malloryLabels)

theorem refused_eve :
    RefusedMove (desk [⟨approvedLabel⟩] []).view "org/repo" 42 eveUnlabels :=
  ⟨rfl, _, rfl, rfl, by decide⟩

theorem refused_mallory :
    RefusedMove (desk [⟨approvedLabel⟩] []).view "org/repo" 42 malloryLabels :=
  ⟨rfl, _, rfl, rfl, by decide⟩

theorem concurrent_moves_serial :
    ((host [] [⟨approvedLabel⟩] []).perform default (evesAndMallorys [])).2.servers.store.view.labels =
      (host [] [⟨approvedLabel⟩] []).servers.store.view.labels := by
  have serves : ∀ q w, World.Serves q w (w.answer default q).1 (w.answer default q).2 :=
    fun q w => ⟨default, rfl⟩
  obtain ⟨path, follows⟩ := path_trace World.Serves (World.answer default) serves
    (evesAndMallorys []) (host [] [⟨approvedLabel⟩] [])
  obtain ⟨es₁, es₂, task₁, task₂, woven⟩ := woven_iff.mpr ⟨[], path⟩
  have stored : (desk [⟨approvedLabel⟩] []).view.labels "org/repo" 42 ≠ none := by decide
  obtain ⟨restored, -⟩ := concurrent_moves (w := host [] [⟨approvedLabel⟩] []) stored
    relabel_flip_flip.symm refused_eve refused_mallory task₁ task₂ woven follows
  have apart : overlapping
      (touches (trace (World.answer default) (evesAndMallorys [])
        (host [] [⟨approvedLabel⟩] []))) = false := by decide
  refine restored.mpr ?_
  rintro ⟨-, overlaps⟩
  rw [apart] at overlaps
  cases overlaps

/-- Eve and mallory may not move the label, which is there after both moves as it was before. If both
handlers see it, then both take it off. -/
theorem label_lost :
    RefusedMove (host [] [⟨approvedLabel⟩] []).servers.store.view "org/repo" 42 eveUnlabels ∧
    RefusedMove (host [] [⟨approvedLabel⟩] []).servers.store.view "org/repo" 42 malloryLabels ∧
    (host [] [⟨approvedLabel⟩] []).servers.store.view.labels "org/repo" 42 = some {approvedLabel} ∧
    ((host [] [⟨approvedLabel⟩] []).perform default
      (evesAndMallorys [true, false])).2.servers.store.view.labels "org/repo" 42 = some ∅ :=
  ⟨refused_eve, refused_mallory, by decide, by decide⟩

end Gatehouse.Control
