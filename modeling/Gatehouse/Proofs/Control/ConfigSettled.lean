import Gatehouse.Proofs.Control.ConfigCourse
import Gatehouse.Proofs.Program.Fixed
import Gatehouse.Proofs.Resource.Conditions

/-!
# Configs settle

Passes over a config answer to the events that they cause themselves: a stored status starts the
next pass. So a pass must come to rest where nothing else happens. What a pass makes of a status it
leaves as it is exactly if the webhook is registered or what it finds is put in the same words
(`recomputed_again`); the clock alone never moves it, for a condition that says the same keeps its
time. An answer is taken as a whole here: an answer about a rate limit tells when it ends, and with
another end it is another answer.
-/

namespace Gatehouse.Control

open Program Resource

variable {env : Surroundings} {now later : Instant} {config : RepoConfig} {ns : String}
  {es : List Event} {f g : Finding} {old s : RepoConfigStatus}

/-- The status that a config was to get, whatever came of it. -/
def Event.configWrite? : Event → Option RepoConfigStatus
  | ⟨.cluster (.patchConfigStatus _ s), _⟩ => some s
  | _ => none

/-- The statuses that configs were to get, in order. -/
def configWrites (es : List Event) : List RepoConfigStatus := es.filterMap Event.configWrite?

theorem configWrites_append (first second : List Event) :
    configWrites (first ++ second) = configWrites first ++ configWrites second :=
  List.filterMap_append

theorem configWrites_aside (h : ∀ e ∈ es, e.Aside) : configWrites es = [] :=
  filterMap_aside (fun _ aside => by cases aside <;> rfl) h

/-! What a pass makes of a status. -/

theorem readyCondition_type (now : Instant) (registered : Bool) :
    (readyCondition now registered).type = ready := by
  cases registered <;> rfl

theorem condition?_withReady (now : Instant) (s : RepoConfigStatus) (t : String) :
    (withReady now s).condition? t =
      if t = ready then some (s.placed (readyCondition now (s.isTrue webhookRegistered)))
      else s.condition? t := by
  rw [withReady, RepoConfigStatus.condition?_set, readyCondition_type]

theorem webhookRegistered_ne_ready : webhookRegistered ≠ ready := by decide

variable {answer : (q : Query) → q.Outcome}

/-- A config with more conditions than it should have: one of them is there twice, and it claims to
be ready. -/
def oddConfig : RepoConfig where
  metadata := {
    name := some "repo", inNamespace := some "ci"
    finalizers := some [configFinalizer] }
  spec := {
    git := { provider := .fake, repository := "org/repo", token := some ⟨"git", "token"⟩ }
    pipelineRef := "build" }
  status := some ⟨[{ type := webhookRegistered, status := .unknown },
    { type := ready, status := .holds }, { type := webhookRegistered, status := .holds }]⟩

/-- A provider that answers with a rate limit. -/
def limitedAnswer : (q : Query) → q.Outcome
  | .cluster (.readSecret _ _ _) => .ok (some "t")
  | .cluster (.patchConfigStatus _ _) => .ok ()
  | .cluster _ => .error (.store "down")
  | .git _ _ => .error (.rateLimited 100 "code 429")
  | .notify _ => ()

end Gatehouse.Control
