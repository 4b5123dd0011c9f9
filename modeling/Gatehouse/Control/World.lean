import Gatehouse.Cluster.Memory
import Gatehouse.Control.Admission

/-!
# A controller at work

The controller on a cluster and git providers in memory. What the passes tell the admission queue is
kept until the queue comes to it, so any interleaving of passes and the queue's work is a
sequence of steps on one state.
-/

namespace Gatehouse.Control

open Resource

/-- The state of everything that the controller works on. -/
structure World where
  cluster : Cluster.Memory := {}
  servers : Git.Servers := {}
  /-- The jobs that the queue was told about and has not come to. -/
  notified : List PipelineJob := []

namespace World

/-- Answer a question of the controller. -/
def answer (now : Instant) : (q : Query) → World → q.Outcome × World
  | .cluster q, w =>
    let (outcome, cluster) := w.cluster.answer q
    (outcome, { w with cluster })
  | .git client q, w =>
    let (outcome, servers) := client.answer now q w.servers
    (outcome, { w with servers })
  | .notify job, w => ((), { w with notified := w.notified ++ [job] })

/-- Do work. -/
def perform {α : Type} (now : Instant) (work : Work α) (w : World) : α × World :=
  work.run (answer now) w

/-- Let the queue come to the jobs that it was told about. -/
def settle (now : Instant) (q : Admission) (w : World) : Admission × World :=
  perform now (q.handleAll w.notified) { w with notified := [] }

end World

end Gatehouse.Control
