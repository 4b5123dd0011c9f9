import Gatehouse.Control.Run

/-!
# Admission

Only so many jobs may run at a time. The queue keeps the jobs that wait in the order of their arrival,
and the keys of the jobs that hold a slot. Whenever it is told about a job it brings both up to
date, and then starts jobs from the front while there are free slots. A job that cannot be
started is marked failed.
-/

namespace Gatehouse.Control

open Resource

/-- Has the job ended, in whatever way? -/
def isOver (job : PipelineJob) : Bool :=
  job.isCompleted ||
    match job.jobState with
    | .completed => true
    | .failed => true
    | .canceled => true
    | .pending => false
    | .running => false

/-- The admission queue. -/
structure Admission where
  /-- How many jobs may hold a slot. -/
  limit : Nat
  /-- The jobs that wait, the first to come at the front. -/
  pending : List PipelineJob := []
  /-- The keys of the jobs that hold a slot, without repetition. -/
  running : List String := []

/-- The waiting jobs without the one of a key. -/
def without (key : String) (jobs : List PipelineJob) : List PipelineJob :=
  jobs.filter fun p => p.key ≠ key

/-- Put a job in the place of the waiting one of its key, or at the end. -/
def enqueue (job : PipelineJob) : List PipelineJob → List PipelineJob
  | [] => [job]
  | p :: rest => if p.key = job.key then job :: rest else p :: enqueue job rest

namespace Admission

/-- Take in what is new about a job, without starting any: a job that is deleted or over gives back its
slot or place, one that runs takes a slot, and one that waits takes a place. -/
def takeIn (q : Admission) (job : PipelineJob) : Admission :=
  if job.isDeleting || isOver job then
    { q with pending := without job.key q.pending, running := q.running.erase job.key }
  else if job.jobState = .running then
    { q with pending := without job.key q.pending, running := q.running.insert job.key }
  else if q.running.contains job.key then q
  else { q with pending := enqueue job q.pending }

end Admission

/-- Start a job: see to it that it has a run. A run that is there already counts. -/
def start (job : PipelineJob) : Pass Unit := do
  let ns ← (namespaceOf job : Except Error String)
  match ← askCluster (.getConfig ns job.spec.config) with
  | none => throw (.notFound ("repo config " ++ job.spec.config))
  | some config =>
    match ← askCluster (.getRun ns (runName job)) with
    | some _ => return ()
    | none =>
      let run ← (generateRun job config : Except Error PipelineRun)
      askCluster (.createRun run)

/-- Mark a job failed. A failure to do so changes nothing. -/
def markFailed (job : PipelineJob) (e : Error) : Work Unit :=
  (askCluster (.patchJobStatus job { job.jobStatus with state := .failed, message := e.message }))
    |>.run.bind fun _ => .done ()

namespace Admission

/-- Start the jobs at the front of a list while there are free slots. -/
def fill (limit : Nat) : List PipelineJob → List String → Work Admission
  | [], running => .done { limit, running }
  | job :: rest, running =>
    if running.length < limit then
      (start job).run.bind fun
        | .ok () => fill limit rest (running.insert job.key)
        | .error e => (markFailed job e).bind fun _ => fill limit rest running
    else .done { limit, pending := job :: rest, running }

/-- Handle the news about a job. -/
def handle (q : Admission) (job : PipelineJob) : Work Admission :=
  let q := q.takeIn job
  fill q.limit q.pending q.running

/-- Handle the news about jobs in order. -/
def handleAll (q : Admission) : List PipelineJob → Work Admission
  | [] => .done q
  | job :: rest => (q.handle job).bind fun q => q.handleAll rest

end Admission

end Gatehouse.Control
