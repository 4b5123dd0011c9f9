import Gatehouse.Control.Query

/-!
# Triggering jobs

What an event asks to build, and the job for it. A push asks for the pushed commit, unless it
deleted a branch; an open pull request asks for its head when it was opened, reopened or given new
commits.
-/

namespace Gatehouse.Control

open Git Resource

/-- The label of a job that names its config. -/
def configLabel : String := "prflow.dev/config"

/-- The commit that a push tells of when it deletes a branch. -/
def nullSha : String := "0000000000000000000000000000000000000000"

/-- Does what happened to a pull request ask for a build? -/
def asksForBuild : PullRequestAction → Bool
  | .opened => true
  | .reopened => true
  | .synchronized => true
  | _ => false

/-- What an event asks to build. -/
def jobRefs? (w : Webhook) (repository : String) : Option JobRefs :=
  match w.eventType with
  | .push => do
    let push ← w.push
    if push.sha = "" ∨ push.sha = nullSha then none
    else some { repository, ref := push.ref, sha := push.sha }
  | .pullRequestChanged => do
    let pr ← w.pullRequest
    if asksForBuild pr.action && pr.isOpen then
      some { repository, ref := pr.head.ref, sha := pr.head.sha, pullRequest := some pr.id }
    else none
  | _ => none

/-- The job of a config that builds something. Its name is left to the cluster. -/
def newJob (ns : String) (config : RepoConfig) (refs : JobRefs) : PipelineJob :=
  { metadata := {
      generateName := some (config.name ++ "-")
      inNamespace := some ns
      labels := some ((∅ : Table String String).insert configLabel config.name) }
    spec := { config := config.name, refs } }

/-- Create the job that an event asks for, if it asks for one. -/
def triggerJob (config : RepoConfig) (w : Webhook) : Pass (Option PipelineJob) := do
  match jobRefs? w config.spec.git.repository with
  | none => return none
  | some refs =>
    let ns ← (namespaceOf config : Except Error String)
    let job ← askCluster (.createJob (newJob ns config refs))
    return some job

end Gatehouse.Control
