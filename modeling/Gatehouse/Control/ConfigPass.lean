import Gatehouse.Control.Access

/-!
# Passes over configs

A pass over a config registers the controller's webhook with the git provider, and removes it when
the config is deleted. What became of it is told by two conditions: `WebhookRegistered`, and
`Ready`, which follows it. A failure of the provider ends up in the conditions and never ends a
pass.
-/

namespace Gatehouse.Control

open Resource

/-- The finalizer of the controller on configs. -/
def configFinalizer : String := "prflow.dev/config-finalizer"

/-- What passes over configs depend on. -/
structure Surroundings where
  settings : Settings
  /-- Is there a git provider in memory? -/
  hasStore : Bool

/-- The URL of the webhook of a config. -/
def hookUrl (env : Surroundings) (ns : String) (config : RepoConfig) : Option String :=
  env.settings.webhookUrl ns config.name

/-- Register a webhook unless there is one for its URL already; tell whether there was. -/
def ensureRegistered (url : String) : Git.Action Bool := do
  let hooks ← Git.ask .listWebhooks
  if hooks.any (·.url == url) then return true
  Git.ask (.registerWebhook url)
  return false

/-- A condition about the webhook, from now on. -/
def hookCondition (now : Instant) (status : ConditionStatus) (reason message : String) :
    Condition :=
  { type := webhookRegistered, status, reason, message, lastTransitionTime := some now }

/-- When to try again after a rate limit. -/
def retryAfter (now : Instant) (e : Git.Error) : Schedule :=
  match e.resetTime? with
  | some reset =>
    match Git.gapSeconds now.epochSeconds reset with
    | .ok gap => .requeue (max gap 1).toNat
    | .error _ => .overflow
  | none => .awaitChange

/-- Try to register the webhook of a config: the condition to set, and when to try again. -/
def registerWebhook (env : Surroundings) (now : Instant) (ns : String) (config : RepoConfig) :
    Pass (Condition × Schedule) := do
  match hookUrl env ns config with
  | none =>
    return (hookCondition now .fails "noExternalHost"
      "Skipped to register webhook, no external hostname is configured", .awaitChange)
  | some url =>
    match ← attempt (clientFor env.hasStore config) with
    | .error e => return (hookCondition now .fails "gitCliErr" e.message, .awaitChange)
    | .ok none =>
      return (hookCondition now .fails "noGitToken" "Skipped to register webhook", .awaitChange)
    | .ok (some client) =>
      match ← viaGit client (ensureRegistered url) with
      | .ok true =>
        return (hookCondition now .holds "Registered" "Webhook is already registered",
          .awaitChange)
      | .ok false =>
        return (hookCondition now .holds "Registered" "Webhook is registered", .awaitChange)
      | .error e =>
        return (hookCondition now .fails "webhookRegisterFailed" e.message, retryAfter now e)

/-- The condition `Ready`, which holds while the webhook is registered. -/
def readyCondition (now : Instant) (registered : Bool) : Condition :=
  if registered then
    { type := ready, status := .holds, reason := "Ready", message := "Ready"
      lastTransitionTime := some now }
  else
    { type := ready, status := .fails, reason := "NotReady", message := "Not ready"
      lastTransitionTime := some now }

/-- The status with `Ready` brought in line. -/
def withReady (now : Instant) (s : RepoConfigStatus) : RepoConfigStatus :=
  s.set (readyCondition now (s.isTrue webhookRegistered))

/-- Delete the hooks with an id each, whatever becomes of the others. -/
def deleteAll (client : Git.Client) : List Int → Pass Unit
  | [] => return ()
  | id :: rest => do
    let _ ← viaGit client (Git.ask (.deleteWebhook id))
    deleteAll client rest

/-- Delete the hooks of a config. Failures change nothing: they must not keep a config from being
deleted. -/
def deleteHooks (env : Surroundings) (ns : String) (config : RepoConfig) : Pass Unit := do
  match hookUrl env ns config with
  | none => return ()
  | some url =>
    match ← attempt (clientFor env.hasStore config) with
    | .ok (some client) =>
      match ← viaGit client (Git.ask .listWebhooks) with
      | .ok hooks => deleteAll client ((hooks.filter (·.url == url)).map (·.id))
      | .error _ => return ()
    | _ => return ()

/-- The pass over a config that is being deleted. -/
def retireConfig (env : Surroundings) (ns : String) (config : RepoConfig) : Pass Schedule := do
  if config.finalizers.contains configFinalizer then
    deleteHooks env ns config
    askCluster (.patchConfigFinalizers config (config.finalizers.erase configFinalizer))
  return .awaitChange

/-- The pass over a config that carries the finalizer. -/
def maintainConfig (env : Surroundings) (now : Instant) (ns : String) (config : RepoConfig) :
    Pass Schedule := do
  let old := config.status.getD {}
  let (s, schedule) ←
    if old.isTrue webhookRegistered then pure (old, Schedule.awaitChange)
    else do
      let (condition, schedule) ← registerWebhook env now ns config
      pure (old.set condition, schedule)
  let s := withReady now s
  if config.status ≠ some s then askCluster (.patchConfigStatus config s)
  return schedule

/-- A pass over a config. -/
def reconcileConfig (env : Surroundings) (now : Instant) (config : RepoConfig) :
    Pass Schedule := do
  let ns ← (namespaceOf config : Except Error String)
  if config.isDeleting then retireConfig env ns config
  else if config.finalizers.contains configFinalizer then maintainConfig env now ns config
  else
    askCluster (.patchConfigFinalizers config (config.finalizers ++ [configFinalizer]))
    return .awaitChange

end Gatehouse.Control
