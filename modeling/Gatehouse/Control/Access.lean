import Gatehouse.Control.Query

/-!
# Access to repositories

The git client that a config describes, made with the secrets that it refers to. A config without a
readable token has no client; a webhook secret that cannot be read is an error, so that no
client takes unauthenticated webhooks by mistake.
-/

namespace Gatehouse.Control

open Resource

/-- Read a key of a secret, if there is one. -/
def readSecret (ns : String) (s : SecretKey) : Pass (Option String) :=
  askCluster (.readSecret ns s.name s.key)

/-- Read the secret that authenticates the webhooks of a config, if the config refers to one. -/
def webhookSecret (ns : String) (config : RepoConfig) : Pass (Option String) :=
  match config.spec.webhookSecret with
  | none => return none
  | some s => do
    match ← readSecret ns s with
    | some secret => return some secret
    | none => throw (.missingSecret (keyOf ns s.name ++ " key " ++ s.key))

/-- Make a client, failing as the git provider does. -/
def connect (settings : Git.ClientSettings) : Except Error Git.Client :=
  match settings.connect with
  | .ok client => .ok client
  | .error e => .error (.git e)

/-- The client for a config, or nothing if it has no readable token. `hasStore` tells whether there is
a git provider in memory. -/
def clientFor (hasStore : Bool) (config : RepoConfig) : Pass (Option Git.Client) := do
  let ns ← (namespaceOf config : Except Error String)
  match config.spec.git.token with
  | none => return none
  | some key =>
    match ← readSecret ns key with
    | none => return none
    | some token =>
      let secret ← webhookSecret ns config
      let client ← (connect {
        provider := config.spec.git.provider
        repository := config.spec.git.repository
        apiUrl := config.spec.git.apiUrl
        token := some token
        webhookSecret := secret
        hasStore } : Except Error Git.Client)
      return some client

end Gatehouse.Control
