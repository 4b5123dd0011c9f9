import Gatehouse.Kdl.Document
import Gatehouse.Net.SocketAddress
import Gatehouse.Text.Utf8

/-!
# Settings

The operator's settings are a KDL document with one node for each setting. Every setting has a
default, the last node of a name counts, and the first node that cannot be read is the error.
-/

namespace Gatehouse

/-- The form of the log. -/
inductive LogFormat where
  | text
  | json
  deriving DecidableEq, Repr

/-- The name of a form. -/
def LogFormat.name : LogFormat → String
  | .text => "text"
  | .json => "json"

/-- The settings of the controller. -/
structure Settings where
  /-- The address that the webhook server binds to. -/
  listen : Net.SocketAddress := .v4 ⟨0, 0, 0, 0⟩ 24335
  /-- The host that providers deliver webhooks to; none are registered without it. -/
  externalHostname : Option String := none
  /-- The only namespace to watch; all of them if there is none. -/
  watched : Option String := none
  maxConcurrentJobs : Nat := 4
  logFormat : LogFormat := .text
  /-- How long to wait after a failed pass. -/
  requeueSeconds : Nat := 30
  deriving DecidableEq

namespace Settings

/-- Why settings cannot be had. -/
inductive Error where
  /-- The text is no KDL document. -/
  | malformed
  /-- The file cannot be read. -/
  | unreadable
  | missing (setting : String)
  | invalid (setting reason : String)
  | unknown (setting : String)
  deriving DecidableEq, Repr

/-- The wording of a failure. -/
def Error.message : Error → String
  | malformed => "KDL parse error: Failed to parse KDL document"
  | unreadable => "IO error: stream did not contain valid UTF-8"
  | missing setting => "missing value for " ++ setting
  | invalid setting reason => "invalid value for " ++ setting ++ ": " ++ reason
  | unknown setting => "unknown setting: " ++ setting

/-- The text that is the first argument of a node. -/
def text (node : Kdl.Node) : Except Error String :=
  match node.argument? >>= Kdl.Value.text? with
  | some s => .ok s
  | none => .error (.missing node.name)

/-- The integer that is the first argument of a node, if it is at least 1 and fits a word. -/
def count (node : Kdl.Node) : Except Error Nat :=
  match node.argument? >>= Kdl.Value.integer? with
  | none => .error (.missing node.name)
  | some n =>
    if n < 1 then .error (.invalid node.name ("must be at least 1, got " ++ toString n))
    else if n < UInt64.size then .ok n.toNat
    else .error (.invalid node.name "number too large to fit in target type")

/-- The address that is the first argument of a node. -/
def address (node : Kdl.Node) : Except Error Net.SocketAddress := do
  let s ← text node
  match Net.SocketAddress.parse? s with
  | some a => .ok a
  | none => .error (.invalid node.name (s ++ ": invalid socket address syntax"))

/-- The form of the log that is the first argument of a node. -/
def format (node : Kdl.Node) : Except Error LogFormat := do
  match ← text node with
  | "text" => .ok .text
  | "json" => .ok .json
  | s => .error (.invalid node.name ("expected \"text\" or \"json\", got \"" ++ s ++ "\""))

/-- Take over the setting of a node. -/
def apply (s : Settings) (node : Kdl.Node) : Except Error Settings :=
  match node.name with
  | "listen" => return { s with listen := ← address node }
  | "external-hostname" => return { s with externalHostname := some (← text node) }
  | "namespace" => return { s with watched := some (← text node) }
  | "max-concurrent-jobs" => return { s with maxConcurrentJobs := ← count node }
  | "log-format" => return { s with logFormat := ← format node }
  | "requeue-seconds" => return { s with requeueSeconds := ← count node }
  | name => .error (.unknown name)

/-- The settings of a document. -/
def ofNodes (nodes : List Kdl.Node) : Except Error Settings := nodes.foldlM apply {}

/-- The settings that a text describes. -/
def parse (s : String) : Except Error Settings :=
  match Kdl.parse? s with
  | some nodes => ofNodes nodes
  | none => .error .malformed

/-- The settings in a file, given its content unless the file is missing. -/
def load (content : Option Bytes) : Except Error Settings :=
  match content with
  | none => .error .unreadable
  | some bytes =>
    match Text.decode bytes with
    | .ok s => parse s
    | .error _ => .error .unreadable

/-- The URL under which webhooks of a repository config are to be delivered. -/
def webhookUrl (s : Settings) (ns name : String) : Option String :=
  s.externalHostname.map fun host => "http://" ++ host ++ "/webhook/" ++ ns ++ "/" ++ name

end Settings

end Gatehouse
