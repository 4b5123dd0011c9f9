import Gatehouse.Chat.Dispatch
import Gatehouse.Git.Codec
import Gatehouse.Text.Quoted

/-!
# Recorded calls

Participants of a dispatcher that note every call they get, and fail on demand. They stand beside
those that do real work, so that a note tells who was called, with what, and in which order.
-/

namespace Gatehouse.Chat

open Git

/-- Operations of a git provider, and notes. -/
abbrev Noting : Type → Type := StateT (List String) GitEffect

/-- A participant that notes its calls. -/
structure Recorder where
  name : String
  /-- The commands it handles. -/
  commands : List String
  /-- The failure that each of its calls ends with, if any. -/
  failure : Option String

namespace Recorder

/-- How each call ends. -/
def outcome (r : Recorder) : Outcome :=
  match r.failure with
  | some message => .error (.request message)
  | none => .ok ()

/-- Note a call and end it. -/
def note (r : Recorder) (call : String) : Noting Outcome := do
  modify (· ++ [r.name ++ ": " ++ call])
  return r.outcome

/-- The participant as a plugin. -/
def plugin (r : Recorder) : Plugin Noting :=
  ⟨r.name, fun w => r.note ("webhook " ++ w.eventType.name)⟩

/-- The participant as a handler of commands. -/
def handler (r : Recorder) : Handler Noting :=
  ⟨r.commands, fun c _ => r.note ("command " ++ c.name ++ " " ++ Text.quotedList c.args)⟩

end Recorder

/-- Who can be registered: the built-in plugin and handler for approval, or a recorder. -/
inductive Participant where
  | approval
  | recorder (r : Recorder)

/-- The plugin of a participant. -/
def Participant.plugin (repository : String) : Participant → Plugin Noting
  | .approval =>
    let p := Approval.plugin repository
    ⟨p.name, fun w => liftM (p.handle w)⟩
  | .recorder r => r.plugin

/-- The handler of a participant. -/
def Participant.handler (repository : String) : Participant → Handler Noting
  | .approval =>
    let h := Approval.handler repository
    ⟨h.commands, fun c w => liftM (h.handle c w)⟩
  | .recorder r => r.handler

/-- A dispatcher with the given participants, registered in order. -/
def dispatcherOf (repository : String) (plugins handlers : List Participant) :
    Dispatcher Noting :=
  let d := plugins.foldl (fun d p => d.registerPlugin (p.plugin repository)) {}
  handlers.foldl (fun d p => d.registerHandler (p.handler repository)) d

end Gatehouse.Chat
