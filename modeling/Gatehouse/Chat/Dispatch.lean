import Gatehouse.Chat.Approval
import Gatehouse.Table

/-!
# Dispatching events

A dispatcher hands every event to each of its plugins, and each command of a new comment to the
handler registered for it. Everything is called, whatever fails; the first failure is the
outcome. The effects of plugins and handlers are those of any monad `m`.
-/

namespace Gatehouse.Chat

open Git

variable {m : Type → Type}

/-- What a call can end with. -/
abbrev Outcome := Except Git.Error Unit

/-- Receives every event. -/
structure Plugin (m : Type → Type) where
  name : String
  handle : Webhook → m Outcome

/-- Receives the commands of new comments, under the names it lists. -/
structure Handler (m : Type → Type) where
  commands : List String
  handle : Command → Webhook → m Outcome

/-- Plugins in the order of their registration, and handlers by command. -/
structure Dispatcher (m : Type → Type) where
  plugins : List (Plugin m) := []
  handlers : Table String (Handler m) := ∅

namespace Dispatcher

/-- Register a plugin. -/
def registerPlugin (d : Dispatcher m) (p : Plugin m) : Dispatcher m :=
  { d with plugins := d.plugins ++ [p] }

/-- Register a handler under each of its commands, in place of an earlier one. -/
def registerHandler (d : Dispatcher m) (h : Handler m) : Dispatcher m :=
  { d with handlers := h.commands.foldl (fun t name => t.insert name h) d.handlers }

/-- The commands of an event: those of a new comment. -/
def commandsOf (w : Webhook) : List Command :=
  if w.eventType = .commentCreated then
    match w.comment with
    | some c => extractCommands c.body
    | none => []
  else []

/-- The calls that an event leads to, in order. -/
def calls (d : Dispatcher m) (w : Webhook) : List (m Outcome) :=
  d.plugins.map (·.handle w) ++
    (commandsOf w).filterMap fun c => (d.handlers.get? c.name).map fun h => h.handle c w

/-- Make all calls; the outcome is the first failure, if there is one. -/
def runAll [Monad m] : List (m Outcome) → m Outcome
  | [] => pure (.ok ())
  | call :: rest => do
    let first ← call
    let later ← runAll rest
    return match first with
      | .error e => .error e
      | .ok () => later

/-- Handle an event. -/
def dispatch [Monad m] (d : Dispatcher m) (w : Webhook) : m Outcome := runAll (d.calls w)

end Dispatcher

/-- The operations of a git provider as effects of plugins. -/
abbrev GitEffect : Type → Type := Program Git.Query Git.Query.Outcome

/-- The plugin for approval. -/
def Approval.plugin (repository : String) : Plugin GitEffect :=
  ⟨"approve", fun w => (Approval.handle repository w).run⟩

/-- The handler of the commands about approval. -/
def Approval.handler (repository : String) : Handler GitEffect :=
  ⟨approveCommands, fun c w => (Approval.handleCommand repository c w).run⟩

/-- The dispatcher with the built-in plugin and handler. -/
def defaultDispatcher (repository : String) : Dispatcher GitEffect :=
  (({} : Dispatcher GitEffect).registerPlugin (Approval.plugin repository)).registerHandler
    (Approval.handler repository)

end Gatehouse.Chat
