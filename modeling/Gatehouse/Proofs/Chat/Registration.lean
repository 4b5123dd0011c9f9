import Mathlib.Data.List.Induction
import Gatehouse.Chat.Dispatch

/-!
# Registered participants

A dispatcher is made by registering plugins and handlers one after the other. Which calls are due to
an event can be told from the list of registrations alone (`dueCalls`). Main statement
(`dispatch_registered`): dispatching makes these calls, each once and in this order, whatever they
end with, and ends with the first failure among their outcomes. Plugins and handlers may have any
effects; `Registration.noted` adds a note of every call to them, which makes the calls visible.
-/

namespace Gatehouse.Chat

open Git

variable {m : Type → Type}

/-- One step in the making of a dispatcher. -/
inductive Registration (m : Type → Type) where
  | plugin (p : Plugin m)
  | handler (h : Handler m)

/-- Register a plugin or a handler. -/
def Dispatcher.register (d : Dispatcher m) : Registration m → Dispatcher m
  | .plugin p => d.registerPlugin p
  | .handler h => d.registerHandler h

/-- The dispatcher that a sequence of registrations makes of the empty one. -/
def Dispatcher.registered (rs : List (Registration m)) : Dispatcher m := rs.foldl register {}

/-! What is due. -/

/-- A call of a participant. -/
inductive Call (m : Type → Type) where
  | plugin (p : Plugin m)
  | command (h : Handler m) (c : Command)

/-- Make a call for an event. -/
def Call.make (w : Webhook) : Call m → m Outcome
  | .plugin p => p.handle w
  | .command h c => h.handle c w

def Registration.plugin? : Registration m → Option (Plugin m)
  | .plugin p => some p
  | .handler _ => none

/-- The handler that a registration brings for a command. -/
def Registration.handlerFor? (name : String) : Registration m → Option (Handler m)
  | .plugin _ => none
  | .handler h => if name ∈ h.commands then some h else none

/-- The handler that was registered last for a command. -/
def lastHandler? (rs : List (Registration m)) (name : String) : Option (Handler m) :=
  rs.reverse.findSome? (·.handlerFor? name)

/-- The commands that an event brings: those of a new comment, as they stand in its text. -/
def newCommands (w : Webhook) : List Command :=
  match w.eventType, w.comment with
  | .commentCreated, some c => extractCommands c.body
  | _, _ => []

/-- The calls that are due to an event: one of each plugin, and then one for each command that a
handler was registered for. -/
def dueCalls (rs : List (Registration m)) (w : Webhook) : List (Call m) :=
  (rs.filterMap Registration.plugin?).map .plugin ++
    (newCommands w).filterMap fun c => (lastHandler? rs c.name).map (.command · c)

/-- The first failure among outcomes, if there is one. -/
def firstFailure (outcomes : List Outcome) : Outcome :=
  (outcomes.find? (!·.isOk)).getD (.ok ())

/-- Effects that come with notes of the calls that were made. -/
abbrev Noted (m : Type → Type) : Type → Type := StateT (List (Call m)) m

section Noting

variable [Monad m]

/-- Do what a call does, and note the call. -/
def noting (call : Call m) (work : m Outcome) : Noted m Outcome := fun made => do
  let outcome ← work
  return (outcome, made ++ [call])

def Plugin.noted (p : Plugin m) : Plugin (Noted m) :=
  ⟨p.name, fun w => noting (.plugin p) (p.handle w)⟩

def Handler.noted (h : Handler m) : Handler (Noted m) :=
  ⟨h.commands, fun c w => noting (.command h c) (h.handle c w)⟩

/-- The same participant, but all its calls are noted. -/
def Registration.noted : Registration m → Registration (Noted m)
  | .plugin p => .plugin p.noted
  | .handler h => .handler h.noted

def Call.noted : Call m → Call (Noted m)
  | .plugin p => .plugin p.noted
  | .command h c => .command h.noted c

end Noting

variable {rs : List (Registration m)} {w : Webhook} {name : String}

/-! Registration. -/

theorem registered_append (rs : List (Registration m)) (r : Registration m) :
    Dispatcher.registered (rs ++ [r]) = (Dispatcher.registered rs).register r := by
  rw [Dispatcher.registered, List.foldl_append]
  rfl

theorem plugins_registered (rs : List (Registration m)) :
    (Dispatcher.registered rs).plugins = rs.filterMap Registration.plugin? := by
  induction rs using List.reverseRecOn with
  | nil => rfl
  | append_singleton rs r ih =>
    rw [registered_append, List.filterMap_append, ← ih]
    cases r with
    | plugin p => rfl
    | handler h => exact (List.append_nil _).symm

/-- A handler takes the place of all earlier ones under its own commands. -/
theorem get?_insertAll (h : Handler m) (commands : List String) (t : Table String (Handler m)) :
    (commands.foldl (fun t name => t.insert name h) t).get? name =
      if name ∈ commands then some h else t.get? name := by
  induction commands generalizing t with
  | nil => simp
  | cons first commands ih =>
    rw [List.foldl_cons, ih, Table.get?_insert]
    by_cases later : name ∈ commands
    · simp [later]
    · simp [later]

theorem lastHandler?_append (rs : List (Registration m)) (r : Registration m) :
    lastHandler? (rs ++ [r]) name = (r.handlerFor? name <|> lastHandler? rs name) := by
  rw [lastHandler?, List.reverse_append, List.reverse_singleton, List.singleton_append,
    List.findSome?_cons]
  cases r.handlerFor? name <;> rfl

theorem handlers_registered (rs : List (Registration m)) (name : String) :
    (Dispatcher.registered rs).handlers.get? name = lastHandler? rs name := by
  induction rs using List.reverseRecOn with
  | nil => rfl
  | append_singleton rs r ih =>
    rw [registered_append, lastHandler?_append, ← ih]
    cases r with
    | plugin p => rfl
    | handler h =>
      refine (get?_insertAll h h.commands _).trans ?_
      rw [Registration.handlerFor?]
      split
      · rfl
      · rfl

theorem commandsOf_eq_newCommands (w : Webhook) : Dispatcher.commandsOf w = newCommands w := by
  unfold Dispatcher.commandsOf newCommands
  cases w.eventType <;> cases w.comment <;> rfl

theorem calls_registered (rs : List (Registration m)) (w : Webhook) :
    (Dispatcher.registered rs).calls w = (dueCalls rs w).map (Call.make w) := by
  have command (c : Command) :
      ((Dispatcher.registered rs).handlers.get? c.name).map (fun h => h.handle c w) =
        ((lastHandler? rs c.name).map (Call.command · c)).map (Call.make w) := by
    rw [handlers_registered, Option.map_map]
    rfl
  unfold Dispatcher.calls dueCalls
  rw [plugins_registered, commandsOf_eq_newCommands, funext command, List.map_append, List.map_map]
  exact congrArg _ List.map_filterMap.symm

/-! Notes. -/

section Notes

variable [Monad m]

theorem lastHandler?_noted (rs : List (Registration m)) :
    lastHandler? (rs.map Registration.noted) name = (lastHandler? rs name).map Handler.noted := by
  induction rs using List.reverseRecOn with
  | nil => rfl
  | append_singleton rs r ih =>
    rw [List.map_append, List.map_singleton, lastHandler?_append, lastHandler?_append, ih]
    cases r with
    | plugin p => simp [Registration.noted, Registration.handlerFor?]
    | handler h =>
      simp only [Registration.noted, Registration.handlerFor?, Handler.noted]
      split <;> rfl

theorem dueCalls_noted (rs : List (Registration m)) (w : Webhook) :
    dueCalls (rs.map Registration.noted) w = (dueCalls rs w).map Call.noted := by
  have plugins : (rs.map Registration.noted).filterMap Registration.plugin? =
      (rs.filterMap Registration.plugin?).map Plugin.noted := by
    rw [List.filterMap_map, List.map_filterMap]
    congr 1
    funext r
    cases r <;> rfl
  have command (c : Command) :
      (lastHandler? (rs.map Registration.noted) c.name).map (Call.command · c) =
        ((lastHandler? rs c.name).map (Call.command · c)).map Call.noted := by
    rw [lastHandler?_noted, Option.map_map, Option.map_map]
    rfl
  unfold dueCalls
  rw [plugins, funext command, List.map_append, List.map_map, List.map_map]
  exact congrArg _ List.map_filterMap.symm

end Notes

/-! Outcomes. -/

section Outcomes

variable [Monad m] [LawfulMonad m]

/-- All calls are made, whatever the earlier ones end with. -/
theorem runAll_eq (calls : List (Call m)) (w : Webhook) :
    Dispatcher.runAll (calls.map (Call.make w)) = (do
      let outcomes ← calls.mapM (Call.make w)
      return firstFailure outcomes) := by
  induction calls with
  | nil => simp [Dispatcher.runAll, firstFailure]
  | cons call calls ih =>
    rw [List.map_cons, Dispatcher.runAll, ih, List.mapM_cons]
    simp only [bind_assoc, pure_bind]
    refine bind_congr fun first => bind_congr fun later => ?_
    cases first with
    | error e => simp [firstFailure, Except.isOk, Except.toBool]
    | ok _ => simp [firstFailure, Except.isOk, Except.toBool]

/-- Each call that is made leaves its note after those of the earlier ones. -/
theorem mapM_noted (calls : List (Call m)) (w : Webhook) (made : List (Call m)) :
    ((calls.map Call.noted).mapM (Call.make w)).run made = (do
      let outcomes ← calls.mapM (Call.make w)
      return (outcomes, made ++ calls)) := by
  have call_noted (call : Call m) : call.noted.make w = noting call (call.make w) := by
    cases call <;> rfl
  induction calls generalizing made with
  | nil => simp
  | cons call calls ih =>
    rw [List.map_cons, List.mapM_cons, List.mapM_cons, call_noted]
    simp only [StateT.run_bind, StateT.run_pure, ih, bind_assoc, pure_bind]
    simp [noting, StateT.run]

end Outcomes

/-- Dispatching an event makes the calls that are due to it, each once and in their order, whatever
they end with; the outcome is the first failure among theirs. -/
theorem dispatch_registered [Monad m] [LawfulMonad m] (rs : List (Registration m)) (w : Webhook) :
    (Dispatcher.registered rs).dispatch w = (do
      let outcomes ← (dueCalls rs w).mapM (Call.make w)
      return firstFailure outcomes) ∧
    ((Dispatcher.registered (rs.map Registration.noted)).dispatch w).run [] = (do
      let outcome ← (Dispatcher.registered rs).dispatch w
      return (outcome, dueCalls rs w)) := by
  have outcome_eq : (Dispatcher.registered rs).dispatch w = (do
      let outcomes ← (dueCalls rs w).mapM (Call.make w)
      return firstFailure outcomes) := by
    rw [Dispatcher.dispatch, calls_registered, runAll_eq]
  refine ⟨outcome_eq, ?_⟩
  rw [outcome_eq, Dispatcher.dispatch, calls_registered, runAll_eq, dueCalls_noted,
    StateT.run_bind, mapM_noted]
  simp

/-- Say something and end. -/
def speak (line : String) (outcome : Outcome) : StateM (List String) Outcome := fun said =>
  (outcome, said ++ [line])

def auditor : Plugin (StateM (List String)) :=
  ⟨"audit", fun _ => speak "audit" (.error (.request "no auditor"))⟩

def mailer : Plugin (StateM (List String)) := ⟨"mail", fun _ => speak "mail" (.ok ())⟩

def builder : Handler (StateM (List String)) :=
  ⟨["build", "test"], fun _ _ => speak "build" (.error (.request "no builder"))⟩

def tester : Handler (StateM (List String)) :=
  ⟨["test"], fun _ _ => speak "test" (.error (.request "no tester"))⟩

/-- Two plugins, the first of which fails, and two handlers, the second of which takes over one of
the first's two commands. -/
def bench : List (Registration (StateM (List String))) :=
  [.handler builder, .plugin auditor, .handler tester, .plugin mailer]

def benchRemark : Webhook where
  eventType := .commentCreated
  repo := ⟨"org/repo", ""⟩
  sender := ⟨2, "bob", none⟩
  comment := some ⟨1, "/build\n/none\n/test\n/build", ⟨2, "bob", none⟩, default, none, none⟩

theorem dispatch_registered_bench :
    ((Dispatcher.registered bench).dispatch benchRemark).run [] =
      (.error (.request "no auditor"), ["audit", "mail", "build", "test", "build"]) := by
  have plugins : bench.filterMap Registration.plugin? = [auditor, mailer] := rfl
  have commands : newCommands benchRemark =
      [⟨"build", []⟩, ⟨"none", []⟩, ⟨"test", []⟩, ⟨"build", []⟩] := by
    decide
  have found : lastHandler? bench "build" = some builder ∧ lastHandler? bench "none" = none ∧
      lastHandler? bench "test" = some tester := by
    simp [lastHandler?, bench, Registration.handlerFor?, builder, tester]
  have due : dueCalls bench benchRemark =
      [.plugin auditor, .plugin mailer, .command builder ⟨"build", []⟩,
        .command tester ⟨"test", []⟩, .command builder ⟨"build", []⟩] := by
    rw [dueCalls, plugins, commands]
    simp [found]
  rw [(dispatch_registered bench benchRemark).1, due]
  rfl

end Gatehouse.Chat
