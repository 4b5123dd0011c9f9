import Gatehouse.Proofs.Resource.Conditions
import Gatehouse.Proofs.Text.Distinct

/-!
# What conditions tell of their past

Conditions that are set in an empty status, one call after the other, leave one condition for each type,
in the order in which the types came up (`map_type_afterCalls`). Of the calls for a type it tells of the last
ones only, as many as had the same status without a break (`Past`): it dates from the first of them and
says what the last one says (`condition_history`).
-/

namespace Gatehouse.Resource.RepoConfigStatus

variable {calls earlier later : List Condition} {c old first : Condition} {t : String}

/-- What calls make of an empty status. -/
def afterCalls (calls : List Condition) : RepoConfigStatus := calls.foldl set {}

theorem afterCalls_concat (calls : List Condition) (c : Condition) :
    afterCalls (calls ++ [c]) = (afterCalls calls).set c := by
  rw [afterCalls, List.foldl_append, List.foldl_cons, List.foldl_nil, afterCalls]

/-! The types of conditions. -/

theorem map_type_setIn (c : Condition) (cs : List Condition) :
    (setIn c cs).map Condition.type =
      if c.type ∈ cs.map Condition.type then cs.map Condition.type
      else cs.map Condition.type ++ [c.type] := by
  induction cs with
  | nil => rfl
  | cons old rest ih =>
    have replaced := (replacing_agrees old c).type
    by_cases here : old.type = c.type
    · rw [setIn, if_pos here, List.map_cons, replaced, List.map_cons, here,
        if_pos List.mem_cons_self]
    · have elsewhere : c.type ∈ (old :: rest).map Condition.type ↔
          c.type ∈ rest.map Condition.type := by
        simp [Ne.symm here]
      rw [setIn, if_neg here, List.map_cons, ih, if_congr elsewhere rfl rfl]
      split <;> rfl

theorem map_type_afterCalls (calls : List Condition) :
    (afterCalls calls).conditions.map Condition.type =
      (calls.map Condition.type).eraseDups := by
  induction calls using List.reverseRecOn with
  | nil => rfl
  | append_singleton calls c ih =>
    rw [afterCalls_concat, set, map_type_setIn, ih, List.map_append, List.map_singleton,
      eraseDups_concat]

/-! What a condition tells. -/

/-- The calls for a type. -/
def callsFor (t : String) (calls : List Condition) : List Condition :=
  calls.filter (·.type = t)

theorem callsFor_concat (same : c.type = t) (calls : List Condition) :
    callsFor t (calls ++ [c]) = callsFor t calls ++ [c] := by
  simp [callsFor, same]

theorem callsFor_other (other : c.type ≠ t) (calls : List Condition) :
    callsFor t (calls ++ [c]) = callsFor t calls := by
  simp [callsFor, other]

/-- The calls for the type of a condition are earlier ones and then an unbroken run of calls with its
status, and the condition is what that run leaves. -/
structure Past (calls : List Condition) (c : Condition) (earlier : List Condition)
    (first : Condition) (later : List Condition) : Prop where
  calls : callsFor c.type calls = earlier ++ first :: later
  unbroken : ∀ d ∈ first :: later, d.status = c.status
  changed : ∀ d ∈ earlier.getLast?, d.status ≠ c.status
  since : c.lastTransitionTime = first.lastTransitionTime
  words : ((first :: later).getLast (List.cons_ne_nil first later)).Agrees c

namespace Past

theorem start (new : callsFor c.type calls = []) : Past (calls ++ [c]) c [] c [] where
  calls := by rw [callsFor_concat rfl, new]
  unbroken := by simp
  changed := nofun
  since := rfl
  words := .refl c

theorem other (past : Past calls old earlier first later) (other : c.type ≠ old.type) :
    Past (calls ++ [c]) old earlier first later :=
  { past with calls := (callsFor_other other calls).trans past.calls }

/-- A call with the same status goes on with the run. -/
theorem goOn (past : Past calls old earlier first later) (same : c.type = old.type)
    (kept : old.status = c.status) :
    Past (calls ++ [c]) (replacing old c) earlier first (later ++ [c]) := by
  have agrees := replacing_agrees old c
  have status : (replacing old c).status = old.status := agrees.status.trans kept.symm
  refine ⟨?_, ?_, ?_, ?_, ?_⟩
  · rw [agrees.type, callsFor_concat rfl, same, past.calls, List.append_assoc, List.cons_append]
  · rw [status, ← List.cons_append]
    exact List.forall_mem_append.mpr ⟨past.unbroken, by simp [kept]⟩
  · rw [status]
    exact past.changed
  · rw [replacing, if_pos kept]
    exact past.since
  · simpa using agrees.symm

/-- A call with another status starts a run of its own. -/
theorem turn (past : Past calls old earlier first later) (same : c.type = old.type)
    (changed : old.status ≠ c.status) :
    Past (calls ++ [c]) (replacing old c) (earlier ++ first :: later) c [] := by
  have replaced : replacing old c = c := if_neg changed
  rw [replaced]
  refine ⟨?_, by simp, ?_, rfl, .refl c⟩
  · rw [callsFor_concat rfl, same, past.calls]
  · intro d last
    rw [List.getLast?_append_cons] at last
    have member := List.mem_of_getLast? last
    rw [past.unbroken d member]
    exact changed

end Past

/-- A condition of a status tells of the calls for its type, and where there is none, there were no calls.
-/
theorem condition?_afterCalls (calls : List Condition) (t : String) :
    ((afterCalls calls).condition? t = none → callsFor t calls = []) ∧
    ∀ c, (afterCalls calls).condition? t = some c →
      c.type = t ∧ ∃ earlier first later, Past calls c earlier first later := by
  induction calls using List.reverseRecOn with
  | nil => exact ⟨fun _ => rfl, nofun⟩
  | append_singleton calls new ih =>
    obtain ⟨absent, present⟩ := ih
    rw [afterCalls_concat, condition?_set]
    by_cases asked : t = new.type
    · rw [if_pos asked]
      refine ⟨nofun, ?_⟩
      rintro _ ⟨⟩
      have type := ((afterCalls calls).placed_agrees new).type
      refine ⟨type.trans asked.symm, ?_⟩
      unfold placed
      subst asked
      cases found : (afterCalls calls).condition? new.type with
      | none => exact ⟨[], new, [], .start (absent found)⟩
      | some old =>
        obtain ⟨same, earlier, first, later, past⟩ := present old found
        by_cases kept : old.status = new.status
        · exact ⟨_, _, _, past.goOn same.symm kept⟩
        · exact ⟨_, _, _, past.turn same.symm kept⟩
    · rw [if_neg asked, callsFor_other (Ne.symm asked)]
      refine ⟨absent, fun c found => ?_⟩
      obtain ⟨rfl, earlier, first, later, past⟩ := present c found
      exact ⟨rfl, earlier, first, later, past.other (Ne.symm asked)⟩

/-- Where no two conditions have one type, each of them is the one of its type. -/
theorem condition?_of_mem {s : RepoConfigStatus}
    (distinct : (s.conditions.map Condition.type).Nodup) (member : c ∈ s.conditions) :
    s.condition? c.type = some c := by
  obtain ⟨conditions⟩ := s
  rw [condition?]
  induction conditions with
  | nil => cases member
  | cons old rest ih =>
    obtain ⟨new, distinct⟩ := List.nodup_cons.mp distinct
    rcases List.mem_cons.mp member with rfl | member
    · exact List.find?_cons_of_pos (beq_self_eq_true _)
    · have other : old.type ≠ c.type := fun same =>
        new (same ▸ List.mem_map_of_mem member)
      rw [List.find?_cons_of_neg (by simpa using other)]
      exact ih distinct member

/-- Whatever is set in an empty status, afterwards there is one condition for each type that was set, in
the order in which the types were set first. It says what the last call for its type says, since the
first of the last calls for it that had this status without a break. -/
theorem condition_history (calls : List Condition) :
    let s := afterCalls calls
    s.conditions.map Condition.type = (calls.map Condition.type).eraseDups ∧
    (s.conditions.map Condition.type).Nodup ∧
    ∀ c ∈ s.conditions, s.condition? c.type = some c ∧
      ∃ earlier first later, Past calls c earlier first later := by
  intro s
  have types := map_type_afterCalls calls
  have distinct : (s.conditions.map Condition.type).Nodup := types ▸ nodup_eraseDups _
  refine ⟨types, distinct, fun c member => ?_⟩
  have found := condition?_of_mem distinct member
  exact ⟨found, ((condition?_afterCalls calls c.type).2 c found).2⟩

/-- A condition that is set at a second of the epoch. -/
def turned (type : String) (status : ConditionStatus) (message : String) (second : Int) :
    Condition :=
  { type, status, message, lastTransitionTime := some (.ofEpochSeconds second) }

/-- `Ready` is lost and regained, while the webhook stays registered. -/
def turns : List Condition :=
  [turned ready .holds "a" 1, turned webhookRegistered .holds "b" 2, turned ready .fails "c" 3,
    turned webhookRegistered .holds "d" 4, turned ready .holds "e" 5, turned ready .holds "f" 6]

theorem condition_history_interleaved :
    (afterCalls turns).conditions =
      [turned ready .holds "f" 5, turned webhookRegistered .holds "d" 2] ∧
    turned ready .holds "f" 5 ∈ (afterCalls turns).conditions ∧
    ∃ earlier first later, Past turns (turned ready .holds "f" 5) earlier first later := by
  have left : (afterCalls turns).conditions =
      [turned ready .holds "f" 5, turned webhookRegistered .holds "d" 2] := by decide
  have member : turned ready .holds "f" 5 ∈ (afterCalls turns).conditions := by
    rw [left]
    exact List.mem_cons_self
  exact ⟨left, member, ((condition_history turns).2.2 _ member).2⟩

end Gatehouse.Resource.RepoConfigStatus
