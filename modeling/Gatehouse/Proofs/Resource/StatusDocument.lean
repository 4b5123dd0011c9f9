import Gatehouse.Cluster.Api
import Gatehouse.Proofs.Json.Faithful

/-!
# Statuses as documents

A status is stored by a merge patch, which takes the place of the fields that it has and leaves
alone the others. An absent time is left out of the patch, so a merge never clears a time: what is
stored is the status itself exactly as long as no time is taken back. A list of conditions is
replaced as a whole.
-/

namespace Gatehouse

open Json

/-- All these times are in the years that a time may have. -/
def Instant.InRange (times : List Instant) : Prop := ∀ t ∈ times, t.date.inRange = true

theorem Instant.inRange_append {a b : Option Instant} :
    InRange (a.toList ++ b.toList) ↔
      (∀ t ∈ a, t.date.inRange = true) ∧ ∀ t ∈ b, t.date.inRange = true := by
  simp [InRange, or_imp, forall_and]

namespace Resource

variable {d v status : Json} {members : List (String × Json)} {time : Option Instant} {f : Fields}
  {name : String}

/-! Optional times. -/

theorem read_time (inRange : ∀ t ∈ time, t.date.inRange = true) :
    nullable? Instant.ofJson? (option Instant.toJson time) = some time :=
  ((faithful_time true).option time_ne_null).back time inRange

/-! The status of a job. -/

theorem JobState.ofJson?_toJson (s : JobState) : ofJson? s.toJson = some s := by
  cases s <;> rfl

namespace PipelineJobStatus

variable {s : PipelineJobStatus} {o : Option PipelineJobStatus}

/-- The times that a status tells. -/
def times (s : PipelineJobStatus) : List Instant := s.startTime.toList ++ s.completionTime.toList

/-- A later status takes back no time. -/
structure KeepsTimes (s later : PipelineJobStatus) : Prop where
  start : later.startTime = none → s.startTime = none
  completion : later.completionTime = none → s.completionTime = none

/-- The fields that a status may have. -/
def fields : List String := ["state", "message", "startTime", "completionTime"]

/-- The fields of a status that is read. -/
theorem of_ofJson? (read : ofJson? v = some s) :
    ∃ f, fields? fields v = some f ∧ f.optional "startTime" Instant.ofJson? = some s.startTime ∧
      f.optional "completionTime" Instant.ofJson? = some s.completionTime := by
  obtain ⟨f, given, read⟩ := Option.bind_eq_some_iff.mp read
  obtain ⟨state, -, read⟩ := Option.bind_eq_some_iff.mp read
  obtain ⟨message, -, read⟩ := Option.bind_eq_some_iff.mp read
  obtain ⟨start, started, read⟩ := Option.bind_eq_some_iff.mp read
  obtain ⟨completion, completed, same⟩ := Option.bind_eq_some_iff.mp read
  obtain rfl := Option.some.inj same
  exact ⟨f, given, started, completed⟩

theorem inRange_of_ofJson? (read : ofJson? v = some s) : Instant.InRange s.times := by
  obtain ⟨f, -, started, completed⟩ := of_ofJson? read
  exact Instant.inRange_append.mpr
    ⟨(faithful_time true).of_optional started, (faithful_time true).of_optional completed⟩

theorem ofJson?_obj (once : Once fields members)
    (state : member "state" (.obj members) = s.state.toJson)
    (message : member "message" (.obj members) = .str s.message)
    (start : nullable? Instant.ofJson? (member "startTime" (.obj members)) = some s.startTime)
    (completion :
      nullable? Instant.ofJson? (member "completionTime" (.obj members)) = some s.completionTime) :
    ofJson? (.obj members) = some s := by
  have given := fields?_obj.mpr ⟨once, rfl⟩
  rw [JobState.toJson] at state
  unfold ofJson?
  change (fields? fields (.obj members)).bind _ = some s
  rw [given, Option.bind_some, withDefault_obj given (by decide) state nofun,
    withDefault_obj given (by decide) message nofun, optional_obj given (by decide),
    optional_obj given (by decide), start, completion, ← JobState.toJson, JobState.ofJson?_toJson]
  rfl

/-- The members that are written of a status. -/
def entries (s : PipelineJobStatus) : List (String × Json) :=
  [("state", s.state.toJson), ("message", .str s.message)] ++
    member? "startTime" Instant.toJson s.startTime ++
    member? "completionTime" Instant.toJson s.completionTime

theorem entries_distinct (s : PipelineJobStatus) : (s.entries.map Prod.fst).Nodup := by
  unfold entries
  cases s.startTime <;> cases s.completionTime <;> simp [member?]

/-- What is stored has each field once, and nothing for a time that it does not tell. -/
theorem of_stored (stored : nullable? ofJson? d = some o) :
    Once fields (membersOf d) ∧
    ((o.getD {}).startTime = none → member "startTime" d = .null) ∧
    ((o.getD {}).completionTime = none → member "completionTime" d = .null) := by
  cases d with
  | obj members =>
    obtain ⟨old, read, rfl⟩ := Option.map_eq_some_iff.mp stored
    obtain ⟨f, given, start, completion⟩ := of_ofJson? read
    rw [optional_obj given (by decide)] at start completion
    refine ⟨(fields?_obj.mp given).1, fun unset => ?_, fun unset => ?_⟩
    · have unset : old.startTime = none := unset
      exact nullable?_eq_none.mp (start.trans (congrArg some unset))
    · have unset : old.completionTime = none := unset
      exact nullable?_eq_none.mp (completion.trans (congrArg some unset))
  | _ => exact ⟨List.nodup_nil, fun _ => rfl, fun _ => rfl⟩

/-- A time that is not taken back is read as it was written. -/
theorem merged_time (given : s.entries.lookup name = time.map Instant.toJson)
    (missing : time = none → member name d = .null)
    (inRange : ∀ t ∈ time, t.date.inRange = true) :
    nullable? Instant.ofJson? (member name (mergePatch d (.obj s.entries))) = some time := by
  have whole (t : Instant) : Whole t.toJson := whole_str _
  rw [member_mergePatch_option s.entries_distinct given whole missing]
  exact read_time inRange

/-- What is stored of a status that takes back no time. -/
theorem ofJson?_merged (stored : nullable? ofJson? d = some o) (kept : KeepsTimes (o.getD {}) s)
    (inRange : Instant.InRange s.times) : ofJson? (mergePatch d s.toJson) = some s := by
  have distinct := s.entries_distinct
  obtain ⟨startIn, completionIn⟩ := Instant.inRange_append.mp inRange
  obtain ⟨once, startMissing, completionMissing⟩ := of_stored stored
  have state : member "state" (mergePatch d (.obj s.entries)) = s.state.toJson :=
    member_mergePatch_whole distinct rfl (whole_str _)
  have message : member "message" (mergePatch d (.obj s.entries)) = .str s.message :=
    member_mergePatch_whole distinct rfl (whole_str _)
  have start : s.entries.lookup "startTime" = s.startTime.map Instant.toJson := by
    simp [entries, List.lookup_append, List.lookup_cons, lookup_member?_self, lookup_member?_of_ne]
  have completion : s.entries.lookup "completionTime" = s.completionTime.map Instant.toJson := by
    simp [entries, List.lookup_append, List.lookup_cons, lookup_member?_self, lookup_member?_of_ne]
  have start := merged_time start (fun unset => startMissing (kept.start unset)) startIn
  have completion :=
    merged_time completion (fun unset => completionMissing (kept.completion unset)) completionIn
  change ofJson? (mergePatch d (.obj s.entries)) = some s
  rw [mergePatch] at state message start completion ⊢
  exact ofJson?_obj (once.mergeMembers _) state message start completion

end PipelineJobStatus

/-! The status of a config. -/

theorem ConditionStatus.ofJson?_toJson (s : ConditionStatus) : ofJson? s.toJson = some s := by
  cases s <;> rfl

namespace Condition

variable {c : Condition}

/-- The fields that a condition may have. -/
def fields : List String := ["type", "status", "reason", "message", "lastTransitionTime"]

/-- The members that are written of a condition. -/
def entries (c : Condition) : List (String × Json) :=
  [("type", .str c.type), ("status", c.status.toJson), ("reason", .str c.reason),
    ("message", .str c.message)] ++
    member? "lastTransitionTime" Instant.toJson c.lastTransitionTime

theorem once_entries (c : Condition) : Once fields c.entries := by
  unfold entries
  cases c.lastTransitionTime <;> simp [Once, fields, member?]

theorem time_entries (c : Condition) :
    member "lastTransitionTime" (.obj c.entries) = option Instant.toJson c.lastTransitionTime := by
  rw [member, membersOf, entries, List.lookup_append, lookup_member?_self]
  cases c.lastTransitionTime <;> rfl

theorem ofJson?_toJson (inRange : ∀ t ∈ c.lastTransitionTime, t.date.inRange = true) :
    ofJson? c.toJson = some c := by
  have given := fields?_obj.mpr ⟨c.once_entries, rfl⟩
  have type : c.entries.lookup "type" = some (.str c.type) := rfl
  have status : c.entries.lookup "status" = some c.status.toJson := rfl
  have reason : member "reason" (.obj c.entries) = .str c.reason := rfl
  have message : member "message" (.obj c.entries) = .str c.message := rfl
  change (fields? fields (.obj c.entries)).bind _ = some c
  rw [given, Option.bind_some, required_obj given (by decide), type,
    required_obj given (by decide), status, withDefault_obj given (by decide) reason nofun,
    withDefault_obj given (by decide) message nofun, optional_obj given (by decide),
    time_entries, read_time inRange, Option.bind_some, Option.bind_some,
    ConditionStatus.ofJson?_toJson]
  rfl

theorem inRange_of_ofJson? (read : ofJson? v = some c) :
    ∀ t ∈ c.lastTransitionTime, t.date.inRange = true := by
  obtain ⟨f, -, read⟩ := Option.bind_eq_some_iff.mp read
  obtain ⟨type, -, read⟩ := Option.bind_eq_some_iff.mp read
  obtain ⟨status, -, read⟩ := Option.bind_eq_some_iff.mp read
  obtain ⟨reason, -, read⟩ := Option.bind_eq_some_iff.mp read
  obtain ⟨message, -, read⟩ := Option.bind_eq_some_iff.mp read
  obtain ⟨time, seen, same⟩ := Option.bind_eq_some_iff.mp read
  obtain rfl := Option.some.inj same
  exact (faithful_time true).of_optional seen

theorem faithful :
    Faithful false (fun c => ∀ t ∈ c.lastTransitionTime, t.date.inRange = true) toJson ofJson? where
  written c inRange := by
    have status : Written false c.status.toJson := .str c.status.word
    have time := (faithful_time false).written_present c.lastTransitionTime inRange
    simpa [toJson, or_imp, forall_and, status] using time
  back c inRange := ofJson?_toJson inRange
  fits := inRange_of_ofJson?

end Condition

namespace RepoConfigStatus

variable {s : RepoConfigStatus} {o : Option RepoConfigStatus}

/-- The times that a status tells. -/
def times (s : RepoConfigStatus) : List Instant := s.conditions.filterMap (·.lastTransitionTime)

theorem inRange_times : Instant.InRange s.times ↔
    ∀ c ∈ s.conditions, ∀ t ∈ c.lastTransitionTime, t.date.inRange = true := by
  constructor
  · intro inRange c there t time
    exact inRange t (List.mem_filterMap.mpr ⟨c, there, time⟩)
  · intro each t member
    obtain ⟨c, there, time⟩ := List.mem_filterMap.mp member
    exact each c there t time

theorem inRange_of_ofJson? (read : ofJson? v = some s) : Instant.InRange s.times := by
  obtain ⟨f, -, read⟩ := Option.bind_eq_some_iff.mp read
  obtain ⟨conditions, listed, same⟩ := Option.bind_eq_some_iff.mp read
  obtain rfl := Option.some.inj same
  exact inRange_times.mpr (Condition.faithful.list.of_withDefault (List.forall_mem_nil _) listed)

/-- What is stored of a status: the conditions take the place of those that are there. -/
theorem ofJson?_merged (stored : nullable? ofJson? d = some o) (inRange : Instant.InRange s.times) :
    ofJson? (mergePatch d s.toJson) = some s := by
  have once : Once ["conditions"] (membersOf d) := by
    cases d with
    | obj members =>
      obtain ⟨old, read, -⟩ := Option.map_eq_some_iff.mp stored
      obtain ⟨f, given, -⟩ := Option.bind_eq_some_iff.mp read
      exact (fields?_obj.mp given).1
    | _ => exact List.nodup_nil
  have listed := Condition.faithful.list.back s.conditions (inRange_times.mp inRange)
  have something := list_ne_null Condition.toJson s.conditions
  have whole := whole_list Condition.toJson s.conditions (member "conditions" d)
  rw [toJson, mergePatch_single something, whole]
  generalize list Condition.toJson s.conditions = v at listed something
  have given := fields?_obj.mpr ⟨once.putMember "conditions" v, rfl⟩
  unfold ofJson?
  rw [given]
  change (Fields.withDefault _ _ _ _).bind _ = _
  rw [withDefault_obj given (by decide) (member_putMember ..) something, listed]
  rfl

end RepoConfigStatus

/-- The times that a run tells. -/
def PipelineRunStatus.times (s : PipelineRunStatus) : List Instant :=
  s.startTime.toList ++ s.completionTime.toList

/-! Objects. -/

namespace Object

variable {Spec Status : Type} {readSpec : Json → Option Spec} {readStatus : Json → Option Status}
  {o : Object Spec Status} {s : Status}

/-- The parts of an object that is written as an object. -/
theorem ofJsonWith?_obj :
    ofJsonWith? readSpec readStatus (.obj members) = some o ↔
      Once ["metadata", "spec", "status"] members ∧
      (members.lookup "metadata").bind Metadata.ofJson? = some o.metadata ∧
      (members.lookup "spec").bind readSpec = some o.spec ∧
      nullable? readStatus (member "status" (.obj members)) = some o.status := by
  constructor
  · intro stored
    obtain ⟨f, given, parts⟩ := Option.bind_eq_some_iff.mp stored
    obtain ⟨metadata, seen, parts⟩ := Option.bind_eq_some_iff.mp parts
    obtain ⟨spec, specified, parts⟩ := Option.bind_eq_some_iff.mp parts
    obtain ⟨status, reported, same⟩ := Option.bind_eq_some_iff.mp parts
    obtain rfl := Option.some.inj same
    rw [required_obj given (by decide)] at seen specified
    rw [nullable_obj given (by decide)] at reported
    exact ⟨(fields?_obj.mp given).1, seen, specified, reported⟩
  · rintro ⟨once, seen, specified, reported⟩
    have given := fields?_obj.mpr ⟨once, rfl⟩
    change (fields? _ (.obj members)).bind _ = some o
    rw [given, Option.bind_some, required_obj given (by decide), required_obj given (by decide),
      nullable_obj given (by decide), seen, specified, reported]
    rfl

theorem status_of_stored (stored : ofJsonWith? readSpec readStatus (.obj members) = some o) :
    nullable? readStatus (member "status" (.obj members)) = some o.status :=
  (ofJsonWith?_obj.mp stored).2.2.2

/-- A patch of the status changes nothing else of a stored object. -/
theorem ofJsonWith?_statusPatch (something : ∀ d, mergePatch d status ≠ .null)
    (stored : ofJsonWith? readSpec readStatus (.obj members) = some o)
    (read : readStatus (mergePatch (member "status" (.obj members)) status) = some s) :
    ofJsonWith? readSpec readStatus (mergePatch (.obj members) (Cluster.statusPatch status)) =
      some (o.withStatus s) := by
  have present : status ≠ .null := by
    intro nothing
    exact something .null (by rw [nothing, mergePatch_null])
  obtain ⟨once, seen, specified, -⟩ := ofJsonWith?_obj.mp stored
  rw [Cluster.statusPatch, mergePatch_single present, membersOf]
  refine ofJsonWith?_obj.mpr ⟨once.putMember _ _, ?_, ?_, ?_⟩
  · rw [lookup_putMember_of_ne (by decide)]
    exact seen
  · rw [lookup_putMember_of_ne (by decide)]
    exact specified
  · rw [member_putMember, nullable?_of_ne (something _), read]
    rfl

end Object

/-- A stored job gets exactly the status of the patch, if that takes back no time. -/
theorem PipelineJob.ofJson?_statusPatch {job : PipelineJob} {s : PipelineJobStatus}
    (stored : ofJson? (.obj members) = some job) (kept : job.jobStatus.KeepsTimes s)
    (inRange : Instant.InRange s.times) :
    ofJson? (mergePatch (.obj members) (Cluster.statusPatch s.toJson)) =
      some (job.withStatus s) :=
  Object.ofJsonWith?_statusPatch (fun d => mergePatch_obj_ne_null d _) stored
    (PipelineJobStatus.ofJson?_merged (Object.status_of_stored stored) kept inRange)

/-- A stored config gets exactly the status of the patch. -/
theorem RepoConfig.ofJson?_statusPatch {config : RepoConfig} {s : RepoConfigStatus}
    (stored : ofJson? (.obj members) = some config) (inRange : Instant.InRange s.times) :
    ofJson? (mergePatch (.obj members) (Cluster.statusPatch s.toJson)) =
      some (config.withStatus s) :=
  Object.ofJsonWith?_statusPatch (fun d => mergePatch_obj_ne_null d _) stored
    (RepoConfigStatus.ofJson?_merged (Object.status_of_stored stored) inRange)

/-- The times of a stored job are in the years that a time may have. -/
theorem PipelineJob.inRange_of_ofJson? {job : PipelineJob}
    (stored : ofJson? (.obj members) = some job) : Instant.InRange job.jobStatus.times := by
  have read := Object.status_of_stored stored
  unfold Object.jobStatus
  cases old : job.status with
  | none => exact nofun
  | some s =>
    rw [old] at read
    exact PipelineJobStatus.inRange_of_ofJson? (nullable?_eq_some.mp read).2

theorem RepoConfig.inRange_of_ofJson? {config : RepoConfig}
    (stored : ofJson? (.obj members) = some config) :
    Instant.InRange (config.status.getD {}).times := by
  have read := Object.status_of_stored stored
  cases old : config.status with
  | none => exact nofun
  | some s =>
    rw [old] at read
    exact RepoConfigStatus.inRange_of_ofJson? (nullable?_eq_some.mp read).2

end Resource

end Gatehouse
