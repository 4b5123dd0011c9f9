import Gatehouse.Proofs.Resource.StatusDocument

/-!
# Cluster objects are written faithfully

What cluster objects ask for and how they are doing is read back from its document, if its numbers
have at most 64 bits and its times are in the years that a time may have. None of these documents
has `null` in it: what is absent is left out.
-/

namespace Gatehouse

open Json

/-! Parts in which everything fits. -/

theorem Git.Provider.faithful : Faithful false (fun _ => True) toJson ofJson? :=
  faithful_of_back (fun p => .str p.name) (fun p => by cases p <;> rfl)

namespace Resource

theorem reference_faithful : Faithful false (fun _ => True) reference reference? :=
  faithful_of_back (fun name => by simp [reference]) (fun _ => rfl)

theorem SecretKey.faithful : Faithful false (fun _ => True) toJson ofJson? :=
  faithful_of_back (fun s => by simp [toJson]) (fun _ => rfl)

theorem Param.faithful : Faithful false (fun _ => True) toJson ofJson? :=
  faithful_of_back (fun p => by simp [toJson]) (fun _ => rfl)

theorem RunCondition.faithful : Faithful false (fun _ => True) toJson ofJson? :=
  faithful_of_back (fun c => by simp [toJson]) (fun _ => rfl)

theorem JobState.faithful : Faithful false (fun _ => True) toJson ofJson? :=
  faithful_of_back (fun s => .str s.name) JobState.ofJson?_toJson

/-! Configs. -/

theorem GitSpec.faithful : Faithful false (fun _ => True) toJson ofJson? := by
  refine faithful_of_back (fun g => ?_) (fun g => ?_)
  · have provider := Git.Provider.faithful.written g.provider trivial
    have token := SecretKey.faithful.written_present g.token (by simp)
    simpa [toJson, or_imp, forall_and, provider] using token
  · obtain ⟨provider, repository, apiUrl, token⟩ := g
    have provided := Git.Provider.faithful.back provider trivial
    have url := (faithful_text false).back_present apiUrl str_ne_null (by simp)
    have secret := SecretKey.faithful.back_present token (fun _ => obj_ne_null _) (by simp)
    -- Which members there are depends on the options, so the lookups wait for these cases.
    cases apiUrl <;> cases token <;>
      simp [toJson, ofJson?, member?, fields?, Fields.required, Fields.optional,
        Fields.withDefault, Fields.find?, List.lookup_cons, text?, provided, url, secret]

theorem RepoConfigSpec.faithful : Faithful false (fun _ => True) toJson ofJson? := by
  refine faithful_of_back (fun s => ?_) (fun s => ?_)
  · have git := GitSpec.faithful.written s.git trivial
    have secret := SecretKey.faithful.written_present s.webhookSecret (by simp)
    simpa [toJson, or_imp, forall_and, git] using secret
  · obtain ⟨git, webhookSecret, pipelineRef, serviceAccount⟩ := s
    have place := GitSpec.faithful.back git trivial
    have secret := SecretKey.faithful.back_present webhookSecret (fun _ => obj_ne_null _) (by simp)
    have account := (faithful_text false).back_present serviceAccount str_ne_null (by simp)
    cases webhookSecret <;> cases serviceAccount <;>
      simp [toJson, ofJson?, member?, fields?, Fields.required, Fields.optional,
        Fields.withDefault, Fields.find?, List.lookup_cons, text?, place, secret, account]

theorem RepoConfigStatus.faithful :
    Faithful false (fun s => Instant.InRange s.times) toJson ofJson? where
  written s inRange := by
    have conditions := Condition.faithful.list.written s.conditions (inRange_times.mp inRange)
    simp [toJson, conditions]
  back s inRange := by
    have conditions := Condition.faithful.list.back s.conditions (inRange_times.mp inRange)
    simp [toJson, ofJson?, fields?, Fields.withDefault, Fields.find?, conditions]
  fits := inRange_of_ofJson?

/-! Jobs. -/

/-- The number of the pull request is a signed 64-bit word. -/
def JobRefs.Fits (r : JobRefs) : Prop := ∀ n ∈ r.pullRequest, Text.isInt64 n = true

theorem JobRefs.faithful : Faithful false Fits toJson ofJson? where
  written r fits := by
    have number := (faithful_int64 false).written_present r.pullRequest fits
    simpa [toJson, or_imp, forall_and] using number
  back r fits := by
    obtain ⟨repository, ref, sha, pullRequest⟩ := r
    have number := (faithful_int64 false).back_present pullRequest (fun _ => nofun) fits
    cases pullRequest <;>
      simp [toJson, ofJson?, member?, fields?, Fields.required, Fields.optional,
        Fields.withDefault, Fields.find?, List.lookup_cons, text?, number]
  fits {v r} read := by
    obtain ⟨f, -, read⟩ := Option.bind_eq_some_iff.mp read
    obtain ⟨repository, -, read⟩ := Option.bind_eq_some_iff.mp read
    obtain ⟨ref, -, read⟩ := Option.bind_eq_some_iff.mp read
    obtain ⟨sha, -, read⟩ := Option.bind_eq_some_iff.mp read
    obtain ⟨number, seen, same⟩ := Option.bind_eq_some_iff.mp read
    obtain rfl := Option.some.inj same
    exact (faithful_int64 false).of_optional seen

theorem PipelineJobSpec.faithful : Faithful false (fun s => s.refs.Fits) toJson ofJson? where
  written s fits := by
    have config := reference_faithful.written s.config trivial
    have refs := JobRefs.faithful.written s.refs fits
    simp [toJson, config, refs]
  back s fits := by
    have config := reference_faithful.back s.config trivial
    have refs := JobRefs.faithful.back s.refs fits
    simp [toJson, ofJson?, fields?, Fields.required, Fields.find?, List.lookup_cons, config, refs]
  fits {v s} read := by
    obtain ⟨f, -, read⟩ := Option.bind_eq_some_iff.mp read
    obtain ⟨config, -, read⟩ := Option.bind_eq_some_iff.mp read
    obtain ⟨refs, seen, same⟩ := Option.bind_eq_some_iff.mp read
    obtain rfl := Option.some.inj same
    exact JobRefs.faithful.of_required seen

theorem PipelineJobStatus.faithful :
    Faithful false (fun s => Instant.InRange s.times) toJson ofJson? where
  written s inRange := by
    obtain ⟨startIn, completionIn⟩ := Instant.inRange_append.mp inRange
    have state := JobState.faithful.written s.state trivial
    have start := (faithful_time false).written_present s.startTime startIn
    have completion := (faithful_time false).written_present s.completionTime completionIn
    simpa [toJson, or_imp, forall_and, state] using ⟨start, completion⟩
  back s inRange := by
    obtain ⟨state, message, startTime, completionTime⟩ := s
    obtain ⟨startIn, completionIn⟩ := Instant.inRange_append.mp inRange
    have stated := JobState.faithful.back state trivial
    have start := (faithful_time false).back_present startTime time_ne_null startIn
    have completion := (faithful_time false).back_present completionTime time_ne_null completionIn
    cases startTime <;> cases completionTime <;>
      simp [toJson, ofJson?, member?, fields?, Fields.optional, Fields.withDefault, Fields.find?,
        List.lookup_cons, text?, stated, start, completion]
  fits := inRange_of_ofJson?

/-! Runs. -/

theorem PipelineRunSpec.faithful : Faithful false (fun _ => True) toJson ofJson? := by
  refine faithful_of_back (fun s => ?_) (fun s => ?_)
  · have pipeline := reference_faithful.written s.pipeline trivial
    have params := Param.faithful.list.written s.params (by simp)
    simp [toJson, or_imp, forall_and, pipeline, params]
  · obtain ⟨pipeline, params, serviceAccountName, status⟩ := s
    have named := reference_faithful.back pipeline trivial
    have given := Param.faithful.list.back params (by simp)
    have account := (faithful_text false).back_present serviceAccountName str_ne_null (by simp)
    have wish := (faithful_text false).back_present status str_ne_null (by simp)
    cases serviceAccountName <;> cases status <;>
      simp [toJson, ofJson?, member?, fields?, Fields.required, Fields.optional,
        Fields.withDefault, Fields.find?, List.lookup_cons, named, given, account, wish]

theorem PipelineRunStatus.faithful :
    Faithful false (fun s => Instant.InRange s.times) toJson ofJson? where
  written s inRange := by
    obtain ⟨startIn, completionIn⟩ := Instant.inRange_append.mp inRange
    have conditions := RunCondition.faithful.list.written s.conditions (by simp)
    have start := (faithful_time false).written_present s.startTime startIn
    have completion := (faithful_time false).written_present s.completionTime completionIn
    simpa [toJson, or_imp, forall_and, conditions] using ⟨start, completion⟩
  back s inRange := by
    obtain ⟨conditions, startTime, completionTime⟩ := s
    obtain ⟨startIn, completionIn⟩ := Instant.inRange_append.mp inRange
    have listed := RunCondition.faithful.list.back conditions (by simp)
    have start := (faithful_time false).back_present startTime time_ne_null startIn
    have completion := (faithful_time false).back_present completionTime time_ne_null completionIn
    cases startTime <;> cases completionTime <;>
      simp [toJson, ofJson?, member?, fields?, Fields.optional, Fields.withDefault, Fields.find?,
        List.lookup_cons, listed, start, completion]
  fits {v s} read := by
    obtain ⟨f, -, read⟩ := Option.bind_eq_some_iff.mp read
    obtain ⟨conditions, -, read⟩ := Option.bind_eq_some_iff.mp read
    obtain ⟨start, started, read⟩ := Option.bind_eq_some_iff.mp read
    obtain ⟨completion, completed, same⟩ := Option.bind_eq_some_iff.mp read
    obtain rfl := Option.some.inj same
    exact Instant.inRange_append.mpr
      ⟨(faithful_time false).of_optional started, (faithful_time false).of_optional completed⟩

end Resource

end Gatehouse
