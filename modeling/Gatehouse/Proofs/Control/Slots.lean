import Mathlib.Data.List.Perm.Subperm
import Gatehouse.Proofs.Control.News
import Gatehouse.Proofs.Control.Site

/-!
# Who holds a slot

The invariant of sites behind the bound on concurrent runs: a job whose run goes on holds a slot,
unless the queue took it away on word of a state alone. The parts of the invariant beside that say
why the queue is right to free a slot when it hears of a deleted or completed job: such a job is
deleted in the cluster too, or its run has ended, or it can never get one.
-/

namespace Gatehouse.Control

open Program Resource

variable {limit : Nat} {v : View} {q : Admission} {lost : List String} {key : String}
  {job old : PipelineJob} {es : List Event}

/-- The jobs that the queue was told about or keeps waiting. -/
def inFlight (v : View) (q : Admission) : List PipelineJob := v.notified ++ q.pending

/-- A job can never get a run: it has none, and neither its stored version nor one on its way to
the queue is pending. -/
structure Barred (v : View) (q : Admission) (key : String) : Prop where
  absent : v.run? key = none
  stored : ∃ job, v.job? key = some job ∧ job.jobState ≠ .pending
  coming : ∀ p ∈ inFlight v q, p.key = key → p.jobState ≠ .pending

/-- A job needs no slot any more. -/
def Shut (v : View) (q : Admission) (key : String) : Prop :=
  (∃ job, v.job? key = some job ∧ job.isDeleting = true) ∨
  (∃ run, v.run? key = some run ∧ hasEnded run = true) ∨ Barred v q key

/-- A job whose run goes on holds a slot, and not too many of them do, but for those that lost
theirs. -/
structure Held (limit : Nat) (v : View) (running lost : List String) : Prop where
  slots : ∀ key, v.isLive key = true → key ∉ lost → key ∈ running
  budget : ∀ keys : List String, keys.Nodup → (∀ key ∈ keys, v.isLive key = true ∧ key ∉ lost) →
    keys.length ≤ limit

/-- Where no run is started, there is nothing to count. -/
theorem Held.mono {v' : View} {running running' lost' : List String}
    (h : Held limit v running lost) (live : ∀ key, v'.isLive key = true → v.isLive key = true)
    (more : lost ⊆ lost')
    (slots : ∀ key, v'.isLive key = true → key ∉ lost' → key ∈ running → key ∈ running') :
    Held limit v' running' lost' where
  slots := by
    intro key goes kept
    exact slots key goes kept (h.slots key (live key goes) fun gone => kept (more gone))
  budget := by
    intro keys distinct goes
    refine h.budget keys distinct fun key member => ?_
    obtain ⟨goes, kept⟩ := goes key member
    exact ⟨live key goes, fun gone => kept (more gone)⟩

/-- The invariant. -/
structure Sound (limit : Nat) (v : View) (q : Admission) (lost : List String) : Prop where
  limited : q.limit = limit
  orderly : Orderly q
  own : ∀ key job, v.job? key = some job → job.key = key
  /-- The job of each piece of news is stored, and so is that of each run. -/
  known : ∀ p ∈ inFlight v q, ∃ job, v.job? p.key = some job
  runKnown : ∀ key run, v.run? key = some run → ∃ job, v.job? key = some job
  /-- What the queue is told of the end of a job is true. -/
  shut : ∀ p ∈ v.notified, p.isDeleting = true ∨ p.isCompleted = true → Shut v q p.key
  /-- A job that is said to run but has no run never gets one. -/
  gone : ∀ key job, v.job? key = some job → job.jobState = .running → v.run? key = none →
    Barred v q key
  held : Held limit v q.running lost

theorem Shut.not_live (h : Shut v q key) : v.isLive key ≠ true := by
  intro live
  obtain ⟨⟨run, found, going⟩, job, stored, stays⟩ := View.isLive_iff.mp live
  rcases h with ⟨job', stored', deleting⟩ | ⟨run', found', ended⟩ | barred
  · rw [stored] at stored'
    cases stored'
    rw [stays] at deleting
    cases deleting
  · rw [found] at found'
    cases found'
    rw [going] at ended
    cases ended
  · rw [barred.absent] at found
    cases found

theorem sound_start (bare : ∀ key, v.run? key = none) (silent : v.notified = [])
    (own : ∀ key job, v.job? key = some job → job.key = key) : Sound limit v { limit } [] := by
  have idle : inFlight v { limit } = [] := by rw [inFlight, silent, List.nil_append]
  have dead : ∀ key, v.isLive key ≠ true := by
    intro key live
    obtain ⟨⟨run, found, -⟩, -⟩ := View.isLive_iff.mp live
    rw [bare] at found
    cases found
  refine ⟨rfl, orderly_fresh limit, own, ?_, ?_, ?_, ?_, fun key live => absurd live (dead key), ?_⟩
  · simp [idle]
  · simp [bare]
  · simp [silent]
  · intro key job stored running absent
    refine ⟨absent, ⟨job, stored, ?_⟩, by simp [idle]⟩
    rw [running]
    decide
  · intro keys distinct live
    cases keys with
    | nil => exact Nat.zero_le limit
    | cons key keys => exact absurd (live key (by simp)).1 (dead key)

/-! One job changes, and the queue is told about versions of it. -/

section Change

variable {key' : String} {told : List PipelineJob}

theorem mem_inFlight_tell {p : PipelineJob} :
    p ∈ inFlight (v.tell told) q ↔ p ∈ inFlight v q ∨ p ∈ told := by
  simp only [inFlight, View.notified_tell, List.mem_append]
  tauto

theorem live_change (there : v.job? key = some old) (next : Version (v.run? key) old job)
    (live : ((v.putJob key job).tell told).isLive key' = true) : v.isLive key' = true := by
  obtain ⟨⟨run, found, going⟩, job', stored, stays⟩ := View.isLive_iff.mp live
  refine View.isLive_iff.mpr ⟨⟨run, found, going⟩, ?_⟩
  simp only [View.job?_tell, View.job?_putJob] at stored
  split at stored
  · rename_i same
    cases stored
    rw [same]
    refine ⟨old, there, ?_⟩
    cases deleting : old.isDeleting with
    | false => rfl
    | true =>
      rw [next.deleting deleting] at stays
      cases stays
  · exact ⟨job', stored, stays⟩

theorem Barred.change (h : Barred v q key') (own : old.key = key) (there : v.job? key = some old)
    (next : Version (v.run? key) old job) (news : ∀ p ∈ told, News (v.run? key) old p) :
    Barred ((v.putJob key job).tell told) q key' := by
  obtain ⟨stored, found, halted⟩ := h.stored
  refine ⟨h.absent, ?_, ?_⟩
  · by_cases same : key' = key
    · subst same
      rw [there] at found
      cases found
      exact ⟨job, by simp, fun pending => halted (next.pending h.absent pending)⟩
    · exact ⟨stored, by simp [same, found], halted⟩
  · intro p member same
    rcases mem_inFlight_tell.mp member with member | member
    · exact h.coming p member same
    · have absent := h.absent
      rw [← same, (news p member).key, own] at absent
      rw [← same, (news p member).key, own, there] at found
      cases found
      exact fun pending => halted ((news p member).pending absent pending)

theorem Shut.change (h : Shut v q key') (own : old.key = key) (there : v.job? key = some old)
    (next : Version (v.run? key) old job) (news : ∀ p ∈ told, News (v.run? key) old p) :
    Shut ((v.putJob key job).tell told) q key' := by
  rcases h with ⟨stored, found, deleting⟩ | ended | barred
  · by_cases same : key' = key
    · subst same
      rw [there] at found
      cases found
      exact .inl ⟨job, by simp, next.deleting deleting⟩
    · exact .inl ⟨stored, by simp [same, found], deleting⟩
  · exact .inr (.inl ended)
  · exact .inr (.inr (barred.change own there next news))

/-- What a pass tells the queue of the end of a job is true of the job as the pass found it. -/
theorem Sound.shut_news {p : PipelineJob} (h : Sound limit v q lost)
    (there : v.job? key = some old) (news : News (v.run? key) old p)
    (ended : p.isDeleting = true ∨ p.isCompleted = true) : Shut v q key := by
  rcases ended with deleting | done
  · refine .inl ⟨old, there, ?_⟩
    cases stays : old.isDeleting with
    | true => rfl
    | false =>
      rw [news.stays stays] at deleting
      cases deleting
  · rcases news.completed done with deleting | finished | ⟨absent, running⟩
    · exact .inl ⟨old, there, deleting⟩
    · exact .inr (.inl finished)
    · exact .inr (.inr (h.gone key old there running absent))

/-- A pass keeps the invariant, and so does everything else that changes one job. -/
theorem Sound.change (h : Sound limit v q lost) (there : v.job? key = some old)
    (next : Version (v.run? key) old job) (news : ∀ p ∈ told, News (v.run? key) old p) :
    Sound limit ((v.putJob key job).tell told) q lost := by
  have own : old.key = key := h.own key old there
  have stored {key' : String} (h' : ∃ job, v.job? key' = some job) :
      ∃ job', ((v.putJob key job).tell told).job? key' = some job' := by
    obtain ⟨job', found⟩ := h'
    by_cases same : key' = key
    · exact ⟨job, by simp [same]⟩
    · exact ⟨job', by simp [same, found]⟩
  refine ⟨h.limited, h.orderly, ?_, ?_, ?_, ?_, ?_, ?_⟩
  · intro key' job' found
    simp only [View.job?_tell, View.job?_putJob] at found
    split at found
    · rename_i same
      cases found
      rw [same, next.key, own]
    · exact h.own key' job' found
  · intro p member
    rcases mem_inFlight_tell.mp member with member | member
    · exact stored (h.known p member)
    · refine stored ⟨old, ?_⟩
      rw [(news p member).key, own, there]
  · intro key' run found
    exact stored (h.runKnown key' run found)
  · intro p member ended
    rcases List.mem_append.mp member with member | member
    · exact (h.shut p member ended).change own there next news
    · rw [(news p member).key, own]
      exact (h.shut_news there (news p member) ended).change own there next news
  · intro key' job' found running absent
    simp only [View.job?_tell, View.job?_putJob] at found
    split at found
    · -- Without a run no pass says that its job runs, so the old version ran as well.
      rename_i same
      cases found
      subst same
      exact (h.gone key' old there (next.running absent running) absent).change own there next news
    · exact (h.gone key' job' found running absent).change own there next news
  · exact h.held.mono (fun _ => live_change there next) (List.Subset.refl _) fun _ _ _ held => held

end Change

/-! A job is created. All that the invariant speaks of is about other jobs, which are stored. -/

theorem ne_of_stored (new : v.job? job.key = none) (stored : ∃ job', v.job? key = some job') :
    key ≠ job.key := by
  rintro rfl
  obtain ⟨job', found⟩ := stored
  rw [new] at found
  cases found

theorem stored_create (new : v.job? job.key = none) (found : v.job? key = some old) :
    (v.putJob job.key job).job? key = some old := by
  rw [View.job?_putJob, if_neg (ne_of_stored new ⟨old, found⟩)]
  exact found

theorem Barred.create (h : Barred v q key) (new : v.job? job.key = none) :
    Barred (v.putJob job.key job) q key := by
  obtain ⟨job', found, halted⟩ := h.stored
  exact ⟨h.absent, ⟨job', stored_create new found, halted⟩, h.coming⟩

theorem Shut.create (h : Shut v q key) (new : v.job? job.key = none) :
    Shut (v.putJob job.key job) q key := by
  rcases h with ⟨job', found, deleting⟩ | ended | barred
  · exact .inl ⟨job', stored_create new found, deleting⟩
  · exact .inr (.inl ended)
  · exact .inr (.inr (barred.create new))

theorem Sound.live_create (h : Sound limit v q lost) (new : v.job? job.key = none)
    (live : (v.putJob job.key job).isLive key = true) : v.isLive key = true := by
  obtain ⟨⟨run, found, going⟩, job', stored, stays⟩ := View.isLive_iff.mp live
  rw [View.job?_putJob, if_neg (ne_of_stored new (h.runKnown key run found))] at stored
  exact View.isLive_iff.mpr ⟨⟨run, found, going⟩, job', stored, stays⟩

/-- A new job has no run, and the queue has not heard of it. -/
theorem Sound.create (h : Sound limit v q lost) (new : v.job? job.key = none) :
    Sound limit (v.putJob job.key job) q lost := by
  refine ⟨h.limited, h.orderly, ?_, ?_, ?_, fun p member ended => (h.shut p member ended).create new,
    ?_, h.held.mono (fun _ => h.live_create new) (List.Subset.refl _) fun _ _ _ held => held⟩
  · intro key job' found
    rw [View.job?_putJob] at found
    split at found
    · rename_i same
      cases found
      exact same.symm
    · exact h.own key job' found
  · intro p member
    obtain ⟨job', found⟩ := h.known p member
    exact ⟨job', stored_create new found⟩
  · intro key run found
    obtain ⟨job', stored⟩ := h.runKnown key run found
    exact ⟨job', stored_create new stored⟩
  · intro key job' found running absent
    rw [View.job?_putJob] at found
    split at found
    · rename_i same
      subst same
      cases found
      refine ⟨absent, ⟨job, by simp, ?_⟩, fun p member same => ?_⟩
      · rw [running]
        decide
      · exact absurd same (ne_of_stored new (h.known p member))
    · exact (h.gone key job' found running absent).create new

/-! The engine changes a run. -/

section Engine

variable {key' : String} {run run' : PipelineRun}

theorem Barred.engine (h : Barred v q key') (there : v.run? key = some run) :
    Barred (v.putRun key run') q key' := by
  refine ⟨?_, h.stored, h.coming⟩
  have differs : key' ≠ key := by
    rintro rfl
    rw [h.absent] at there
    cases there
  rw [View.run?_putRun, if_neg differs]
  exact h.absent

theorem Shut.engine (h : Shut v q key') (there : v.run? key = some run)
    (final : hasEnded run = true → hasEnded run' = true) : Shut (v.putRun key run') q key' := by
  rcases h with deleted | ⟨run₁, found, finished⟩ | barred
  · exact .inl deleted
  · refine .inr (.inl ?_)
    by_cases same : key' = key
    · rw [same, there] at found
      cases found
      exact ⟨run', by simp [same], final finished⟩
    · exact ⟨run₁, by simp [same, found], finished⟩
  · exact .inr (.inr (barred.engine there))

/-- A run that goes on after the change went on before it, since an end is final. -/
theorem live_engine (there : v.run? key = some run)
    (final : hasEnded run = true → hasEnded run' = true)
    (live : (v.putRun key run').isLive key' = true) : v.isLive key' = true := by
  obtain ⟨⟨run₁, found, going⟩, stored⟩ := View.isLive_iff.mp live
  refine View.isLive_iff.mpr ⟨?_, stored⟩
  rw [View.run?_putRun] at found
  split at found
  · rename_i same
    cases found
    rw [same]
    refine ⟨run, there, ?_⟩
    cases ended : hasEnded run with
    | false => rfl
    | true =>
      rw [final ended] at going
      cases going
  · exact ⟨run₁, found, going⟩

/-- The engine may end a run, but does not start one. -/
theorem Sound.engine (h : Sound limit v q lost) (there : v.run? key = some run)
    (final : hasEnded run = true → hasEnded run' = true) :
    Sound limit (v.putRun key run') q lost := by
  refine ⟨h.limited, h.orderly, h.own, h.known, ?_,
    fun p member ended => (h.shut p member ended).engine there final, ?_,
    h.held.mono (fun _ => live_engine there final) (List.Subset.refl _) fun _ _ _ held => held⟩
  · intro key' run₁ found
    rw [View.run?_putRun] at found
    split at found
    · rename_i same
      rw [same]
      exact h.runKnown key run there
    · exact h.runKnown key' run₁ found
  · intro key' job' found running absent
    rw [View.run?_putRun] at absent
    split at absent
    · cases absent
    · exact (h.gone key' job' found running absent).engine there

end Engine

/-! The queue at work. -/

/-- The queue lets go of jobs, and of slots that it need not keep. -/
theorem Sound.shrink {v' : View} {q' : Admission} {lost' : List String} (h : Sound limit v q lost)
    (jobs : v'.job? = v.job?) (runs : v'.run? = v.run?) (told : v'.notified ⊆ v.notified)
    (fewer : inFlight v' q' ⊆ inFlight v q) (limited : q'.limit = q.limit) (orderly : Orderly q')
    (more : lost ⊆ lost')
    (slots : ∀ key, v.isLive key = true → key ∉ lost' → key ∈ q.running → key ∈ q'.running) :
    Sound limit v' q' lost' := by
  have barred {key : String} (h' : Barred v q key) : Barred v' q' key :=
    ⟨by rw [runs]; exact h'.absent, by rw [jobs]; exact h'.stored,
      fun p member => h'.coming p (fewer member)⟩
  have live (key : String) : v'.isLive key = v.isLive key := by
    rw [View.isLive, View.isLive, jobs, runs]
  refine ⟨limited.trans h.limited, orderly, ?_, ?_, ?_, ?_, ?_, ?_⟩
  · rw [jobs]
    exact h.own
  · rw [jobs]
    exact fun p member => h.known p (fewer member)
  · rw [jobs, runs]
    exact h.runKnown
  · intro p member ended
    have shut := h.shut p (told member) ended
    rw [Shut, jobs, runs]
    exact shut.imp_right (Or.imp_right barred)
  · rw [jobs, runs]
    exact fun key job found running absent => barred (h.gone key job found running absent)
  · refine h.held.mono (fun key goes => (live key).symm.trans goes) more fun key goes => ?_
    exact slots key ((live key).symm.trans goes)

/-- The queue takes in the news about a job. It keeps the slot of a job whose run goes on, or the
loss is put down. -/
theorem Sound.takeIn {rest : List PipelineJob} (h : Sound limit v q lost)
    (first : v.notified = job :: rest) :
    Sound limit { v with notified := rest } (q.takeIn job) (lostBy v job lost) := by
  have heard : job ∈ v.notified := by simp [first]
  refine h.shrink rfl rfl ?_ ?_ (limit_takeIn q job) (h.orderly.takeIn job) ?_ ?_
  · rw [first]
    exact List.subset_cons_self job rest
  · intro p member
    rcases List.mem_append.mp member with member | member
    · exact List.mem_append_left _ (by simp [first, show p ∈ rest from member])
    · rcases of_mem_pending_takeIn member with rfl | member
      · exact List.mem_append_left _ heard
      · exact List.mem_append_right _ member
  · unfold lostBy
    split
    · exact List.subset_cons_self _ _
    · exact List.Subset.refl _
  · intro key live kept held
    rcases mem_running_takeIn held job with held | ⟨rfl, released⟩
    · exact held
    · -- The slot of a live job is released only on word of its state, and then the loss is kept.
      exfalso
      cases deleting : job.isDeleting with
      | true => exact (h.shut job heard (.inl deleting)).not_live live
      | false =>
        cases done : job.isCompleted with
        | true => exact (h.shut job heard (.inr done)).not_live live
        | false =>
          have terminal : isOver job = true := by simpa [deleting] using released
          refine kept ?_
          simp [lostBy, overByState, deleting, done, terminal, live]

end Gatehouse.Control
