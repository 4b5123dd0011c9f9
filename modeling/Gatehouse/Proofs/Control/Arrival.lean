import Gatehouse.Proofs.Control.Story

/-!
# The order of arrival

Jobs wait in the order in which they came. A move takes jobs out of the queue or puts one at its
end, and only the first one is ever started; so of two waiting jobs the one that came first is tried
first, for as long as both wait (`first_come_first_served`).
-/

namespace Gatehouse.Control

open Program Resource

variable {limit : Nat} {q q₁ q' : Admission} {job old : PipelineJob}
  {jobs front back : List PipelineJob} {move : Move} {story : List Moment} {es es' : List Event}
  {a b : String}

/-- A job of the key waits. -/
def Admission.Queues (q : Admission) (key : String) : Prop := key ∈ q.pending.map Object.key

/-- Nobody is overtaken: if one job waits when another does not, and goes on waiting, then as long
as it does no start of the other is attempted, which may have come since. -/
def NoOvertaking (story : List Moment) : Prop :=
  ∀ (early between late : List Moment) (first last : Moment) (key : String) (job : PipelineJob)
    (o : Except Error Unit),
    story = early ++ first :: (between ++ last :: late) →
    first.queue.Queues key → ¬ first.queue.Queues job.key →
    (∀ m ∈ between, m.queue.Queues key) → last.queue.Queues key → last.move ≠ .attempt job o

/-! One move. -/

/-- A piece of news takes a key out of the queue, leaves the keys alone, or puts one at the end. -/
theorem keys_takeIn (q : Admission) (job : PipelineJob) :
    ((q.takeIn job).pending.map Object.key).Sublist (q.pending.map Object.key) ∨
      job.key ∉ q.pending.map Object.key ∧
        (q.takeIn job).pending.map Object.key = q.pending.map Object.key ++ [job.key] := by
  have fewer := (without_sublist job.key q.pending).map Object.key
  unfold Admission.takeIn
  split
  · exact .inl fewer
  split
  · exact .inl fewer
  split
  · exact .inl (.refl _)
  · rw [enqueue_keys]
    split
    · exact .inl (.refl _)
    · rename_i new
      exact .inr ⟨new, rfl⟩

theorem Moves.keys (h : Moves q move es q') :
    (q'.pending.map Object.key).Sublist (q.pending.map Object.key) ∨
      ∃ key ∉ q.pending.map Object.key,
        q'.pending.map Object.key = q.pending.map Object.key ++ [key] := by
  cases h with
  | news job rests => exact (keys_takeIn q job).imp_right fun ⟨new, keys⟩ => ⟨job.key, new, keys⟩
  | admitted room started => exact .inl (List.sublist_cons_self ..)
  | failed room unstarted marked => exact .inl (List.sublist_cons_self ..)

/-- Only the first job is started. -/
theorem Moves.first {o : Except Error Unit} (h : Moves q (.attempt job o) es q') :
    ∃ rest, q.pending = job :: rest := by
  cases h with
  | admitted room started => exact ⟨_, rfl⟩
  | failed room unstarted marked => exact ⟨_, rfl⟩

/-- A job waits, and the other one does not wait before it. -/
def Ahead (a b : String) (q : Admission) : Prop :=
  q.Queues a ∧ ¬ [b, a].Sublist (q.pending.map Object.key)

theorem Ahead.of_new (waits : q.Queues a) (new : ¬ q.Queues b) : Ahead a b q :=
  ⟨waits, fun pair => new (pair.subset (List.mem_cons_self ..))⟩

/-- The order is kept as long as the job waits. -/
theorem Ahead.moves (h : Ahead a b q) (moves : Moves q move es q') (stays : q'.Queues a) :
    Ahead a b q' := by
  refine ⟨stays, fun pair => ?_⟩
  rcases moves.keys with fewer | ⟨key, new, keys⟩
  · exact h.2 (pair.trans fewer)
  · -- The key at the end is a new one, so the pair is found in front of it.
    rw [keys] at pair
    obtain ⟨first, last, split, before, end_⟩ := List.sublist_append_iff.mp pair
    have other : a ≠ key := fun same => new (same ▸ h.1)
    rcases List.sublist_singleton.mp end_ with rfl | rfl
    · rw [List.append_nil] at split
      exact h.2 (split ▸ before)
    · have both : [b] ++ [a] = first ++ [key] := split
      obtain ⟨-, same⟩ := List.append_inj' both rfl
      exact other (List.singleton_inj.mp same)

/-- So the other job cannot be the first. -/
theorem Ahead.not_attempted {o : Except Error Unit} (h : Ahead a job.key q)
    (different : a ≠ job.key) : ¬ Moves q (.attempt job o) es q' := by
  intro moves
  obtain ⟨rest, first⟩ := moves.first
  obtain ⟨waits, behind⟩ := h
  rw [Admission.Queues, first, List.map_cons] at waits
  have later : a ∈ rest.map Object.key := (List.mem_cons.mp waits).resolve_left different
  rw [first, List.map_cons] at behind
  exact behind (List.cons_sublist_cons.mpr (List.singleton_sublist.mpr later))

/-! Many moves. -/

theorem Story.head {m : Moment} {later : List Moment} (h : Story q (m :: later) es q') :
    m.queue = q := by
  cases h
  rfl

theorem Story.suffix {early later : List Moment} (h : Story q (early ++ later) es q') :
    ∃ q₁ es₁, Story q₁ later es₁ q' := by
  induction early generalizing q es with
  | nil => exact ⟨q, es, h⟩
  | cons m early ih =>
    cases h with
    | cons moves rest => exact ih rest

/-- The order is kept from one moment to another if the job waits all the while. -/
theorem Story.ahead {between late : List Moment} {last : Moment}
    (h : Story q (between ++ last :: late) es q') (ahead : Ahead a b q)
    (stays : ∀ m ∈ between, m.queue.Queues a) (still : last.queue.Queues a) :
    Ahead a b last.queue := by
  induction between generalizing q es with
  | nil => exact h.head ▸ ahead
  | cons m between ih =>
    have later := (List.forall_mem_cons.mp stays).2
    cases h with
    | cons moves rest =>
      refine ih rest (ahead.moves moves ?_) later
      cases between with
      | nil => exact rest.head ▸ still
      | cons next between => exact rest.head ▸ later next (List.mem_cons_self ..)

theorem Story.noOvertaking (h : Story q story es q') : NoOvertaking story := by
  intro early between late first last key job o split waits new stays still tried
  have different : key ≠ job.key := fun same => new (same ▸ waits)
  rw [split] at h
  obtain ⟨q₁, es₁, later⟩ := h.suffix
  obtain rfl := later.head
  have always : ∀ m ∈ first :: between, m.queue.Queues key :=
    List.forall_mem_cons.mpr ⟨waits, stays⟩
  have ahead : Ahead key job.key last.queue := Story.ahead later (.of_new waits new) always still
  have member : last ∈ first :: (between ++ last :: late) := by simp
  obtain ⟨es₂, q₂, moves⟩ := later.moves member
  rw [tried] at moves
  exact ahead.not_attempted different moves

/-- The jobs that are tried are the first ones, in their order; the others go on waiting. -/
theorem Story.pending_tries (h : Story q story es q') (silent : newsIn story = []) :
    q.pending = attemptedIn story ++ q'.pending := by
  induction h with
  | nil q => rfl
  | cons move _ ih =>
    cases move with
    | news job rests => cases silent
    | admitted room started => exact congrArg (_ :: ·) (ih silent)
    | failed room unstarted marked => exact congrArg (_ :: ·) (ih silent)

/-! What a piece of news does to the queue. -/

/-- The waiting jobs, with a version of a job in the place of the one that waits under its key. -/
def refreshed (job : PipelineJob) (jobs : List PipelineJob) : List PipelineJob :=
  jobs.map fun p => if p.key = job.key then job else p

theorem refreshed_of_new (new : job.key ∉ jobs.map Object.key) : refreshed job jobs = jobs := by
  refine (List.map_congr_left ?_).trans (List.map_id jobs)
  intro p member
  have other : p.key ≠ job.key := fun same => new (same ▸ List.mem_map_of_mem member)
  exact if_neg other

theorem refreshed_append (front back : List PipelineJob) :
    refreshed job (front ++ back) = refreshed job front ++ refreshed job back := List.map_append

theorem refreshed_cons_self (same : old.key = job.key) (jobs : List PipelineJob) :
    refreshed job (old :: jobs) = job :: refreshed job jobs := by
  simp [refreshed, same]

/-- The other jobs keep their places. -/
theorem refreshed_middle (distinct : ((front ++ old :: back).map Object.key).Nodup)
    (same : old.key = job.key) : refreshed job (front ++ old :: back) = front ++ job :: back := by
  rw [List.map_append, List.map_cons, List.nodup_middle, List.nodup_cons, same,
    List.mem_append, not_or] at distinct
  obtain ⟨⟨before, behind⟩, -⟩ := distinct
  rw [refreshed_append, refreshed_cons_self same, refreshed_of_new before, refreshed_of_new behind]

theorem without_sublist_refreshed (job : PipelineJob) (jobs : List PipelineJob) :
    (without job.key jobs).Sublist (refreshed job jobs) := by
  induction jobs with
  | nil => exact .refl _
  | cons p jobs ih =>
    by_cases same : p.key = job.key
    · rw [refreshed_cons_self same, without, List.filter_cons_of_neg (by simpa using same)]
      exact ih.cons job
    · have kept : refreshed job (p :: jobs) = p :: refreshed job jobs := by simp [refreshed, same]
      rw [kept, without, List.filter_cons_of_pos (by simpa using same)]
      exact ih.cons_cons p

theorem enqueue_new (new : job.key ∉ jobs.map Object.key) : enqueue job jobs = jobs ++ [job] := by
  induction jobs with
  | nil => rfl
  | cons p jobs ih =>
    obtain ⟨other, new⟩ : job.key ≠ p.key ∧ job.key ∉ jobs.map Object.key := by simpa using new
    rw [enqueue, if_neg (Ne.symm other), ih new, List.cons_append]

/-- A job that waits under its key only once takes the place of its other version. -/
theorem enqueue_known (distinct : (jobs.map Object.key).Nodup)
    (known : job.key ∈ jobs.map Object.key) : enqueue job jobs = refreshed job jobs := by
  induction jobs with
  | nil => cases known
  | cons p jobs ih =>
    obtain ⟨alone, distinct⟩ := List.nodup_cons.mp distinct
    by_cases same : p.key = job.key
    · rw [enqueue, if_pos same, refreshed_cons_self same, refreshed_of_new (same ▸ alone)]
    · have further : job.key ∈ jobs.map Object.key :=
        (List.mem_cons.mp known).resolve_left (Ne.symm same)
      rw [enqueue, if_neg same, ih distinct further]
      simp [refreshed, same]

/-- A job that may be started and holds no slot is put into the queue. -/
theorem takeIn_waits (waits : Waits job) (free : job.key ∉ q.running) :
    q.takeIn job = { q with pending := enqueue job q.pending } := by
  have idle : job.jobState ≠ .running := by simp [waits.pending]
  simp [Admission.takeIn, waits.alive, waits.going, idle, free]

/-- What waits after a piece of news waited before, apart from the job at the end, if it is new. -/
theorem Orderly.pending_takeIn (h : Orderly q) (job : PipelineJob) :
    ((q.takeIn job).pending.Sublist (refreshed job q.pending)) ∨
      job.key ∉ q.pending.map Object.key ∧ (q.takeIn job).pending = q.pending ++ [job] := by
  have fewer := without_sublist_refreshed job q.pending
  unfold Admission.takeIn
  split
  · exact .inl fewer
  split
  · exact .inl fewer
  split
  · rename_i held
    have absent : job.key ∉ q.pending.map Object.key := by
      intro known
      obtain ⟨p, member, same⟩ := List.mem_map.mp known
      exact h.apart p member (by simpa [same] using held)
    rw [refreshed_of_new absent]
    exact .inl (.refl _)
  by_cases known : job.key ∈ q.pending.map Object.key
  · rw [enqueue_known h.distinct known]
    exact .inl (.refl _)
  · exact .inr ⟨known, enqueue_new known⟩

/-- Jobs are served in the order in which they came, whatever the queue is told, and however starts
go: nobody is overtaken; the jobs that are tried after a piece of news are the first ones of the
queue, in order; a job that waits already keeps its place and gets its new version; and of the queue
jobs are taken out, and the job that the news is about may be put at the end. -/
theorem first_come_first_served (run : Path (Admission.handleAll { limit } jobs) es q)
    (handled : Path (q.handle job) es' q') :
    (∃ story, Story { limit } story es q ∧ newsIn story = jobs) ∧
    (∀ story, Story { limit } story es q → NoOvertaking story) ∧
    (∃ tries, Story (q.takeIn job) tries es' q' ∧ newsIn tries = [] ∧
      (q.takeIn job).pending = attemptedIn tries ++ q'.pending) ∧
    (∀ front old back, q.pending = front ++ old :: back → old.key = job.key → Waits job →
      (q.takeIn job).pending = front ++ job :: back) ∧
    ∃ kept, kept.Sublist (refreshed job q.pending) ∧
      (q'.pending = kept ∨ q'.pending = kept ++ [job] ∧ ¬ q.Queues job.key) := by
  have rests : Busy { limit } := .inr rfl
  obtain ⟨story, told, news, -⟩ := (path_handleAll rests).mp run
  have before : Orderly q := (orderly_of_reached (Reached.fresh.handleAll run)).1
  obtain ⟨tries, tried, silent, -⟩ := story_of_fill handled
  have order := tried.pending_tries silent
  refine ⟨⟨story, told, news⟩, fun story told => told.noOvertaking, ⟨tries, tried, silent, order⟩,
    ?_, ?_⟩
  · intro front old back split same waits
    have member : old ∈ q.pending := split ▸ by simp
    have known : job.key ∈ q.pending.map Object.key := same ▸ List.mem_map_of_mem member
    have free : job.key ∉ q.running := same ▸ before.apart old member
    have distinct := before.distinct
    rw [takeIn_waits waits free]
    change enqueue job q.pending = front ++ job :: back
    rw [enqueue_known distinct known]
    rw [split] at distinct ⊢
    exact refreshed_middle distinct same
  · have last : q'.pending <:+ (q.takeIn job).pending := ⟨_, order.symm⟩
    rcases before.pending_takeIn job with fewer | ⟨new, longer⟩
    · exact ⟨q'.pending, last.sublist.trans fewer, .inl rfl⟩
    · rw [longer] at last
      rcases List.suffix_concat_iff.mp last with none | ⟨kept, same, left⟩
      · exact ⟨[], List.nil_sublist _, .inl none⟩
      · rw [refreshed_of_new new]
        exact ⟨kept, left.sublist, .inr ⟨same, new⟩⟩

/-- Two builds wait while a third one runs; when that ends, the first of them is tried. -/
theorem first_come_first_served_two :
    ∃ es q es' q', Path (Admission.handleAll { limit := 1 }
        [reportedBuild "c" .running, queuedBuild "a", queuedBuild "b"]) es q ∧
      q.pending = [queuedBuild "a", queuedBuild "b"] ∧
      Path (q.handle (reportedBuild "c" .completed)) es' q' ∧ q'.pending = [queuedBuild "b"] ∧
      ∃ tries, Story (q.takeIn (reportedBuild "c" .completed)) tries es' q' ∧
        attemptedIn tries = [queuedBuild "a"] := by
  let full : Admission :=
    { limit := 1, pending := [queuedBuild "a", queuedBuild "b"], running := ["ci/c"] }
  have run : Path (Admission.handleAll { limit := 1 }
      [reportedBuild "c" .running, queuedBuild "a", queuedBuild "b"]) [] full := .done full
  obtain ⟨es', started⟩ := queuedBuild_started "a"
  have handled : Path (full.handle (reportedBuild "c" .completed)) (es' ++ [])
      { limit := 1, pending := [queuedBuild "b"], running := ["ci/a"] } :=
    (path_fill_cons Nat.one_pos).mpr (.inl ⟨es', [], rfl, started, .done _⟩)
  obtain ⟨-, -, ⟨tries, told, -, order⟩, -⟩ := first_come_first_served run handled
  have both : [queuedBuild "a"] ++ [queuedBuild "b"] = attemptedIn tries ++ [queuedBuild "b"] :=
    order
  exact ⟨[], full, _, _, run, rfl, handled, rfl, tries, told, (List.append_cancel_right both).symm⟩

end Gatehouse.Control
