import Gatehouse.Proofs.Control.ConfigSettled
import Gatehouse.Proofs.Control.HookWork
import Gatehouse.Proofs.Control.ResetDelay

/-!
# How passes over configs end

A pass over a config fails where the config has no namespace and where one of its patches is refused, and
nowhere else. A rate limit that keeps it from registering the webhook makes it come back when the limit ends
(`config_outcome`). All other failures on the way to the provider, and that one too, end up in the condition
about the webhook, in their own words.
-/

namespace Gatehouse.Control

open Program Resource

variable {env : Surroundings} {now : Instant} {config : RepoConfig} {ns url : String}
  {es reads : List Event} {e : Error} {r : Except Error Schedule} {f : Finding}

/-! Patches that are refused. -/

/-- The event is a patch of a config that was refused for a reason. -/
inductive Refuses (e : Error) : Event → Prop
  | finalizers (config : RepoConfig) (fs : List String) :
      Refuses e ⟨.cluster (.patchConfigFinalizers config fs), .error e⟩
  | status (config : RepoConfig) (s : RepoConfigStatus) :
      Refuses e ⟨.cluster (.patchConfigStatus config s), .error e⟩

theorem refuses_finalizers {fs : List String} {o : Except Error Unit} :
    Refuses e ⟨.cluster (.patchConfigFinalizers config fs), o⟩ ↔ o = .error e := by
  constructor
  · rintro ⟨⟩
    rfl
  · rintro rfl
    exact .finalizers config fs

theorem refuses_status {s : RepoConfigStatus} {o : Except Error Unit} :
    Refuses e ⟨.cluster (.patchConfigStatus config s), o⟩ ↔ o = .error e := by
  constructor
  · rintro ⟨⟩
    rfl
  · rintro rfl
    exact .status config s

theorem Event.Aside.not_refuses {event : Event} (aside : event.Aside) : ¬ Refuses e event := by
  rintro ⟨⟩ <;> cases aside

/-- Behind questions that change nothing, only the last step can be refused. -/
theorem refused_last (quiet : ∀ event ∈ reads, event.Aside) {last : Event} :
    (∃ event ∈ reads ++ [last], Refuses e event) ↔ Refuses e last := by
  constructor
  · rintro ⟨event, member, refused⟩
    rcases List.mem_append.mp member with member | member
    · exact absurd refused (quiet event member).not_refuses
    · rwa [List.mem_singleton.mp member] at refused
  · exact fun refused => ⟨last, by simp, refused⟩

theorem map_eq_error {α β : Type} {o : Except Error α} {g : α → β} :
    o.map g = .error e ↔ o = .error e := by
  cases o <;> simp [Except.map]

/-- A pass fails without a namespace and where a patch is refused, and nowhere else. -/
theorem ConfigCourse.error_iff (course : ConfigCourse env now config es r) :
    r = .error e ↔ config.metadata.inNamespace = none ∧ e = .missingNamespace ∨
      ∃ event ∈ es, Refuses e event := by
  have placed {ns : String} (place : config.metadata.inNamespace = some ns) {P : Prop} :
      (config.metadata.inNamespace = none ∧ e = .missingNamespace ∨ P) ↔ P := by
    simp [place]
  cases course with
  | unplaced nowhere =>
    simp [nowhere, eq_comm]
  | claimed place _ _ o =>
    rw [placed place]
    simp only [List.mem_singleton, exists_eq_left, refuses_finalizers, map_eq_error]
  | released place _ _ deleted o =>
    rw [placed place, refused_last (course_deleteHooks deleted).1, refuses_finalizers, map_eq_error]
  | left place =>
    rw [placed place]
    simp
  | upToDate place _ _ inspected =>
    rw [placed place]
    refine ⟨nofun, ?_⟩
    rintro ⟨event, member, refused⟩
    exact absurd refused (aside_inspect inspected event member).not_refuses
  | renewed place _ _ inspected _ o =>
    rw [placed place, refused_last (aside_inspect inspected), refuses_status, map_eq_error]

theorem ConfigCourse.unrefused {ended : Schedule} (course : ConfigCourse env now config es r)
    (done : r = .ok ended) : ∀ event ∈ es, ∀ e, ¬ Refuses e event := by
  intro event member e refused
  cases done.symm.trans (course.error_iff.mpr (.inr ⟨event, member, refused⟩))

/-! Attempts to register. -/

/-- A pass over the config tries to register its webhook. -/
structure Attempts (config : RepoConfig) (ns : String) : Prop where
  place : config.metadata.inNamespace = some ns
  alive : config.isDeleting = false
  own : configFinalizer ∈ config.finalizers
  unregistered : ¬ (knownStatus config).isTrue webhookRegistered = true

/-- Why hooks could not be listed, or one could not be registered. -/
def Event.registrationError? : Event → Option Git.Error
  | ⟨.git _ .listWebhooks, .error e⟩ => some e
  | ⟨.git _ (.registerWebhook _), .error e⟩ => some e
  | _ => none

theorem registrationError?_onCluster (apart : ∀ event ∈ es, event.OnCluster) :
    ∀ event ∈ es, event.registrationError? = none := by
  rintro ⟨q, r⟩ member
  have requested := apart _ member
  cases q with
  | cluster q => rfl
  | git _ _ | notify _ => cases requested

theorem Search.failed_iff (search : Search env ns config es f) (e : Git.Error) :
    f = .failed e ↔ ∃ event ∈ es, event.registrationError? = some e := by
  have read {reads : List Event} {o : Except Error (Option Git.Client)}
      (made : Course (clientFor env.hasStore config) reads o) :
      ∀ event ∈ reads, event.registrationError? = none :=
    registrationError?_onCluster fun event member => (asks_clientFor.path made event member).onCluster
  have none_ {reads : List Event} (silent : ∀ event ∈ reads, event.registrationError? = none) :
      ¬ ∃ event ∈ reads, event.registrationError? = some e := by
    rintro ⟨event, member, told⟩
    cases (silent event member).symm.trans told
  cases search with
  | noHost => simp
  | noClient _ made | noToken _ made => exact iff_of_false nofun (none_ (read made))
  | @tried url _ reads client made gs o registers =>
    have only : (∃ event ∈ reads ++ gs.map (onGit client), event.registrationError? = some e) ↔
        ∃ g ∈ gs, (onGit client g).registrationError? = some e := by
      constructor
      · rintro ⟨event, member, told⟩
        rcases List.mem_append.mp member with member | member
        · exact absurd ⟨event, member, told⟩ (none_ (read made))
        · obtain ⟨g, there, rfl⟩ := List.mem_map.mp member
          exact ⟨g, there, told⟩
      · rintro ⟨g, member, told⟩
        exact ⟨_, List.mem_append_right _ (List.mem_map_of_mem member), told⟩
    rw [only]
    cases registers with
    | unlisted e' => simp [Finding.ofOutcome, Event.registrationError?, onGit]
    | there own => simp [Finding.ofOutcome, Event.registrationError?, onGit]
    | registered new o =>
      cases o <;> simp [Finding.ofOutcome, Except.map, Event.registrationError?, onGit]

/-- Where the client could not be made, that is what a search finds. -/
theorem Search.noClient_of_made (search : Search env ns config es f)
    (known : hookUrl env ns config = some url) {begun rest rest' : List Event}
    (made : Course (clientFor env.hasStore config) begun (.error e))
    (same : es ++ rest = begun ++ rest') : f = .noClient e := by
  cases search with
  | noHost unknown => cases unknown.symm.trans known
  | noClient _ made' | noToken _ made' =>
    obtain ⟨-, outcome, -⟩ := Path.unique made' made same
    cases outcome <;> rfl
  | tried _ made' registers =>
    rw [List.append_assoc] at same
    obtain ⟨-, impossible, -⟩ := Path.unique made' made same
    cases impossible

/-- A pass that tries to register puts down what it found, unless that is put down already. -/
theorem Attempts.of_course (attempts : Attempts config ns)
    (course : ConfigCourse env now config es r) :
    ∃ reads f, Search env ns config reads f ∧ Path (inspect env ns config) reads f ∧
      let s := withReady now ((knownStatus config).set (f.condition now))
      (es = reads ∧ r = .ok (f.schedule now) ∧ config.status = some s ∨
        ∃ o, es = reads ++ [⟨.cluster (.patchConfigStatus config s), o⟩] ∧
          r = o.map fun _ => f.schedule now) := by
  obtain ⟨place, alive, own, unregistered⟩ := attempts
  have searched (env : Surroundings) : inspect env ns config = findHook env ns config :=
    if_neg unregistered
  cases course with
  | unplaced nowhere => cases nowhere.symm.trans place
  | claimed _ _ new => exact absurd own new
  | released _ deleting | left _ deleting => cases alive.symm.trans deleting
  | upToDate place' _ _ inspected same =>
    obtain rfl := Option.some.inj (place.symm.trans place')
    rw [renewed_unregistered _ unregistered] at same
    exact ⟨_, _, .of_path (searched env ▸ inspected), inspected, .inl ⟨rfl, rfl, same⟩⟩
  | renewed place' _ _ inspected _ o =>
    obtain rfl := Option.some.inj (place.symm.trans place')
    rw [renewed_unregistered _ unregistered]
    exact ⟨_, _, .of_path (searched env ▸ inspected), inspected, .inr ⟨o, rfl, rfl⟩⟩

/-- Only a pass that tries to register comes back after a time. -/
theorem ConfigCourse.attempts {s : Schedule} (course : ConfigCourse env now config es (.ok s))
    (delayed : s ≠ .awaitChange) : ∃ ns, Attempts config ns := by
  generalize ended : (Except.ok s : Except Error Schedule) = r at course
  have inspected {ns : String} (place : config.metadata.inNamespace = some ns)
      (alive : config.isDeleting = false) (own : configFinalizer ∈ config.finalizers)
      {reads : List Event} {f : Finding} (path : Path (inspect env ns config) reads f)
      (scheduled : s = f.schedule now) : Attempts config ns := by
    refine ⟨place, alive, own, fun registered => ?_⟩
    rw [inspect, if_pos registered] at path
    obtain ⟨-, rfl⟩ := path_done.mp path
    exact delayed scheduled
  cases course with
  | unplaced => cases ended
  | left => exact absurd (Except.ok.inj ended) delayed
  | claimed _ _ _ o | released _ _ _ _ o =>
    cases o with
    | error e => cases ended
    | ok => exact absurd (Except.ok.inj ended) delayed
  | upToDate place alive own path _ => exact ⟨_, inspected place alive own path (Except.ok.inj ended)⟩
  | renewed place alive own path _ o =>
    cases o with
    | error e => cases ended
    | ok => exact ⟨_, inspected place alive own path (Except.ok.inj ended)⟩

/-- Only a rate limit makes a pass come back after a time. -/
theorem Finding.limited (delayed : f.schedule now ≠ .awaitChange) :
    ∃ reset text, f = .failed (.rateLimited reset text) := by
  cases f with
  | failed e =>
    cases e with
    | rateLimited reset text => exact ⟨reset, text, rfl⟩
    | _ => exact absurd rfl delayed
  | _ => exact absurd rfl delayed

/-- What an attempt to register found out, and what came of that. -/
structure Found (env : Surroundings) (now : Instant) (config : RepoConfig) (ns : String)
    (es : List Event) (r : Except Error Schedule) (f : Finding) : Prop where
  noClient : ∀ e url begun rest, hookUrl env ns config = some url → es = begun ++ rest →
    Course (clientFor env.hasStore config) begun (.error e) → f = .noClient e
  failed : ∀ e, f = .failed e ↔ ∃ event ∈ es, event.registrationError? = some e
  ended : r = .ok (f.schedule now) ∨ ∃ e, r = .error e
  told : ∃ s c, (config.status = some s ∧ configWrites es = [] ∨ configWrites es = [s]) ∧
    s.condition? webhookRegistered = some c ∧ c.Agrees (f.condition now)

theorem Attempts.found (attempts : Attempts config ns) (course : ConfigCourse env now config es r) :
    ∃ f, Found env now config ns es r f := by
  obtain ⟨reads, f, search, path, ended⟩ := attempts.of_course course
  have quiet : configWrites reads = [] := configWrites_aside (aside_inspect path)
  have told : (withReady now ((knownStatus config).set (f.condition now))).condition?
      webhookRegistered = some ((knownStatus config).placed (f.condition now)) := by
    rw [condition?_withReady, if_neg webhookRegistered_ne_ready, RepoConfigStatus.condition?_set]
    rfl
  have agrees := (knownStatus config).placed_agrees (f.condition now)
  refine ⟨f, ?_⟩
  rcases ended with ⟨rfl, ended, same⟩ | ⟨o, rfl, ended⟩
  · refine ⟨?_, search.failed_iff, .inl ended, _, _, .inl ⟨same, quiet⟩, told, agrees⟩
    intro e url begun rest known split made
    have whole : es ++ [] = begun ++ rest := by rw [List.append_nil, split]
    exact search.noClient_of_made known made whole
  · refine ⟨?_, ?_, ?_, _, _, .inr ?_, told, agrees⟩
    · intro e url begun rest known split made
      exact search.noClient_of_made known made split
    · intro e
      rw [search.failed_iff]
      simp [Event.registrationError?, or_and_right, exists_or]
    · cases o with
      | ok => exact .inl ended
      | error e => exact .inr ⟨e, ended⟩
    · rw [configWrites_append, quiet]
      rfl

/-- A pass that comes back after a time tried to register and was told of a rate limit, and it comes back
when that ends. -/
theorem ConfigCourse.limited {s : Schedule} (course : ConfigCourse env now config es (.ok s))
    (delayed : s ≠ .awaitChange)
    (inRange : ∀ event ∈ es, ∀ reset text,
      event.registrationError? = some (.rateLimited reset text) →
        Text.isInt64 (reset - now.epochSeconds) = true) :
    ∃ ns, Attempts config ns ∧ ∃ event ∈ es, ∃ reset text,
      event.registrationError? = some (.rateLimited reset text) ∧
        s = .requeue (wait now.epochSeconds reset).toNat := by
  obtain ⟨ns, attempts⟩ := course.attempts delayed
  obtain ⟨f, found⟩ := attempts.found course
  have scheduled : s = f.schedule now := by
    rcases found.ended with ended | ⟨e, impossible⟩
    · exact Except.ok.inj ended
    · cases impossible
  obtain ⟨reset, text, rfl⟩ := Finding.limited (scheduled ▸ delayed)
  obtain ⟨event, member, told⟩ := (found.failed _).mp rfl
  refine ⟨ns, attempts, event, member, reset, text, told, ?_⟩
  exact scheduled.trans (retryAfter_ok (inRange event member reset text told) text)

/-- A pass comes back after a time if it tried to register, was told of a rate limit, and no patch was
refused. -/
theorem ConfigCourse.requeue_iff (course : ConfigCourse env now config es r)
    (inRange : ∀ event ∈ es, ∀ reset text,
      event.registrationError? = some (.rateLimited reset text) →
        Text.isInt64 (reset - now.epochSeconds) = true) (n : Nat) :
    r = .ok (.requeue n) ↔ (∃ ns, Attempts config ns) ∧
      (∀ event ∈ es, ∀ e, ¬ Refuses e event) ∧
      ∃ event ∈ es, ∃ reset text, event.registrationError? = some (.rateLimited reset text) ∧
        n = (wait now.epochSeconds reset).toNat := by
  constructor
  · rintro rfl
    obtain ⟨ns, attempts, event, member, reset, text, told, same⟩ := course.limited nofun inRange
    exact ⟨⟨ns, attempts⟩, course.unrefused rfl, event, member, reset, text, told,
      Schedule.requeue.inj same⟩
  · rintro ⟨⟨ns, attempts⟩, unrefused, event, member, reset, text, told, rfl⟩
    obtain ⟨f, found⟩ := attempts.found course
    rcases found.ended with rfl | ⟨e, rfl⟩
    · obtain rfl := (found.failed _).mpr ⟨event, member, told⟩
      exact congrArg Except.ok (retryAfter_ok (inRange event member reset text told) text)
    · rcases course.error_iff.mp rfl with ⟨nowhere, -⟩ | ⟨event, member, refused⟩
      · cases nowhere.symm.trans attempts.place
      · exact absurd refused (unrefused event member e)

/-- A pass waits for the config to change if it does not fail and was told of no rate limit. -/
theorem ConfigCourse.awaitChange_iff (course : ConfigCourse env now config es r)
    (inRange : ∀ event ∈ es, ∀ reset text,
      event.registrationError? = some (.rateLimited reset text) →
        Text.isInt64 (reset - now.epochSeconds) = true) :
    r = .ok .awaitChange ↔ config.metadata.inNamespace ≠ none ∧
      (∀ event ∈ es, ∀ e, ¬ Refuses e event) ∧
      ∀ ns, Attempts config ns → ∀ event ∈ es, ∀ reset text,
        event.registrationError? ≠ some (.rateLimited reset text) := by
  constructor
  · rintro rfl
    refine ⟨?_, course.unrefused rfl, ?_⟩
    · intro nowhere
      cases course.error_iff.mpr (.inl ⟨nowhere, rfl⟩)
    · intro ns attempts event member reset text limited
      cases (course.requeue_iff inRange _).mpr
        ⟨⟨ns, attempts⟩, course.unrefused rfl, event, member, reset, text, limited, rfl⟩
  · rintro ⟨placed, unrefused, unlimited⟩
    cases r with
    | error e =>
      rcases course.error_iff.mp rfl with ⟨nowhere, -⟩ | ⟨event, member, refused⟩
      · exact absurd nowhere placed
      · exact absurd refused (unrefused event member e)
    | ok s =>
      by_cases waiting : s = .awaitChange
      · rw [waiting]
      · obtain ⟨ns, attempts, event, member, reset, text, told, -⟩ := course.limited waiting inRange
        exact absurd told (unlimited ns attempts event member reset text)

/-- How a pass over a config ends. It fails where the config has no namespace, and with the refusal of a
patch. It comes back after a time exactly if it tried to register the webhook, was told of a rate limit
when it listed or registered hooks, and no patch was refused; the time is up to the end of the limit, and
a second at least. Otherwise it waits for the config to change. After an attempt to register, what kept
the client from being made, or the hooks from being listed or registered, is told by the condition about
the webhook of the status that the config has or was to get. -/
theorem config_outcome (course : Course (reconcileConfig env now config) es r)
    (inRange : ∀ event ∈ es, ∀ reset text,
      event.registrationError? = some (.rateLimited reset text) →
        Text.isInt64 (reset - now.epochSeconds) = true) :
    (∀ e, r = .error e ↔ config.metadata.inNamespace = none ∧ e = .missingNamespace ∨
      ∃ event ∈ es, Refuses e event) ∧
    (∀ n, r = .ok (.requeue n) ↔ (∃ ns, Attempts config ns) ∧
      (∀ event ∈ es, ∀ e, ¬ Refuses e event) ∧
      ∃ event ∈ es, ∃ reset text, event.registrationError? = some (.rateLimited reset text) ∧
        n = (wait now.epochSeconds reset).toNat) ∧
    (r = .ok .awaitChange ↔ config.metadata.inNamespace ≠ none ∧
      (∀ event ∈ es, ∀ e, ¬ Refuses e event) ∧
      ∀ ns, Attempts config ns → ∀ event ∈ es, ∀ reset text,
        event.registrationError? ≠ some (.rateLimited reset text)) ∧
    ∀ ns, Attempts config ns → ∃ s c,
      (config.status = some s ∧ configWrites es = [] ∨ configWrites es = [s]) ∧
      s.condition? webhookRegistered = some c ∧
      (∀ e url begun rest, hookUrl env ns config = some url → es = begun ++ rest →
        Course (clientFor env.hasStore config) begun (.error e) →
        c.status = .fails ∧ c.reason = "gitCliErr" ∧ c.message = e.message) ∧
      ∀ e, (∃ event ∈ es, event.registrationError? = some e) →
        c.status = .fails ∧ c.reason = "webhookRegisterFailed" ∧ c.message = e.message := by
  have course : ConfigCourse env now config es r := .of_course course
  refine ⟨fun e => course.error_iff, course.requeue_iff inRange, course.awaitChange_iff inRange,
    fun ns attempts => ?_⟩
  obtain ⟨f, found⟩ := attempts.found course
  obtain ⟨s, c, stored, said, agrees⟩ := found.told
  refine ⟨s, c, stored, said, ?_, ?_⟩
  · intro e url begun rest known split made
    obtain rfl := found.noClient e url begun rest known split made
    exact ⟨agrees.status, agrees.reason, agrees.message⟩
  · intro e told
    obtain rfl := (found.failed e).mpr told
    exact ⟨agrees.status, agrees.reason, agrees.message⟩

theorem config_outcome_limited :
    let env : Surroundings := ⟨{ externalHostname := some "ci.example.com" }, true⟩
    let pass := reconcileConfig env default oddConfig
    let es : List Event := pass.run.asked limitedAnswer
    Attempts oddConfig "ci" ∧ Course pass es (.ok (.requeue 100)) ∧
    (∀ event ∈ es, ∀ e, ¬ Refuses e event) ∧
    ∃ s c, configWrites es = [s] ∧ s.condition? webhookRegistered = some c ∧
      c.status = .fails ∧ c.reason = "webhookRegisterFailed" ∧
      c.message = "ratelimit::100. Rate limit exceeded, code 429" := by
  intro env pass es
  have attempts : Attempts oddConfig "ci" := ⟨rfl, rfl, by decide, by decide⟩
  have course : Course pass es (.ok (.requeue 100)) := path_asked limitedAnswer pass.run
  have inRange : ∀ event ∈ es, ∀ reset text,
      event.registrationError? = some (.rateLimited reset text) →
        Text.isInt64 (reset - (default : Instant).epochSeconds) = true := by
    rintro ⟨q, o⟩ member reset text told
    obtain rfl : o = limitedAnswer q := answer_of_mem_asked limitedAnswer pass.run _ member
    cases q with
    | cluster _ | notify _ => cases told
    | git _ q => cases q <;> cases told <;> decide
  obtain ⟨-, delays, -, told⟩ := config_outcome course inRange
  obtain ⟨-, unrefused, -⟩ := (delays 100).mp rfl
  obtain ⟨s, c, stored, said, -, failed⟩ := told "ci" attempts
  have limited : ∃ event ∈ es,
      event.registrationError? = some (.rateLimited 100 "code 429") :=
    ⟨_, List.mem_cons_of_mem _ List.mem_cons_self, rfl⟩
  obtain ⟨fails, reason, message⟩ := failed _ limited
  refine ⟨attempts, course, unrefused, s, c, ?_, said, fails, reason, message⟩
  rcases stored with ⟨same, unwritten⟩ | written
  · cases unwritten
  · exact written

end Gatehouse.Control
