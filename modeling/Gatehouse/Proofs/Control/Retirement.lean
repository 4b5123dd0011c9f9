import Gatehouse.Proofs.Control.HookWork

/-!
# Retiring configs

A config that is being deleted loses its hooks and then the finalizer of the controller. What becomes of the
hooks does not matter to the finalizer: the pass goes on without a client, without a list of hooks, and
after deletions that fail (`retired_configs`). Of the hooks that are listed it tries each one that is
there for the config once, and no other (`Teardown.deletions_listed`).
-/

namespace Gatehouse.Control

open Program Resource

variable {env : Surroundings} {now : Instant} {config : RepoConfig} {ns url : String}
  {client : Git.Client} {es : List Event} {gs : List (Program.Event Git.Query.Outcome)}

/-- The hook that was to be deleted, whatever came of it. -/
def Event.deletion? : Event → Option Int
  | ⟨.git _ (.deleteWebhook id), _⟩ => some id
  | _ => none

/-- The hooks that were to be deleted, in order. -/
def deletions (es : List Event) : List Int := es.filterMap Event.deletion?

theorem deletions_append (first second : List Event) :
    deletions (first ++ second) = deletions first ++ deletions second :=
  List.filterMap_append

theorem deletions_reads (reads : ∀ e ∈ es, Reads e.1) : deletions es = [] := by
  refine List.filterMap_eq_nil_iff.mpr ?_
  rintro ⟨q, r⟩ member
  have asked : Reads q := reads _ member
  cases asked <;> rfl

theorem deletions_attempts {ids : List Int} (each : gs.map Sigma.fst = ids.map Git.Query.deleteWebhook) :
    deletions (gs.map (onGit client)) = ids := by
  induction ids generalizing gs with
  | nil =>
    obtain rfl := List.map_eq_nil_iff.mp each
    rfl
  | cons id rest ih =>
    obtain ⟨⟨q, o⟩, attempts, rfl, rfl, later⟩ := List.map_eq_cons_iff.mp each
    exact congrArg (id :: ·) (ih later)

/-- Of the hooks that a pass lists it tries to delete those for the URL of the config. -/
theorem Teardown.deletions_listed (teardown : Teardown env ns config es)
    (known : hookUrl env ns config = some url) {hooks : List Git.Hook}
    (listed : ⟨.git client .listWebhooks, .ok hooks⟩ ∈ es) :
    deletions es = (hooks.filter (·.url == url)).map (·.id) := by
  have unread {reads : List Event} (quiet : ∀ e ∈ reads, Reads e.1) :
      (⟨.git client .listWebhooks, .ok hooks⟩ : Event) ∉ reads := fun member => by
    cases quiet _ member
  cases teardown with
  | noHost unknown => cases unknown.symm.trans known
  | noClient _ made | noToken _ made => exact absurd listed (unread (asks_clientFor.path made))
  | @cleaned url' known' reads client' made gs deletes =>
    obtain rfl := Option.some.inj (known.symm.trans known')
    have quiet := asks_clientFor.path made
    have listed := (List.mem_append.mp listed).resolve_left (unread quiet)
    obtain ⟨g, member, same⟩ := List.mem_map.mp listed
    obtain ⟨q, o⟩ := g
    cases same
    rw [deletions_append, deletions_reads quiet, List.nil_append]
    cases deletes with
    | unlisted e => cases List.mem_singleton.mp member
    | @tried hooks' attempts each =>
      -- The attempts are deletions, so the list of hooks is the one that comes first.
      have first : hooks = hooks' := by
        rcases List.mem_cons.mp member with same | member
        · cases same
          rfl
        · have asked : Git.Query.listWebhooks ∈ (_ : List Git.Query) :=
            each ▸ List.mem_map_of_mem member
          obtain ⟨hook, -, impossible⟩ := List.mem_map.mp asked
          cases impossible
      subst first
      exact @deletions_attempts _ attempts _ (each.trans List.map_map.symm)

theorem Teardown.deletions_unlisted (teardown : Teardown env ns config es)
    (unlisted : ∀ client hooks, ⟨.git client .listWebhooks, .ok hooks⟩ ∉ es) :
    deletions es = [] := by
  cases teardown with
  | noHost => rfl
  | noClient _ made | noToken _ made => exact deletions_reads (asks_clientFor.path made)
  | cleaned _ made deletes =>
    rw [deletions_append, deletions_reads (asks_clientFor.path made), List.nil_append]
    cases deletes with
    | unlisted e => rfl
    | tried each =>
      exact absurd (List.mem_append_right _ List.mem_cons_self) (unlisted _ _)

/-- A pass over a config that is being deleted and has a place takes down its hooks, and then the
finalizer. -/
theorem course_retired {r : Except Error Schedule} (deleting : config.isDeleting = true)
    (own : configFinalizer ∈ config.finalizers) :
    Course (reconcileConfig env now config) es r ↔
      config.metadata.inNamespace = none ∧ es = [] ∧ r = .error .missingNamespace ∨
      ∃ ns cleanup o, config.metadata.inNamespace = some ns ∧ Teardown env ns config cleanup ∧
        es = cleanup ++
          [⟨.cluster (.patchConfigFinalizers config (config.finalizers.erase configFinalizer)), o⟩] ∧
        r = o.map fun _ => .awaitChange := by
  constructor
  · intro course
    cases ConfigCourse.of_course course with
    | unplaced nowhere => exact .inl ⟨nowhere, rfl, rfl⟩
    | released place _ _ deleted o =>
      exact .inr ⟨_, _, o, place, (course_deleteHooks_iff.mp deleted).1, rfl, rfl⟩
    | left _ _ foreign => exact absurd own foreign
    | claimed _ alive | upToDate _ alive | renewed _ alive => cases deleting.symm.trans alive
  · have contained : config.finalizers.contains configFinalizer = true := by simpa using own
    unfold reconcileConfig namespaceOf
    rintro (⟨nowhere, rfl, rfl⟩ | ⟨ns, cleanup, o, place, teardown, rfl, rfl⟩)
    · rw [nowhere]
      exact course_lift_bind.mpr (.inl ⟨_, rfl, rfl, rfl⟩)
    · rw [place]
      refine course_lift_bind.mpr (.inr ⟨ns, rfl, ?_⟩)
      rw [if_pos deleting, retireConfig, if_pos contained]
      exact course_bind.mpr (.inr ⟨cleanup, (), _, rfl, course_deleteHooks_iff.mpr ⟨teardown, rfl⟩,
        course_askCluster_then.mpr ⟨o, rfl, rfl⟩⟩)

/-- A config that is being deleted and has the finalizer: where it has no namespace, the pass fails and asks
nothing. Otherwise, however the deletion of its hooks goes, the pass then gives the config its finalizers
without the first one of its own, and fails only if that is refused. If the hooks are listed, it tries
to delete each one of them that is there for the URL of the config, once, and no other hook ever. -/
theorem retired_configs (deleting : config.isDeleting = true)
    (own : configFinalizer ∈ config.finalizers) :
    (∃ before after, config.finalizers = before ++ configFinalizer :: after ∧
      configFinalizer ∉ before ∧ config.finalizers.erase configFinalizer = before ++ after) ∧
    (∀ es r, Course (reconcileConfig env now config) es r ↔
      config.metadata.inNamespace = none ∧ es = [] ∧ r = .error .missingNamespace ∨
      ∃ ns cleanup o, config.metadata.inNamespace = some ns ∧ Teardown env ns config cleanup ∧
        es = cleanup ++
          [⟨.cluster (.patchConfigFinalizers config (config.finalizers.erase configFinalizer)), o⟩] ∧
        r = o.map fun _ => .awaitChange) ∧
    ∀ ns cleanup, Teardown env ns config cleanup →
      (∀ url client hooks, hookUrl env ns config = some url →
        ⟨.git client .listWebhooks, .ok hooks⟩ ∈ cleanup →
        deletions cleanup = (hooks.filter (·.url == url)).map (·.id)) ∧
      ((∀ client hooks, ⟨.git client .listWebhooks, .ok hooks⟩ ∉ cleanup) →
        deletions cleanup = []) := by
  obtain ⟨before, after, first, split, erased⟩ := List.exists_erase_eq own
  refine ⟨⟨before, after, split, first, erased⟩, fun es r => course_retired deleting own, ?_⟩
  intro ns cleanup teardown
  exact ⟨fun url client hooks known => teardown.deletions_listed known, teardown.deletions_unlisted⟩

/-- A config with the finalizer among others, that is being deleted. -/
def retiring : RepoConfig where
  metadata := {
    name := some "repo", inNamespace := some "ci"
    finalizers := some ["a", configFinalizer, "b", configFinalizer]
    deletionTimestamp := some default }
  spec.git := { provider := .fake, repository := "org/repo", token := some ⟨"git", "token"⟩ }
  spec.pipelineRef := "build"

/-- The hooks of a repository: two of the config `retiring`, and one of others between them. -/
def crowdedHooks : List Git.Hook :=
  [⟨7, "http://h/webhook/ci/repo"⟩, ⟨8, "http://other"⟩, ⟨9, "http://h/webhook/ci/repo"⟩]

/-- The hooks are listed, and the first of the config cannot be deleted. -/
def hardCleanup : List Event :=
  [⟨.cluster (.readSecret "ci" "git" "token"), .ok (some "t")⟩,
    ⟨.git (.inMemory "org/repo") .listWebhooks, .ok crowdedHooks⟩,
    ⟨.git (.inMemory "org/repo") (.deleteWebhook 7), .error (.api 500 "down")⟩,
    ⟨.git (.inMemory "org/repo") (.deleteWebhook 9), .ok ()⟩]

theorem retired_configs_hard :
    let env : Surroundings := ⟨{ externalHostname := some "h" }, true⟩
    retiring.isDeleting = true ∧ configFinalizer ∈ retiring.finalizers ∧
    deletions hardCleanup = [7, 9] ∧
    retiring.finalizers.erase configFinalizer = ["a", "b", configFinalizer] ∧
    Course (reconcileConfig env default retiring)
      (hardCleanup ++ [⟨.cluster (.patchConfigFinalizers retiring
        (retiring.finalizers.erase configFinalizer)), .ok ()⟩])
      (.ok .awaitChange) := by
  intro env
  have known : hookUrl env "ci" retiring = some "http://h/webhook/ci/repo" := by decide
  have made : Course (clientFor true retiring)
      [⟨.cluster (.readSecret "ci" "git" "token"), .ok (some "t")⟩]
      (.ok (some (.inMemory "org/repo"))) := .ask _ _ (.done _)
  have deletes : Cleanup "http://h/webhook/ci/repo"
      [⟨.listWebhooks, .ok crowdedHooks⟩, ⟨.deleteWebhook 7, .error (.api 500 "down")⟩,
        ⟨.deleteWebhook 9, .ok ()⟩] := .tried rfl
  have teardown : Teardown env "ci" retiring hardCleanup := .cleaned known made deletes
  obtain ⟨-, courses, deleted⟩ :=
    @retired_configs env default retiring rfl (by decide)
  refine ⟨rfl, by decide, ?_, by decide, ?_⟩
  · have listed : ⟨.git (.inMemory "org/repo") .listWebhooks, .ok crowdedHooks⟩ ∈ hardCleanup :=
      List.mem_cons_of_mem _ List.mem_cons_self
    exact (deleted "ci" _ teardown).1 _ _ _ known listed
  · exact (courses _ _).mpr (.inr ⟨"ci", hardCleanup, .ok (), rfl, teardown, rfl, rfl⟩)

end Gatehouse.Control
