import Gatehouse.Proofs.Control.ConfigCourse
import Gatehouse.Proofs.Control.Task

/-!
# What a pass over a config asks of its provider

A pass works with at most one client. Over a config that is there it lists the hooks and registers its
own unless it is listed (`Registration`); over one that is being deleted it lists the hooks and tries
to delete each of its own (`Cleanup`). Nothing else is ever asked (`HookWork.of_course`). A pass that
breaks off has asked for the beginning of that (`HookWork.begun`).
-/

namespace Gatehouse.Control

open Program Resource

variable {env : Surroundings} {now : Instant} {config : RepoConfig} {ns url : String}
  {client : Git.Client} {es : List Event} {gs : List (Program.Event Git.Query.Outcome)}

/-- The operations of git providers among events. -/
def operations (es : List Event) : List (Program.Event Git.Query.Outcome) :=
  es.filterMap Event.operation?

theorem operations_append (first second : List Event) :
    operations (first ++ second) = operations first ++ operations second :=
  List.filterMap_append

theorem mem_operations {g : Program.Event Git.Query.Outcome} :
    g ∈ operations es ↔ ∃ client, onGit client g ∈ es := by
  constructor
  · intro member
    obtain ⟨⟨q, r⟩, there, picked⟩ := List.mem_filterMap.mp member
    cases q with
    | git client q =>
      obtain rfl := Option.some.inj picked
      exact ⟨client, there⟩
    | cluster q | notify job => cases picked
  · rintro ⟨client, member⟩
    exact List.mem_filterMap.mpr ⟨_, member, rfl⟩

/-- The event is a request to the cluster. -/
def Event.OnCluster : Event → Prop
  | ⟨.cluster _, _⟩ => True
  | _ => False

theorem Reads.onCluster {e : Event} (reads : Reads e.1) : e.OnCluster := by
  obtain ⟨q, r⟩ := e
  cases reads <;> trivial

theorem operations_onCluster (apart : ∀ e ∈ es, e.OnCluster) : operations es = [] := by
  refine List.filterMap_eq_nil_iff.mpr ?_
  rintro ⟨q, r⟩ member
  have requested := apart _ member
  cases q with
  | cluster q => rfl
  | git _ _ | notify _ => cases requested

/-- The event is no operation of a git provider through another client. -/
def Event.Via (client : Git.Client) : Event → Prop
  | ⟨.git c _, _⟩ => c = client
  | _ => True

theorem via_onCluster (apart : ∀ e ∈ es, e.OnCluster) : ∀ e ∈ es, e.Via client := by
  rintro ⟨q, r⟩ member
  have requested := apart _ member
  cases q with
  | cluster q => trivial
  | git _ _ | notify _ => cases requested

theorem via_onGit : ∀ e ∈ gs.map (onGit client), e.Via client := by
  intro e member
  obtain ⟨g, -, rfl⟩ := List.mem_map.mp member
  rfl

/-- The URL that the webhook of a config is registered for. -/
def ownUrl (env : Surroundings) (config : RepoConfig) : Option String :=
  config.metadata.inNamespace.bind fun ns => hookUrl env ns config

theorem ownUrl_placed (place : config.metadata.inNamespace = some ns) :
    ownUrl env config = hookUrl env ns config := by
  rw [ownUrl, place, Option.bind_some]

/-! Registration. -/

/-- Registering a hook unless there is one: what is asked, and how it ends. -/
inductive Registration (url : String) :
    List (Program.Event Git.Query.Outcome) → Except Git.Error Bool → Prop
  | unlisted (e : Git.Error) : Registration url [⟨.listWebhooks, .error e⟩] (.error e)
  | there {hooks : List Git.Hook} (own : ∃ hook ∈ hooks, hook.url = url) :
      Registration url [⟨.listWebhooks, .ok hooks⟩] (.ok true)
  | registered {hooks : List Git.Hook} (new : ∀ hook ∈ hooks, hook.url ≠ url)
      (r : Except Git.Error Unit) :
      Registration url [⟨.listWebhooks, .ok hooks⟩, ⟨.registerWebhook url, r⟩] (r.map fun _ => false)

theorem Registration.of_path {o : Except Git.Error Bool}
    (path : Path (ensureRegistered url).run gs o) : Registration url gs o := by
  unfold ensureRegistered at path
  rcases path_andThen.mp path with ⟨e, rfl, asked⟩ | ⟨first, hooks, rest, rfl, asked, after⟩
  · obtain rfl := path_query.mp asked
    exact .unlisted e
  obtain rfl := path_query.mp asked
  split at after
  · rename_i own
    obtain ⟨rfl, rfl⟩ := path_done.mp after
    exact .there (by simpa using own)
  · rename_i new
    have new : ∀ hook ∈ hooks, hook.url ≠ url := by simpa using new
    rcases path_andThen.mp after with ⟨e, rfl, asked⟩ | ⟨second, v, rest, rfl, asked, ended⟩
    · obtain rfl := path_query.mp asked
      exact .registered new (.error e)
    · obtain rfl := path_query.mp asked
      obtain ⟨rfl, rfl⟩ := path_done.mp ended
      exact .registered new (.ok v)

/-! Deletion. -/

/-- Deleting the hooks of a URL: each one listed with it is tried once, whatever becomes of the
others. -/
inductive Cleanup (url : String) : List (Program.Event Git.Query.Outcome) → Prop
  | unlisted (e : Git.Error) : Cleanup url [⟨.listWebhooks, .error e⟩]
  | tried {hooks : List Git.Hook} {attempts : List (Program.Event Git.Query.Outcome)}
      (each : attempts.map Sigma.fst =
        (hooks.filter (·.url == url)).map fun hook => Git.Query.deleteWebhook hook.id) :
      Cleanup url (⟨.listWebhooks, .ok hooks⟩ :: attempts)

theorem course_viaGit_iff {α : Type} {action : Git.Action α}
    {r : Except Error (Except Git.Error α)} :
    Course (viaGit client action) es r ↔
      ∃ gs o, es = gs.map (onGit client) ∧ Path action.run gs o ∧ r = .ok o := by
  constructor
  · intro course
    obtain ⟨first, o, second, rfl, served, ended⟩ := path_bind.mp course
    obtain ⟨rfl, rfl⟩ := path_done.mp ended
    obtain ⟨gs, rfl, path⟩ := path_through.mp served
    exact ⟨gs, o, List.append_nil _, path, rfl⟩
  · rintro ⟨gs, o, rfl, path, rfl⟩
    have served : Path (through client action.run) (gs.map (onGit client)) o :=
      path_through.mpr ⟨gs, rfl, path⟩
    have whole : Course (viaGit client action) (gs.map (onGit client) ++ []) (.ok o) :=
      served.bind (.done _)
    rwa [List.append_nil] at whole

/-- All ways to try deletions: each is tried once, in order, and none keeps the others from being tried. -/
theorem course_deleteAll_iff {ids : List Int} {r : Except Error Unit} :
    Course (deleteAll client ids) es r ↔
      ∃ gs : List (Program.Event Git.Query.Outcome), es = gs.map (onGit client) ∧
        gs.map Sigma.fst = ids.map Git.Query.deleteWebhook ∧ r = .ok () := by
  induction ids generalizing es with
  | nil =>
    refine course_pure.trans ⟨?_, ?_⟩
    · rintro ⟨rfl, rfl⟩
      exact ⟨[], rfl, rfl, rfl⟩
    · rintro ⟨gs, rfl, none, rfl⟩
      obtain rfl := List.map_eq_nil_iff.mp none
      exact ⟨rfl, rfl⟩
  | cons id rest ih =>
    constructor
    · intro course
      rcases course_bind.mp course with ⟨e, -, tried⟩ | ⟨first, o, second, rfl, tried, later⟩
      · obtain ⟨gs, o, -, -, impossible⟩ := course_viaGit_iff.mp tried
        cases impossible
      · obtain ⟨gs, o, rfl, asked, -⟩ := course_viaGit_iff.mp tried
        obtain rfl := path_query.mp asked
        obtain ⟨attempts, rfl, each, rfl⟩ := ih.mp later
        refine ⟨⟨.deleteWebhook id, o⟩ :: attempts, rfl, ?_, rfl⟩
        rw [List.map_cons, List.map_cons, each]
    · rintro ⟨gs, rfl, each, rfl⟩
      obtain ⟨⟨q, o⟩, attempts, rfl, rfl, later⟩ := List.map_eq_cons_iff.mp each
      have tried : Course (viaGit client (Git.ask (.deleteWebhook id)))
          [onGit client ⟨.deleteWebhook id, o⟩] (.ok o) :=
        course_viaGit_iff.mpr ⟨[⟨.deleteWebhook id, o⟩], o, rfl, path_query.mpr rfl, rfl⟩
      exact course_bind.mpr (.inr ⟨_, o, _, rfl, tried, ih.mpr ⟨attempts, rfl, later, rfl⟩⟩)

/-- Every way in which the hooks of a config can be deleted, up to the deletions that were tried. -/
inductive Teardown (env : Surroundings) (ns : String) (config : RepoConfig) : List Event → Prop
  | noHost (unknown : hookUrl env ns config = none) : Teardown env ns config []
  | noClient {url : String} (known : hookUrl env ns config = some url) {reads : List Event}
      {e : Error} (made : Course (clientFor env.hasStore config) reads (.error e)) :
      Teardown env ns config reads
  | noToken {url : String} (known : hookUrl env ns config = some url) {reads : List Event}
      (made : Course (clientFor env.hasStore config) reads (.ok none)) :
      Teardown env ns config reads
  | cleaned {url : String} (known : hookUrl env ns config = some url) {reads : List Event}
      {client : Git.Client} (made : Course (clientFor env.hasStore config) reads (.ok (some client)))
      {gs : List (Program.Event Git.Query.Outcome)} (deletes : Cleanup url gs) :
      Teardown env ns config (reads ++ gs.map (onGit client))

/-- Listing the hooks and trying to delete those of a URL. -/
theorem course_cleanUp {r : Except Error Unit} :
    Course (do
      match ← viaGit client (Git.ask .listWebhooks) with
      | .ok hooks => deleteAll client ((hooks.filter (·.url == url)).map (·.id))
      | .error _ => return ()) es r ↔
    (∃ gs, es = gs.map (onGit client) ∧ Cleanup url gs) ∧ r = .ok () := by
  have listing (o : Except Git.Error (List Git.Hook)) :
      Course (viaGit client (Git.ask .listWebhooks)) [onGit client ⟨.listWebhooks, o⟩] (.ok o) :=
    course_viaGit_iff.mpr ⟨[⟨.listWebhooks, o⟩], o, rfl, path_query.mpr rfl, rfl⟩
  constructor
  · intro course
    rcases course_bind.mp course with ⟨e, -, listed⟩ | ⟨first, o, second, rfl, listed, later⟩
    · obtain ⟨gs, o, -, -, impossible⟩ := course_viaGit_iff.mp listed
      cases impossible
    obtain ⟨gs, o', rfl, asked, same⟩ := course_viaGit_iff.mp listed
    obtain rfl := path_query.mp asked
    obtain rfl := Except.ok.inj same
    split at later
    · rename_i hooks
      obtain ⟨attempts, rfl, each, rfl⟩ := course_deleteAll_iff.mp later
      refine ⟨⟨⟨.listWebhooks, .ok hooks⟩ :: attempts, rfl, .tried ?_⟩, rfl⟩
      rw [each, List.map_map]
      rfl
    · rename_i e
      obtain ⟨rfl, rfl⟩ := course_pure.mp later
      exact ⟨⟨[⟨.listWebhooks, .error e⟩], rfl, .unlisted e⟩, rfl⟩
  · rintro ⟨⟨gs, rfl, deletes⟩, rfl⟩
    refine course_bind.mpr (.inr ?_)
    cases deletes with
    | unlisted e => exact ⟨_, .error e, [], rfl, listing _, course_pure.mpr ⟨rfl, rfl⟩⟩
    | @tried hooks attempts each =>
      refine ⟨_, .ok hooks, _, rfl, listing _, course_deleteAll_iff.mpr ⟨attempts, rfl, ?_, rfl⟩⟩
      rw [each, List.map_map]
      rfl

theorem course_deleteHooks_iff {r : Except Error Unit} :
    Course (deleteHooks env ns config) es r ↔ Teardown env ns config es ∧ r = .ok () := by
  constructor
  · intro course
    unfold deleteHooks at course
    split at course
    · rename_i unknown
      obtain ⟨rfl, rfl⟩ := course_pure.mp course
      exact ⟨.noHost unknown, rfl⟩
    rename_i url known
    obtain ⟨reads, o, rest, rfl, made, after⟩ := course_attempt_bind.mp course
    rcases o with e | _ | client
    · obtain ⟨rfl, rfl⟩ := course_pure.mp after
      exact ⟨(List.append_nil reads).symm ▸ .noClient known made, rfl⟩
    · obtain ⟨rfl, rfl⟩ := course_pure.mp after
      exact ⟨(List.append_nil reads).symm ▸ .noToken known made, rfl⟩
    · obtain ⟨⟨gs, rfl, deletes⟩, rfl⟩ := course_cleanUp.mp after
      exact ⟨.cleaned known made deletes, rfl⟩
  · rintro ⟨teardown, rfl⟩
    unfold deleteHooks
    cases teardown with
    | noHost unknown =>
      rw [unknown]
      exact course_pure.mpr ⟨rfl, rfl⟩
    | noClient known made | noToken known made =>
      rw [known]
      exact course_attempt_bind.mpr
        ⟨_, _, [], (List.append_nil _).symm, made, course_pure.mpr ⟨rfl, rfl⟩⟩
    | cleaned known made deletes =>
      rw [known]
      exact course_attempt_bind.mpr
        ⟨_, _, _, rfl, made, course_cleanUp.mpr ⟨⟨_, rfl, deletes⟩, rfl⟩⟩

/-- Deleting the hooks of a config only reads, or goes on to a clean-up. -/
theorem cleanup_of_deleteHooks {r : Except Error Unit}
    (course : Course (deleteHooks env ns config) es r) :
    (∀ e ∈ es, Reads e.1) ∨
    ∃ url client reads gs, hookUrl env ns config = some url ∧ (∀ e ∈ reads, Reads e.1) ∧
      es = reads ++ gs.map (onGit client) ∧ Cleanup url gs := by
  cases (course_deleteHooks_iff.mp course).1 with
  | noHost => exact .inl (by simp)
  | noClient _ made | noToken _ made => exact .inl (asks_clientFor.path made)
  | cleaned known made deletes =>
    exact .inr ⟨_, _, _, _, known, asks_clientFor.path made, rfl, deletes⟩

/-- What registering a hook unless there is one finds out. -/
def Finding.ofOutcome : Except Git.Error Bool → Finding
  | .ok true => .there
  | .ok false => .registered
  | .error e => .failed e

/-- Every way in which a search for the webhook of a config can go, and what it finds. -/
inductive Search (env : Surroundings) (ns : String) (config : RepoConfig) :
    List Event → Finding → Prop
  | noHost (unknown : hookUrl env ns config = none) : Search env ns config [] .noHost
  | noClient {url : String} (known : hookUrl env ns config = some url) {reads : List Event}
      {e : Error} (made : Course (clientFor env.hasStore config) reads (.error e)) :
      Search env ns config reads (.noClient e)
  | noToken {url : String} (known : hookUrl env ns config = some url) {reads : List Event}
      (made : Course (clientFor env.hasStore config) reads (.ok none)) :
      Search env ns config reads .noToken
  | tried {url : String} (known : hookUrl env ns config = some url) {reads : List Event}
      {client : Git.Client} (made : Course (clientFor env.hasStore config) reads (.ok (some client)))
      {gs : List (Program.Event Git.Query.Outcome)} {o : Except Git.Error Bool}
      (registers : Registration url gs o) :
      Search env ns config (reads ++ gs.map (onGit client)) (.ofOutcome o)

theorem Search.of_path {f : Finding} (path : Path (findHook env ns config) es f) :
    Search env ns config es f := by
  unfold findHook at path
  split at path
  · rename_i unknown
    obtain ⟨rfl, rfl⟩ := path_done.mp path
    exact .noHost unknown
  rename_i url known
  obtain ⟨reads, o, rest, rfl, made, after⟩ := path_bind.mp path
  rcases o with e | _ | client
  · obtain ⟨rfl, rfl⟩ := path_done.mp after
    exact (List.append_nil reads).symm ▸ .noClient known made
  · obtain ⟨rfl, rfl⟩ := path_done.mp after
    exact (List.append_nil reads).symm ▸ .noToken known made
  · obtain ⟨tried, o, rest, rfl, served, ended⟩ := path_bind.mp after
    obtain ⟨gs, rfl, registers⟩ := path_through.mp served
    obtain ⟨rfl, rfl⟩ : rest = [] ∧ f = .ofOutcome o := by
      rcases o with e | _ | _ <;> exact path_done.mp ended
    rw [List.append_nil]
    exact .tried known made (.of_path registers)

/-- An inspection only reads, or goes on to a registration. -/
theorem registration_of_inspect {f : Finding} (path : Path (inspect env ns config) es f) :
    (∀ e ∈ es, Reads e.1) ∨
    ∃ url client reads gs o, hookUrl env ns config = some url ∧ (∀ e ∈ reads, Reads e.1) ∧
      es = reads ++ gs.map (onGit client) ∧ Registration url gs o := by
  unfold inspect at path
  split at path
  · obtain ⟨rfl, -⟩ := path_done.mp path
    exact .inl (by simp)
  cases Search.of_path path with
  | noHost => exact .inl (by simp)
  | noClient _ made | noToken _ made => exact .inl (asks_clientFor.path made)
  | tried known made registers =>
    exact .inr ⟨_, _, _, _, _, known, asks_clientFor.path made, rfl, registers⟩

/-! The pass. -/

/-- What a pass over a config asks of its provider. -/
inductive HookWork (env : Surroundings) (config : RepoConfig) :
    List (Program.Event Git.Query.Outcome) → Prop
  | nothing : HookWork env config []
  | upheld {url : String} (known : ownUrl env config = some url)
      (alive : config.isDeleting = false) (own : configFinalizer ∈ config.finalizers)
      {gs : List (Program.Event Git.Query.Outcome)} {o : Except Git.Error Bool}
      (registers : Registration url gs o) : HookWork env config gs
  | cleaned {url : String} (known : ownUrl env config = some url)
      (deleting : config.isDeleting = true) (own : configFinalizer ∈ config.finalizers)
      {gs : List (Program.Event Git.Query.Outcome)} (deletes : Cleanup url gs) :
      HookWork env config gs

/-- A pass does its hook work through one client. -/
theorem HookWork.of_course {r : Except Error Schedule}
    (course : Course (reconcileConfig env now config) es r) :
    HookWork env config (operations es) ∧ ∃ client, ∀ e ∈ es, e.Via client := by
  have apart (requests : ∀ e ∈ es, e.OnCluster) :
      HookWork env config (operations es) ∧ ∃ client, ∀ e ∈ es, e.Via client := by
    refine ⟨?_, .inMemory "", via_onCluster requests⟩
    rw [operations_onCluster requests]
    exact .nothing
  have around {reads patches : List Event} {client : Git.Client}
      {gs : List (Program.Event Git.Query.Outcome)} (quiet : ∀ e ∈ reads, Reads e.1)
      (requests : ∀ e ∈ patches, e.OnCluster)
      (same : es = reads ++ gs.map (onGit client) ++ patches) (work : HookWork env config gs) :
      HookWork env config (operations es) ∧ ∃ client, ∀ e ∈ es, e.Via client := by
    have before : ∀ e ∈ reads, e.OnCluster := fun e member => (quiet e member).onCluster
    subst same
    constructor
    · rw [operations_append, operations_append, operations_onCluster before,
        operations_onCluster requests, List.nil_append, List.append_nil]
      have asked : operations (gs.map (onGit client)) = gs := operations_onGit gs
      rw [asked]
      exact work
    · refine ⟨client, List.forall_mem_append.mpr ⟨?_, via_onCluster requests⟩⟩
      exact List.forall_mem_append.mpr ⟨via_onCluster before, via_onGit⟩
  have one (e : Event) (requested : e.OnCluster) : ∀ e' ∈ [e], e'.OnCluster := by
    intro e' member
    obtain rfl := List.mem_singleton.mp member
    exact requested
  cases ConfigCourse.of_course course with
  | unplaced nowhere => exact apart (by simp)
  | left place deleting foreign => exact apart (by simp)
  | claimed place alive new o => exact apart (one _ trivial)
  | released place deleting own deleted o =>
    rcases cleanup_of_deleteHooks deleted with
      quiet | ⟨url, client, reads, gs, known, quiet, rfl, deletes⟩
    · refine apart (List.forall_mem_append.mpr ⟨?_, ?_⟩)
      · exact fun e member => (quiet e member).onCluster
      · exact one _ trivial
    · refine around quiet ?_ rfl
        (.cleaned ((ownUrl_placed place).trans known) deleting own deletes)
      exact one _ trivial
  | upToDate place alive own inspected same =>
    rcases registration_of_inspect inspected with
      quiet | ⟨url, client, reads, gs, o, known, quiet, rfl, registers⟩
    · exact apart fun e member => (quiet e member).onCluster
    · exact around quiet (by simp) (List.append_nil _).symm
        (.upheld ((ownUrl_placed place).trans known) alive own registers)
  | renewed place alive own inspected changed o =>
    rcases registration_of_inspect inspected with
      quiet | ⟨url, client, reads, gs, o', known, quiet, rfl, registers⟩
    · refine apart (List.forall_mem_append.mpr ⟨?_, ?_⟩)
      · exact fun e member => (quiet e member).onCluster
      · exact one _ trivial
    · refine around quiet ?_ rfl (.upheld ((ownUrl_placed place).trans known) alive own registers)
      exact one _ trivial

/-- The hook work of a pass consists of these operations. -/
inductive OwnOperation (env : Surroundings) (config : RepoConfig) : Git.Query → Prop
  | list : OwnOperation env config .listWebhooks
  | register {url : String} (known : ownUrl env config = some url)
      (alive : config.isDeleting = false) (own : configFinalizer ∈ config.finalizers) :
      OwnOperation env config (.registerWebhook url)
  | delete (deleting : config.isDeleting = true) (id : Int) :
      OwnOperation env config (.deleteWebhook id)

theorem HookWork.operation (work : HookWork env config gs) :
    ∀ g ∈ gs, OwnOperation env config g.1 := by
  intro g member
  cases work with
  | nothing => cases member
  | upheld known alive own registers =>
    cases registers with
    | unlisted e =>
      obtain rfl := List.mem_singleton.mp member
      exact .list
    | there own =>
      obtain rfl := List.mem_singleton.mp member
      exact .list
    | registered new r =>
      rcases List.mem_cons.mp member with rfl | member
      · exact .list
      · obtain rfl := List.mem_singleton.mp member
        exact .register known alive own
  | cleaned known deleting own deletes =>
    cases deletes with
    | unlisted e =>
      obtain rfl := List.mem_singleton.mp member
      exact .list
    | tried each =>
      rcases List.mem_cons.mp member with rfl | member
      · exact .list
      · have asked : g.1 ∈ (_ : List Git.Query) := each ▸ List.mem_map_of_mem member
        obtain ⟨hook, -, same⟩ := List.mem_map.mp asked
        rw [← same]
        exact .delete deleting hook.id

/-- A pass only registers a hook for a config that it looks after. -/
theorem registers_of_course {r : Except Error Schedule} {o : Except Git.Error Unit}
    (course : Course (reconcileConfig env now config) es r)
    (member : ⟨.git client (.registerWebhook url), o⟩ ∈ es) :
    ownUrl env config = some url ∧ configFinalizer ∈ config.finalizers ∧
      config.isDeleting = false := by
  have asked : (⟨.registerWebhook url, o⟩ : Program.Event Git.Query.Outcome) ∈ operations es :=
    mem_operations.mpr ⟨client, member⟩
  cases (HookWork.of_course course).1.operation _ asked with
  | register known alive own => exact ⟨known, own, alive⟩

/-- What a pass has asked of its provider by the time at which it breaks off. -/
inductive Begun (own : Option String) : List (Program.Event Git.Query.Outcome) → Prop
  | nothing : Begun own []
  | looked (r : Except Git.Error (List Git.Hook)) : Begun own [⟨.listWebhooks, r⟩]
  | registered {url : String} (known : own = some url) {hooks : List Git.Hook}
      (new : ∀ hook ∈ hooks, hook.url ≠ url) (r : Except Git.Error Unit) :
      Begun own [⟨.listWebhooks, .ok hooks⟩, ⟨.registerWebhook url, r⟩]
  | tried {url : String} (known : own = some url) {hooks : List Git.Hook}
      {attempts : List (Program.Event Git.Query.Outcome)}
      (each : ∀ g ∈ attempts, ∃ hook ∈ hooks, hook.url = url ∧ g.1 = .deleteWebhook hook.id) :
      Begun own (⟨.listWebhooks, .ok hooks⟩ :: attempts)

theorem HookWork.begun {rest : List (Program.Event Git.Query.Outcome)}
    (work : HookWork env config (gs ++ rest)) : Begun (ownUrl env config) gs := by
  generalize whole : gs ++ rest = all at work
  cases work with
  | nothing =>
    obtain ⟨rfl, -⟩ := List.append_eq_nil_iff.mp whole
    exact .nothing
  | upheld known alive own registers =>
    cases gs with
    | nil => exact .nothing
    | cons g gs =>
      rw [List.cons_append] at whole
      cases registers with
      | unlisted e =>
        obtain ⟨rfl, tail⟩ := List.cons.inj whole
        obtain ⟨rfl, -⟩ := List.append_eq_nil_iff.mp tail
        exact .looked (.error e)
      | there own =>
        obtain ⟨rfl, tail⟩ := List.cons.inj whole
        obtain ⟨rfl, -⟩ := List.append_eq_nil_iff.mp tail
        exact .looked _
      | registered new r =>
        obtain ⟨rfl, tail⟩ := List.cons.inj whole
        rcases List.append_eq_singleton_iff.mp tail with ⟨rfl, -⟩ | ⟨rfl, -⟩
        · exact .looked _
        · exact .registered known new r
  | cleaned known deleting own deletes =>
    cases gs with
    | nil => exact .nothing
    | cons g gs =>
      rw [List.cons_append] at whole
      cases deletes with
      | unlisted e =>
        obtain ⟨rfl, tail⟩ := List.cons.inj whole
        obtain ⟨rfl, -⟩ := List.append_eq_nil_iff.mp tail
        exact .looked (.error e)
      | tried each =>
        obtain ⟨rfl, rfl⟩ := List.cons.inj whole
        refine .tried known fun g member => ?_
        have asked : g.1 ∈ (gs ++ rest).map Sigma.fst :=
          List.mem_map_of_mem (List.mem_append_left rest member)
        rw [each] at asked
        obtain ⟨hook, listed, same⟩ := List.mem_map.mp asked
        obtain ⟨listed, for_url⟩ := List.mem_filter.mp listed
        exact ⟨hook, listed, eq_of_beq for_url, same.symm⟩

end Gatehouse.Control
