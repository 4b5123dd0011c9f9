import Mathlib.Data.List.Basic
import Gatehouse.Proofs.Control.HookUpkeep
import Gatehouse.Proofs.Program.Fixed

/-!
# Whose hook it is

Configs share a repository and tell their hooks by the URLs alone, which end in the namespace and the
name (`webhookUrl_inj`). A pass only wants to delete what it saw listed with its own URL, and what a
number stood for once it stands for ever. So passes over different configs, in any order, also while
others are at work, leave each other's hooks alone (`hooks_have_one_owner`): a hook of another config
might as well not be listed (`course_hidden`).
-/

namespace Gatehouse.Control

open Program Resource
open Git (Store HookStep)

variable {env : Surroundings} {now : Instant} {config : RepoConfig} {ns name url repository : String}
  {own : Option String} {client : Git.Client} {es first second : List Event}
  {gs : List (Program.Event Git.Query.Outcome)} {s s' : Store} {w w' : World} {id : Int}

/-! URLs. -/

/-- The URL of a webhook tells the namespace and the name if they have no slash in them. -/
theorem webhookUrl_inj {settings : Settings} {ns' name' : String} (plain : '/' ∉ ns.toList)
    (plain' : '/' ∉ name.toList) (known : settings.webhookUrl ns name = some url)
    (same : settings.webhookUrl ns' name' = some url) : ns = ns' ∧ name = name' := by
  unfold Settings.webhookUrl at known same
  cases host : settings.externalHostname with
  | none =>
    rw [host] at known
    cases known
  | some host' =>
    rw [host, Option.map_some, Option.some.injEq] at known same
    have texts : ns.toList ++ '/' :: name.toList = ns'.toList ++ '/' :: name'.toList := by
      have both := congrArg String.toList (known.trans same.symm)
      simpa using both
    obtain ⟨spaces, -, names⟩ := (List.append_cons_inj_of_notMem plain plain').mp texts
    exact ⟨String.toList_inj.mp spaces, String.toList_inj.mp names⟩

/-! What passes ask. -/

/-- What passes over one config ask one after the other, each over some version of the config and
perhaps broken off. -/
inductive Passes (env : Surroundings) (ns name : String) : List Event → Prop
  | none : Passes env ns name []
  | more {earlier es rest : List Event} {config : RepoConfig} {now : Instant}
      {r : Except Error Schedule} (before : Passes env ns name earlier)
      (place : config.metadata.inNamespace = some ns) (named : config.name = name)
      (course : Course (reconcileConfig env now config) (es ++ rest) r) :
      Passes env ns name (earlier ++ es)

/-- Every hook that is to be deleted was listed with the URL before, through the same client. -/
def Justified (own : Option String) (es : List Event) : Prop :=
  ∀ (first second : List Event) (client : Git.Client) (id : Int)
    (o : Git.Query.Outcome (.deleteWebhook id)),
    es = first ++ ⟨.git client (.deleteWebhook id), o⟩ :: second →
    ∃ hooks : List Git.Hook, ⟨.git client .listWebhooks, .ok hooks⟩ ∈ first ∧
      ∃ hook ∈ hooks, hook.id = id ∧ own = some hook.url

theorem Justified.append (before : Justified own first) (after : Justified own second) :
    Justified own (first ++ second) := by
  intro front back client id o split
  rcases List.append_eq_append_iff.mp split with ⟨middle, rfl, rest⟩ | ⟨middle, whole, rest⟩
  · obtain ⟨hooks, listed, mine⟩ := after middle back client id o rest
    exact ⟨hooks, List.mem_append_right first listed, mine⟩
  · cases middle with
    | nil =>
      obtain ⟨hooks, listed, -⟩ := after [] back client id o rest.symm
      cases listed
    | cons e middle =>
      obtain ⟨rfl, -⟩ := List.cons.inj rest
      exact before front middle client id o whole

theorem Begun.justified (begun : Begun own (operations es)) (via : ∀ e ∈ es, e.Via client) :
    Justified own es := by
  rintro front back c id o rfl
  have through : c = client := via ⟨.git c (.deleteWebhook id), o⟩ (by simp)
  subst through
  rw [operations_append] at begun
  have deletes : operations (⟨.git c (.deleteWebhook id), o⟩ :: back) =
      ⟨.deleteWebhook id, o⟩ :: operations back := rfl
  rw [deletes] at begun
  generalize whole : operations front ++ ⟨.deleteWebhook id, o⟩ :: operations back = gs at begun
  have there : ⟨.deleteWebhook id, o⟩ ∈ gs := whole ▸ List.mem_append_cons_self
  cases begun with
  | nothing => cases there
  | looked r => simp at there
  | registered known new r => simp at there
  | @tried url known hooks attempts each =>
    cases before : operations front with
    | nil =>
      rw [before] at whole
      cases whole
    | cons g later =>
      rw [before, List.cons_append] at whole
      obtain ⟨rfl, rfl⟩ := List.cons.inj whole
      obtain ⟨hook, listed, is, asked⟩ := each ⟨.deleteWebhook id, o⟩ List.mem_append_cons_self
      have listing : ⟨.listWebhooks, .ok hooks⟩ ∈ operations front := before ▸ List.mem_cons_self
      obtain ⟨c', member⟩ := mem_operations.mp listing
      have same : c' = c := via _ (List.mem_append_left _ member)
      subst same
      refine ⟨hooks, member, hook, listed, (Git.Query.deleteWebhook.inj asked).symm, ?_⟩
      rw [known, is]

theorem Passes.justified (passes : Passes env ns name es) :
    Justified (env.settings.webhookUrl ns name) es := by
  induction passes with
  | none =>
    intro first second client id o impossible
    cases first <;> cases impossible
  | more before place named course ih =>
    refine ih.append ?_
    obtain ⟨work, client, via⟩ := HookWork.of_course course
    rw [operations_append] at work
    have known : ownUrl env _ = _ := ownUrl_placed place
    rw [hookUrl, named] at known
    rw [← known]
    exact work.begun.justified fun e member => via e (List.mem_append_left _ member)

theorem Passes.registers {o : Except Git.Error Unit} (passes : Passes env ns name es)
    (member : ⟨.git client (.registerWebhook url), o⟩ ∈ es) :
    env.settings.webhookUrl ns name = some url := by
  induction passes with
  | none => cases member
  | @more earlier es rest config now r before place named course ih =>
    rcases List.mem_append.mp member with member | member
    · exact ih member
    · obtain ⟨known, -⟩ := registers_of_course course (List.mem_append_left rest member)
      rwa [ownUrl_placed place, hookUrl, named] at known

/-! What listings show. -/

theorem stands_hosts {q : Query} {r : q.Outcome} (hosts : World.Hosts q w r w')
    (stands : w.servers.store.Stands repository id url) :
    w'.servers.store.Stands repository id url := by
  rcases hosts.store with same | ⟨place, q', r', -, may⟩
  · rw [same]
    exact stands
  · exact stands.step (Git.hookStep_of_may may)

theorem listed_hosts {hooks : List Git.Hook}
    (hosts : World.Hosts (.git (.inMemory repository) .listWebhooks) w (.ok hooks) w') :
    hooks = w.servers.store.hookList repository :=
  Git.hookList_listed (Git.hookStep_of_may hosts.inMemory)

/-- A listed hook has a number that was handed out. -/
theorem listed_id_le {hooks : List Git.Hook} {hook : Git.Hook}
    (follows : Follows World.Hosts w es w') (numbered : w.servers.store.Numbered)
    (member : ⟨.git (.inMemory repository) .listWebhooks, .ok hooks⟩ ∈ es) (listed : hook ∈ hooks) :
    hook.id ≤ w'.servers.store.lastId := by
  obtain ⟨first, second, rfl⟩ := List.append_of_mem member
  obtain ⟨w₁, before, follows⟩ := follows_append.mp follows
  obtain ⟨w₂, hosts, after⟩ := follows_cons.mp follows
  have numbered := before.keeps (fun _ _ _ _ => numbered_hosts) numbered
  rw [listed_hosts hosts] at listed
  have stands := stands_hosts hosts (Git.stands_listed numbered listed)
  exact (after.keeps (fun _ _ _ _ => stands_hosts) stands).1

/-- A number that stands for a URL is only listed with it. -/
theorem listed_url_eq {hooks : List Git.Hook} {hook : Git.Hook}
    (follows : Follows World.Hosts w es w') (numbered : w.servers.store.Numbered)
    (stands : w.servers.store.Stands repository hook.id url)
    (member : ⟨.git (.inMemory repository) .listWebhooks, .ok hooks⟩ ∈ es) (listed : hook ∈ hooks) :
    hook.url = url := by
  obtain ⟨first, second, rfl⟩ := List.append_of_mem member
  obtain ⟨w₁, before, follows⟩ := follows_append.mp follows
  obtain ⟨w₂, hosts, after⟩ := follows_cons.mp follows
  have numbered := before.keeps (fun _ _ _ _ => numbered_hosts) numbered
  rw [listed_hosts hosts] at listed
  exact (before.keeps (fun _ _ _ _ => stands_hosts) stands).2 hook (numbered.get?_of_mem listed).1

/-! Hooks that are not listed. -/

/-- The event with only some of the hooks listed. -/
def hide (shown : Git.Hook → Bool) : Event → Event
  | ⟨.git client .listWebhooks, .ok hooks⟩ => ⟨.git client .listWebhooks, .ok (hooks.filter shown)⟩
  | e => e

/-- The work goes the same way if only some of the hooks are listed. -/
def Blind {α : Type} (shown : Git.Hook → Bool) (work : Work α) : Prop :=
  ∀ es a, Path work es a → Path work (es.map (hide shown)) a

section Blind

variable {α β : Type} {shown : Git.Hook → Bool}

theorem blind_done (a : α) : Blind shown (.done a : Work α) := by
  intro es b path
  obtain ⟨rfl, rfl⟩ := path_done.mp path
  exact .done b

theorem Blind.bind {work : Work α} {f : α → Work β} (first : Blind shown work)
    (second : ∀ a, Blind shown (f a)) : Blind shown (work.bind f) := by
  intro es b path
  obtain ⟨before, a, after, rfl, path₁, path₂⟩ := path_bind.mp path
  rw [List.map_append]
  exact (first before a path₁).bind (second a after b path₂)

theorem Blind.andThen {x : Pass α} {f : α → Pass β} (first : Blind shown x.run)
    (second : ∀ a, Blind shown (f a).run) : Blind shown (x >>= f).run := by
  refine Blind.bind first fun o => ?_
  cases o with
  | error e => exact blind_done _
  | ok a => exact second a

/-- A question that is no listing is answered as before. -/
theorem blind_ask {q : Query} {next : q.Outcome → Work α} (apart : ∀ r, hide shown ⟨q, r⟩ = ⟨q, r⟩)
    (later : ∀ r, Blind shown (next r)) : Blind shown (.ask q next) := by
  intro es a path
  obtain ⟨r, rest, rfl, tail⟩ := path_ask.mp path
  rw [List.map_cons, apart r]
  exact .ask q r (later r rest a tail)

/-- After a listing the work must not depend on the hooks that are hidden. -/
theorem blind_list {next : Except Git.Error (List Git.Hook) → Work α}
    (same : ∀ hooks, next (.ok hooks) = next (.ok (hooks.filter shown)))
    (later : ∀ r, Blind shown (next r)) :
    Blind shown (.ask (.git client .listWebhooks) next) := by
  intro es a path
  obtain ⟨r, rest, rfl, tail⟩ := path_ask.mp path
  have tail := later r rest a tail
  cases r with
  | error e => exact .ask (A := Query.Outcome) (.git client .listWebhooks) (.error e) tail
  | ok hooks =>
    rw [same hooks] at tail
    exact .ask (A := Query.Outcome) (.git client .listWebhooks) (.ok (hooks.filter shown)) tail

theorem blind_askCluster (q : Cluster.Query) : Blind shown (askCluster q).run :=
  blind_ask (fun _ => rfl) fun _ => blind_done _

theorem blind_of_asks {work : Work α} (reads : work.Asks Reads) : Blind shown work := by
  induction work with
  | done a => exact blind_done a
  | ask q next ih =>
    refine blind_ask (fun r => ?_) fun r => ih r (reads.2 r)
    cases reads.1 <;> rfl

/-- What is picked out by the URL is the same if the hooks with the URL are shown. -/
theorem shown_and (shows : ∀ hook : Git.Hook, hook.url = url → shown hook = true) (hook : Git.Hook) :
    (shown hook && hook.url == url) = (hook.url == url) := by
  by_cases is : hook.url = url
  · simp [is, shows hook is]
  · simp [is]

theorem filter_shown (shows : ∀ hook : Git.Hook, hook.url = url → shown hook = true)
    (hooks : List Git.Hook) :
    (hooks.filter shown).filter (·.url == url) = hooks.filter (·.url == url) := by
  rw [List.filter_filter]
  refine List.filter_congr fun hook _ => ?_
  rw [Bool.and_comm, shown_and shows]

theorem any_shown (shows : ∀ hook : Git.Hook, hook.url = url → shown hook = true)
    (hooks : List Git.Hook) :
    (hooks.filter shown).any (·.url == url) = hooks.any (·.url == url) := by
  rw [List.any_filter]
  exact congrArg hooks.any (funext (shown_and shows))

theorem through_ensureRegistered (client : Git.Client) (url : String) :
    through client (ensureRegistered url).run = .ask (.git client .listWebhooks) fun
      | .error e => .done (.error e)
      | .ok hooks =>
        if hooks.any (·.url == url) then .done (.ok true)
        else .ask (.git client (.registerWebhook url)) fun r => .done (r.map fun _ => false) := by
  refine congrArg (Program.ask (Query.git client .listWebhooks)) (funext fun r => ?_)
  cases r with
  | error e => rfl
  | ok hooks =>
    show through client (ite _ _ _ : Git.Action Bool).run = ite _ _ _
    split
    · rfl
    · refine congrArg (Program.ask (Query.git client (.registerWebhook url))) (funext fun r => ?_)
      cases r <;> rfl

theorem blind_ensureRegistered (shows : ∀ hook : Git.Hook, hook.url = url → shown hook = true) :
    Blind shown (through client (ensureRegistered url).run) := by
  rw [through_ensureRegistered]
  refine blind_list (fun hooks => ?_) fun r => ?_
  · simp only [any_shown shows hooks]
  · cases r with
    | error e => exact blind_done _
    | ok hooks =>
      dsimp only
      split
      · exact blind_done _
      · exact blind_ask (fun _ => rfl) fun r => blind_done _

theorem blind_deleteAll (ids : List Int) : Blind shown (deleteAll client ids).run := by
  induction ids with
  | nil => exact blind_done _
  | cons id rest ih =>
    refine Blind.andThen ?_ fun _ => ih
    exact blind_ask (fun _ => rfl) fun _ => blind_done _

theorem blind_deleteHooks
    (shows : ∀ hook : Git.Hook, hookUrl env ns config = some hook.url → shown hook = true) :
    Blind shown (deleteHooks env ns config).run := by
  unfold deleteHooks
  split
  · exact blind_done _
  rename_i url known
  have shows : ∀ hook : Git.Hook, hook.url = url → shown hook = true := by
    intro hook is
    exact shows hook (known.trans (congrArg some is.symm))
  refine Blind.andThen ((blind_of_asks asks_clientFor).bind fun o => blind_done _) fun o => ?_
  split
  · rename_i client
    refine blind_list (fun hooks => ?_) fun r => ?_
    · exact congrArg (fun own => (deleteAll client (own.map (·.id))).run)
        (filter_shown shows hooks).symm
    · cases r with
      | error e => exact blind_done _
      | ok hooks => exact blind_deleteAll _
  · exact blind_done _

theorem blind_inspect
    (shows : ∀ hook : Git.Hook, hookUrl env ns config = some hook.url → shown hook = true) :
    Blind shown (inspect env ns config) := by
  unfold inspect findHook
  split
  · exact blind_done _
  split
  · exact blind_done _
  rename_i url known
  have shows : ∀ hook : Git.Hook, hook.url = url → shown hook = true := by
    intro hook is
    exact shows hook (known.trans (congrArg some is.symm))
  refine (blind_of_asks asks_clientFor).bind fun o => ?_
  split
  · exact blind_done _
  · exact blind_done _
  · refine (blind_ensureRegistered shows).bind fun o => ?_
    split <;> exact blind_done _

/-- A pass goes the same way, asks the same and ends the same if only hooks with its own URL are
listed. -/
theorem course_hidden {r : Except Error Schedule}
    (shows : ∀ hook : Git.Hook, ownUrl env config = some hook.url → shown hook = true)
    (course : Course (reconcileConfig env now config) es r) :
    Course (reconcileConfig env now config) (es.map (hide shown)) r := by
  refine (?_ : Blind shown (reconcileConfig env now config).run) es r course
  unfold reconcileConfig
  cases place : config.metadata.inNamespace with
  | none =>
    have missing : namespaceOf config = .error .missingNamespace := by
      rw [namespaceOf, place]
    rw [missing]
    exact blind_done _
  | some ns =>
    have found : namespaceOf config = .ok ns := by
      rw [namespaceOf, place]
    rw [ownUrl_placed place] at shows
    rw [found]
    show Blind shown (ite _ (retireConfig env ns config)
      (ite _ (maintainConfig env now ns config) _) : Pass Schedule).run
    split
    · unfold retireConfig
      split
      · refine (blind_deleteHooks shows).andThen fun _ => ?_
        exact (blind_askCluster _).andThen fun _ => blind_done _
      · exact blind_done _
    · split
      · rw [maintainConfig_eq]
        refine (blind_inspect shows).bind fun f => ?_
        unfold saveStatus
        split
        · exact (blind_askCluster _).andThen fun _ => blind_done _
        · exact blind_done _
      · exact (blind_askCluster _).andThen fun _ => blind_done _

end Blind

/-! Passes over several configs in any order. -/

section Owners

variable {ι : Type} [DecidableEq ι] {i j : ι} {turns before after : List (ι × Event)}
  {tenant : ι → String × String} {w₁ w₂ : World}

/-- The events of one of those who take turns. -/
def askedBy (i : ι) (turns : List (ι × Event)) : List Event :=
  turns.filterMap fun turn => if turn.1 = i then some turn.2 else none

theorem mem_askedBy {e : Event} : e ∈ askedBy i turns ↔ (i, e) ∈ turns := by
  unfold askedBy
  constructor
  · intro member
    obtain ⟨⟨k, e'⟩, there, picked⟩ := List.mem_filterMap.mp member
    split at picked
    · rename_i same
      obtain rfl := Option.some.inj picked
      obtain rfl : k = i := same
      exact there
    · cases picked
  · intro member
    exact List.mem_filterMap.mpr ⟨(i, e), member, if_pos rfl⟩

/-- Several configs have their passes made in any order, each pass over any version of its config and
perhaps broken off. When one of them has registered a hook, no pass over another one ever wants that
hook deleted; wherever the hook is listed later it is listed with its own URL, which is not the one of
the other config; and the passes over the other config go the same way, and end the same, if hooks with
that URL are not listed. -/
theorem hooks_have_one_owner (slashless : ∀ k, '/' ∉ (tenant k).1.toList ∧ '/' ∉ (tenant k).2.toList)
    (apart : tenant i ≠ tenant j)
    (passes : ∀ k, Passes env (tenant k).1 (tenant k).2 (askedBy k
      (before ++ (j, ⟨.git (.inMemory repository) (.registerWebhook url), .ok ()⟩) :: after)))
    (numbered : w.servers.store.Numbered)
    (earlier : Follows World.Hosts w (before.map Prod.snd) w₁)
    (registered : World.Hosts (.git (.inMemory repository) (.registerWebhook url)) w₁ (.ok ()) w₂)
    (later : Follows World.Hosts w₂ (after.map Prod.snd) w') :
    let turns :=
      before ++ (j, ⟨.git (.inMemory repository) (.registerWebhook url), .ok ()⟩) :: after
    let id := w₂.servers.store.lastId
    (∀ o, (i, ⟨.git (.inMemory repository) (.deleteWebhook id), o⟩) ∉ turns) ∧
    (∀ hooks, (i, ⟨.git (.inMemory repository) .listWebhooks, .ok hooks⟩) ∈ after →
      ∀ hook ∈ hooks, hook.id = id → hook.url = url) ∧
    env.settings.webhookUrl (tenant i).1 (tenant i).2 ≠ some url ∧
    ∀ (now : Instant) (config : RepoConfig) (es : List Event) (r : Except Error Schedule),
      config.metadata.inNamespace = some (tenant i).1 → config.name = (tenant i).2 →
      Course (reconcileConfig env now config) es r →
      Course (reconcileConfig env now config) (es.map (hide fun hook => hook.url != url)) r := by
  intro turns id
  have known : env.settings.webhookUrl (tenant j).1 (tenant j).2 = some url :=
    (passes j).registers (mem_askedBy.mpr List.mem_append_cons_self)
  have foreign : env.settings.webhookUrl (tenant i).1 (tenant i).2 ≠ some url := by
    intro same
    obtain ⟨spaces, names⟩ := webhookUrl_inj (slashless i).1 (slashless i).2 same known
    exact apart (Prod.ext spaces names)
  have numbered₁ := earlier.keeps (fun _ _ _ _ => numbered_hosts) numbered
  have numbered₂ := numbered_hosts registered numbered₁
  obtain ⟨count, stands⟩ := Git.stands_registered (Git.hookStep_of_may registered.inMemory)
  -- Listed later, the new number stands for the URL of the one who registered it.
  have shown : ∀ hooks, (i, ⟨.git (.inMemory repository) .listWebhooks, .ok hooks⟩) ∈ after →
      ∀ hook ∈ hooks, hook.id = id → hook.url = url := by
    intro hooks member hook listed same
    have stands : w₂.servers.store.Stands repository hook.id url := by
      rw [same]
      exact stands
    exact listed_url_eq later numbered₂ stands (List.mem_map_of_mem member) listed
  refine ⟨?_, shown, foreign, ?_⟩
  · intro o member
    obtain ⟨front, back, split⟩ := List.append_of_mem (mem_askedBy.mpr member)
    obtain ⟨hooks, listing, hook, listed, same, own⟩ :=
      (passes i).justified front back (.inMemory repository) id o split
    have listing : (i, ⟨.git (.inMemory repository) .listWebhooks, .ok hooks⟩) ∈ turns :=
      mem_askedBy.mp (split ▸ List.mem_append_left _ listing)
    rcases List.mem_append.mp listing with listing | listing
    · -- Listed before, a number was handed out before.
      have handed := listed_id_le earlier numbered (List.mem_map_of_mem listing) listed
      omega
    · rcases List.mem_cons.mp listing with impossible | listing
      · cases impossible
      · rw [shown hooks listing hook listed same] at own
        exact foreign own
  · intro now config es r place named course
    refine course_hidden (fun hook own => ?_) course
    rw [ownUrl_placed place, hookUrl, named] at own
    have other : hook.url ≠ url := fun same => foreign (own.trans (congrArg some same))
    simpa using other

end Owners

/-- Another config of the same repository, which is being deleted. -/
def sibling : RepoConfig :=
  { tended with
    metadata := { tended.metadata with
      name := some "sibling", deletionTimestamp := some default } }

/-- Two configs of one repository, by whether they are being deleted. -/
def ofRepo (deleted : Bool) : String × String := ("ci", if deleted then "sibling" else "repo")

/-- A provider with these hooks that takes every wish. -/
def granting (hooks : List Git.Hook) : (q : Query) → q.Outcome
  | .cluster (.readSecret _ _ _) => .ok (some "s3cret")
  | .cluster _ => .error (.store "down")
  | .git _ .listWebhooks => .ok hooks
  | .git _ (.registerWebhook _) => .ok ()
  | .git _ (.deleteWebhook _) => .ok ()
  | .git _ _ => .error (.notFound "no such thing")
  | .notify _ => ()

/-- The repository has the hook of the sibling. Before that one is deleted the other config gets its
hook as well, which stays. -/
theorem hooks_have_one_owner_sibling :
    let env : Surroundings := ⟨{ externalHostname := some "ci.example.com" }, true⟩
    let mine : Git.Hook := ⟨2, "http://ci.example.com/webhook/ci/repo"⟩
    let theirs : Git.Hook := ⟨1, "http://ci.example.com/webhook/ci/sibling"⟩
    let read : Event := ⟨.cluster (.readSecret "ci" "git" "token"), .ok (some "s3cret")⟩
    let list (hooks : List Git.Hook) : Event :=
      ⟨.git (.inMemory "org/repo") .listWebhooks, .ok hooks⟩
    let registration : Event :=
      ⟨.git (.inMemory "org/repo") (.registerWebhook mine.url), .ok ()⟩
    let deletion : Event := ⟨.git (.inMemory "org/repo") (.deleteWebhook 1), .ok ()⟩
    let before := [(false, read), (false, list [theirs])]
    let after := [(true, read), (true, list [theirs, mine]), (true, deletion)]
    let turns := before ++ (false, registration) :: after
    (∀ k, Passes env (ofRepo k).1 (ofRepo k).2 (askedBy k turns)) ∧
    ∃ w₁ w₂ w', Follows World.Hosts (hooked theirs.url) (before.map Prod.snd) w₁ ∧
      World.Hosts registration.1 w₁ registration.2 w₂ ∧
      Follows World.Hosts w₂ (after.map Prod.snd) w' ∧ w₂.servers.store.lastId = 2 ∧
      (∀ o, (true, ⟨.git (.inMemory "org/repo") (.deleteWebhook w₂.servers.store.lastId), o⟩) ∉
        turns) ∧
      w'.servers.store.hookList "org/repo" = [mine] := by
  intro env mine theirs read list registration deletion before after turns
  have passes : ∀ k, Passes env (ofRepo k).1 (ofRepo k).2 (askedBy k turns) := by
    intro k
    cases k with
    | false =>
      let pass := (reconcileConfig env default tended).run
      have course : Course (reconcileConfig env default tended)
          ([read, list [theirs], registration] ++ (pass.asked (granting [theirs])).drop 3)
          (pass.eval (granting [theirs])) := path_asked (granting [theirs]) pass
      exact .more .none rfl rfl course
    | true =>
      let pass := (reconcileConfig env default sibling).run
      have course : Course (reconcileConfig env default sibling)
          ([read, list [theirs, mine], deletion] ++ (pass.asked (granting [theirs, mine])).drop 3)
          (pass.eval (granting [theirs, mine])) := path_asked (granting [theirs, mine]) pass
      exact .more .none rfl rfl course
  have hosts := World.hosts_answer default
  let next (e : Event) (w : World) : World := (w.answer default e.1).2
  let w₁ := next (list [theirs]) (next read (hooked theirs.url))
  let w₂ := next registration w₁
  let w' := next deletion (next (list [theirs, mine]) (next read w₂))
  have earlier : Follows World.Hosts (hooked theirs.url) (before.map Prod.snd) w₁ :=
    .cons (hosts _ _) (.cons (hosts _ _) (.nil _))
  have registered : World.Hosts registration.1 w₁ registration.2 w₂ := hosts registration.1 w₁
  have later : Follows World.Hosts w₂ (after.map Prod.snd) w' :=
    .cons (hosts _ _) (.cons (hosts _ _) (.cons (hosts _ _) (.nil _)))
  have apart : ofRepo true ≠ ofRepo false := by decide
  have slashless : ∀ k, '/' ∉ (ofRepo k).1.toList ∧ '/' ∉ (ofRepo k).2.toList := by decide
  have one := hooks_have_one_owner slashless apart passes (numbered_hooked _) earlier registered later
  exact ⟨passes, w₁, w₂, w', earlier, registered, later, rfl, one.1, by decide +kernel⟩

end Gatehouse.Control
