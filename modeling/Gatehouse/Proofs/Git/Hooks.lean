import Mathlib.Data.List.Nodup
import Gatehouse.Proofs.Git.Step

/-!
# The hooks of a store

A store numbers everything that it creates, so a new hook comes after all hooks that are there. An
operation registers a hook, deletes one or leaves the hooks of all repositories as they are
(`hookStep_of_may`). Where every hook is kept under its own number (`Store.Numbered`), which is so if
the hooks were all registered through operations (`numbered_of_follows`), a number never stands for
another hook than the first one that had it (`Store.Stands.step`).
-/

namespace Gatehouse

namespace Table

variable {κ α : Type} [DecidableEq κ]

/-- If no key is there twice, look-up finds every entry. -/
theorem findIn_eq_some_iff {k : κ} {a : α} {es : List (κ × α)}
    (distinct : (es.map Prod.fst).Nodup) : findIn k es = some a ↔ (k, a) ∈ es := by
  induction es with
  | nil => simp [findIn]
  | cons e es ih =>
    obtain ⟨k', b⟩ := e
    obtain ⟨new, distinct⟩ := List.nodup_cons.mp distinct
    by_cases same : k = k'
    · subst same
      have absent : (k, a) ∉ es := fun member => new (List.mem_map.mpr ⟨(k, a), member, rfl⟩)
      simp [findIn, absent, eq_comm]
    · simp [findIn, same, ih distinct]

/-- A number above all keys goes to the end. -/
theorem insertIn_last {k : Int} {a : α} {es : List (Int × α)} (above : ∀ e ∈ es, e.1 < k) :
    insertIn k a es = es ++ [(k, a)] := by
  induction es with
  | nil => rfl
  | cons e es ih =>
    obtain ⟨k', b⟩ := e
    have below : k' < k := above (k', b) (by simp)
    rw [insertIn, if_neg (by omega), if_neg (by omega),
      ih fun e member => above e (List.mem_cons_of_mem _ member), List.cons_append]

theorem keys_erase (t : Table κ α) (k : κ) : (t.erase k).keys = t.keys.filter (· ≠ k) := by
  simp [keys, erase, List.filter_map, Function.comp_def]

end Table

namespace Git

open Program

variable {repository : String} {q : Query} {s s' : Store} {id : Int} {hook : Hook}

/-- The hooks of a repository; a repository that is not there has none. -/
def Store.hooks (s : Store) (repository : String) : Table Int Hook :=
  ((s.repositories.get? repository).map (·.hooks)).getD ∅

theorem hooks_put (s : Store) (repo : RepoState) (lastId : Int) (place : String) :
    Store.hooks
        { s with repositories := s.repositories.insert repository repo, lastId } place =
      if place = repository then repo.hooks else s.hooks place := by
  simp only [Store.hooks, Table.get?_insert]
  split <;> rfl

/-- Is it an operation on hooks? -/
def Query.isAboutHooks : Query → Bool
  | .listWebhooks | .registerWebhook _ | .deleteWebhook _ => true
  | _ => false

/-- What an operation on a repository does to the hooks of a store. -/
inductive HookStep (repository : String) (s s' : Store) : (q : Query) → q.Outcome → Prop
  | listed (kept : ∀ place, s'.hooks place = s.hooks place) (count : s'.lastId = s.lastId) :
      HookStep repository s s' .listWebhooks (.ok (s.hooks repository).values)
  | registered (url : String) (count : s'.lastId = s.lastId + 1)
      (new : ∀ place, s'.hooks place =
        if place = repository then (s.hooks place).insert s'.lastId ⟨s'.lastId, url⟩
        else s.hooks place) :
      HookStep repository s s' (.registerWebhook url) (.ok ())
  | deleted (id : Int) (count : s'.lastId = s.lastId)
      (rest : ∀ place, s'.hooks place =
        if place = repository then (s.hooks place).erase id else s.hooks place) :
      HookStep repository s s' (.deleteWebhook id) (.ok ())
  | refused (q : Query) (e : Error) (same : s' = s) : HookStep repository s s' q (.error e)
  | other (q : Query) (r : q.Outcome) (apart : q.isAboutHooks = false)
      (kept : ∀ place, s'.hooks place = s.hooks place) (count : s.lastId ≤ s'.lastId) :
      HookStep repository s s' q r

theorem hooks_other {now : Instant} {repo repo' : RepoState} {lastId lastId' : Int} {a : q.Answer}
    (apart : q.isAboutHooks = false)
    (answered : repo.answer now lastId q = .ok (a, repo', lastId')) :
    repo'.hooks = repo.hooks ∧ lastId ≤ lastId' := by
  cases repoStep_of_answer answered with
  | hooked _ | unhooked _ => cases apart
  | commented _ _ _ => exact ⟨rfl, by omega⟩
  | read _ _ | reported _ _ | merged _ _ _ _ _ _ | labelled _ _ _ _ _ | unlabelled _ _ _ _ _ =>
    exact ⟨rfl, Int.le_refl _⟩

theorem hookStep_keep {now : Instant} {repo : RepoState}
    (found : s.repositories.get? repository = some repo) :
    HookStep repository s (s.keep repository (repo.answer now s.lastId q)).2 q
      (s.keep repository (repo.answer now s.lastId q)).1 := by
  have here : s.hooks repository = repo.hooks := by
    simp [Store.hooks, found]
  -- Where the repository keeps its hooks, so does the store.
  have kept {repo' : RepoState} {lastId : Int} (same : repo'.hooks = repo.hooks) (place : String) :
      Store.hooks
        { s with repositories := s.repositories.insert repository repo', lastId } place =
        s.hooks place := by
    rw [hooks_put, same, ← here]
    split
    · rename_i there
      rw [there]
    · rfl
  cases apart : q.isAboutHooks with
  | false =>
    cases answered : repo.answer now s.lastId q with
    | error e => exact .refused q e rfl
    | ok told =>
      obtain ⟨a, repo', lastId'⟩ := told
      obtain ⟨same, count⟩ := hooks_other apart answered
      exact .other q (.ok a) apart (kept same) count
  | true =>
    cases q with
    | listWebhooks =>
      have listed : HookStep repository s _ .listWebhooks (.ok (s.hooks repository).values) :=
        .listed (kept rfl) rfl
      rw [here] at listed
      exact listed
    | registerWebhook url =>
      refine .registered url rfl fun place => ?_
      refine (hooks_put s _ _ place).trans ?_
      split
      · rename_i there
        rw [there, here]
        rfl
      · rfl
    | deleteWebhook id =>
      simp only [RepoState.answer]
      cases there : repo.hooks.get? id with
      | none => exact .refused _ _ rfl
      | some hook =>
        refine .deleted id rfl fun place => ?_
        refine (hooks_put s _ _ place).trans ?_
        split
        · rename_i there
          rw [there, here]
        · rfl
    | _ => cases apart

theorem hookStep_answer (now : Instant) (repository : String) (q : Query) (s : Store) :
    HookStep repository s (s.answer now repository q).2 q (s.answer now repository q).1 := by
  cases about : q.isUserInfo with
  | true =>
    cases q with
    | getUserInfo name =>
      unfold Store.answer
      split
      · exact .refused _ _ rfl
      · dsimp only
        split
        · exact .other _ _ rfl (fun _ => rfl) (Int.le_refl _)
        · exact .refused _ _ rfl
    | _ => cases about
  | false =>
    by_cases answers : s.view.Answers repository
    · obtain ⟨free, repo, found⟩ := answers_iff.mp answers
      rw [answer_open free found about]
      exact hookStep_keep found
    · obtain ⟨e, refused⟩ := answer_refused now answers about
      rw [refused]
      exact .refused q e rfl

/-- An operation registers a hook, deletes one or leaves the hooks as they are. -/
theorem hookStep_of_may {r : q.Outcome} (may : s.May repository q r s') :
    HookStep repository s s' q r := by
  rcases may with ⟨now, answered⟩ | ⟨-, ⟨e, rfl⟩, same⟩
  · have step := hookStep_answer now repository q s
    rw [answered] at step
    exact step
  · exact .refused q e same

/-! Numbers of hooks. -/

/-- Every hook is kept under its own number, which was handed out, and no number is there twice. -/
structure Store.Numbered (s : Store) : Prop where
  own : ∀ place, ∀ e ∈ (s.hooks place).entries, e.2.id = e.1 ∧ e.1 ≤ s.lastId
  distinct : ∀ place, (s.hooks place).keys.Nodup

/-- The hooks of a repository as a client lists them. -/
def Store.hookList (s : Store) (repository : String) : List Hook := (s.hooks repository).values

theorem numbered_hookless (none : ∀ place, s.hooks place = ∅) : s.Numbered := by
  constructor
  · intro place e member
    rw [none place] at member
    cases member
  · intro place
    rw [none place]
    exact List.nodup_nil

/-- A new hook comes after all others. -/
theorem Store.Numbered.entries_insert (numbered : s.Numbered) (place : String) (hook : Hook) :
    ((s.hooks place).insert (s.lastId + 1) hook).entries =
      (s.hooks place).entries ++ [(s.lastId + 1, hook)] := by
  refine Table.insertIn_last fun e member => ?_
  have handed := (numbered.own place e member).2
  omega

theorem Store.Numbered.step {r : q.Outcome} (numbered : s.Numbered)
    (step : HookStep repository s s' q r) : s'.Numbered := by
  have keep (kept : ∀ place, s'.hooks place = s.hooks place) (count : s.lastId ≤ s'.lastId) :
      s'.Numbered := by
    constructor
    · intro place e member
      rw [kept place] at member
      obtain ⟨same, handed⟩ := numbered.own place e member
      exact ⟨same, by omega⟩
    · intro place
      rw [kept place]
      exact numbered.distinct place
  cases step with
  | listed kept count => exact keep kept (by omega)
  | other _ _ _ kept count => exact keep kept count
  | refused _ e same =>
    rw [same]
    exact numbered
  | registered url count new =>
    constructor
    · intro place e member
      rw [new place] at member
      split at member
      · rw [count, numbered.entries_insert, List.mem_append, List.mem_singleton] at member
        rcases member with member | rfl
        · obtain ⟨same, handed⟩ := numbered.own place e member
          exact ⟨same, by omega⟩
        · exact ⟨rfl, by omega⟩
      · obtain ⟨same, handed⟩ := numbered.own place e member
        exact ⟨same, by omega⟩
    · intro place
      rw [new place]
      split
      · rw [count, Table.keys, numbered.entries_insert, List.map_append]
        refine List.Nodup.append (numbered.distinct place) (List.nodup_singleton _) ?_
        intro id before now
        obtain ⟨e, member, rfl⟩ := List.mem_map.mp before
        have handed := (numbered.own place e member).2
        have last : e.1 = s.lastId + 1 := by simpa using now
        omega
      · exact numbered.distinct place
  | deleted id count rest =>
    constructor
    · intro place e member
      rw [rest place] at member
      rw [count]
      split at member
      · exact numbered.own place e (List.mem_of_mem_filter member)
      · exact numbered.own place e member
    · intro place
      rw [rest place]
      split
      · rw [Table.keys_erase]
        exact (numbered.distinct place).filter _
      · exact numbered.distinct place

/-- Hooks that were all registered through operations are kept under their own numbers. -/
theorem numbered_of_follows {es : List (Event Query.Outcome)}
    (follows : Follows (Store.May repository) s es s') (numbered : s.Numbered) : s'.Numbered :=
  follows.keeps (fun _ _ _ _ may numbered => numbered.step (hookStep_of_may may)) numbered

/-- What is listed can be looked up under its number. -/
theorem Store.Numbered.get?_of_mem (numbered : s.Numbered)
    (member : hook ∈ s.hookList repository) :
    (s.hooks repository).get? hook.id = some hook ∧ hook.id ≤ s.lastId := by
  obtain ⟨⟨id, there⟩, entry, rfl⟩ := List.mem_map.mp member
  obtain ⟨same, handed⟩ := numbered.own repository _ entry
  have same : there.id = id := same
  refine ⟨(Table.findIn_eq_some_iff (numbered.distinct repository)).mpr ?_, ?_⟩
  · rw [same]
    exact entry
  · rw [same]
    exact handed

theorem hookList_listed {hooks : List Hook}
    (step : HookStep repository s s' .listWebhooks (.ok hooks)) :
    hooks = s.hookList repository := by
  cases step with
  | listed kept count => rfl
  | other _ _ apart => cases apart

/-- What an operation does to the hooks of a repository as they are listed. -/
theorem hookList_step {r : q.Outcome} (numbered : s.Numbered) (step : HookStep repository s s' q r)
    (place : String) :
    s'.hookList place = s.hookList place ∨
    (∃ url, q = .registerWebhook url ∧ place = repository ∧
      s'.hookList place = s.hookList place ++ [⟨s.lastId + 1, url⟩]) ∨
    ∃ id, q = .deleteWebhook id ∧ place = repository ∧
      s'.hookList place = (s.hookList place).filter (·.id ≠ id) := by
  unfold Store.hookList
  cases step with
  | listed kept count => exact .inl (congrArg Table.values (kept place))
  | other _ _ _ kept count => exact .inl (congrArg Table.values (kept place))
  | refused _ e same => exact .inl (by rw [same])
  | registered url count new =>
    rw [new place, count]
    split
    · rename_i there
      refine .inr (.inl ⟨url, rfl, there, ?_⟩)
      rw [Table.values, numbered.entries_insert, List.map_append]
      rfl
    · exact .inl rfl
  | deleted id count rest =>
    rw [rest place]
    split
    · rename_i there
      refine .inr (.inr ⟨id, rfl, there, ?_⟩)
      rw [Table.values, Table.values, Table.erase, List.filter_map]
      refine congrArg (List.map Prod.snd) (List.filter_congr fun e member => ?_)
      obtain ⟨same, -⟩ := numbered.own place e member
      simp [same]
    · exact .inl rfl

/-! What a number stands for. -/

/-- The number was handed out, and a hook that has it is one for the URL. -/
def Store.Stands (place : String) (id : Int) (url : String) (s : Store) : Prop :=
  id ≤ s.lastId ∧ ∀ hook, (s.hooks place).get? id = some hook → hook.url = url

theorem Store.Stands.step {place url : String} {r : q.Outcome} (stands : s.Stands place id url)
    (step : HookStep repository s s' q r) : s'.Stands place id url := by
  obtain ⟨handed, is⟩ := stands
  cases step with
  | listed kept count => exact ⟨by omega, fun hook there => is hook (kept place ▸ there)⟩
  | other _ _ _ kept count => exact ⟨by omega, fun hook there => is hook (kept place ▸ there)⟩
  | refused _ e same =>
    subst same
    exact ⟨handed, is⟩
  | registered _ count new =>
    refine ⟨by omega, fun hook there => ?_⟩
    have older : id ≠ s'.lastId := by omega
    rw [new place] at there
    split at there
    · rw [Table.get?_insert, if_neg older] at there
      exact is hook there
    · exact is hook there
  | deleted _ count rest =>
    refine ⟨by omega, fun hook there => ?_⟩
    rw [rest place] at there
    split at there
    · rw [Table.get?_erase] at there
      split at there
      · cases there
      · exact is hook there
    · exact is hook there

theorem stands_registered {url : String}
    (step : HookStep repository s s' (.registerWebhook url) (.ok ())) :
    s'.lastId = s.lastId + 1 ∧ s'.Stands repository s'.lastId url := by
  cases step with
  | registered _ count new =>
    refine ⟨count, Int.le_refl _, fun hook there => ?_⟩
    rw [new repository, if_pos rfl, Table.get?_insert, if_pos rfl] at there
    obtain rfl := Option.some.inj there
    rfl
  | other _ _ apart => cases apart

theorem stands_listed (numbered : s.Numbered) (member : hook ∈ s.hookList repository) :
    s.Stands repository hook.id hook.url := by
  obtain ⟨found, handed⟩ := numbered.get?_of_mem member
  refine ⟨handed, fun hook' there => ?_⟩
  obtain rfl := Option.some.inj (found.symm.trans there)
  rfl

end Git

end Gatehouse
