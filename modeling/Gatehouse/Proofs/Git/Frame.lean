import Gatehouse.Proofs.Git.Hooks
import Gatehouse.Proofs.Git.Settled

/-!
# What operations leave alone

An operation that fails leaves the store as it is; one that succeeds leaves users and all other
repositories as they are, and if it only reads, everything (`Store.Frame`). Every hook and every
comment is given the next id, so the ids that any sequence of operations hands out rise
(`operations_frame`).
-/

namespace Gatehouse

namespace Table

variable {κ α : Type} [LT κ]

/-- The keys ascend. -/
def Ordered (t : Table κ α) : Prop := t.keys.Pairwise (· < ·)

variable [DecidableEq κ] [DecidableLT κ] {t : Table κ α} {k : κ} {a : α}

theorem mem_keys_insertIn {k' : κ} {es : List (κ × α)} :
    k' ∈ (insertIn k a es).map Prod.fst ↔ k' = k ∨ k' ∈ es.map Prod.fst := by
  rw [mem_map_findIn, findIn_insertIn, mem_map_findIn]
  split
  · rename_i same
    simp [same]
  · rename_i other
    simp [other]

theorem insertIn_ordered [Std.Trichotomous (α := κ) (· < ·)]
    [Trans (α := κ) (· < ·) (· < ·) (· < ·)] {es : List (κ × α)}
    (ordered : (es.map Prod.fst).Pairwise (· < ·)) :
    ((insertIn k a es).map Prod.fst).Pairwise (· < ·) := by
  induction es with
  | nil => exact List.pairwise_singleton _ _
  | cons e es ih =>
    obtain ⟨k', b⟩ := e
    obtain ⟨first, rest⟩ := List.pairwise_cons.mp ordered
    unfold insertIn
    split
    · rename_i same
      subst same
      exact List.pairwise_cons.mpr ⟨first, rest⟩
    split
    · rename_i before
      refine List.pairwise_cons.mpr ⟨fun k'' member => ?_, ordered⟩
      rcases List.mem_cons.mp member with rfl | later
      · exact before
      · exact Trans.trans before (first k'' later)
    · rename_i other later
      refine List.pairwise_cons.mpr ⟨fun k'' member => ?_, ih rest⟩
      rcases mem_keys_insertIn.mp member with rfl | there
      · exact (Std.Trichotomous.rel_or_eq_or_rel_swap (r := (· < ·))).resolve_left later
          |>.resolve_left other
      · exact first k'' there

theorem insertIn_self [Std.Asymm (α := κ) (· < ·)] {es : List (κ × α)}
    (ordered : (es.map Prod.fst).Pairwise (· < ·)) (found : findIn k es = some a) :
    insertIn k a es = es := by
  induction es with
  | nil => cases found
  | cons e es ih =>
    obtain ⟨k', b⟩ := e
    obtain ⟨first, rest⟩ := List.pairwise_cons.mp ordered
    unfold findIn at found
    unfold insertIn
    split at found
    · rename_i same
      obtain rfl := Option.some.inj found
      rw [if_pos same, same]
    · rename_i other
      have later : k' < k := first k ((mem_map_findIn k es).mpr ⟨a, found⟩)
      rw [if_neg other, if_neg (Std.Asymm.asymm _ _ later), ih rest found]

theorem Ordered.insert [Std.Trichotomous (α := κ) (· < ·)]
    [Trans (α := κ) (· < ·) (· < ·) (· < ·)] (ordered : t.Ordered) : (t.insert k a).Ordered :=
  insertIn_ordered ordered

/-- To give a key the value that it has changes nothing. -/
theorem Ordered.insert_self [Std.Asymm (α := κ) (· < ·)] (ordered : t.Ordered)
    (found : t.get? k = some a) : t.insert k a = t :=
  congrArg Table.mk (insertIn_self ordered found)

end Table

namespace Git

variable {now : Instant} {repository : String} {q : Query} {s s' : Store}

/-- Does the operation create something that is given an id? -/
def Query.isRegistration : Query → Bool
  | .registerWebhook _ | .registerComment _ _ _ => true
  | _ => false

/-- What an operation on a repository leaves alone, whatever its arguments. -/
structure Store.Frame (now : Instant) (repository : String) (q : Query) (s : Store) (r : q.Outcome)
    (s' : Store) : Prop where
  failed : ∀ e, r = .error e → s' = s
  users : s'.users = s.users
  elsewhere : ∀ place, place ≠ repository →
    s'.repositories.get? place = s.repositories.get? place
  /-- The repositories stay in the order of their names. -/
  ordered : s.repositories.Ordered → s'.repositories.Ordered
  /-- Reading changes no repository, and so nothing in the store. -/
  reading : q.isReading = true →
    (∀ place, s'.repositories.get? place = s.repositories.get? place) ∧
      (s.repositories.Ordered → s' = s)
  /-- Who creates something takes the next id, and nobody else takes one. -/
  counted : s'.lastId = if q.isRegistration && r.isOk then s.lastId + 1 else s.lastId
  hooked : ∀ url, q = .registerWebhook url → r.isOk = true →
    ∀ place, s'.hooks place =
      if place = repository then (s.hooks place).insert s'.lastId ⟨s'.lastId, url⟩
      else s.hooks place
  unhooked : (∀ url, q ≠ .registerWebhook url) →
    ∀ place id hook, (s'.hooks place).get? id = some hook → (s.hooks place).get? id = some hook
  commented : ∀ type issue body, q = .registerComment type issue body → r.isOk = true →
    s'.view.comments = (s.view.post repository issue
      [{ id := s'.lastId, body, author := {}, createdAt := now }]).comments
  uncommented : (∀ type issue body, q ≠ .registerComment type issue body) →
    s'.view.comments = s.view.comments

theorem frame_same {r : q.Outcome} (quiet : (q.isRegistration && r.isOk) = false) :
    s.Frame now repository q r s where
  failed _ _ := rfl
  users := rfl
  elsewhere _ _ := rfl
  ordered := id
  reading _ := ⟨fun _ => rfl, fun _ => rfl⟩
  counted := by rw [quiet, if_neg Bool.false_ne_true]
  hooked url is ok := by
    subst is
    rw [ok] at quiet
    cases quiet
  unhooked _ _ _ _ := id
  commented type issue body is ok := by
    subst is
    rw [ok] at quiet
    cases quiet
  uncommented _ := rfl

theorem isRegistration_of_isReading (reading : q.isReading = true) : q.isRegistration = false := by
  cases q <;> first | rfl | cases reading

theorem comments_put {repo repo' : RepoState} {lastId : Int}
    (found : s.repositories.get? repository = some repo) (same : repo'.comments = repo.comments) :
    (Store.view
      { s with repositories := s.repositories.insert repository repo', lastId }).comments =
        s.view.comments := by
  rw [view_put]
  funext place issue
  dsimp only
  split
  · rename_i here
    subst here
    simp [Store.view, found, same]
  · rfl

theorem frame_step {repo repo' : RepoState} {lastId : Int} {a : q.Answer}
    (found : s.repositories.get? repository = some repo)
    (step : RepoStep now repo s.lastId q repo' lastId) :
    s.Frame now repository q (.ok a)
      { s with repositories := s.repositories.insert repository repo', lastId } where
  failed e failed := by cases failed
  users := rfl
  elsewhere place other := by rw [Table.get?_insert, if_neg other]
  ordered ordered := ordered.insert
  reading reading := by
    cases step with
    | read _ _ =>
      refine ⟨fun place => ?_, fun ordered => ?_⟩
      · rw [Table.get?_insert]
        split
        · rename_i here
          rw [here, found]
        · rfl
      · rw [ordered.insert_self found]
    | _ => cases reading
  counted := by
    cases step with
    | read _ reading => rw [isRegistration_of_isReading reading]; rfl
    | _ => rfl
  hooked url is ok place := by
    subst is
    cases step with
    | read _ reading => cases reading
    | hooked _ =>
      refine (hooks_put s _ _ place).trans ?_
      split
      · rename_i here
        subst here
        simp [Store.hooks, found]
      · rfl
  unhooked other place id hook there := by
    rw [hooks_put] at there
    split at there
    · rename_i here
      subst here
      have same : s.hooks place = repo.hooks := by simp [Store.hooks, found]
      rw [same]
      cases step with
      | hooked url => exact absurd rfl (other url)
      | unhooked id' =>
        rw [Table.get?_erase] at there
        split at there
        · cases there
        · exact there
      | _ => exact there
    · exact there
  commented type issue body is ok := by
    subst is
    cases step with
    | read _ reading => cases reading
    | commented _ _ _ =>
      rw [view_put]
      funext place i
      rw [View.comments_post]
      by_cases here : place = repository
      · subst here
        by_cases same : i = issue
        · subst same
          simp [Store.view, found, RepoState.append, Table.getD]
        · simp [Store.view, found, RepoState.append, Table.getD, same]
      · simp [here]
  uncommented other := by
    refine comments_put found ?_
    cases step with
    | commented _ _ _ => exact absurd rfl (other _ _ _)
    | _ => rfl

/-- Every operation keeps to its frame. -/
theorem frame_answer (now : Instant) (repository : String) (q : Query) (s : Store) :
    s.Frame now repository q (s.answer now repository q).1 (s.answer now repository q).2 := by
  rcases answer_cases now repository q s with ⟨e, failed⟩ | ⟨reading, a, told⟩ |
    ⟨a, repo, repo', lastId, found, step, told⟩
  · rw [failed]
    exact frame_same (Bool.and_false _)
  · rw [told]
    exact frame_same (by rw [isRegistration_of_isReading reading, Bool.false_and])
  · rw [told]
    exact frame_step found step

/-! Many operations. -/

/-- An operation on a repository at some time. -/
structure Call where
  now : Instant
  repository : String
  query : Query

/-- The ids that operations hand out one after the other. -/
def Store.issued : Store → List Call → List Int
  | _, [] => []
  | s, c :: cs =>
    let (r, s') := s.answer c.now c.repository c.query
    if c.query.isRegistration && r.isOk then s'.lastId :: s'.issued cs else s'.issued cs

theorem issued_rise (s : Store) (calls : List Call) :
    (s.issued calls).Pairwise (· < ·) ∧ ∀ id ∈ s.issued calls, s.lastId < id := by
  induction calls generalizing s with
  | nil => exact ⟨.nil, fun id member => absurd member List.not_mem_nil⟩
  | cons c calls ih =>
    have counted := (frame_answer c.now c.repository c.query s).counted
    obtain ⟨rise, above⟩ := ih (s.answer c.now c.repository c.query).2
    unfold Store.issued
    dsimp only
    split at counted
    · rename_i registered
      rw [if_pos registered]
      refine ⟨List.pairwise_cons.mpr ⟨above, rise⟩, fun id member => ?_⟩
      rcases List.mem_cons.mp member with rfl | later
      · omega
      · have := above id later
        omega
    · rename_i other
      rw [if_neg other]
      rw [counted] at above
      exact ⟨rise, above⟩

/-- Every operation on a store in memory keeps to its frame: one that fails changes nothing, one
that succeeds changes nothing but its own repository, and one that reads changes nothing at all. And
whatever the operations of a sequence are, each id that they hand out is larger than those before
it. -/
theorem operations_frame (s : Store) :
    (∀ now repository q,
      s.Frame now repository q (s.answer now repository q).1 (s.answer now repository q).2) ∧
    ∀ calls, (s.issued calls).Pairwise (· < ·) ∧ ∀ id ∈ s.issued calls, s.lastId < id :=
  ⟨fun now repository q => frame_answer now repository q s, issued_rise s⟩

end Git

end Gatehouse
