import Gatehouse.Proofs.Settings.Nodes
import Mathlib.Data.List.Induction

/-!
# What a document sets

The nodes of a document are applied in their order, until one cannot be. If all can be, every key is set
by its last node (`foldlM_eq_ok`), so nodes for other keys may come in between or not
(`ofNodes_congr`). If not, the first node that cannot be applied says why, whatever comes after it
(`foldlM_eq_error`).
-/

namespace Gatehouse.Settings

variable {nodes nodes' : List Kdl.Node} {s s' : Settings} {node : Kdl.Node} {k : Key} {e : Error}

/-- The last node for a key. -/
def last? (k : Key) (nodes : List Kdl.Node) : Option Kdl.Node :=
  (nodes.filter (·.name = k.name)).getLast?

theorem last?_concat :
    last? k (nodes ++ [node]) = if node.name = k.name then some node else last? k nodes := by
  unfold last?
  rw [List.filter_append]
  by_cases same : node.name = k.name
  · simp [same]
  · simp [same]

/-- Every key is set by its last node, and as it was if there is none. -/
def Taken (s : Settings) (nodes : List Kdl.Node) (s' : Settings) : Prop :=
  ∀ k, match last? k nodes with
    | some node => Sets node k (s'.get k)
    | none => s'.get k = s.get k

/-- The first node that is not right offends. -/
def FirstOffends (nodes : List Kdl.Node) (e : Error) : Prop :=
  ∃ before node after, nodes = before ++ node :: after ∧ (∀ n ∈ before, Valid n) ∧ Offends node e

theorem Taken.unique (taken : Taken s nodes s') {t : Settings} (again : Taken s nodes t) : s' = t := by
  refine ext_get fun k => ?_
  have first := taken k
  have second := again k
  cases last : last? k nodes with
  | none =>
    rw [last] at first second
    exact first.trans second.symm
  | some node =>
    rw [last] at first second
    exact first.unique second

theorem Taken.concat (taken : Taken s nodes s') {v : k.Value} (sets : Sets node k v) :
    Taken s (nodes ++ [node]) (s'.put k v) := by
  intro k'
  rw [last?_concat]
  by_cases same : k' = k
  · subst same
    rw [if_pos sets.name.symm]
    simpa using sets
  · have other : node.name ≠ k'.name := fun name =>
      same (Key.name_injective (name.symm.trans sets.name.symm))
    rw [if_neg other, get_put_of_ne same]
    exact taken k'

theorem foldlM_past (folded : nodes.foldlM apply s = .ok s') (after : List Kdl.Node) :
    (nodes ++ after).foldlM apply s = after.foldlM apply s' := by
  rw [List.foldlM_append, folded]
  rfl

theorem foldlM_valid (valid : ∀ node ∈ nodes, Valid node) (s : Settings) :
    ∃ s', nodes.foldlM apply s = .ok s' ∧ Taken s nodes s' := by
  -- From the right, for the last node decides about its key.
  induction nodes using List.reverseRecOn with
  | nil => exact ⟨s, rfl, fun k => rfl⟩
  | append_singleton nodes node ih =>
    obtain ⟨m, folded, taken⟩ := ih fun n known => valid n (by simp [known])
    obtain ⟨k, v, sets⟩ := valid node (by simp)
    refine ⟨m.put k v, ?_, taken.concat sets⟩
    rw [foldlM_past folded, List.foldlM_cons, sets.apply]
    rfl

theorem foldlM_firstOffends (first : FirstOffends nodes e) (s : Settings) :
    nodes.foldlM apply s = .error e := by
  obtain ⟨before, node, after, rfl, valid, offends⟩ := first
  obtain ⟨m, folded, -⟩ := foldlM_valid valid s
  rw [foldlM_past folded, List.foldlM_cons, offends.apply]
  rfl

theorem valid_or_firstOffends (nodes : List Kdl.Node) :
    (∀ node ∈ nodes, Valid node) ∨ ∃ e, FirstOffends nodes e := by
  induction nodes with
  | nil => exact .inl nofun
  | cons node nodes ih =>
    obtain valid | ⟨e, offends⟩ := valid_or_offends node
    · obtain all | ⟨e, before, bad, after, rfl, fine, offends⟩ := ih
      · exact .inl (List.forall_mem_cons.mpr ⟨valid, all⟩)
      · have fine' : ∀ n ∈ node :: before, Valid n := List.forall_mem_cons.mpr ⟨valid, fine⟩
        exact .inr ⟨e, node :: before, bad, after, rfl, fine', offends⟩
    · exact .inr ⟨e, [], node, nodes, rfl, nofun, offends⟩

theorem foldlM_eq_ok :
    nodes.foldlM apply s = .ok s' ↔ (∀ node ∈ nodes, Valid node) ∧ Taken s nodes s' := by
  constructor
  · intro folded
    obtain valid | ⟨e, first⟩ := valid_or_firstOffends nodes
    · obtain ⟨t, again, taken⟩ := foldlM_valid valid s
      obtain rfl := Except.ok.inj (folded.symm.trans again)
      exact ⟨valid, taken⟩
    · rw [foldlM_firstOffends first] at folded
      cases folded
  · rintro ⟨valid, taken⟩
    obtain ⟨t, folded, again⟩ := foldlM_valid valid s
    rw [folded, taken.unique again]

theorem foldlM_eq_error : nodes.foldlM apply s = .error e ↔ FirstOffends nodes e := by
  constructor
  · intro failed
    obtain valid | ⟨e', first⟩ := valid_or_firstOffends nodes
    · obtain ⟨t, folded, -⟩ := foldlM_valid valid s
      rw [folded] at failed
      cases failed
    · rw [foldlM_firstOffends first] at failed
      obtain rfl := Except.error.inj failed
      exact first
  · exact fun first => foldlM_firstOffends first s

/-- Documents of valid nodes with the same last nodes set the same. -/
theorem ofNodes_congr (valid : ∀ node ∈ nodes', Valid node)
    (same : ∀ k, last? k nodes' = last? k nodes) (folded : ofNodes nodes = .ok s) :
    ofNodes nodes' = .ok s := by
  refine foldlM_eq_ok.mpr ⟨valid, fun k => ?_⟩
  rw [same]
  exact (foldlM_eq_ok.mp folded).2 k

/-- A node before another one for its key is never the last. -/
theorem last?_overridden {before after : List Kdl.Node} (later : ∃ n ∈ after, n.name = node.name) :
    last? k (before ++ after) = last? k (before ++ node :: after) := by
  unfold last?
  rw [List.filter_append, List.filter_append, List.filter_cons]
  split
  · rename_i named
    obtain ⟨n, known, same⟩ := later
    have some : after.filter (·.name = k.name) ≠ [] :=
      List.ne_nil_of_mem (List.mem_filter.mpr ⟨known, by simpa [same] using named⟩)
    obtain ⟨last, ends⟩ := Option.isSome_iff_exists.mp (List.getLast?_isSome.mpr some)
    rw [List.getLast?_append, List.getLast?_append, List.getLast?_cons, ends]
    rfl
  · rfl

/-- A number is at least 1, and it is the one that is written if any is. -/
theorem Taken.number {n : Nat} (taken : Taken {} nodes s) (number : k.number? (s.get k) = some n) :
    1 ≤ n ∧ ∀ node, last? k nodes = some node → node.argument? = some (.integer n) := by
  have set := taken k
  cases last : last? k nodes with
  | none =>
    rw [last] at set
    rw [set] at number
    exact ⟨number_default number, nofun⟩
  | some node =>
    rw [last] at set
    obtain ⟨-, w, given, reads⟩ := set
    obtain ⟨positive, rfl⟩ := reads.number number
    refine ⟨positive, ?_⟩
    rintro _ ⟨⟩
    exact given

/-- The nodes of a document decide what it sets. It sets something if all of them are right for their
keys, and then every key is set by its last node, or as by default if there is none. Numbers are at least
1 and as they are written. Nodes of one name may come at other places between the others, and one that
another of its name follows may be left out. Else the first node that is not right is the error,
whatever comes after it. -/
theorem settings_from_nodes (nodes : List Kdl.Node) :
    (∀ text, Kdl.parse? text = some nodes → parse text = ofNodes nodes) ∧
    ((∃ s, ofNodes nodes = .ok s) ↔ ∀ node ∈ nodes, Valid node) ∧
    (∀ s, ofNodes nodes = .ok s →
      Taken {} nodes s ∧ 1 ≤ s.maxConcurrentJobs ∧ 1 ≤ s.requeueSeconds ∧
      (∀ node, last? .maxConcurrentJobs nodes = some node →
        node.argument? = some (.integer s.maxConcurrentJobs)) ∧
      (∀ node, last? .requeueSeconds nodes = some node →
        node.argument? = some (.integer s.requeueSeconds)) ∧
      (∀ nodes', (∀ name, nodes'.filter (·.name = name) = nodes.filter (·.name = name)) →
        ofNodes nodes' = .ok s) ∧
      ∀ before node after, nodes = before ++ node :: after → (∃ n ∈ after, n.name = node.name) →
        ofNodes (before ++ after) = .ok s) ∧
    ∀ e, ofNodes nodes = .error e ↔ FirstOffends nodes e := by
  refine ⟨?_, ?_, fun s folded => ?_, fun e => foldlM_eq_error⟩
  · intro text parsed
    rw [parse, parsed]
  · constructor
    · rintro ⟨s, folded⟩
      exact (foldlM_eq_ok.mp folded).1
    · intro valid
      obtain ⟨s, folded, -⟩ := foldlM_valid valid {}
      exact ⟨s, folded⟩
  obtain ⟨valid, taken⟩ := foldlM_eq_ok.mp folded
  obtain ⟨jobs, writtenJobs⟩ := taken.number (k := .maxConcurrentJobs) rfl
  obtain ⟨seconds, writtenSeconds⟩ := taken.number (k := .requeueSeconds) rfl
  refine ⟨taken, jobs, seconds, writtenJobs, writtenSeconds, ?_, ?_⟩
  · intro nodes' same
    refine ofNodes_congr (fun node known => valid node ?_) (fun k => ?_) folded
    · have kept : node ∈ nodes'.filter (·.name = node.name) := List.mem_filter.mpr ⟨known, by simp⟩
      rw [same] at kept
      exact (List.mem_filter.mp kept).1
    · rw [last?, same, last?]
  · rintro before node after rfl later
    refine ofNodes_congr (fun n known => valid n ?_) (fun k => last?_overridden later) folded
    simp only [List.mem_append, List.mem_cons] at known ⊢
    tauto

/-- A later node for the same key does not repair one that is not right. -/
example : ofNodes [.mk "requeue-seconds" [{ value := .integer 0 }] [],
    .mk "requeue-seconds" [{ value := .integer 5 }] []] =
      .error (.invalid "requeue-seconds" "must be at least 1, got 0") := rfl

end Gatehouse.Settings
