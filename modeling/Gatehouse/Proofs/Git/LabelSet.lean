import Mathlib.Data.Finset.Insert
import Mathlib.Data.Finset.Dedup
import Mathlib.Data.Finset.Erase
import Gatehouse.Proofs.Git.View

/-!
# Sets of labels

The labels of a pull request as a set, and the sets of all pull requests of a view. Setting a label is
`insert` and deleting it is `erase`, whatever the pull request was like before; and what two changes
to one pull request do is their composition (`relabel_relabel`).
-/

namespace Gatehouse.Git

/-- The names of the labels that a pull request carries. -/
def PullRequest.labelSet (pr : PullRequest) : Finset String := (pr.labels.map (·.name)).toFinset

variable {pr : PullRequest} {name label : String}

theorem mem_labelSet : name ∈ pr.labelSet ↔ pr.hasLabel name = true := by
  simp [PullRequest.labelSet, PullRequest.hasLabel]

theorem not_mem_labelSet : name ∉ pr.labelSet ↔ pr.hasLabel name = false := by
  rw [mem_labelSet, Bool.not_eq_true]

theorem labelSet_withLabel :
    (RepoState.withLabel pr label).labelSet = insert label pr.labelSet := by
  unfold RepoState.withLabel
  split
  · rename_i there
    rw [Finset.insert_eq_of_mem (mem_labelSet.mpr there)]
  · ext other
    rw [Finset.mem_insert, PullRequest.labelSet, PullRequest.labelSet, List.mem_toFinset,
      List.mem_toFinset, List.map_append, List.mem_append, List.map_singleton, List.mem_singleton,
      or_comm]

theorem labelSet_withoutLabel :
    (RepoState.withoutLabel pr label).labelSet = pr.labelSet.erase label := by
  ext other
  simp only [PullRequest.labelSet, RepoState.withoutLabel, Finset.mem_erase, List.mem_toFinset,
    List.mem_map, List.mem_filter]
  constructor
  · rintro ⟨l, ⟨there, kept⟩, rfl⟩
    exact ⟨by simpa using kept, l, there, rfl⟩
  · rintro ⟨differs, l, there, rfl⟩
    exact ⟨l, ⟨there, by simpa using differs⟩, rfl⟩

/-- The label sets of the pull requests that there are, by repository and id. -/
abbrev Labels : Type := String → Int → Option (Finset String)

def View.labels (v : View) : Labels := fun repository id =>
  (v.pull? repository id).map (·.labelSet)

/-- Change the labels of one pull request, if it is there. -/
def relabel (repository : String) (id : Int) (f : Finset String → Finset String) (l : Labels) :
    Labels :=
  fun r i => if r = repository ∧ i = id then (l r i).map f else l r i

variable {v : View} {repository : String} {id : Int} {f g : Finset String → Finset String}
  {l : Labels}

theorem relabel_self : relabel repository id f l repository id = (l repository id).map f := by
  simp [relabel]

theorem relabel_other {r : String} {i : Int} (other : ¬ (r = repository ∧ i = id)) :
    relabel repository id f l r i = l r i :=
  if_neg other

theorem relabel_relabel :
    relabel repository id g (relabel repository id f l) = relabel repository id (g ∘ f) l := by
  funext r i
  by_cases here : r = repository ∧ i = id
  · obtain ⟨rfl, rfl⟩ := here
    rw [relabel_self, relabel_self, relabel_self, Option.map_map]
  · rw [relabel_other here, relabel_other here, relabel_other here]

theorem relabel_keep : relabel repository id (fun set => set) l = l := by
  funext r i
  by_cases here : r = repository ∧ i = id
  · obtain ⟨rfl, rfl⟩ := here
    rw [relabel_self, Option.map_id']
  · exact relabel_other here

/-- All that counts is what becomes of the one set that changes. -/
theorem relabel_congr (same : ∀ set, l repository id = some set → f set = g set) :
    relabel repository id f l = relabel repository id g l := by
  funext r i
  by_cases here : r = repository ∧ i = id
  · obtain ⟨rfl, rfl⟩ := here
    rw [relabel_self, relabel_self]
    cases there : l r i with
    | none => rfl
    | some set => rw [Option.map_some, Option.map_some, same set there]
  · rw [relabel_other here, relabel_other here]

theorem labels_change {edit : PullRequest → PullRequest}
    (same : ∀ pr, (edit pr).labelSet = f pr.labelSet) :
    (v.change repository id edit).labels = relabel repository id f v.labels := by
  funext r i
  unfold View.labels
  rw [View.pull?_change]
  by_cases here : r = repository ∧ i = id
  · obtain ⟨rfl, rfl⟩ := here
    rw [if_pos ⟨rfl, rfl⟩, relabel_self, Option.map_map, Option.map_map]
    exact congrArg (fun f => Option.map f (v.pull? r i)) (funext same)
  · rw [if_neg here, relabel_other here]

end Gatehouse.Git
