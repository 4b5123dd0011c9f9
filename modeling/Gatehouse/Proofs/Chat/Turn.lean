import Mathlib.Data.Finset.Basic
import Gatehouse.Proofs.Chat.Verdict
import Gatehouse.Proofs.Git.LabelSet

/-!
# Turns of the approval label

What handling an event can do to the label of a pull request: leave it, put it on or take it off, or
turn it over. Of several settings in a row the last one counts (`settle_decided_cons`), so setting is
idempotent; turning over is not (`flip_flip`). `Shift` says of two views that they differ by a turn at
one pull request and by notices, and shifts can be put one after the other (`Shift.trans`).
-/

namespace Gatehouse.Chat

open Git

/-- The label is there as it should be. -/
def place (on : Bool) (set : Finset String) : Finset String :=
  if on then insert approvedLabel set else set.erase approvedLabel

/-- Place the label if that is wished. -/
def settle : Option Bool → Finset String → Finset String
  | none, set => set
  | some on, set => place on set

/-- The label is there if it was not. -/
def flip (set : Finset String) : Finset String := place (decide (approvedLabel ∉ set)) set

variable {on : Bool} {set : Finset String}

theorem mem_place : approvedLabel ∈ place on set ↔ on = true := by
  cases on with
  | true => simp [place]
  | false => simp [place]

theorem mem_flip : approvedLabel ∈ flip set ↔ approvedLabel ∉ set := by
  rw [flip, mem_place, decide_eq_true_iff]

theorem place_of_mem (there : approvedLabel ∈ set) : place true set = set :=
  Finset.insert_eq_of_mem there

theorem place_of_not_mem (absent : approvedLabel ∉ set) : place false set = set :=
  Finset.erase_eq_of_notMem absent

theorem flip_of_mem (there : approvedLabel ∈ set) : flip set = place false set := by
  rw [flip, decide_eq_false (not_not_intro there)]

theorem flip_of_not_mem (absent : approvedLabel ∉ set) : flip set = place true set := by
  rw [flip, decide_eq_true absent]

theorem place_place (on on' : Bool) (set : Finset String) :
    place on' (place on set) = place on' set := by
  cases on with
  | true =>
    cases on' with
    | true => exact place_of_mem (mem_place.mpr rfl)
    | false => exact Finset.erase_insert_eq_erase set approvedLabel
  | false =>
    cases on' with
    | true =>
      by_cases there : approvedLabel ∈ set
      · exact (Finset.insert_erase there).trans (place_of_mem there).symm
      · exact congrArg (place true) (place_of_not_mem there)
    | false => exact place_of_not_mem (by simp [mem_place])

theorem settle_settle (wish : Option Bool) (set : Finset String) :
    settle wish (settle wish set) = settle wish set := by
  cases wish with
  | none => rfl
  | some on => exact place_place on on set

/-- Of two wishes the later one counts. -/
theorem settle_orElse (last first : Option Bool) :
    settle (last <|> first) = settle last ∘ settle first := by
  funext set
  cases last with
  | none => rfl
  | some on =>
    cases first with
    | none => rfl
    | some on' => exact (place_place on' on set).symm

theorem decide_mem_settle (wish : Option Bool) (set : Finset String) :
    decide (approvedLabel ∈ settle wish set) = wish.getD (decide (approvedLabel ∈ set)) := by
  cases wish with
  | none => rfl
  | some on => simp [settle, mem_place]

theorem flip_flip (set : Finset String) : flip (flip set) = set := by
  by_cases there : approvedLabel ∈ set
  · have gone : approvedLabel ∉ flip set := fun back => mem_flip.mp back there
    rw [flip_of_not_mem gone, flip_of_mem there, place_place, place_of_mem there]
  · have back : approvedLabel ∈ flip set := mem_flip.mpr there
    rw [flip_of_mem back, flip_of_not_mem there, place_place, place_of_not_mem there]

theorem flip_ne (set : Finset String) : flip set ≠ set := by
  intro same
  have turned : approvedLabel ∈ flip set ↔ approvedLabel ∉ set := mem_flip
  rw [same] at turned
  exact iff_not_self turned

section Relabel

variable {repository : String} {id : Int} {l : Labels}

theorem relabel_flip_flip :
    relabel repository id flip (relabel repository id flip l) = l := by
  have twice : flip ∘ flip = fun set => set := funext flip_flip
  rw [relabel_relabel, twice, relabel_keep]

theorem relabel_flip_ne (stored : l repository id = some set) :
    relabel repository id flip l ≠ l := by
  intro same
  have here := congrFun (congrFun same repository) id
  rw [relabel_self, stored, Option.map_some] at here
  exact flip_ne set (Option.some.inj here)

end Relabel

/-- Where an intent puts the label, if the comments amount to `found`. -/
def Intent.target (found : Bool) : Intent → Bool
  | .approve => true
  | .cancel => false
  | .check => found

/-- Where a command puts the label, if it is well-formed. -/
def Command.demand? (found : Bool) (c : Command) : Option Bool :=
  c.intent?.map (Intent.target found)

theorem Command.demand?_congr {c : Command} (unasked : c.intent? ≠ some .check)
    (found found' : Bool) : c.demand? found = c.demand? found' := by
  unfold Command.demand?
  cases intent : c.intent? with
  | none => rfl
  | some i =>
    cases i with
    | approve => rfl
    | cancel => rfl
    | check => exact absurd intent unasked

/-- Where commands that are handled in order put the label in the end. -/
def decided (found : Bool) : List Command → Option Bool
  | [] => none
  | c :: cs => decided found cs <|> c.demand? found

theorem settle_decided_cons {found : Bool} {c : Command} {cs : List Command} :
    settle (decided found (c :: cs)) = settle (decided found cs) ∘ settle (c.demand? found) :=
  settle_orElse (decided found cs) (c.demand? found)

/-- What is under a pull request afterwards: another set of labels and some notices, which the
verdict does not heed if they are quiet. -/
structure Shift (repository : String) (id : Int) (quiet : Prop)
    (f : Finset String → Finset String) (v v' : View) : Prop where
  rights : v'.rights = v.rights
  labels : v'.labels = relabel repository id f v.labels
  heard : quiet → verdict (v'.comments repository id) = verdict (v.comments repository id)

namespace Shift

variable {repository : String} {id : Int} {quiet : Prop} {f g : Finset String → Finset String}
  {v v' v'' : View} {c : Comment}

theorem trans (h : Shift repository id quiet f v v') (h' : Shift repository id quiet g v' v'') :
    Shift repository id quiet (g ∘ f) v v'' where
  rights := h'.rights.trans h.rights
  labels := by rw [h'.labels, h.labels, relabel_relabel]
  heard plain := (h'.heard plain).trans (h.heard plain)

theorem refl (v : View) : Shift repository id quiet (settle none) v v where
  rights := rfl
  labels := relabel_keep.symm
  heard _ := rfl

theorem congr (h : Shift repository id quiet f v v')
    (same : ∀ set, v.labels repository id = some set → f set = g set) :
    Shift repository id quiet g v v' where
  rights := h.rights
  labels := h.labels.trans (relabel_congr same)
  heard := h.heard

theorem absent (h : Shift repository id quiet f v v') (none : v.pull? repository id = none) :
    Shift repository id quiet g v v' :=
  h.congr fun set found => by simp [View.labels, none] at found

/-- Where a pull request is known, a turn is what it does to that one. -/
theorem known {pr : PullRequest} (h : Shift repository id quiet f v v')
    (there : v.pull? repository id = some pr) (same : f pr.labelSet = g pr.labelSet) :
    Shift repository id quiet g v v' := by
  refine h.congr fun set found => ?_
  obtain rfl : pr.labelSet = set := by simpa [View.labels, there] using found
  exact same

theorem change {edit : PullRequest → PullRequest} (turn : ∀ pr, (edit pr).labelSet = f pr.labelSet) :
    Shift repository id quiet f v (v.change repository id edit) where
  rights := rfl
  labels := labels_change turn
  heard _ := rfl

theorem post (silent : quiet → Silent c.body) (plain : c.reviewState = none) :
    Shift repository id quiet (settle none) v (v.post repository id [c]) where
  rights := rfl
  labels := relabel_keep.symm
  heard hush := by
    rw [View.comments_post, if_pos ⟨rfl, rfl⟩]
    refine verdict_append_silent ?_
    rintro d member
    obtain rfl := List.mem_singleton.mp member
    exact signal?_silent (silent hush) plain

theorem answers (h : Shift repository id quiet f v v') (before : v.Answers repository) :
    v'.Answers repository :=
  ⟨before.1, by rw [h.rights]; exact before.2⟩

end Shift

end Gatehouse.Chat
