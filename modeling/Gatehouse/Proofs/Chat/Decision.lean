import Mathlib.Data.List.Nodup
import Gatehouse.Proofs.Chat.Verdict
import Gatehouse.Proofs.Time.Order

/-!
# The comment that decides

A comment says yes or no by its review state or, without one, by its first command that votes
(`Says`). Of the comments that say anything the newest decides, by time and then by id (`Decides`).
In a history where no two comments have both the same time and the same id there is only one such
comment, so the order in which the history is kept does not matter, nor do older comments and those
that say nothing (`Decides.verdict_sameBut`).
-/

namespace Gatehouse

namespace Git

variable {a b c : Comment} {cs : List Comment}

/-- What comments are ordered by. -/
def Comment.stamp (c : Comment) := toLex (c.createdAt.parts, c.id)

theorem Comment.notOlder_iff_stamp : a.notOlder b = true ↔ b.stamp ≤ a.stamp := by
  rw [notOlder_iff, stamp, stamp, Prod.Lex.toLex_le_toLex, Instant.rank_lt_iff, Instant.rank_inj,
    Instant.parts_inj]

theorem Comment.stamp_inj :
    a.stamp = b.stamp ↔ (a.createdAt, a.id) = (b.createdAt, b.id) := by
  rw [stamp, stamp, toLex_inj, Prod.mk.injEq, Prod.mk.injEq, Instant.parts_inj]

/-- No two comments have both the same time and the same id. -/
def AllDistinct (cs : List Comment) : Prop := (cs.map fun c => (c.createdAt, c.id)).Nodup

theorem AllDistinct.eq_of_stamp (distinct : AllDistinct cs) (member : a ∈ cs) (member' : b ∈ cs)
    (same : a.stamp = b.stamp) : a = b :=
  List.inj_on_of_nodup_map distinct member member' (Comment.stamp_inj.mp same)

theorem mem_newestFirst : c ∈ newestFirst cs ↔ c ∈ cs := List.mem_mergeSort

end Git

namespace Chat

open Git

variable {c d : Comment} {cs cs' : List Comment} {cmd : Command} {v w : Bool}

/-! What one comment says. -/

/-- The command approves or cancels. -/
inductive Votes : Command → Bool → Prop
  | approve {name : String} (known : name ∈ approveCommands) : Votes ⟨name, []⟩ true
  | cancel {name : String} (known : name ∈ approveCommands) : Votes ⟨name, ["cancel"]⟩ false

theorem votes_iff : Votes cmd v ↔ cmd.vote? = some v := by
  constructor
  · rintro (known | known)
    · simp [Command.vote?, Command.intent?, known]
    · simp [Command.vote?, Command.intent?, known]
  · intro voted
    obtain ⟨name, args⟩ := cmd
    unfold Command.vote? Command.intent? at voted
    dsimp only at voted
    split at voted
    case h_1 asked =>
      split at asked
      · rename_i known
        split at asked <;> cases asked
        cases voted
        exact .approve (List.contains_iff_mem.mp known)
      · cases asked
    case h_2 asked =>
      split at asked
      · rename_i known
        split at asked <;> cases asked
        cases voted
        exact .cancel (List.contains_iff_mem.mp known)
      · cases asked
    case h_3 => cases voted

theorem not_votes_iff : (∀ v, ¬ Votes cmd v) ↔ cmd.vote? = none := by
  simp only [votes_iff, Option.eq_none_iff_forall_ne_some, ne_eq]

/-- The comment says that the pull request is approved, or that it is not. -/
inductive Says (c : Comment) : Bool → Prop
  | approved (review : c.reviewState = some .approved) : Says c true
  | unapproved (review : c.reviewState = some .unapproved) : Says c false
  | command {before after : List Command} {cmd : Command} {v : Bool} (plain : c.reviewState = none)
      (body : extractCommands c.body = before ++ cmd :: after)
      (first : ∀ b ∈ before, ∀ w, ¬ Votes b w) (votes : Votes cmd v) : Says c v

theorem signal?_eq_some_iff : signal? c = some v ↔ Says c v := by
  constructor
  · intro signal
    unfold signal? at signal
    split at signal
    · rename_i review
      cases signal
      exact .approved review
    · rename_i review
      cases signal
      exact .unapproved review
    · rename_i plain
      obtain ⟨before, cmd, after, body, vote, first⟩ := List.findSome?_eq_some_iff.mp signal
      exact .command plain body (fun b member => not_votes_iff.mpr (first b member))
        (votes_iff.mpr vote)
  · rintro (review | review | ⟨plain, body, first, votes⟩)
    · rw [signal?, review]
    · rw [signal?, review]
    · rw [signal?, plain]
      exact List.findSome?_eq_some_iff.mpr
        ⟨_, _, _, body, votes_iff.mp votes, fun b member => not_votes_iff.mp (first b member)⟩

theorem decisive_iff_exists : Decisive c ↔ ∃ v, Says c v := by
  simp only [decisive_iff, ← signal?_eq_some_iff, Option.ne_none_iff_exists']

theorem signal?_eq_none_iff : signal? c = none ↔ ¬ Decisive c := by
  rw [decisive_iff, not_not]

/-! What a history says. -/

/-- Of the comments that say anything this one is the newest. -/
structure Decides (cs : List Comment) (c : Comment) (v : Bool) : Prop where
  mem : c ∈ cs
  said : Says c v
  newest : ∀ d ∈ cs, Decisive d → d.stamp ≤ c.stamp

theorem Decides.decisive (decides : Decides cs c v) : Decisive c :=
  decisive_iff_exists.mpr ⟨v, decides.said⟩

/-- The first comment that says anything, in a list that has the newest first, is the newest. -/
theorem Decides.of_first (first : (newestFirst cs).findSome? signal? = some v) :
    ∃ c, Decides cs c v := by
  obtain ⟨before, c, after, order, said, silent⟩ := List.findSome?_eq_some_iff.mp first
  have sorted := pairwise_newestFirst cs
  rw [order] at sorted
  have behind := (List.pairwise_cons.mp (List.pairwise_append.mp sorted).2.1).1
  have member : c ∈ newestFirst cs := by simp [order]
  refine ⟨c, mem_newestFirst.mp member, signal?_eq_some_iff.mp said, fun d inside decisive => ?_⟩
  have place : d ∈ before ++ c :: after := order ▸ mem_newestFirst.mpr inside
  rcases List.mem_append.mp place with ahead | later
  · exact absurd decisive (signal?_eq_none_iff.mp (silent d ahead))
  rcases List.mem_cons.mp later with rfl | later
  · exact le_rfl
  · exact Comment.notOlder_iff_stamp.mp (behind d later)

theorem exists_decides (member : c ∈ cs) (decisive : Decisive c) : ∃ c v, Decides cs c v := by
  cases first : (newestFirst cs).findSome? signal? with
  | none =>
    have silent := List.findSome?_eq_none_iff.mp first c (mem_newestFirst.mpr member)
    exact absurd decisive (signal?_eq_none_iff.mp silent)
  | some v =>
    obtain ⟨d, decides⟩ := Decides.of_first first
    exact ⟨d, v, decides⟩

theorem verdict_indecisive (indecisive : ∀ c ∈ cs, ¬ Decisive c) : verdict cs = false := by
  have none : (newestFirst cs).findSome? signal? = none :=
    List.findSome?_eq_none_iff.mpr fun c member =>
      signal?_eq_none_iff.mpr (indecisive c (mem_newestFirst.mp member))
  rw [verdict, approvalVerdict, none]
  rfl

/-- The verdict is what the comment says that alone can decide. -/
theorem Decides.verdict_eq (decides : Decides cs c v) (alone : ∀ d w, Decides cs d w → d = c) :
    verdict cs = v := by
  cases first : (newestFirst cs).findSome? signal? with
  | none =>
    have silent := List.findSome?_eq_none_iff.mp first c (mem_newestFirst.mpr decides.mem)
    exact absurd decides.decisive (signal?_eq_none_iff.mp silent)
  | some w =>
    obtain ⟨d, decides'⟩ := Decides.of_first first
    obtain rfl := alone d w decides'
    have same : some w = some v :=
      (signal?_eq_some_iff.mpr decides'.said).symm.trans (signal?_eq_some_iff.mpr decides.said)
    rw [verdict, approvalVerdict, first]
    exact Option.some.inj same

/-! Histories that differ. -/

/-- Two histories have the same comments apart from some that are spare, in whatever order. -/
def SameBut (spare : Comment → Prop) (cs cs' : List Comment) : Prop :=
  ∀ d, ¬ spare d → (d ∈ cs ↔ d ∈ cs')

theorem sameBut_of_perm {spare : Comment → Prop} (perm : cs.Perm cs') : SameBut spare cs cs' :=
  fun _ _ => perm.mem_iff

/-- While a comment decides, one that says nothing or is older is spare. -/
def Spare (c d : Comment) : Prop := ¬ Decisive d ∨ d.stamp < c.stamp

theorem Decisive.not_spare (decisive : Decisive d) (newer : c.stamp ≤ d.stamp) : ¬ Spare c d
  | .inl indecisive => indecisive decisive
  | .inr older => newer.not_gt older

theorem Decides.sameBut (decides : Decides cs c v) (same : SameBut (Spare c) cs cs') :
    Decides cs' c v where
  mem := (same c (decides.decisive.not_spare le_rfl)).mp decides.mem
  said := decides.said
  newest d member decisive := by
    by_contra newer
    have member' := (same d (decisive.not_spare (le_of_not_ge newer))).mpr member
    exact newer (decides.newest d member' decisive)

/-- No other comment decides in a history that differs in spare comments only. -/
theorem Decides.alone (distinct : AllDistinct cs) (decides : Decides cs c v)
    (same : SameBut (Spare c) cs cs') (decides' : Decides cs' d w) : d = c := by
  have newer := decides'.newest c (decides.sameBut same).mem decides.decisive
  have member := (same d (decides'.decisive.not_spare newer)).mpr decides'.mem
  exact distinct.eq_of_stamp member decides.mem
    (le_antisymm (decides.newest d member decides'.decisive) newer)

theorem Decides.verdict_sameBut (distinct : AllDistinct cs) (decides : Decides cs c v)
    (same : SameBut (Spare c) cs cs') : verdict cs' = v :=
  (decides.sameBut same).verdict_eq fun _ _ decides' => decides.alone distinct same decides'

theorem verdict_indecisive_sameBut (indecisive : ∀ c ∈ cs, ¬ Decisive c)
    (same : SameBut (fun d => ¬ Decisive d) cs cs') : verdict cs' = false :=
  verdict_indecisive fun d member decisive =>
    indecisive d ((same d (not_not.mpr decisive)).mpr member) decisive

/-- In a history without two comments of the same time and id, the newest comment that says anything
decides, and nothing but that comment matters: not the order, and no comments that are older or say
nothing. If none says anything the pull request is not approved. -/
theorem newest_vote_decides (distinct : AllDistinct cs) :
    (∀ cs', cs.Perm cs' → verdict cs' = verdict cs) ∧
    ((∃ c ∈ cs, Decisive c) → ∃! c, ∃ v, Decides cs c v) ∧
    (∀ c v, Decides cs c v →
      verdict cs = v ∧ ∀ cs', SameBut (Spare c) cs cs' → verdict cs' = v) ∧
    ((∀ c ∈ cs, ¬ Decisive c) →
      verdict cs = false ∧
        ∀ cs', SameBut (fun d => ¬ Decisive d) cs cs' → verdict cs' = false) := by
  have whole {spare : Comment → Prop} : SameBut spare cs cs := sameBut_of_perm (.refl cs)
  refine ⟨fun cs' perm => ?_, ?_, fun c v decides => ?_, fun indecisive => ?_⟩
  · by_cases decided : ∃ c ∈ cs, Decisive c
    · obtain ⟨c, member, decisive⟩ := decided
      obtain ⟨d, v, decides⟩ := exists_decides member decisive
      rw [decides.verdict_sameBut distinct (sameBut_of_perm perm),
        decides.verdict_sameBut distinct whole]
    · have indecisive : ∀ c ∈ cs, ¬ Decisive c := fun c member decisive =>
        decided ⟨c, member, decisive⟩
      rw [verdict_indecisive indecisive,
        verdict_indecisive_sameBut indecisive (sameBut_of_perm perm)]
  · rintro ⟨c, member, decisive⟩
    obtain ⟨d, v, decides⟩ := exists_decides member decisive
    exact ⟨d, ⟨v, decides⟩, fun e ⟨w, decides'⟩ => decides.alone distinct whole decides'⟩
  · exact ⟨decides.verdict_sameBut distinct whole,
      fun cs' same => decides.verdict_sameBut distinct same⟩
  · exact ⟨verdict_indecisive indecisive,
      fun cs' same => verdict_indecisive_sameBut indecisive same⟩

/-! Comments of one time. -/

/-- A comment of the first moment. -/
def early (id : Int) (body : String) (review : Option ReviewState) : Comment where
  id
  body
  author := { id := 2, name := "bob" }
  createdAt := default
  reviewState := review

theorem early_le {id id' : Int} {body body' : String} {review review' : Option ReviewState}
    (order : id ≤ id') : (early id body review).stamp ≤ (early id' body' review').stamp := by
  simp [Comment.stamp, Prod.Lex.toLex_le_toLex, early, order]

theorem early_lt {id id' : Int} {body body' : String} {review review' : Option ReviewState}
    (order : id < id') : (early id body review).stamp < (early id' body' review').stamp := by
  simp [Comment.stamp, Prod.Lex.toLex_lt_toLex, early, order]

/-- A comment with three commands. -/
def changeOfMind : Comment := early 8 "/approve check\n/approve\n/approve cancel" none

/-- A review, a polite request and the three commands. -/
def discussion : List Comment :=
  [early 7 "" (some .unapproved), early 9 "/approve please" none, changeOfMind]

set_option maxRecDepth 20000 in
theorem discussion_decides : Decides discussion changeOfMind true := by
  have polite : ¬ Decisive (early 9 "/approve please" none) := signal?_eq_none_iff.mp (by decide)
  refine ⟨by simp [discussion], signal?_eq_some_iff.mp (by decide), ?_⟩
  simp only [discussion, List.forall_mem_cons]
  exact ⟨fun _ => early_le (by decide), fun decisive => absurd decisive polite, fun _ => le_rfl,
    fun _ member => absurd member List.not_mem_nil⟩

/-- The review and the polite request are taken out, and an older comment comes in. -/
theorem discussion_changed :
    SameBut (Spare changeOfMind) discussion [changeOfMind, early 6 "/approve cancel" none] := by
  intro d unspared
  have polite : ¬ Decisive (early 9 "/approve please" none) := signal?_eq_none_iff.mp (by decide)
  have review : d ≠ early 7 "" (some .unapproved) := fun here =>
    unspared (.inr (here ▸ early_lt (by decide)))
  have request : d ≠ early 9 "/approve please" none := fun here => unspared (.inl (here ▸ polite))
  have cancelled : d ≠ early 6 "/approve cancel" none := fun here =>
    unspared (.inr (here ▸ early_lt (by decide)))
  simp [discussion, review, request, cancelled]

theorem newest_vote_decides_discussion :
    verdict discussion = true ∧ verdict discussion.reverse = true ∧
    verdict [changeOfMind, early 6 "/approve cancel" none] = true := by
  have distinct : AllDistinct discussion := by
    unfold AllDistinct discussion changeOfMind
    decide
  obtain ⟨reordered, -, decided, -⟩ := newest_vote_decides distinct
  obtain ⟨approved, changed⟩ := decided _ _ discussion_decides
  exact ⟨approved, (reordered _ (List.reverse_perm _).symm).trans approved,
    changed _ discussion_changed⟩

end Chat

end Gatehouse
