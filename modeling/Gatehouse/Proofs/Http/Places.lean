import Gatehouse.Proofs.Http.Gathering

/-!
# Places that calls keep to

A call keeps to places if the URLs that it hands out for requests and for listings are such places
(`KeepsTo`). Then every request that a peer gets was made for one of these places, or, if the call has
listings, for a page that an answer of the peer itself named as the next one (`KeepsTo.passage`).
-/

namespace Gatehouse.Http

variable {α β : Type} {headers : Headers} {now : Int} {method : Method} {url : String}
  {body : Option Json} {asked listed : String → Prop} {p p' p'' : Peer} {r : Request}
  {script script' : List (Option Response)} {kind kind' : Request → Prop}

/-- The call is put together from requests and listings with such places for URLs, and from what talks
to nobody. -/
inductive KeepsTo (headers : Headers) (now : Int) (asked listed : String → Prop) :
    {α : Type} → Call α → Prop
  | silent {α : Type} (ended : Except Git.Error α) : KeepsTo headers now asked listed fun p => (ended, p)
  | request {method : Method} {url : String} {body : Option Json} (there : asked url) :
    KeepsTo headers now asked listed (send headers now method url body)
  | listing {α : Type} {read : Json → Option α} {url : String} (there : listed url) :
    KeepsTo headers now asked listed (getAll headers now read url)
  | andThen {α β : Type} {call : Call α} {next : α → Call β}
    (first : KeepsTo headers now asked listed call)
    (later : ∀ a, KeepsTo headers now asked listed (next a)) :
    KeepsTo headers now asked listed (call >>= next)
  | attempt {α : Type} {call : Call α} (tried : KeepsTo headers now asked listed call) :
    KeepsTo headers now asked listed (attempt call)

namespace KeepsTo

theorem map {call : Call α} (keeps : KeepsTo headers now asked listed call) (f : α → β) :
    KeepsTo headers now asked listed (f <$> call) := by
  have mapped : f <$> call = call >>= fun a p => (.ok (f a), p) := map_eq_pure_bind f call
  rw [mapped]
  exact .andThen keeps fun a => .silent (.ok (f a))

/-- Getting a document asks for it and for nothing else. -/
theorem document {read : Json → Option α} (there : asked url) :
    KeepsTo headers now asked listed (getJson headers now read url) :=
  .andThen (.request there) fun r => .silent (readBody read r)

end KeepsTo

/-! What a peer gets. -/

/-- The request for a URL. -/
def Request.GoesTo (headers : Headers) (url : String) (r : Request) : Prop :=
  ∃ method body u, target? url = .ok u ∧ r = requestFor headers method u body

/-- An answer of the script named the URL of the request as that of the next page. -/
def Request.Follows (headers : Headers) (script : List (Option Response)) (r : Request) : Prop :=
  ∃ answer goal, some answer ∈ script ∧ Link.next? answer.headers = some goal ∧
    r.GoesTo headers goal

/-- Why a call that keeps to places sends a request. -/
inductive Request.Arises (headers : Headers) (asked listed : String → Prop)
    (script : List (Option Response)) (r : Request) : Prop
  | asked {url : String} (there : asked url) (goes : r.GoesTo headers url) :
    Arises headers asked listed script r
  | page {url first : String} (there : listed url) (starts : withPageSize url = .ok first)
    (goes : r.GoesTo headers first) : Arises headers asked listed script r
  | next {url : String} (there : listed url) (follows : r.Follows headers script) :
    Arises headers asked listed script r

theorem Request.Arises.mono (arises : r.Arises headers asked listed script) (fewer : script ⊆ script') :
    r.Arises headers asked listed script' := by
  cases arises with
  | asked there goes => exact .asked there goes
  | page there starts goes => exact .page there starts goes
  | next there follows =>
    obtain ⟨answer, goal, given, leads, goes⟩ := follows
    exact .next there ⟨answer, goal, fewer given, leads, goes⟩

/-- What arises from places arises from more places. -/
theorem Request.Arises.imp {asked' listed' : String → Prop}
    (arises : r.Arises headers asked listed script) (widerAsked : ∀ url, asked url → asked' url)
    (widerListed : ∀ url, listed url → listed' url) : r.Arises headers asked' listed' script := by
  cases arises with
  | asked there goes => exact .asked (widerAsked _ there) goes
  | page there starts goes => exact .page (widerListed _ there) starts goes
  | next there follows => exact .next (widerListed _ there) follows

/-- A peer got requests of a kind, and gave some of its answers. -/
structure Passage (kind : Request → Prop) (p p' : Peer) : Prop where
  sent : ∃ made, p'.sent = p.sent ++ made ∧ ∀ r ∈ made, kind r
  script : p'.script ⊆ p.script

namespace Passage

theorem idle (kind : Request → Prop) (p : Peer) : Passage kind p p :=
  ⟨⟨[], (List.append_nil _).symm, nofun⟩, List.Subset.refl _⟩

theorem imp (passage : Passage kind p p') (wider : ∀ r, kind r → kind' r) : Passage kind' p p' := by
  obtain ⟨made, sent, each⟩ := passage.sent
  exact ⟨⟨made, sent, fun r member => wider r (each r member)⟩, passage.script⟩

theorem trans (first : Passage kind p p') (second : Passage kind p' p'') : Passage kind p p'' := by
  obtain ⟨made, sent, each⟩ := first.sent
  obtain ⟨more, sent', each'⟩ := second.sent
  refine ⟨⟨made ++ more, ?_, ?_⟩, List.Subset.trans second.script first.script⟩
  · rw [sent', sent, List.append_assoc]
  · exact List.forall_mem_append.mpr ⟨each, each'⟩

end Passage

theorem deliver_passage (secret : Bool) (r : Request) (p : Peer) :
    Passage (· = r) p (p.deliver secret r).2 := by
  have one : ∃ made, p.sent ++ [r] = p.sent ++ made ∧ ∀ s ∈ made, s = r := ⟨[r], rfl, by simp⟩
  unfold Peer.deliver
  split
  · cases script : p.script with
    | nil => exact ⟨one, by simp [script]⟩
    | cons answer rest => exact ⟨one, by simp [script]⟩
  · exact .idle _ p

theorem send_passage (method : Method) (url : String) (body : Option Json) (p : Peer) :
    Passage (·.GoesTo headers url) p (send headers now method url body p).2 := by
  unfold send
  cases target : target? url with
  | error e => exact .idle _ p
  | ok u =>
    dsimp only
    have delivered := deliver_passage (u.scheme == "https".toList) (requestFor headers method u body) p
    cases reply : p.deliver (u.scheme == "https".toList) (requestFor headers method u body) with
    | mk answer p' =>
      rw [reply] at delivered
      have goes : Passage (·.GoesTo headers url) p p' :=
        delivered.imp fun r same => ⟨method, body, u, target, same⟩
      cases answer <;> exact goes

/-- The URL of a visit is the first one, or an answer named it. -/
theorem Listing.mem_url {read : Json → Option (List α)} {next : Response → Option String}
    {first : String} {visits : List Visit} {ended : Except Git.Error (List α)} {v : Visit}
    (listing : Listing headers now read next first p p' visits ended) (member : v ∈ visits) :
    v.url = first ∨ ∃ answer, some answer ∈ p.script ∧ next answer = some v.url := by
  obtain ⟨i, bound, rfl⟩ := List.mem_iff_getElem.mp member
  cases i with
  | zero =>
    obtain ⟨w, later, rfl, here⟩ := listing.first_visit
    exact .inl here
  | succ i =>
    have leads := List.isChain_iff_getElem.mp listing.chained i bound
    obtain ⟨answer, page, given, -, -, goal⟩ := Visit.next?_eq_some leads
    exact .inr ⟨answer, listing.mem_script (List.getElem_mem _) given, goal⟩

theorem getAll_passage {read : Json → Option α} (there : listed url) (p : Peer) :
    Passage (·.Arises headers asked listed p.script) p (getAll headers now read url p).2 := by
  cases parsed : Url.parse url with
  | error e =>
    rw [getAll_unreadable parsed]
    exact .idle _ p
  | ok u =>
    obtain ⟨visits, listing⟩ : ∃ visits, Listing headers now (Json.list? read)
        (Link.next? ·.headers) (u.appendQuery "per_page".toList "100".toList).render p
        (getAll headers now read url p).2 visits (getAll headers now read url p).1 :=
      getAll_listing headers parsed
    have starts : withPageSize url =
        .ok (u.appendQuery "per_page".toList "100".toList).render := by
      rw [withPageSize, parsed]
      rfl
    refine ⟨⟨_, listing.sent, fun r member => ?_⟩, ?_⟩
    · obtain ⟨v, visited, arrived⟩ := List.mem_filterMap.mp member
      have goes : r.GoesTo headers v.url := by
        obtain ⟨u, target, rfl⟩ := arriving_eq_some arrived
        exact ⟨.get, none, u, target, rfl⟩
      rcases listing.mem_url visited with first | ⟨answer, given, leads⟩
      · exact .page there starts (first ▸ goes)
      · exact .next there ⟨answer, v.url, given, leads, goes⟩
    · rw [listing.rest]
      exact List.drop_subset _ _

/-- Every request of a call that keeps to places arises from one of them or from an answer. -/
theorem KeepsTo.passage {call : Call α} (keeps : KeepsTo headers now asked listed call) (p : Peer) :
    Passage (·.Arises headers asked listed p.script) p (call p).2 := by
  induction keeps generalizing p with
  | silent ended => exact .idle _ p
  | request there => exact (send_passage ..).imp fun r goes => .asked there goes
  | listing there => exact getAll_passage there p
  | @andThen _ _ call next first later ih ih' =>
    have before := ih p
    rw [run_andThen]
    cases ended : call p with
    | mk outcome p' =>
      rw [ended] at before
      cases outcome with
      | error e => exact before
      | ok a =>
        have after := (ih' a p').imp fun r arises => arises.mono before.script
        exact before.trans after
  | attempt tried ih => exact ih p

end Gatehouse.Http
