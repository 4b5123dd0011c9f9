import Gatehouse.Http.Peer
import Gatehouse.Proofs.Http.LinkField
import Mathlib.Data.List.Chain

/-!
# Listings

A listing is read by visits, one after another (`Listing`). A page that was answered and could be read
leads on where it names the next one, and the listing ends at the first page that does not. Each visit
costs one request and takes one answer; all items come out in order, or the error of the last visit
and none of them (`collect_listing`). Where the next page is, the reader takes from the `Link` field, so
the pages that the peer means are visited if no URL of a next page has a comma or a semicolon in it
(`listing_follows_next_links`), and a page behind such a URL is left out without a word
(`listing_stops_at_comma`).
-/

namespace Gatehouse.Http

variable {α : Type} {headers : Headers} {now : Int} {read : Json → Option (List α)}
  {connects : Bool → Bool} {url : String} {p p' : Peer}

/-- A request for a page, and what the peer gave for it. -/
structure Visit where
  url : String
  answer : Option Response

/-- The request for a page as a peer gets it that takes such connections; `none` if it never gets
there. -/
def arriving (headers : Headers) (connects : Bool → Bool) (url : String) : Option Request :=
  (send headers 0 .get url none { connects }).2.sent.head?

theorem arriving_error {e : Git.Error} (nowhere : target? url = .error e) :
    arriving headers connects url = none := by
  unfold arriving send
  rw [nowhere]
  rfl

/-- A request gets to a peer that takes the connection for it. -/
theorem arriving_ok {u : Url} (target : target? url = .ok u) :
    arriving headers connects url =
      if connects (u.scheme == "https".toList) then some (requestFor headers .get u none)
      else none := by
  unfold arriving send Peer.deliver
  rw [target]
  by_cases taken : connects (u.scheme == "https".toList) = true
  · simp only [if_pos taken]
    rfl
  · simp only [if_neg taken]
    rfl

/-- What gets to a peer is the request for a URL. -/
theorem arriving_eq_some {request : Request} (arrived : arriving headers connects url = some request) :
    ∃ u, target? url = .ok u ∧ request = requestFor headers .get u none := by
  cases target : target? url with
  | error e =>
    rw [arriving_error target] at arrived
    cases arrived
  | ok u =>
    rw [arriving_ok target] at arrived
    split at arrived
    · exact ⟨u, rfl, (Option.some.inj arrived).symm⟩
    · cases arrived

namespace Visit

/-- Does the request of a visit get to the peer? -/
def arrives (headers : Headers) (connects : Bool → Bool) (v : Visit) : Bool :=
  (arriving headers connects v.url).isSome

/-- What the request of a visit ended with. -/
def outcome (now : Int) (v : Visit) : Except Git.Error Response :=
  match target? v.url, v.answer with
  | .error e, _ => .error e
  | .ok u, none => .error (.request s!"error sending request for url ({u.render})")
  | .ok _, some r => Http.outcome now .get v.url r

/-- The items of the page that was visited. -/
def items (now : Int) (read : Json → Option (List α)) (v : Visit) : Except Git.Error (List α) := do
  let r ← v.outcome now
  readBody read r

/-- Where the next page is after one that could be read. -/
def next? (now : Int) (read : Json → Option (List α)) (next : Response → Option String)
    (v : Visit) : Option String :=
  match v.outcome now, v.items now read with
  | .ok r, .ok _ => next r
  | _, _ => none

end Visit

/-- The visit of a page with a peer. -/
def Peer.visited (headers : Headers) (p : Peer) (url : String) : Visit :=
  ⟨url, (arriving headers p.connects url).bind fun _ => p.script.head?.join⟩

/-- The peer after the visit of a page. -/
def Peer.leave (headers : Headers) (p : Peer) (url : String) : Peer :=
  match arriving headers p.connects url with
  | none => p
  | some request => { p with sent := p.sent ++ [request], script := p.script.tail }

@[simp]
theorem visited_url (headers : Headers) (p : Peer) (url : String) :
    (p.visited headers url).url = url := rfl

@[simp]
theorem leave_connects (headers : Headers) (p : Peer) (url : String) :
    (p.leave headers url).connects = p.connects := by
  unfold Peer.leave
  split <;> rfl

theorem visited_lost (lost : arriving headers p.connects url = none) :
    p.visited headers url = ⟨url, none⟩ ∧ p.leave headers url = p := by
  unfold Peer.visited Peer.leave
  rw [lost]
  exact ⟨rfl, rfl⟩

theorem visited_arrived {request : Request}
    (arrived : arriving headers p.connects url = some request) :
    p.visited headers url = ⟨url, p.script.head?.join⟩ ∧
      p.leave headers url = { p with sent := p.sent ++ [request], script := p.script.tail } := by
  unfold Peer.visited Peer.leave
  rw [arrived]
  exact ⟨rfl, rfl⟩

/-- A visit that was answered sent one request, and took one answer off the script. -/
theorem leave_answered {r : Response} (given : (p.visited headers url).answer = some r) :
    ∃ request rest, arriving headers p.connects url = some request ∧ p.script = some r :: rest ∧
      p.leave headers url = { p with sent := p.sent ++ [request], script := rest } := by
  cases arrived : arriving headers p.connects url with
  | none =>
    rw [(visited_lost arrived).1] at given
    cases given
  | some request =>
    obtain ⟨here, left⟩ := visited_arrived arrived
    rw [here] at given
    cases script : p.script with
    | nil =>
      rw [script] at given
      cases given
    | cons answer rest =>
      rw [script] at given
      obtain rfl : answer = some r := given
      refine ⟨request, rest, rfl, rfl, ?_⟩
      rw [left, script]
      rfl

theorem send_eq (headers : Headers) (now : Int) (url : String) (p : Peer) :
    send headers now .get url none p =
      ((p.visited headers url).outcome now, p.leave headers url) := by
  unfold send Visit.outcome Peer.visited Peer.leave
  cases target : target? url with
  | error e => rw [arriving_error target]
  | ok u =>
    unfold Peer.deliver
    rw [arriving_ok target]
    by_cases taken : p.connects (u.scheme == "https".toList) = true
    · simp only [if_pos taken, Option.bind_some]
      cases p.script with
      | nil => rfl
      | cons answer rest => cases answer <;> rfl
    · simp only [if_neg taken, Option.bind_none]

/-! What a visit comes to. -/

section

variable {v : Visit} {next : Response → Option String} {goal : String} {r : Response}

theorem Visit.items_ok (answered : v.outcome now = .ok r) : v.items now read = readBody read r := by
  unfold items
  rw [answered]
  rfl

theorem Visit.items_error {e : Git.Error} (failed : v.outcome now = .error e) :
    v.items now read = .error e := by
  unfold items
  rw [failed]
  rfl

theorem Visit.next?_ok {page : List α} (answered : v.outcome now = .ok r)
    (decoded : v.items now read = .ok page) : v.next? now read next = next r := by
  unfold next?
  rw [answered, decoded]

/-- A request that succeeds was answered, and gives the answer as it is. -/
theorem Visit.outcome_ok (answered : v.outcome now = .ok r) : v.answer = some r := by
  unfold outcome at answered
  split at answered
  · cases answered
  · cases answered
  · rename_i given
    rw [given]
    unfold Http.outcome at answered
    split at answered
    · exact congrArg some (Except.ok.inj answered)
    · split at answered
      · cases answered
      · cases answered
      · dsimp only at answered
        split at answered <;> cases answered

/-- Only an answer can be read. -/
theorem Visit.answered_of_items {page : List α} (decoded : v.items now read = .ok page) :
    ∃ r, v.answer = some r := by
  cases answered : v.outcome now with
  | ok r => exact ⟨r, outcome_ok answered⟩
  | error e =>
    rw [items_error answered] at decoded
    cases decoded

/-- Only a page that was answered and could be read leads on. -/
theorem Visit.next?_eq_some (leads : v.next? now read next = some goal) :
    ∃ r page, v.answer = some r ∧ v.outcome now = .ok r ∧ v.items now read = .ok page ∧
      next r = some goal := by
  unfold next? at leads
  split at leads
  · rename_i r page answered decoded
    exact ⟨r, page, outcome_ok answered, answered, decoded, leads⟩
  · cases leads

theorem Visit.next?_congr {other : Response → Option String}
    (same : ∀ r, v.answer = some r → next r = other r) :
    v.next? now read next = v.next? now read other := by
  unfold next?
  split
  · rename_i r page answered decoded
    exact same r (outcome_ok answered)
  · rfl

/-- The last page of a listing. -/
theorem collect_last (here : p.visited headers url = v)
    (last : v.next? now read (Link.next? ·.headers) = none) :
    collect headers now read url p = (v.items now read, p.leave headers url) := by
  rw [collect, send_eq, here]
  cases answered : v.outcome now with
  | error e => rw [Visit.items_error answered]
  | ok r =>
    rw [Visit.items_ok answered]
    cases decoded : readBody read r with
    | error e => simp only [decoded]
    | ok page =>
      have ends : Link.next? r.headers = none := by
        rw [← last, Visit.next?_ok answered ((Visit.items_ok answered).trans decoded)]
      simp only [decoded, ends]

/-- A page of a listing with another one after it. -/
theorem collect_more {page : List α} (here : p.visited headers url = v)
    (decoded : v.items now read = .ok page)
    (leads : v.next? now read (Link.next? ·.headers) = some goal) :
    collect headers now read url p =
      ((collect headers now read goal (p.leave headers url)).1.map (page ++ ·),
        (collect headers now read goal (p.leave headers url)).2) := by
  obtain ⟨r, page', -, answered, decoded', goes⟩ := Visit.next?_eq_some leads
  rw [collect, send_eq, here, answered]
  rw [Visit.items_ok answered] at decoded
  simp only [decoded, goes]
  rcases collect headers now read goal (p.leave headers url) with ⟨more | more, p'⟩ <;> rfl

end

/-- A listing that was read page by page: each page names the next one, the requests go out in this
order and take the peer's answers in this order, and all items come out or the first error. -/
structure Listing (headers : Headers) (now : Int) (read : Json → Option (List α))
    (next : Response → Option String) (first : String) (p p' : Peer) (visits : List Visit)
    (ended : Except Git.Error (List α)) : Prop where
  starts : visits.head?.map (·.url) = some first
  chained : visits.IsChain fun v w => v.next? now read next = some w.url
  stops : ∀ v ∈ visits.getLast?, v.next? now read next = none
  sent : p'.sent = p.sent ++ visits.filterMap (arriving headers p.connects ·.url)
  answers : (visits.filter (·.arrives headers p.connects)).map (·.answer) <+: p.script ++ [none]
  rest : p'.script = p.script.drop (visits.filter (·.arrives headers p.connects)).length
  unanswered : ∀ v ∈ visits, v.arrives headers p.connects = false → v.answer = none
  ended : ended = (visits.mapM (Visit.items now read)).map List.flatten

namespace Listing

variable {v : Visit} {visits : List Visit} {next : Response → Option String} {first goal : String}
  {ended : Except Git.Error (List α)}

theorem first_visit (listing : Listing headers now read next first p p' visits ended) :
    ∃ v later, visits = v :: later ∧ v.url = first := by
  have starts := listing.starts
  cases visits with
  | nil => cases starts
  | cons v later => exact ⟨v, later, rfl, Option.some.inj starts⟩

/-- The first request that gets through takes the peer's first answer. -/
theorem first_answer {later : List Visit}
    (listing : Listing headers now read next first p p' (v :: later) ended)
    (arrives : v.arrives headers p.connects = true) : v.answer = p.script.head?.join := by
  have answers := listing.answers
  rw [List.filter_cons_of_pos arrives, List.map_cons] at answers
  cases script : p.script with
  | nil =>
    rw [script] at answers
    exact (List.cons_prefix_cons.mp answers).1
  | cons answer rest =>
    rw [script] at answers
    exact (List.cons_prefix_cons.mp answers).1

/-- A listing of one page. -/
theorem single (here : p.visited headers url = v) (last : v.next? now read next = none) :
    Listing headers now read next url p (p.leave headers url) [v] (v.items now read) := by
  have starts : [v].head?.map (·.url) = some url := by
    rw [← here]
    rfl
  have stops : ∀ w ∈ [v].getLast?, w.next? now read next = none := by
    intro w member
    obtain rfl : v = w := by simpa using member
    exact last
  have ended : v.items now read = ([v].mapM (Visit.items now read)).map List.flatten := by
    rw [List.mapM_cons, List.mapM_nil]
    cases v.items now read with
    | error e => rfl
    | ok page => exact congrArg Except.ok (List.append_nil page).symm
  cases arrived : arriving headers p.connects url with
  | none =>
    obtain ⟨silent, unchanged⟩ := visited_lost arrived
    obtain rfl : v = ⟨url, none⟩ := here.symm.trans silent
    rw [unchanged]
    refine ⟨starts, List.isChain_singleton _, stops, ?_, ?_, ?_, ?_, ended⟩
      <;> simp [Visit.arrives, arrived]
  | some request =>
    obtain ⟨given, left⟩ := visited_arrived arrived
    obtain rfl : v = ⟨url, p.script.head?.join⟩ := here.symm.trans given
    rw [left]
    refine ⟨starts, List.isChain_singleton _, stops, ?_, ?answers, ?_, ?_, ended⟩
    case answers => cases p.script <;> simp [Visit.arrives, arrived]
    all_goals simp [Visit.arrives, arrived]

/-- A listing with one more page before it. -/
theorem cons {page : List α} (here : p.visited headers url = v)
    (decoded : v.items now read = .ok page) (leads : v.next? now read next = some goal)
    (more : Listing headers now read next goal (p.leave headers url) p' visits ended) :
    Listing headers now read next url p p' (v :: visits) (ended.map (page ++ ·)) := by
  obtain ⟨r, -, given, -⟩ := Visit.next?_eq_some leads
  subst here
  obtain ⟨request, rest, arrived, script, left⟩ := leave_answered given
  have arrives : (p.visited headers url).arrives headers p.connects = true := by
    unfold Visit.arrives
    rw [visited_url, arrived]
    rfl
  refine ⟨rfl, ?chained, ?stops, ?sent, ?answers, ?rest, ?unanswered, ?ended⟩
  case chained =>
    obtain ⟨w, later, rfl, there⟩ := more.first_visit
    refine List.isChain_cons_cons.mpr ⟨?_, more.chained⟩
    rw [leads, there]
  case stops =>
    obtain ⟨w, later, rfl, -⟩ := more.first_visit
    rw [List.getLast?_cons_cons]
    exact more.stops
  case sent =>
    rw [more.sent, left, List.filterMap_cons, visited_url, arrived, List.append_assoc]
    rfl
  case answers =>
    rw [List.filter_cons_of_pos arrives, List.map_cons, given, script]
    have later := more.answers
    rw [left] at later
    exact (List.prefix_cons_inj _).mpr later
  case rest =>
    rw [List.filter_cons_of_pos arrives, List.length_cons, script, more.rest, left]
    rfl
  case unanswered =>
    intro w member lost
    rcases List.mem_cons.mp member with rfl | member
    · rw [arrives] at lost
      cases lost
    · refine more.unanswered w member ?_
      rw [leave_connects]
      exact lost
  case ended =>
    rw [more.ended, List.mapM_cons, decoded]
    cases visits.mapM (Visit.items now read) <;> rfl

theorem items_of_mapM {pages : List (List α)}
    (all : visits.mapM (Visit.items now read) = .ok pages) :
    ∀ v ∈ visits, ∃ page, v.items now read = .ok page := by
  induction visits generalizing pages with
  | nil =>
    intro v member
    cases member
  | cons w visits ih =>
    rw [List.mapM_cons] at all
    cases here : w.items now read with
    | error e =>
      rw [here] at all
      cases all
    | ok page =>
      rw [here] at all
      cases later : visits.mapM (Visit.items now read) with
      | error e =>
        rw [later] at all
        cases all
      | ok more =>
        exact List.forall_mem_cons.mpr ⟨⟨page, here⟩, ih later⟩

/-- What was answered had got to the peer. -/
theorem arrives_of_answer (listing : Listing headers now read next first p p' visits ended)
    (member : v ∈ visits) {r : Response} (given : v.answer = some r) :
    v.arrives headers p.connects = true := by
  cases arrived : v.arrives headers p.connects with
  | true => rfl
  | false =>
    rw [listing.unanswered v member arrived] at given
    cases given

/-- A listing that succeeds costs one request for each page. -/
theorem requests {items : List α}
    (listing : Listing headers now read next first p p' visits (.ok items)) :
    p'.sent.length = p.sent.length + visits.length := by
  rw [listing.sent, List.length_append, List.filterMap_length_eq_length.mpr]
  intro v member
  have ended := listing.ended
  cases all : visits.mapM (Visit.items now read) with
  | error e =>
    rw [all] at ended
    cases ended
  | ok pages =>
    obtain ⟨page, decoded⟩ := items_of_mapM all v member
    obtain ⟨r, given⟩ := Visit.answered_of_items decoded
    exact listing.arrives_of_answer member given

/-- The answers are those of the peer. -/
theorem mem_script (listing : Listing headers now read next first p p' visits ended)
    (member : v ∈ visits) {r : Response} (given : v.answer = some r) : some r ∈ p.script := by
  have arrived := listing.arrives_of_answer member given
  have among : some r ∈ p.script ++ [none] := by
    refine listing.answers.mem (List.mem_map.mpr ⟨v, ?_, given⟩)
    exact List.mem_filter.mpr ⟨member, arrived⟩
  simpa using among

/-- Two ways to find the next page make the same listing if they agree on the peer's answers. -/
theorem congr {other : Response → Option String}
    (listing : Listing headers now read next first p p' visits ended)
    (same : ∀ r, some r ∈ p.script → next r = other r) :
    Listing headers now read other first p p' visits ended := by
  have agree : ∀ v ∈ visits, v.next? now read next = v.next? now read other := fun v member =>
    Visit.next?_congr fun r given => same r (listing.mem_script member given)
  refine { listing with chained := ?_, stops := ?_ }
  · refine listing.chained.imp_of_mem_imp fun v w member _ leads => ?_
    rw [← agree v member, leads]
  · intro v last
    rw [← agree v (List.mem_of_mem_getLast? last)]
    exact listing.stops v last

end Listing

/-- Every listing is read page by page, as its header fields are read. -/
theorem collect_listing (url : String) (p : Peer) :
    ∃ visits, Listing headers now read (Link.next? ·.headers) url p
      (collect headers now read url p).2 visits (collect headers now read url p).1 := by
  -- Only an answer leads on, and it was taken off the script.
  induction length : p.script.length using Nat.strong_induction_on generalizing url p with
  | _ n ih =>
    generalize here : p.visited headers url = v
    cases leads : v.next? now read (Link.next? ·.headers) with
    | none =>
      rw [collect_last here leads]
      exact ⟨[v], .single here leads⟩
    | some goal =>
      obtain ⟨r, page, given, -, decoded, -⟩ := Visit.next?_eq_some leads
      have shorter : (p.leave headers url).script.length < n := by
        obtain ⟨request, rest, -, script, left⟩ := leave_answered (here ▸ given)
        rw [left, ← length, script]
        exact Nat.lt_succ_self rest.length
      obtain ⟨visits, more⟩ := ih _ shorter goal _ rfl
      rw [collect_more here decoded leads]
      exact ⟨v :: visits, more.cons here decoded leads⟩

theorem getAll_parsed {read : Json → Option α} {start : String} {u : Url}
    (parsed : Url.parse start = .ok u) (p : Peer) :
    getAll headers now read start p = collect headers now (Json.list? read)
      (u.appendQuery "per_page".toList "100".toList).render p := by
  have first : withPageSize start = .ok (u.appendQuery "per_page".toList "100".toList).render := by
    unfold withPageSize
    rw [parsed]
    rfl
  unfold getAll
  rw [first]
  rfl

/-- What a listing asks for first, and how it goes on. -/
theorem getAll_listing (headers : Headers) {read : Json → Option α} {start : String} {u : Url}
    (parsed : Url.parse start = .ok u) :
    ∃ visits, Listing headers now (Json.list? read) (Link.next? ·.headers)
      (u.appendQuery "per_page".toList "100".toList).render p
      (getAll headers now read start p).2 visits (getAll headers now read start p).1 := by
  rw [getAll_parsed parsed]
  exact collect_listing _ p

/-- Listings are exact: they start at the given URL with the page size in its query, follow the links
that the answers carry, and come to an end with all items or the one error. -/
theorem listing_follows_next_links (headers : Headers) (now : Int) (read : Json → Option α)
    (p : Peer) {start : String} {u : Url} (parsed : Url.parse start = .ok u) :
    ∃ visits,
      Listing headers now (Json.list? read) (Link.next? ·.headers)
        (u.appendQuery "per_page".toList "100".toList).render p
        (getAll headers now read start p).2 visits (getAll headers now read start p).1 ∧
      (∀ items, (getAll headers now read start p).1 = .ok items →
        (getAll headers now read start p).2.sent.length = p.sent.length + visits.length) ∧
      ∀ links : Response → List Link,
        (∀ r, some r ∈ p.script → Link.Carries r.headers (links r) ∧
          ∀ l, (links r).find? Link.isNext = some l → l.isBare = true) →
        Listing headers now (Json.list? read) (fun r => Link.announced? (links r))
          (u.appendQuery "per_page".toList "100".toList).render p
          (getAll headers now read start p).2 visits (getAll headers now read start p).1 := by
  obtain ⟨visits, listing⟩ := getAll_listing headers parsed
  refine ⟨visits, listing, ?_, ?_⟩
  · intro items ended
    rw [ended] at listing
    exact listing.requests
  · intro links carried
    refine listing.congr fun r given => ?_
    obtain ⟨carries, bare⟩ := carried r given
    rw [Link.next?_carried carries, Link.announced?_bare bare]

/-! Two pages. -/

/-- A peer with two pages of one item each; the first names the second. -/
def twoPages (goal : String) : Peer where
  script := [
    some { status := 200
           headers := [("link", Text.encode (Link.renderAll [⟨goal, "next"⟩]))]
           body := "[1]" },
    some { status := 200, body := "[2]" }]

/-- The links on the pages of `twoPages`. -/
def pageLinks (goal : String) (r : Response) : List Link :=
  if r.headers.isEmpty then [] else [⟨goal, "next"⟩]

theorem parse_items :
    ∃ u, Url.parse "https://h/items" = .ok u ∧
      (u.appendQuery "per_page".toList "100".toList).render = "https://h/items?per_page=100" := by
  have rendered : (Url.parse "https://h/items").map
      (fun u => (u.appendQuery "per_page".toList "100".toList).render) =
        .ok "https://h/items?per_page=100" := by decide +kernel
  cases parsed : Url.parse "https://h/items" with
  | error e =>
    rw [parsed] at rendered
    cases rendered
  | ok u =>
    rw [parsed] at rendered
    exact ⟨u, rfl, Except.ok.inj rendered⟩

theorem pageLinks_carries {goal : String} {r : Response} (opened : '<' ∉ goal.toList)
    (closed : '>' ∉ goal.toList)
    (visible : valueText? (Text.encode (Link.renderAll [⟨goal, "next"⟩])) =
      some (Link.renderAll [⟨goal, "next"⟩]))
    (form : r.headers = [("link", Text.encode (Link.renderAll [⟨goal, "next"⟩]))] ∨
      r.headers = []) : Link.Carries r.headers (pageLinks goal r) := by
  unfold pageLinks
  rcases form with form | form
  · have plain : (⟨goal, "next"⟩ : Link).Plain :=
      ⟨opened, closed, show '"' ∉ "next".toList by decide,
        show ',' ∉ "next".toList ∧ ';' ∉ "next".toList by decide⟩
    rw [form]
    refine ⟨by simpa using plain, .inl ?_⟩
    simpa [Headers.text?, Headers.find?, sameName] using visible
  · rw [form]
    exact ⟨by simp, .inr ⟨rfl, rfl⟩⟩

theorem twoPages_carries {goal : String} (opened : '<' ∉ goal.toList) (closed : '>' ∉ goal.toList)
    (visible : valueText? (Text.encode (Link.renderAll [⟨goal, "next"⟩])) =
      some (Link.renderAll [⟨goal, "next"⟩])) :
    ∀ r, some r ∈ (twoPages goal).script → Link.Carries r.headers (pageLinks goal r) := by
  intro r given
  simp only [twoPages, List.mem_cons, Option.some.injEq, List.not_mem_nil, or_false] at given
  rcases given with rfl | rfl
  · exact pageLinks_carries opened closed visible (.inl rfl)
  · exact pageLinks_carries opened closed visible (.inr rfl)

theorem listing_follows_next_links_twoPages :
    (getAll [] 0 Json.int64? "https://h/items" (twoPages "https://h/items?page=2")).1 = .ok [1, 2] ∧
    ∃ visits, visits.length = 2 ∧
      Listing [] 0 (Json.list? Json.int64?)
        (fun r => Link.announced? (pageLinks "https://h/items?page=2" r))
        "https://h/items?per_page=100" (twoPages "https://h/items?page=2")
        (getAll [] 0 Json.int64? "https://h/items" (twoPages "https://h/items?page=2")).2 visits
        (.ok [1, 2]) := by
  obtain ⟨u, parsed, rendered⟩ := parse_items
  obtain ⟨visits, -, counted, announced⟩ := listing_follows_next_links [] 0 Json.int64?
    (twoPages "https://h/items?page=2") parsed
  have items : (getAll [] 0 Json.int64? "https://h/items"
      (twoPages "https://h/items?page=2")).1 = .ok [1, 2] := by decide +kernel
  have requests : (getAll [] 0 Json.int64? "https://h/items"
      (twoPages "https://h/items?page=2")).2.sent.length = 2 := by decide +kernel
  have listing := announced (pageLinks "https://h/items?page=2") fun r given => by
    refine ⟨twoPages_carries (by decide) (by decide) (by decide +kernel) r given, ?_⟩
    intro l first
    have found := List.mem_of_find?_eq_some first
    unfold pageLinks at found
    split at found
    · cases found
    · obtain rfl := List.mem_singleton.mp found
      decide
  rw [rendered, items] at listing
  refine ⟨items, visits, ?_, listing⟩
  have length : _ = 0 + visits.length := counted _ items
  rw [requests] at length
  omega

/-- A URL may have commas in it, but a page behind one is never asked for. -/
theorem listing_stops_at_comma :
    (∀ r, some r ∈ (twoPages "http://h/items?labels=a,b&page=2").script →
      Link.Carries r.headers (pageLinks "http://h/items?labels=a,b&page=2" r)) ∧
    (getAll [] 0 Json.int64? "http://h/items"
      (twoPages "http://h/items?labels=a,b&page=2")).1 = .ok [1] ∧
    (getAll [] 0 Json.int64? "http://h/items"
      (twoPages "http://h/items?labels=a,b&page=2")).2.sent.length = 1 ∧
    ¬ ∃ visits,
      Listing [] 0 (Json.list? Json.int64?)
        (fun r => Link.announced? (pageLinks "http://h/items?labels=a,b&page=2" r))
        "http://h/items?per_page=100" (twoPages "http://h/items?labels=a,b&page=2")
        (getAll [] 0 Json.int64? "http://h/items" (twoPages "http://h/items?labels=a,b&page=2")).2
        visits (.ok [1]) := by
  have requests : (getAll [] 0 Json.int64? "http://h/items"
      (twoPages "http://h/items?labels=a,b&page=2")).2.sent.length = 1 := by decide +kernel
  refine ⟨twoPages_carries (by decide) (by decide) (by decide +kernel), by decide +kernel, requests,
    ?_⟩
  rintro ⟨visits, listing⟩
  obtain ⟨v, later, rfl, first⟩ := listing.first_visit
  have length : _ = 0 + (v :: later).length := listing.requests
  rw [requests, List.length_cons] at length
  obtain rfl : later = [] := List.eq_nil_of_length_eq_zero (by omega)
  have arrives : v.arrives [] (fun _ => true) = true := by
    unfold Visit.arrives
    rw [first]
    decide +kernel
  have here : v = ⟨"http://h/items?per_page=100",
      (twoPages "http://h/items?labels=a,b&page=2").script.head?.join⟩ := by
    rw [← first, ← listing.first_answer arrives]
  have leads : v.next? 0 (Json.list? Json.int64?)
      (fun r => Link.announced? (pageLinks "http://h/items?labels=a,b&page=2" r)) =
        some "http://h/items?labels=a,b&page=2" := by
    rw [here]
    decide +kernel
  have stops := listing.stops v rfl
  rw [leads] at stops
  cases stops

end Gatehouse.Http
