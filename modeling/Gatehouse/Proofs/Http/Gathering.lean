import Gatehouse.Proofs.Http.LinkReadBack
import Gatehouse.Proofs.Http.Listing
import Gatehouse.Proofs.Json.Written
import Gatehouse.Proofs.Program.Fallible

/-!
# What is gathered from a listing

A listing says what its reader gets (`Listing.collect_eq`): the pages that the peer's links lead to hold
all there is. So `getAll` gathers what the peer has under a URL, or its first error, if the reader can
follow the links (`getAll_eq_iff_gathers`). It can follow them if the first link to a next page is bare
wherever there is one (`followable_announced_iff`).
-/

namespace Gatehouse.Http

variable {α : Type} {headers : Headers} {now : Int} {next : Response → Option String} {p p' : Peer}

/-- The reader goes on after each of the peer's answers as it is meant to. -/
def Followable (next : Response → Option String) (p : Peer) : Prop :=
  ∀ r, some r ∈ p.script → next r = Link.next? r.headers

theorem followable_own (p : Peer) : Followable (Link.next? ·.headers) p := fun _ _ => rfl

/-- The links that a peer's answers carry can be followed exactly if the first link to a next page is
bare on each page that has one. -/
theorem followable_announced_iff {links : Response → List Link}
    (carried : ∀ r, some r ∈ p.script → Link.Carries r.headers (links r)) :
    Followable (fun r => Link.announced? (links r)) p ↔
      ∀ r, some r ∈ p.script → ∀ l, (links r).find? Link.isNext = some l → l.isBare = true := by
  refine forall₂_congr fun r given => ?_
  rw [Link.next?_carried (carried r given), ← Link.announced?_filter_iff]
  exact eq_comm

/-! A listing that is read again. -/

section

variable {read : Json → Option (List α)} {first url : String} {v w : Visit} {visits : List Visit}
  {ended : Except Git.Error (List α)}

theorem peer_ext (connects : p'.connects = p.connects) (script : p'.script = p.script)
    (sent : p'.sent = p.sent) : p' = p := by
  cases p
  cases p'
  simp only at connects script sent
  rw [connects, script, sent]

/-- The first visit of a listing is the one that the peer gives. -/
theorem Listing.visited_eq (listing : Listing headers now read next first p p' (v :: visits) ended) :
    p.visited headers first = v := by
  have here : v.url = first := Option.some.inj listing.starts
  have answer : (p.visited headers v.url).answer = v.answer := by
    cases arrived : arriving headers p.connects v.url with
    | none =>
      have lost : v.arrives headers p.connects = false := by
        rw [Visit.arrives, arrived]
        rfl
      rw [(visited_lost arrived).1, listing.unanswered v List.mem_cons_self lost]
    | some request =>
      have arrives : v.arrives headers p.connects = true := by
        rw [Visit.arrives, arrived]
        rfl
      rw [(visited_arrived arrived).1, listing.first_answer arrives]
  rw [← here]
  exact congrArg (Visit.mk v.url) answer

/-- What a listing of one page leaves. -/
theorem Listing.leave_eq (listing : Listing headers now read next first p p' [v] ended)
    (kept : p'.connects = p.connects) : p' = p.leave headers first := by
  have here := listing.visited_eq
  subst here
  have sent := listing.sent
  have rest := listing.rest
  cases arrived : arriving headers p.connects first with
  | none =>
    rw [(visited_lost arrived).2]
    refine peer_ext kept ?_ ?_
    · simpa [Visit.arrives, arrived] using rest
    · simpa [arrived] using sent
  | some request =>
    rw [(visited_arrived arrived).2]
    refine peer_ext kept ?_ ?_
    · simpa [Visit.arrives, arrived] using rest
    · simpa [arrived] using sent

/-- A listing without its first page. -/
theorem Listing.tail (listing : Listing headers now read next first p p' (v :: w :: visits) ended) :
    Listing headers now read next w.url (p.leave headers first) p' (w :: visits)
      (((w :: visits).mapM (Visit.items now read)).map List.flatten) := by
  have here := listing.visited_eq
  obtain ⟨leads, chained⟩ := List.isChain_cons_cons.mp listing.chained
  obtain ⟨r, -, given, -⟩ := Visit.next?_eq_some leads
  subst here
  obtain ⟨request, rest, arrived, script, left⟩ := leave_answered given
  have arrives : (p.visited headers first).arrives headers p.connects = true := by
    unfold Visit.arrives
    rw [visited_url, arrived]
    rfl
  have connects : (p.leave headers first).connects = p.connects := leave_connects ..
  refine ⟨rfl, chained, ?stops, ?sent, ?answers, ?rest, ?unanswered, rfl⟩
  case stops =>
    have stops := listing.stops
    rw [List.getLast?_cons_cons] at stops
    exact stops
  case sent =>
    rw [listing.sent, List.filterMap_cons, visited_url, arrived, connects, left,
      List.append_assoc]
    rfl
  case answers =>
    have answers := listing.answers
    rw [List.filter_cons_of_pos arrives, List.map_cons, given, script, List.cons_append] at answers
    rw [connects, left]
    exact (List.prefix_cons_inj _).mp answers
  case rest =>
    rw [listing.rest, List.filter_cons_of_pos arrives, List.length_cons, script, connects, left,
      List.drop_succ_cons]
  case unanswered =>
    intro u member lost
    rw [connects] at lost
    exact listing.unanswered u (List.mem_cons_of_mem _ member) lost

/-- The reader of a listing gets what the listing ends with. -/
theorem Listing.collect_eq (listing : Listing headers now read next first p p' visits ended)
    (kept : p'.connects = p.connects) (followable : Followable next p) :
    collect headers now read first p = (ended, p') := by
  replace listing := listing.congr followable
  clear followable
  -- The visits are taken one after the other; each leaves the rest of the listing to be read.
  induction visits generalizing first p ended with
  | nil => cases listing.starts
  | cons v visits ih =>
    cases visits with
    | nil =>
      have last := listing.stops v rfl
      have items : ended = v.items now read := by
        rw [listing.ended, List.mapM_cons, List.mapM_nil]
        cases v.items now read with
        | error e => rfl
        | ok page => exact congrArg Except.ok (List.append_nil page)
      rw [collect_last listing.visited_eq last, items, listing.leave_eq kept]
    | cons w visits =>
      have leads := (List.isChain_cons_cons.mp listing.chained).1
      obtain ⟨r, page, -, -, decoded, -⟩ := Visit.next?_eq_some leads
      have later := ih (kept.trans (leave_connects ..).symm) listing.tail
      have items := listing.ended
      rw [List.mapM_cons, decoded] at items
      rw [collect_more listing.visited_eq decoded leads, later, items]
      cases (w :: visits).mapM (Visit.items now read) <;> rfl

theorem send_connects {outcome : Except Git.Error Response}
    (done : send headers now .get url none p = (outcome, p')) : p'.connects = p.connects := by
  rw [send_eq] at done
  obtain rfl : p.leave headers url = p' := congrArg Prod.snd done
  exact leave_connects ..

theorem collect_connects (url : String) (p : Peer) :
    (collect headers now read url p).2.connects = p.connects := by
  fun_induction collect headers now read url p with
  | case1 _ _ _ _ sent => exact send_connects sent
  | case2 _ _ _ _ sent => exact send_connects sent
  | case3 _ _ _ _ sent => exact send_connects sent
  | case4 _ _ _ _ sent _ _ _ _ _ _ later ih =>
    rw [later] at ih
    exact ih.trans (send_connects sent)
  | case5 _ _ _ _ sent _ _ _ _ _ _ later ih =>
    rw [later] at ih
    exact ih.trans (send_connects sent)

end

/-! All items under a URL. -/

variable {read : Json → Option α} {start : String} {ended : Except Git.Error (List α)}

/-- What there is to gather under a URL: nothing where it is none, and else what its listing brings,
from the first page with as many items as there may be on a page. -/
inductive Gathers (headers : Headers) (now : Int) (read : Json → Option α)
    (next : Response → Option String) (start : String) (p p' : Peer) :
    Except Git.Error (List α) → Prop
  | unreadable {e : Url.ParseError} (malformed : Url.parse start = .error e) (idle : p' = p) :
    Gathers headers now read next start p p' (.error (.request e.message))
  | listed {u : Url} {visits : List Visit} {ended : Except Git.Error (List α)}
    (parsed : Url.parse start = .ok u)
    (listing : Listing headers now (Json.list? read) next
      (u.appendQuery "per_page".toList "100".toList).render p p' visits ended)
    (kept : p'.connects = p.connects) : Gathers headers now read next start p p' ended

theorem Gathers.of_first {first : String} {visits : List Visit}
    (starts : withPageSize start = .ok first)
    (listing : Listing headers now (Json.list? read) next first p p' visits ended)
    (kept : p'.connects = p.connects) : Gathers headers now read next start p p' ended := by
  unfold withPageSize at starts
  split at starts
  · cases starts
  · rename_i u parsed
    obtain rfl : (u.appendQuery "per_page".toList "100".toList).render = first :=
      Except.ok.inj starts
    exact .listed parsed listing kept

theorem getAll_unreadable {e : Url.ParseError} (malformed : Url.parse start = .error e) (p : Peer) :
    getAll headers now read start p = (.error (.request e.message), p) := by
  unfold getAll withPageSize
  rw [malformed]
  rfl

/-- All items under a URL are gathered if the reader can follow the links. -/
theorem getAll_eq_iff_gathers (followable : Followable next p) :
    getAll headers now read start p = (ended, p') ↔
      Gathers headers now read next start p p' ended := by
  constructor
  · intro done
    cases parsed : Url.parse start with
    | error e =>
      rw [getAll_unreadable parsed] at done
      obtain ⟨rfl, rfl⟩ := Prod.mk.inj done
      exact .unreadable parsed rfl
    | ok u =>
      obtain ⟨visits, listing⟩ : ∃ visits, Listing headers now (Json.list? read) _ _ p
        (getAll headers now read start p).2 visits (getAll headers now read start p).1 :=
          getAll_listing headers parsed
      have kept : (getAll headers now read start p).2.connects = p.connects := by
        rw [getAll_parsed parsed]
        exact collect_connects _ p
      rw [done] at listing kept
      exact .listed parsed (listing.congr fun r given => (followable r given).symm) kept
  · intro gathers
    cases gathers with
    | unreadable malformed idle => rw [getAll_unreadable malformed, idle]
    | listed parsed listing kept =>
      rw [getAll_parsed parsed, listing.collect_eq kept followable]

/-- What comes after a listing is in the peer's answers too. -/
theorem Followable.after (followable : Followable next p)
    (gathers : Gathers headers now read next start p p' ended) : Followable next p' := by
  cases gathers with
  | unreadable malformed idle => exact idle ▸ followable
  | listed parsed listing kept =>
    intro r given
    rw [listing.rest] at given
    exact followable r (List.mem_of_mem_drop given)

/-! Pages as they are served. -/

/-- A page of a listing with a link to the next one if there is one. -/
def page (goal : Option String) (items : List Json) : Response where
  status := 200
  headers := match goal with
    | none => []
    | some url => [("link", Text.encode (Link.renderAll [⟨url, "next"⟩]))]
  body := (Json.arr items).render

theorem readBody_page {α : Type} {read : Json → Option α} {items : List Json} {found : List α}
    (written : ∀ v ∈ items, Json.Written false v) (each : items.mapM read = some found)
    (goal : Option String) :
    readBody (Json.list? read) (page goal items) = .ok found := by
  have whole : Json.parse? (page goal items).body = some (.arr items) :=
    (Json.Written.arr items written).read?_render
  unfold readBody
  rw [whole, Option.bind_eq_bind, Option.bind_some, Json.list?, each]

section

variable {first : String} {items more : List Json} {found found' : List α} {goal : Option String}
  {rest : List (Option Response)}

/-- A page that is first in the script is served to whoever gets to the peer. -/
theorem outcome_served (now : Int) {url : String}
    (arrives : (arriving headers p.connects url).isSome = true)
    (script : p.script = some (page goal items) :: rest) :
    (p.visited headers url).outcome now = .ok (page goal items) ∧
      (p.leave headers url).script = rest := by
  obtain ⟨request, arrived⟩ := Option.isSome_iff_exists.mp arrives
  obtain ⟨here, left⟩ := visited_arrived arrived
  rw [here, left, script]
  refine ⟨?_, rfl⟩
  obtain ⟨u, target, -⟩ := arriving_eq_some arrived
  unfold Visit.outcome
  rw [target]
  rfl

/-- What is gathered from one page. -/
theorem gathers_one (starts : withPageSize start = .ok first)
    (arrives : (arriving headers p.connects first).isSome = true)
    (script : p.script = some (page goal items) :: rest)
    (written : ∀ v ∈ items, Json.Written false v) (each : items.mapM read = some found)
    (last : next (page goal items) = none) :
    ∃ p', Gathers headers now read next start p p' (.ok found) ∧ p'.script = rest ∧
      p'.connects = p.connects := by
  obtain ⟨answered, left⟩ := outcome_served now arrives script
  have decoded := (Visit.items_ok answered).trans (readBody_page written each goal)
  have listing := Listing.single rfl ((Visit.next?_ok answered decoded).trans last)
  rw [decoded] at listing
  exact ⟨_, .of_first starts listing (leave_connects ..), left, leave_connects ..⟩

/-- What is gathered from two pages. -/
theorem gathers_two {url : String} (starts : withPageSize start = .ok first)
    (arrives : (arriving headers p.connects first).isSome = true)
    (arrives' : (arriving headers p.connects url).isSome = true)
    (script : p.script = some (page (some url) items) :: some (page none more) :: rest)
    (written : ∀ v ∈ items ++ more, Json.Written false v) (each : items.mapM read = some found)
    (each' : more.mapM read = some found') (leads : next (page (some url) items) = some url)
    (last : next (page none more) = none) :
    ∃ p', Gathers headers now read next start p p' (.ok (found ++ found')) ∧ p'.script = rest ∧
      p'.connects = p.connects := by
  obtain ⟨answered, left⟩ := outcome_served now arrives script
  rw [← leave_connects headers p first] at arrives'
  obtain ⟨answered', left'⟩ := outcome_served now arrives' left
  obtain ⟨here, there⟩ := List.forall_mem_append.mp written
  have decoded := (Visit.items_ok answered).trans (readBody_page here each (some url))
  have decoded' := (Visit.items_ok answered').trans (readBody_page there each' none)
  have listing := Listing.cons rfl decoded ((Visit.next?_ok answered decoded).trans leads)
    (.single rfl ((Visit.next?_ok answered' decoded').trans last))
  rw [decoded'] at listing
  have kept := (leave_connects headers (p.leave headers first) url).trans (leave_connects ..)
  exact ⟨_, .of_first starts listing kept, left', kept⟩

end

/-- Where the next page is by the links on the pages. -/
def toNext (goal : String) (r : Response) : Option String := Link.announced? (pageLinks goal r)

theorem page_carries {goal : String} {p : Peer} (opened : '<' ∉ goal.toList)
    (closed : '>' ∉ goal.toList)
    (visible : valueText? (Text.encode (Link.renderAll [⟨goal, "next"⟩])) =
      some (Link.renderAll [⟨goal, "next"⟩]))
    (pages : ∀ answer ∈ p.script, ∃ items, answer = some (page (some goal) items) ∨
      answer = some (page none items)) :
    ∀ r, some r ∈ p.script → Link.Carries r.headers (pageLinks goal r) := by
  intro r given
  refine pageLinks_carries opened closed visible ?_
  obtain ⟨items, here | here⟩ := pages _ given
  · exact .inl (congrArg Response.headers (Option.some.inj here))
  · exact .inr (congrArg Response.headers (Option.some.inj here))

theorem find?_pageLinks {goal : String} {r : Response} {l : Link}
    (first : (pageLinks goal r).find? Link.isNext = some l) : l = ⟨goal, "next"⟩ := by
  have found := List.mem_of_find?_eq_some first
  unfold pageLinks at found
  split at found
  · cases found
  · exact List.mem_singleton.mp found

end Gatehouse.Http
