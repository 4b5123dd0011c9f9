import Gatehouse.Proofs.Http.Endpoint
import Gatehouse.Proofs.Http.Places
import Gatehouse.Proofs.Url.Levels

/-!
# Requests that stay at home

The home of a client is an endpoint whose URL is written as it is sent. What is put behind it on a level is
asked for behind it, whatever dots are in it (`Home.request`), and so are the pages of a listing
(`Home.page`). A call that keeps to such places leaves home only where an answer leads it
(`KeepsTo.atHome`).
-/

namespace Gatehouse.Http

variable {α : Type} {headers : Headers} {now : Int} {text : String} {e : Url} {s : List Char}

/-- The text is the URL of an endpoint, as it is sent. -/
structure Home (text : String) (e : Url) : Prop extends Endpoint text e where
  parsed : Url.parse text = .ok e
  written : e.render = text

/-- The text has no blanks in it, and takes back no more segments than it brought and `n` others. -/
structure IsLevel (n : Nat) (s : List Char) : Prop where
  solid : ∀ c ∈ s, 0x20 < c.toNat
  level : Url.Level n s

/-- The text is a segment as it is written. -/
def isFolder (s : List Char) : Bool :=
  s.all (fun c => 0x20 < c.toNat && !Url.endsAuthority true c) && !Url.isDotDot s && !Url.isDot s

theorem isFolder_iff : isFolder s = true ↔
    Url.IsPart s ∧ (∀ c ∈ s, 0x20 < c.toNat) ∧ Url.isDotDot s = false ∧ Url.isDot s = false := by
  simp only [isFolder, Url.IsPart, Bool.and_eq_true, List.all_eq_true, Bool.not_eq_true',
    decide_eq_true_eq]
  exact ⟨fun ⟨⟨both, single⟩, plain⟩ => ⟨fun c member => (both c member).2,
    fun c member => (both c member).1, single, plain⟩,
    fun ⟨part, solid, single, plain⟩ => ⟨⟨fun c member => ⟨solid c member, part c member⟩, single⟩,
      plain⟩⟩

namespace IsLevel

variable {n m : Nat} {w : List Char}

theorem mono (level : IsLevel n s) (le : n ≤ m) : IsLevel m s :=
  ⟨level.solid, level.level.mono le⟩

theorem behind (level : IsLevel (n + 1) s) (folder : isFolder w = true) :
    IsLevel n (w ++ '/' :: s) := by
  obtain ⟨part, solid, single, plain⟩ := isFolder_iff.mp folder
  refine ⟨?_, level.level.behind part single plain⟩
  exact List.forall_mem_append.mpr ⟨solid, List.forall_mem_cons.mpr ⟨by decide, level.solid⟩⟩

end IsLevel

/-- The URL is that of the home with a text behind it that does not climb. -/
def Behind (text url : String) : Prop := ∃ s, url = text ++ String.ofList s ∧ IsLevel 0 s

theorem Home.chars (home : Home text e) : e.chars = text.toList := by
  rw [← home.written, Url.render, String.toList_ofList]

/-- A text behind a home is read as one URL, and that is where a request for it goes. -/
theorem Home.behind (home : Home text e) (slash : EndsInSlash text) :
    ∃ done, e.path = Url.pathBehind done [] ∧ ∀ more, (∀ c ∈ more, 0x20 < c.toNat) →
      Url.parse (text ++ String.ofList more) =
          .ok (Url.withTail true e (Url.pathBehind done) more) ∧
        target? (text ++ String.ofList more) =
          .ok (Url.withTail true e (Url.pathBehind done) more) := by
  obtain ⟨u, done, parsed, path, behind⟩ := home.toEndpoint.read_behind slash
  obtain rfl : e = u := Except.ok.inj (home.parsed.symm.trans parsed)
  exact ⟨done, path, behind⟩

/-- A text behind a home is read as a URL that is written with `r` for a path behind the home, and
with nothing in it that would be lost when it is read again. -/
structure Placed (text : String) (s : List Char) (u : Url) (r : List Char) : Prop where
  parsed : Url.parse (text ++ String.ofList s) = .ok u
  target : target? (text ++ String.ofList s) = .ok u
  solid : ∀ c ∈ r, 0x20 < c.toNat
  solidQuery : ∀ q, u.query = some q → ∀ c ∈ q, 0x20 < c.toNat
  solidFragment : ∀ f, u.fragment = some f → ∀ c ∈ f, 0x20 < c.toNat
  level : ∀ more, Url.Level 0 (r ++ '?' :: more)
  written : ∀ query fragment, ({ u with query, fragment } : Url).chars =
    text.toList ++ (r ++ (Url.renderPart '?' query ++ Url.renderPart '#' fragment))

theorem Home.placed (home : Home text e) (slash : EndsInSlash text) (level : IsLevel 0 s) :
    ∃ u r, Placed text s u r := by
  obtain ⟨done, path, behind⟩ := home.behind slash
  obtain ⟨parsed, target⟩ := behind s level.solid
  obtain ⟨r, solid, levels, chars⟩ := Url.chars_behind home.host_ne_none home.query home.fragment
    path level.level
  refine ⟨_, r, parsed, target, solid, fun q some c member => ?_, fun f some c member => ?_, levels,
    fun query fragment => ?_⟩
  · obtain ⟨t, -, rfl⟩ := Option.map_eq_some_iff.mp some
    exact Text.solid_percentEncode (by decide) member
  · obtain ⟨t, -, rfl⟩ := Option.map_eq_some_iff.mp some
    exact Text.solid_percentEncode (by decide) member
  · rw [← home.chars, ← chars query fragment, ← Url.splitTail_path]
    rfl

/-- A request for what is behind a home on a level goes there. -/
theorem Home.request (home : Home text e) (slash : EndsInSlash text) (level : IsLevel 0 s)
    {r : Request} (goes : r.GoesTo headers (text ++ String.ofList s)) :
    text.toList <+: r.url.toList := by
  obtain ⟨method, body, u, target, rfl⟩ := goes
  obtain ⟨u', rest, placed⟩ := home.placed slash level
  obtain rfl : u' = u := Except.ok.inj (placed.target.symm.trans target)
  rw [requestFor, Url.render, String.toList_ofList]
  exact ⟨_, (placed.written u'.query none).symm⟩

/-- The first page of a listing behind a home is behind it as well. -/
theorem Home.page (home : Home text e) (slash : EndsInSlash text) {url first : String}
    (there : Behind text url) (starts : withPageSize url = .ok first) : Behind text first := by
  obtain ⟨s, rfl, level⟩ := there
  obtain ⟨u, r, placed⟩ := home.placed slash level
  rw [withPageSize, placed.parsed] at starts
  obtain rfl : _ = first := Except.ok.inj starts
  obtain ⟨q, asked, solid⟩ : ∃ q,
      u.appendQuery "per_page".toList (toString pageSize).toList = { u with query := some q } ∧
        ∀ c ∈ q, 0x20 < c.toNat := by
    have all : "per_page=100".toList.all (fun c => 0x20 < c.toNat) = true := by decide
    have pair : ∀ c ∈ "per_page=100".toList, 0x20 < c.toNat := fun c member =>
      of_decide_eq_true (List.all_eq_true.mp all c member)
    cases query : u.query with
    | none => exact ⟨_, by rw [Url.appendQuery, query]; rfl, pair⟩
    | some q =>
      cases q with
      | nil => exact ⟨_, by rw [Url.appendQuery, query]; rfl, pair⟩
      | cons c q =>
        refine ⟨_, by rw [Url.appendQuery, query], ?_⟩
        exact List.forall_mem_append.mpr ⟨placed.solidQuery _ query,
          List.forall_mem_cons.mpr ⟨by decide, pair⟩⟩
  refine ⟨r ++ '?' :: (q ++ Url.renderPart '#' u.fragment), ?_, ?_, placed.level _⟩
  · rw [asked, Url.render, ← String.toList_inj, String.toList_ofList, String.toList_append,
      String.toList_ofList]
    exact placed.written (some q) u.fragment
  · refine List.forall_mem_append.mpr ⟨placed.solid, List.forall_mem_cons.mpr ⟨by decide, ?_⟩⟩
    refine List.forall_mem_append.mpr ⟨solid, ?_⟩
    cases fragment : u.fragment with
    | none => exact fun c member => absurd member List.not_mem_nil
    | some f => exact List.forall_mem_cons.mpr ⟨by decide, placed.solidFragment f fragment⟩

/-- A segment and a query that need no encoding are asked for as they are. -/
theorem Home.unencoded (home : Home text e) (slash : EndsInSlash text) {w q : List Char}
    (folder : isFolder w = true) (path : ∀ c ∈ w, Url.keepInPath c = true)
    (query : ∀ c ∈ q, Url.keepInQuery true c = true) {r : Request}
    (goes : r.GoesTo headers (text ++ String.ofList (w ++ '?' :: q))) :
    r.url = text ++ String.ofList (w ++ '?' :: q) := by
  obtain ⟨method, body, u, target, rfl⟩ := goes
  obtain ⟨done, base, behind⟩ := home.behind slash
  obtain ⟨part, solid, single, plain⟩ := isFolder_iff.mp folder
  have encoded : Text.percentEncode (Url.keepInQuery true) q = q := Text.percentEncode_all query
  have all : ∀ c ∈ w ++ '?' :: q, 0x20 < c.toNat := by
    refine List.forall_mem_append.mpr ⟨solid, List.forall_mem_cons.mpr ⟨by decide, fun c member => ?_⟩⟩
    exact Text.solid_percentEncode (by decide) (encoded.symm ▸ member)
  obtain rfl := Except.ok.inj (target.symm.trans (behind _ all).2)
  have hash : '#' ∉ q := fun member => by cases query _ member
  have straight : '\\' ∉ w := fun member => by cases part _ member
  have segments : ∀ t ∈ Text.splitWhere (Url.isSlash true) w,
      Url.isDot t = false ∧ Url.isDotDot t = false := by
    rw [Text.splitWhere_line part.whole]
    exact List.forall_mem_singleton.mpr ⟨plain, single⟩
  have written : Url.renderPath (Url.pathBehind done w) = Url.renderPath e.path ++ w := by
    rw [Url.renderPath_behind straight segments, base, Text.percentEncode_all path]
  have goesOn := Url.chars_on home.host_ne_none home.query home.fragment written (some q) none
  rw [home.chars] at goesOn
  simp only [requestFor, Url.render, Url.withTail, Url.splitTail_query part hash, Option.map_some,
    encoded, goesOn, ← String.toList_inj, String.toList_ofList, String.toList_append]
  simp [Url.renderPart]

/-- A call that keeps to places behind a home leaves it only where an answer leads. -/
theorem KeepsTo.atHome {asked listed : String → Prop} {call : Call α}
    (keeps : KeepsTo headers now asked listed call) (home : Home text e) (slash : EndsInSlash text)
    (behind : ∀ url, asked url ∨ listed url → Behind text url) (p : Peer) :
    Passage (fun r => text.toList <+: r.url.toList ∨ (∃ url, listed url) ∧ r.Follows headers p.script)
      p (call p).2 := by
  refine (keeps.passage p).imp fun r arises => ?_
  cases arises with
  | asked there goes =>
    obtain ⟨s, rfl, level⟩ := behind _ (.inl there)
    exact .inl (home.request slash level goes)
  | page there starts goes =>
    obtain ⟨s, rfl, level⟩ := home.page slash (behind _ (.inr there)) starts
    exact .inl (home.request slash level goes)
  | next there follows => exact .inr ⟨⟨_, there⟩, follows⟩

end Gatehouse.Http
