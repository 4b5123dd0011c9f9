import Gatehouse.Proofs.Text.Pieces
import Gatehouse.Url.Parser

/-!
# Texts behind a URL

A text behind a URL that ends in a slash and has neither query nor fragment is read from where the path of
the URL ends: what was read before stays, and the text is split and resolved on its own, except that
dots in it may take back segments that are there (`parse_append`).
-/

namespace Gatehouse.Url

open Text

variable {c : Char} {s t : List Char} {done ss : List (List Char)} {scheme rest : List Char}
  {u e : Url} {p : Char → Bool}

/-! Paths. -/

/-- A segment more; `done` is in reverse. -/
def walk (done : List (List Char)) (s : List Char) : List (List Char) :=
  if isDotDot s then done.drop 1 else if isDot s then done else s :: done

theorem resolve_cons (more : ss ≠ []) : resolve done (s :: ss) = resolve (walk done s) ss := by
  cases ss with
  | nil => exact absurd rfl more
  | cons t ss =>
    rw [resolve, walk]
    · split
      · rfl
      split <;> rfl
    · exact nofun

/-- All segments but the last are walked through. -/
theorem resolve_append (before : List (List Char)) (more : ss ≠ []) :
    resolve done (before ++ ss) = resolve (before.foldl walk done) ss := by
  induction before generalizing done with
  | nil => rfl
  | cons s before ih =>
    rw [List.cons_append, resolve_cons (by simp [more]), ih, List.foldl_cons]

/-- The path that a text makes behind segments that are there. -/
def pathBehind (done : List (List Char)) (s : List Char) : UrlPath :=
  .segments ((resolve done (splitWhere (isSlash true) s)).map (percentEncode keepInPath))

/-- A path that has a slash in it goes on behind that. -/
theorem pathAfterHost_append (front : ∀ c ∈ s.head?, isSlash true c = true) :
    ∃ done, ∀ more, pathAfterHost true (s ++ '/' :: more) = pathBehind done more := by
  have slash : isSlash true '/' = true := rfl
  cases s with
  | nil =>
    refine ⟨[], fun more => ?_⟩
    rw [List.nil_append, pathAfterHost, if_pos slash]
    rfl
  | cons c s =>
    refine ⟨(splitWhere (isSlash true) s).foldl walk [], fun more => ?_⟩
    rw [List.cons_append, pathAfterHost, if_pos (front c rfl), parseSegments, splitWhere_cut slash,
      resolve_append _ (splitWhere_ne_nil more)]
    rfl

/-! Queries and fragments. -/

theorem splitTail_append (hash : '#' ∉ s) (mark : '?' ∉ s) (more : List Char) :
    splitTail (s ++ more) = (s ++ (splitTail more).1, (splitTail more).2) := by
  have free : ∀ c ∈ s, (c != '#') = true := fun c member => by
    simpa using fun same : c = '#' => hash (same ▸ member)
  unfold splitTail
  dsimp only
  rw [List.takeWhile_append_of_pos free, List.dropWhile_append_of_pos free, cutAt_missing mark]
  cases cutAt '?' (more.takeWhile (· != '#')) <;> rfl

/-- A text that has neither query nor fragment has no marks of these. -/
theorem splitTail_free (noQuery : (splitTail s).2.1 = none) (noFragment : (splitTail s).2.2 = none) :
    '#' ∉ s ∧ '?' ∉ s := by
  unfold splitTail at noQuery noFragment
  dsimp only at noQuery noFragment
  cases cut : cutAt '?' (s.takeWhile (· != '#')) with
  | some parts =>
    rw [cut] at noQuery
    cases noQuery
  | none =>
    rw [cut] at noFragment
    cases drop : s.dropWhile (· != '#') with
    | cons c f =>
      rw [drop] at noFragment
      cases noFragment
    | nil =>
      have whole : s.takeWhile (· != '#') = s := by
        simpa [drop] using List.takeWhile_append_dropWhile (p := (· != '#')) (l := s)
      have hash : s.all (· != '#') = true := whole ▸ List.all_takeWhile
      rw [whole] at cut
      exact ⟨fun member => by simpa using List.all_eq_true.mp hash _ member, cutAt_eq_none.mp cut⟩

/-- Behind a host, where there is neither query nor fragment, a text goes on behind the last slash. -/
theorem withTail_append (first : ∀ c ∈ s.head?, endsAuthority true c = true) (hash : '#' ∉ s ++ ['/'])
    (mark : '?' ∉ s ++ ['/']) : ∃ done, ∀ u more,
      withTail true u (pathAfterHost true) (s ++ '/' :: more) =
        withTail true u (pathBehind done) more := by
  have front : ∀ c ∈ s.head?, isSlash true c = true := by
    intro c start
    have member : c ∈ s ++ ['/'] := List.mem_append_left _ (List.mem_of_mem_head? start)
    have other {d : Char} (missing : d ∉ s ++ ['/']) : c ≠ d := by
      rintro rfl
      exact missing member
    simpa [endsAuthority, other hash, other mark] using first c start
  obtain ⟨done, path⟩ := pathAfterHost_append front
  refine ⟨done, fun u more => ?_⟩
  have tail := splitTail_append hash mark more
  rw [List.append_assoc, List.append_assoc, List.singleton_append, List.singleton_append] at tail
  simp only [withTail, tail, path]

/-- Without a question mark a text sets only the path, up to its first hash, and the fragment. -/
theorem withTail_path (mark : '?' ∉ s) (noQuery : e.query = none) (noFragment : e.fragment = none)
    (path : List Char → UrlPath) : { withTail true e path s with fragment := none } =
      { e with path := path (s.takeWhile (· != '#')) } := by
  have missing : '?' ∉ s.takeWhile (· != '#') := fun member =>
    mark ((List.takeWhile_sublist _).mem member)
  simp only [withTail, splitTail, cutAt_eq_none.mpr missing, Option.map_none, noQuery, noFragment]

/-- Path, query and fragment of a URL with a host are written behind everything else. -/
theorem chars_tail (host : e.host ≠ none) (noQuery : e.query = none) (noFragment : e.fragment = none)
    (path : UrlPath) (query fragment : Option (List Char)) :
    ({ e with path, query, fragment } : Url).chars = { e with path := .segments [] }.chars ++
      (renderPath path ++ (renderPart '?' query ++ renderPart '#' fragment)) := by
  obtain ⟨h, named⟩ := Option.ne_none_iff_exists'.mp host
  simp [chars, renderHostAndPath, named, noQuery, noFragment, renderPart, renderCredentials,
    renderPath]

/-- The path of a URL with a host, without query and fragment, is written behind everything else. -/
theorem chars_path (host : e.host ≠ none) (noQuery : e.query = none) (noFragment : e.fragment = none)
    (path : UrlPath) :
    ({ e with path } : Url).chars = { e with path := .segments [] }.chars ++ renderPath path := by
  have tail := chars_tail host noQuery noFragment path e.query e.fragment
  simpa [noQuery, noFragment, renderPart] using tail

/-- A URL whose path goes on behind another goes on behind it. -/
theorem chars_on {path : UrlPath} {r : List Char} (host : e.host ≠ none) (noQuery : e.query = none)
    (noFragment : e.fragment = none) (on : renderPath path = renderPath e.path ++ r)
    (query fragment : Option (List Char)) :
    ({ e with path, query, fragment } : Url).chars =
      e.chars ++ (r ++ (renderPart '?' query ++ renderPart '#' fragment)) := by
  have base : e.chars = { e with path := .segments [] }.chars ++ renderPath e.path :=
    chars_path host noQuery noFragment e.path
  rw [chars_tail host noQuery noFragment, on, base]
  simp only [List.append_assoc]

/-! Hosts. -/

/-- The host that a text names. -/
def host? (special : Bool) (hostText : List Char) : Except ParseError (List Char) :=
  if hostText.isEmpty then .ok []
  else if special then parseHost hostText else parsePlainHost hostText

/-- The URL up to its host and port, which are all of the text. -/
def authority? (scheme authority : List Char) : Except ParseError Url := do
  let (credentials, hostPort) := splitCredentials authority
  let (hostText, portText) := splitPort false hostPort
  if hostText.isEmpty && (defaultPort? scheme).isSome then throw .emptyHost
  if hostText.isEmpty && (portText.isSome || !credentials.isEmpty) then throw .emptyHost
  let host ← host? (isSpecial scheme) hostText
  let port ← parsePort scheme portText
  let (username, password) := match Text.cutAt ':' credentials.dropLast with
    | some (name, word) => (name, word)
    | none => (credentials.dropLast, [])
  return { scheme, port, host := some host
           username := Text.percentEncode keepInCredentials username
           password := Text.percentEncode keepInCredentials password }

theorem parseFromHost_eq (scheme s : List Char) :
    parseFromHost scheme s = do
      let u ← authority? scheme (s.takeWhile fun c => !endsAuthority (isSpecial scheme) c)
      return withTail (isSpecial scheme) u (pathAfterHost (isSpecial scheme))
        (s.dropWhile fun c => !endsAuthority (isSpecial scheme) c) := by
  unfold parseFromHost authority?
  dsimp only
  generalize splitCredentials _ = parts
  obtain ⟨credentials, hostPort⟩ := parts
  generalize splitPort false hostPort = parts
  obtain ⟨hostText, portText⟩ := parts
  dsimp only
  split
  · rfl
  split
  · rfl
  unfold host?
  cases hostText.isEmpty with
  | true => cases parsePort scheme portText <;> rfl
  | false =>
    cases isSpecial scheme with
    | true => cases parseHost hostText <;> cases parsePort scheme portText <;> rfl
    | false => cases parsePlainHost hostText <;> cases parsePort scheme portText <;> rfl

theorem bind_eq_ok {ε α β : Type} {x : Except ε α} {f : α → Except ε β} {b : β}
    (ended : (x >>= f) = .ok b) : ∃ a, x = .ok a ∧ f a = .ok b := by
  cases x with
  | error e => cases ended
  | ok a => exact ⟨a, rfl, ended⟩

theorem authority?_nil (special : (defaultPort? scheme).isSome = true) :
    authority? scheme [] = .error .emptyHost := by
  unfold authority?
  exact if_pos (by simpa [splitPort] using special)

theorem authority?_scheme {authority : List Char} (read : authority? scheme authority = .ok u) :
    u.scheme = scheme := by
  unfold authority? at read
  dsimp only at read
  split at read
  · cases read
  split at read
  · cases read
  obtain ⟨host, -, read⟩ := bind_eq_ok read
  obtain ⟨port, -, read⟩ := bind_eq_ok read
  cases read
  rfl

theorem parseFromHost_scheme (parsed : parseFromHost scheme s = .ok e) : e.scheme = scheme := by
  rw [parseFromHost_eq] at parsed
  obtain ⟨u, read, parsed⟩ := bind_eq_ok parsed
  obtain rfl := Except.ok.inj parsed
  exact (authority?_scheme read :)

theorem isSpecial_of_port (special : (defaultPort? scheme).isSome = true) :
    isSpecial scheme = true := by
  rw [isSpecial, special, Bool.true_or]

/-- From the host on, a text goes on behind the last slash. -/
theorem parseFromHost_append (special : isSpecial scheme = true)
    (parsed : parseFromHost scheme (s ++ ['/']) = .ok e) (noQuery : e.query = none)
    (noFragment : e.fragment = none) :
    ∃ done, e.path = pathBehind done [] ∧
      ∀ more, parseFromHost scheme (s ++ '/' :: more) =
        .ok (withTail true e (pathBehind done) more) := by
  have ends : (!endsAuthority true '/') = false := rfl
  obtain ⟨front, drop⟩ := dropWhile_front (p := fun c => !endsAuthority true c) ends s
  have split (more : List Char) : parseFromHost scheme (s ++ '/' :: more) = do
      let u ← authority? scheme (s.takeWhile fun c => !endsAuthority true c)
      return withTail true u (pathAfterHost true) (front ++ '/' :: more) := by
    rw [parseFromHost_eq, special, drop, takeWhile_front ends]
  rw [split] at parsed
  simp only [split]
  cases read : authority? scheme (s.takeWhile fun c => !endsAuthority true c) with
  | error e =>
    rw [read] at parsed
    cases parsed
  | ok u =>
    rw [read] at parsed
    obtain rfl := Except.ok.inj parsed
    have queryless : (splitTail (front ++ ['/'])).2.1 = none := Option.map_eq_none_iff.mp noQuery
    have bare : (splitTail (front ++ ['/'])).2.2 = none := Option.map_eq_none_iff.mp noFragment
    obtain ⟨hash, mark⟩ := splitTail_free queryless bare
    have first : ∀ c ∈ front.head?, endsAuthority true c = true := by
      intro c start
      obtain ⟨r, rfl⟩ : ∃ r, front = c :: r := List.head?_eq_some_iff.mp start
      have stopped := List.head?_dropWhile_not (fun c => !endsAuthority true c) (s ++ ['/'])
      rw [drop] at stopped
      simpa using stopped
    obtain ⟨done, goesOn⟩ := withTail_append first hash mark
    refine ⟨done, by rw [goesOn u []]; rfl, fun more => ?_⟩
    have again : withTail true u (pathBehind done) more =
        withTail true (withTail true u (pathAfterHost true) (front ++ ['/'])) (pathBehind done) more :=
      rfl
    exact congrArg Except.ok ((goesOn u more).trans again)

/-! Whole texts. -/

theorem splitScheme_append (found : splitScheme (s ++ ['/']) = some (scheme, rest)) :
    ∃ front, rest = front ++ ['/'] ∧
      ∀ more, splitScheme (s ++ '/' :: more) = some (scheme, front ++ '/' :: more) := by
  cases cut : cutAt ':' s with
  | none =>
    have whole := cutAt_missing (cutAt_eq_none.mp cut) ['/']
    unfold splitScheme at found
    rw [whole] at found
    cases found
  | some parts =>
    obtain ⟨word, front⟩ := parts
    have split (more : List Char) := cutAt_append cut ('/' :: more)
    unfold splitScheme at found ⊢
    rw [split] at found
    cases word with
    | nil => cases found
    | cons c word =>
      dsimp only at found
      split at found
      · rename_i letters
        cases found
        refine ⟨front, rfl, fun more => ?_⟩
        rw [split]
        exact if_pos letters
      · cases found

theorem cleaned_append (s : List Char) : ∃ front, ∀ more, (∀ c ∈ more, 0x20 < c.toNat) →
    cleaned (s ++ '/' :: more) = front ++ '/' :: more := by
  obtain ⟨front, trim⟩ := trimWhere_front (p := fun c => decide (c.toNat ≤ 0x20)) (d := '/') rfl s
  refine ⟨front.filter fun c => c != '\t' && c != '\n' && c != '\r', fun more solid => ?_⟩
  have kept : (more.filter fun c => c != '\t' && c != '\n' && c != '\r') = more := by
    refine List.filter_eq_self.mpr fun c member => ?_
    have other {d : Char} (blank : d.toNat ≤ 0x20) : c ≠ d := by
      rintro rfl
      exact absurd (solid c member) (Nat.not_lt.mpr blank)
    simp [other (d := '\t') (by decide), other (d := '\n') (by decide),
      other (d := '\r') (by decide)]
  rw [cleaned, trim more fun c member => by simpa using solid c member, List.filter_append,
    List.filter_cons_of_pos (by decide), kept]

/-- A text behind a URL that ends in a slash and has neither query nor fragment is read from the end of the
path on. -/
theorem parse_append (parsed : parse (String.ofList (s ++ ['/'])) = .ok e)
    (special : (defaultPort? e.scheme).isSome = true) (noQuery : e.query = none)
    (noFragment : e.fragment = none) :
    ∃ done, e.path = pathBehind done [] ∧ ∀ more, (∀ c ∈ more, 0x20 < c.toNat) →
      parse (String.ofList (s ++ '/' :: more)) = .ok (withTail true e (pathBehind done) more) := by
  obtain ⟨text, clean⟩ := cleaned_append s
  have solid : ∀ c ∈ ([] : List Char), 0x20 < c.toNat := nofun
  unfold parse at parsed ⊢
  rw [String.toList_ofList, clean [] solid] at parsed
  cases found : splitScheme (text ++ ['/']) with
  | none =>
    rw [found] at parsed
    cases parsed
  | some parts =>
    obtain ⟨scheme, rest⟩ := parts
    obtain ⟨front, rfl, again⟩ := splitScheme_append found
    rw [found] at parsed
    dsimp only at parsed
    have same : e.scheme = scheme := by
      split at parsed
      · exact parseFromHost_scheme parsed
      split at parsed
      · exact parseFromHost_scheme parsed
      · cases parsed
        rfl
      · split at parsed <;> (cases parsed; rfl)
    subst same
    rw [if_pos special] at parsed
    have one := isSpecial_of_port special
    have drop (more : List Char) :
        (front ++ '/' :: more).dropWhile (isSlash (isSpecial e.scheme)) =
          front.dropWhile (isSlash (isSpecial e.scheme)) ++ '/' :: more := by
      rw [List.dropWhile_append]
      split
      · rename_i empty
        rw [List.dropWhile_append, if_pos empty, one, parseFromHost_eq] at parsed
        rw [show ['/'].dropWhile (isSlash true) = [] from rfl, List.takeWhile_nil,
          authority?_nil special] at parsed
        cases parsed
      · rfl
    rw [drop] at parsed
    obtain ⟨done, path, behind⟩ := parseFromHost_append one parsed noQuery noFragment
    refine ⟨done, path, fun more solid => ?_⟩
    rw [String.toList_ofList, clean more solid, again]
    dsimp only
    rw [if_pos special, drop, behind]

end Gatehouse.Url
