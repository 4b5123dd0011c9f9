import Gatehouse.Http.Peer
import Gatehouse.Proofs.Program.Fallible
import Gatehouse.Proofs.Url.PathReading

/-!
# Requests behind endpoints

An endpoint is a URL without query and fragment, and what a client puts behind it is to name one of the
things that are there. A request names something if its own URL goes on behind that of the endpoint with
a path that stands for the name (`Request.Names`). Any name but a dot or two is named if it was encoded
first (`Endpoint.encoded`). Of a text that was put there as it is, all that stands behind a hash is lost
(`Endpoint.hash`), and escapes are read as such (`Endpoint.names`).
-/

namespace Gatehouse.Http

open Text

variable {headers : Headers} {now : Int} {url text : String} {p : Peer} {e : Url} {s more : List Char}

/-- The request that getting a URL makes, and whether the connection for it must be secret. -/
def getRequest? (headers : Headers) (url : String) : Option (Bool × Request) :=
  (target? url).toOption.map fun u => (u.scheme == "https".toList, requestFor headers .get u none)

/-- The URL of a text, without query and fragment. -/
structure Endpoint (text : String) (e : Url) : Prop where
  target : target? text = .ok e
  query : e.query = none
  fragment : e.fragment = none

/-- The request names something behind an endpoint: its URL goes on there with a path that stands for the
name. -/
def Request.Names (r : Request) (endpoint : Url) (name : String) : Prop :=
  ∃ rest : String, r.url = endpoint.render ++ rest ∧ '?' ∉ rest.toList ∧ '#' ∉ rest.toList ∧
    percentDecode (encode rest) = encode name

theorem Request.Names.unique {r : Request} {m n : String} (first : r.Names e m)
    (second : r.Names e n) : m = n := by
  obtain ⟨rest, url, -, -, decoded⟩ := first
  obtain ⟨rest', url', -, -, decoded'⟩ := second
  have same : rest.toList = rest'.toList := by
    have characters := congrArg String.toList (url.symm.trans url')
    rw [String.toList_append, String.toList_append] at characters
    exact List.append_cancel_left characters
  rw [String.toList_inj.mp same] at decoded
  exact encode_injective (decoded.symm.trans decoded')

/-- Getting a document asks for it once. -/
theorem getJson_peer {α : Type} {read : Json → Option α} :
    (getJson headers now read url p).2 = (send headers now .get url none p).2 := by
  rw [getJson, run_andThen]
  rcases send headers now .get url none p with ⟨o, left⟩
  cases o <;> rfl

/-- Getting a document sends the request and no other. -/
theorem getJson_sends {α : Type} {read : Json → Option α} {secret : Bool} {r : Request}
    (made : getRequest? headers url = some (secret, r)) :
    (getJson headers now read url p).2 = (p.deliver secret r).2 := by
  rw [getJson_peer, send]
  cases reached : target? url with
  | error e =>
    rw [getRequest?, reached] at made
    cases made
  | ok u =>
    rw [getRequest?, reached] at made
    cases made
    dsimp only
    generalize p.deliver _ _ = delivered
    obtain ⟨answer, left⟩ := delivered
    cases answer <;> rfl

/-! Endpoints. -/

/-- The text ends in a slash. -/
def EndsInSlash (text : String) : Prop := ∃ s, text = String.ofList (s ++ ['/'])

theorem endsInSlash_append (text : String) (s : List Char) :
    EndsInSlash (text ++ String.ofList (s ++ ['/'])) :=
  ⟨text.toList ++ s, by simp [String.ofList_append]⟩

/-- A request goes to a URL with a host over HTTP, and leaves out name and password. -/
theorem target?_eq_ok : target? text = .ok e ↔ ∃ u, Url.parse text = .ok u ∧
    e = u.withoutCredentials ∧ (u.host.getD []).isEmpty = false ∧
    (u.scheme = "http".toList ∨ u.scheme = "https".toList) := by
  have schemes {u : Url} : ["http".toList, "https".toList].contains u.scheme = true ↔
      u.scheme = "http".toList ∨ u.scheme = "https".toList := by
    rw [List.contains_iff_mem, List.mem_cons, List.mem_singleton]
  unfold target?
  constructor
  · intro target
    split at target
    · cases target
    · rename_i u parsed
      dsimp only at target
      split at target
      · cases target
      · rename_i fit
        cases target
        obtain ⟨host, scheme⟩ := Bool.or_eq_false_iff.mp (Bool.eq_false_iff.mpr fit)
        rw [Bool.not_eq_false'] at scheme
        exact ⟨u, parsed, rfl, host, schemes.mp scheme⟩
  · rintro ⟨u, parsed, rfl, host, scheme⟩
    have fit : ((u.withoutCredentials.host.getD []).isEmpty ||
        !(["http".toList, "https".toList].contains u.withoutCredentials.scheme)) = false :=
      Bool.or_eq_false_iff.mpr ⟨host, by rw [Bool.not_eq_false']; exact schemes.mpr scheme⟩
    rw [parsed]
    exact if_neg (Bool.eq_false_iff.mp fit)

theorem Endpoint.host_ne_none (place : Endpoint text e) : e.host ≠ none := by
  obtain ⟨u, -, rfl, host, -⟩ := target?_eq_ok.mp place.target
  intro missing
  rw [show u.host = none from missing] at host
  cases host

/-- What is behind the URL of an endpoint is read as what is there. -/
theorem Endpoint.read_behind (place : Endpoint text e) (slash : EndsInSlash text) :
    ∃ u done, Url.parse text = .ok u ∧ e.path = Url.pathBehind done [] ∧
      ∀ more, (∀ c ∈ more, 0x20 < c.toNat) →
        Url.parse (text ++ String.ofList more) =
            .ok (Url.withTail true u (Url.pathBehind done) more) ∧
          target? (text ++ String.ofList more) =
            .ok (Url.withTail true e (Url.pathBehind done) more) := by
  obtain ⟨u, parsed, rfl, host, scheme⟩ := target?_eq_ok.mp place.target
  obtain ⟨s, rfl⟩ := slash
  have special : (Url.defaultPort? u.scheme).isSome = true := by
    rcases scheme with http | https
    · rw [http]
      rfl
    · rw [https]
      rfl
  obtain ⟨done, path, behind⟩ := Url.parse_append parsed special place.query place.fragment
  refine ⟨u, done, parsed, path, fun more solid => ?_⟩
  rw [← String.ofList_append, List.append_assoc, List.singleton_append]
  exact ⟨behind more solid, target?_eq_ok.mpr ⟨_, behind more solid, rfl, host, scheme⟩⟩

/-- What is behind the URL of an endpoint is asked for there. -/
theorem Endpoint.behind (place : Endpoint text e) (slash : EndsInSlash text) :
    ∃ done, e.path = Url.pathBehind done [] ∧ ∀ more, (∀ c ∈ more, 0x20 < c.toNat) →
      target? (text ++ String.ofList more) =
        .ok (Url.withTail true e (Url.pathBehind done) more) := by
  obtain ⟨u, done, -, path, behind⟩ := place.read_behind slash
  exact ⟨done, path, fun more solid => (behind more solid).2⟩

/-- The request for a text behind an endpoint is the one for the endpoint with another path. -/
theorem Endpoint.getRequest?_eq (headers : Headers) (place : Endpoint text e)
    (slash : EndsInSlash text) :
    ∃ done, e.path = Url.pathBehind done [] ∧ ∀ s, (∀ c ∈ s, 0x20 < c.toNat) → '?' ∉ s →
      getRequest? headers (text ++ String.ofList s) = some (e.scheme == "https".toList,
        requestFor headers .get
          { e with path := Url.pathBehind done (s.takeWhile (· != '#')) } none) := by
  obtain ⟨done, path, behind⟩ := place.behind slash
  refine ⟨done, path, fun s solid mark => ?_⟩
  rw [getRequest?, behind s solid, ← Url.withTail_path mark place.query place.fragment]
  rfl

/-- What comes behind a hash is not sent. -/
theorem Endpoint.hash (headers : Headers) (place : Endpoint text e) (slash : EndsInSlash text)
    (s more : List Char) (solid : ∀ c ∈ s ++ '#' :: more, 0x20 < c.toNat)
    (mark : '?' ∉ s ++ '#' :: more) :
    getRequest? headers (text ++ String.ofList (s ++ '#' :: more)) =
      getRequest? headers (text ++ String.ofList s) := by
  obtain ⟨done, -, requests⟩ := place.getRequest?_eq headers slash
  have first : ∀ c ∈ s, 0x20 < c.toNat := fun c member => solid c (List.mem_append_left _ member)
  have bare : '?' ∉ s := fun member => mark (List.mem_append_left _ member)
  rw [requests _ solid mark, requests _ first bare, takeWhile_front (by decide)]

/-- The URL of a request with another path goes on behind the endpoint if the path does. -/
theorem Endpoint.url_iff (place : Endpoint text e) (path : UrlPath) {rest : String} :
    (requestFor headers .get { e with path } none).url = e.render ++ rest ↔
      Url.renderPath path = Url.renderPath e.path ++ rest.toList := by
  have written := Url.chars_path place.host_ne_none place.query place.fragment
  have base : e.chars = { e with path := .segments [] }.chars ++ Url.renderPath e.path :=
    written e.path
  have bare : { e with path, fragment := none } = { e with path } := by rw [← place.fragment]
  rw [requestFor, bare, ← String.toList_inj, String.toList_append, Url.render, Url.render,
    String.toList_ofList, String.toList_ofList, written, base, List.append_assoc,
    List.append_cancel_left_eq]

/-- A request names no more than the text behind the endpoint stands for up to a hash. -/
theorem Endpoint.names_length {done : List (List Char)} {name : String} (place : Endpoint text e)
    (path : e.path = Url.pathBehind done []) (straight : '\\' ∉ s)
    (names : (requestFor headers .get { e with path := Url.pathBehind done s } none).Names e name) :
    (encode name).length ≤ (percentDecode (bytes s)).length := by
  obtain ⟨rest, url, -, -, decoded⟩ := names
  have behind := (place.url_iff _).mp url
  rw [path] at behind
  rw [← decoded, encode_eq]
  exact Url.length_behind straight behind

/-- Without dots for segments it names what the text stands for. -/
theorem Endpoint.names {done : List (List Char)} {name : String} (place : Endpoint text e)
    (path : e.path = Url.pathBehind done []) (straight : '\\' ∉ s)
    (plain : ∀ t ∈ splitWhere (Url.isSlash true) s, Url.isDot t = false ∧ Url.isDotDot t = false)
    (stands : percentDecode (bytes s) = encode name) :
    (requestFor headers .get { e with path := Url.pathBehind done s } none).Names e name := by
  have missing {c : Char} (out : Url.keepInPath c = false) (sign : c ≠ '%')
      (digit : isHex c = false) : c ∉ (String.ofList (percentEncode Url.keepInPath s)).toList := by
    rw [String.toList_ofList]
    exact not_mem_percentEncode out sign digit
  refine ⟨String.ofList (percentEncode Url.keepInPath s), ?_,
    missing (by decide) (by decide) (by decide), missing (by decide) (by decide) (by decide), ?_⟩
  · rw [place.url_iff, path, Url.renderPath_behind straight plain, String.toList_ofList]
  · rw [encode_ofList, (Url.reads_inPath s).decoded, stands]

theorem solid_encoded (s : List Char) : ∀ c ∈ percentEncode isUnreserved s, 0x20 < c.toNat :=
  fun _ member => solid_percentEncode (by decide) member

/-- What encoding a name leaves can stand in a query as it is, and in a segment. -/
theorem mem_encoded : ∀ d ∈ percentEncode isUnreserved s,
    Url.keepInQuery true d = true ∧ Url.endsAuthority true d = false := by
  intro d member
  have kinds := mem_percentEncode member
  have low : d.toNat < 0x80 := by
    rcases kinds with plain | rfl | digit
    · exact toNat_lt_of_isUnreserved plain
    · decide
    · obtain ⟨n, value⟩ := Option.isSome_iff_exists.mp digit
      exact toNat_lt_of_hexDigit? value
  exact forall_char_lt (P := fun d => isUnreserved d = true ∨ d = '%' ∨ isHex d = true →
    Url.keepInQuery true d = true ∧ Url.endsAuthority true d = false) (by decide +kernel) d low kinds

/-- The request for a text that is encoded behind an endpoint names it, unless it is a dot or two. -/
theorem Endpoint.encoded (headers : Headers) (place : Endpoint text e) (slash : EndsInSlash text)
    {name : String} (one : name.toList ≠ ['.']) (two : name.toList ≠ ['.', '.']) :
    ∃ secret r, getRequest? headers (text ++ urlComponent name) = some (secret, r) ∧
      r.Names e name := by
  have stands := (Reads.encoded isUnreserved (by decide) name.toList).decoded
  have ends (c : Char) (member : c ∈ percentEncode isUnreserved name.toList) :=
    (mem_encoded c member).2
  have mark : '?' ∉ percentEncode isUnreserved name.toList := fun member => by cases ends _ member
  have hash : '#' ∉ percentEncode isUnreserved name.toList := fun member => by cases ends _ member
  have straight : '\\' ∉ percentEncode isUnreserved name.toList := fun member => by
    cases ends _ member
  have solid := solid_encoded name.toList
  have single : splitWhere (Url.isSlash true) (percentEncode isUnreserved name.toList) =
      [percentEncode isUnreserved name.toList] := by
    refine splitWhere_line fun c member => ?_
    have whole := ends c member
    simp only [Url.endsAuthority, Bool.or_eq_false_iff] at whole
    exact whole.1.1
  obtain ⟨done, path, requests⟩ := place.getRequest?_eq headers slash
  refine ⟨_, _, requests _ solid mark, ?_⟩
  rw [takeWhile_missing hash]
  refine place.names path straight ?_ (by rw [stands, encode_eq, bytes])
  rw [single]
  refine List.forall_mem_singleton.mpr ⟨?_, ?_⟩
  · refine Bool.eq_false_iff.mpr fun dot => one (bytes_injective ?_)
    rw [← stands, Url.percentDecode_dot dot]
  · refine Bool.eq_false_iff.mpr fun dots => two (bytes_injective ?_)
    rw [← stands, Url.percentDecode_dotDot dots]

end Gatehouse.Http
