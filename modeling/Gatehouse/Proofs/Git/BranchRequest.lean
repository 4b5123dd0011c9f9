import Gatehouse.Github.Client
import Gatehouse.Gitlab.Client
import Gatehouse.Proofs.Http.Endpoint

/-!
# Requests for branches

GitLab's clients encode the name of a branch, and their requests name any branch. GitHub's clients put
it behind the endpoint as it is, where a hash ends the path and escapes are read as such; their requests
name the branch exactly if there are none in the name (`branch_requests`).
-/

namespace Gatehouse.Git

open Http Text

variable {e : Url}

/-- May the character stand in the name of a branch? -/
def isNameCharacter (c : Char) : Bool :=
  0x20 < c.toNat && c.toNat != 0x7F && !"~^:?*[\\".toList.contains c

/-- The text may name a branch, as the last part of a reference under `refs/heads/`. -/
structure IsBranchName (name : String) : Prop where
  parts : ∀ part ∈ splitOn '/' name.toList,
    part ≠ [] ∧ part.head? ≠ some '.' ∧ ¬ ".lock".toList <:+ part
  characters : name.toList.all isNameCharacter = true
  dots : ¬ "..".toList <:+: name.toList
  brace : ¬ "@\x7b".toList <:+: name.toList
  last : name.toList.getLast? ≠ some '.'

/-- Neither a hash nor an escape is in the name. -/
def IsPlainName (name : String) : Prop := '#' ∉ name.toList ∧ hasEscape name.toList = false

namespace IsBranchName

variable {name text : String}

theorem solid (valid : IsBranchName name) : ∀ c ∈ name.toList, 0x20 < c.toNat := by
  intro c member
  have character := List.all_eq_true.mp valid.characters c member
  simp only [isNameCharacter, Bool.and_eq_true, decide_eq_true_eq] at character
  exact character.1.1

theorem not_mem (valid : IsBranchName name) {c : Char} (other : isNameCharacter c = false) :
    c ∉ name.toList := fun member =>
  Bool.false_ne_true (other.symm.trans (List.all_eq_true.mp valid.characters c member))

theorem part_ne (valid : IsBranchName name) (t : List Char) :
    '.' :: t ∉ splitOn '/' name.toList := fun member => (valid.parts _ member).2.1 rfl

theorem ne_dots (valid : IsBranchName name) :
    name.toList ≠ ['.'] ∧ name.toList ≠ ['.', '.'] := by
  constructor
  · intro same
    exact valid.part_ne [] (by rw [same]; decide)
  · intro same
    exact valid.part_ne ['.'] (by rw [same]; decide)

/-- In a name without escapes, no part is a dot or two, however they are written. -/
theorem part_plain (valid : IsBranchName name) (free : hasEscape name.toList = false) :
    ∀ part ∈ splitWhere (Url.isSlash true) name.toList,
      Url.isDot part = false ∧ Url.isDotDot part = false := by
  intro part member
  have stands := percentDecode_eq_self.mpr (Url.hasEscape_piece free part member)
  have slashes : splitWhere (Url.isSlash true) name.toList = splitOn '/' name.toList :=
    splitWhere_congr fun c member => by
      have other : c ≠ '\\' := fun same => valid.not_mem (by decide) (same ▸ member)
      simp [Url.isSlash, other]
  rw [slashes] at member
  refine ⟨Bool.eq_false_iff.mpr fun dot => ?_, Bool.eq_false_iff.mpr fun dots => ?_⟩
  · obtain rfl := bytes_injective (stands.symm.trans (Url.percentDecode_dot dot))
    exact valid.part_ne _ member
  · obtain rfl := bytes_injective (stands.symm.trans (Url.percentDecode_dotDot dots))
    exact valid.part_ne _ member

/-- The request for a branch whose name is put behind an endpoint as it is names the branch exactly
if there are no hashes and no escapes in the name. -/
theorem pasted (headers : Headers) (valid : IsBranchName name) (place : Endpoint text e)
    (slash : EndsInSlash text) :
    ∃ secret r, getRequest? headers (text ++ name) = some (secret, r) ∧
      (r.Names e name ↔ IsPlainName name) := by
  have straight : '\\' ∉ name.toList := valid.not_mem (by decide)
  have whole : encode name = bytes name.toList := encode_eq name
  obtain ⟨done, path, requests⟩ := place.getRequest?_eq headers slash
  have request := requests name.toList valid.solid (valid.not_mem (by decide))
  rw [String.ofList_toList] at request
  refine ⟨_, _, request, fun named => ?_, fun ⟨hash, free⟩ => ?_⟩
  · have bare : '\\' ∉ name.toList.takeWhile (· != '#') := fun member =>
      straight ((List.takeWhile_sublist _).mem member)
    have enough := place.names_length path bare named
    have hash : '#' ∉ name.toList := by
      intro member
      have shorter := length_bytes_takeWhile (p := (· != '#')) member (by decide)
      have loss := (Reads.total (name.toList.takeWhile (· != '#'))).length.1
      rw [whole] at enough
      omega
    rw [takeWhile_missing hash, whole] at enough
    refine ⟨hash, Bool.eq_false_iff.mpr fun escape => ?_⟩
    have shorter := (Reads.total name.toList).length.2 escape
    omega
  · rw [takeWhile_missing hash]
    refine place.names path straight (valid.part_plain free) ?_
    rw [percentDecode_eq_self.mpr free, whole]

end IsBranchName

/-- The request for a branch that a client of GitLab makes. -/
def labRequest? (c : Gitlab.Client) (name : String) : Option (Bool × Request) :=
  getRequest? c.headers (c.url s!"/repository/branches/{urlComponent name}")

/-- The request for a branch that a client of GitHub makes. -/
def hubRequest? (c : Github.Client) (name : String) : Option (Bool × Request) :=
  getRequest? c.headers (c.repoUrl s!"/branches/{name}")

theorem labUrl_endsInSlash (c : Gitlab.Client) : EndsInSlash (c.url "/repository/branches/") :=
  endsInSlash_append c.projectUrl "/repository/branches".toList

theorem hubUrl_endsInSlash (c : Github.Client) : EndsInSlash (c.repoUrl "/branches/") :=
  endsInSlash_append (c.apiUrl ++ "/repos/" ++ c.repository) "/branches".toList

/-- Every request of GitLab's clients for a branch names it, and those of GitHub's clients name it exactly
if the name has neither a hash nor an escape in it. These requests are all that is sent. So no two
branches lead to the same request on GitLab's clients, and on GitHub's no two with such names. -/
theorem branch_requests {lab : Gitlab.Client} {hub : Github.Client} {e f : Url}
    (project : Endpoint (lab.url "/repository/branches/") e)
    (repository : Endpoint (hub.repoUrl "/branches/") f) :
    (∀ name, IsBranchName name → ∃ secret r, labRequest? lab name = some (secret, r) ∧
      r.Names e name ∧ ∀ now p, (lab.answer now (.getBranch name) p).2 = (p.deliver secret r).2) ∧
    (∀ name, IsBranchName name → ∃ secret r, hubRequest? hub name = some (secret, r) ∧
      (r.Names f name ↔ IsPlainName name) ∧
      ∀ now p, (hub.answer now (.getBranch name) p).2 = (p.deliver secret r).2) ∧
    (∀ m n, IsBranchName m → IsBranchName n → labRequest? lab m = labRequest? lab n → m = n) ∧
    ∀ m n, IsBranchName m → IsBranchName n → IsPlainName m → IsPlainName n →
      hubRequest? hub m = hubRequest? hub n → m = n := by
  have labText (name : String) : lab.url s!"/repository/branches/{urlComponent name}" =
      lab.url "/repository/branches/" ++ urlComponent name := (String.append_assoc ..).symm
  have hubText (name : String) :
      hub.repoUrl s!"/branches/{name}" = hub.repoUrl "/branches/" ++ name :=
    (String.append_assoc ..).symm
  have labNames (name : String) (valid : IsBranchName name) :
      ∃ secret r, labRequest? lab name = some (secret, r) ∧ r.Names e name := by
    rw [labRequest?, labText]
    exact project.encoded lab.headers (labUrl_endsInSlash lab) valid.ne_dots.1 valid.ne_dots.2
  have hubNames (name : String) (valid : IsBranchName name) : ∃ secret r,
      hubRequest? hub name = some (secret, r) ∧ (r.Names f name ↔ IsPlainName name) := by
    rw [hubRequest?, hubText]
    exact valid.pasted hub.headers repository (hubUrl_endsInSlash hub)
  refine ⟨fun name valid => ?_, fun name valid => ?_, ?_, ?_⟩
  · obtain ⟨secret, r, requested, names⟩ := labNames name valid
    exact ⟨secret, r, requested, names, fun now p => getJson_sends requested⟩
  · obtain ⟨secret, r, requested, names⟩ := hubNames name valid
    exact ⟨secret, r, requested, names, fun now p => getJson_sends requested⟩
  · intro m n first second same
    obtain ⟨secret, r, requested, names⟩ := labNames m first
    obtain ⟨secret', r', requested', names'⟩ := labNames n second
    rw [requested, requested'] at same
    cases same
    exact names.unique names'
  · intro m n first second plain plain' same
    obtain ⟨secret, r, requested, names⟩ := hubNames m first
    obtain ⟨secret', r', requested', names'⟩ := hubNames n second
    rw [requested, requested'] at same
    cases same
    exact (names.mpr plain).unique (names'.mpr plain')

/-- A client of GitLab. -/
def someLab : Gitlab.Client where
  headers := []
  projectUrl := "http://gl.test/api/v4/projects/group%2Fproj"
  repository := "group/proj"
  webhookSecret := none

/-- A client of GitHub. -/
def someHub : Github.Client where
  headers := []
  apiUrl := "http://gh.test"
  repository := "org/repo"
  webhookSecret := none

/-- Where the branches of the project are. -/
def labBranches : Url where
  scheme := "http".toList
  host := some "gl.test".toList
  path := .segments (["api", "v4", "projects", "group%2Fproj", "repository", "branches", ""].map
    String.toList)

/-- Where the branches of the repository are. -/
def hubBranches : Url where
  scheme := "http".toList
  host := some "gh.test".toList
  path := .segments (["repos", "org", "repo", "branches", ""].map String.toList)

theorem labBranches_endpoint : Endpoint (someLab.url "/repository/branches/") labBranches :=
  ⟨by decide +kernel, rfl, rfl⟩

theorem hubBranches_endpoint : Endpoint (someHub.repoUrl "/branches/") hubBranches :=
  ⟨by decide +kernel, rfl, rfl⟩

theorem branch_requests_odd :
    IsBranchName "feat/é#1" ∧ IsBranchName "feat/é%" ∧ IsPlainName "feat/é%" ∧
    (∃ secret r, labRequest? someLab "feat/é#1" = some (secret, r) ∧
      r.Names labBranches "feat/é#1") ∧
    ∃ secret r, hubRequest? someHub "feat/é%" = some (secret, r) ∧
      r.Names hubBranches "feat/é%" := by
  have hashed : IsBranchName "feat/é#1" := by
    constructor <;> decide +kernel
  have signed : IsBranchName "feat/é%" := by
    constructor <;> decide +kernel
  have plain : IsPlainName "feat/é%" := by
    constructor <;> decide +kernel
  obtain ⟨inLab, inHub, -⟩ := branch_requests labBranches_endpoint hubBranches_endpoint
  obtain ⟨secret, r, requested, names, -⟩ := inLab _ hashed
  obtain ⟨secret', r', requested', names', -⟩ := inHub _ signed
  exact ⟨hashed, signed, plain, ⟨secret, r, requested, names⟩, secret', r', requested',
    names'.mpr plain⟩

/-- Behind a hash a name is lost on GitHub's clients: two branches lead to one request. -/
theorem branch_unnamed :
    IsBranchName "a#b" ∧ IsBranchName "a" ∧ hubRequest? someHub "a#b" = hubRequest? someHub "a" ∧
    ∃ secret r, hubRequest? someHub "a#b" = some (secret, r) ∧ ¬ r.Names hubBranches "a#b" := by
  have hashed : IsBranchName "a#b" := by
    constructor <;> decide +kernel
  have short : IsBranchName "a" := by
    constructor <;> decide +kernel
  have cut := hubBranches_endpoint.hash someHub.headers (hubUrl_endsInSlash someHub)
    ['a'] ['b'] hashed.solid (by decide)
  obtain ⟨secret, r, requested, names⟩ := hashed.pasted someHub.headers hubBranches_endpoint
    (hubUrl_endsInSlash someHub)
  refine ⟨hashed, short, cut, secret, r, requested, fun named => ?_⟩
  exact (names.mp named).1 (by decide)

end Gatehouse.Git
