import Gatehouse.Gitlab.Client
import Gatehouse.Proofs.Http.Home
import Gatehouse.Proofs.Text.Integers
import Gatehouse.Proofs.Text.Occurrences

/-!
# Requests on the API

A client of GitLab makes its URLs from that of its project, except for users, who are in no project. For
these it cuts the project's URL at the first `/projects/`. That is the one behind the API exactly if there
is none in the URL of the server (`userUrl_eq`, `userUrl_astray`). All other operations keep to the project
and so to the API (`answer_keeps`). Only a reference that climbs and the links in a listing could lead out
of it (`requests_stay_on_api`).
-/

namespace Gatehouse.Gitlab

open Git Http Text

variable {c : Client} {now : Int} {q : Query} {url repository : String}
  {apiUrl token secret : Option String} {s : List Char}

/-- The text that all URLs of the API start with. -/
def apiBase (apiUrl : Option String) : String :=
  withoutLastSlashes (apiUrl.getD publicService) ++ "/api/v4/"

/-- The URL is one of the API. -/
def OnApi (apiUrl : Option String) (url : String) : Prop := (apiBase apiUrl).toList <+: url.toList

/-- Some part of the server's URL is `projects`. -/
def HasProjects (apiUrl : Option String) : Prop :=
  "/projects/".toList <:+: (withoutLastSlashes (apiUrl.getD publicService)).toList ++ ['/']

/-- Where a client asks for a user. -/
def Client.userUrl (c : Client) (name : String) : String :=
  c.apiRoot ++ "/users?username=" ++ urlComponent name

theorem projectUrl_connect (connected : Client.connect repository apiUrl token secret = .ok c) :
    c.projectUrl = apiBase apiUrl ++ "projects/" ++ urlComponent repository := by
  unfold Client.connect at connected
  split at connected
  · cases connected
  · cases given : clientHeaders "application/json" token with
    | error e =>
      rw [given] at connected
      cases connected
    | ok headers =>
      rw [given] at connected
      obtain rfl := Except.ok.inj connected
      have parts : "/api/v4/projects/" = "/api/v4/" ++ "projects/" := rfl
      rw [parts, ← String.append_assoc, apiBase]

theorem connect_open {projectUrl : String} (named : repository ≠ "")
    (url : withoutLastSlashes (apiUrl.getD publicService) ++ "/api/v4/projects/" ++
      urlComponent repository = projectUrl) :
    Client.connect repository apiUrl none none =
      .ok { headers := [("accept", encode "application/json")], projectUrl, repository
            webhookSecret := none } := by
  rw [Client.connect, if_neg named, ← url]
  rfl

theorem endsInSlash_apiBase (apiUrl : Option String) : EndsInSlash (apiBase apiUrl) :=
  endsInSlash_append _ "/api/v4".toList

theorem onApi_append (apiUrl : Option String) (more : String) :
    OnApi apiUrl (apiBase apiUrl ++ more) := by
  rw [OnApi, String.toList_append]
  exact List.prefix_append _ _

/-! The root of the API. -/

/-- The parts of the API do not make a part `projects`. -/
theorem infix_api (s : List Char) :
    "/projects/".toList <:+: s ++ "/api/v4/projects".toList ↔
      "/projects/".toList <:+: s ++ ['/'] := by
  -- Read from the end, the mark starts nowhere in what is behind the first slash.
  have turned (t : List Char) : "/projects/".toList <:+: s ++ t ↔
      "/projects/".toList.reverse <:+: t.reverse ++ s.reverse := by
    rw [← List.reverse_append, List.reverse_infix]
  rw [turned, turned]
  simp [List.infix_cons_iff]

theorem apiRoot_eq (connected : Client.connect repository apiUrl token secret = .ok c)
    (clean : ¬ HasProjects apiUrl) : c.apiRoot ++ "/" = apiBase apiUrl := by
  let base := (withoutLastSlashes (apiUrl.getD publicService)).toList
  have url : c.projectUrl.toList = base ++ "/api/v4".toList ++ "/projects/".toList ++
      (urlComponent repository).toList := by
    simp [projectUrl_connect connected, apiBase, base]
  have alone : ¬ "/projects/".toList <:+: base ++ "/api/v4".toList ++ "/projects".toList := by
    rw [List.append_assoc]
    exact mt (infix_api base).mp clean
  rw [Client.apiRoot, url, cut_first alone]
  simp [apiBase, base, ← String.toList_inj]

/-- Without such a part in the server's URL, the URL of a user is on the API. -/
theorem userUrl_eq (connected : Client.connect repository apiUrl token secret = .ok c)
    (clean : ¬ HasProjects apiUrl) (name : String) :
    c.userUrl name = apiBase apiUrl ++ "users?username=" ++ urlComponent name := by
  have parts : "/users?username=" = "/" ++ "users?username=" := rfl
  rw [Client.userUrl, parts, ← String.append_assoc, apiRoot_eq connected clean]

/-- With such a part the root ends before it, and no URL of a user is on the API. -/
theorem userUrl_astray (connected : Client.connect repository apiUrl token secret = .ok c)
    (projects : HasProjects apiUrl) (name : String) : ¬ OnApi apiUrl (c.userUrl name) := by
  obtain ⟨before, rest, base, cuts⟩ := cut_found projects
  have url : c.projectUrl.toList =
      (withoutLastSlashes (apiUrl.getD publicService)).toList ++ ['/'] ++
        ("api/v4/projects/".toList ++ (urlComponent repository).toList) := by
    simp [projectUrl_connect connected, apiBase]
  have api : (apiBase apiUrl).toList =
      before ++ ("/projects/".toList ++ (rest ++ "api/v4/".toList)) := by
    rw [← List.append_assoc, ← List.append_assoc, ← base]
    simp [apiBase]
  have user : (c.userUrl name).toList =
      before ++ ("/users?username=".toList ++ (urlComponent name).toList) := by
    rw [Client.userUrl, Client.apiRoot, url, cuts]
    simp
  rw [OnApi, api, user, List.prefix_append_right_inj]
  -- Projects and users differ in their first letter.
  simp

/-! Places in the project. -/

/-- The operation lists something, page by page. -/
def isListing : Query → Bool
  | .listWebhooks => true
  | .listCommitStatuses _ => true
  | .listComments _ => true
  | .listPullRequests _ => true
  | .listPullRequestCommits _ => true
  | _ => false

/-- What an operation puts into its path as it is. -/
def pasted? : Query → Option String
  | .listCommitStatuses ref => some ref
  | .setCommitStatus sha _ => some sha
  | _ => none

/-- What the operation puts into its path as it is may stand there: it does not climb. -/
def Climbless (q : Query) : Prop := ∀ ref, pasted? q = some ref → IsLevel 0 ref.toList

/-- The URL is that of something in the project, and it does not climb if the operation does not. -/
def InProject (c : Client) (q : Query) (url : String) : Prop :=
  ∃ rest, url = c.url (String.ofList ('/' :: rest)) ∧ (Climbless q → IsLevel 0 rest)

/-- The character belongs neither to a blank nor to a dot nor to an escape. -/
def isInert (d : Char) : Bool := 0x20 < d.toNat && d != '.' && d != '%'

/-- The path has such characters only. -/
def isInertPath (path : String) : Bool := path.toList.head? == some '/' && path.toList.all isInert

theorem isInertPath_append {path more : String} (front : isInertPath path = true)
    (inert : more.toList.all isInert = true) : isInertPath (path ++ more) = true := by
  simp only [isInertPath, Bool.and_eq_true, beq_iff_eq] at front ⊢
  rw [String.toList_append, List.head?_append, front.1, List.all_append, front.2, inert]
  exact ⟨rfl, rfl⟩

theorem inert_toString (n : Int) : (toString n).toList.all isInert = true := by
  refine List.all_eq_true.mpr fun d member => ?_
  rcases mem_toString member with rfl | digit
  · rfl
  · have low : d.toNat < 58 := Nat.lt_succ_of_le (range_of_isDigit digit).2
    exact forall_char_lt (P := fun d => d.isDigit = true → isInert d = true) (by decide) d low digit

theorem isInertPath_mergeRequest (id : Int) : isInertPath s!"/merge_requests/{id}" = true :=
  isInertPath_append (by decide) (inert_toString id)

theorem isInertPath_issuePath (type : IssueType) (id : Int) :
    isInertPath (Client.issuePath type id) = true := by
  cases type with
  | pullRequest => exact isInertPath_mergeRequest id
  | issue => exact isInertPath_append (by decide) (inert_toString id)

theorem isLevel_inert (inert : s.all isInert = true) : IsLevel 0 s := by
  have each : ∀ d ∈ s, 0x20 < d.toNat ∧ d ≠ '.' ∧ d ≠ '%' := by
    simpa [isInert, and_assoc] using inert
  refine ⟨fun d member => (each d member).1, Url.level_plain (fun dot => ?_) (fun sign => ?_) 0⟩
  · exact (each _ dot).2.1 rfl
  · exact (each _ sign).2.2 rfl

theorem inProject_inert {path : String} (inert : isInertPath path = true) :
    InProject c q (c.url path) := by
  simp only [isInertPath, Bool.and_eq_true, beq_iff_eq] at inert
  obtain ⟨front, inert⟩ := inert
  obtain ⟨rest, text⟩ := List.head?_eq_some_iff.mp front
  rw [text, List.all_cons, Bool.and_eq_true] at inert
  exact ⟨rest, by rw [← text, String.ofList_toList], fun _ => isLevel_inert inert.2⟩

theorem isPart_encoded (s : List Char) : Url.IsPart (percentEncode isUnreserved s) :=
  fun d member => (mem_encoded d member).2

/-- A name that was encoded is one segment, and takes back one at most. -/
theorem inProject_branch (name : String) :
    InProject c q (c.url s!"/repository/branches/{urlComponent name}") := by
  have text : s!"/repository/branches/{urlComponent name}" = String.ofList ('/' ::
      ("repository".toList ++ '/' :: ("branches".toList ++ '/' ::
        percentEncode isUnreserved name.toList))) :=
    String.ofList_append.symm
  have encoded : IsLevel 2 (percentEncode isUnreserved name.toList) :=
    ⟨solid_encoded name.toList, Url.level_part (isPart_encoded name.toList) 1⟩
  exact ⟨_, congrArg c.url text, fun _ => (encoded.behind (by decide)).behind (by decide)⟩

theorem inProject_statuses (ref : String) :
    InProject c (.listCommitStatuses ref) (c.url s!"/repository/commits/{ref}/statuses") := by
  have text : s!"/repository/commits/{ref}/statuses" = String.ofList ('/' ::
      ("repository".toList ++ '/' :: ("commits".toList ++ '/' :: (ref.toList ++ '/' ::
        "statuses".toList)))) := by
    simp [← String.toList_inj, toString]
  refine ⟨_, congrArg c.url text, fun climbless => ?_⟩
  obtain ⟨solid, level⟩ := (climbless ref rfl).mono (Nat.zero_le 2)
  have more : IsLevel 0 ('/' :: "statuses".toList) := isLevel_inert (by decide)
  have behind : IsLevel 2 (ref.toList ++ '/' :: "statuses".toList) :=
    ⟨List.forall_mem_append.mpr ⟨solid, more.solid⟩, level.append (by decide) (by decide)⟩
  exact (behind.behind (by decide)).behind (by decide)

theorem inProject_status (sha : String) (status : CommitStatus) :
    InProject c (.setCommitStatus sha status) (c.url s!"/statuses/{sha}") := by
  have text : s!"/statuses/{sha}" =
      String.ofList ('/' :: ("statuses".toList ++ '/' :: sha.toList)) := by
    simp [← String.toList_inj, toString]
  refine ⟨_, congrArg c.url text, fun climbless => ?_⟩
  exact ((climbless sha rfl).mono (Nat.zero_le 1)).behind (by decide)

theorem onApi_inProject (connected : Client.connect repository apiUrl token secret = .ok c)
    (there : InProject c q url) : OnApi apiUrl url := by
  obtain ⟨rest, rfl, -⟩ := there
  rw [Client.url, projectUrl_connect connected, String.append_assoc, String.append_assoc]
  exact onApi_append apiUrl _

/-- The name of the project could be dots, and take back the part `projects`, but nothing of the API. -/
theorem behind_inProject (connected : Client.connect repository apiUrl token secret = .ok c)
    (climbless : Climbless q) (there : InProject c q url) : Behind (apiBase apiUrl) url := by
  obtain ⟨rest, rfl, level⟩ := there
  obtain ⟨solid, level⟩ := level climbless
  have encoded : IsLevel 1 (percentEncode isUnreserved repository.toList ++ '/' :: rest) := by
    refine ⟨?_, level.any (isPart_encoded repository.toList)⟩
    exact List.forall_mem_append.mpr
      ⟨solid_encoded repository.toList, List.forall_mem_cons.mpr ⟨by decide, solid⟩⟩
  refine ⟨"projects".toList ++ '/' :: (percentEncode isUnreserved repository.toList ++ '/' :: rest),
    ?_, encoded.behind (by decide)⟩
  simp [Client.url, projectUrl_connect connected, urlComponent, ← String.toList_inj]

/-! Operations. -/

section Kept

variable {asked listed : String → Prop} {path : String}

theorem post_keeps (method : Method) (body : Option Json) (there : asked (c.url path)) :
    KeepsTo c.headers now asked listed (c.post now method path body) :=
  .andThen (.request there) fun _ => .silent (.ok ())

theorem mergeRequest_keeps {id : Int} (there : asked (c.url s!"/merge_requests/{id}")) :
    KeepsTo c.headers now asked listed (c.mergeRequest now id) :=
  .document there

end Kept

/-- Every operation but the one that looks for a user keeps to the project. -/
theorem answer_keeps (c : Client) (now : Int) (q : Query) (other : ∀ name, q ≠ .getUserInfo name) :
    KeepsTo c.headers now (InProject c q) (fun url => isListing q = true ∧ InProject c q url)
      (c.answer now q) := by
  have merge (id : Int) := isInertPath_mergeRequest id
  have issue (type : IssueType) (id : Int) := isInertPath_issuePath type id
  cases q with
  | listWebhooks => exact .listing ⟨rfl, inProject_inert (by decide)⟩
  | registerWebhook url => exact post_keeps _ _ (inProject_inert (by decide))
  | deleteWebhook id =>
    exact post_keeps _ _ (inProject_inert (isInertPath_append (by decide) (inert_toString id)))
  | listCommitStatuses ref => exact .listing ⟨rfl, inProject_statuses ref⟩
  | setCommitStatus sha status => exact post_keeps _ _ (inProject_status sha status)
  | getUserInfo name => exact absurd rfl (other name)
  | canUserWrite user =>
    have member : isInertPath s!"/members/all/{user.id}" = true :=
      isInertPath_append (by decide) (inert_toString user.id)
    refine .andThen (.attempt (.document (inProject_inert member))) fun looked => ?_
    cases looked with
    | ok level => exact .silent (.ok _)
    | error e =>
      dsimp only
      split
      · exact .silent (.ok false)
      · exact .silent (.error e)
  | registerComment type id body =>
    exact post_keeps _ _ (inProject_inert (isInertPath_append (issue type id) (by decide)))
  | listComments id =>
    refine .andThen (.listing ⟨rfl, inProject_inert ?_⟩) fun notes => .silent (.ok _)
    exact isInertPath_append (merge id) (by decide)
  | listPullRequests onlyOpen =>
    cases onlyOpen <;> exact .listing ⟨rfl, inProject_inert (by decide)⟩
  | getPullRequest id => exact mergeRequest_keeps (inProject_inert (merge id))
  | mergePullRequest id sha method message =>
    have there : InProject c (.mergePullRequest id sha method message)
        (c.url s!"/merge_requests/{id}/merge") :=
      inProject_inert (isInertPath_append (merge id) (by decide))
    dsimp only [Client.answer]
    split
    · refine .andThen ((mergeRequest_keeps (inProject_inert (merge id))).map _) fun text => ?_
      exact post_keeps _ _ there
    · exact .andThen (.silent (.ok message)) fun text => post_keeps _ _ there
  | getPullRequestDiff id =>
    refine .andThen (.document (inProject_inert ?_)) fun changes => .silent (.ok _)
    exact isInertPath_append (merge id) (by decide)
  | listPullRequestCommits id =>
    exact .listing ⟨rfl, inProject_inert (isInertPath_append (merge id) (by decide))⟩
  | listLabels id =>
    exact .andThen (mergeRequest_keeps (inProject_inert (merge id))) fun pr => .silent (.ok _)
  | setLabel type id label => exact post_keeps _ _ (inProject_inert (issue type id))
  | deleteLabel type id label => exact post_keeps _ _ (inProject_inert (issue type id))
  | getBranch name => exact .document (inProject_branch name)

/-- Looking for a user asks for the user once, whatever comes of it. -/
theorem getUserInfo_peer (c : Client) (now : Int) (name : String) (p : Peer) :
    (c.answer now (.getUserInfo name) p).2 =
      (send c.headers now .get (c.userUrl name) none p).2 := by
  have asked : (getJson c.headers now (Json.list? readUser) (c.userUrl name) p).2 =
      (send c.headers now .get (c.userUrl name) none p).2 := getJson_peer
  rw [← asked]
  refine (congrArg Prod.snd (run_andThen _ _ p)).trans ?_
  unfold Client.userUrl
  cases getJson c.headers now (Json.list? readUser)
    (c.apiRoot ++ "/users?username=" ++ urlComponent name) p with
  | mk outcome left =>
    cases outcome with
    | error e => rfl
    | ok users => cases users <;> rfl

/-- The request for a user is for exactly its URL on the API. -/
theorem user_request (connected : Client.connect repository apiUrl token secret = .ok c)
    (clean : ¬ HasProjects apiUrl) {e : Url} (home : Home (apiBase apiUrl) e) {name : String}
    {r : Request} (goes : r.GoesTo c.headers (c.userUrl name)) :
    r.url = apiBase apiUrl ++ "users?username=" ++ urlComponent name := by
  have text : apiBase apiUrl ++ "users?username=" ++ urlComponent name = apiBase apiUrl ++
      String.ofList ("users".toList ++ '?' :: ("username=".toList ++
        percentEncode isUnreserved name.toList)) := by
    simp [urlComponent, ← String.toList_inj]
  have query : ∀ d ∈ "username=".toList ++ percentEncode isUnreserved name.toList,
      Url.keepInQuery true d = true :=
    List.forall_mem_append.mpr
      ⟨List.all_eq_true.mp (by decide), fun d member => (mem_encoded d member).1⟩
  rw [userUrl_eq connected clean, text] at goes
  rw [text]
  exact home.unencoded (endsInSlash_apiBase apiUrl) (by decide) (List.all_eq_true.mp (by decide))
    query goes

/-- A client asks for a user at one URL. If no part of the server's URL is `projects`, it is that of the
user on the API, and otherwise it is not on the API at all. All other operations ask at URLs on the API.
Where the URL of the API is written as it is sent, the requests are for these URLs too: that for a user for
exactly its URL, and the others for what is on the API, unless a link in a listing led elsewhere or a
reference climbs. -/
theorem requests_stay_on_api (connected : Client.connect repository apiUrl token secret = .ok c)
    (now : Int) :
    (∀ name,
      (∀ p, (c.answer now (.getUserInfo name) p).2 =
        (send c.headers now .get (c.userUrl name) none p).2) ∧
      (c.userUrl name = apiBase apiUrl ++ "users?username=" ++ urlComponent name ↔
        ¬ HasProjects apiUrl) ∧
      (OnApi apiUrl (c.userUrl name) ↔ ¬ HasProjects apiUrl) ∧
      ∀ e, Home (apiBase apiUrl) e → ¬ HasProjects apiUrl → ∀ p,
        Passage (·.url = apiBase apiUrl ++ "users?username=" ++ urlComponent name) p
          (c.answer now (.getUserInfo name) p).2) ∧
    ∀ q, (∀ name, q ≠ .getUserInfo name) → ∀ p,
      Passage (·.Arises c.headers (OnApi apiUrl) (fun url => isListing q = true ∧ OnApi apiUrl url)
        p.script) p (c.answer now q p).2 ∧
      ∀ e, Home (apiBase apiUrl) e → Climbless q →
        Passage (fun r => OnApi apiUrl r.url ∨ isListing q = true ∧ r.Follows c.headers p.script) p
          (c.answer now q p).2 := by
  refine ⟨fun name => ⟨getUserInfo_peer c now name, ⟨fun same projects => ?_, fun clean => ?_⟩,
    ⟨fun there projects => ?_, fun clean => ?_⟩, fun e home clean p => ?_⟩, fun q other p => ?_⟩
  · refine userUrl_astray connected projects name ?_
    rw [same, String.append_assoc]
    exact onApi_append apiUrl _
  · exact userUrl_eq connected clean name
  · exact userUrl_astray connected projects name there
  · rw [userUrl_eq connected clean, String.append_assoc]
    exact onApi_append apiUrl _
  · rw [getUserInfo_peer]
    exact (send_passage ..).imp fun r goes => user_request connected clean home goes
  · have keeps := answer_keeps c now q other
    refine ⟨(keeps.passage p).imp fun r arises => ?_, fun e home climbless => ?_⟩
    · exact arises.imp (fun url there => onApi_inProject connected there)
        fun url there => ⟨there.1, onApi_inProject connected there.2⟩
    · refine (keeps.atHome home (endsInSlash_apiBase apiUrl) (fun url there => ?_) p).imp
        fun r place => place.imp_right fun ⟨⟨url, listing, _⟩, follows⟩ => ⟨listing, follows⟩
      exact behind_inProject connected climbless (there.elim id And.right)

/-- A project of a server whose root is not that of its host. -/
def subfolder : Client where
  headers := [("accept", encode "application/json")]
  projectUrl := "https://gl.test/gitlab/api/v4/projects/.."
  repository := ".."
  webhookSecret := none

/-- Where the API of that server is. -/
def subfolderApi : Url where
  scheme := "https".toList
  host := some "gl.test".toList
  path := .segments (["gitlab", "api", "v4", ""].map String.toList)

theorem requests_stay_on_api_subfolder :
    Client.connect ".." (some "https://gl.test/gitlab//") none none = .ok subfolder ∧
    ¬ HasProjects (some "https://gl.test/gitlab//") ∧
    Home (apiBase (some "https://gl.test/gitlab//")) subfolderApi ∧
    Climbless (.listCommitStatuses "main") ∧
    subfolder.userUrl "böb" = "https://gl.test/gitlab/api/v4/users?username=b%C3%B6b" ∧
    (∀ p, Passage (·.url = "https://gl.test/gitlab/api/v4/users?username=b%C3%B6b") p
      (subfolder.answer 0 (.getUserInfo "böb") p).2) ∧
    ∀ p, Passage (fun r => OnApi (some "https://gl.test/gitlab//") r.url ∨
        r.Follows subfolder.headers p.script) p
      (subfolder.answer 0 (.listCommitStatuses "main") p).2 := by
  have connected : Client.connect ".." (some "https://gl.test/gitlab//") none none =
      .ok subfolder :=
    connect_open (by decide) (by decide +kernel)
  have clean : ¬ HasProjects (some "https://gl.test/gitlab//") := by
    unfold HasProjects
    decide +kernel
  have home : Home (apiBase (some "https://gl.test/gitlab//")) subfolderApi := by
    constructor
    · constructor <;> decide +kernel
    · decide +kernel
    · decide +kernel
  have climbless : Climbless (.listCommitStatuses "main") := by
    rintro _ ⟨⟩
    exact isLevel_inert (by decide)
  have text : apiBase (some "https://gl.test/gitlab//") ++ "users?username=" ++ urlComponent "böb" =
      "https://gl.test/gitlab/api/v4/users?username=b%C3%B6b" := by
    decide +kernel
  obtain ⟨users, others⟩ := requests_stay_on_api connected 0
  obtain ⟨-, url, -, exactly⟩ := users "böb"
  refine ⟨connected, clean, home, climbless, text ▸ url.mpr clean,
    text ▸ exactly subfolderApi home clean, fun p => ?_⟩
  have listed := (others (.listCommitStatuses "main") nofun p).2 subfolderApi home climbless
  exact listed.imp fun r place => place.imp_right And.right

/-- A reference that climbs is followed out of the API. -/
example :
    (subfolder.answer 0 (.setCommitStatus "../../../../x" ⟨"ci", .success, "", none⟩) {}).2.sent.map
      (·.url) = ["https://gl.test/x"] := by
  decide +kernel

/-- If a part of the server's URL is `projects`, users are asked for somewhere else. -/
theorem user_asked_astray :
    ∃ c, Client.connect "org/repo" (some "http://gl.test/projects/x") none none = .ok c ∧
      (c.answer 0 (.getUserInfo "bob") {}).2.sent.map (·.url) =
        ["http://gl.test/users?username=bob"] ∧
      ¬ OnApi (some "http://gl.test/projects/x") "http://gl.test/users?username=bob" := by
  refine ⟨_, connect_open (by decide) rfl, by decide +kernel, ?_⟩
  unfold OnApi
  decide +kernel

end Gatehouse.Gitlab
