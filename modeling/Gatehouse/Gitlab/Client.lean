import Gatehouse.Git.Query
import Gatehouse.Gitlab.Event
import Gatehouse.Http.Peer

/-!
# GitLab clients

The operations of a git provider as requests to GitLab's REST interface.
-/

namespace Gatehouse.Gitlab

open Git Http

/-- A client bound to one project. -/
structure Client where
  headers : Headers
  /-- The base of all URLs that belong to the project. -/
  projectUrl : String
  /-- The full path of the project. -/
  repository : String
  webhookSecret : Option String

/-- The public service. -/
def publicService : String := "https://gitlab.com"

/-- A client for a project; without a URL it talks to the public service. -/
def Client.connect (repository : String) (apiUrl token webhookSecret : Option String) :
    Except Git.Error Client :=
  if repository = "" then .error (.notInitialized "repository is empty")
  else do
    let headers ← clientHeaders "application/json" token
    return { headers, repository, webhookSecret
             projectUrl := withoutLastSlashes (apiUrl.getD publicService) ++ "/api/v4/projects/" ++
               Text.urlComponent repository }

/-- The least access level that may push: developer. -/
def developerAccess : Nat := 30

namespace Client

/-- The URL of something in the project. -/
def url (c : Client) (path : String) : String := c.projectUrl ++ path

/-- The base of the URLs outside the project. -/
def apiRoot (c : Client) : String :=
  match Text.cut "/projects/".toList c.projectUrl.toList with
  | some (root, _) => String.ofList root
  | none => c.projectUrl

/-- The path of a merge request or issue. -/
def issuePath (issueType : IssueType) (id : Int) : String :=
  match issueType with
  | .pullRequest => s!"/merge_requests/{id}"
  | .issue => s!"/issues/{id}"

/-- Send a request with a body or none, and pass over the answer. -/
def post (c : Client) (now : Int) (method : Method) (path : String) (body : Option Json) :
    Call Unit := do
  let _ ← send c.headers now method (c.url path) body

/-- A merge request. -/
def mergeRequest (c : Client) (now : Int) (id : Int) : Call PullRequest :=
  getJson c.headers now readMergeRequest (c.url s!"/merge_requests/{id}")

/-- The body that registers a webhook. -/
def hookBody (c : Client) (url : String) : Json :=
  .obj ([("url", .str url), ("push_events", .bool true), ("merge_requests_events", .bool true),
    ("note_events", .bool true), ("enable_ssl_verification", .bool false)] ++
    Json.member? "token" Json.str c.webhookSecret)

/-- The body that sets a status check. -/
def statusBody (status : CommitStatus) : Json :=
  .obj ([("state", .str (checkStateName status.state)), ("name", .str status.context),
    ("description", .str status.description)] ++ Json.member? "target_url" Json.str status.targetUrl)

/-- The body that merges. -/
def mergeBody (sha : String) (method : MergeMethod) (message : String) : Json :=
  let squash := method = .squash
  .obj ([("sha", .str sha), ("squash", .bool squash), ("merge_commit_message", .str message)] ++
    (if squash then [("squash_commit_message", .str message)] else []))

/-- Answer an operation. -/
def answer (c : Client) (now : Int) : (q : Query) → Call q.Answer
  | .listWebhooks => getAll c.headers now readHook (c.url "/hooks")
  | .registerWebhook url => c.post now .post "/hooks" (some (c.hookBody url))
  | .deleteWebhook id => c.post now .delete s!"/hooks/{id}" none
  | .listCommitStatuses ref =>
    getAll c.headers now readStatus (c.url s!"/repository/commits/{ref}/statuses")
  | .setCommitStatus sha status => c.post now .post s!"/statuses/{sha}" (some (statusBody status))
  | .getUserInfo name => do
    let users ← getJson c.headers now (Json.list? readUser)
      (c.apiRoot ++ "/users?username=" ++ Text.urlComponent name)
    match users with
    | user :: _ => return user
    | [] => throw (.notFound s!"user {name}")
  | .canUserWrite user => do
    match ← attempt (getJson c.headers now readAccessLevel (c.url s!"/members/all/{user.id}")) with
    | .ok level => return developerAccess ≤ level
    | .error e => if e.isNotFound then return false else throw e
  | .registerComment issueType id body =>
    c.post now .post (issuePath issueType id ++ "/notes") (some (.obj [("body", .str body)]))
  | .listComments id => do
    let notes ← getAll c.headers now readNote (c.url s!"/merge_requests/{id}/notes?sort=desc")
    return newestFirst (notes.filterMap Note.toComment?)
  | .listPullRequests onlyOpen =>
    let state := if onlyOpen then "opened" else "all"
    getAll c.headers now readMergeRequest (c.url s!"/merge_requests?state={state}")
  | .getPullRequest id => c.mergeRequest now id
  | .mergePullRequest id sha method message => do
    let message ← if message = "" then defaultMergeMessage <$> c.mergeRequest now id
      else pure message
    c.post now .put s!"/merge_requests/{id}/merge" (some (mergeBody sha method message))
  | .getPullRequestDiff id => do
    let changes ← getJson c.headers now readChanges (c.url s!"/merge_requests/{id}/changes")
    return { changes := changes.map FileDiff.toChange }
  | .listPullRequestCommits id =>
    getAll c.headers now readCommit (c.url s!"/merge_requests/{id}/commits")
  | .listLabels id => do return (← c.mergeRequest now id).labels
  | .setLabel issueType id label =>
    c.post now .put (issuePath issueType id) (some (.obj [("add_labels", .str label)]))
  | .deleteLabel issueType id label =>
    c.post now .put (issuePath issueType id) (some (.obj [("remove_labels", .str label)]))
  | .getBranch name =>
    getJson c.headers now readBranch (c.url s!"/repository/branches/{Text.urlComponent name}")

end Client

end Gatehouse.Gitlab
