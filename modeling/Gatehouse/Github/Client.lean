import Gatehouse.Git.Query
import Gatehouse.Github.Event
import Gatehouse.Http.Peer

/-!
# GitHub clients

The operations of a git provider as requests to GitHub's REST interface.
-/

namespace Gatehouse.Github

open Git Http

/-- A client bound to one repository. -/
structure Client where
  headers : Headers
  /-- The base of all URLs, without slashes at its end. -/
  apiUrl : String
  /-- Owner and name with a slash between them. -/
  repository : String
  webhookSecret : Option String

/-- The public interface. -/
def publicApi : String := "https://api.github.com"

/-- A client for a repository; without a URL it talks to the public interface. -/
def Client.connect (repository : String) (apiUrl token webhookSecret : Option String) :
    Except Git.Error Client :=
  if repository = "" then .error (.notInitialized "repository is empty")
  else do
    let headers ← clientHeaders "application/vnd.github+json" token
    return { headers, repository, webhookSecret
             apiUrl := withoutLastSlashes (apiUrl.getD publicApi) }

/-- The kinds of event that a webhook subscribes to. -/
def webhookEvents : List String := ["push", "pull_request", "pull_request_review", "issue_comment"]

/-- What GitHub says when the label to delete is not on the issue. -/
def missingLabelMessage : String := "Label does not exist"

namespace Client

/-- The URL of something in the repository. -/
def repoUrl (c : Client) (path : String) : String :=
  c.apiUrl ++ "/repos/" ++ c.repository ++ path

/-- Send a request with a body or none, and pass over the answer. -/
def post (c : Client) (now : Int) (method : Method) (path : String) (body : Option Json) :
    Call Unit := do
  let _ ← send c.headers now method (c.repoUrl path) body

/-- The issue comments of an issue. -/
def issueComments (c : Client) (now : Int) (id : Int) : Call (List Comment) :=
  getAll c.headers now readComment (c.repoUrl s!"/issues/{id}/comments")

/-- The submitted reviews of a pull request. -/
def reviews (c : Client) (now : Int) (id : Int) : Call (List Comment) := do
  let rs ← getAll c.headers now readReview (c.repoUrl s!"/pulls/{id}/reviews")
  return rs.filterMap Review.toComment?

/-- A pull request. -/
def pullRequest (c : Client) (now : Int) (id : Int) : Call PullRequest :=
  getJson c.headers now readPullRequest (c.repoUrl s!"/pulls/{id}")

/-- The body that registers a webhook. -/
def hookBody (c : Client) (url : String) : Json :=
  let secret := Json.member? "secret" Json.str c.webhookSecret
  .obj [("name", .str "web"), ("active", .bool true), ("events", Json.list .str webhookEvents),
    ("config", .obj ([("url", .str url), ("content_type", .str "json"),
      ("insecure_ssl", .str "0")] ++ secret))]

/-- The body that sets a status check. -/
def statusBody (status : CommitStatus) : Json :=
  .obj ([("state", .str status.state.name), ("context", .str status.context),
    ("description", .str status.description)] ++ Json.member? "target_url" Json.str status.targetUrl)

/-- Delete a label. Only the answer that the label is not there passes for success. -/
def deleteLabel (c : Client) (now : Int) (id : Int) (label : String) : Call Unit := do
  match ← attempt (c.post now .delete s!"/issues/{id}/labels/{Text.urlComponent label}" none) with
  | .ok () => return ()
  | .error (.notFound message) =>
    if Text.contains missingLabelMessage.toList message.toList then return ()
    else throw (.notFound message)
  | .error e => throw e

/-- Answer an operation. -/
def answer (c : Client) (now : Int) : (q : Query) → Call q.Answer
  | .listWebhooks => getAll c.headers now readHook (c.repoUrl "/hooks")
  | .registerWebhook url => c.post now .post "/hooks" (some (c.hookBody url))
  | .deleteWebhook id => c.post now .delete s!"/hooks/{id}" none
  | .listCommitStatuses ref =>
    getAll c.headers now readStatus (c.repoUrl s!"/commits/{ref}/statuses")
  | .setCommitStatus sha status => c.post now .post s!"/statuses/{sha}" (some (statusBody status))
  | .getUserInfo name => getJson c.headers now readUser (c.apiUrl ++ "/users/" ++ name)
  | .canUserWrite user => do
    let permission ← getJson c.headers now readPermission
      (c.repoUrl s!"/collaborators/{user.name}/permission")
    return permission == "admin" || permission == "write"
  | .registerComment _ id body =>
    c.post now .post s!"/issues/{id}/comments" (some (.obj [("body", .str body)]))
  | .listComments id => do
    let comments ← c.issueComments now id
    let reviews ← c.reviews now id
    return newestFirst (comments ++ reviews)
  | .listPullRequests onlyOpen =>
    let state := if onlyOpen then "open" else "all"
    getAll c.headers now readPullRequest (c.repoUrl s!"/pulls?state={state}")
  | .getPullRequest id => c.pullRequest now id
  | .mergePullRequest id sha method message => do
    let title ← if message = "" then defaultMergeMessage <$> c.pullRequest now id
      else pure message
    c.post now .put s!"/pulls/{id}/merge" (some (.obj [("commit_title", .str title),
      ("sha", .str sha), ("merge_method", .str method.name)]))
  | .getPullRequestDiff id => do
    let changes ← getAll c.headers now readFile (c.repoUrl s!"/pulls/{id}/files")
    return { changes }
  | .listPullRequestCommits id =>
    getAll c.headers now readCommit (c.repoUrl s!"/pulls/{id}/commits")
  | .listLabels id => getJson c.headers now readIssueLabels (c.repoUrl s!"/issues/{id}")
  | .setLabel _ id label => do
    let r ← send c.headers now .post (c.repoUrl s!"/issues/{id}/labels")
      (some (.obj [("labels", .arr [.str label])]))
    let _ ← (Http.readBody (Json.list? readLabel) r : Except Git.Error (List Label))
  | .deleteLabel _ id label => c.deleteLabel now id label
  | .getBranch name => getJson c.headers now readBranch (c.repoUrl s!"/branches/{name}")

end Client

end Gatehouse.Github
