import Gatehouse.Chat.Recording
import Gatehouse.Cluster.Api
import Gatehouse.Control.ConfigPass
import Gatehouse.Control.Endpoint
import Gatehouse.Control.JobPass
import Gatehouse.Control.World
import Gatehouse.Json.MergePatch
import Gatehouse.Main
import Gatehouse.Proofs.Chat.Convergence
import Gatehouse.Proofs.Chat.Decision
import Gatehouse.Proofs.Chat.Grammar
import Gatehouse.Proofs.Chat.Influence
import Gatehouse.Proofs.Chat.LiveVerdict
import Gatehouse.Proofs.Chat.OwnNotices
import Gatehouse.Proofs.Chat.Redelivery
import Gatehouse.Proofs.Chat.Refusal
import Gatehouse.Proofs.Chat.Registration
import Gatehouse.Proofs.Control.Arrival
import Gatehouse.Proofs.Control.Authentication
import Gatehouse.Proofs.Control.Budget
import Gatehouse.Proofs.Control.ConfigOutcome
import Gatehouse.Proofs.Control.ConfigSettled
import Gatehouse.Proofs.Control.Deletion
import Gatehouse.Proofs.Control.Delivery
import Gatehouse.Proofs.Control.HookOwners
import Gatehouse.Proofs.Control.Moves
import Gatehouse.Proofs.Control.PassFailure
import Gatehouse.Proofs.Control.Recognition
import Gatehouse.Proofs.Control.Recovery
import Gatehouse.Proofs.Control.Repetition
import Gatehouse.Proofs.Control.ResetDelay
import Gatehouse.Proofs.Control.Retirement
import Gatehouse.Proofs.Control.Snapshot
import Gatehouse.Proofs.Control.StoredStatus
import Gatehouse.Proofs.Control.TriggeredCommit
import Gatehouse.Proofs.Control.Waiting
import Gatehouse.Proofs.Git.BranchRequest
import Gatehouse.Proofs.Git.CommentListing
import Gatehouse.Proofs.Git.Frame
import Gatehouse.Proofs.Git.Hooks
import Gatehouse.Proofs.Git.LabelCalls
import Gatehouse.Proofs.Git.ResetTime
import Gatehouse.Proofs.Github.MissingLabel
import Gatehouse.Proofs.Github.Signature
import Gatehouse.Proofs.Gitlab.ApiBase
import Gatehouse.Proofs.Gitlab.DiffCounts
import Gatehouse.Proofs.Gitlab.LabelDelta
import Gatehouse.Proofs.Gitlab.LabelUpdate
import Gatehouse.Proofs.Http.LinkReadBack
import Gatehouse.Proofs.Http.Listing
import Gatehouse.Proofs.Resource.ConditionHistory
import Gatehouse.Proofs.Resource.RoundTrip
import Gatehouse.Proofs.Settings.Document
import Gatehouse.Resource.Definition
