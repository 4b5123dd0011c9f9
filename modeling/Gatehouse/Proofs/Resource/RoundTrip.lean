import Gatehouse.Git.Client
import Gatehouse.Proofs.Git.Body
import Gatehouse.Proofs.Git.Documents
import Gatehouse.Proofs.Resource.Documents
import Gatehouse.Proofs.Text.Utf8

/-!
# Documents make the round trip

What is written faithfully as a document can be sent as a body of UTF-8 and received again
(`RoundTrips`). Bodies of events, and of what cluster objects ask for and how they are doing, are of
that kind. A body from elsewhere may say the same in many ways: reading and writing it once gives
the way in which it is written here, and doing so again changes nothing.
-/

namespace Gatehouse

open Git

variable {α : Type} {nulls : Bool} {Fits : α → Prop} {write : α → Json} {read : Json → Option α}

/-- The body that a value is sent as. -/
def bodyOf (write : α → Json) (a : α) : Bytes := Text.encode (write a).render

/-- What becomes of a body that is received and sent on. -/
def recode (write : α → Json) (read : Json → Option α) (body : Bytes) : Except Error Bytes :=
  (readBody read body).map (bodyOf write)

/-- Values that fit are received as they were sent, and a body that was received and sent on is in
the form that it keeps from then on. Documents have `null` in them only if `nulls` is set. -/
structure RoundTrips (nulls : Bool) (Fits : α → Prop) (write : α → Json)
    (read : Json → Option α) : Prop where
  written : ∀ a, Fits a → Json.Written nulls (write a)
  same : ∀ a, Fits a → readBody read (bodyOf write a) = .ok a
  stable : ∀ body sent, recode write read body = .ok sent → recode write read sent = .ok sent

/-- The document in a body is the one that was sent. -/
theorem document?_render {v : Json} (written : Json.Written nulls v) :
    document? (Text.encode v.render) = some v := by
  rw [document?, Text.decodeLoose_encode, written.read?_render]

theorem Json.Faithful.roundTrips (h : Faithful nulls Fits write read) :
    RoundTrips nulls Fits write read := by
  have same (a : α) (fits : Fits a) : readBody read (bodyOf write a) = .ok a :=
    readBody_eq_ok.mpr ⟨write a, document?_render (h.written a fits), h.back a fits⟩
  refine ⟨h.written, same, fun body sent received => ?_⟩
  cases found : readBody read body with
  | error e =>
    rw [recode, found] at received
    cases received
  | ok a =>
    rw [recode, found] at received
    obtain rfl : bodyOf write a = sent := Except.ok.inj received
    -- What was read fits, so it is read again from the body that it is sent as.
    obtain ⟨v, -, seen⟩ := readBody_eq_ok.mp found
    rw [recode, same a (h.fits seen)]
    rfl

/-- Events, and the specs and statuses of configs, jobs and runs, make the round trip. The documents
of specs and statuses leave out what is absent. -/
theorem documents_round_trip :
    RoundTrips true Webhook.Fits Webhook.toJson Webhook.ofJson? ∧
    (∀ now headers repository w, w.Fits →
      Client.parseWebhook now headers (bodyOf Webhook.toJson w) (.inMemory repository) =
        .ok (some w)) ∧
    RoundTrips false (fun _ => True) Resource.RepoConfigSpec.toJson
      Resource.RepoConfigSpec.ofJson? ∧
    RoundTrips false (fun s => Instant.InRange s.times) Resource.RepoConfigStatus.toJson
      Resource.RepoConfigStatus.ofJson? ∧
    RoundTrips false (fun s => s.refs.Fits) Resource.PipelineJobSpec.toJson
      Resource.PipelineJobSpec.ofJson? ∧
    RoundTrips false (fun s => Instant.InRange s.times) Resource.PipelineJobStatus.toJson
      Resource.PipelineJobStatus.ofJson? ∧
    RoundTrips false (fun _ => True) Resource.PipelineRunSpec.toJson
      Resource.PipelineRunSpec.ofJson? ∧
    RoundTrips false (fun s => Instant.InRange s.times) Resource.PipelineRunStatus.toJson
      Resource.PipelineRunStatus.ofJson? := by
  have events := Webhook.faithful.roundTrips
  refine ⟨events, fun now headers repository w fits => ?_,
    Resource.RepoConfigSpec.faithful.roundTrips, Resource.RepoConfigStatus.faithful.roundTrips,
    Resource.PipelineJobSpec.faithful.roundTrips, Resource.PipelineJobStatus.faithful.roundTrips,
    Resource.PipelineRunSpec.faithful.roundTrips, Resource.PipelineRunStatus.faithful.roundTrips⟩
  rw [Client.parseWebhook, events.same w fits]
  rfl

/-- An event with the least and the greatest id, at the end of the year 9999. -/
def edgeEvent : Webhook where
  eventType := .commentCreated
  repo := ⟨"", ""⟩
  sender := { id := -0x8000000000000000, name := "\"\\\x00\n\u00e9" }
  comment := some {
    id := 0x7fffffffffffffff, body := "/retest", author := {}
    createdAt := .ofEpochSeconds 253402300799 }

theorem documents_round_trip_edge :
    Client.parseWebhook default [] (bodyOf Webhook.toJson edgeEvent) (.inMemory "a/b") =
      .ok (some edgeEvent) := by
  refine documents_round_trip.2.1 default [] "a/b" edgeEvent ⟨rfl, by simp [edgeEvent], ?_⟩
  intro c said
  obtain rfl := Option.some.inj said
  exact ⟨rfl, rfl, rfl, by simp⟩

end Gatehouse
