import Gatehouse.Github.Event
import Gatehouse.Proofs.Http.LinkReadBack
import Gatehouse.Proofs.Text.Hex

/-!
# Signed deliveries

With a secret, a delivery counts as authentic if its first signature field is `sha256=` and then the
HMAC of its body under the secret, all 32 bytes of it, in hexadecimal digits of either case
(`Signed`). What else is in the delivery is looked at only then: every other delivery, whatever its
event and however malformed its body, ends with one and the same error (`signature_check`).
-/

namespace Gatehouse.Digest

variable {key message : Bytes}

theorem length_bigEndian (n x : Nat) : (bigEndian n x).length = n := by simp [bigEndian]

theorem Words.length_bytes (s : Words) : s.bytes.length = 32 := by
  simp [Words.bytes, length_bigEndian]

theorem length_hmacSha256 : (hmacSha256 key message).length = 32 := Words.length_bytes _

end Gatehouse.Digest

namespace Gatehouse.Http.Headers

variable {h : Headers} {name : String} {value : Bytes}

/-- The value is that of the first field of a name. -/
def First (h : Headers) (name : String) (value : Bytes) : Prop :=
  ∃ before field after, h = before ++ (field, value) :: after ∧ sameName field name = true ∧
    ∀ f ∈ before, sameName f.1 name = false

theorem find?_eq_some_iff : h.find? name = some value ↔ h.First name value := by
  unfold find? First
  simp only [Option.map_eq_some_iff, List.find?_eq_some_iff_append, Bool.not_eq_true',
    Prod.exists, exists_eq_right]
  constructor
  · rintro ⟨field, named, before, after, rfl, others⟩
    exact ⟨before, field, after, rfl, named, others⟩
  · rintro ⟨before, field, after, rfl, named, others⟩
    exact ⟨field, named, before, after, rfl, others⟩

end Gatehouse.Http.Headers

namespace Gatehouse.Github

open Text Digest

variable {now : Instant} {secret : String} {headers : Http.Headers} {body : Bytes}
  {digits : List Char} {signature : Option String}

/-- The text of a signature. -/
def signatureText (digits : List Char) : String := "sha256=" ++ String.ofList digits

theorem toList_signatureText (digits : List Char) :
    (signatureText digits).toList = "sha256=".toList ++ digits := by
  rw [signatureText, String.toList_append]
  exact congrArg _ String.toList_ofList

/-- The first signature field holds the HMAC of the body under the secret. -/
inductive Signed (secret : String) (headers : Http.Headers) (body : Bytes) : Prop
  | intro {digits : List Char}
      (first : headers.First "x-hub-signature-256" (encode (signatureText digits)))
      (tag : digits.map Char.toLower = hexText (hmacSha256 (encode secret) body))

/-- The bytes that a signature writes. -/
def tag? (signature : Option String) : Option Bytes :=
  signature.bind fun s => dropFront? "sha256=".toList s.toList >>= unhex?

theorem tag?_eq_some_iff {tag : Bytes} : tag? signature = some tag ↔
    ∃ digits, signature = some (signatureText digits) ∧ digits.map Char.toLower = hexText tag := by
  unfold tag?
  constructor
  · intro found
    obtain ⟨text, rfl, read⟩ := Option.bind_eq_some_iff.mp found
    obtain ⟨digits, front, tagged⟩ := Option.bind_eq_some_iff.mp read
    have same : text = signatureText digits := String.toList_inj.mp
      ((dropFront?_eq_some_iff.mp front).trans (toList_signatureText digits).symm)
    exact ⟨digits, congrArg some same, unhex?_eq_some_iff.mp tagged⟩
  · rintro ⟨digits, rfl, tagged⟩
    have front := dropFront?_eq_some_iff.mpr (toList_signatureText digits)
    exact Option.bind_eq_some_iff.mpr
      ⟨_, rfl, Option.bind_eq_some_iff.mpr ⟨_, front, unhex?_eq_some_iff.mpr tagged⟩⟩

theorem verifies_iff {key : Bytes} :
    verifies key body signature = true ↔ tag? signature = some (hmacSha256 key body) := by
  unfold verifies tag?
  -- The HMAC is a name from here on, so that nothing tries to compute it.
  generalize hmacSha256 key body = mac
  split
  · rename_i tag read
    rw [read, beq_iff_eq, Option.some.injEq]
  · rename_i read
    rw [read]
    simp

theorem isShown_of_isHex {c : Char} (digit : isHex c = true) : Http.isShown c = true := by
  have all : ∀ m < 0x80, isHex (Char.ofNat m) = true → Http.isShown (Char.ofNat m) = true := by
    decide +kernel
  obtain ⟨n, read⟩ := Option.isSome_iff_exists.mp digit
  have shown := all c.toNat (toNat_lt_of_hexDigit? read)
  rw [Char.ofNat_toNat] at shown
  exact shown digit

/-- Hexadecimal digits can be sent in a field. -/
theorem shown_signatureText (digital : ∀ c ∈ digits, isHex c = true) :
    (signatureText digits).toList.all Http.isShown = true := by
  have front : "sha256=".toList.all Http.isShown = true := by decide +kernel
  rw [toList_signatureText, List.all_append, front, Bool.true_and, List.all_eq_true]
  exact fun c member => isShown_of_isHex (digital c member)

theorem verifies_text_iff :
    verifies (encode secret) body (headers.text? "x-hub-signature-256") = true ↔
      Signed secret headers body := by
  rw [verifies_iff, tag?_eq_some_iff]
  constructor
  · rintro ⟨digits, text, tag⟩
    obtain ⟨value, found, read⟩ := Option.bind_eq_some_iff.mp text
    obtain ⟨rfl, -⟩ := Http.valueText?_eq_some_iff.mp read
    exact ⟨Http.Headers.find?_eq_some_iff.mp found, tag⟩
  · rintro ⟨first, tag⟩
    have found := Http.Headers.find?_eq_some_iff.mpr first
    have shown := shown_signatureText (isHex_of_written tag)
    exact ⟨_, Option.bind_eq_some_iff.mpr
      ⟨_, found, Http.valueText?_eq_some_iff.mpr ⟨rfl, shown⟩⟩, tag⟩

/-! Outcomes. -/

theorem readBody_ne_invalidWebhook {α : Type} (read : Json → Option α) (message : String) :
    Git.readBody read body ≠ .error (.invalidWebhook message) := by
  unfold Git.readBody
  split <;> simp [Git.Error.malformed]

theorem map_ne_error {ε α β : Type} {x : Except ε α} {e : ε} (other : x ≠ .error e) (f : α → β) :
    x.map f ≠ .error e := by
  cases x with
  | error e' => simpa [Except.map] using other
  | ok a => nofun

/-- What is wrong with an authentic delivery is never its signature. -/
theorem eventOf_ne_invalidWebhook (message : String) :
    eventOf now headers body ≠ .error (.invalidWebhook message) := by
  unfold eventOf
  split
  · exact map_ne_error (readBody_ne_invalidWebhook _ message) some
  · exact readBody_ne_invalidWebhook _ message
  · exact readBody_ne_invalidWebhook _ message
  · exact map_ne_error (readBody_ne_invalidWebhook _ message) some
  · nofun

/-- With a secret, exactly the signed deliveries are read as they would be without one; all others end
with a mismatch, whatever else is in them. The tag of a signature is 32 bytes long. -/
theorem signature_check (now : Instant) (secret : String) (headers : Http.Headers) (body : Bytes) :
    (parseWebhook now (some secret) headers body = parseWebhook now none headers body ↔
      Signed secret headers body) ∧
    (parseWebhook now (some secret) headers body =
        .error (.invalidWebhook "signature mismatch") ↔ ¬ Signed secret headers body) ∧
    (hmacSha256 (encode secret) body).length = 32 := by
  refine ⟨?_, ?_, length_hmacSha256⟩
  all_goals rw [← verifies_text_iff]
  all_goals simp only [parseWebhook]
  · split
    · rename_i verified
      exact iff_of_true rfl verified
    · rename_i unverified
      exact iff_of_false (Ne.symm (eventOf_ne_invalidWebhook _)) unverified
  · split
    · rename_i verified
      exact iff_of_false (eventOf_ne_invalidWebhook _) (not_not_intro verified)
    · rename_i unverified
      exact iff_of_true rfl unverified

/-- The HMAC of a short body, in letters of both cases. -/
def zenDigits : List Char :=
  "Fb4266827Dab3a13757445b640aBd94a5D68Dad71c40a90663f5669081c367aA".toList

example : Signed "s3cret" [("x-hub-signature-256", encode (signatureText zenDigits))]
    (encode "zen") :=
  ⟨⟨[], _, [], rfl, by simp [Http.sameName], nofun⟩, by decide +kernel⟩

end Gatehouse.Github
