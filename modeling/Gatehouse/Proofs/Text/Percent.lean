import Gatehouse.Proofs.Text.Digits
import Gatehouse.Proofs.Text.Utf8
import Gatehouse.Text.Percent

/-!
# Reading percent-encoded texts

A text is read from its front: an escape, which is a percent sign and two hexadecimal digits, stands for a
byte, and every other character for its own bytes (`Reads`). So a text comes back from its
encoding if the percent sign was encoded too (`Reads.encoded`), and encoding that leaves escapes
alone does not change what a text stands for (`Reads.percentEncode`). Only a text without escapes
stands for itself (`percentDecode_eq_self`).
-/

namespace Gatehouse.Text

variable {a b c : Char} {s t : List Char} {bs cs : Bytes} {keep : Char → Bool}

/-- The bytes of characters. -/
def bytes (s : List Char) : Bytes := s.flatMap String.utf8EncodeChar

theorem encode_ofList (s : List Char) : encode (String.ofList s) = bytes s := by
  rw [encode_eq, String.toList_ofList, bytes]

theorem bytes_cons : bytes (c :: s) = String.utf8EncodeChar c ++ bytes s := rfl

theorem length_bytes_cons (c : Char) (s : List Char) :
    (bytes s).length < (bytes (c :: s)).length := by
  obtain ⟨x, xs, here, -⟩ := utf8Step_utf8EncodeChar c []
  rw [bytes_cons, here, List.length_append, List.length_cons]
  omega

theorem length_bytes_takeWhile {p : Char → Bool} (member : c ∈ s) (cut : p c = false) :
    (bytes (s.takeWhile p)).length < (bytes s).length := by
  induction s with
  | nil => cases member
  | cons d s ih =>
    rw [List.takeWhile_cons]
    split
    · rename_i kept
      have later : c ∈ s := (List.mem_cons.mp member).resolve_left fun same => by
        rw [same, kept] at cut
        cases cut
      rw [bytes_cons, bytes_cons, List.length_append, List.length_append]
      exact Nat.add_lt_add_left (ih later) _
    · exact Nat.lt_of_le_of_lt (Nat.zero_le _) (length_bytes_cons d s)

theorem bytes_cons_low (low : c.toNat < 0x80) : bytes (c :: s) = UInt8.ofNat c.toNat :: bytes s := by
  rw [bytes_cons, utf8EncodeChar_low low, List.singleton_append]

/-- A character whose number is that of a byte below 128 shows at the front of the bytes. -/
theorem bytes_front {x : UInt8} {r : Bytes} (front : bytes s = x :: r) (low : x.toNat < 0x80) :
    ∃ t, s = Char.ofNat x.toNat :: t ∧ r = bytes t := by
  cases s with
  | nil => cases front
  | cons c t =>
    by_cases small : c.toNat < 0x80
    · rw [bytes_cons_low small] at front
      obtain ⟨rfl, rfl⟩ := List.cons.inj front
      exact ⟨t, by rw [toNat_byte (by omega), Char.ofNat_toNat], rfl⟩
    · obtain ⟨b, bs, here, high⟩ := utf8EncodeChar_high (Nat.le_of_not_lt small)
      rw [bytes_cons, here] at front
      have same : b = x := (List.cons.inj front).1
      have bound := high b List.mem_cons_self
      rw [same] at bound
      omega

/-! Digits. -/

/-- What can be checked number by number holds of all characters with such numbers. -/
theorem forall_char_lt {P : Char → Prop} {n : Nat} (all : ∀ m < n, P (Char.ofNat m))
    (c : Char) (low : c.toNat < n) : P c :=
  Char.ofNat_toNat c ▸ all c.toNat low

/-- Only ASCII letters have another form in small letters. -/
theorem toLower_high (high : 0x80 ≤ c.toNat) : c.toLower = c := by
  unfold Char.toLower
  rw [dif_neg]
  rintro ⟨-, bound⟩
  have bound : c.toNat ≤ 'Z'.toNat := bound
  have small : 'Z'.toNat < 0x80 := by decide
  omega

/-- Is the character a hexadecimal digit? -/
def isHex (c : Char) : Bool := (hexDigit? c).isSome

theorem toNat_lt_of_hexDigit? {n : Nat} (digit : hexDigit? c = some n) : c.toNat < 0x80 := by
  have low {d : Char} (bound : c ≤ d) (small : d.toNat < 0x80) : c.toNat < 0x80 :=
    Nat.lt_of_le_of_lt (Char.le_def.mp bound) small
  unfold hexDigit? at digit
  split at digit
  · rename_i range
    exact low range.2 (by decide)
  split at digit
  · rename_i range
    exact low range.2 (by decide)
  split at digit
  · rename_i range
    exact low range.2 (by decide)
  · cases digit

theorem hexDigit?_hexCapital : ∀ n < 16, hexDigit? (hexCapital n) = some n := by decide

/-- Does the text start with an escape? -/
def startsEscape : List Char → Bool
  | '%' :: a :: b :: _ => isHex a && isHex b
  | _ => false

/-- Is there an escape in the text? -/
def hasEscape : List Char → Bool
  | [] => false
  | c :: s => startsEscape (c :: s) || hasEscape s

theorem startsEscape_iff : startsEscape s = true ↔
    ∃ a b t high low, s = '%' :: a :: b :: t ∧ hexDigit? a = some high ∧ hexDigit? b = some low := by
  constructor
  · intro starts
    unfold startsEscape at starts
    split at starts
    · rename_i a b t
      obtain ⟨first, second⟩ := Bool.and_eq_true_iff.mp starts
      obtain ⟨high, left⟩ := Option.isSome_iff_exists.mp first
      obtain ⟨low, right⟩ := Option.isSome_iff_exists.mp second
      exact ⟨a, b, t, high, low, rfl, left, right⟩
    · cases starts
  · rintro ⟨a, b, t, high, low, rfl, left, right⟩
    simp [startsEscape, isHex, left, right]

theorem startsEscape_other (other : c ≠ '%') : startsEscape (c :: s) = false := by
  refine Bool.eq_false_iff.mpr fun starts => ?_
  obtain ⟨a, b, t, -, -, same, -⟩ := startsEscape_iff.mp starts
  exact other (List.cons.inj same).1

/-! Bytes. -/

theorem percentDecode_cons {x : UInt8} (other : x ≠ 0x25) :
    percentDecode (x :: bs) = x :: percentDecode bs := by
  rw [percentDecode.eq_3]
  rintro a b r rfl
  exact absurd rfl other

theorem percentDecode_free (free : ∀ x ∈ bs, x ≠ 0x25) :
    percentDecode (bs ++ cs) = bs ++ percentDecode cs := by
  induction bs with
  | nil => rfl
  | cons x bs ih =>
    obtain ⟨here, later⟩ := List.forall_mem_cons.mp free
    rw [List.cons_append, percentDecode_cons here, ih later, List.cons_append]

theorem percentDecode_escape {x y : UInt8} {high low : Nat}
    (left : hexDigit? (Char.ofNat x.toNat) = some high)
    (right : hexDigit? (Char.ofNat y.toNat) = some low) :
    percentDecode (0x25 :: x :: y :: bs) = UInt8.ofNat (high * 16 + low) :: percentDecode bs := by
  rw [percentDecode, left, right]

theorem byte_lt_of_hexDigit? {x : UInt8} {n : Nat} (digit : hexDigit? (Char.ofNat x.toNat) = some n) :
    x.toNat < 0x80 := by
  have all : ∀ m < 256, isHex (Char.ofNat m) = true → m < 0x80 := by decide +kernel
  exact all _ x.toNat_lt (by rw [isHex, digit]; rfl)

/-- Behind a percent sign that starts no escape nothing is lost. -/
theorem percentDecode_sign (plain : startsEscape ('%' :: s) = false) :
    percentDecode (0x25 :: bytes s) = 0x25 :: percentDecode (bytes s) := by
  match here : bytes s with
  | [] => rfl
  | [x] => exact percentDecode.eq_3 _ _ fun _ _ _ _ short => by cases short
  | x :: y :: r =>
    rw [percentDecode]
    split
    · rename_i high low left right
      obtain ⟨t, rfl, rest⟩ := bytes_front here (byte_lt_of_hexDigit? left)
      obtain ⟨u, rfl, -⟩ := bytes_front rest.symm (byte_lt_of_hexDigit? right)
      rw [startsEscape_iff.mpr ⟨_, _, _, _, _, rfl, left, right⟩] at plain
      cases plain
    · rfl

/-! Texts. -/

/-- What a text stands for, from its front on. -/
inductive Reads : List Char → Bytes → Prop
  | nil : Reads [] []
  | escape {a b : Char} {high low : Nat} (left : hexDigit? a = some high)
      (right : hexDigit? b = some low) {s : List Char} {bs : Bytes} (rest : Reads s bs) :
      Reads ('%' :: a :: b :: s) (UInt8.ofNat (high * 16 + low) :: bs)
  | char {c : Char} {s : List Char} (plain : startsEscape (c :: s) = false) {bs : Bytes}
      (rest : Reads s bs) : Reads (c :: s) (String.utf8EncodeChar c ++ bs)

theorem Reads.decoded (reads : Reads s bs) : percentDecode (bytes s) = bs := by
  induction reads with
  | nil => rfl
  | escape left right rest ih =>
    have first := toNat_lt_of_hexDigit? left
    have second := toNat_lt_of_hexDigit? right
    rw [bytes_cons_low (by decide), bytes_cons_low first, bytes_cons_low second, ← ih]
    have back {c : Char} (low : c.toNat < 0x80) : Char.ofNat (UInt8.ofNat c.toNat).toNat = c := by
      rw [toNat_byte (by omega), Char.ofNat_toNat]
    exact percentDecode_escape ((back first).symm ▸ left) ((back second).symm ▸ right)
  | @char c s plain bs rest ih =>
    rw [← ih, bytes_cons]
    by_cases sign : c = '%'
    · subst sign
      exact percentDecode_sign plain
    · refine percentDecode_free fun x member => ?_
      rintro rfl
      by_cases low : c.toNat < 0x80
      · rw [utf8EncodeChar_low low, List.mem_singleton] at member
        have value := congrArg UInt8.toNat member
        rw [toNat_byte (by omega)] at value
        exact sign (Char.toNat_inj.mp value.symm)
      · obtain ⟨b, bs, here, high⟩ := utf8EncodeChar_high (Nat.le_of_not_lt low)
        exact absurd (high _ (here ▸ member)) (by decide)

theorem Reads.total (s : List Char) : Reads s (percentDecode (bytes s)) := by
  suffices found : ∃ bs, Reads s bs by
    obtain ⟨bs, reads⟩ := found
    exact reads.decoded.symm ▸ reads
  induction length : s.length using Nat.strongRecOn generalizing s with
  | ind n ih =>
    cases s with
    | nil => exact ⟨_, .nil⟩
    | cons c s =>
      cases starts : startsEscape (c :: s) with
      | true =>
        obtain ⟨a, b, t, high, low, same, left, right⟩ := startsEscape_iff.mp starts
        obtain ⟨rfl, rfl⟩ := List.cons.inj same
        obtain ⟨bs, reads⟩ := ih t.length (by simp at length; omega) t rfl
        exact ⟨_, .escape left right reads⟩
      | false =>
        obtain ⟨bs, reads⟩ := ih s.length (by simp at length; omega) s rfl
        exact ⟨_, .char starts reads⟩

/-- Decoding a text makes it no longer, and shorter if there is an escape in it. -/
theorem Reads.length (reads : Reads s bs) :
    bs.length ≤ (bytes s).length ∧ (hasEscape s = true → bs.length < (bytes s).length) := by
  induction reads with
  | nil => exact ⟨Nat.le_refl _, nofun⟩
  | escape left right rest ih =>
    rw [bytes_cons_low (by decide), bytes_cons_low (toNat_lt_of_hexDigit? left),
      bytes_cons_low (toNat_lt_of_hexDigit? right)]
    simp only [List.length_cons]
    omega
  | char plain rest ih =>
    rw [bytes_cons, List.length_append, List.length_append, hasEscape, plain, Bool.false_or]
    exact ⟨by omega, fun later => by have := ih.2 later; omega⟩

theorem Reads.free (reads : Reads s bs) (free : hasEscape s = false) : bs = bytes s := by
  induction reads with
  | nil => rfl
  | escape left right rest ih =>
    rw [hasEscape, startsEscape_iff.mpr ⟨_, _, _, _, _, rfl, left, right⟩] at free
    cases free
  | char plain rest ih =>
    rw [hasEscape, plain, Bool.false_or] at free
    rw [ih free, bytes_cons]

theorem percentDecode_eq_self : percentDecode (bytes s) = bytes s ↔ hasEscape s = false := by
  constructor
  · intro same
    refine Bool.eq_false_iff.mpr fun escape => ?_
    have shorter := (Reads.total s).length.2 escape
    rw [same] at shorter
    exact Nat.lt_irrefl _ shorter
  · exact (Reads.total s).free

/-- No escape reaches over a slash. -/
theorem Reads.slash (before : Reads s bs) (behind : Reads t cs) :
    Reads (s ++ '/' :: t) (bs ++ 0x2F :: cs) := by
  induction before with
  | nil => exact .char (startsEscape_other (by decide)) behind
  | escape left right rest ih => exact .escape left right ih
  | @char c s plain bs rest ih =>
    rw [List.append_assoc]
    refine .char (Bool.eq_false_iff.mpr fun starts => ?_) ih
    obtain ⟨a, b, u, high, low, same, left, right⟩ := startsEscape_iff.mp starts
    match s with
    | [] =>
      cases same
      cases left
    | [_] =>
      cases same
      cases right
    | _ :: _ :: _ =>
      cases same
      rw [startsEscape_iff.mpr ⟨_, _, _, _, _, rfl, left, right⟩] at plain
      cases plain

theorem Reads.behindSlash (reads : Reads ('/' :: s) bs) : ∃ cs, bs = 0x2F :: cs ∧ Reads s cs := by
  cases reads with
  | char plain rest => exact ⟨_, rfl, rest⟩

/-! Encoding. -/

theorem Reads.percentByte (x : UInt8) (rest : Reads s bs) :
    Reads (Text.percentByte x ++ s) (x :: bs) := by
  have bound := x.toNat_lt
  have escape := Reads.escape (hexDigit?_hexCapital (x.toNat / 16) (by omega))
    (hexDigit?_hexCapital (x.toNat % 16) (by omega)) rest
  have whole : UInt8.ofNat (x.toNat / 16 * 16 + x.toNat % 16) = x := by
    rw [Nat.div_add_mod', UInt8.ofNat_toNat]
  rwa [whole] at escape

theorem Reads.percentBytes (xs : Bytes) (rest : Reads s bs) :
    Reads (xs.flatMap Text.percentByte ++ s) (xs ++ bs) := by
  induction xs with
  | nil => exact rest
  | cons x xs ih =>
    rw [List.flatMap_cons, List.append_assoc]
    exact .percentByte x ih

theorem encode_toString (c : Char) : encode c.toString = String.utf8EncodeChar c := by
  rw [encode_eq, Char.toString_eq_singleton, String.toList_singleton, List.flatMap_singleton]

theorem percentEncode_keep (kept : keep c = true) :
    percentEncode keep (c :: s) = c :: percentEncode keep s := by
  rw [percentEncode, List.flatMap_cons, if_pos kept]
  rfl

theorem percentEncode_all (kept : ∀ c ∈ s, keep c = true) : percentEncode keep s = s := by
  induction s with
  | nil => rfl
  | cons c s ih =>
    obtain ⟨here, later⟩ := List.forall_mem_cons.mp kept
    rw [percentEncode_keep here, ih later]

theorem percentEncode_other (other : keep c = false) :
    percentEncode keep (c :: s) =
      (String.utf8EncodeChar c).flatMap Text.percentByte ++ percentEncode keep s := by
  rw [percentEncode, List.flatMap_cons, if_neg (by simp [other]), encode_toString]
  rfl

/-- Where percent signs are encoded, the encoding stands for the text. -/
theorem Reads.encoded (keep : Char → Bool) (signs : keep '%' = false) (s : List Char) :
    Reads (Text.percentEncode keep s) (bytes s) := by
  induction s with
  | nil => exact .nil
  | cons c s ih =>
    rw [bytes_cons]
    cases kept : keep c with
    | true =>
      rw [percentEncode_keep kept]
      refine .char (startsEscape_other ?_) ih
      rintro rfl
      cases signs.symm.trans kept
    | false =>
      rw [percentEncode_other kept]
      exact .percentBytes _ ih

/-- An encoding starts with a digit only if the text does. -/
theorem percentEncode_front (digit : isHex a = true) (front : percentEncode keep s = a :: t) :
    ∃ r, s = a :: r ∧ t = percentEncode keep r := by
  cases s with
  | nil => cases front
  | cons c r =>
    cases kept : keep c with
    | true =>
      rw [percentEncode_keep kept] at front
      obtain ⟨rfl, rfl⟩ := List.cons.inj front
      exact ⟨r, rfl, rfl⟩
    | false =>
      rw [percentEncode_other kept] at front
      obtain ⟨x, xs, here, -⟩ := utf8Step_utf8EncodeChar c []
      rw [here] at front
      obtain rfl : '%' = a := (List.cons.inj front).1
      cases digit

/-- Where escapes are kept, the encoding stands for what the text stands for. -/
theorem Reads.percentEncode (signs : keep '%' = true) (digits : ∀ c, isHex c = true → keep c = true)
    (reads : Reads s bs) : Reads (Text.percentEncode keep s) bs := by
  induction reads with
  | nil => exact .nil
  | @escape a b high low left right s bs rest ih =>
    rw [percentEncode_keep signs, percentEncode_keep (digits _ (by rw [isHex, left]; rfl)),
      percentEncode_keep (digits _ (by rw [isHex, right]; rfl))]
    exact .escape left right ih
  | @char c s plain bs rest ih =>
    cases kept : keep c with
    | false =>
      rw [percentEncode_other kept]
      exact .percentBytes _ ih
    | true =>
      rw [percentEncode_keep kept]
      refine .char (Bool.eq_false_iff.mpr fun starts => ?_) ih
      -- An escape of the encoding was one before.
      obtain ⟨a, b, t, high, low, same, left, right⟩ := startsEscape_iff.mp starts
      obtain ⟨rfl, front⟩ := List.cons.inj same
      obtain ⟨r, rfl, behind⟩ := percentEncode_front (by rw [isHex, left]; rfl) front
      obtain ⟨r, rfl, -⟩ := percentEncode_front (by rw [isHex, right]; rfl) behind.symm
      rw [startsEscape_iff.mpr ⟨_, _, _, _, _, rfl, left, right⟩] at plain
      cases plain

/-- What is in an encoding: characters of the text that are kept, percent signs and digits. -/
theorem of_mem_percentEncode (member : c ∈ percentEncode keep s) :
    (c ∈ s ∧ keep c = true) ∨ c = '%' ∨ isHex c = true := by
  obtain ⟨d, there, piece⟩ := List.mem_flatMap.mp member
  split at piece
  · rename_i kept
    obtain rfl := List.mem_singleton.mp piece
    exact .inl ⟨there, kept⟩
  · obtain ⟨x, -, written⟩ := List.mem_flatMap.mp piece
    have bound := x.toNat_lt
    have digit {n : Nat} (small : n < 16) : isHex (hexCapital n) = true := by
      rw [isHex, hexDigit?_hexCapital n small]
      rfl
    simp only [percentByte, List.mem_cons, List.not_mem_nil, or_false] at written
    rcases written with rfl | rfl | rfl
    · exact .inr (.inl rfl)
    · exact .inr (.inr (digit (by omega)))
    · exact .inr (.inr (digit (by omega)))

theorem mem_percentEncode (member : c ∈ percentEncode keep s) :
    keep c = true ∨ c = '%' ∨ isHex c = true :=
  (of_mem_percentEncode member).imp_left And.right

/-- Where controls and blanks are encoded, there are none in an encoding. -/
theorem solid_percentEncode (others : ∀ n < 0x21, keep (Char.ofNat n) = false)
    (member : c ∈ percentEncode keep s) : 0x20 < c.toNat := by
  refine Nat.lt_of_not_le fun low => ?_
  have kept := forall_char_lt (P := fun c => keep c = false) others c (Nat.lt_succ_of_le low)
  have solid := forall_char_lt (n := 0x21) (P := fun c => c ≠ '%' ∧ isHex c = false) (by decide) c
    (Nat.lt_succ_of_le low)
  rcases mem_percentEncode member with other | sign | digit
  · cases kept.symm.trans other
  · exact solid.1 sign
  · cases solid.2.symm.trans digit

theorem not_mem_percentEncode (out : keep c = false) (sign : c ≠ '%') (digit : isHex c = false) :
    c ∉ percentEncode keep s := by
  intro member
  rcases mem_percentEncode member with kept | same | hex
  · cases out.symm.trans kept
  · exact sign same
  · cases digit.symm.trans hex

theorem toNat_lt_of_isUnreserved (plain : isUnreserved c = true) : c.toNat < 0x80 := by
  simp only [isUnreserved, Bool.or_eq_true, beq_iff_eq] at plain
  rcases plain with (((letter | rfl) | rfl) | rfl) | rfl
  · have ranges := range_of_isAlphanum letter
    omega
  all_goals decide

theorem bytes_injective (same : bytes s = bytes t) : s = t := by
  rw [← encode_ofList, ← encode_ofList] at same
  exact String.ofList_injective (encode_injective same)

theorem startsEscape_append (starts : startsEscape s = true) (t : List Char) :
    startsEscape (s ++ t) = true := by
  obtain ⟨a, b, r, high, low, rfl, left, right⟩ := startsEscape_iff.mp starts
  exact startsEscape_iff.mpr ⟨a, b, r ++ t, high, low, rfl, left, right⟩

end Gatehouse.Text
