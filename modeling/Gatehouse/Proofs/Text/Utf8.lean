import Gatehouse.Text.Utf8

/-!
# Texts survive being encoded

A text that is encoded and decoded again is the same text (`decodeLoose_encode`). Each character is
recognised from its first byte, and its other bytes are right for it. So no two texts have the same bytes
(`encode_injective`).
-/

namespace Gatehouse.Text

theorem toListFrom_eq (bs : ByteArray) (i : Nat) (r : Bytes) :
    ByteArray.toList.loop bs i r = r.reverse ++ bs.data.toList.drop i := by
  induction i, r using ByteArray.toList.loop.induct bs with
  | case1 i r more ih =>
    have inside : i < bs.data.toList.length := by simpa using more
    have byte : bs.get! i = bs.data.toList[i] := by
      simp [ByteArray.get!, more]
    rw [ByteArray.toList.loop, if_pos more, ih, List.reverse_cons, List.append_assoc, byte,
      List.singleton_append, ← List.drop_eq_getElem_cons]
  | case2 i r ended =>
    have outside : bs.data.toList.length ≤ i := by simpa using ended
    rw [ByteArray.toList.loop, if_neg ended, List.drop_eq_nil_of_le outside, List.append_nil]

/-- The bytes of a text are those of its characters. -/
theorem encode_eq (s : String) : encode s = s.toList.flatMap String.utf8EncodeChar := by
  rw [encode, ByteArray.toList, toListFrom_eq, String.toUTF8_eq_toByteArray,
    ← String.utf8Encode_toList, List.utf8Encode]
  simp

variable {b c d e : UInt8} {n : Nat} {r : Bytes} {second : UInt8 → Bool}

/-! What bytes announce. -/

/-- What starts with a byte depends on its value. -/
theorem utf8Step_eq (b : UInt8) (r : Bytes) : utf8Step b r =
    if b.toNat < 0x80 then .char (Char.ofNat b.toNat) 1
    else if 0xC2 ≤ b.toNat ∧ b.toNat < 0xE0 then twoBytes b r
    else if b.toNat = 0xE0 then threeBytes (fun c => 0xA0 ≤ c && c < 0xC0) b r
    else if b.toNat = 0xED then threeBytes (fun c => 0x80 ≤ c && c < 0xA0) b r
    else if 0xE1 ≤ b.toNat ∧ b.toNat < 0xF0 then threeBytes isContinuation b r
    else if b.toNat = 0xF0 then fourBytes (fun c => 0x90 ≤ c && c < 0xC0) b r
    else if 0xF1 ≤ b.toNat ∧ b.toNat < 0xF4 then fourBytes isContinuation b r
    else if b.toNat = 0xF4 then fourBytes (fun c => 0x80 ≤ c && c < 0x90) b r
    else .invalid 1 := by
  simp only [utf8Step, UInt8.lt_iff_toNat_lt, UInt8.le_iff_toNat_le, Bool.and_eq_true,
    decide_eq_true_eq, beq_iff_eq, ← UInt8.toNat_inj]
  rfl

/-- The byte lies between two others, the second of which does not count. -/
theorem within (lowest highest : UInt8) (low : lowest.toNat ≤ b.toNat)
    (high : b.toNat < highest.toNat) : (lowest ≤ b && b < highest) = true := by
  simp [UInt8.le_iff_toNat_le, UInt8.lt_iff_toNat_lt, low, high]

theorem twoBytes_char (second : isContinuation c = true) :
    twoBytes b (c :: r) = .char (Char.ofNat (b.toNat % 32 * 64 + lowBits c)) 2 := by
  rw [twoBytes, if_pos second]

theorem threeBytes_char (right : second c = true) (third : isContinuation d = true) :
    threeBytes second b (c :: d :: r) =
      .char (Char.ofNat ((b.toNat % 16 * 64 + lowBits c) * 64 + lowBits d)) 3 := by
  simp [threeBytes, right, third]

theorem fourBytes_char (right : second c = true) (third : isContinuation d = true)
    (fourth : isContinuation e = true) :
    fourBytes second b (c :: d :: e :: r) =
      .char (Char.ofNat (((b.toNat % 8 * 64 + lowBits c) * 64 + lowBits d) * 64 + lowBits e))
        4 := by
  simp [fourBytes, right, third, fourth]

/-! The bytes of a character. -/

/-- The continuation byte for the last six bits of a number. -/
def tailByte (n : Nat) : UInt8 := UInt8.ofNat (n % 64 + 128)

theorem toNat_byte (small : n < 256) : (UInt8.ofNat n).toNat = n :=
  UInt8.toNat_ofNat_of_lt' small

theorem toNat_tailByte (n : Nat) : (tailByte n).toNat = n % 64 + 128 := toNat_byte (by omega)

theorem lowBits_tailByte (n : Nat) : lowBits (tailByte n) = n % 64 := by
  rw [lowBits, toNat_tailByte]
  omega

theorem isContinuation_tailByte (n : Nat) : isContinuation (tailByte n) = true := by
  have value := toNat_tailByte n
  exact within 0x80 0xC0 (by simp [value]) (by simp [value]; omega)

theorem utf8Step_small (small : n < 0x80) :
    utf8Step (UInt8.ofNat n) r = .char (Char.ofNat n) 1 := by
  rw [utf8Step_eq, toNat_byte (by omega), if_pos small]

theorem utf8Step_two (low : 0x80 ≤ n) (high : n < 0x800) :
    utf8Step (UInt8.ofNat (n / 64 % 32 + 0xC0)) (tailByte n :: r) = .char (Char.ofNat n) 2 := by
  have first : (UInt8.ofNat (n / 64 % 32 + 0xC0)).toNat = n / 64 % 32 + 0xC0 :=
    toNat_byte (by omega)
  have whole : (n / 64 % 32 + 0xC0) % 32 * 64 + n % 64 = n := by omega
  rw [utf8Step_eq, first, if_neg (by omega), if_pos (by omega),
    twoBytes_char (isContinuation_tailByte n), first, lowBits_tailByte, whole]

theorem utf8Step_three (low : 0x800 ≤ n) (high : n < 0x10000) (scalar : n < 0xD800 ∨ 0xDFFF < n) :
    utf8Step (UInt8.ofNat (n / 4096 % 16 + 0xE0)) (tailByte (n / 64) :: tailByte n :: r) =
      .char (Char.ofNat n) 3 := by
  have first : (UInt8.ofNat (n / 4096 % 16 + 0xE0)).toNat = n / 4096 % 16 + 0xE0 :=
    toNat_byte (by omega)
  have whole : ((n / 4096 % 16 + 0xE0) % 16 * 64 + n / 64 % 64) * 64 + n % 64 = n := by omega
  have read (second : UInt8 → Bool) (right : second (tailByte (n / 64)) = true) :
      threeBytes second (UInt8.ofNat (n / 4096 % 16 + 0xE0))
        (tailByte (n / 64) :: tailByte n :: r) = .char (Char.ofNat n) 3 := by
    rw [threeBytes_char right (isContinuation_tailByte n), first, lowBits_tailByte,
      lowBits_tailByte, whole]
  have second := toNat_tailByte (n / 64)
  rw [utf8Step_eq, first, if_neg (by omega), if_neg (by omega)]
  -- Which second bytes are right depends on the first byte.
  split
  · exact read _ (within _ _ (by simp [second]; omega) (by simp [second]; omega))
  split
  · exact read _ (within _ _ (by simp [second]) (by simp [second]; omega))
  · rw [if_pos (by omega)]
    exact read _ (isContinuation_tailByte _)

theorem utf8Step_four (low : 0x10000 ≤ n) (high : n < 0x110000) :
    utf8Step (UInt8.ofNat (n / 262144 % 8 + 0xF0))
        (tailByte (n / 4096) :: tailByte (n / 64) :: tailByte n :: r) =
      .char (Char.ofNat n) 4 := by
  have first : (UInt8.ofNat (n / 262144 % 8 + 0xF0)).toNat = n / 262144 % 8 + 0xF0 :=
    toNat_byte (by omega)
  have whole : (((n / 262144 % 8 + 0xF0) % 8 * 64 + n / 4096 % 64) * 64 + n / 64 % 64) * 64 +
      n % 64 = n := by
    omega
  have read (second : UInt8 → Bool) (right : second (tailByte (n / 4096)) = true) :
      fourBytes second (UInt8.ofNat (n / 262144 % 8 + 0xF0))
        (tailByte (n / 4096) :: tailByte (n / 64) :: tailByte n :: r) = .char (Char.ofNat n) 4 := by
    rw [fourBytes_char right (isContinuation_tailByte _) (isContinuation_tailByte n), first,
      lowBits_tailByte, lowBits_tailByte, lowBits_tailByte, whole]
  have second := toNat_tailByte (n / 4096)
  rw [utf8Step_eq, first, if_neg (by omega), if_neg (by omega), if_neg (by omega),
    if_neg (by omega), if_neg (by omega)]
  split
  · exact read _ (within _ _ (by simp [second]; omega) (by simp [second]; omega))
  split
  · exact read _ (isContinuation_tailByte _)
  · rw [if_pos (by omega)]
    exact read _ (within _ _ (by simp [second]) (by simp [second]; omega))

/-- The bytes of a character tell which one it is, whatever comes after them. -/
theorem utf8Step_utf8EncodeChar (c : Char) (r : Bytes) :
    ∃ b bs, String.utf8EncodeChar c = b :: bs ∧
      utf8Step b (bs ++ r) = .char c (bs.length + 1) := by
  have scalar : c.toNat < 0xD800 ∨ 0xDFFF < c.toNat ∧ c.toNat < 0x110000 := c.valid
  have same : Char.ofNat c.toNat = c := Char.ofNat_toNat c
  have value : c.val.toNat = c.toNat := rfl
  unfold String.utf8EncodeChar
  rw [value]
  generalize c.toNat = n at scalar same
  subst same
  dsimp only
  split
  · exact ⟨_, _, rfl, utf8Step_small (by omega)⟩
  split
  · exact ⟨_, _, rfl, utf8Step_two (by omega) (by omega)⟩
  split
  · exact ⟨_, _, rfl, utf8Step_three (by omega) (by omega) (by omega)⟩
  · exact ⟨_, _, rfl, utf8Step_four (by omega) (by omega)⟩

/-! Which bytes are ASCII. -/

theorem utf8EncodeChar_low {c : Char} (low : c.toNat < 0x80) :
    String.utf8EncodeChar c = [UInt8.ofNat c.toNat] := by
  have value : c.val.toNat = c.toNat := rfl
  unfold String.utf8EncodeChar
  rw [value]
  exact if_pos (by omega)

theorem utf8EncodeChar_high {c : Char} (high : 0x80 ≤ c.toNat) :
    ∃ b bs, String.utf8EncodeChar c = b :: bs ∧ ∀ x ∈ b :: bs, 0x80 ≤ x.toNat := by
  have value : c.val.toNat = c.toNat := rfl
  have tail (n : Nat) : 0x80 ≤ (tailByte n).toNat := by
    rw [toNat_tailByte]
    omega
  have first {n : Nat} (least : 0x80 ≤ n) (small : n < 256) : 0x80 ≤ (UInt8.ofNat n).toNat := by
    rwa [toNat_byte small]
  unfold String.utf8EncodeChar
  rw [value]
  dsimp only
  rw [if_neg (by omega)]
  split
  · refine ⟨_, [tailByte c.toNat], rfl, ?_⟩
    simp only [List.forall_mem_cons, List.not_mem_nil, false_implies, implies_true, and_true]
    exact ⟨first (by omega) (by omega), tail _⟩
  split
  · refine ⟨_, [tailByte (c.toNat / 64), tailByte c.toNat], rfl, ?_⟩
    simp only [List.forall_mem_cons, List.not_mem_nil, false_implies, implies_true, and_true]
    exact ⟨first (by omega) (by omega), tail _, tail _⟩
  · refine ⟨_, [tailByte (c.toNat / 4096), tailByte (c.toNat / 64), tailByte c.toNat], rfl, ?_⟩
    simp only [List.forall_mem_cons, List.not_mem_nil, false_implies, implies_true, and_true]
    exact ⟨first (by omega) (by omega), tail _, tail _, tail _⟩

/-! Texts. -/

theorem decodeLoose_skip (bs : Bytes) : decodeLoose bs.length (bs ++ r) = decodeLoose 0 r := by
  induction bs with
  | nil => rfl
  | cons b bs ih => exact ih

theorem decodeLoose_chars (s : List Char) :
    decodeLoose 0 (s.flatMap String.utf8EncodeChar) = s.map some := by
  induction s with
  | nil => rfl
  | cons c s ih =>
    obtain ⟨b, bs, bytes, step⟩ :=
      utf8Step_utf8EncodeChar c (s.flatMap String.utf8EncodeChar)
    rw [List.flatMap_cons, bytes, List.cons_append, decodeLoose, step]
    dsimp only
    rw [Nat.add_sub_cancel, decodeLoose_skip, ih, List.map_cons]

/-- A text is decoded from its bytes. -/
theorem decodeLoose_encode (s : String) : decodeLoose 0 (encode s) = s.toList.map some := by
  rw [encode_eq, decodeLoose_chars]

/-- Texts with the same bytes are the same. -/
theorem encode_injective {s t : String} (same : encode s = encode t) : s = t := by
  have characters : s.toList.map some = t.toList.map some := by
    rw [← decodeLoose_encode, ← decodeLoose_encode, same]
  exact String.toList_inj.mp ((List.map_inj_right fun _ _ => Option.some.inj).mp characters)

end Gatehouse.Text
