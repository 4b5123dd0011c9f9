import Gatehouse.Json.Render
import Gatehouse.Json.Scan
import Gatehouse.Proofs.Text.Integers

/-!
# Documents survive being written

The scanner reads a value that was written as that value, and goes on after it as if it had not begun
(`Written.readsBack`). A string or a container ends by itself; a word or a number ends with the
comma or bracket that comes next, or with the document. What cannot be read back is what was never
read: a garbled value, and numbers beyond 64 bits.
-/

namespace Gatehouse.Json

open Text

/-- A value that is read as it is written. It may have `null` in it if `nulls` is set. -/
inductive Written (nulls : Bool) : Json → Prop
  | null (allowed : nulls = true) : Written nulls .null
  | bool (b : Bool) : Written nulls (.bool b)
  | int (n : Int) (small : isInteger n = true) : Written nulls (.int n)
  | str (s : String) : Written nulls (.str s)
  | arr (items : List Json) (each : ∀ v ∈ items, Written nulls v) : Written nulls (.arr items)
  | obj (members : List (String × Json)) (each : ∀ m ∈ members, Written nulls m.2) :
      Written nulls (.obj members)

variable {t t' : Tree} {outer : List Frame} {rest : List (Option Char)} {v : Json}

/-! Where a value may stand. -/

/-- A value must come or may come; it ends up in the given containers. -/
inductive Expects : Tree → List Frame → Prop
  | value (outer : List Frame) : Expects (.value outer) outer
  | firstItem (outer : List Frame) : Expects (.firstItem outer) (.array [] :: outer)

namespace Expects

theorem atom (h : Expects t outer) (v : Json) : t.atom v = some (Tree.deliver v outer) := by
  cases h <;> rfl

theorem text (h : Expects t outer) (s : String) :
    t.text (some s) = some (Tree.deliver (.str s) outer) := by
  cases h <;> rfl

theorem bracket (h : Expects t outer) : t.punctuation '[' = some (.firstItem outer) := by
  cases h <;> rfl

theorem brace (h : Expects t outer) : t.punctuation '\x7b' = some (.firstKey outer) := by
  cases h <;> rfl

end Expects

/-- After a value the document ends, or a comma or a closing bracket comes. -/
def Ends (rest : List (Option Char)) : Prop :=
  ∀ c ∈ rest.head?, c = some ',' ∨ c = some ']' ∨ c = some '\x7d'

/-- Wherever the value may stand, the scanner reads it and is then between the parts of the document.
-/
def ReadsBack (v : Json) : Prop :=
  ∀ t outer rest, Expects t outer → Ends rest →
    Scan.run ((chars v).map some ++ rest) .between t =
      Scan.run rest .between (Tree.deliver v outer)

/-! Single steps. -/

theorem run_step {c : Option Char} {s k : Scan} (next : s.step c t = some (k, t')) :
    Scan.run (c :: rest) s t = Scan.run rest k t' := by
  rw [Scan.run, next]

theorem run_punctuation {c : Char} (known : c ∈ ['[', ']', '\x7b', '\x7d', ',', ':'])
    (next : t.punctuation c = some t') :
    Scan.run (some c :: rest) .between t = Scan.run rest .between t' := by
  have start : Scan.start c t = (t.punctuation c).map (.between, ·) := by
    simp only [List.mem_cons, List.not_mem_nil, or_false] at known
    rcases known with rfl | rfl | rfl | rfl | rfl | rfl <;> rfl
  rw [Scan.run, Scan.step, Option.bind_eq_bind, Option.bind_some, start, next]
  rfl

/-- A word or a number ends before what cannot go on it. -/
theorem run_ended {s : Scan} (ends : Ends rest)
    (open_ : (∃ read, s = .word read) ∨ ∃ read, s = .number read)
    (finish : s.finish t = some t') : Scan.run rest s t = Scan.run rest .between t' := by
  cases rest with
  | nil => rw [Scan.run, Scan.run, finish]; rfl
  | cons c rest =>
    obtain ⟨c, rfl, letter, numeric⟩ :
        ∃ d, c = some d ∧ Char.isAlpha d = false ∧ isNumeric d = false := by
      rcases ends c rfl with rfl | rfl | rfl <;> exact ⟨_, rfl, rfl, rfl⟩
    rw [Scan.run, Scan.run]
    rcases open_ with ⟨read, rfl⟩ | ⟨read, rfl⟩
    · simp [Scan.step, finish, letter]
    · simp [Scan.step, finish, numeric]

/-! Words. -/

theorem readsBack_null : ReadsBack .null := by
  intro t outer rest expects ends
  exact run_ended ends (.inl ⟨_, rfl⟩) (expects.atom .null)

theorem readsBack_bool (b : Bool) : ReadsBack (.bool b) := by
  intro t outer rest expects ends
  cases b with
  | true => exact run_ended ends (.inl ⟨_, rfl⟩) (expects.atom (.bool true))
  | false => exact run_ended ends (.inl ⟨_, rfl⟩) (expects.atom (.bool false))

/-! Strings. -/

/-- How the scanner keeps a character of a string that was written. -/
def piece (c : Char) : Piece :=
  if (escape c).length = 6 then .unit c.toNat else .char c

theorem hexDigit?_hexChar : ∀ n < 16, hexDigit? (hexChar n) = some n := by decide

theorem step_digit {c : Char} {n d : Nat} (read : List Piece) (digit : hexDigit? c = some d) :
    Scan.step (some c) (.unit read n 2) t = some (.unit read (n * 16 + d) 1, t) := by
  simp [Scan.step, digit]

theorem step_lastDigit {c : Char} {n d : Nat} (read : List Piece) (digit : hexDigit? c = some d) :
    Scan.step (some c) (.unit read n 1) t = some (.string (.unit (n * 16 + d) :: read), t) := by
  simp [Scan.step, digit]

theorem step_char {c : Char} (read : List Piece) (quote : c ≠ '"') (slash : c ≠ '\\')
    (large : ¬ c.toNat < 0x20) :
    Scan.step (some c) (.string read) t = some (.string (.char c :: read), t) := by
  unfold Scan.step
  dsimp only
  split
  · rename_i nothing
    cases nothing
  · rename_i same
    exact absurd (Option.some.inj same) quote
  · rename_i same
    exact absurd (Option.some.inj same) slash
  · rename_i same
    cases same
    rw [if_neg large]

theorem run_escape (c : Char) (read : List Piece) :
    Scan.run ((escape c).map some ++ rest) (.string read) t =
      Scan.run rest (.string (piece c :: read)) t := by
  unfold piece escape
  split
  all_goals try rfl
  rename_i quote slash _ _ _ _ _
  split
  · have high := hexDigit?_hexChar (c.toNat / 16) (by omega)
    have low := hexDigit?_hexChar (c.toNat % 16) (by omega)
    have whole : (0 * 16 + c.toNat / 16) * 16 + c.toNat % 16 = c.toNat := by omega
    have last := step_lastDigit (t := t) (n := 0 * 16 + c.toNat / 16) read low
    rw [whole] at last
    refine (run_step (k := .escaped read) rfl).trans ?_
    refine (run_step (k := .unit read 0 4) rfl).trans ?_
    refine (run_step (k := .unit read 0 3) rfl).trans ?_
    refine (run_step (k := .unit read 0 2) rfl).trans ?_
    exact (run_step (step_digit read high)).trans (run_step last)
  · rename_i large
    exact run_step (step_char read quote slash large)

/-- A string is kept piece by piece, the last one in front. -/
theorem run_pieces (s : List Char) (read : List Piece) :
    Scan.run ((s.flatMap escape).map some ++ rest) (.string read) t =
      Scan.run rest (.string ((s.map piece).reverse ++ read)) t := by
  induction s generalizing read with
  | nil => rfl
  | cons c s ih =>
    rw [List.flatMap_cons, List.map_append, List.append_assoc, run_escape, ih, List.map_cons,
      List.reverse_cons, List.append_assoc, List.singleton_append]

/-- An escaped control character is no half of a character. -/
theorem text?_unit {n : Nat} (small : n < 0x20) (r : List Piece) :
    Piece.text? (.unit n :: r) = (Piece.text? r).map (Char.ofNat n :: ·) := by
  have low : ¬ (0xD800 ≤ n && n < 0xDC00) = true := by simp; omega
  have high : ¬ (0xDC00 ≤ n && n < 0xE000) = true := by simp; omega
  rw [Piece.text?.eq_def]
  dsimp only
  rw [if_neg low, if_neg high]

/-- Only control characters take six characters. -/
theorem small_of_length_escape {c : Char} (h : (escape c).length = 6) : c.toNat < 0x20 := by
  unfold escape at h
  split at h
  all_goals try cases h
  split at h
  · assumption
  · cases h

theorem text?_pieces (s : List Char) : Piece.text? (s.map piece) = some s := by
  induction s with
  | nil => rfl
  | cons c s ih =>
    rw [List.map_cons, piece]
    split
    · rename_i control
      rw [text?_unit (small_of_length_escape control), ih, Char.ofNat_toNat]
      rfl
    · rw [Piece.text?, ih]
      rfl

/-- A string is read as its text, as a value or as a name. -/
theorem run_quote {s : String} (next : t.text (some s) = some t') :
    Scan.run ((quote s).map some ++ rest) .between t = Scan.run rest .between t' := by
  have text : Piece.text? ((s.toList.map piece).reverse ++ []).reverse = some s.toList := by
    rw [List.append_nil, List.reverse_reverse, text?_pieces]
  have ended : Scan.step (some '"') (.string ((s.toList.map piece).reverse ++ [])) t =
      some (.between, t') := by
    simp only [Scan.step, text, Option.map_some, String.ofList_toList, next]
  rw [quote, List.map_cons, List.map_append, List.cons_append, List.append_assoc]
  refine (run_step (k := .string []) rfl).trans ?_
  rw [run_pieces]
  exact run_step ended

theorem readsBack_str (s : String) : ReadsBack (.str s) := by
  intro t outer rest expects ends
  exact run_quote (expects.text s)

/-! Integers. -/

/-- An integer is written with its sign, if it is negative, and its digits. -/
theorem chars_int (n : Int) :
    chars (.int n) = (if n < 0 then ['-'] else []) ++ Nat.toDigits 10 n.natAbs :=
  toList_toString n

theorem digits?_toDigits (n : Nat) : digits? (Nat.toDigits 10 n) = some (Nat.toDigits 10 n, []) := by
  have ended : Stops [] := nofun
  have run := takeWhile_digits (isDigit_toDigits n) ended
  have left := dropWhile_digits (isDigit_toDigits n) ended
  rw [List.append_nil] at run left
  simp [digits?, run, left]

theorem read?_toDigits (n : Nat) :
    NumberParts.read? (Nat.toDigits 10 n) = some ⟨false, Nat.toDigits 10 n, none, none⟩ := by
  have first : ∀ c ∈ (Nat.toDigits 10 n).head?, c ≠ '-' := by
    rintro _ head rfl
    have digit := isDigit_toDigits n '-' (List.mem_of_mem_head? head)
    cases digit
  have digits := digits?_toDigits n
  have proper := no_leading_zero n
  generalize Nat.toDigits 10 n = ds at first digits proper
  cases ds with
  | nil => cases digits
  | cons c ds =>
    have sign : c ≠ '-' := first c rfl
    simpa [NumberParts.read?, digits, sign] using proper

theorem read?_minus (n : Nat) :
    NumberParts.read? ('-' :: Nat.toDigits 10 n) =
      some ⟨true, Nat.toDigits 10 n, none, none⟩ := by
  simp [NumberParts.read?, digits?_toDigits, no_leading_zero]

/-- A number without point and exponent is the integer that its digits make, unless it is a negative
zero. -/
theorem value_whole {negative : Bool} {ds text : List Char} {m : Nat}
    (read : natural? ds = some m) (proper : ¬ (negative = true ∧ m = 0))
    (small : isInteger (if negative then -(m : Int) else m) = true) :
    NumberParts.value text ⟨negative, ds, none, none⟩ =
      .int (if negative then -(m : Int) else m) := by
  simp only [NumberParts.value, Option.getD_none, List.append_nil, read, Option.getD_some]
  exact if_pos ⟨rfl, rfl, proper, small⟩

/-- An integer of at most 64 bits is read as the number that it is. -/
theorem ofNumber?_chars {n : Int} (small : isInteger n = true) :
    ofNumber? (chars (.int n)) = some (.int n) := by
  have value := natural?_toDigits n.natAbs
  rw [chars_int]
  by_cases negative : n < 0
  · have back : (if true then -(n.natAbs : Int) else n.natAbs) = n := by
      rw [if_pos rfl]
      omega
    rw [if_pos negative, List.singleton_append, ofNumber?, read?_minus, Option.map_some,
      value_whole value (by omega) (by rwa [back]), back]
  · have back : (if false then -(n.natAbs : Int) else n.natAbs) = n := by
      rw [if_neg Bool.false_ne_true]
      omega
    rw [if_neg negative, List.nil_append, ofNumber?, read?_toDigits, Option.map_some,
      value_whole value (by simp) (by rwa [back]), back]

/-- All characters of an integer may stand in a number, and the first one starts it. -/
theorem isNumeric_chars (n : Int) : ∀ c ∈ chars (.int n), isNumeric c = true := by
  intro c member
  rcases mem_toString member with rfl | digit
  · rfl
  · simp [isNumeric, digit]

theorem run_numeric {s : List Char} (numeric : ∀ c ∈ s, isNumeric c = true) (read : List Char) :
    Scan.run (s.map some ++ rest) (.number read) t =
      Scan.run rest (.number (s.reverse ++ read)) t := by
  induction s generalizing read with
  | nil => rfl
  | cons c s ih =>
    obtain ⟨first, others⟩ := List.forall_mem_cons.mp numeric
    have step : Scan.step (some c) (.number read) t = some (.number (c :: read), t) := by
      simp [Scan.step, first]
    rw [List.reverse_cons, List.append_assoc, List.singleton_append, ← ih others]
    exact run_step step

/-- A number starts with a sign or a digit. -/
theorem start_number {c : Char} (first : c = '-' ∨ c.isDigit = true) :
    Scan.start c t = some (.number [c], t) := by
  rcases first with rfl | digit
  · rfl
  have other (d : Char) (no : d.isDigit = false) : (c == d) = false := by
    rw [beq_eq_false_iff_ne]
    rintro rfl
    rw [no] at digit
    cases digit
  have space : isSpace c = false := by
    simp [isSpace, other ' ' rfl, other '\n' rfl, other '\t' rfl, other '\r' rfl]
  simp [Scan.start, space, other '"' rfl, digit]

theorem readsBack_int {n : Int} (small : isInteger n = true) : ReadsBack (.int n) := by
  intro t outer rest expects ends
  have number := ofNumber?_chars small
  have numeric := isNumeric_chars n
  have first : ∀ c ∈ (chars (.int n)).head?, c = '-' ∨ c.isDigit = true := by
    rw [chars_int]
    intro c head
    split at head
    · exact .inl (Option.some.inj head).symm
    · exact .inr (isDigit_toDigits _ c (List.mem_of_mem_head? head))
  have filled : chars (.int n) ≠ [] := by
    rw [chars_int]
    exact fun empty => Nat.toDigits_ne_nil (List.append_eq_nil_iff.mp empty).2
  generalize chars (.int n) = s at number numeric first filled
  cases s with
  | nil => exact absurd rfl filled
  | cons c s =>
    have later := (List.forall_mem_cons.mp numeric).2
    have step : Scan.step (some c) .between t = some (.number [c], t) :=
      start_number (first c rfl)
    refine (run_step step).trans ((run_numeric later _).trans ?_)
    refine run_ended ends (.inr ⟨_, rfl⟩) ?_
    rw [Scan.finish, List.reverse_append, List.reverse_reverse, List.reverse_singleton,
      List.singleton_append, number]
    exact expects.atom (.int n)

/-! Containers. -/

theorem ends_itemChars (items : List Json) (rest : List (Option Char)) :
    Ends ((itemChars items).map some ++ rest) := by
  cases items with
  | nil => rintro c head; exact .inr (.inl (Option.some.inj head).symm)
  | cons v items => rintro c head; exact .inl (Option.some.inj head).symm

theorem ends_memberChars (members : List (String × Json)) (rest : List (Option Char)) :
    Ends ((memberChars members).map some ++ rest) := by
  cases members with
  | nil => rintro c head; exact .inr (.inr (Option.some.inj head).symm)
  | cons m members => rintro c head; exact .inl (Option.some.inj head).symm

/-- The items after the first complete the array. -/
theorem run_itemChars {items : List Json} (each : ∀ v ∈ items, ReadsBack v) (done : List Json) :
    Scan.run ((itemChars items).map some ++ rest) .between (.afterItem done outer) =
      Scan.run rest .between (Tree.deliver (.arr (done.reverse ++ items)) outer) := by
  induction items generalizing done with
  | nil =>
    rw [List.append_nil]
    exact run_punctuation (by decide) rfl
  | cons v items ih =>
    obtain ⟨first, others⟩ := List.forall_mem_cons.mp each
    rw [itemChars, List.map_cons, List.map_append, List.cons_append, List.append_assoc]
    refine (run_punctuation (by decide) rfl).trans ?_
    refine (first _ _ _ (.value _) (ends_itemChars items rest)).trans ?_
    refine (ih others (v :: done)).trans ?_
    rw [List.reverse_cons, List.append_assoc, List.singleton_append]

/-- A name, a colon and a value are one more member. -/
theorem run_member {k : String} {more : List Char} {members : List (Option String × Json)}
    (value : ReadsBack v) (name : t.text (some k) = some (.colon members (some k) outer))
    (ends : Ends (more.map some ++ rest)) :
    Scan.run ((quote k ++ ':' :: (chars v ++ more)).map some ++ rest) .between t =
      Scan.run (more.map some ++ rest) .between (.afterMember ((some k, v) :: members) outer) := by
  rw [List.map_append, List.append_assoc, run_quote name, List.map_cons, List.cons_append,
    List.map_append, List.append_assoc]
  refine (run_punctuation (by decide) rfl).trans ?_
  exact value _ _ _ (.value _) ends

/-- An object whose names are all texts. -/
theorem close_named (members : List (String × Json)) :
    Tree.close (members.map fun m => (some m.1, m.2)) = .obj members.reverse := by
  have named (ms : List (String × Json)) :
      (ms.map fun m => (some m.1, m.2)).mapM
        (fun m : Option String × Json => m.1.map fun k => (k, m.2)) = some ms := by
    induction ms with
    | nil => rfl
    | cons m ms ih => rw [List.map_cons, List.mapM_cons, ih]; rfl
  have read := named members.reverse
  rw [List.map_reverse] at read
  unfold Tree.close
  split
  · rename_i ms found
    rw [Option.some.inj (found.symm.trans read)]
  · rename_i missing
    cases missing.symm.trans read

/-- The members after the first complete the object. -/
theorem run_memberChars {members : List (String × Json)} (each : ∀ m ∈ members, ReadsBack m.2)
    (done : List (String × Json)) :
    Scan.run ((memberChars members).map some ++ rest) .between
        (.afterMember (done.map fun m => (some m.1, m.2)) outer) =
      Scan.run rest .between (Tree.deliver (.obj (done.reverse ++ members)) outer) := by
  induction members generalizing done with
  | nil =>
    rw [List.append_nil, ← close_named]
    exact run_punctuation (by decide) rfl
  | cons m members ih =>
    obtain ⟨k, v⟩ := m
    obtain ⟨first, others⟩ := List.forall_mem_cons.mp each
    rw [memberChars, List.map_cons, List.cons_append]
    refine (run_punctuation (by decide) rfl).trans ?_
    refine (run_member first rfl (ends_memberChars members rest)).trans ?_
    refine (ih others ((k, v) :: done)).trans ?_
    rw [List.reverse_cons, List.append_assoc, List.singleton_append]

theorem readsBack_arr {items : List Json} (each : ∀ v ∈ items, ReadsBack v) :
    ReadsBack (.arr items) := by
  intro t outer rest expects ends
  cases items with
  | nil =>
    refine (run_punctuation (by decide) expects.bracket).trans ?_
    exact run_punctuation (by decide) rfl
  | cons v items =>
    obtain ⟨first, others⟩ := List.forall_mem_cons.mp each
    rw [chars, List.map_cons, List.map_append, List.cons_append, List.append_assoc]
    refine (run_punctuation (by decide) expects.bracket).trans ?_
    refine (first _ _ _ (.firstItem outer) (ends_itemChars items rest)).trans ?_
    exact run_itemChars others [v]

theorem readsBack_obj {members : List (String × Json)} (each : ∀ m ∈ members, ReadsBack m.2) :
    ReadsBack (.obj members) := by
  intro t outer rest expects ends
  cases members with
  | nil =>
    refine (run_punctuation (by decide) expects.brace).trans ?_
    exact run_punctuation (by decide) rfl
  | cons m members =>
    obtain ⟨k, v⟩ := m
    obtain ⟨first, others⟩ := List.forall_mem_cons.mp each
    rw [chars, List.map_cons, List.cons_append]
    refine (run_punctuation (by decide) expects.brace).trans ?_
    refine (run_member first rfl (ends_memberChars members rest)).trans ?_
    exact run_memberChars others [(k, v)]

/-! Documents. -/

theorem Written.readsBack {nulls : Bool} (written : Written nulls v) : ReadsBack v := by
  induction written with
  | null _ => exact readsBack_null
  | bool b => exact readsBack_bool b
  | int n small => exact readsBack_int small
  | str s => exact readsBack_str s
  | arr items _ each => exact readsBack_arr each
  | obj members _ each => exact readsBack_obj each

/-- A document that is written is read as the value that it was written from. -/
theorem Written.read?_render {nulls : Bool} (written : Written nulls v) :
    read? (v.render.toList.map some) = some v := by
  have whole := written.readsBack (.value []) [] [] (.value []) nofun
  rw [List.append_nil] at whole
  rw [read?, render, String.toList_ofList, whole]
  rfl

end Gatehouse.Json
