import Gatehouse.Proofs.Http.LinkField
import Gatehouse.Proofs.Text.Utf8

/-!
# What is read back of link headers

Of the links that were written in a header, the reader finds those without commas and semicolons in
their URLs, so it finds all of them exactly if there are no others. Of a header that is sent it
finds as much if the header has a text, that is, if all of its characters are visible ASCII, blanks
and tabs (`valueText?_encode`), and nothing otherwise (`next?_sent`).
-/

namespace Gatehouse.Http

open Text

variable {b : UInt8} {c : Char} {s : String}

/-! The text of a field. -/

/-- May the byte stand in a field that has a text? -/
def isShownByte (b : UInt8) : Bool := (0x20 ≤ b && b < 0x7F) || b == 0x09

/-- Is the character visible ASCII, a blank or a tab? -/
def isShown (c : Char) : Bool := (0x20 ≤ c.toNat && c.toNat < 0x7F) || c.toNat == 0x09

theorem isShownByte_iff :
    isShownByte b = true ↔ 0x20 ≤ b.toNat ∧ b.toNat < 0x7F ∨ b.toNat = 0x09 := by
  simp [isShownByte, UInt8.le_iff_toNat_le, UInt8.lt_iff_toNat_lt, ← UInt8.toNat_inj]

theorem isShown_iff : isShown c = true ↔ 0x20 ≤ c.toNat ∧ c.toNat < 0x7F ∨ c.toNat = 0x09 := by
  simp [isShown]

theorem all_isShownByte (c : Char) :
    (String.utf8EncodeChar c).all isShownByte = isShown c := by
  rw [Bool.eq_iff_iff]
  by_cases low : c.toNat < 0x80
  · have value : (UInt8.ofNat c.toNat).toNat = c.toNat := toNat_byte (by omega)
    rw [utf8EncodeChar_low low, List.all_cons, List.all_nil, Bool.and_true, isShownByte_iff,
      isShown_iff, value]
  · obtain ⟨b, bs, bytes, all⟩ := utf8EncodeChar_high (Nat.le_of_not_lt low)
    have high := all b List.mem_cons_self
    rw [bytes, List.all_cons, Bool.and_eq_true, isShownByte_iff, isShown_iff]
    omega

theorem all_shown (s : List Char) :
    (s.flatMap String.utf8EncodeChar).all isShownByte = s.all isShown := by
  rw [List.all_flatMap]
  exact congrArg s.all (funext all_isShownByte)

theorem map_shown {s : List Char} (shown : s.all isShown = true) :
    (s.flatMap String.utf8EncodeChar).map (fun b => Char.ofNat b.toNat) = s := by
  induction s with
  | nil => rfl
  | cons c s ih =>
    obtain ⟨here, later⟩ := (List.all_cons ▸ Bool.and_eq_true_iff).mp shown
    have low : c.toNat < 0x80 := by
      have bounds := isShown_iff.mp here
      omega
    have value : (UInt8.ofNat c.toNat).toNat = c.toNat := toNat_byte (by omega)
    rw [List.flatMap_cons, utf8EncodeChar_low low, List.map_append, ih later, List.map_singleton,
      value, Char.ofNat_toNat, List.singleton_append]

/-- What is sent as a field is read as it is if all of it is shown, and not at all otherwise. -/
theorem valueText?_encode (s : String) :
    valueText? (encode s) = if s.toList.all isShown then some s else none := by
  have bytes : (encode s).all isShownByte = s.toList.all isShown := by
    rw [encode_eq, all_shown]
  change (if (encode s).all isShownByte = true then
    some (String.ofList ((encode s).map fun b => Char.ofNat b.toNat)) else none) = _
  rw [bytes]
  split
  · rename_i shown
    rw [encode_eq, map_shown shown, String.ofList_toList]
  · rfl

theorem toNat_char {n : Nat} (low : n < 0x80) : (Char.ofNat n).toNat = n := by
  have valid : n.isValidChar := .inl (by omega)
  rw [Char.ofNat, dif_pos valid]
  rfl

/-- Bytes that are shown are those of the text that they are shown as. -/
theorem encode_shown {value : Bytes} (shown : value.all isShownByte = true) :
    encode (String.ofList (value.map fun b => Char.ofNat b.toNat)) = value := by
  rw [encode_eq, String.toList_ofList]
  induction value with
  | nil => rfl
  | cons b value ih =>
    obtain ⟨here, later⟩ := (List.all_cons ▸ Bool.and_eq_true_iff).mp shown
    have low : b.toNat < 0x80 := by
      have bounds := isShownByte_iff.mp here
      omega
    have number : (Char.ofNat b.toNat).toNat = b.toNat := toNat_char low
    rw [List.map_cons, List.flatMap_cons, ih later, utf8EncodeChar_low (by omega), number,
      UInt8.ofNat_toNat, List.singleton_append]

theorem valueText?_eq_some_iff {value : Bytes} :
    valueText? value = some s ↔ value = encode s ∧ s.toList.all isShown = true := by
  constructor
  · intro read
    obtain ⟨shown, same⟩ : value.all isShownByte = true ∧
        String.ofList (value.map fun b => Char.ofNat b.toNat) = s := by
      simpa [valueText?, isShownByte] using read
    have whole : encode s = value := same ▸ encode_shown shown
    have text := valueText?_encode s
    rw [whole, read] at text
    split at text
    · rename_i visible
      exact ⟨whole.symm, visible⟩
    · cases text
  · rintro ⟨rfl, shown⟩
    rw [valueText?_encode, if_pos shown]

namespace Link

variable {l : Link} {ls : List Link} {headers : Headers}

/-! The links of a header. -/

theorem isBare_of_url {k : Link} (same : k.url = l.url) : k.isBare = l.isBare := by
  rw [isBare, isBare, same]

/-- The reader is led where the first link to the next page leads exactly if that one is bare. -/
theorem announced?_filter_iff :
    announced? (ls.filter isBare) = announced? ls ↔
      ∀ l, ls.find? isNext = some l → l.isBare = true := by
  refine ⟨fun same l first => ?_, announced?_bare⟩
  have goal : announced? (ls.filter isBare) = some l.url := by
    rw [same, announced?, first]
    rfl
  obtain ⟨k, found, url⟩ := Option.map_eq_some_iff.mp goal
  obtain ⟨-, bare⟩ := List.mem_filter.mp (List.mem_of_find?_eq_some found)
  rw [← isBare_of_url url, bare]

theorem next?_sent (plain : ∀ l ∈ ls, l.Plain)
    (sent : headers.find? "link" = some (encode (renderAll ls))) :
    next? headers = if (renderAll ls).toList.all isShown then announced? (ls.filter isBare)
      else none := by
  have text : headers.text? "link" =
      if (renderAll ls).toList.all isShown then some (renderAll ls) else none := by
    rw [Headers.text?, sent, Option.bind_some, valueText?_encode]
  by_cases shown : (renderAll ls).toList.all isShown = true
  · rw [if_pos shown] at text ⊢
    exact next?_carried ⟨plain, .inl text⟩
  · rw [if_neg shown] at text ⊢
    rw [next?, text]
    rfl

theorem next?_sent_iff (plain : ∀ l ∈ ls, l.Plain)
    (sent : headers.find? "link" = some (encode (renderAll ls))) :
    next? headers = announced? ls ↔ ∀ l, ls.find? isNext = some l →
      l.isBare = true ∧ (renderAll ls).toList.all isShown = true := by
  rw [next?_sent plain sent]
  by_cases shown : (renderAll ls).toList.all isShown = true
  · rw [if_pos shown, announced?_filter_iff]
    simp only [shown, and_true]
  · rw [if_neg shown]
    constructor
    · intro none l first
      rw [announced?, first] at none
      cases none
    · intro clear
      cases first : ls.find? isNext with
      | none =>
        rw [announced?, first]
        rfl
      | some l => exact absurd (clear l first).2 shown

/-- Of the links that were written those with a bare URL are read back, and the next page is found
exactly if the first link that leads there is bare and the header is all shown. -/
theorem links_read_back (plain : ∀ l ∈ ls, l.Plain) :
    parse (renderAll ls) = ls.filter isBare ∧
    (parse (renderAll ls) = ls ↔ ∀ l ∈ ls, ',' ∉ l.url.toList ∧ ';' ∉ l.url.toList) ∧
    ∀ headers : Headers, headers.find? "link" = some (encode (renderAll ls)) →
      next? headers = (if (renderAll ls).toList.all isShown then
        announced? (ls.filter isBare) else none) ∧
      (next? headers = announced? ls ↔ ∀ l, ls.find? isNext = some l →
        l.isBare = true ∧ (renderAll ls).toList.all isShown = true) := by
  have found := parse_renderAll plain
  refine ⟨found, ?_, fun headers sent => ⟨next?_sent plain sent, next?_sent_iff plain sent⟩⟩
  rw [found, List.filter_eq_self]
  exact forall₂_congr fun l _ => isBare_iff

/-- The links of a page in the middle of a listing. -/
def linksOf (prev next last : String) : List Link :=
  [⟨prev, "prev"⟩, ⟨next, "next"⟩, ⟨last, "last"⟩]

theorem linksOf_plain (prev next last : String)
    (opened : ∀ url ∈ [prev, next, last], '<' ∉ url.toList)
    (closed : ∀ url ∈ [prev, next, last], '>' ∉ url.toList) :
    ∀ l ∈ linksOf prev next last, l.Plain := by
  have words : ∀ rel ∈ ["prev", "next", "last"],
      '"' ∉ rel.toList ∧ ',' ∉ rel.toList ∧ ';' ∉ rel.toList := by decide
  simp only [List.forall_mem_cons, List.not_mem_nil, false_implies, implies_true, and_true]
    at opened closed words
  simp only [linksOf, List.forall_mem_cons, List.not_mem_nil, false_implies, implies_true, and_true]
  exact ⟨⟨opened.1, closed.1, words.1.1, words.1.2⟩,
    ⟨opened.2.1, closed.2.1, words.2.1.1, words.2.1.2⟩,
    ⟨opened.2.2, closed.2.2, words.2.2.1, words.2.2.2⟩⟩

theorem find?_link (value : Bytes) : Headers.find? [("link", value)] "link" = some value := by
  simp [Headers.find?, sameName]

theorem links_read_back_page :
    parse (renderAll (linksOf "http://h/items?page=1" "http://h/items?page=3"
        "http://h/items?page=9")) =
      linksOf "http://h/items?page=1" "http://h/items?page=3" "http://h/items?page=9" ∧
    next? [("link", encode (renderAll (linksOf "http://h/items?page=1" "http://h/items?page=3"
        "http://h/items?page=9")))] = some "http://h/items?page=3" := by
  obtain ⟨-, whole, sent⟩ := links_read_back (linksOf_plain "http://h/items?page=1"
    "http://h/items?page=3" "http://h/items?page=9" (by decide) (by decide))
  refine ⟨whole.mpr (by decide), ?_⟩
  obtain ⟨-, found⟩ := sent _ (find?_link _)
  rw [found.mpr (by decide +kernel)]
  rfl

/-- URLs may have commas and semicolons in them, but their links are not read back, and a listing
ends at a page that is not the last one. -/
theorem links_lost :
    (∀ l ∈ linksOf "http://h/a;v=1" "http://h/items?labels=a,b&page=2" "http://h/items?page=9",
      l.Plain) ∧
    parse (renderAll (linksOf "http://h/a;v=1" "http://h/items?labels=a,b&page=2"
      "http://h/items?page=9")) = [⟨"http://h/items?page=9", "last"⟩] ∧
    announced? (linksOf "http://h/a;v=1" "http://h/items?labels=a,b&page=2"
      "http://h/items?page=9") = some "http://h/items?labels=a,b&page=2" ∧
    next? [("link", encode (renderAll (linksOf "http://h/a;v=1"
      "http://h/items?labels=a,b&page=2" "http://h/items?page=9")))] = none := by
  have plain := linksOf_plain "http://h/a;v=1" "http://h/items?labels=a,b&page=2"
    "http://h/items?page=9" (by decide) (by decide)
  have found := parse_renderAll plain
  have left : (linksOf "http://h/a;v=1" "http://h/items?labels=a,b&page=2"
      "http://h/items?page=9").filter isBare = [⟨"http://h/items?page=9", "last"⟩] := by decide
  have lost : announced? [⟨"http://h/items?page=9", "last"⟩] = none := by decide
  rw [left] at found
  refine ⟨plain, found, by decide, ?_⟩
  rw [next?_sent plain (find?_link _), left, lost, ite_self]

end Link

end Gatehouse.Http
