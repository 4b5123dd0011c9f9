import Gatehouse.Http.Link
import Gatehouse.Proofs.Text.Pieces

/-!
# Link headers, written and read

A link is written as `<url>; rel="words"`, and the links of a header are joined by a comma and a blank.
The reader splits a header at commas and semicolons before it looks at the brackets, so of the links that
were written it finds those whose URL has neither in it (`parse_renderAll`). It finds the next page where
the first link that leads there is of this kind (`next?_carried`, `announced?_bare`).
-/

namespace Gatehouse.Http

open Text

namespace Link

variable {entry url rel s : List Char} {l : Link} {ls : List Link}

/-- A link as it is written. -/
def render (l : Link) : String := "<" ++ l.url ++ ">; rel=\"" ++ l.rel ++ "\""

/-- Links as they are written. -/
def renderAll (ls : List Link) : String := ", ".intercalate (ls.map render)

/-- A link that can be written: no brackets in its URL, and no quotes, commas or semicolons in its
relation. -/
structure Plain (l : Link) : Prop where
  opened : '<' ∉ l.url.toList
  closed : '>' ∉ l.url.toList
  quoted : '"' ∉ l.rel.toList
  whole : ',' ∉ l.rel.toList ∧ ';' ∉ l.rel.toList

/-- A link whose URL has no comma and no semicolon in it. -/
def isBare (l : Link) : Bool := !(l.url.toList.contains ',' || l.url.toList.contains ';')

theorem isBare_iff : l.isBare = true ↔ ',' ∉ l.url.toList ∧ ';' ∉ l.url.toList := by
  simp [isBare]

/-- The links in a text, as characters. -/
def linksIn (s : List Char) : List Link := (splitOn ',' s).filterMap ofEntry?

/-! The two parts of an entry. -/

/-- The URL between the brackets of an entry's target. -/
def bracketed? (target : List Char) : Option (List Char) :=
  dropFront? ['<'] (trim target) >>= dropBack? '>'

theorem ofEntry?_split {target : List Char} {parameters : List (List Char)}
    (split : splitOn ';' entry = target :: parameters) :
    ofEntry? entry = (bracketed? target).bind fun url =>
      (parameters.findSome? relation?).map fun rel => ⟨String.ofList url, String.ofList rel⟩ := by
  unfold ofEntry?
  rw [split]
  change ((bracketed? target).bind fun url => (parameters.findSome? relation?).bind fun rel =>
    some _) = _
  simp only [Option.map_eq_bind, Function.comp_def]

theorem mem_of_bracketed {target : List Char} (between : bracketed? target = some url) :
    '<' ∈ target ∧ '>' ∈ target := by
  obtain ⟨inner, front, back⟩ := Option.bind_eq_some_iff.mp between
  cases kept : trim target with
  | nil =>
    rw [kept] at front
    cases front
  | cons c rest =>
    rw [kept, dropFront?] at front
    split at front
    · rename_i opens
      subst opens
      obtain rfl : rest = inner := Option.some.inj front
      unfold dropBack? at back
      split at back
      · rename_i last
        have within : ∀ c ∈ trim target, c ∈ target := fun c => mem_of_mem_trimWhere
        rw [kept] at within
        exact ⟨within _ List.mem_cons_self,
          within _ (List.mem_cons_of_mem _ (List.mem_of_getLast? last))⟩
      · cases back
    · cases front

theorem bracketed?_written (url : List Char) : bracketed? ('<' :: (url ++ ['>'])) = some url := by
  unfold bracketed? trim
  rw [trimWhere_kept rfl rfl]
  change dropBack? '>' (url ++ ['>']) = some url
  rw [dropBack?, if_pos (by simp), List.dropLast_concat]

theorem relation?_written (quoted : '"' ∉ rel) :
    relation? (" rel=\"".toList ++ rel ++ ['"']) = some rel := by
  have entire : trim (" rel=\"".toList ++ rel ++ ['"']) = "rel=\"".toList ++ rel ++ ['"'] :=
    (trimWhere_cons rfl _).trans (trimWhere_kept rfl rfl _)
  have value : trimWhere (· == '"') (trim ('"' :: (rel ++ ['"']))) = rel := by
    unfold trim
    rw [trimWhere_kept rfl rfl]
    exact trimWhere_between (by decide) (by decide) (not_cut quoted)
  unfold relation?
  rw [entire]
  change (if trim "rel".toList = "rel".toList then
    some (trimWhere (· == '"') (trim ('"' :: (rel ++ ['"'])))) else none) = some rel
  rw [if_pos (by decide), value]

/-! Entries. -/

/-- A target without both brackets makes no link. -/
theorem ofEntry?_eq_none {c : Char} (bracket : c = '<' ∨ c = '>')
    (missing : c ∉ entry.takeWhile (! · == ';')) : ofEntry? entry = none := by
  obtain ⟨parameters, split⟩ := splitWhere_cons (· == ';') entry
  rw [ofEntry?_split split]
  cases between : bracketed? (entry.takeWhile (! · == ';')) with
  | none => rfl
  | some url =>
    obtain ⟨opens, closes⟩ := mem_of_bracketed between
    rcases bracket with rfl | rfl
    · exact absurd opens missing
    · exact absurd closes missing

theorem ofEntry?_blank (entry : List Char) : ofEntry? (' ' :: entry) = ofEntry? entry := by
  obtain ⟨parameters, split⟩ := splitWhere_cons (· == ';') entry
  have longer : splitOn ';' (' ' :: entry) = (' ' :: entry.takeWhile (! · == ';')) :: parameters := by
    unfold splitOn
    rw [splitWhere, if_neg (by decide), split]
  rw [ofEntry?_split split, ofEntry?_split longer]
  unfold bracketed? trim
  rw [trimWhere_cons rfl]

/-- What is written of a link behind the semicolon. -/
def parameter (l : Link) : List Char := " rel=\"".toList ++ l.rel.toList ++ ['"']

theorem toList_render (l : Link) :
    l.render.toList = '<' :: (l.url.toList ++ ['>']) ++ ';' :: l.parameter := by
  have opens : "<".toList = ['<'] := by decide
  have mark : ">; rel=\"".toList = '>' :: ';' :: " rel=\"".toList := by decide
  have closes : "\"".toList = ['"'] := by decide
  unfold render parameter
  rw [String.toList_append, String.toList_append, String.toList_append, String.toList_append, opens,
    mark, closes]
  simp only [List.cons_append, List.nil_append, List.append_assoc]

theorem Plain.parameter_whole (plain : l.Plain) : ',' ∉ l.parameter ∧ ';' ∉ l.parameter := by
  obtain ⟨comma, semicolon⟩ := plain.whole
  have start : ',' ∉ " rel=\"".toList ∧ ';' ∉ " rel=\"".toList := by decide
  unfold parameter
  simp only [List.mem_append, not_or]
  exact ⟨⟨⟨start.1, comma⟩, by decide⟩, ⟨⟨start.2, semicolon⟩, by decide⟩⟩

theorem ofEntry?_render (plain : l.Plain) (whole : ';' ∉ l.url.toList) :
    ofEntry? l.render.toList = some l := by
  have target : ';' ∉ '<' :: (l.url.toList ++ ['>']) := by simp [whole]
  have split : splitOn ';' l.render.toList =
      ['<' :: (l.url.toList ++ ['>']), l.parameter] := by
    rw [toList_render, splitOn, splitWhere_append (not_cut target) (by decide),
      splitWhere_line (not_cut plain.parameter_whole.2)]
  have read : relation? l.parameter = some l.rel.toList := relation?_written plain.quoted
  rw [ofEntry?_split split, bracketed?_written, List.findSome?_cons, read]
  simp

/-! Headers. -/

theorem linksIn_cut (first rest : List Char) :
    linksIn (first ++ ',' :: rest) = linksIn first ++ linksIn rest := by
  unfold linksIn splitOn
  rw [splitWhere_cut (by decide), List.filterMap_append]

theorem linksIn_blank (s : List Char) : linksIn (' ' :: s) = linksIn s := by
  obtain ⟨more, split⟩ := splitWhere_cons (· == ',') s
  unfold linksIn splitOn
  rw [splitWhere, if_neg (by decide), split]
  change ((' ' :: _) :: more).filterMap ofEntry? = _
  rw [List.filterMap_cons, List.filterMap_cons, ofEntry?_blank]

theorem linksIn_whole (whole : ',' ∉ s) : linksIn s = Option.toList ( ofEntry? s) := by
  unfold linksIn splitOn
  rw [splitWhere_line (not_cut whole)]
  cases single : ofEntry? s <;> simp [single]

/-- No link is in a text without both brackets. -/
theorem linksIn_eq_nil {c : Char} (bracket : c = '<' ∨ c = '>') (missing : c ∉ s) :
    linksIn s = [] := by
  refine List.filterMap_eq_nil_iff.mpr fun piece member => ?_
  refine ofEntry?_eq_none bracket fun there => missing ?_
  exact mem_of_mem_splitWhere member ((List.takeWhile_sublist _).mem there)

/-- The piece with the opening bracket ends at a comma, and the piece with the closing one starts at the
last of them. -/
theorem linksIn_comma (plain : l.Plain) (comma : ',' ∈ l.url.toList) :
    linksIn l.render.toList = [] := by
  obtain ⟨after, before, order, last⟩ := List.eq_append_cons_of_mem (List.mem_reverse.mpr comma)
  have url : l.url.toList = before.reverse ++ ',' :: after.reverse := by
    rw [← List.reverse_reverse l.url.toList, order]
    simp
  have text : l.render.toList = '<' :: before.reverse ++
      ',' :: (after.reverse ++ ['>'] ++ ';' :: l.parameter) := by
    rw [toList_render, url]
    simp only [List.cons_append, List.append_assoc, List.nil_append]
  have opened : '<' ∉ after.reverse ++ ['>'] := by
    intro there
    have inUrl : '<' ∈ after.reverse := by simpa using there
    exact plain.opened (url ▸ List.mem_append_right _ (List.mem_cons_of_mem _ inUrl))
  have closed : '>' ∉ '<' :: before.reverse := by
    intro there
    have inUrl : '>' ∈ before.reverse := by simpa using there
    exact plain.closed (url ▸ List.mem_append_left _ inUrl)
  have whole : ',' ∉ after.reverse ++ ['>'] ++ ';' :: l.parameter := by
    simp [plain.parameter_whole.1, last]
  rw [text, linksIn_cut, linksIn_eq_nil (.inr rfl) closed, linksIn_whole whole,
    ofEntry?_eq_none (.inl rfl) fun there => opened (mem_of_mem_first there)]
  rfl

theorem linksIn_semicolon (plain : l.Plain) (comma : ',' ∉ l.url.toList)
    (semicolon : ';' ∈ l.url.toList) : linksIn l.render.toList = [] := by
  obtain ⟨before, after, url, -⟩ := List.eq_append_cons_of_mem semicolon
  have text : l.render.toList = '<' :: before ++ ';' :: (after ++ ['>'] ++ ';' :: l.parameter) := by
    rw [toList_render, url]
    simp only [List.cons_append, List.append_assoc, List.nil_append]
  have closed : '>' ∉ '<' :: before := by
    intro there
    have inUrl : '>' ∈ before := by simpa using there
    exact plain.closed (url ▸ List.mem_append_left _ inUrl)
  have whole : ',' ∉ l.render.toList := by
    rw [toList_render]
    simp [plain.parameter_whole.1, comma]
  rw [linksIn_whole whole, text, ofEntry?_eq_none (.inr rfl) fun there =>
    closed (mem_of_mem_first there)]
  rfl

/-- A link is read back if its URL has no comma and no semicolon, and lost otherwise. -/
theorem linksIn_render (plain : l.Plain) :
    linksIn l.render.toList = if l.isBare then [l] else [] := by
  by_cases comma : ',' ∈ l.url.toList
  · rw [linksIn_comma plain comma, if_neg fun bare => (isBare_iff.mp bare).1 comma]
  by_cases semicolon : ';' ∈ l.url.toList
  · rw [linksIn_semicolon plain comma semicolon,
      if_neg fun bare => (isBare_iff.mp bare).2 semicolon]
  · have whole : ',' ∉ l.render.toList := by
      rw [toList_render]
      simp [plain.parameter_whole.1, comma]
    rw [linksIn_whole whole, ofEntry?_render plain semicolon,
      if_pos (isBare_iff.mpr ⟨comma, semicolon⟩)]
    rfl

theorem linksIn_join (texts : List (List Char)) :
    linksIn (List.intercalate [',', ' '] texts) = texts.flatMap linksIn := by
  induction texts with
  | nil => rfl
  | cons text texts ih =>
    cases texts with
    | nil => rw [List.intercalate_singleton, List.flatMap_singleton]
    | cons next texts =>
      rw [List.intercalate_cons_cons, List.flatMap_cons, ← ih, List.append_assoc]
      change linksIn (text ++ ',' :: ' ' :: List.intercalate [',', ' '] (next :: texts)) = _
      rw [linksIn_cut, linksIn_blank]

/-- Of the links that were written, the reader finds those with a bare URL. -/
theorem parse_renderAll (plain : ∀ l ∈ ls, l.Plain) : parse (renderAll ls) = ls.filter isBare := by
  have gap : ", ".toList = [',', ' '] := by decide
  change linksIn (", ".intercalate (ls.map render)).toList = _
  rw [String.toList_intercalate, gap, linksIn_join, List.map_map, List.flatMap_map]
  induction ls with
  | nil => rfl
  | cons l ls ih =>
    obtain ⟨here, later⟩ := List.forall_mem_cons.mp plain
    rw [List.flatMap_cons, ih later, Function.comp, linksIn_render here, List.filter_cons]
    split <;> rfl

/-! Next pages. -/

/-- The header fields carry these links as they are written; without any there may be no field. -/
def Carries (headers : Headers) (ls : List Link) : Prop :=
  (∀ l ∈ ls, l.Plain) ∧
    (headers.text? "link" = some (renderAll ls) ∨ headers.find? "link" = none ∧ ls = [])

/-- Where the first of the links that leads to the next page leads. -/
def announced? (ls : List Link) : Option String := (ls.find? isNext).map (·.url)

theorem next?_carried {headers : Headers} (carried : Carries headers ls) :
    next? headers = announced? (ls.filter isBare) := by
  obtain ⟨plain, field | ⟨field, rfl⟩⟩ := carried
  · unfold next?
    rw [field]
    change ((parse (renderAll ls)).find? isNext).map (·.url) = _
    rw [parse_renderAll plain, announced?]
  · unfold next? Headers.text?
    rw [field]
    rfl

/-- A header is read right if the first link to the next page is bare. -/
theorem announced?_bare (bare : ∀ l, ls.find? isNext = some l → l.isBare = true) :
    announced? (ls.filter isBare) = announced? ls := by
  have same : (ls.filter isBare).find? isNext = ls.find? isNext := by
    rw [List.find?_filter]
    cases first : ls.find? isNext with
    | none =>
      refine List.find?_eq_none.mpr fun l member => ?_
      have other := List.find?_eq_none.mp first l member
      simp [other]
    | some l =>
      obtain ⟨next, before, after, order, others⟩ := List.find?_eq_some_iff_append.mp first
      refine List.find?_eq_some_iff_append.mpr ⟨?_, before, after, order, ?_⟩
      · simp [bare l first, next]
      · intro other member
        have ends : other.isNext = false := by simpa using others other member
        simp [ends]
  rw [announced?, same, announced?]

end Link

end Gatehouse.Http
