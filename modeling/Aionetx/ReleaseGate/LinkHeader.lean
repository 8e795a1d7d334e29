import Mathlib.Data.List.Basic
import Mathlib.Data.List.Infix

/-!
# The `Link` header of a page

`_parse_next_link` of the two release gates splits the header at its commas, also at those inside the angle brackets.

* `PyStr`, `strip`, `find`, `slice` : the string methods it uses;
* `parseNextLink` : the function;
* `LinkEntry`, `linkHeader`, `nextLink` : a well-formed header, and the URI of its next page;
* `parseNextLink_linkHeader` : what the function returns on it, `parseNextLink_eq_nextLink_iff` : when that is the URI.
-/

namespace Aionetx

/-! ## Strings -/

/-- A Python string: its code points. -/
abbrev PyStr := List Char

/-- `str.isspace` of one character. -/
def isSpace (c : Char) : Bool :=
  (9 ≤ c.toNat && c.toNat ≤ 13) || (28 ≤ c.toNat && c.toNat ≤ 32) || c.toNat = 0x85 || c.toNat = 0xa0 ||
    c.toNat = 0x1680 || (0x2000 ≤ c.toNat && c.toNat ≤ 0x200a) || c.toNat = 0x2028 || c.toNat = 0x2029 ||
    c.toNat = 0x202f || c.toNat = 0x205f || c.toNat = 0x3000

/-- `str.strip`. -/
def strip (s : PyStr) : PyStr := ((s.dropWhile isSpace).reverse.dropWhile isSpace).reverse

/-- `str.find` of a character, from an index on. -/
def find (s : PyStr) (c : Char) (start : Nat) : Option Nat := ((s.drop start).findIdx? (· = c)).map (start + ·)

/-- `s[start:stop]`. -/
def slice (s : PyStr) (start stop : Nat) : PyStr := (s.take stop).drop start

/-- What is left of a string without blanks at its ends. -/
theorem strip_within (s : PyStr) : strip s <:+: s := by
  have hfront : s.dropWhile isSpace <:+: s := (List.dropWhile_suffix isSpace).isInfix
  refine List.IsInfix.trans ?_ hfront
  have hback := (List.dropWhile_suffix isSpace (l := (s.dropWhile isSpace).reverse)).isInfix
  exact List.reverse_infix.mp (by rw [strip, List.reverse_reverse]; exact hback)

/-- Blanks in front are stripped, and nothing else if there are none at the end. -/
theorem strip_append {blank s : PyStr} {first last : Char} (hblank : ∀ c ∈ blank, isSpace c = true)
    (hfirst : isSpace first = false) (hlast : isSpace last = false) :
    strip (blank ++ first :: (s ++ [last])) = first :: (s ++ [last]) := by
  have hfront : (blank ++ first :: (s ++ [last])).dropWhile isSpace = first :: (s ++ [last]) := by
    rw [List.dropWhile_append_of_pos hblank, List.dropWhile_cons_of_neg (by rw [hfirst]; exact Bool.false_ne_true)]
  have hback : (first :: (s ++ [last])).reverse = last :: (first :: s).reverse := by simp
  rw [strip, hfront, hback, List.dropWhile_cons_of_neg (by rw [hlast]; exact Bool.false_ne_true), ← hback,
    List.reverse_reverse]

theorem find_eq_none {s : PyStr} {c : Char} (h : c ∉ s) (start : Nat) : find s c start = none := by
  rw [find, Option.map_eq_none_iff, List.findIdx?_eq_none_iff]
  intro x hx
  refine decide_eq_false fun hxc => h ?_
  exact hxc ▸ List.mem_of_mem_drop hx

/-- The first occurrence after a first character. -/
theorem find_cons_append (first : Char) {c : Char} {s t : PyStr} (h : c ∉ s) : find (first :: (s ++ c :: t)) c 1 = some (1 + s.length) := by
  have hnone : s.findIdx? (fun x => decide (x = c)) = none := by
    rw [List.findIdx?_eq_none_iff]
    exact fun x hx => decide_eq_false fun hxc => h (hxc ▸ hx)
  rw [find, List.drop_succ_cons, List.drop_zero, List.findIdx?_append, hnone]
  simp [List.findIdx?_cons]

theorem slice_cons_append (first : Char) (s t : PyStr) : slice (first :: (s ++ t)) 1 (1 + s.length) = s := by
  rw [slice, Nat.add_comm, List.take_succ_cons, List.take_left, List.drop_succ_cons, List.drop_zero]

/-! ## The function -/

def relNext : PyStr := "rel=\"next\"".toList


/-- One turn of the loop over the segments. -/
def nextLinkOf (segment : PyStr) : Option PyStr :=
  let candidate := strip segment
  if relNext <:+: candidate then
    match find candidate '<' 0 with
    | none => none
    | some start =>
      match find candidate '>' (start + 1) with
      | none => none
      | some stop => some (slice candidate (start + 1) stop)
  else none

def parseNextLink : Option PyStr → Option PyStr
  | none => none
  | some linkHeader => if linkHeader = [] then none else (linkHeader.splitOn ',').findSome? nextLinkOf

/-! ## A well-formed header -/

/-- An entry `<URI>; rel="..."`, after optional blanks. A URI has no angle bracket and no quotation mark. -/
structure LinkEntry where
  blank : PyStr
  uri : PyStr
  rel : PyStr
  blank_spaces : ∀ c ∈ blank, c = ' ' ∨ c = '\t'
  uri_ne_nil : uri ≠ []
  uri_chars : ∀ c ∈ uri, c ≠ '<' ∧ c ≠ '>' ∧ c ≠ '"'
  rel_chars : '"' ∉ rel

def relationNext : PyStr := "next".toList

def LinkEntry.text (e : LinkEntry) : PyStr :=
  e.blank ++ '<' :: (e.uri ++ ('>' :: ';' :: ' ' :: 'r' :: 'e' :: 'l' :: '=' :: '"' :: e.rel ++ ['"']))

def linkHeader (entries : List LinkEntry) : PyStr := [','].intercalate (entries.map LinkEntry.text)

theorem relNext_eq : relNext = ['r', 'e', 'l', '='] ++ '"' :: (relationNext ++ ['"']) := rfl

theorem count_relNext : relNext.count '"' = 2 := by
  have hlist : relNext = ['r', 'e', 'l', '=', '"', 'n', 'e', 'x', 't', '"'] := rfl
  rw [hlist]
  decide

/-- The URI of the entry with `rel="next"`. -/
def nextLink (entries : List LinkEntry) : Option PyStr :=
  (entries.find? fun e => e.rel = relationNext).map LinkEntry.uri

/-! ## The text of an entry -/

/-- Two splits of a list at an element that neither front contains. -/
theorem append_cons_inj_of_not_mem {α : Type*} {a : α} {s t s' t' : List α} (hs : a ∉ s) (hs' : a ∉ s')
    (h : s ++ a :: t = s' ++ a :: t') : s = s' ∧ t = t' := by
  induction s generalizing s' with
  | nil =>
    cases s' with
    | nil => exact ⟨rfl, (List.cons.inj h).2⟩
    | cons b s' => exact absurd ((List.cons.inj h).1 ▸ List.mem_cons_self) hs'
  | cons b s ih =>
    cases s' with
    | nil => exact absurd ((List.cons.inj h).1 ▸ List.mem_cons_self) hs
    | cons b' s' =>
      obtain ⟨rfl, htail⟩ := List.cons.inj h
      obtain ⟨rfl, rfl⟩ := ih (fun hm => hs (List.mem_cons_of_mem _ hm)) (fun hm => hs' (List.mem_cons_of_mem _ hm)) htail
      exact ⟨rfl, rfl⟩

theorem infix_of_mem_splitOn {α : Type*} [DecidableEq α] {a : α} {l piece : List α} (h : piece ∈ l.splitOn a) :
    piece <:+: l := by
  have hjoin : ∀ ls : List (List α), piece ∈ ls → piece <:+: [a].intercalate ls := by
    intro ls hmem
    induction ls with
    | nil => cases hmem
    | cons x ls ih =>
      cases ls with
      | nil =>
        rw [List.mem_singleton] at hmem
        subst hmem
        simp
      | cons y ls =>
        rw [List.intercalate_cons_cons]
        rcases List.mem_cons.mp hmem with rfl | hmem
        · rw [List.append_assoc]
          exact (List.prefix_append _ _).isInfix
        · exact (ih hmem).trans (List.suffix_append _ _).isInfix
  have hself := hjoin _ h
  rwa [List.intercalate_splitOn] at hself

namespace LinkEntry
variable {e : LinkEntry}

/-- The part of the text before the value of `rel`. -/
def front (e : LinkEntry) : PyStr := e.blank ++ '<' :: (e.uri ++ ['>', ';', ' ', 'r', 'e', 'l', '='])

theorem text_eq (e : LinkEntry) : e.text = e.front ++ '"' :: (e.rel ++ ['"']) := by
  simp [text, front]

theorem quote_not_mem_blank (e : LinkEntry) : '"' ∉ e.blank := by
  intro h
  rcases e.blank_spaces _ h with h | h
  · exact absurd h (by decide)
  · exact absurd h (by decide)

theorem quote_not_mem_front (e : LinkEntry) : '"' ∉ e.front := by
  intro h
  rcases List.mem_append.mp h with h | h
  · exact e.quote_not_mem_blank h
  · rcases List.mem_cons.mp h with h | h
    · exact absurd h (by decide)
    · rcases List.mem_append.mp h with h | h
      · exact (e.uri_chars _ h).2.2 rfl
      · revert h
        decide

theorem count_text (e : LinkEntry) : e.text.count '"' = 2 := by
  rw [text_eq, List.count_append, List.count_eq_zero.mpr e.quote_not_mem_front, List.count_cons_self, List.count_append,
    List.count_eq_zero.mpr e.rel_chars]
  rfl

/-- The text contains `rel="next"` only if that is its relation: there are no other quotation marks. -/
theorem rel_eq_of_within (h : relNext <:+: e.text) : e.rel = relationNext := by
  obtain ⟨x, y, hxy⟩ := h
  have hcount := e.count_text
  rw [← hxy, List.count_append, List.count_append, count_relNext] at hcount
  have hx : '"' ∉ x := List.count_eq_zero.mp (by omega)
  have hsplit : (x ++ ['r', 'e', 'l', '=']) ++ '"' :: (relationNext ++ '"' :: y) = e.front ++ '"' :: (e.rel ++ ['"']) := by
    rw [← e.text_eq, ← hxy, relNext_eq]
    simp only [List.append_assoc, List.cons_append, List.nil_append]
  have hfront : '"' ∉ x ++ ['r', 'e', 'l', '='] := by
    rw [List.mem_append, not_or]
    exact ⟨hx, by decide⟩
  have hvalue := (append_cons_inj_of_not_mem hfront e.quote_not_mem_front hsplit).2
  exact (append_cons_inj_of_not_mem (by decide) e.rel_chars hvalue).1.symm

/-! ## The segments of an entry -/

/-- A segment without a quotation mark is skipped. -/
theorem nextLinkOf_of_no_quote {segment : PyStr} (h : '"' ∉ segment) : nextLinkOf segment = none := by
  unfold nextLinkOf
  refine if_neg fun hwithin => h ?_
  exact ((hwithin.trans (strip_within segment)).sublist).mem (by decide)

theorem nextLinkOf_of_no_bracket {segment : PyStr} (h : '<' ∉ segment) : nextLinkOf segment = none := by
  have hnone : find (strip segment) '<' 0 = none :=
    find_eq_none (fun hm => h ((strip_within segment).sublist.mem hm)) 0
  unfold nextLinkOf
  simp only [hnone, ite_self]

/-- What is left of the text without the blanks in front, when the relation is `next`. -/
theorem strip_text (hrel : e.rel = relationNext) :
    strip e.text = '<' :: (e.uri ++ '>' :: (';' :: ' ' :: relNext)) := by
  have hshape : e.text = e.blank ++ '<' :: ((e.uri ++ ['>', ';', ' '] ++ ['r', 'e', 'l', '='] ++ '"' :: relationNext) ++ ['"']) := by
    rw [text_eq, front, hrel]
    simp only [List.append_assoc, List.cons_append, List.nil_append]
  have hblank : ∀ c ∈ e.blank, isSpace c = true := by
    intro c hc
    rcases e.blank_spaces c hc with rfl | rfl
    · decide
    · decide
  rw [hshape, strip_append hblank (by decide) (by decide), relNext_eq]
  simp only [List.append_assoc, List.cons_append, List.nil_append]

theorem nextLinkOf_text (hrel : e.rel = relationNext) : nextLinkOf e.text = some e.uri := by
  have hwithin : relNext <:+: '<' :: (e.uri ++ '>' :: (';' :: ' ' :: relNext)) := by
    refine List.IsSuffix.isInfix ⟨'<' :: (e.uri ++ ['>', ';', ' ']), ?_⟩
    simp only [List.append_assoc, List.cons_append, List.nil_append]
  have hopen : find ('<' :: (e.uri ++ '>' :: (';' :: ' ' :: relNext))) '<' 0 = some 0 := by
    simp [find, List.findIdx?_cons]
  have hclose := find_cons_append '<' (t := ';' :: ' ' :: relNext) fun h => (e.uri_chars _ h).2.1 rfl
  unfold nextLinkOf
  simp only [strip_text hrel, if_pos hwithin, hopen, Nat.zero_add, hclose, slice_cons_append]

theorem comma_not_mem_text (hrel : e.rel = relationNext) (hcomma : ',' ∉ e.uri) : ',' ∉ e.text := by
  have hblank : ',' ∉ e.blank := by
    intro h
    rcases e.blank_spaces _ h with h | h
    · exact absurd h (by decide)
    · exact absurd h (by decide)
  rw [text_eq, front, hrel]
  simp only [List.mem_append, List.mem_cons, not_or]
  exact ⟨⟨hblank, by decide, hcomma, by decide⟩, by decide, by decide, by decide⟩

/-- A comma in the URI separates the bracket from the relation: no piece has both. -/
theorem findSome_text_of_comma (hrel : e.rel = relationNext) (hcomma : ',' ∈ e.uri) :
    (e.text.splitOn ',').findSome? nextLinkOf = none := by
  obtain ⟨u, v, huri⟩ := List.append_of_mem hcomma
  have hshape : e.text = (e.blank ++ '<' :: u) ++ ',' :: (v ++ '>' :: ';' :: ' ' :: relNext) := by
    rw [text_eq, front, huri, hrel, relNext_eq]
    simp only [List.append_assoc, List.cons_append, List.nil_append]
  have hquote : '"' ∉ e.blank ++ '<' :: u := by
    simp only [List.mem_append, List.mem_cons, not_or]
    exact ⟨e.quote_not_mem_blank, by decide, fun h => (e.uri_chars _ (by rw [huri]; exact List.mem_append_left _ h)).2.2 rfl⟩
  have hbracket : '<' ∉ v ++ '>' :: ';' :: ' ' :: relNext := by
    simp only [List.mem_append, List.mem_cons, not_or]
    refine ⟨fun h => (e.uri_chars '<' ?_).1 rfl, by decide, by decide, by decide, by decide⟩
    rw [huri]
    exact List.mem_append_right _ (List.mem_cons_of_mem _ h)
  rw [hshape, List.splitOn_append_cons_self, List.findSome?_append, Option.or_eq_none_iff]
  refine ⟨List.findSome?_eq_none_iff.mpr fun piece hpiece => ?_, List.findSome?_eq_none_iff.mpr fun piece hpiece => ?_⟩
  · exact nextLinkOf_of_no_quote fun h => hquote ((infix_of_mem_splitOn hpiece).sublist.mem h)
  · exact nextLinkOf_of_no_bracket fun h => hbracket ((infix_of_mem_splitOn hpiece).sublist.mem h)

/-- The pieces of an entry with another relation are skipped. -/
theorem findSome_text_of_rel_ne (hrel : e.rel ≠ relationNext) : (e.text.splitOn ',').findSome? nextLinkOf = none := by
  rw [List.findSome?_eq_none_iff]
  intro piece hpiece
  unfold nextLinkOf
  exact if_neg fun h => hrel (rel_eq_of_within ((h.trans (strip_within piece)).trans (infix_of_mem_splitOn hpiece)))

theorem findSome_text (e : LinkEntry) :
    (e.text.splitOn ',').findSome? nextLinkOf = if e.rel = relationNext ∧ ',' ∉ e.uri then some e.uri else none := by
  by_cases hrel : e.rel = relationNext
  · by_cases hcomma : ',' ∈ e.uri
    · rw [findSome_text_of_comma hrel hcomma, if_neg fun h => h.2 hcomma]
    · rw [List.splitOn_eq_singleton (comma_not_mem_text hrel hcomma), List.findSome?_singleton, nextLinkOf_text hrel,
        if_pos ⟨hrel, hcomma⟩]
  · rw [findSome_text_of_rel_ne hrel, if_neg fun h => hrel h.1]

end LinkEntry

/-! ## The header -/

theorem linkHeader_cons_cons (e f : LinkEntry) (entries : List LinkEntry) :
    linkHeader (e :: f :: entries) = e.text ++ ',' :: linkHeader (f :: entries) := by
  simp only [linkHeader, List.map_cons, List.intercalate_cons_cons, List.append_assoc, List.singleton_append]

theorem linkHeader_ne_nil (e : LinkEntry) (entries : List LinkEntry) : linkHeader (e :: entries) ≠ [] := by
  intro h
  have hmem : '<' ∈ linkHeader (e :: entries) := by
    cases entries with
    | nil => simp [linkHeader, LinkEntry.text]
    | cons f entries => rw [linkHeader_cons_cons]; simp [LinkEntry.text]
  rw [h] at hmem
  cases hmem

/-- The function finds the first entry with `rel="next"` whose URI has no comma. -/
theorem parseNextLink_linkHeader (entries : List LinkEntry) :
    parseNextLink (some (linkHeader entries)) =
      (entries.find? fun e => e.rel = relationNext ∧ ',' ∉ e.uri).map LinkEntry.uri := by
  have hpieces : ∀ e entries, ((linkHeader (e :: entries)).splitOn ',').findSome? nextLinkOf =
      ((e :: entries).find? fun e => e.rel = relationNext ∧ ',' ∉ e.uri).map LinkEntry.uri := by
    intro e entries
    induction entries generalizing e with
    | nil =>
      have hone : linkHeader [e] = e.text := by simp [linkHeader]
      rw [hone, e.findSome_text, List.find?_cons]
      by_cases he : e.rel = relationNext ∧ ',' ∉ e.uri
      · simp [he]
      · simp [he]
    | cons f entries ih =>
      rw [linkHeader_cons_cons, List.splitOn_append_cons_self, List.findSome?_append, e.findSome_text, List.find?_cons, ih f]
      by_cases he : e.rel = relationNext ∧ ',' ∉ e.uri
      · simp only [if_pos he, Option.some_or, decide_eq_true he, Option.map_some]
      · simp only [if_neg he, Option.none_or, decide_eq_false he]
  cases entries with
  | nil => rfl
  | cons e entries => rw [parseNextLink, if_neg (linkHeader_ne_nil e entries), hpieces]

/-- The function finds the next page exactly if its URI has no comma. -/
theorem parseNextLink_eq_nextLink_iff (entries : List LinkEntry) :
    parseNextLink (some (linkHeader entries)) = nextLink entries ↔ ∀ uri, nextLink entries = some uri → ',' ∉ uri := by
  rw [parseNextLink_linkHeader, nextLink]
  induction entries with
  | nil => simp
  | cons e entries ih =>
    rw [List.find?_cons, List.find?_cons]
    by_cases hrel : e.rel = relationNext
    · by_cases hcomma : ',' ∈ e.uri
      · have hfound : ∀ f, entries.find? (fun e => e.rel = relationNext ∧ ',' ∉ e.uri) = some f → f.uri ≠ e.uri := by
          intro f hf heq
          have hp := List.find?_some hf
          simp only [decide_eq_true_eq] at hp
          exact hp.2 (heq ▸ hcomma)
        simpa [hrel, hcomma] using hfound
      · simp [hrel, hcomma]
    · simpa [hrel] using ih

end Aionetx
