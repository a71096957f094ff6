import Hookify.Proofs.Renderer.Locality
import Hookify.Proofs.Text.Alike
import Hookify.Proofs.Text.Continued
import Hookify.Script.Parse

namespace Hookify

open Script Text

/-!
# Addresses with a query

The data of a request that gets something becomes the query of its address.  If
the address is a string, a template takes its place, with one substitution for
the data behind the text of the string.

The text is meant to stand for the value of the string and the question mark,
and nothing else.  That is so unless the string has an escape sequence that
means something else in a template, or goes on with a line that loses blanks.
-/

namespace Script.Place

/-- A string of the script between two marks, with its value. -/
structure IsString (place : Place) (mark : Char) (body : List Char) (value : List Nat) : Prop where
  kind : place.kind = .string
  alone : place.children = []
  isMark : mark = '\x27' ∨ mark = '\x22'
  text : place.text.toList = mark :: (body ++ [mark])
  reads : (Quoting.string mark).read? 0 body = some value

namespace IsString

variable {place : Place} {mark : Char} {body : List Char} {value : List Nat}

theorem firm (isString : place.IsString mark body value) : IsFirm mark := by
  rcases isString.isMark with rfl | rfl <;> decide

/-- A string is copied as it stands. -/
theorem render_eq (isString : place.IsString mark body value) (facts : Facts)
    (this : Option String) : (Renderer.of facts this).render place = place.text := by
  have size : place.node.size = 1 := by
    rw [← place.length_walk, place.walk_eq, isString.alone]
    rfl
  have copied : Renderer.Copied facts this place := by
    refine .intro (Renderer.replacement?_of_kind (by rw [isString.kind]; rfl)) ?_
    rw [isString.alone]
    exact fun _ absent => absurd absent List.not_mem_nil
  exact copied.render_eq (by rw [size, Node.size_eq]; omega)

end IsString

end Script.Place

/-- The marks of a string are taken off. -/
theorem Text.unquoteChars_string {mark : Char} (isMark : mark = '\x27' ∨ mark = '\x22')
    (inside : List Char) : unquoteChars (mark :: (inside ++ [mark])) = inside := by
  have firm : IsFirm mark := by rcases isMark with rfl | rfl <;> decide
  have ends : Ends (mark :: (inside ++ [mark])) := (ends_singleton firm).append (mark :: inside)
  have trimmed : trimChars (mark :: (inside ++ [mark])) = mark :: (inside ++ [mark]) := by
    rw [trimChars, trimStartChars, List.dropWhile_cons_of_neg (by simp [firm.1]), ends.trimEnd_eq]
  have enclosed : enclosed? mark mark (mark :: (inside ++ [mark])) = some inside :=
    enclosed?_eq_some_iff.mpr rfl
  have found : quoteMarks.findSome? (fun other => enclosed? other other
      (mark :: (inside ++ [mark]))) = some inside := by
    rcases isMark with rfl | rfl
    · rw [quoteMarks, List.findSome?_cons, enclosed]
    · rw [quoteMarks, List.findSome?_cons, List.findSome?_cons, enclosed]
      rfl
  simp only [unquoteChars, trimmed, found, Option.getD_some]

namespace Renderer

variable {request : Request} {url data : Place} {mark : Char} {body : List Char} {value : List Nat}

/-- The address of a request with data has the value of the string and a question mark in front of
the data, exactly if no other line of the string loses blanks and no escape sequence is misread. -/
theorem fetchCall_query_iff (facts : Facts) (this : Option String)
    (isGet : request.methodText = "GET") (hasUrl : request.url = some url)
    (isString : url.IsString mark body value) (hasData : request.data = some data) :
    let renderer := Renderer.of facts this
    ∃ static, renderer.fetchCall request = "fetch(`" ++ static ++
        "$\x7bnew URLSearchParams(" ++ renderer.fragment data ++ ")\x7d`)" ∧
      (Quoting.template.read? 0 static.toList = some (value ++ ['?'.toNat]) ↔
        (∀ line ∈ (lineChars url.text.toList).tail,
          url.node.margin.chars.length = 0 ∨ indentWidth line = 0) ∧
        ∀ behind ∈ (Quoting.string mark).escapes 0 body, misread behind = false) := by
  intro renderer
  have rendered : (renderer.fragment url).toList = mark ::
      (shiftFrom url.node.margin.chars.length 0 body ++ [mark]) := by
    rw [fragment, isString.render_eq, dedentContinuation, toList_overChars, isString.text,
      dedentContinuationChars_string isString.firm]
  generalize url.node.margin.chars.length = column at rendered ⊢
  have unquoted : (unquote (renderer.fragment url)).toList = shiftFrom column 0 body := by
    rw [unquote, toList_overChars, rendered, unquoteChars_string isString.isMark]
  obtain ⟨moved, moves⟩ := exists_movesOut (Quoting.read?_eq_some_iff.mp isString.reads) column 0
  refine ⟨escapeTemplate (unquote (renderer.fragment url)) ++ "?", ?_, ?_⟩
  · simp only [fetchCall, isGet, hasUrl, hasData, queryUrl, isString.kind, Option.map_some,
      Option.getD_some, beq_self_eq_true, if_true, String.append_assoc]
    exact String.append_assoc.symm
  · rw [String.toList_append, toList_escapeTemplate, unquoted]
    have reads := read?_templateChars moves.reads
    rw [moves.misread] at reads
    rw [isString.text, ← moves.eq_iff isString.firm, show "?".toList = ['?'] from rfl, reads]
    cases isMisread : ((Quoting.string mark).escapes 0 body).any misread with
    | true =>
        obtain ⟨behind, member, wrong⟩ := List.any_eq_true.mp isMisread
        refine iff_of_false (fun none => by cases none) fun right => ?_
        rw [right.2 behind member] at wrong
        cases wrong
    | false =>
        have right := List.any_eq_false.mp isMisread
        rw [if_neg Bool.false_ne_true, Option.some.injEq, List.append_left_inj]
        exact (and_iff_left fun behind member => Bool.eq_false_iff.mpr (right behind member)).symm

/-- A search for a request that gets something from an address, with data. -/
def findsQuery (renderer : Renderer) (address query : String) : Bool :=
  renderer.facts.requests.any fun request => request.methodText == "GET" &&
    (request.url.any fun url =>
      url.kind == .string && url.children.isEmpty && url.text == address) &&
    request.data.any fun data => renderer.fragment data == query

theorem exists_of_findsQuery {renderer : Renderer} {address query : String}
    (finds : renderer.findsQuery address query = true) :
    ∃ request ∈ renderer.facts.requests, ∃ url data, request.methodText = "GET" ∧
      request.url = some url ∧ request.data = some data ∧ url.kind = .string ∧
      url.children = [] ∧ url.text = address ∧ renderer.fragment data = query := by
  obtain ⟨request, among, checks⟩ := List.any_eq_true.mp finds
  rw [Bool.and_eq_true, Bool.and_eq_true, beq_iff_eq, Option.any_eq_true,
    Option.any_eq_true] at checks
  obtain ⟨⟨isGet, url, hasUrl, isUrl⟩, data, hasData, isData⟩ := checks
  rw [Bool.and_eq_true, Bool.and_eq_true, beq_iff_eq, List.isEmpty_iff, beq_iff_eq] at isUrl
  exact ⟨request, among, url, data, isGet, hasUrl, hasData, isUrl.1.1, isUrl.1.2, isUrl.2,
    beq_iff_eq.mp isData⟩

/-- Backticks and dollar signs before braces stand for themselves in a string, and they do in the
address. -/
theorem fetchCall_query_of_marks :
    let facts := Facts.ofTree (parse "$.get('/api/$\x7bprice\x7d/`raw`', \x7b q: 1 \x7d);")
    let renderer := Renderer.of facts none
    ∃ request ∈ facts.requests, ∃ static, renderer.fetchCall request = "fetch(`" ++ static ++
        "$\x7bnew URLSearchParams(\x7b q: 1 \x7d)\x7d`)" ∧
      Quoting.template.read? 0 static.toList =
        some ("/api/$\x7bprice\x7d/`raw`?".toList.map Char.toNat) := by
  intro facts renderer
  have run : renderer.findsQuery "'/api/$\x7bprice\x7d/`raw`'" "\x7b q: 1 \x7d" = true := by
    decide +kernel
  obtain ⟨request, among, url, data, isGet, hasUrl, hasData, kind, alone, text, shown⟩ :=
    exists_of_findsQuery run
  have isString : url.IsString '\x27' "/api/$\x7bprice\x7d/`raw`".toList
      ("/api/$\x7bprice\x7d/`raw`".toList.map Char.toNat) :=
    ⟨kind, alone, .inl rfl, text ▸ by decide, by decide⟩
  obtain ⟨static, written, means⟩ :=
    fetchCall_query_iff facts none isGet hasUrl isString hasData
  have oneLine : (lineChars url.text.toList).tail = [] := text ▸ by decide
  have bare : (Quoting.string '\x27').escapes 0 "/api/$\x7bprice\x7d/`raw`".toList = [] := by decide
  rw [oneLine, bare] at means
  exact ⟨request, among, static, written.trans (by rw [shown]; simp [String.append_assoc]),
    means.mpr ⟨List.forall_mem_nil _, List.forall_mem_nil _⟩⟩

/-- A backslash before a backtick gets a second one, so that the backtick ends the template. -/
theorem not_fetchCall_query_of_escaped_mark :
    let facts := Facts.ofTree (parse "$.get('/a\\`b', \x7b q: 1 \x7d);")
    let renderer := Renderer.of facts none
    ∃ request ∈ facts.requests, ∃ url data, request.methodText = "GET" ∧
      request.url = some url ∧ request.data = some data ∧
      url.IsString '\x27' "/a\\`b".toList ("/a`b".toList.map Char.toNat) ∧
      renderer.fetchCall request =
        "fetch(`/a\\\\`b?$\x7bnew URLSearchParams(\x7b q: 1 \x7d)\x7d`)" ∧
      ¬ ∃ static, renderer.fetchCall request = "fetch(`" ++ static ++
          "$\x7bnew URLSearchParams(" ++ renderer.fragment data ++ ")\x7d`)" ∧
        Quoting.template.read? 0 static.toList = some ("/a`b?".toList.map Char.toNat) := by
  intro facts renderer
  have run : renderer.findsQuery "'/a\\`b'" "\x7b q: 1 \x7d" = true ∧
      facts.requests.map renderer.fetchCall =
        ["fetch(`/a\\\\`b?$\x7bnew URLSearchParams(\x7b q: 1 \x7d)\x7d`)"] := by
    decide +kernel
  obtain ⟨request, among, url, data, isGet, hasUrl, hasData, kind, alone, text, shown⟩ :=
    exists_of_findsQuery run.1
  have written := List.mem_singleton.mp (run.2 ▸ List.mem_map_of_mem among)
  refine ⟨request, among, url, data, isGet, hasUrl, hasData,
    ⟨kind, alone, .inl rfl, text ▸ by decide, by decide⟩, written, ?_⟩
  rintro ⟨static, same, means⟩
  have isStatic : static = "/a\\\\`b?" := by
    have cut : "fetch(`" ++ "/a\\\\`b?" ++ "$\x7bnew URLSearchParams(\x7b q: 1 \x7d)\x7d`)" =
        "fetch(`" ++ static ++ "$\x7bnew URLSearchParams(\x7b q: 1 \x7d)\x7d`)" :=
      written.symm.trans (same.trans (by rw [shown]; simp [String.append_assoc]))
    exact ((String.append_right_inj _).mp ((String.append_left_inj _).mp cut)).symm
  rw [isStatic] at means
  exact absurd means (by decide)

end Renderer

end Hookify
