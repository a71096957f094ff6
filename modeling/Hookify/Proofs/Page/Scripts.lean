import Hookify.Page.Document
import Hookify.Proofs.Identifier.Tokens
import Mathlib.Data.List.Forall2
import Mathlib.Data.List.Infix

namespace Hookify

/-!
# The scripts of a page are read back

A page with scripts in it is a text, then a script element, then more text, and
so on.  The elements are found again one by one, because none of the three
pieces can be taken for the beginning or the end of another: an opening tag that
is begun in the text between elements would have to go on with the sign of the
next tag, and a closing tag that is begun in a script would have to go on with
the sign of its own closing tag.  No letter, blank or bracket of a tag is that
sign, whatever the case of its letters.

So a page gives back the scripts that were put into it, character for
character, if no piece has a tag of its own.  What is dropped are the blank ones,
and nothing is loaded from elsewhere.
-/

namespace Text

/-! ## Words in either case -/

/-- Characters are the letters of a word, each of them in either case. -/
def Spells (word found : List Char) : Prop :=
  List.Forall₂ (fun letter c => isLetterOf letter c = true) word found

section Words

variable {word chars rest : List Char}

theorem afterWord?_eq_some_iff :
    afterWord? word chars = some rest ↔ ∃ found, Spells word found ∧ chars = found ++ rest := by
  induction word generalizing chars with
  | nil =>
      rw [afterWord?, Option.some_inj]
      constructor
      · rintro rfl
        exact ⟨[], .nil, rfl⟩
      · rintro ⟨_, ⟨⟩, rfl⟩
        rfl
  | cons letter word ih =>
      cases chars with
      | nil =>
          refine iff_of_false nofun ?_
          rintro ⟨_, ⟨⟩, same⟩
          cases same
      | cons c chars =>
          rw [afterWord?]
          constructor
          · intro found
            split at found
            · rename_i isLetter
              rcases ih.mp found with ⟨others, spelled, rfl⟩
              exact ⟨c :: others, .cons isLetter spelled, rfl⟩
            · cases found
          · rintro ⟨found, spelled, same⟩
            rcases List.forall₂_cons_left_iff.mp spelled with
              ⟨first, others, isLetter, spells, rfl⟩
            rcases List.cons.inj same with ⟨rfl, follows⟩
            rw [if_pos isLetter]
            exact ih.mpr ⟨others, spells, follows⟩

theorem Spells.not_mem {found : List Char} {c : Char} (spelled : Spells word found)
    (sign : ∀ letter ∈ word, isLetterOf letter c = false) : c ∉ found := by
  induction spelled with
  | nil => exact List.not_mem_nil
  | @cons letter first word found isLetter spelled ih =>
      intro member
      rcases List.mem_cons.mp member with rfl | later
      · rw [sign letter List.mem_cons_self] at isLetter
        cases isLetter
      · exact ih (fun other inside => sign other (List.mem_cons_of_mem letter inside)) later

theorem upTo?_append {wanted : Char → Bool} {before : List Char} {c : Char}
    (unwanted : ∀ other ∈ before, wanted other = false) (isWanted : wanted c = true) :
    upTo? wanted (before ++ c :: rest) = some (before, rest) := by
  induction before with
  | nil =>
      change upTo? wanted (c :: rest) = _
      rw [upTo?, if_pos isWanted]
  | cons first before ih =>
      rw [List.cons_append, upTo?, unwanted first List.mem_cons_self, if_neg Bool.false_ne_true,
        ih fun other inside => unwanted other (List.mem_cons_of_mem first inside)]
      rfl

theorem exists_eq_of_upTo? {wanted : Char → Bool} {before : List Char}
    (found : upTo? wanted chars = some (before, rest)) :
    ∃ c, wanted c = true ∧ (∀ other ∈ before, wanted other = false) ∧
      chars = before ++ c :: rest := by
  induction chars generalizing before with
  | nil => cases found
  | cons first chars ih =>
      rw [upTo?] at found
      split at found
      · rename_i isWanted
        cases found
        exact ⟨first, isWanted, fun _ absent => absurd absent List.not_mem_nil, rfl⟩
      · rename_i unwanted
        rcases Option.map_eq_some_iff.mp found with ⟨⟨others, behind⟩, later, same⟩
        cases same
        rcases ih later with ⟨c, isWanted, others, rfl⟩
        exact ⟨c, isWanted, List.forall_mem_cons.mpr ⟨Bool.eq_false_iff.mpr unwanted, others⟩, rfl⟩

theorem trimStartChars_append {blanks : List Char} {c : Char} (blank : isBlankChars blanks = true)
    (filled : isBlank c = false) : trimStartChars (blanks ++ c :: rest) = c :: rest := by
  rw [trimStartChars, List.dropWhile_append_of_pos (List.all_eq_true.mp blank),
    List.dropWhile_cons_of_neg (ne_true_of_eq_false filled)]

theorem isBlank_of_isQuote {c : Char} (quote : Page.isQuote c = true) : isBlank c = false := by
  rw [Page.isQuote, Bool.or_eq_true, beq_iff_eq, beq_iff_eq] at quote
  rcases quote with rfl | rfl <;> rfl

/-- No blank is part of a word. -/
theorem isWordChar_of_isBlank {c : Char} (blank : isBlank c = true) : isWordChar c = false := by
  have listed : ∀ code ∈ Identifier.blankCodes, isWordChar (Char.ofNat code) = false := by
    decide +kernel
  have same := listed c.toNat (Identifier.mem_blankCodes blank)
  rwa [Char.ofNat_toNat] at same

end Words

end Text

namespace Page

open Text

/-! ## Tags and attributes -/

/-- The beginning of an opening tag: its sign and its name, in either case. -/
def IsOpening (name tag : List Char) : Prop :=
  ∃ word, Spells name word ∧ tag = '<' :: word

/-- A closing tag. Blanks may stand behind its name. -/
def IsClosing (name tag : List Char) : Prop :=
  ∃ word blanks, Spells name word ∧ isBlankChars blanks = true ∧
    tag = '<' :: '/' :: (word ++ blanks ++ ['>'])

/-- An attribute with a value between quotes. -/
def IsAttribute (name found : List Char) : Prop :=
  ∃ word before after first value last, Spells name word ∧ isBlankChars before = true ∧
    isBlankChars after = true ∧ isQuote first = true ∧ (∀ c ∈ value, isQuote c = false) ∧
    isQuote last = true ∧
    found = word ++ before ++ '=' :: (after ++ first :: (value ++ [last]))

/-- Nothing of a certain form occurs in a text. -/
def Lacks (form : List Char → Prop) (chars : List Char) : Prop :=
  ∀ found, form found → ¬ found <:+: chars

/-- The attributes of a tag give a value to one of the given name, where a word begins. -/
def HasAttribute (name attributes : List Char) : Prop :=
  ∃ before found after, attributes = before ++ found ++ after ∧
    (∀ c ∈ before.getLast?, isWordChar c = false) ∧ IsAttribute name found

section Tags

variable {form : List Char → Prop} {name chars text rest tag behind attributes : List Char}

theorem Lacks.within (lacks : Lacks form chars) (inside : text <:+: chars) : Lacks form text :=
  fun found isFound occurs => lacks found isFound (occurs.trans inside)

/-- What goes on into another text has the first character of that one inside. -/
theorem prefix_of_append_eq {c : Char} (same : text ++ c :: rest = tag ++ behind)
    (filled : text ≠ []) (absent : c ∉ tag.tail) : tag <+: text := by
  rcases List.append_eq_append_iff.mp same with ⟨more, rfl, follows⟩ | ⟨more, rfl, _⟩
  · cases more with
    | nil => exact ⟨[], by rw [List.append_nil, List.append_nil]⟩
    | cons first others =>
        rcases List.cons.inj follows with ⟨rfl, _⟩
        rw [List.tail_append_of_ne_nil filled] at absent
        exact absurd (List.mem_append_right _ List.mem_cons_self) absent
  · exact List.prefix_append tag more

/-- A form whose first character is found nowhere else in it cannot be begun before a text that
starts with that character. -/
theorem Lacks.not_of_append_eq {c : Char} (lacks : Lacks form text) (filled : text ≠ [])
    (once : ∀ found, form found → c ∉ found.tail) (isTag : form tag) :
    text ++ c :: rest ≠ tag ++ behind :=
  fun same => lacks tag isTag (prefix_of_append_eq same filled (once tag isTag)).isInfix

theorem IsOpening.sign_not_mem (sign : ∀ letter ∈ name, isLetterOf letter '<' = false)
    (opens : IsOpening name tag) : '<' ∉ tag.tail := by
  rcases opens with ⟨word, spelled, rfl⟩
  exact spelled.not_mem sign

theorem exists_opening_of_element? {found : Element × List Char}
    (isFound : element? name chars = some found) :
    ∃ tag behind, IsOpening name tag ∧ chars = tag ++ behind := by
  rw [element?] at isFound
  split at isFound
  · rename_i attributes inside opened
    rw [opening?.eq_def] at opened
    split at opened
    · split at opened
      · rename_i behind spelled
        rcases afterWord?_eq_some_iff.mp spelled with ⟨word, spells, rfl⟩
        exact ⟨'<' :: word, behind, ⟨word, spells, rfl⟩, rfl⟩
      · cases opened
    · cases opened
  · cases isFound

theorem IsClosing.sign_not_mem (sign : ∀ letter ∈ name, isLetterOf letter '<' = false)
    (closes : IsClosing name tag) : '<' ∉ tag.tail := by
  rcases closes with ⟨word, blanks, spelled, blank, rfl⟩
  simp only [List.tail_cons, List.mem_cons, List.mem_append, List.not_mem_nil, or_false, not_or]
  refine ⟨by decide, ⟨spelled.not_mem sign, fun member => ?_⟩, by decide⟩
  exact absurd (List.all_eq_true.mp blank '<' member) (by decide)

theorem closing?_eq_some_iff :
    closing? name chars = some behind ↔ ∃ tag, IsClosing name tag ∧ chars = tag ++ behind := by
  constructor
  · intro found
    rw [closing?.eq_def] at found
    split at found
    · rename_i rest
      split at found
      · rename_i others trimmed
        cases found
        rcases Option.map_eq_some_iff.mp trimmed with ⟨left, spelled, opened⟩
        rcases afterWord?_eq_some_iff.mp spelled with ⟨word, spells, rfl⟩
        have split := List.takeWhile_append_dropWhile (p := isBlank) (l := left)
        rw [← trimStartChars, opened] at split
        refine ⟨_, ⟨word, left.takeWhile isBlank, spells, List.all_takeWhile, rfl⟩, ?_⟩
        conv_lhs => rw [← split]
        simp
      · cases found
    · cases found
  · rintro ⟨_, ⟨word, blanks, spells, blank, rfl⟩, rfl⟩
    have spelled : afterWord? name (word ++ (blanks ++ '>' :: behind)) = some _ :=
      afterWord?_eq_some_iff.mpr ⟨word, spells, rfl⟩
    have trimmed : trimStartChars (blanks ++ '>' :: behind) = '>' :: behind :=
      trimStartChars_append blank (by decide)
    simp only [List.cons_append, List.append_assoc, List.nil_append, closing?, spelled,
      Option.map_some, trimmed]

theorem isSome_valueAt?_iff :
    (valueAt? name chars).isSome ↔
      ∃ entry after, IsAttribute name entry ∧ chars = entry ++ after := by
  constructor
  · intro isSome
    rcases Option.isSome_iff_exists.mp isSome with ⟨value, found⟩
    rw [valueAt?] at found
    split at found
    · rename_i behind trimmed
      rcases Option.map_eq_some_iff.mp trimmed with ⟨left, spelled, opened⟩
      rcases afterWord?_eq_some_iff.mp spelled with ⟨word, spells, rfl⟩
      split at found
      · rename_i first inside start
        split at found
        · rename_i isFirst
          rcases Option.map_eq_some_iff.mp found with ⟨⟨_, after⟩, closed, rfl⟩
          rcases exists_eq_of_upTo? closed with ⟨last, isLast, within, rfl⟩
          have split := List.takeWhile_append_dropWhile (p := isBlank) (l := left)
          have splitBehind := List.takeWhile_append_dropWhile (p := isBlank) (l := behind)
          rw [← trimStartChars, opened] at split
          rw [← trimStartChars, start] at splitBehind
          refine ⟨_, after, ⟨word, left.takeWhile isBlank, behind.takeWhile isBlank, first, _,
            last, spells, List.all_takeWhile, List.all_takeWhile, isFirst, within, isLast, rfl⟩, ?_⟩
          conv_lhs => rw [← split, ← splitBehind]
          simp
        · cases found
      · cases found
    · cases found
  · rintro ⟨_, rest, ⟨word, before, after, first, value, last, spells, blank, blankAfter, isFirst,
      within, isLast, rfl⟩, rfl⟩
    have spelled : afterWord? name (word ++ (before ++
        '=' :: (after ++ first :: (value ++ last :: rest)))) = some _ :=
      afterWord?_eq_some_iff.mpr ⟨word, spells, rfl⟩
    have trimmed : trimStartChars (before ++ '=' :: (after ++ first :: (value ++ last :: rest))) =
        '=' :: (after ++ first :: (value ++ last :: rest)) :=
      trimStartChars_append blank (by decide)
    have start : trimStartChars (after ++ first :: (value ++ last :: rest)) =
        first :: (value ++ last :: rest) :=
      trimStartChars_append blankAfter (isBlank_of_isQuote isFirst)
    have closed : upTo? isQuote (value ++ last :: rest) = some (value, rest) :=
      upTo?_append within isLast
    simp only [List.cons_append, List.append_assoc, List.nil_append, valueAt?, spelled,
      Option.map_some, trimmed, start, isFirst, closed, if_true, Option.isSome_some]

theorem IsAttribute.ne_nil (isAttribute : IsAttribute name chars) : chars ≠ [] := by
  rcases isAttribute with ⟨word, before, _, _, _, _, _, _, _, _, _, _, rfl⟩
  exact List.append_ne_nil_of_right_ne_nil (word ++ before) (List.cons_ne_nil _ _)

/-- What an attribute stands behind decides whether it begins a word; where nothing does, it is
known from before. -/
theorem isSome_findValue?_iff {inWord : Bool} :
    (findValue? name (fun _ => true) inWord chars).isSome ↔
      ∃ before entry after, chars = before ++ entry ++ after ∧
        before.getLast?.elim inWord isWordChar = false ∧ IsAttribute name entry := by
  induction chars generalizing inWord with
  | nil =>
      refine iff_of_false nofun ?_
      rintro ⟨before, entry, after, same, _, isAttribute⟩
      have empty := List.append_eq_nil_iff.mp (List.append_eq_nil_iff.mp same.symm).1
      exact isAttribute.ne_nil empty.2
  | cons c rest ih =>
      have step : (findValue? name (fun _ => true) inWord (c :: rest)).isSome ↔
          (inWord = false ∧ (valueAt? name (c :: rest)).isSome) ∨
            (findValue? name (fun _ => true) (isWordChar c) rest).isSome := by
        rw [findValue?]
        cases inWord <;> cases valueAt? name (c :: rest) <;> simp [Option.filter]
      have last (before : List Char) : (c :: before).getLast?.elim inWord isWordChar =
          before.getLast?.elim (isWordChar c) isWordChar := by
        rw [List.getLast?_cons]
        cases before.getLast? <;> rfl
      rw [step, isSome_valueAt?_iff, ih]
      constructor
      · rintro (⟨outside, entry, after, isAttribute, same⟩ | ⟨before, entry, after, rfl, rest⟩)
        · exact ⟨[], entry, after, same, outside, isAttribute⟩
        · exact ⟨c :: before, entry, after, rfl, (last before).trans rest.1, rest.2⟩
      · rintro ⟨before, entry, after, same, boundary, isAttribute⟩
        cases before with
        | nil => exact .inl ⟨boundary, entry, after, isAttribute, same⟩
        | cons first before =>
            rcases List.cons.inj same with ⟨rfl, rfl⟩
            exact .inr ⟨before, entry, after, rfl, (last before).symm.trans boundary, isAttribute⟩

theorem hasAttribute_iff :
    HasAttribute name attributes ↔ (findValue? name (fun _ => true) false attributes).isSome := by
  have outside (before : List Char) : before.getLast?.elim false isWordChar = false ↔
      ∀ c ∈ before.getLast?, isWordChar c = false := by
    cases before.getLast? <;> simp
  simp only [HasAttribute, isSome_findValue?_iff, outside]

theorem value?_eq_none {name : String} (lacks : ¬ HasAttribute name.toList attributes) :
    value? name attributes = none :=
  Option.not_isSome_iff_eq_none.mp (hasAttribute_iff.not.mp lacks)

/-- A text lacks a form if no place of it can be read as one. -/
theorem lacks_iff {Found : Type} {read? : List Char → Option Found}
    (reads : ∀ rest, (read? rest).isSome ↔ ∃ found behind, form found ∧ rest = found ++ behind) :
    Lacks form chars ↔ ∀ rest ∈ chars.tails, read? rest = none := by
  constructor
  · intro lacks rest member
    refine Option.not_isSome_iff_eq_none.mp fun isSome => ?_
    rcases (reads rest).mp isSome with ⟨found, behind, isFound, rfl⟩
    exact lacks found isFound (List.infix_iff_prefix_suffix.mpr
      ⟨_, List.prefix_append found behind, (List.mem_tails _ _).mp member⟩)
  · intro unread found isFound inside
    rcases List.infix_iff_prefix_suffix.mp inside with ⟨_, ⟨behind, rfl⟩, isSuffix⟩
    have isSome := (reads _).mpr ⟨found, behind, isFound, rfl⟩
    rw [unread _ ((List.mem_tails _ _).mpr isSuffix)] at isSome
    cases isSome

/-- What follows the name of an opening tag that begins here. -/
def begun? (name : List Char) : List Char → Option (List Char)
  | '<' :: rest => afterWord? name rest
  | _ => none

theorem begun?_eq_some_iff :
    begun? name chars = some behind ↔ ∃ tag, IsOpening name tag ∧ chars = tag ++ behind := by
  constructor
  · intro found
    rw [begun?.eq_def] at found
    split at found
    · rcases afterWord?_eq_some_iff.mp found with ⟨word, spells, rfl⟩
      exact ⟨'<' :: word, ⟨word, spells, rfl⟩, rfl⟩
    · cases found
  · rintro ⟨_, ⟨word, spells, rfl⟩, rfl⟩
    exact afterWord?_eq_some_iff.mpr ⟨word, spells, rfl⟩

instance : Decidable (Lacks (IsOpening name) chars) :=
  decidable_of_iff (∀ rest ∈ chars.tails, begun? name rest = none)
    (lacks_iff fun rest => by
      simp only [Option.isSome_iff_exists, begun?_eq_some_iff]
      exact exists_comm).symm

instance : Decidable (Lacks (IsClosing name) chars) :=
  decidable_of_iff (∀ rest ∈ chars.tails, closing? name rest = none)
    (lacks_iff fun rest => by
      simp only [Option.isSome_iff_exists, closing?_eq_some_iff]
      exact exists_comm).symm

instance : Decidable (HasAttribute name attributes) :=
  decidable_of_iff _ hasAttribute_iff.symm

end Tags

/-! ## Searching -/

section Search

variable {Found : Type} {read? : List Char → Option (Found × List Char)} {found : Found}
  {front taken rest behind : List Char}

theorem findAll_append_of_none
    (unread : ∀ text, text ≠ [] → text <:+ front → read? (text ++ rest) = none) :
    findAll read? (front ++ rest) = findAll read? rest := by
  induction front with
  | nil => rfl
  | cons c front ih =>
      have here := unread (c :: front) (List.cons_ne_nil c front) List.suffix_rfl
      rw [List.cons_append] at here ⊢
      rw [findAll, findAllFrom, here]
      exact ih fun text filled inside =>
        unread text filled (inside.trans (List.suffix_cons c front))

theorem findAllFrom_append (taken rest : List Char) :
    findAllFrom read? taken.length (taken ++ rest) = findAll read? rest := by
  induction taken with
  | nil => rfl
  | cons c taken ih => exact ih

theorem findAll_append_of_some (filled : taken ≠ [])
    (here : read? (taken ++ behind) = some (found, behind)) :
    findAll read? (taken ++ behind) = found :: findAll read? behind := by
  cases taken with
  | nil => exact absurd rfl filled
  | cons c taken =>
      rw [List.cons_append] at here ⊢
      rw [findAll, findAllFrom, here]
      dsimp only
      rw [List.length_append, Nat.add_sub_cancel, findAllFrom_append]

end Search

/-! ## Pages made of scripts -/

/-- The name of the tags around a script. -/
def scriptName : List Char := "script".toList

/-- How a script begins; its attributes follow. -/
def scriptStart : List Char := "<script".toList

/-- How a script ends. -/
def scriptEnd : List Char := "</script>".toList

/-- A script as it is put into a page, and what stands behind it up to the next one. -/
structure ScriptBlock where
  attributes : List Char
  body : List Char
  behind : List Char

namespace ScriptBlock

/-- The element of a script. -/
def element (block : ScriptBlock) : Element :=
  ⟨block.attributes, block.body⟩

/-- A script between its tags. -/
def tagged (block : ScriptBlock) : List Char :=
  scriptStart ++ (block.attributes ++ '>' :: (block.body ++ scriptEnd))

/-- A script in a page with the text behind it. -/
def text (block : ScriptBlock) : List Char :=
  block.tagged ++ block.behind

/-- The script is written in the page, and none of its pieces has a tag of its own. -/
structure IsInline (block : ScriptBlock) : Prop where
  apart : ∀ c ∈ block.attributes.head?, isBlank c = true
  inTag : '>' ∉ block.attributes
  noSource : ¬ HasAttribute "src".toList block.attributes
  noType : ¬ HasAttribute "type".toList block.attributes
  unclosed : Lacks (IsClosing scriptName) block.body
  unopened : Lacks (IsOpening scriptName) block.behind

end ScriptBlock

/-- A text with scripts behind it. -/
def pageText (front : List Char) (blocks : List ScriptBlock) : String :=
  String.ofList (front ++ blocks.flatMap ScriptBlock.text)

section Pages

variable {front rest : List Char} {block : ScriptBlock} {blocks : List ScriptBlock}

theorem sign_not_letter : ∀ letter ∈ scriptName, isLetterOf letter '<' = false := by
  intro letter member
  have none : scriptName.all (fun letter => ! isLetterOf letter '<') = true := by decide
  exact (Bool.not_eq_true' _).mp (List.all_eq_true.mp none letter member)

/-- No element begins in a text without an opening tag, if the text ends or a tag follows. -/
theorem element?_eq_none (lacks : Lacks (IsOpening scriptName) front) (filled : front ≠ [])
    (follows : rest = [] ∨ rest.head? = some '<') :
    element? scriptName (front ++ rest) = none := by
  cases found : element? scriptName (front ++ rest) with
  | none => rfl
  | some element =>
      rcases exists_opening_of_element? found with ⟨tag, behind, opens, same⟩
      exfalso
      rcases follows with rfl | sign
      · rw [List.append_nil] at same
        exact lacks tag opens (same ▸ (List.prefix_append tag behind).isInfix)
      · rcases List.head?_eq_some_iff.mp sign with ⟨others, rfl⟩
        exact lacks.not_of_append_eq filled
          (fun _ => IsOpening.sign_not_mem sign_not_letter) opens same

theorem scriptName_eq : scriptName = ['s', 'c', 'r', 'i', 'p', 't'] := by
  decide

theorem afterWord?_scriptName : afterWord? scriptName (scriptName ++ rest) = some rest := by
  simp [scriptName_eq, afterWord?, isLetterOf, asciiLowerChar]

theorem closing?_scriptEnd : closing? scriptName (scriptEnd ++ rest) = some rest := by
  have letters : scriptEnd = ['<', '/', 's', 'c', 'r', 'i', 'p', 't', '>'] := by decide
  simp [scriptName_eq, letters, closing?, afterWord?, isLetterOf, asciiLowerChar,
    trimStartChars, isBlank]

theorem untilClosing?_of_closing? {name chars : List Char}
    (ends : closing? name chars = some rest) : untilClosing? name chars = some ([], rest) := by
  cases chars with
  | nil => cases ends
  | cons c chars => rw [untilClosing?, ends]

/-- A script ends at its own closing tag. -/
theorem untilClosing?_append {body : List Char} (lacks : Lacks (IsClosing scriptName) body) :
    untilClosing? scriptName (body ++ (scriptEnd ++ rest)) = some (body, rest) := by
  induction body with
  | nil =>
      exact untilClosing?_of_closing? closing?_scriptEnd
  | cons c body ih =>
      have open_ : closing? scriptName (c :: (body ++ (scriptEnd ++ rest))) = none := by
        cases found : closing? scriptName (c :: (body ++ (scriptEnd ++ rest))) with
        | none => rfl
        | some behind =>
            rcases closing?_eq_some_iff.mp found with ⟨tag, closes, same⟩
            exact absurd same (lacks.not_of_append_eq (List.cons_ne_nil c body)
              (fun _ => IsClosing.sign_not_mem sign_not_letter) closes)
      rw [List.cons_append, untilClosing?, open_]
      dsimp only
      rw [ih (lacks.within (List.suffix_cons c body).isInfix)]
      rfl

theorem ScriptBlock.tagged_append (block : ScriptBlock) (rest : List Char) :
    block.tagged ++ rest = '<' :: (scriptName ++ (block.attributes ++
      '>' :: (block.body ++ (scriptEnd ++ rest)))) := by
  have sign : scriptStart = '<' :: scriptName := by decide
  simp only [ScriptBlock.tagged, sign, List.cons_append, List.append_assoc]

theorem element?_tagged (inline : block.IsInline) :
    element? scriptName (block.tagged ++ rest) = some (block.element, rest) := by
  have ends : continuesWord (block.attributes ++
      '>' :: (block.body ++ (scriptEnd ++ rest))) = false := by
    cases shape : block.attributes with
    | nil => rfl
    | cons c others => exact isWordChar_of_isBlank (inline.apart c (by rw [shape]; rfl))
  have opened : opening? scriptName (block.tagged ++ rest) =
      some (block.attributes, block.body ++ (scriptEnd ++ rest)) := by
    have named : afterWord? scriptName (scriptName ++ (block.attributes ++
          '>' :: (block.body ++ (scriptEnd ++ rest)))) =
        some (block.attributes ++ '>' :: (block.body ++ (scriptEnd ++ rest))) :=
      afterWord?_scriptName
    rw [ScriptBlock.tagged_append, opening?, named]
    dsimp only
    rw [ends, if_neg Bool.false_ne_true]
    refine upTo?_append (fun c member => ?_) (beq_self_eq_true _)
    rw [beq_eq_false_iff_ne]
    rintro rfl
    exact inline.inTag member
  rw [element?, opened]
  dsimp only
  rw [untilClosing?_append inline.unclosed]
  rfl

theorem findAll_blocks (lacks : Lacks (IsOpening scriptName) front)
    (inline : ∀ block ∈ blocks, block.IsInline) :
    findAll (element? scriptName) (front ++ blocks.flatMap ScriptBlock.text) =
      blocks.map ScriptBlock.element := by
  induction blocks generalizing front with
  | nil =>
      refine (findAll_append_of_none fun text filled inside => ?_).trans rfl
      exact element?_eq_none (lacks.within inside.isInfix) filled (.inl rfl)
  | cons block blocks ih =>
      rcases List.forall_mem_cons.mp inline with ⟨first, others⟩
      have sign (rest : List Char) : (block.tagged ++ rest).head? = some '<' := by
        rw [ScriptBlock.tagged_append, List.head?_cons]
      have filled : block.tagged ≠ [] := fun empty => by
        cases (congrArg List.head? empty).symm.trans (List.append_nil block.tagged ▸ sign [])
      rw [List.flatMap_cons, ScriptBlock.text, List.append_assoc]
      rw [findAll_append_of_none fun text filled inside =>
          element?_eq_none (lacks.within inside.isInfix) filled (.inr (sign _)),
        findAll_append_of_some filled (element?_tagged first), ih first.unopened others]
      rfl

/-- Of a page that is made of texts and scripts, exactly the scripts that are not blank are found,
in their order and as they were put in, and none of them is loaded from elsewhere.  The script of
the document is what they are with line ends between them. -/
theorem scripts_read_back (lacks : Lacks (IsOpening scriptName) front)
    (inline : ∀ block ∈ blocks, block.IsInline) :
    let page := pageText front blocks
    let scripts := (blocks.filter fun block => ! isBlankChars block.body).map fun block =>
      String.ofList block.body
    inlineScripts page = scripts ∧ scriptSources page = [] ∧
      ∀ path, DocumentKind.of path = .page →
        (Document.new page path).script = String.intercalate "\n" scripts := by
  intro page scripts
  have elements : scriptElements page = blocks.map ScriptBlock.element := by
    rw [scriptElements, show page.toList = _ from String.toList_ofList]
    exact findAll_blocks lacks inline
  have noSource : ∀ block ∈ blocks, value? "src" block.attributes = none :=
    fun block member => value?_eq_none (inline block member).noSource
  have noType : ∀ block ∈ blocks, value? "type" block.attributes = none :=
    fun block member => value?_eq_none (inline block member).noType
  have found : inlineScripts page = scripts := by
    rw [inlineScripts, elements, List.filter_map, List.map_map]
    refine congrArg (List.map _) (List.filter_congr fun block member => ?_)
    simp [ScriptBlock.element, isExternal, isRunnable, noSource block member, noType block member]
  refine ⟨found, ?_, fun path isPage => ?_⟩
  · rw [scriptSources, elements, List.filterMap_map, List.filterMap_eq_nil_iff]
    intro block member
    simp [ScriptBlock.element, noSource block member]
  · rw [Document.script, show (Document.new page path).kind = .page from isPage, ← found]
    rfl

/-- Tags that are only begun in the text or in a script change nothing, nor do addresses without
quotes. -/
theorem scripts_read_back_begun_tags :
    let front := "<html><scrip".toList
    let blocks : List ScriptBlock :=
      [⟨" defer src=main.js".toList, "write('</script' + '>');".toList, "\n<".toList⟩,
        ⟨[], " \n".toList, "<Scrip t>".toList⟩,
        ⟨"\tdata-type=x".toList, "next('</scripts>');</SCRIP".toList, "</body>".toList⟩]
    Lacks (IsOpening scriptName) front ∧ (∀ block ∈ blocks, block.IsInline) ∧
      inlineScripts (pageText front blocks) =
        ["write('</script' + '>');", "next('</scripts>');</SCRIP"] ∧
      (Document.new (pageText front blocks) ⟨"index.HTML"⟩).script =
        "write('</script' + '>');\nnext('</scripts>');</SCRIP" := by
  intro front blocks
  have lacks : Lacks (IsOpening scriptName) front := by decide +kernel
  have inline : ∀ block ∈ blocks, block.IsInline := by
    simp only [blocks, List.forall_mem_cons]
    refine ⟨?first, ?blank, ?last, fun _ absent => absurd absent List.not_mem_nil⟩
    all_goals
      refine ⟨(Option.all_eq_true _ _).mp ?_, ?_, ?_, ?_, ?_, ?_⟩
      all_goals decide +kernel
  obtain ⟨found, _, joined⟩ := scripts_read_back lacks inline
  exact ⟨lacks, inline, found.trans (by decide +kernel),
    (joined ⟨"index.HTML"⟩ (by decide +kernel)).trans (by decide +kernel)⟩

end Pages

end Page
end Hookify
