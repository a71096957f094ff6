import Hookify.Proofs.Identifier.Form
import Mathlib.Data.Set.Operations

namespace Hookify
namespace Identifier

open Text

/-!
# Which names are derived

A key is a small letter with letters and digits behind it, and then any number
of parts of letters and digits behind underscores.  Keys are all that is derived
from selectors, and a name of that form is its own key: its parts are the runs
that it is taken apart into, and they are joined to the same name again.

The names that are made from keys are identifiers of a script.  None of them is
a word of the language, since all of these are written in small letters, and a
derived name has a capital letter: the first one of its suffix, or that of a
part in Pascal case.
-/

/-! ## Runs -/

section Runs

variable {keep : Char → Bool} {run chars : List Char}

/-- Wanted characters go on with the run. -/
theorem runsFrom_append (kept : ∀ c ∈ run, keep c = true) (rest : List Char) :
    ∀ current,
      runsFrom keep current (run ++ rest) = runsFrom keep (run.reverse ++ current) rest := by
  induction run with
  | nil =>
      intro current
      rfl
  | cons c others ih =>
      intro current
      obtain ⟨first, later⟩ := List.forall_mem_cons.mp kept
      rw [List.cons_append, runsFrom, if_pos first, ih later, List.reverse_cons, List.append_assoc,
        List.singleton_append]

/-- Wanted characters alone are one run. -/
theorem runs_single (kept : ∀ c ∈ run, keep c = true) (some : run ≠ []) :
    runs keep run = [run] := by
  have read := runsFrom_append kept [] []
  rw [List.append_nil, List.append_nil, runsFrom, List.reverse_reverse] at read
  rw [runs, read, if_neg]
  rw [List.isEmpty_iff, List.reverse_eq_nil_iff]
  exact some

/-- A run ends at a character that is not wanted. -/
theorem runs_append_cons (kept : ∀ c ∈ run, keep c = true) (some : run ≠ []) {c : Char}
    (unwanted : keep c = false) (rest : List Char) :
    runs keep (run ++ c :: rest) = run :: runs keep rest := by
  rw [runs, runsFrom_append kept, List.append_nil, runsFrom, unwanted, if_neg Bool.false_ne_true,
    if_neg, List.reverse_reverse, runs]
  rw [List.isEmpty_iff, List.reverse_eq_nil_iff]
  exact some

/-- No run is empty. -/
theorem ne_nil_of_mem_runsFrom :
    ∀ current, run ∈ runsFrom keep current chars → run ≠ [] := by
  have turned : ∀ {current : List Char}, ¬ current.isEmpty = true → current.reverse ≠ [] :=
    fun filled empty => filled (List.isEmpty_iff.mpr (List.reverse_eq_nil_iff.mp empty))
  induction chars with
  | nil =>
      intro current member
      rw [runsFrom] at member
      split at member
      · exact absurd member List.not_mem_nil
      · rename_i filled
        exact List.mem_singleton.mp member ▸ turned filled
  | cons c rest ih =>
      intro current member
      rw [runsFrom] at member
      split at member
      · exact ih (c :: current) member
      · split at member
        · exact ih [] member
        · rename_i filled
          rcases List.mem_cons.mp member with rfl | later
          · exact turned filled
          · exact ih [] later

theorem mem_runs (member : run ∈ runs keep chars) : run ≠ [] ∧ ∀ c ∈ run, keep c = true := by
  refine ⟨ne_nil_of_mem_runsFrom [] member, fun c inside => ?_⟩
  have flat : c ∈ (runs keep chars).flatten := List.mem_flatten.mpr ⟨run, member, inside⟩
  rw [flatten_runs] at flat
  exact (List.mem_filter.mp flat).2

end Runs

/-! ## Keys -/

def isSmallLetter (c : Char) : Bool :=
  'a' ≤ c && c ≤ 'z'

def isCapitalLetter (c : Char) : Bool :=
  'A' ≤ c && c ≤ 'Z'

/-- Words that are not empty. -/
def AreWords (parts : List (List Char)) : Prop :=
  ∀ part ∈ parts, part ≠ [] ∧ IsWord part

/-- The form of a key: `[a-z][A-Za-z0-9]*(_[A-Za-z0-9]+)*`. -/
def IsKey (name : List Char) : Prop :=
  ∃ first rest parts, isSmallLetter first = true ∧ IsWord rest ∧ AreWords parts ∧
    name = first :: rest ++ parts.flatMap ('_' :: ·)

section Keys

variable {name : List Char} {c : Char}

theorem isAsciiLetter_eq (c : Char) :
    isAsciiLetter c = (isSmallLetter c || isCapitalLetter c) := rfl

theorem isAsciiDigit_eq_false_of_small (small : isSmallLetter c = true) :
    isAsciiDigit c = false := by
  rw [← Bool.not_eq_true]
  intro digit
  have noLetter := isAsciiLetter_eq_false_of_digit digit
  rw [isAsciiLetter_eq, small, Bool.true_or] at noLetter
  cases noLetter

theorem isAsciiLetter_of_not_digit (word : isAsciiAlphanumeric c = true)
    (noDigit : ¬ isAsciiDigit c = true) : isAsciiLetter c = true := by
  rw [isAsciiAlphanumeric, Bool.or_eq_true] at word
  exact word.resolve_right noDigit

theorem isSmallLetter_lower (letter : isAsciiLetter c = true) :
    isSmallLetter (asciiLowerChar c) = true := by
  rw [isAsciiLetter_iff] at letter
  have code := toNat_asciiLowerChar c
  simp only [isSmallLetter, Bool.and_eq_true, decide_eq_true_eq, char_le_iff]
  change 97 ≤ _ ∧ _ ≤ 122
  split at code <;> omega

theorem isCapitalLetter_upper (letter : isAsciiLetter c = true) :
    isCapitalLetter (asciiUpperChar c) = true := by
  rw [isAsciiLetter_iff] at letter
  have code := toNat_asciiUpperChar c
  simp only [isCapitalLetter, Bool.and_eq_true, decide_eq_true_eq, char_le_iff]
  change 65 ≤ _ ∧ _ ≤ 90
  split at code <;> omega

theorem asciiLowerChar_of_small (small : isSmallLetter c = true) : asciiLowerChar c = c := by
  simp only [isSmallLetter, Bool.and_eq_true, decide_eq_true_eq, char_le_iff] at small
  have noCapital : ¬ ('A' ≤ c && c ≤ 'Z') = true := by
    simp only [Bool.and_eq_true, decide_eq_true_eq, char_le_iff]
    change ¬ (65 ≤ _ ∧ _ ≤ 90)
    have low : 97 ≤ c.toNat := small.1
    omega
  rw [asciiLowerChar, if_neg noCapital]

theorem joinUnderscore_cons (first : List Char) (rest : List (List Char)) :
    joinUnderscore (first :: rest) = first ++ rest.flatMap ('_' :: ·) := by
  induction rest generalizing first with
  | nil => simp [joinUnderscore]
  | cons next later ih => rw [joinUnderscore, ih, List.flatMap_cons, List.cons_append]

/-- Words that are joined are found again. -/
theorem asciiRuns_joinUnderscore {parts : List (List Char)} (areWords : AreWords parts) :
    asciiRuns (joinUnderscore parts) = parts := by
  induction parts with
  | nil => rfl
  | cons first rest ih =>
      obtain ⟨⟨some, isWord⟩, later⟩ := List.forall_mem_cons.mp areWords
      cases rest with
      | nil => exact runs_single isWord some
      | cons next others =>
          rw [joinUnderscore, asciiRuns, runs_append_cons isWord some rfl, ← asciiRuns, ih later]

theorem areWords_asciiRuns (chars : List Char) : AreWords (asciiRuns chars) :=
  fun _ member => mem_runs member

theorem isKey_selectorKeyChars (selector : List Char) : IsKey (selectorKeyChars selector) := by
  have areWords := areWords_asciiRuns selector
  rw [selectorKeyChars]
  cases runs : asciiRuns selector with
  | nil => exact ⟨'e', "lement".toList, [], rfl, by decide, by simp [AreWords], rfl⟩
  | cons run others =>
      rw [runs] at areWords
      obtain ⟨⟨some, isWord⟩, later⟩ := List.forall_mem_cons.mp areWords
      cases run with
      | nil => exact absurd rfl some
      | cons first rest =>
          obtain ⟨own, isRest⟩ := List.forall_mem_cons.mp isWord
          rw [joinUnderscore_cons, List.cons_append]
          dsimp only
          split
          · exact ⟨'e', ['l'], (first :: rest) :: others, rfl, by decide, areWords, by simp⟩
          · rename_i noDigit
            have letter := isAsciiLetter_of_not_digit own noDigit
            exact ⟨_, rest, others, isSmallLetter_lower letter, isRest, later, rfl⟩

/-- The parts of a key are the words that it is taken apart into. -/
theorem exists_asciiRuns_of_isKey (isKey : IsKey name) : ∃ first rest parts,
    isSmallLetter first = true ∧ asciiRuns name = (first :: rest) :: parts ∧
      name = first :: rest ++ parts.flatMap ('_' :: ·) := by
  obtain ⟨first, rest, parts, small, isWord, areWords, rfl⟩ := isKey
  have own : isAsciiAlphanumeric first = true := by
    rw [isAsciiAlphanumeric, isAsciiLetter_eq, small, Bool.true_or, Bool.true_or]
  have all : AreWords ((first :: rest) :: parts) :=
    List.forall_mem_cons.mpr ⟨⟨List.cons_ne_nil _ _, List.forall_mem_cons.mpr ⟨own, isWord⟩⟩,
      areWords⟩
  refine ⟨first, rest, parts, small, ?_, rfl⟩
  rw [← joinUnderscore_cons, asciiRuns_joinUnderscore all]

theorem selectorKeyChars_of_isKey (isKey : IsKey name) : selectorKeyChars name = name := by
  obtain ⟨first, rest, parts, small, runs, rfl⟩ := exists_asciiRuns_of_isKey isKey
  rw [selectorKeyChars, runs, joinUnderscore_cons]
  simp only [List.cons_append]
  rw [isAsciiDigit_eq_false_of_small small, if_neg Bool.false_ne_true,
    asciiLowerChar_of_small small]

theorem selectorKeyChars_eq_self_iff : selectorKeyChars name = name ↔ IsKey name :=
  ⟨fun same => same ▸ isKey_selectorKeyChars name, selectorKeyChars_of_isKey⟩

end Keys

/-! ## Names of a script -/

/-- The words that a script cannot use as names, in strict code or anywhere. -/
def reservedWords : List String :=
  ["arguments", "await", "break", "case", "catch", "class", "const", "continue", "debugger",
    "default", "delete", "do", "else", "enum", "eval", "export", "extends", "false", "finally",
    "for", "function", "if", "implements", "import", "in", "instanceof", "interface", "let", "new",
    "null", "package", "private", "protected", "public", "return", "static", "super", "switch",
    "this", "throw", "true", "try", "typeof", "var", "void", "while", "with", "yield"]

/-- A character of a name that is written in ASCII. -/
def isIdentifierPart (c : Char) : Bool :=
  isAsciiAlphanumeric c || c == '_' || c == '$'

/-- A name that a script may give to a variable or a function, written in ASCII. -/
structure IsIdentifier (name : String) : Prop where
  start : ∃ first ∈ name.toList.head?, isAsciiDigit first = false
  parts : ∀ c ∈ name.toList, isIdentifierPart c = true
  not_reserved : name ∉ reservedWords

/-- The form of a component: `[A-Z][A-Za-z0-9]*`. -/
def IsCapitalWord (name : List Char) : Prop :=
  ∃ first rest, isCapitalLetter first = true ∧ IsWord rest ∧ name = first :: rest

/-- The words of the language have no capital letter. -/
theorem not_mem_reservedWords {identifier : String}
    (capital : ∃ c ∈ identifier.toList, isCapitalLetter c = true) : identifier ∉ reservedWords := by
  have small : ∀ word ∈ reservedWords, word.toList.all (! isCapitalLetter ·) = true := by
    decide +kernel
  obtain ⟨c, member, isCapital⟩ := capital
  intro reserved
  have other := List.all_eq_true.mp (small identifier reserved) c member
  rw [isCapital] at other
  cases other

/-- A name of letters, digits and underscores that begins like a key and has a capital letter. -/
theorem isIdentifier_of_append {identifier : String} {before behind : List Char}
    (same : identifier.toList = before ++ behind)
    (start : ∃ first rest, before = first :: rest ∧ isSmallLetter first = true)
    (plain : IsPlain identifier.toList)
    (capital : ∃ c ∈ behind, isCapitalLetter c = true) : IsIdentifier identifier where
  start := by
    obtain ⟨first, rest, rfl, small⟩ := start
    exact ⟨first, by rw [same]; rfl, isAsciiDigit_eq_false_of_small small⟩
  parts := fun c member => by
    rcases plain c member with word | rfl
    · rw [isIdentifierPart, word, Bool.true_or, Bool.true_or]
    · rfl
  not_reserved := by
    obtain ⟨c, member, isCapital⟩ := capital
    exact not_mem_reservedWords ⟨c, same ▸ List.mem_append_right before member, isCapital⟩

theorem exists_small_of_selectorKey (selector : String) : ∃ first rest,
    (selectorKey selector).toList = first :: rest ∧ isSmallLetter first = true := by
  obtain ⟨first, rest, parts, small, -, -, same⟩ := isKey_selectorKeyChars selector.toList
  exact ⟨first, _, by rw [selectorKey, toList_overChars, same]; rfl, small⟩

theorem isIdentifier_reference (selector : String) : IsIdentifier (reference selector) :=
  isIdentifier_of_append (toList_reference selector) (exists_small_of_selectorKey selector)
    (isPlain_of_isNumbered ⟨[], by simp [IsNumber], (List.append_nil _).symm⟩)
    ⟨'R', List.mem_cons_self, rfl⟩

/-- Every suffix begins with a capital letter. -/
theorem exists_capital_suffix (facet : Facet) :
    ∃ c ∈ facet.suffix.toList, isCapitalLetter c = true := by
  cases facet with
  | content => exact ⟨'H', List.mem_cons_self, rfl⟩
  | text => exact ⟨'T', List.mem_cons_self, rfl⟩
  | value => exact ⟨'V', List.mem_cons_self, rfl⟩
  | visibility => exact ⟨'V', List.mem_cons_self, rfl⟩
  | className => exact ⟨'C', List.mem_cons_self, rfl⟩
  | style => exact ⟨'S', List.mem_cons_self, rfl⟩

theorem isIdentifier_state (selector : String) (facet : Facet) :
    IsIdentifier (state selector facet) :=
  isIdentifier_of_append (toList_state selector facet) (exists_small_of_selectorKey selector)
    (isPlain_state selector facet) (exists_capital_suffix facet)

/-- A text in Pascal case begins with the capital form of the first character that is kept. -/
theorem pascalChars_eq_cons {first : Char} {rest chars : List Char} {parts : List (List Char)}
    (runs : asciiRuns chars = (first :: rest) :: parts) :
    ∃ others, pascalChars chars = asciiUpperChar first :: others := by
  rw [pascalChars, runs, List.flatMap_cons, mapFirst]
  exact ⟨_, rfl⟩

theorem isIdentifier_handler (owner : String) (delegate : Option String) (event : String) :
    IsIdentifier (handler owner delegate event) := by
  obtain ⟨first, rest, parts, small, runs, -⟩ :=
    exists_asciiRuns_of_isKey (isKey_selectorKeyChars owner.toList)
  obtain ⟨others, pascal⟩ := pascalChars_eq_cons runs
  have letter : isAsciiLetter first = true := by rw [isAsciiLetter_eq, small, Bool.true_or]
  refine isIdentifier_of_append (toList_handler owner delegate event) ⟨'h', _, rfl, rfl⟩
    (fun c member => .inl (isWord_handler owner delegate event c member))
    ⟨asciiUpperChar first, ?_, isCapitalLetter_upper letter⟩
  rw [pascal]
  exact List.mem_cons_self

theorem isCapitalWord_component (stem : String) : IsCapitalWord (component stem).toList := by
  have isWord := isWord_pascalChars stem.toList
  have name : (pascalCase stem).toList = pascalChars stem.toList := toList_overChars _ _
  rw [component, name]
  cases runs : asciiRuns stem.toList with
  | nil =>
      have same : "Component".toList = 'C' :: "omponent".toList := by decide
      rw [pascalChars, runs, List.flatMap_nil]
      exact ⟨'C', _, rfl, by decide, same⟩
  | cons run parts =>
      have areWords := areWords_asciiRuns stem.toList
      rw [runs] at areWords
      obtain ⟨⟨some, own⟩, -⟩ := List.forall_mem_cons.mp areWords
      cases run with
      | nil => exact absurd rfl some
      | cons first rest =>
          obtain ⟨others, pascal⟩ := pascalChars_eq_cons runs
          rw [pascal] at isWord ⊢
          dsimp only
          split
          · have behind : IsWord ("omponent".toList ++ (asciiUpperChar first :: others)) :=
              IsWord.append (by decide) isWord
            exact ⟨'C', _, rfl, behind, by rw [String.toList_append, name, pascal]; rfl⟩
          · rename_i noDigit
            rw [isAsciiDigit_asciiUpperChar] at noDigit
            have letter := isAsciiLetter_of_not_digit (own first List.mem_cons_self) noDigit
            exact ⟨_, others, isCapitalLetter_upper letter, (List.forall_mem_cons.mp isWord).2,
              by rw [name, pascal]⟩

/-- The names of the form of a key are the keys of selectors, and each of them is its own key.  The
references, states and handlers that are named after keys have names that a script may use, and a
component is named by a capital letter with letters and digits behind it. -/
theorem derived_names_wellFormed :
    (∀ selector, IsKey (selectorKey selector).toList) ∧
      (∀ name, selectorKey name = name ↔ IsKey name.toList) ∧
      (∀ selector, selectorKey (selectorKey selector) = selectorKey selector) ∧
      Set.range selectorKey = {name | IsKey name.toList} ∧
      (∀ selector, IsIdentifier (reference selector)) ∧
      (∀ selector facet, IsIdentifier (state selector facet)) ∧
      (∀ owner delegate event, IsIdentifier (handler owner delegate event)) ∧
      ∀ stem, IsCapitalWord (component stem).toList := by
  have isKey : ∀ selector, IsKey (selectorKey selector).toList := fun selector => by
    rw [selectorKey, toList_overChars]
    exact isKey_selectorKeyChars selector.toList
  have fixed : ∀ name, selectorKey name = name ↔ IsKey name.toList := fun name => by
    rw [← selectorKeyChars_eq_self_iff, ← String.toList_inj, selectorKey, toList_overChars]
  have idem := fun selector => (fixed (selectorKey selector)).mpr (isKey selector)
  refine ⟨isKey, fixed, idem, Set.ext fun name => ⟨?_, fun form => ⟨name, (fixed name).mpr form⟩⟩,
    isIdentifier_reference, isIdentifier_state, isIdentifier_handler, isCapitalWord_component⟩
  rintro ⟨selector, rfl⟩
  exact isKey selector

end Identifier
end Hookify
