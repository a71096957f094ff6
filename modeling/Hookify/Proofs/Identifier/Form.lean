import Hookify.Identifier.Derived
import Hookify.Proofs.Identifier.Fresh
import Hookify.Proofs.Text.Ascii
import Mathlib.Data.List.DropRight

namespace Hookify
namespace Identifier

open Text

/-!
# The form of derived identifiers

Two facts about derived identifiers carry what is proved of them.

The first is a count of letters.  A key has at least as many ASCII letters as
its selector, since only other characters are lost, and Pascal case changes the
form of letters but not their number.  The name of a handler therefore has more
letters than the selector, the event or the reference it is made for.

The second is the end of a name.  Numbers are only ever put behind a name, so
the name without the digits at its end is known again, and its last letters
tell a reference from a state.
-/

/-! ## Letters of keys and of names in Pascal case -/

theorem letterCount_joinUnderscore (parts : List (List Char)) :
    letterCount (joinUnderscore parts) = letterCount parts.flatten := by
  induction parts with
  | nil => rfl
  | cons part rest ih =>
      cases rest with
      | nil => simp [joinUnderscore]
      | cons next others =>
          have separator : isAsciiLetter '_' = false := rfl
          rw [joinUnderscore, letterCount_append, letterCount_cons, ih, separator]
          simp

theorem letterCount_asciiRuns (chars : List Char) :
    letterCount (asciiRuns chars).flatten = letterCount chars := by
  rw [asciiRuns, flatten_runs, letterCount_filter_alphanumeric]

/-- No letter of a selector is missing from its key. -/
theorem letterCount_le_selectorKeyChars (selector : List Char) :
    letterCount selector ≤ letterCount (selectorKeyChars selector) := by
  have joined : letterCount (joinUnderscore (asciiRuns selector)) = letterCount selector := by
    rw [letterCount_joinUnderscore, letterCount_asciiRuns]
  rw [selectorKeyChars]
  cases parts : joinUnderscore (asciiRuns selector) with
  | nil =>
      rw [parts, letterCount_nil] at joined
      exact joined ▸ Nat.zero_le _
  | cons first rest =>
      rw [parts, letterCount_cons] at joined
      dsimp only
      split
      · simp only [letterCount_cons]
        omega
      · rw [letterCount_cons, isAsciiLetter_asciiLowerChar]
        exact Nat.le_of_eq joined.symm

theorem letterCount_mapFirst_upper (part : List Char) :
    letterCount (mapFirst (fun c => [asciiUpperChar c]) part) = letterCount part := by
  cases part with
  | nil => rfl
  | cons first rest => simp [mapFirst, letterCount_cons]

theorem letterCount_pascalChars (chars : List Char) :
    letterCount (pascalChars chars) = letterCount chars := by
  rw [← letterCount_asciiRuns chars, pascalChars]
  induction asciiRuns chars with
  | nil => rfl
  | cons part rest ih =>
      rw [List.flatMap_cons, letterCount_append, letterCount_mapFirst_upper, ih, List.flatten_cons,
        letterCount_append]

theorem isWord_pascalChars (chars : List Char) : IsWord (pascalChars chars) := by
  intro c member
  rcases List.mem_flatMap.mp member with ⟨part, inRuns, inPart⟩
  have kept : ∀ d ∈ part, isAsciiAlphanumeric d = true := by
    intro d inside
    have flat : d ∈ (runs isAsciiAlphanumeric chars).flatten :=
      List.mem_flatten.mpr ⟨part, inRuns, inside⟩
    rw [flatten_runs] at flat
    exact (List.mem_filter.mp flat).2
  cases part with
  | nil => exact absurd inPart (List.not_mem_nil)
  | cons first rest =>
      rcases List.mem_cons.mp inPart with same | later
      · have head := kept first List.mem_cons_self
        rw [same, isAsciiAlphanumeric, isAsciiLetter_asciiUpperChar, isAsciiDigit_asciiUpperChar]
        exact head
      · exact kept c (List.mem_cons_of_mem first later)

/-! ## The name of a handler -/

/-- What the delegated child adds to the name of a handler. -/
def childPart : Option String → List Char
  | some child => pascalChars (selectorKeyChars child.toList)
  | none => []

theorem toList_handler (owner : String) (delegate : Option String) (event : String) :
    (handler owner delegate event).toList = "handle".toList ++
      (pascalChars (selectorKeyChars owner.toList) ++ (childPart delegate ++
        pascalChars event.toList)) := by
  cases delegate <;>
    simp [handler, childPart, pascalCase, selectorKey, String.toList_append]

theorem isWord_handler (owner : String) (delegate : Option String) (event : String) :
    IsWord (handler owner delegate event).toList := by
  rw [toList_handler]
  have child : IsWord (childPart delegate) := by
    cases delegate with
    | none => exact fun c member => absurd member List.not_mem_nil
    | some child => exact isWord_pascalChars _
  have start : IsWord "handle".toList := by decide
  exact start.append ((isWord_pascalChars _).append (child.append (isWord_pascalChars _)))

/-- Beside those of its parts, a handler has the six letters that it begins with. -/
theorem letterCount_handler (owner : String) (delegate : Option String) (event : String) :
    letterCount (handler owner delegate event).toList =
      6 + letterCount (selectorKey owner).toList + letterCount (childPart delegate) +
        letterCount event.toList := by
  have start : letterCount "handle".toList = 6 := by decide
  rw [toList_handler, letterCount_append, letterCount_append, letterCount_append, start,
    letterCount_pascalChars, letterCount_pascalChars, selectorKey, toList_overChars]
  omega

/-- The key of the child has all letters of the child. -/
theorem letterCount_le_childPart (child : String) :
    letterCount child.toList ≤ letterCount (childPart (some child)) := by
  rw [childPart, letterCount_pascalChars]
  exact letterCount_le_selectorKeyChars child.toList

/-! ## The ends of names -/

/-- Only digits. -/
def IsNumber (chars : List Char) : Prop :=
  ∀ c ∈ chars, isAsciiDigit c = true

theorem IsNumber.append {first second : List Char} (left : IsNumber first)
    (right : IsNumber second) : IsNumber (first ++ second) := by
  intro c member
  rcases List.mem_append.mp member with member | member
  · exact left c member
  · exact right c member

/-- The last character is there and is no digit. -/
def EndsInLetter (chars : List Char) : Prop :=
  ∃ start last, chars = start ++ [last] ∧ isAsciiDigit last = false

theorem EndsInLetter.append_left {chars : List Char} (ends : EndsInLetter chars)
    (before : List Char) : EndsInLetter (before ++ chars) := by
  rcases ends with ⟨start, last, rfl, letter⟩
  exact ⟨before ++ start, last, (List.append_assoc _ _ _).symm, letter⟩

/-- A name that does not end in a digit is not another one with a number behind it. -/
theorem EndsInLetter.eq_of_append_number {first second number : List Char}
    (ends : EndsInLetter first) (digits : IsNumber number) (same : first = second ++ number) :
    number = [] := by
  rcases ends with ⟨start, last, rfl, letter⟩
  rcases List.eq_nil_or_concat number with empty | ⟨front, final, rfl⟩
  · exact empty
  · rw [List.concat_eq_append, ← List.append_assoc] at same
    have lastSame : last = final := (List.append_inj' same rfl).2 |> List.singleton_inj.mp
    have digit := digits final (by simp)
    rw [← lastSame, letter] at digit
    exact absurd digit Bool.false_ne_true

/-- A name that does not end in a digit is known again when a number stands behind it. -/
theorem eq_of_append_number {first second number other : List Char}
    (firstEnds : EndsInLetter first) (secondEnds : EndsInLetter second)
    (digits : IsNumber number) (others : IsNumber other)
    (same : first ++ number = second ++ other) : first = second := by
  rcases List.append_eq_append_iff.mp same with ⟨rest, split, numbers⟩ | ⟨rest, split, numbers⟩
  · have isNumber : IsNumber rest := fun c member =>
      digits c (numbers ▸ List.mem_append_left _ member)
    have empty := secondEnds.eq_of_append_number isNumber split
    rw [split, empty, List.append_nil]
  · have isNumber : IsNumber rest := fun c member =>
      others c (numbers ▸ List.mem_append_left _ member)
    have empty := firstEnds.eq_of_append_number isNumber split
    rw [split, empty, List.append_nil]

theorem toList_reference (selector : String) :
    (reference selector).toList = (selectorKey selector).toList ++ ['R', 'e', 'f'] := by
  rw [reference, String.toList_append]
  rfl

theorem toList_state (selector : String) (facet : Facet) :
    (state selector facet).toList = (selectorKey selector).toList ++ facet.suffix.toList := by
  rw [state, String.toList_append]

theorem endsInLetter_reference (selector : String) : EndsInLetter (reference selector).toList := by
  rw [toList_reference]
  exact EndsInLetter.append_left ⟨['R', 'e'], 'f', rfl, rfl⟩ _

theorem endsInLetter_suffix (facet : Facet) : EndsInLetter facet.suffix.toList := by
  cases facet with
  | content => exact ⟨['H', 't', 'm'], 'l', rfl, rfl⟩
  | text => exact ⟨['T', 'e', 'x'], 't', rfl, rfl⟩
  | value => exact ⟨['V', 'a', 'l', 'u'], 'e', rfl, rfl⟩
  | visibility => exact ⟨['V', 'i', 's', 'i', 'b', 'l'], 'e', rfl, rfl⟩
  | className => exact ⟨['C', 'l', 'a', 's', 's', 'N', 'a', 'm'], 'e', rfl, rfl⟩
  | style => exact ⟨['S', 't', 'y', 'l'], 'e', rfl, rfl⟩

theorem endsInLetter_state (selector : String) (facet : Facet) :
    EndsInLetter (state selector facet).toList := by
  rw [toList_state]
  exact (endsInLetter_suffix facet).append_left _

/-! ## Numbered names -/

/-- The identifier is a name, or the name with a number behind it. -/
def IsNumbered (name identifier : String) : Prop :=
  ∃ number, IsNumber number ∧ identifier.toList = name.toList ++ number

theorem isNumbered_candidate (base : String) (index : Nat) :
    IsNumbered base (candidate base index) :=
  ⟨_, candidateSuffix_digits index, by rw [candidate_eq_append, String.toList_append]⟩

theorem isNumbered_fresh (taken : List String) (base : String) :
    IsNumbered base (fresh taken base) := by
  rcases fresh_spec taken base with ⟨index, same, _, _⟩
  exact same ▸ isNumbered_candidate base index

theorem IsNumbered.trans {name middle identifier : String} (first : IsNumbered name middle)
    (second : IsNumbered middle identifier) : IsNumbered name identifier := by
  rcases first with ⟨number, digits, same⟩
  rcases second with ⟨other, others, last⟩
  exact ⟨number ++ other, digits.append others, by rw [last, same, List.append_assoc]⟩

/-- One identifier numbers the references of one element only. -/
theorem selectorKey_eq_of_isNumbered {first second identifier : String}
    (left : IsNumbered (reference first) identifier)
    (right : IsNumbered (reference second) identifier) :
    selectorKey first = selectorKey second := by
  rcases left with ⟨number, digits, same⟩
  rcases right with ⟨other, others, also⟩
  have names := eq_of_append_number (endsInLetter_reference first) (endsInLetter_reference second)
    digits others (same.symm.trans also)
  rw [toList_reference, toList_reference] at names
  exact String.toList_inj.mp (List.append_cancel_right names)

/-- A state is never named like a reference, whatever number the reference has. -/
theorem not_isNumbered_state (selector other : String) (facet : Facet) :
    ¬ IsNumbered (reference other) (state selector facet) := by
  rintro ⟨number, digits, same⟩
  have empty := (endsInLetter_state selector facet).eq_of_append_number digits same
  rw [empty, List.append_nil, toList_state, toList_reference] at same
  have lasts := congrArg List.getLast? same
  cases facet <;> simp [Facet.suffix] at lasts

/-- The name of a reference depends on the key of the selector alone. -/
theorem reference_eq_of_key {first second : String}
    (same : selectorKey first = selectorKey second) :
    reference first = reference second := by
  rw [reference, reference, same]

/-! ## Characters of names -/

/-- An ASCII letter, a digit or an underscore. -/
def IsNameChar (c : Char) : Prop :=
  isAsciiAlphanumeric c = true ∨ c = '_'

instance (c : Char) : Decidable (IsNameChar c) :=
  inferInstanceAs (Decidable (_ ∨ _))

theorem IsNameChar.lower {c : Char} (nameChar : IsNameChar c) :
    IsNameChar (asciiLowerChar c) := by
  rcases nameChar with word | rfl
  · exact .inl (by simpa [isAsciiAlphanumeric] using word)
  · decide

theorem IsNameChar.upper {c : Char} (nameChar : IsNameChar c) :
    upperChar c = [asciiUpperChar c] ∧ IsNameChar (asciiUpperChar c) := by
  rcases nameChar with word | rfl
  · have ascii : c.toNat < 0x80 := by
      rw [isAsciiAlphanumeric, Bool.or_eq_true, isAsciiLetter_iff, isAsciiDigit_iff] at word
      omega
    rw [upperChar, if_pos ascii]
    exact ⟨rfl, .inl (by simpa [isAsciiAlphanumeric] using word)⟩
  · decide

/-- Only characters of names. -/
def IsPlain (chars : List Char) : Prop :=
  ∀ c ∈ chars, IsNameChar c

instance (chars : List Char) : Decidable (IsPlain chars) :=
  List.decidableBAll IsNameChar chars

theorem isPlain_cons {c : Char} {chars : List Char} :
    IsPlain (c :: chars) ↔ IsNameChar c ∧ IsPlain chars :=
  List.forall_mem_cons

theorem isPlain_append {first second : List Char} :
    IsPlain (first ++ second) ↔ IsPlain first ∧ IsPlain second :=
  List.forall_mem_append

theorem isPlain_joinUnderscore {parts : List (List Char)} (plain : IsPlain parts.flatten) :
    IsPlain (joinUnderscore parts) := by
  induction parts with
  | nil => exact plain
  | cons part rest ih =>
      rw [List.flatten_cons, isPlain_append] at plain
      cases rest with
      | nil => exact plain.1
      | cons next later =>
          exact isPlain_append.mpr ⟨plain.1, isPlain_cons.mpr ⟨by decide, ih plain.2⟩⟩

theorem isPlain_selectorKey (selector : String) : IsPlain (selectorKey selector).toList := by
  rw [selectorKey, toList_overChars, selectorKeyChars]
  have joined : IsPlain (joinUnderscore (asciiRuns selector.toList)) := by
    apply isPlain_joinUnderscore
    rw [asciiRuns, flatten_runs]
    exact fun c member => .inl (List.mem_filter.mp member).2
  cases parts : joinUnderscore (asciiRuns selector.toList) with
  | nil => decide
  | cons first rest =>
      rw [parts] at joined
      have others := isPlain_cons.mp joined
      dsimp only
      split
      · have start : IsPlain ['e', 'l', '_'] := by decide
        exact isPlain_append.mpr ⟨start, joined⟩
      · exact isPlain_cons.mpr ⟨others.1.lower, others.2⟩

theorem isPlain_state (selector : String) (facet : Facet) :
    IsPlain (state selector facet).toList := by
  rw [toList_state, isPlain_append]
  exact ⟨isPlain_selectorKey selector, by cases facet <;> decide⟩

theorem isPlain_setter {identifier : String} (plain : IsPlain identifier.toList) :
    IsPlain (setter identifier).toList := by
  rw [setter, String.toList_append, isPlain_append, upperFirst, toList_overChars]
  refine ⟨by decide, ?_⟩
  cases chars : identifier.toList with
  | nil => exact fun c member => absurd member List.not_mem_nil
  | cons first rest =>
      rw [chars, isPlain_cons] at plain
      rw [mapFirst, plain.1.upper.1, isPlain_append, isPlain_cons]
      exact ⟨⟨plain.1.upper.2, fun c member => absurd member List.not_mem_nil⟩, plain.2⟩

/-- A reference is named in characters of names, also with a number behind it. -/
theorem isPlain_of_isNumbered {selector identifier : String}
    (numbered : IsNumbered (reference selector) identifier) : IsPlain identifier.toList := by
  rcases numbered with ⟨number, digits, same⟩
  rw [same, toList_reference, isPlain_append, isPlain_append]
  exact ⟨⟨isPlain_selectorKey selector, by decide⟩,
    fun c member => .inl (IsWord.of_digits digits c member)⟩

/-! ## Names apart -/

instance (chars : List Char) : Decidable (IsNumber chars) :=
  List.decidableBAll (isAsciiDigit · = true) chars

/-- No suffix of a state is the end of another one. -/
theorem facet_eq_of_suffix {facet other : Facet}
    (ends : facet.suffix.toList <:+ other.suffix.toList) : facet = other := by
  revert ends
  cases facet <;> cases other <;> decide

/-- What stands before the suffix of a state is known again, whatever it ends in. -/
theorem eq_of_append_suffix {first second : List Char} {facet other : Facet}
    (same : first ++ facet.suffix.toList = second ++ other.suffix.toList) :
    first = second ∧ facet = other := by
  have alike : facet = other := by
    rcases List.append_eq_append_iff.mp same with ⟨rest, -, ends⟩ | ⟨rest, -, ends⟩
    · exact (facet_eq_of_suffix ⟨rest, ends.symm⟩).symm
    · exact facet_eq_of_suffix ⟨rest, ends.symm⟩
  subst alike
  exact ⟨List.append_cancel_right same, rfl⟩

/-- The name of a state tells the key of its element and its facet. -/
theorem state_eq_iff {first second : String} {facet other : Facet} :
    state first facet = state second other ↔
      selectorKey first = selectorKey second ∧ facet = other := by
  constructor
  · intro same
    rw [← String.toList_inj, toList_state, toList_state] at same
    obtain ⟨keys, facets⟩ := eq_of_append_suffix same
    exact ⟨String.toList_inj.mp keys, facets⟩
  · rintro ⟨keys, rfl⟩
    rw [state, state, keys]

section Numbers

variable {first second number other : String}

theorem isNumbered_append (digits : IsNumber number.toList) :
    IsNumbered first (first ++ number) :=
  ⟨number.toList, digits, String.toList_append⟩

theorem reference_append_eq_iff (digits : IsNumber number.toList)
    (others : IsNumber other.toList) :
    reference first ++ number = reference second ++ other ↔
      selectorKey first = selectorKey second ∧ number = other := by
  constructor
  · intro same
    have keys := selectorKey_eq_of_isNumbered (isNumbered_append digits)
      (same ▸ isNumbered_append others)
    rw [reference_eq_of_key keys] at same
    exact ⟨keys, (String.append_right_inj _).mp same⟩
  · rintro ⟨keys, rfl⟩
    rw [reference_eq_of_key keys]

end Numbers

/-- A state is known by the key of its selector and its facet, and a reference with a number behind
it by the key of its selector and the number.  No state is named like a reference. -/
theorem derived_names_apart {first second number other : String} (facet next : Facet)
    (digits : IsNumber number.toList) (others : IsNumber other.toList) :
    (state first facet = state second next ↔
        selectorKey first = selectorKey second ∧ facet = next) ∧
      (reference first ++ number = reference second ++ other ↔
        selectorKey first = selectorKey second ∧ number = other) ∧
      state first facet ≠ reference second ++ number := by
  refine ⟨state_eq_iff, reference_append_eq_iff digits others, fun same => ?_⟩
  exact not_isNumbered_state first second facet (same ▸ isNumbered_append digits)

/-- Keys that end in the suffix of a state, in that of a reference and in digits. -/
theorem derived_names_apart_of_suffixes :
    IsNumber "2".toList ∧ IsNumber "".toList ∧
      state "#boxText" .text ≠ state "#box" .text ∧
      reference "#boxRef2" ++ "" ≠ reference "#box" ++ "2" ∧
      state "#boxRef" .value ≠ reference "#box" ++ "2" := by
  have two : IsNumber "2".toList := by decide
  have none : IsNumber "".toList := by decide
  have keys : selectorKey "#boxText" ≠ selectorKey "#box" := by decide
  have others : selectorKey "#boxRef2" ≠ selectorKey "#box" := by decide
  refine ⟨two, none, fun same => ?_, fun same => ?_, ?_⟩
  · exact keys ((derived_names_apart .text .text two none).1.mp same).1
  · exact others ((derived_names_apart .text .text none two).2.1.mp same).1
  · exact (derived_names_apart .value .value two none).2.2

end Identifier
end Hookify
