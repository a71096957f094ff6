import Hookify.Proofs.Text.Quoting
import Hookify.Request.Fetch

namespace Hookify
namespace Text

open Script

/-!
# Strings as templates

The text of a string becomes the text of a template by a backslash before each
character that a template does not take as it stands.  Escape sequences are
copied with the rest, so that two kinds of them change their meaning.  Where
the string has a backslash before such a character already, a second one comes
between, and the character stands bare behind an escaped backslash.  The
digits that only strings have are no escape sequence of a template at all.

Every other string is a template with the same value, to which more text may be
added behind.
-/

/-! ## The text of a template -/

/-- A backslash before every character that a template does not take as it stands. -/
def templateChars : List Char → List Char
  | [] => []
  | c :: rest =>
      if isMarked c rest then '\\' :: c :: templateChars rest else c :: templateChars rest

section Template

variable {c : Char} {chars rest : List Char}

theorem eq_of_isMarked (marked : isMarked c rest = true) : c = '\x60' ∨ c = '$' := by
  rw [isMarked, Bool.or_eq_true, Bool.and_eq_true, beq_iff_eq, beq_iff_eq] at marked
  exact marked.imp_right And.left

/-- The first character is the same, or is one that has a backslash before it. -/
theorem head?_templateChars_append {p : Char → Bool} (atBackslash : p '\\' = false)
    (atMark : p '\x60' = false) (atDollar : p '$' = false) (chars behind : List Char)
    (isBehind : behind.head?.any p = false) :
    (templateChars chars ++ behind).head?.any p = chars.head?.any p := by
  cases chars with
  | nil => exact isBehind
  | cons c rest =>
      rw [templateChars]
      split
      · rename_i marked
        rw [List.cons_append, List.head?_cons, List.head?_cons, Option.any_some, Option.any_some,
          atBackslash]
        rcases eq_of_isMarked marked with rfl | rfl
        · exact atMark.symm
        · exact atDollar.symm
      · rfl

theorem templateChars_append {taken : List Char}
    (plain : ∀ c ∈ taken, c ≠ '\x60' ∧ c ≠ '$') (rest : List Char) :
    templateChars (taken ++ rest) = taken ++ templateChars rest := by
  induction taken with
  | nil => rfl
  | cons c others ih =>
      obtain ⟨⟨noMark, noDollar⟩, later⟩ := List.forall_mem_cons.mp plain
      have unmarked : ¬ isMarked c (others ++ rest) = true :=
        fun marked => (eq_of_isMarked marked).elim noMark noDollar
      rw [List.cons_append, templateChars, if_neg unmarked, ih later, List.cons_append]

/-- One step of replacing a pattern at whose first character nothing else begins. -/
theorem replaceFrom_of_ne {first : Char} {others new : List Char} (other : c ≠ first)
    (rest : List Char) :
    replaceFrom (first :: others) new 0 (c :: rest) =
      c :: replaceFrom (first :: others) new 0 rest := by
  have absent : (first :: others).isPrefixOf (c :: rest) = false := by
    rw [List.isPrefixOf, beq_eq_false_iff_ne.mpr other.symm, Bool.false_and]
  rw [replaceFrom, absent, if_neg Bool.false_ne_true]

/-- Two replacements in a row put the backslashes. -/
theorem toList_escapeTemplate (text : String) :
    (Renderer.escapeTemplate text).toList = templateChars text.toList := by
  rw [Renderer.escapeTemplate, replace, replace, toList_overChars, toList_overChars]
  change replaceFrom ['$', '\x7b'] ['\\', '$', '\x7b'] 0
    (replaceFrom ['\x60'] ['\\', '\x60'] 0 text.toList) = _
  induction text.toList with
  | nil => rfl
  | cons c rest ih =>
      rw [templateChars, ← ih]
      by_cases mark : c = '\x60'
      · rw [mark, if_pos (show isMarked '\x60' rest = true from rfl)]
        rfl
      rw [replaceFrom_of_ne mark]
      by_cases dollar : c = '$'
      · rw [dollar]
        cases rest with
        | nil => rfl
        | cons next others =>
            by_cases brace : next = '\x7b'
            · rw [brace, if_pos (show isMarked '$' ('\x7b' :: others) = true from rfl),
                replaceFrom_of_ne (by decide : '\x7b' ≠ '\x60'),
                replaceFrom_of_ne (by decide : '\x7b' ≠ '$')]
              rfl
            · have unmarked : ¬ isMarked '$' (next :: others) = true := by
                simpa [isMarked] using brace
              rw [if_neg unmarked]
              by_cases mark : next = '\x60'
              · rw [mark]
                rfl
              · rw [replaceFrom_of_ne mark, replaceFrom, if_neg (by simpa using Ne.symm brace)]
      · have unmarked : ¬ isMarked c rest = true :=
          fun marked => (eq_of_isMarked marked).elim mark dollar
        rw [replaceFrom_of_ne dollar, if_neg unmarked]

end Template

/-! ## Escape sequences that change their meaning -/

/-- What stands behind a backslash of a string means something else in a template. -/
def misread : List Char → Bool
  | [] => false
  | c :: rest => isMarked c rest ||
      (isAsciiDigit c && ! (c == '0' && ! rest.head?.any isAsciiDigit))

section Misread

variable {mark : Char} {body chars taken rest : List Char} {units value : List Nat}

/-- An escape sequence of a string is one that templates have too, or has digits only. -/
theorem escape?_string_cases
    (stands : (Quoting.string mark).escape? (taken ++ rest) = some (units, taken.length)) :
    IsEscape taken rest units ∨
      escape? (taken ++ rest) = none ∧
        digitEscape? (taken ++ rest) = some (units, taken.length) := by
  rw [Quoting.string, Option.or_eq_some_iff] at stands
  exact stands.imp_left isEscape_of_escape?

theorem isAsciiDigit_of_isOctal {c : Char} (octal : isOctal c = true) : isAsciiDigit c = true := by
  rw [isOctal, Bool.and_eq_true, decide_eq_true_eq, decide_eq_true_eq] at octal
  rw [isAsciiDigit, Bool.and_eq_true, decide_eq_true_eq, decide_eq_true_eq]
  exact ⟨octal.1, Char.le_trans octal.2 (by decide)⟩

theorem exists_digit_of_digitEscape? {found : List Nat × Nat}
    (isFound : digitEscape? chars = some found) :
    ∃ c others, chars = c :: others ∧ isAsciiDigit c = true := by
  cases chars with
  | nil => cases isFound
  | cons c others =>
      refine ⟨c, others, rfl, ?_⟩
      rw [digitEscape?] at isFound
      split at isFound
      · rename_i octal
        exact isAsciiDigit_of_isOctal octal
      split at isFound
      · assumption
      · cases isFound

theorem escape?_digit {c : Char} (digit : isAsciiDigit c = true) (others : List Char) :
    escape? (c :: others) =
      if c == '0' && ! others.head?.any isAsciiDigit then some ([0], 1) else none := by
  have noX : c ≠ 'x' := by rintro rfl; exact absurd digit (by decide)
  have noU : c ≠ 'u' := by rintro rfl; exact absurd digit (by decide)
  have inLine : isLineEnd c = false := by
    have small := (isAsciiDigit_iff c).mp digit
    have other : ∀ {d : Char}, d.toNat < 48 → (c == d) = false := by
      rintro d less
      rw [beq_eq_false_iff_ne]
      rintro rfl
      omega
    rw [isLineEnd, other (by decide), other (by decide), Bool.false_or, Bool.false_or,
      Bool.or_eq_false_iff, beq_eq_false_iff_ne, beq_eq_false_iff_ne]
    omega
  rw [escape?, if_neg (mt beq_iff_eq.mp noX), if_neg (mt beq_iff_eq.mp noU), inLine,
    if_neg Bool.false_ne_true, if_pos digit]

/-- An escape sequence that is not misread is one that templates have. -/
theorem isEscape_of_string (read : misread (taken ++ rest) = false)
    (stands : (Quoting.string mark).escape? (taken ++ rest) = some (units, taken.length)) :
    IsEscape taken rest units := by
  rcases escape?_string_cases stands with isEscape | ⟨isNone, isDigits⟩
  · exact isEscape
  · obtain ⟨c, others, same, digit⟩ := exists_digit_of_digitEscape? isDigits
    rw [same] at isNone read
    rw [misread, digit, Bool.true_and, Bool.or_eq_false_iff, Bool.not_eq_false'] at read
    rw [escape?_digit digit, if_pos read.2] at isNone
    cases isNone

/-- The characters of an escape sequence that is not misread have no backslash before them. -/
theorem IsEscape.templateChars_append (isEscape : IsEscape taken rest units)
    (read : misread (taken ++ rest) = false) :
    templateChars (taken ++ rest) = taken ++ templateChars rest := by
  rcases isEscape.forms with ⟨c, rfl⟩ | rfl | letters
  · have unmarked : isMarked c rest = false := (Bool.or_eq_false_iff.mp read).1
    rw [List.singleton_append, templateChars, unmarked, if_neg Bool.false_ne_true,
      List.singleton_append]
  · exact Text.templateChars_append (by simp) rest
  · refine Text.templateChars_append (fun c member => ?_) rest
    have letter := letters c member
    constructor
    all_goals
      rintro rfl
      exact absurd letter (by decide)

theorem isMarked_templateChars_append (c : Char) (rest : List Char) :
    isMarked c (templateChars rest ++ ['?']) = isMarked c rest := by
  rw [isMarked, isMarked, head?_templateChars_append (by decide) (by decide) (by decide) _ _
    (by decide)]

/-- What is misread has no value. -/
theorem read?_misread (isMisread : misread chars = true) :
    Quoting.template.read? 0 (templateChars ('\\' :: chars) ++ ['?']) = none := by
  cases chars with
  | nil => cases isMisread
  | cons c rest =>
      rw [templateChars, if_neg (by simp [isMarked]), templateChars]
      split
      · rename_i marked
        have plain : c ≠ '\\' := by
          rintro rfl
          cases marked
        have bare : Quoting.template.char? c (templateChars rest ++ ['?']) = none := by
          rw [Quoting.template_char?, isMarked_templateChars_append, if_pos marked]
        have stands : Quoting.template.escape? ('\\' :: c :: (templateChars rest ++ ['?'])) =
            some (unitsOf '\\', 1) := rfl
        exact (@Quoting.read?_escape _ ['\\'] _ _ stands).trans
          (by rw [Quoting.read?_char plain, bare]; rfl)
      · rename_i unmarked
        rw [misread, Bool.eq_false_iff.mpr unmarked, Bool.false_or, Bool.and_eq_true,
          Bool.not_eq_true'] at isMisread
        have none : Quoting.template.escape? (c :: (templateChars rest ++ ['?'])) = none := by
          rw [Quoting.template_escape?, escape?_digit isMisread.1, head?_templateChars_append (by decide)
            (by decide) (by decide) _ _ (by decide), isMisread.2, if_neg Bool.false_ne_true]
        exact Quoting.read?_of_no_escape none

/-- Units in front of a value, if there is one. -/
theorem map_append_value (isNone : Bool) (units value behind : List Nat) :
    ((if isNone then none else some (value ++ behind)).map (units ++ ·)) =
      if isNone then none else some (units ++ value ++ behind) := by
  cases isNone with
  | true => rfl
  | false => exact congrArg some (List.append_assoc ..).symm

/-- As a template, the text of a string has the same value with a question mark behind, unless it
has an escape sequence that is misread. -/
theorem read?_templateChars (reads : (Quoting.string mark).Reads body value) :
    Quoting.template.read? 0 (templateChars body ++ ['?']) =
      if ((Quoting.string mark).escapes 0 body).any misread then none
      else some (value ++ ['?'.toNat]) := by
  induction reads with
  | nil => rfl
  | @char c rest units value plain stands _ ih =>
      obtain ⟨⟨_, _, noReturn⟩, rfl⟩ := Quoting.string_char?_eq_some_iff.mp stands
      rw [Quoting.escapes_char plain, templateChars]
      split
      · rename_i marked
        have stands : Quoting.template.escape? (c :: (templateChars rest ++ ['?'])) =
            some (unitsOf c, 1) := by
          rcases eq_of_isMarked marked with rfl | rfl <;> rfl
        exact (@Quoting.read?_escape _ [c] _ _ stands).trans
          ((congrArg _ ih).trans (map_append_value ..))
      · rename_i unmarked
        rw [List.cons_append, Quoting.read?_char plain, Quoting.template_char?,
          isMarked_templateChars_append, if_neg unmarked, if_neg (mt beq_iff_eq.mp noReturn),
          Option.bind_some, ih, map_append_value]
  | @escape taken rest units value stands _ ih =>
      rw [Quoting.escapes_escape stands, List.any_cons]
      cases read : misread (taken ++ rest) with
      | true => rw [read?_misread read, Bool.true_or, if_pos rfl]
      | false =>
          have isEscape := isEscape_of_string read stands
          have before : IsEscape taken (templateChars rest ++ ['?']) units := by
            refine isEscape.before (fun apart => ?_) fun line => ?_
            · rw [head?_templateChars_append (by decide) (by decide) (by decide) _ _ (by decide),
                apart]
            · have same := head?_templateChars_append (p := (· == '\n')) (by decide) (by decide)
                (by decide) rest ['?'] (by decide)
              rw [line, Option.any_some, beq_self_eq_true, eq_comm,
                Option.any_eq_true_iff_get] at same
              obtain ⟨some, ends⟩ := same
              rw [← Option.some_get some, beq_iff_eq.mp ends]
          rw [templateChars, if_neg (by simp [isMarked]), isEscape.templateChars_append read,
            List.cons_append, List.append_assoc,
            Quoting.read?_escape (escape?_of_isEscape before), ih, Bool.false_or, map_append_value]

end Misread

end Text
end Hookify
