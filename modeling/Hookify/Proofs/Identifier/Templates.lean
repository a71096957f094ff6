import Hookify.Proofs.Identifier.Tokens

namespace Hookify
namespace Identifier

open Text

/-!
# Templates as the scan reads them

A template is static text with code in its substitutions, and that code may hold
further templates.  The scan has no mode for static text.  It reads it as if it
were code, and so a mark or the opening of a comment among the static characters
takes it out of the mode for code.

A stretch is code without a template in it.  If the scan comes to a stretch in
the mode for code, it notes what the stretch refers to, and it is in the mode
for code again behind it.  So all depends on the static texts: from one stretch
to the next the scan stays in code exactly if the static text between them
closes what it opens.
-/

/-! ## Templates -/

mutual

/-- A template behind its opening mark. -/
inductive Template where
  | last (static : List Char)
  | part (static : List Char) (inner : Code) (rest : Template)

/-- Code with templates between its tokens. -/
inductive Code where
  | plain (tokens : List Token)
  | around (tokens : List Token) (template : Template) (rest : Code)

end

mutual

/-- The text of a template, from behind its opening mark to its closing mark. -/
def Template.text : Template → List Char
  | .last static => static ++ ['\x60']
  | .part static inner rest => static ++ ['$', '\x7b'] ++ (inner.text ++ ['\x7d']) ++ rest.text

/-- The text of code. -/
def Code.text : Code → List Char
  | .plain tokens => textOf tokens
  | .around tokens template rest => textOf tokens ++ ['\x60'] ++ template.text ++ rest.text

end

/-- A static text has no mark and no opening of a substitution without a backslash before it. -/
def isStatic : List Char → Bool
  | [] => true
  | [c] => c != '\\' && c != '\x60'
  | c :: next :: rest =>
      if c == '\\' then isStatic rest
      else c != '\x60' && ! (c == '$' && next == '\x7b') && isStatic (next :: rest)

/-- How many braces are open behind tokens, unless one is closed that is not open. -/
def openBraces : Nat → List Token → Option Nat
  | depth, [] => some depth
  | depth, token :: rest =>
      if token == ⟨.sign, ['\x7b']⟩ then openBraces (depth + 1) rest
      else if token == ⟨.sign, ['\x7d']⟩ then
        match depth with
        | 0 => none
        | depth + 1 => openBraces depth rest
      else openBraces depth rest

/-- How many braces are open behind code. -/
def Code.openBraces : Code → Nat → Option Nat
  | .plain tokens, depth => Identifier.openBraces depth tokens
  | .around tokens _ rest, depth => (Identifier.openBraces depth tokens).bind rest.openBraces

mutual

/-- In front of a text, the parts of a template are what they stand for: static texts, and code in
which each brace is closed, so that the substitution ends at its own brace. -/
def Template.Fits (after : List Char) : Template → Prop
  | .last static => isStatic static = true
  | .part static inner rest =>
      isStatic static = true ∧ inner.Fits ('\x7d' :: (rest.text ++ after)) ∧
        inner.openBraces 0 = some 0 ∧ rest.Fits after

/-- The parts of code fit together in front of a text. -/
def Code.Fits (after : List Char) : Code → Prop
  | .plain tokens => FitTogether after tokens
  | .around tokens template rest =>
      FitTogether ('\x60' :: (template.text ++ (rest.text ++ after))) tokens ∧
        template.Fits (rest.text ++ after) ∧ rest.Fits after

end

/-! ## Stretches of code -/

/-- Tokens in a row, with what the code has before them and behind them. -/
structure Stretch where
  before : List Char
  tokens : List Token
  after : List Char

mutual

/-- The stretches in the substitutions of a template that stands between two texts. -/
def Template.stretches (before after : List Char) : Template → List Stretch
  | .last _ => []
  | .part static inner rest =>
      inner.stretches (before ++ (static ++ ['$', '\x7b'])) ('\x7d' :: (rest.text ++ after)) ++
        rest.stretches (before ++ (static ++ ['$', '\x7b']) ++ (inner.text ++ ['\x7d'])) after

/-- The stretches of code that stands between two texts. -/
def Code.stretches (before after : List Char) : Code → List Stretch
  | .plain tokens => [⟨before, tokens, after⟩]
  | .around tokens template rest =>
      ⟨before, tokens, '\x60' :: (template.text ++ (rest.text ++ after))⟩ ::
        (template.stretches (before ++ (textOf tokens ++ ['\x60'])) (rest.text ++ after) ++
          rest.stretches (before ++ (textOf tokens ++ ['\x60']) ++ template.text) after)

end

/-- The mode of the scan behind the beginning of a code. -/
def reading (text : List Char) : ScanMode :=
  ScanMode.code.after [] text

namespace Stretch

/-- The names that a stretch refers to. -/
def names (stretch : Stretch) : List (List Char) :=
  references stretch.before stretch.tokens

/-- The names that the scan notes in a stretch. -/
def noted (stretch : Stretch) : List (List Char) :=
  namesFrom (reading stretch.before) stretch.before.reverse (textOf stretch.tokens)

/-- A stretch with nothing in it that could close a quoted text or a comment. -/
structure IsQuiet (stretch : Stretch) : Prop where
  within : ∀ c ∈ textOf stretch.tokens, isMark c = false ∧ c ≠ '\n'
  noEnd : ¬ ['*', '/'] <:+: textOf stretch.tokens

end Stretch

/-! ## Calm texts -/

/-- Names, numbers and signs are read in these modes, and the next character as well. -/
def ScanMode.isOpen : ScanMode → Bool
  | .code | .slash | .word _ _ | .number => true
  | .quoted _ | .escaped _ | .lineComment | .blockComment | .commentStar => false

/-- A text that is read as code closes the quoted texts and the comments that it opens. -/
def isCalm (text : List Char) : Bool :=
  (reading text).isOpen

/-- The static text behind the last substitution. -/
def Template.lastStatic : Template → List Char
  | .last static => static
  | .part _ _ rest => rest.lastStatic

mutual

/-- The static texts that code follows are calm. -/
def Template.Calm : Template → Prop
  | .last _ => True
  | .part static inner rest => isCalm static = true ∧ inner.Calm ∧ rest.Calm

/-- The static texts of the templates in code are calm. -/
def Code.Calm : Code → Prop
  | .plain _ => True
  | .around _ template rest => template.Calm ∧ isCalm template.lastStatic = true ∧ rest.Calm

end

mutual

instance Template.Fits.decide (after : List Char) :
    (template : Template) → Decidable (template.Fits after)
  | .last static => inferInstanceAs (Decidable (isStatic static = true))
  | .part static inner rest =>
      have := Code.Fits.decide ('\x7d' :: (rest.text ++ after)) inner
      have := Template.Fits.decide after rest
      inferInstanceAs (Decidable (isStatic static = true ∧
        inner.Fits ('\x7d' :: (rest.text ++ after)) ∧ inner.openBraces 0 = some 0 ∧
          rest.Fits after))

instance Code.Fits.decide (after : List Char) : (code : Code) → Decidable (code.Fits after)
  | .plain tokens => inferInstanceAs (Decidable (FitTogether after tokens))
  | .around tokens template rest =>
      have := Template.Fits.decide (rest.text ++ after) template
      have := Code.Fits.decide after rest
      inferInstanceAs (Decidable (
        FitTogether ('\x60' :: (template.text ++ (rest.text ++ after))) tokens ∧
          template.Fits (rest.text ++ after) ∧ rest.Fits after))

end

mutual

instance Template.Calm.decide : (template : Template) → Decidable template.Calm
  | .last _ => .isTrue trivial
  | .part static inner rest =>
      have := Code.Calm.decide inner
      have := Template.Calm.decide rest
      inferInstanceAs (Decidable (isCalm static = true ∧ inner.Calm ∧ rest.Calm))

instance Code.Calm.decide : (code : Code) → Decidable code.Calm
  | .plain _ => .isTrue trivial
  | .around _ template rest =>
      have := Template.Calm.decide template
      have := Code.Calm.decide rest
      inferInstanceAs (Decidable (template.Calm ∧ isCalm template.lastStatic = true ∧ rest.Calm))

end

/-! ## Modes -/

namespace ScanMode

variable {mode : ScanMode} {c : Char}

theorem after_cons (mode : ScanMode) (before : List Char) (c : Char) (rest : List Char) :
    mode.after before (c :: rest) = (mode.step before c).after (c :: before) rest := rfl

/-- A mode without the name that has been begun. -/
def withoutName : ScanMode → ScanMode
  | .word _ _ => .word false []
  | mode => mode

theorem isOpen_withoutName (mode : ScanMode) : mode.withoutName.isOpen = mode.isOpen := by
  cases mode <;> rfl

theorem withoutName_enter (before : List Char) (c : Char) :
    (enter before c).withoutName = (enter [] c).withoutName := by
  rw [enter_eq, enter_eq]
  split
  · rfl
  · split
    · rfl
    · split <;> rfl

/-- Apart from names, what was before does not matter. -/
theorem withoutName_step (mode : ScanMode) (before : List Char) (c : Char) :
    (mode.step before c).withoutName = (mode.withoutName.step [] c).withoutName := by
  cases mode with
  | code => exact withoutName_enter before c
  | word isMember letters =>
      change (if isPart c then ScanMode.word isMember (c :: letters)
          else enter before c).withoutName =
        (if isPart c then ScanMode.word false [c] else enter [] c).withoutName
      split
      · rfl
      · exact withoutName_enter before c
  | number =>
      change (number.step before c).withoutName = (number.step [] c).withoutName
      rw [step, step]
      split
      · rfl
      · exact withoutName_enter before c
  | slash =>
      change (slash.step before c).withoutName = (slash.step [] c).withoutName
      rw [step, step]
      split
      · rfl
      · split
        · rfl
        · exact withoutName_enter before c
  | quoted mark | escaped mark | lineComment | blockComment | commentStar => rfl

theorem withoutName_after (mode : ScanMode) (before text : List Char) :
    (mode.after before text).withoutName = (mode.withoutName.after [] text).withoutName := by
  induction text generalizing mode before with
  | nil => cases mode <;> rfl
  | cons c rest ih =>
      rw [after_cons, after_cons, ih, withoutName_step, ← ih]

theorem isOpen_after_code (before text : List Char) :
    (ScanMode.code.after before text).isOpen = isCalm text := by
  rw [← isOpen_withoutName, withoutName_after, isOpen_withoutName]
  rfl

/-- Quoted texts have a mark. -/
def HasMark : ScanMode → Prop
  | .quoted mark | .escaped mark => isMark mark = true
  | _ => True

theorem hasMark_enter (before : List Char) (c : Char) : (enter before c).HasMark := by
  rw [enter_eq]
  split
  · assumption
  · split
    · trivial
    · split
      · trivial
      · split <;> trivial

theorem HasMark.step (hasMark : mode.HasMark) (before : List Char) (c : Char) :
    (mode.step before c).HasMark := by
  cases mode with
  | code => exact hasMark_enter before c
  | escaped mark => exact hasMark
  | quoted mark =>
      rw [ScanMode.step]
      split
      · exact hasMark
      · split
        · trivial
        · exact hasMark
  | word _ _ | number | lineComment | blockComment =>
      rw [ScanMode.step]
      split
      · trivial
      · first | trivial | exact hasMark_enter before c
  | slash =>
      rw [ScanMode.step]
      split
      · trivial
      · split
        · trivial
        · exact hasMark_enter before c
  | commentStar =>
      rw [ScanMode.step]
      split
      · trivial
      · split <;> trivial

theorem HasMark.after (hasMark : mode.HasMark) (before text : List Char) :
    (mode.after before text).HasMark := by
  induction text generalizing mode before with
  | nil => exact hasMark
  | cons c rest ih => exact ih (hasMark.step before c) (c :: before)

theorem isOpen_enter (before : List Char) (noMark : isMark c = false) :
    (enter before c).isOpen = true := by
  rw [enter_eq, noMark, if_neg Bool.false_ne_true]
  split
  · rfl
  · split
    · rfl
    · split <;> rfl

/-- A quoted text or a comment goes on with a character that does not close it. -/
theorem isOpen_step_of_closed (hasMark : mode.HasMark) (closed : mode.isOpen = false)
    (before : List Char) (noMark : isMark c = false) (noLine : c ≠ '\n')
    (noEnd : mode = .commentStar → c ≠ '/') : (mode.step before c).isOpen = false := by
  cases mode with
  | code | slash | word _ _ | number => cases closed
  | escaped mark => rfl
  | quoted mark =>
      have goesOn : (c == mark || c == '\n') = false := by
        rw [Bool.or_eq_false_iff, beq_eq_false_iff_ne, beq_eq_false_iff_ne]
        refine ⟨?_, noLine⟩
        rintro rfl
        rw [hasMark] at noMark
        cases noMark
      rw [step, goesOn, if_neg Bool.false_ne_true]
      split <;> rfl
  | lineComment =>
      rw [step, if_neg (by simpa using noLine)]
      rfl
  | blockComment =>
      rw [step]
      split <;> rfl
  | commentStar =>
      rw [step, if_neg (by simpa using noEnd rfl)]
      split <;> rfl

/-- A character that opens nothing leaves an open mode open. -/
theorem isOpen_step_of_open (isOpen : mode.isOpen = true) (before : List Char)
    (noMark : isMark c = false) (noSlash : c ≠ '/') (noStar : c ≠ '*') :
    (mode.step before c).isOpen = true := by
  have enters := isOpen_enter before noMark
  cases mode with
  | code => exact enters
  | word _ _ | number =>
      rw [step]
      split
      · rfl
      · exact enters
  | slash =>
      rw [step, if_neg (by simpa using noSlash), if_neg (by simpa using noStar)]
      exact enters
  | quoted _ | escaped _ | lineComment | blockComment | commentStar => cases isOpen

theorem isOpen_step (hasMark : mode.HasMark) (before : List Char) (noMark : isMark c = false)
    (noLine : c ≠ '\n') (noSlash : c ≠ '/') (noStar : c ≠ '*') :
    (mode.step before c).isOpen = mode.isOpen := by
  cases isOpen : mode.isOpen with
  | true => exact isOpen_step_of_open isOpen before noMark noSlash noStar
  | false => exact isOpen_step_of_closed hasMark isOpen before noMark noLine fun _ => noSlash

/-- Only a star makes the scan look for the slash behind it. -/
theorem eq_star_of_step (closed : mode.isOpen = false) {before : List Char}
    (same : mode.step before c = .commentStar) : c = '*' := by
  cases mode with
  | code | slash | word _ _ | number => cases closed
  | escaped mark => cases same
  | quoted mark =>
      rw [step] at same
      split at same
      · cases same
      · split at same <;> cases same
  | lineComment =>
      rw [step] at same
      split at same <;> cases same
  | blockComment =>
      rw [step] at same
      split at same
      · exact beq_iff_eq.mp ‹_›
      · cases same
  | commentStar =>
      rw [step] at same
      split at same
      · cases same
      · split at same
        · exact beq_iff_eq.mp ‹_›
        · cases same

/-- The signs between static text and code. -/
def isBorder (c : Char) : Bool :=
  c == '\x60' || c == '\x7b' || c == '\x7d'

theorem isBorder_cases (border : isBorder c = true) : c = '\x60' ∨ c = '\x7b' ∨ c = '\x7d' := by
  simpa [isBorder, or_assoc] using border

theorem isOpen_step_border (hasMark : mode.HasMark) (before : List Char)
    (border : isBorder c = true) : (mode.step before c).isOpen = mode.isOpen := by
  rcases isBorder_cases border with rfl | rfl | rfl <;>
    exact isOpen_step hasMark before (by decide) (by decide) (by decide) (by decide)

/-- Behind such a sign the scan stands in code, unless it had left it before. -/
theorem step_eq_code_iff (hasMark : mode.HasMark) (before : List Char)
    (border : isBorder c = true) : mode.step before c = .code ↔ mode.isOpen = true := by
  constructor
  · intro same
    rw [← isOpen_step_border hasMark before border, same]
    rfl
  · intro isOpen
    have enters : enter before c = .code := by
      rcases isBorder_cases border with rfl | rfl | rfl <;> rfl
    have noPart : isPart c = false ∧ (isAsciiAlphanumeric c || c == '.') = false ∧
        (c == '/') = false ∧ (c == '*') = false := by
      rcases isBorder_cases border with rfl | rfl | rfl <;> decide
    obtain ⟨noPart, noNumber, noSlash, noStar⟩ := noPart
    cases mode with
    | code => exact enters
    | word _ _ => rw [step, noPart, if_neg Bool.false_ne_true, enters]
    | number => rw [step, noNumber, if_neg Bool.false_ne_true, enters]
    | slash =>
        rw [step, noSlash, noStar, if_neg Bool.false_ne_true, if_neg Bool.false_ne_true, enters]
    | quoted _ | escaped _ | lineComment | blockComment | commentStar => cases isOpen

end ScanMode

theorem hasMark_after_code (before text : List Char) : (ScanMode.code.after before text).HasMark :=
  have hasMark : ScanMode.code.HasMark := trivial
  hasMark.after before text

theorem reading_append (first second : List Char) :
    reading (first ++ second) = (reading first).after first.reverse second := by
  rw [reading, ScanMode.after_append, List.append_nil]
  rfl

/-- Behind a sign between static text and code the scan is in the mode for code, or in none of the
open modes. -/
theorem reading_concat_eq_code_iff (text : List Char) {c : Char}
    (border : ScanMode.isBorder c = true) :
    reading (text ++ [c]) = .code ↔ (reading text).isOpen = true := by
  rw [reading_append]
  exact ScanMode.step_eq_code_iff (hasMark_after_code [] text) text.reverse border

/-! ## From stretch to stretch -/

/-- Behind the first text, the second one leads from code to code. -/
def Passes (before text : List Char) : Prop :=
  ScanMode.code.after before.reverse text = .code

section Passes

variable {before first second : List Char} {c : Char}

theorem Passes.append_iff (passes : Passes before first) :
    Passes before (first ++ second) ↔ Passes (before ++ first) second := by
  rw [Passes, Passes, ScanMode.after_append, List.reverse_append]
  rw [Passes] at passes
  rw [passes]

theorem reading_append_eq_code_iff (reads : reading before = .code) :
    reading (before ++ first) = .code ↔ Passes before first := by
  rw [reading_append, reads, Passes]

/-- Static text leads to code again if it is calm. -/
theorem passes_static_iff (static : List Char) (border : ScanMode.isBorder c = true) :
    Passes before (static ++ [c]) ↔ isCalm static = true := by
  rw [Passes, ScanMode.after_append, ← ScanMode.isOpen_after_code before.reverse static]
  exact ScanMode.step_eq_code_iff (hasMark_after_code _ static) _ border

/-- With the opening of a substitution it is still the text before that counts. -/
theorem passes_opening_iff (static : List Char) :
    Passes before (static ++ ['$', '\x7b']) ↔ isCalm static = true := by
  have hasMark := hasMark_after_code before.reverse static
  rw [Passes, ScanMode.after_append, ← ScanMode.isOpen_after_code before.reverse static,
    ScanMode.after_cons, ScanMode.after_cons]
  refine (ScanMode.step_eq_code_iff (hasMark.step _ '$') _ rfl).trans ?_
  rw [ScanMode.isOpen_step hasMark _ (by decide) (by decide) (by decide) (by decide)]

theorem passes_tokens {tokens : List Token} {after : List Char}
    (fit : FitTogether (c :: after) tokens) (border : ScanMode.isBorder c = true) :
    Passes before (textOf tokens ++ [c]) := by
  rw [Passes, fit.after_concat]
  rcases ScanMode.isBorder_cases border with rfl | rfl | rfl <;> rfl

end Passes

mutual

/-- If the texts that code follows are calm, the scan is in code behind a template exactly if its
last text is calm as well. -/
theorem Template.Fits.passes_iff {after : List Char} : {template : Template} → template.Fits after →
    template.Calm → ∀ before : List Char,
      (Passes before template.text ↔ isCalm template.lastStatic = true)
  | .last static, _, _, _ => passes_static_iff static rfl
  | .part static inner rest, ⟨_, innerFits, _, restFits⟩, ⟨calm, innerCalm, restCalm⟩, before => by
      have opens : Passes before (static ++ ['$', '\x7b']) := (passes_opening_iff static).mpr calm
      have closes := innerFits.passes innerCalm rfl (before ++ (static ++ ['$', '\x7b']))
      rw [Template.text, (opens.append_iff.mpr closes).append_iff]
      exact restFits.passes_iff restCalm _

/-- If the static texts in it are calm, code is read to its end. -/
theorem Code.Fits.passes {c : Char} {after : List Char} : {code : Code} →
    code.Fits (c :: after) → code.Calm → ScanMode.isBorder c = true → ∀ before : List Char,
      Passes before (code.text ++ [c])
  | .plain tokens, fit, _, border, before => passes_tokens fit border
  | .around tokens template rest, ⟨fit, templateFits, restFits⟩, ⟨calm, lastCalm, restCalm⟩,
      border, before => by
      have opens : Passes before (textOf tokens ++ ['\x60']) := passes_tokens fit rfl
      have closes :=
        (templateFits.passes_iff calm (before ++ (textOf tokens ++ ['\x60']))).mpr lastCalm
      rw [Code.text, List.append_assoc, (opens.append_iff.mpr closes).append_iff]
      exact restFits.passes restCalm border _

end

/-- Code begins with a stretch. -/
theorem Code.exists_stretch (code : Code) (before after : List Char) :
    ∃ stretch ∈ code.stretches before after, stretch.before = before := by
  cases code with
  | plain tokens => exact ⟨_, List.mem_singleton_self _, rfl⟩
  | around tokens template rest => exact ⟨_, List.mem_cons_self, rfl⟩

mutual

/-- From code on, the scan is in code at each stretch of a template exactly if the texts before them
are calm. -/
theorem Template.Fits.stretches_iff {after : List Char} : {template : Template} →
    template.Fits after → ∀ before : List Char, reading before = .code →
      ((∀ stretch ∈ template.stretches before after, reading stretch.before = .code) ↔
        template.Calm)
  | .last _, _, _, _ => ⟨fun _ => trivial, fun _ _ member => absurd member List.not_mem_nil⟩
  | .part static inner rest, ⟨_, innerFits, _, restFits⟩, before, reads => by
      rw [Template.stretches, List.forall_mem_append, Template.Calm]
      have opens_iff : reading (before ++ (static ++ ['$', '\x7b'])) = .code ↔
          isCalm static = true :=
        (reading_append_eq_code_iff reads).trans (passes_opening_iff static)
      have innerIff := fun calm => innerFits.stretches_iff _ (opens_iff.mpr calm)
      have closes := fun calm innerCalm => (reading_append_eq_code_iff (opens_iff.mpr calm)).mpr
        (innerFits.passes innerCalm rfl _)
      constructor
      · rintro ⟨within, later⟩
        obtain ⟨first, member, same⟩ := inner.exists_stretch
          (before ++ (static ++ ['$', '\x7b'])) ('\x7d' :: (rest.text ++ after))
        have calm := opens_iff.mp (same ▸ within first member)
        have innerCalm := (innerIff calm).mp within
        exact ⟨calm, innerCalm, (restFits.stretches_iff _ (closes calm innerCalm)).mp later⟩
      · rintro ⟨calm, innerCalm, restCalm⟩
        exact ⟨(innerIff calm).mpr innerCalm,
          (restFits.stretches_iff _ (closes calm innerCalm)).mpr restCalm⟩

theorem Code.Fits.stretches_iff {after : List Char} : {code : Code} →
    code.Fits after → ∀ before : List Char, reading before = .code →
      ((∀ stretch ∈ code.stretches before after, reading stretch.before = .code) ↔ code.Calm)
  | .plain _, _, _, reads =>
      ⟨fun _ => trivial, fun _ _ member => List.mem_singleton.mp member ▸ reads⟩
  | .around tokens template rest, ⟨fit, templateFits, restFits⟩, before, reads => by
      rw [Code.stretches, List.forall_mem_cons, List.forall_mem_append, Code.Calm]
      have opens : reading (before ++ (textOf tokens ++ ['\x60'])) = .code :=
        (reading_append_eq_code_iff reads).mpr (passes_tokens fit rfl)
      have templateIff := templateFits.stretches_iff _ opens
      have closes_iff := fun calm =>
        (reading_append_eq_code_iff opens).trans (templateFits.passes_iff calm _)
      constructor
      · rintro ⟨-, within, later⟩
        have calm := templateIff.mp within
        obtain ⟨first, member, same⟩ := rest.exists_stretch
          (before ++ (textOf tokens ++ ['\x60']) ++ template.text) after
        have closed := same ▸ later first member
        exact ⟨calm, (closes_iff calm).mp closed, (restFits.stretches_iff _ closed).mp later⟩
      · rintro ⟨calm, lastCalm, restCalm⟩
        have closed := (closes_iff calm).mpr lastCalm
        exact ⟨reads, templateIff.mpr calm, (restFits.stretches_iff _ closed).mpr restCalm⟩

end

/-! ## Within a stretch -/

theorem Template.exists_text_eq : ∀ template : Template, ∃ text, template.text = text ++ ['\x60']
  | .last static => ⟨static, rfl⟩
  | .part static inner rest => by
      obtain ⟨text, same⟩ := rest.exists_text_eq
      exact ⟨static ++ ['$', '\x7b'] ++ (inner.text ++ ['\x7d']) ++ text, by
        rw [Template.text, same, List.append_assoc _ text]⟩

/-- A stretch stands where it is said to stand: behind a sign between static text and code. -/
structure Stretch.StandsIn (stretch : Stretch) (code : List Char) : Prop where
  code : code = stretch.before ++ (textOf stretch.tokens ++ stretch.after)
  fit : FitTogether stretch.after stretch.tokens
  border : ∃ text c, stretch.before = text ++ [c] ∧ ScanMode.isBorder c = true

mutual

theorem Template.Fits.standsIn {after : List Char} : {template : Template} →
    template.Fits after → ∀ before : List Char, ∀ stretch ∈ template.stretches before after,
      stretch.StandsIn (before ++ (template.text ++ after))
  | .last _, _, _ => fun _ member => absurd member List.not_mem_nil
  | .part static inner rest, ⟨_, innerFits, _, restFits⟩, before => by
      rw [Template.stretches, List.forall_mem_append, Template.text]
      constructor
      · have within := innerFits.standsIn (before ++ (static ++ ['$', '\x7b']))
          ⟨before ++ (static ++ ['$']), '\x7b', by simp, rfl⟩
        simpa using within
      · have later := restFits.standsIn
          (before ++ (static ++ ['$', '\x7b']) ++ (inner.text ++ ['\x7d']))
        simpa using later

theorem Code.Fits.standsIn {after : List Char} : {code : Code} → code.Fits after →
    ∀ before : List Char, (∃ text c, before = text ++ [c] ∧ ScanMode.isBorder c = true) →
      ∀ stretch ∈ code.stretches before after, stretch.StandsIn (before ++ (code.text ++ after))
  | .plain tokens, fit, before, border => fun stretch member =>
      List.mem_singleton.mp member ▸ ⟨rfl, fit, border⟩
  | .around tokens template rest, ⟨fit, templateFits, restFits⟩, before, border => by
      rw [Code.stretches, List.forall_mem_cons, List.forall_mem_append, Code.text]
      refine ⟨⟨by simp, fit, border⟩, ?_, ?_⟩
      · have within := templateFits.standsIn (before ++ (textOf tokens ++ ['\x60']))
        simpa using within
      · obtain ⟨text, same⟩ := template.exists_text_eq
        have later := restFits.standsIn (before ++ (textOf tokens ++ ['\x60']) ++ template.text)
          ⟨before ++ (textOf tokens ++ ['\x60']) ++ text, '\x60',
            by rw [same, List.append_assoc _ text], rfl⟩
        simpa using later

end

namespace Stretch

variable {stretch : Stretch} {code : List Char}

/-- Either the scan is in code at a stretch, or it is in a quoted text or a comment. -/
theorem StandsIn.isOpen_iff (stands : stretch.StandsIn code) :
    (reading stretch.before).isOpen = true ↔ reading stretch.before = .code := by
  obtain ⟨text, c, same, border⟩ := stands.border
  have hasMark : (reading text).HasMark := hasMark_after_code [] text
  rw [same, reading_concat_eq_code_iff text border, reading_append, ScanMode.after_cons,
    ScanMode.after, ScanMode.isOpen_step_border hasMark text.reverse border]

/-- In code, the scan notes what a stretch refers to. -/
theorem StandsIn.noted_eq (stands : stretch.StandsIn code)
    (reads : reading stretch.before = .code) : stretch.noted = stretch.names := by
  have alone : FitTogether [] stretch.tokens := FitTogether.of_append stands.fit
  have names := alone.namesFrom_eq stretch.before
  have done : namesFrom .code (stretch.before ++ textOf stretch.tokens).reverse [] = [] := rfl
  rw [done, List.append_nil, List.append_nil] at names
  rw [noted, reads, names, Stretch.names]

/-- What a stretch refers to is among the names of the code. -/
theorem StandsIn.mem_referenced (stands : stretch.StandsIn code)
    (reads : reading stretch.before = .code) {name : List Char} (member : name ∈ stretch.names) :
    String.ofList name ∈ referenced (String.ofList code) := by
  have context : stretch.before.reverse ++ [] = stretch.before.reverse := List.append_nil _
  have mode : ScanMode.code.after [] stretch.before = .code := reads
  rw [referenced, List.mem_eraseDups, String.toList_ofList, stands.code, namesFrom_append, mode,
    context, stands.fit.namesFrom_eq]
  refine List.mem_map_of_mem ?_
  exact List.mem_append_right _ (List.mem_append_left _ member)

end Stretch

/-- In a quoted text or a comment nothing is noted as long as nothing closes it. -/
theorem namesFrom_of_closed {mode : ScanMode} (hasMark : mode.HasMark)
    (closed : mode.isOpen = false) {text : List Char}
    (within : ∀ c ∈ text, isMark c = false ∧ c ≠ '\n')
    (noEnd : ¬ ['*', '/'] <:+: text) (noSlash : mode = .commentStar → text.head? ≠ some '/')
    (before : List Char) : namesFrom mode before text = [] := by
  induction text generalizing mode before with
  | nil => cases mode <;> first | rfl | cases closed
  | cons c rest ih =>
      have nameless : mode.name? = none := by cases mode <;> first | rfl | cases closed
      obtain ⟨noMark, noLine⟩ := within c List.mem_cons_self
      have stays := ScanMode.isOpen_step_of_closed hasMark closed before noMark noLine
        fun same => by simpa using noSlash same
      rw [namesFrom, nameless, ih (hasMark.step before c) stays
        (fun other member => within other (List.mem_cons_of_mem c member))
        (fun inside => noEnd (inside.trans (List.suffix_cons c rest).isInfix))]
      · rw [List.append_nil]
        exact ite_self _
      · intro star slash
        obtain ⟨others, rfl⟩ := List.head?_eq_some_iff.mp slash
        rw [ScanMode.eq_star_of_step closed star] at noEnd
        exact noEnd (List.prefix_append ['*', '/'] others).isInfix

/-- Out of code, the scan notes nothing in a stretch that closes nothing. -/
theorem Stretch.StandsIn.noted_eq_nil {stretch : Stretch} {code : List Char}
    (stands : stretch.StandsIn code) (astray : reading stretch.before ≠ .code)
    (quiet : stretch.IsQuiet) : stretch.noted = [] := by
  have closed : (reading stretch.before).isOpen = false := by
    rw [← Bool.not_eq_true, stands.isOpen_iff]
    exact astray
  refine namesFrom_of_closed (hasMark_after_code [] _) closed quiet.within quiet.noEnd ?_ _
  -- Behind such a sign no star has just been read.
  intro star
  change reading stretch.before = .commentStar at star
  obtain ⟨text, c, same, border⟩ := stands.border
  have hasMark : (reading text).HasMark := hasMark_after_code [] text
  rw [same, reading_append, ScanMode.after_cons, ScanMode.after] at star closed
  rw [ScanMode.isOpen_step_border hasMark text.reverse border] at closed
  rw [ScanMode.eq_star_of_step closed star] at border
  cases border

/-! ## All stretches of a template -/

/-- From code on, the scan is in code at all stretches of code in a template exactly if the static
texts that code follows close what they open.  Where it is in code, it notes what the stretch refers
to, so that a state among these names is a dependency; where it is not, it notes nothing, unless
something in the stretch itself ends the quoted text or the comment that it takes it for. -/
theorem template_names_noted_iff (before after : List Char) {template : Template}
    (fits : template.Fits after) :
    let code := String.ofList (before ++ '\x60' :: (template.text ++ after))
    let stretches := template.stretches (before ++ ['\x60']) after
    ((reading before).isOpen = true →
      ((∀ stretch ∈ stretches, reading stretch.before = .code) ↔ template.Calm)) ∧
      ∀ stretch ∈ stretches,
        (reading stretch.before = .code →
          stretch.noted = stretch.names ∧ ∀ name ∈ stretch.names,
            String.ofList name ∈ referenced code ∧
              ∀ reactive, String.ofList name ∈ reactive →
                String.ofList name ∈ dependencies code reactive) ∧
        (reading stretch.before ≠ .code → stretch.IsQuiet → stretch.noted = []) := by
  intro code stretches
  refine ⟨fun isOpen => ?_, fun stretch member => ?_⟩
  · exact fits.stretches_iff _ ((reading_concat_eq_code_iff before rfl).mpr isOpen)
  · have stands := fits.standsIn (before ++ ['\x60']) stretch member
    rw [List.append_assoc, List.singleton_append] at stands
    refine ⟨fun reads => ⟨stands.noted_eq reads, fun name inside => ?_⟩,
      fun astray quiet => stands.noted_eq_nil astray quiet⟩
    have found := stands.mem_referenced reads inside
    refine ⟨found, fun reactive isState => ?_⟩
    exact List.mem_filter.mpr ⟨isState, List.contains_iff_mem.mpr found⟩

/-- A template in a substitution of another one: the apostrophe stands in front of a line end, and
the slash in front of a blank. -/
theorem template_names_noted_of_nested :
    let before := "x + ".toList
    let template : Template :=
      .part "it's\n".toList
        (.around [⟨.name, "show".toList⟩, ⟨.sign, "(".toList⟩]
          (.part "a / b = ".toList (.plain [⟨.name, "count".toList⟩]) (.last ['\x7b']))
          (.plain [⟨.sign, ")".toList⟩]))
        (.last "!".toList)
    let code := String.ofList (before ++ '\x60' :: (template.text ++ ";".toList))
    let stretches := template.stretches (before ++ ['\x60']) ";".toList
    template.Fits ";".toList ∧ (reading before).isOpen = true ∧ template.Calm ∧
      stretches.flatMap Stretch.names = ["show".toList, "count".toList] ∧
        ∀ stretch ∈ stretches, stretch.noted = stretch.names ∧
          ∀ name ∈ stretch.names, String.ofList name ∈ referenced code := by
  intro before template code stretches
  have fits : template.Fits ";".toList := by decide +kernel
  have calm : template.Calm := by decide +kernel
  have isOpen : (reading before).isOpen = true := by decide +kernel
  obtain ⟨reads, noted⟩ := template_names_noted_iff before ";".toList fits
  refine ⟨fits, isOpen, calm, by decide +kernel, fun stretch member => ?_⟩
  obtain ⟨same, found⟩ := (noted stretch member).1 ((reads isOpen).mpr calm stretch member)
  exact ⟨same, fun name inside => (found name inside).1⟩

/-- An apostrophe in the static text hides the state in the substitution behind it. -/
theorem not_referenced_of_apostrophe :
    let template : Template := .part ['\x27'] (.plain [⟨.name, "count".toList⟩]) (.last [])
    let code := "`'$\x7bcount\x7d`"
    code.toList = '\x60' :: template.text ∧ template.Fits [] ∧ ¬ template.Calm ∧
      (template.stretches ['\x60'] []).flatMap Stretch.names = ["count".toList] ∧
        referenced code = [] ∧ dependencies code ["count"] = [] := by
  decide +kernel

end Identifier
end Hookify
