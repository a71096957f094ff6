import Hookify.Identifier.Scan
import Hookify.Proofs.Text.Ascii
import Mathlib.Data.List.Infix

namespace Hookify
namespace Identifier

open Text

/-!
# The scan token by token

The scan for identifiers goes by single characters and keeps a mode.  Code is
made of tokens, and each of them is as long as it can be.  That a token ends
where the scan leaves the mode of that token is the one fact that connects the
two: a name and a number go on as long as they can, a quoted text and a comment
know their own end, and of a slash it is only the next character that tells.

So the scan is in the mode for code wherever a token begins, whatever tokens
came before.  What it notes are the names among the tokens, up to those that
stand behind a dot.
-/

/-! ## Tokens -/

/-- The kinds of tokens. -/
inductive TokenKind where
  | name
  | number
  | quoted
  | comment
  | blank
  /-- A single character that belongs to no other kind. -/
  | sign
  deriving Repr, DecidableEq

/-- The marks around quoted texts. -/
def isMark (c : Char) : Bool :=
  c == '\x27' || c == '\x22'

/-- The characters that a number goes on with. -/
def isNumberPart (c : Char) : Bool :=
  isAsciiAlphanumeric c || c == '.'

/-- The characters that stand for themselves. Templates are no tokens, so their mark is none. -/
def isSign (c : Char) : Bool :=
  ! (isStart c || isAsciiDigit c || isBlank c || isMark c || c == '\x60')

/-- The text ends with the mark that closes a quoted text: the first one without a backslash before
it, with no line end on the way to it. -/
def closesQuoted (mark : Char) : List Char → Bool
  | [] => false
  | [c] => c == mark
  | c :: next :: rest =>
      if c == '\\' then closesQuoted mark rest
      else c != mark && c != '\n' && closesQuoted mark (next :: rest)

/-- The text ends with the first star that a slash follows. -/
def closesComment : List Char → Bool
  | [] | [_] => false
  | c :: next :: rest =>
      if c == '*' && next == '/' then rest.isEmpty else closesComment (next :: rest)

/-- A text is a token of a kind. -/
def isToken : TokenKind → List Char → Bool
  | _, [] => false
  | .name, first :: rest => isStart first && rest.all isPart
  | .number, first :: rest => isAsciiDigit first && rest.all isNumberPart
  | .quoted, mark :: rest => isMark mark && closesQuoted mark rest
  | .comment, first :: rest =>
      first == '/' && rest.head? == some '*' && closesComment rest.tail
  | .blank, chars => chars.all isBlank
  | .sign, first :: rest => isSign first && rest.isEmpty

/-- A token of code. -/
structure Token where
  kind : TokenKind
  text : List Char
  deriving Repr, DecidableEq

/-- A token stands in front of a text: none of any kind is longer there, and a slash does not begin
a comment. -/
structure Token.Fits (token : Token) (after : List Char) : Prop where
  valid : isToken token.kind token.text = true
  longest : ∀ kind longer, longer <+: token.text ++ after → isToken kind longer = true →
    longer.length ≤ token.text.length
  noComment : token.text = ['/'] → after.head? ≠ some '/' ∧ after.head? ≠ some '*'

/-- The text of tokens. -/
def textOf (tokens : List Token) : List Char :=
  tokens.flatMap (·.text)

/-- Tokens stand one behind the other in front of a text. -/
def FitTogether (after : List Char) : List Token → Prop
  | [] => True
  | token :: rest => token.Fits (textOf rest ++ after) ∧ FitTogether after rest

/-- A code splits into tokens, each as long as possible. -/
structure Splits (code : List Char) (tokens : List Token) : Prop where
  text : code = textOf tokens
  fit : FitTogether [] tokens

/-- All kinds of tokens. -/
def TokenKind.all : List TokenKind :=
  [.name, .number, .quoted, .comment, .blank, .sign]

theorem TokenKind.mem_all (kind : TokenKind) : kind ∈ all := by
  cases kind <;> decide

/-- Only the beginnings of a text can be tokens there. -/
theorem Token.fits_iff {token : Token} {after : List Char} : token.Fits after ↔
    isToken token.kind token.text = true ∧
      (∀ longer ∈ (token.text ++ after).inits, ∀ kind ∈ TokenKind.all,
        isToken kind longer = true → longer.length ≤ token.text.length) ∧
      (token.text = ['/'] → after.head? ≠ some '/' ∧ after.head? ≠ some '*') := by
  constructor
  · intro fits
    refine ⟨fits.valid, fun longer within kind _ => ?_, fits.noComment⟩
    exact fits.longest kind longer ((List.mem_inits _ _).mp within)
  · rintro ⟨valid, longest, noComment⟩
    refine ⟨valid, fun kind longer within => ?_, noComment⟩
    exact longest longer ((List.mem_inits _ _).mpr within) kind kind.mem_all

instance (token : Token) (after : List Char) : Decidable (token.Fits after) :=
  decidable_of_iff _ Token.fits_iff.symm

instance FitTogether.decide (after : List Char) :
    (tokens : List Token) → Decidable (FitTogether after tokens)
  | [] => .isTrue trivial
  | token :: rest =>
      have := FitTogether.decide after rest
      inferInstanceAs (Decidable (token.Fits (textOf rest ++ after) ∧ FitTogether after rest))

instance (code : List Char) (tokens : List Token) : Decidable (Splits code tokens) :=
  decidable_of_iff (code = textOf tokens ∧ FitTogether [] tokens)
    ⟨fun both => ⟨both.1, both.2⟩, fun splits => ⟨splits.text, splits.fit⟩⟩

/-! ## The names that tokens refer to -/

/-- A name behind this text is the name of a member: the nearest character that is not blank is a
dot, and not the last of three in a row. -/
def isMemberPlace (before : List Char) : Bool :=
  ['.'].isSuffixOf (trimEndChars before) && ! ['.', '.', '.'].isSuffixOf (trimEndChars before)

/-- The names among the tokens behind a text that are not those of members. -/
def references (before : List Char) : List Token → List (List Char)
  | [] => []
  | token :: rest =>
      (if token.kind == .name && ! isMemberPlace before then [token.text] else []) ++
        references (before ++ token.text) rest

theorem followsDot_reverse (before : List Char) :
    followsDot before.reverse = isMemberPlace before := by
  rw [followsDot, isMemberPlace, trimStartChars, trimEndChars, List.isSuffixOf, List.isSuffixOf,
    List.reverse_reverse]
  generalize before.reverse.dropWhile isBlank = last
  rcases last with _ | ⟨first, _ | ⟨second, _ | ⟨third, rest⟩⟩⟩ <;>
    simp [List.isPrefixOf] <;> grind

/-! ## Classes of characters -/

/-- The codes of the blank characters. -/
def blankCodes : List Nat :=
  [ 0x9, 0xA, 0xB, 0xC, 0xD, 0x20, 0x85, 0xA0, 0x1680, 0x2000, 0x2001, 0x2002, 0x2003, 0x2004,
    0x2005, 0x2006, 0x2007, 0x2008, 0x2009, 0x200A, 0x2028, 0x2029, 0x202F, 0x205F, 0x3000 ]

theorem mem_blankCodes {c : Char} (blank : isBlank c = true) : c.toNat ∈ blankCodes := by
  simp only [isBlank, Bool.or_eq_true, Bool.and_eq_true, decide_eq_true_eq, beq_iff_eq] at blank
  simp only [blankCodes, List.mem_cons, List.not_mem_nil, or_false]
  omega

/-- No blank character begins a token of another kind. -/
theorem eq_false_of_isBlank {c : Char} (blank : isBlank c = true) :
    isStart c = false ∧ isAsciiDigit c = false ∧ isMark c = false ∧ c ≠ '/' := by
  have listed : ∀ code ∈ blankCodes, isStart (Char.ofNat code) = false ∧
      isAsciiDigit (Char.ofNat code) = false ∧ isMark (Char.ofNat code) = false ∧
        Char.ofNat code ≠ '/' := by
    decide +kernel
  have same := listed c.toNat (mem_blankCodes blank)
  rwa [Char.ofNat_toNat] at same

section Enter

variable {c : Char} (before : List Char)

theorem enter_eq : enter before c =
    if isMark c then .quoted c
    else if c == '/' then .slash
    else if isStart c then .word (followsDot before) [c]
    else if isAsciiDigit c then .number
    else .code := rfl

theorem isMark_eq_true_iff : isMark c = true ↔ c = '\x27' ∨ c = '\x22' := by
  simp [isMark]

theorem isSign_eq_true_iff : isSign c = true ↔
    isStart c = false ∧ isAsciiDigit c = false ∧ isBlank c = false ∧ isMark c = false ∧
      c ≠ '\x60' := by
  simp [isSign, and_assoc]

/-- What begins a token of one kind begins none of the others. -/
theorem isMark_eq_false_of {plain : Char → Bool} (quote : plain '\x27' = false)
    (double : plain '\x22' = false) (holds : plain c = true) : isMark c = false := by
  rw [← Bool.not_eq_true, isMark_eq_true_iff]
  rintro (rfl | rfl)
  · rw [quote] at holds
    cases holds
  · rw [double] at holds
    cases holds

theorem ne_slash_of {plain : Char → Bool} (slash : plain '/' = false) (holds : plain c = true) :
    (c == '/') = false := by
  rw [beq_eq_false_iff_ne]
  rintro rfl
  rw [slash] at holds
  cases holds

theorem enter_of_isMark (mark : isMark c = true) : enter before c = .quoted c := by
  rw [enter_eq, if_pos mark]

theorem enter_of_isStart (start : isStart c = true) :
    enter before c = .word (followsDot before) [c] := by
  rw [enter_eq, isMark_eq_false_of (by decide) (by decide) start, if_neg Bool.false_ne_true,
    ne_slash_of (by decide) start, if_neg Bool.false_ne_true, if_pos start]

theorem isStart_eq_false_of_digit (digit : isAsciiDigit c = true) : isStart c = false := by
  have range := (isAsciiDigit_iff c).mp digit
  have ascii : c.toNat < 0x80 := by omega
  rw [isStart, isLetter, if_pos ascii, isAsciiLetter_eq_false_of_digit digit, Bool.false_or,
    ← Bool.not_eq_true, Bool.or_eq_true, beq_iff_eq, beq_iff_eq]
  rintro (rfl | rfl) <;> cases digit

theorem enter_of_isAsciiDigit (digit : isAsciiDigit c = true) : enter before c = .number := by
  rw [enter_eq, isMark_eq_false_of (by decide) (by decide) digit, if_neg Bool.false_ne_true,
    ne_slash_of (by decide) digit, if_neg Bool.false_ne_true, isStart_eq_false_of_digit digit,
    if_neg Bool.false_ne_true, if_pos digit]

theorem enter_of_isBlank (blank : isBlank c = true) : enter before c = .code := by
  obtain ⟨noStart, noDigit, noMark, noSlash⟩ := eq_false_of_isBlank blank
  rw [enter_eq, noMark, noStart, noDigit, beq_eq_false_iff_ne.mpr noSlash]
  rfl

theorem enter_of_isSign (sign : isSign c = true) :
    enter before c = if c == '/' then .slash else .code := by
  obtain ⟨noStart, noDigit, _, noMark, _⟩ := isSign_eq_true_iff.mp sign
  rw [enter_eq, noMark, noStart, noDigit]
  rfl

end Enter

/-! ## Reading a text -/

/-- The mode after a text that is read behind the given characters. -/
def ScanMode.after (mode : ScanMode) (before : List Char) : List Char → ScanMode
  | [] => mode
  | c :: rest => (mode.step before c).after (c :: before) rest

/-- The names that end inside of a text that is read behind the given characters. -/
def namesIn (mode : ScanMode) (before : List Char) : List Char → List (List Char)
  | [] => []
  | c :: rest =>
      (if mode.continues c then [] else mode.name?.toList) ++
        namesIn (mode.step before c) (c :: before) rest

theorem namesFrom_append (mode : ScanMode) (before first second : List Char) :
    namesFrom mode before (first ++ second) = namesIn mode before first ++
      namesFrom (mode.after before first) (first.reverse ++ before) second := by
  induction first generalizing mode before with
  | nil => rfl
  | cons c rest ih =>
      rw [List.cons_append, namesFrom, ih, namesIn, ScanMode.after, List.reverse_cons,
        List.append_assoc, List.append_assoc]
      rfl

theorem ScanMode.after_append (mode : ScanMode) (before first second : List Char) :
    mode.after before (first ++ second) =
      (mode.after before first).after (first.reverse ++ before) second := by
  induction first generalizing mode before with
  | nil => rfl
  | cons c rest ih =>
      rw [List.cons_append, after, ih, after, List.reverse_cons, List.append_assoc]
      rfl

/-! ## Reading a token -/

/-- The mode behind a token that has been read behind the given characters. -/
def Token.mode (token : Token) (before : List Char) : ScanMode :=
  match token.kind with
  | .name => .word (followsDot before) token.text.reverse
  | .number => .number
  | .sign => if token.text == ['/'] then .slash else .code
  | .quoted | .comment | .blank => .code

/-- From one mode a text leads to another, and no name ends on the way. -/
def LeadsTo (mode : ScanMode) (before text : List Char) (target : ScanMode) : Prop :=
  mode.after before text = target ∧ namesIn mode before text = []

section LeadsTo

variable {mode target : ScanMode} {before text : List Char} {c : Char}

theorem LeadsTo.refl (mode : ScanMode) (before : List Char) : LeadsTo mode before [] mode :=
  ⟨rfl, rfl⟩

theorem LeadsTo.cons (silent : mode.continues c = true ∨ mode.name? = none)
    (further : LeadsTo (mode.step before c) (c :: before) text target) :
    LeadsTo mode before (c :: text) target := by
  refine ⟨further.1, ?_⟩
  rw [namesIn, further.2, List.append_nil]
  rcases silent with continues | nameless
  · rw [if_pos continues]
  · rw [nameless]
    exact ite_self _

theorem leadsTo_word {isMember : Bool} (letters : List Char) (parts : text.all isPart = true) :
    LeadsTo (.word isMember letters) before text (.word isMember (text.reverse ++ letters)) := by
  induction text generalizing before letters with
  | nil => exact .refl _ _
  | cons c rest ih =>
      rw [List.all_cons, Bool.and_eq_true] at parts
      refine .cons (.inl parts.1) ?_
      rw [ScanMode.step, if_pos parts.1, List.reverse_cons, List.append_assoc]
      exact ih (c :: letters) parts.2

theorem leadsTo_number (parts : text.all isNumberPart = true) :
    LeadsTo .number before text .number := by
  induction text generalizing before with
  | nil => exact .refl _ _
  | cons c rest ih =>
      rw [List.all_cons, Bool.and_eq_true] at parts
      have goesOn : (isAsciiAlphanumeric c || c == '.') = true := parts.1
      refine .cons (.inr rfl) ?_
      rw [ScanMode.step, if_pos goesOn]
      exact ih parts.2

theorem leadsTo_blank (blanks : text.all isBlank = true) : LeadsTo .code before text .code := by
  induction text generalizing before with
  | nil => exact .refl _ _
  | cons c rest ih =>
      rw [List.all_cons, Bool.and_eq_true] at blanks
      refine .cons (.inr rfl) ?_
      rw [ScanMode.step, enter_of_isBlank before blanks.1]
      exact ih blanks.2

theorem leadsTo_quoted {mark : Char} (isMark : isMark mark = true)
    (closes : closesQuoted mark text = true) : LeadsTo (.quoted mark) before text .code := by
  have noBackslash : mark ≠ '\\' := by
    rcases isMark_eq_true_iff.mp isMark with rfl | rfl <;> decide
  fun_induction closesQuoted mark text generalizing before with
  | case1 => cases closes
  | case2 c =>
      rw [beq_iff_eq] at closes
      refine .cons (.inr rfl) ?_
      rw [closes, ScanMode.step, if_neg (by simpa using noBackslash),
        if_pos (by rw [beq_self_eq_true, Bool.true_or])]
      exact .refl _ _
  | case3 c next rest escape ih =>
      refine .cons (.inr rfl) ?_
      rw [ScanMode.step, if_pos escape]
      exact .cons (.inr rfl) (ih closes)
  | case4 c next rest plain ih =>
      simp only [Bool.and_eq_true, bne_iff_ne] at closes
      refine .cons (.inr rfl) ?_
      rw [ScanMode.step, if_neg plain, if_neg (by simpa using closes.1)]
      exact ih closes.2

/-- After a star that no slash follows, a comment goes on as without it. -/
theorem step_commentStar (before : List Char) (noSlash : c ≠ '/') :
    ScanMode.commentStar.step before c = ScanMode.blockComment.step before c := by
  rw [ScanMode.step, ScanMode.step, if_neg (by simpa using noSlash)]

theorem leadsTo_comment (closes : closesComment text = true) :
    LeadsTo .blockComment before text .code := by
  fun_induction closesComment text generalizing before with
  | case1 => cases closes
  | case2 => cases closes
  | case3 c next rest ends =>
      obtain ⟨star, slash⟩ := Bool.and_eq_true_iff.mp ends
      rw [beq_iff_eq] at star slash
      rw [List.isEmpty_iff] at closes
      rw [star, slash, closes]
      exact .cons (.inr rfl) (.cons (.inr rfl) (.refl _ _))
  | case4 c next rest goesOn ih =>
      refine .cons (.inr rfl) ?_
      have further := @ih (c :: before) closes
      rw [ScanMode.step]
      split
      · rename_i star
        have noSlash : next ≠ '/' := by
          rintro rfl
          exact goesOn (by rw [star]; rfl)
        refine ⟨?_, ?_⟩
        · rw [ScanMode.after, step_commentStar _ noSlash]
          exact further.1
        · rw [namesIn, step_commentStar _ noSlash]
          exact further.2
      · exact further

/-- Read as code, a token leads to the mode of its kind. -/
theorem leadsTo_token (before : List Char) {token : Token}
    (isToken : isToken token.kind token.text = true) :
    LeadsTo .code before token.text (token.mode before) := by
  obtain ⟨kind, text⟩ := token
  cases text with
  | nil => cases kind <;> cases isToken
  | cons first rest =>
      refine .cons (.inr rfl) ?_
      rw [ScanMode.step]
      cases kind with
      | name =>
          obtain ⟨start, parts⟩ := Bool.and_eq_true_iff.mp isToken
          rw [enter_of_isStart before start, Token.mode, List.reverse_cons]
          exact leadsTo_word [first] parts
      | number =>
          obtain ⟨digit, parts⟩ := Bool.and_eq_true_iff.mp isToken
          rw [enter_of_isAsciiDigit before digit]
          exact leadsTo_number parts
      | quoted =>
          obtain ⟨mark, closes⟩ := Bool.and_eq_true_iff.mp isToken
          rw [enter_of_isMark before mark]
          exact leadsTo_quoted mark closes
      | comment =>
          simp only [Identifier.isToken, Bool.and_eq_true, beq_iff_eq] at isToken
          obtain ⟨⟨rfl, star⟩, closes⟩ := isToken
          cases rest with
          | nil => cases star
          | cons second others =>
              cases star
              exact .cons (.inr rfl) (leadsTo_comment closes)
      | blank =>
          obtain ⟨blank, blanks⟩ := Bool.and_eq_true_iff.mp isToken
          rw [enter_of_isBlank before blank]
          exact leadsTo_blank blanks
      | sign =>
          obtain ⟨sign, only⟩ := Bool.and_eq_true_iff.mp isToken
          rw [List.isEmpty_iff] at only
          subst only
          rw [enter_of_isSign before sign]
          refine ⟨?_, rfl⟩
          rw [Token.mode]
          simp [ScanMode.after]

end LeadsTo

/-! ## Reading tokens -/

/-- From here on the next character is read as code. -/
def ScanMode.Settles (mode : ScanMode) (text : List Char) : Prop :=
  ∀ c rest, text = c :: rest →
    mode.continues c = false ∧ ∀ before, mode.step before c = enter before c

section Settles

variable {mode : ScanMode} {text : List Char}

/-- A name that was begun is noted, and the rest is read as code. -/
theorem ScanMode.Settles.namesFrom_eq (settles : mode.Settles text) (before : List Char) :
    namesFrom mode before text = mode.name?.toList ++ namesFrom .code before text := by
  cases text with
  | nil => exact (List.append_nil _).symm
  | cons c rest =>
      obtain ⟨ends, enters⟩ := settles c rest rfl
      rw [namesFrom, namesFrom, ends, enters before]
      rfl

theorem ScanMode.Settles.after_eq (settles : mode.Settles text) (before : List Char)
    (some : text ≠ []) : mode.after before text = ScanMode.code.after before text := by
  cases text with
  | nil => exact absurd rfl some
  | cons c rest =>
      rw [ScanMode.after, (settles c rest rfl).2 before]
      rfl

end Settles

section Fits

variable {token : Token} {after : List Char}

theorem isToken_name_concat {text : List Char} {c : Char} (isName : isToken .name text = true)
    (part : isPart c = true) : isToken .name (text ++ [c]) = true := by
  cases text with
  | nil => cases isName
  | cons first rest =>
      obtain ⟨start, parts⟩ := Bool.and_eq_true_iff.mp isName
      rw [List.cons_append, isToken, start, List.all_append, parts, List.all_cons, part]
      rfl

theorem isToken_number_concat {text : List Char} {c : Char} (isNumber : isToken .number text = true)
    (part : isNumberPart c = true) : isToken .number (text ++ [c]) = true := by
  cases text with
  | nil => cases isNumber
  | cons first rest =>
      obtain ⟨digit, parts⟩ := Bool.and_eq_true_iff.mp isNumber
      rw [List.cons_append, isToken, digit, List.all_append, parts, List.all_cons, part]
      rfl

/-- A token that is as long as it can be does not go on with the next character. -/
theorem Token.Fits.not_isToken_concat (fits : token.Fits after) {c : Char} {rest : List Char}
    (follows : after = c :: rest) : isToken token.kind (token.text ++ [c]) = false := by
  rw [← Bool.not_eq_true]
  intro goesOn
  have within : token.text ++ [c] <+: token.text ++ after :=
    ⟨rest, by rw [follows, List.append_assoc, List.singleton_append]⟩
  have bound := fits.longest token.kind _ within goesOn
  rw [List.length_append, List.length_singleton] at bound
  exact Nat.not_succ_le_self _ bound

/-- Where a token ends, the scan leaves the mode of the token. -/
theorem Token.Fits.settles (fits : token.Fits after) (before : List Char) :
    (token.mode before).Settles after := by
  intro c rest follows
  have isToken := fits.valid
  have ends := fits.not_isToken_concat follows
  cases kind : token.kind with
  | name =>
      rw [kind] at isToken ends
      have noPart : isPart c = false := by
        rw [← Bool.not_eq_true]
        intro part
        rw [isToken_name_concat isToken part] at ends
        cases ends
      rw [Token.mode, kind]
      refine ⟨noPart, fun before => ?_⟩
      rw [ScanMode.step, noPart, if_neg Bool.false_ne_true]
  | number =>
      rw [kind] at isToken ends
      have noPart : (isAsciiAlphanumeric c || c == '.') = false := by
        rw [← Bool.not_eq_true]
        intro part
        rw [isToken_number_concat isToken part] at ends
        cases ends
      rw [Token.mode, kind]
      refine ⟨rfl, fun before => ?_⟩
      rw [ScanMode.step, noPart, if_neg Bool.false_ne_true]
  | sign =>
      rw [Token.mode, kind]
      dsimp only
      split
      · rename_i slash
        obtain ⟨noSlash, noStar⟩ := fits.noComment (beq_iff_eq.mp slash)
        rw [follows, List.head?_cons, ne_eq, Option.some_inj] at noSlash noStar
        refine ⟨rfl, fun before => ?_⟩
        rw [ScanMode.step, if_neg (by simpa using noSlash), if_neg (by simpa using noStar)]
      · exact ⟨rfl, fun _ => rfl⟩
  | quoted | comment | blank =>
      rw [Token.mode, kind]
      exact ⟨rfl, fun _ => rfl⟩

/-- Of the modes of tokens only that of a name notes something. -/
theorem Token.name?_mode (token : Token) (before : List Char) :
    (token.mode before.reverse).name?.toList =
      if token.kind == .name && ! isMemberPlace before then [token.text] else [] := by
  rw [Token.mode, ← followsDot_reverse]
  cases token.kind with
  | name => cases followsDot before.reverse <;> simp [ScanMode.name?]
  | sign => dsimp only; split <;> rfl
  | number | quoted | comment | blank => rfl

/-- A token that is read as code is read to its end. -/
theorem Token.Fits.namesFrom_eq (fits : token.Fits after) (before : List Char) :
    namesFrom .code before.reverse (token.text ++ after) =
      (if token.kind == .name && ! isMemberPlace before then [token.text] else []) ++
        namesFrom .code (before ++ token.text).reverse after := by
  obtain ⟨leads, silent⟩ := leadsTo_token before.reverse fits.valid
  rw [namesFrom_append, silent, leads, (fits.settles _).namesFrom_eq, token.name?_mode,
    List.reverse_append, List.nil_append]

theorem Token.Fits.after_eq (fits : token.Fits after) (before : List Char) (some : after ≠ []) :
    ScanMode.code.after before.reverse (token.text ++ after) =
      ScanMode.code.after (before ++ token.text).reverse after := by
  rw [ScanMode.after_append, (leadsTo_token _ fits.valid).1, (fits.settles _).after_eq _ some,
    List.reverse_append]

variable {tokens : List Token}

theorem textOf_cons (token : Token) (rest : List Token) :
    textOf (token :: rest) = token.text ++ textOf rest := rfl

/-- Tokens that are read as code are read to their end, and what is noted are the names that they
refer to. -/
theorem FitTogether.namesFrom_eq (fit : FitTogether after tokens) (before : List Char) :
    namesFrom .code before.reverse (textOf tokens ++ after) = references before tokens ++
      namesFrom .code (before ++ textOf tokens).reverse after := by
  induction tokens generalizing before with
  | nil =>
      rw [references, textOf, List.flatMap_nil, List.append_nil, List.nil_append,
        List.nil_append]
  | cons token rest ih =>
      rw [textOf_cons, List.append_assoc, fit.1.namesFrom_eq, ih fit.2, references,
        List.append_assoc, List.append_assoc]

theorem FitTogether.after_eq (fit : FitTogether after tokens) (before : List Char)
    (some : after ≠ []) : ScanMode.code.after before.reverse (textOf tokens ++ after) =
      ScanMode.code.after (before ++ textOf tokens).reverse after := by
  induction tokens generalizing before with
  | nil => rw [textOf, List.flatMap_nil, List.append_nil, List.nil_append]
  | cons token rest ih =>
      have more : textOf rest ++ after ≠ [] := fun empty => some (List.append_eq_nil_iff.mp empty).2
      rw [textOf_cons, List.append_assoc, fit.1.after_eq before more, ih fit.2, List.append_assoc]

/-- What is longest in front of a text is longest in front of its beginning. -/
theorem Token.Fits.of_append {further : List Char} (fits : token.Fits (after ++ further)) :
    token.Fits after := by
  refine ⟨fits.valid, fun kind longer within => ?_, fun slash => ?_⟩
  · refine fits.longest kind longer (within.trans ?_)
    rw [← List.append_assoc]
    exact List.prefix_append _ _
  · cases after with
    | nil => exact ⟨nofun, nofun⟩
    | cons c rest => exact fits.noComment slash

theorem FitTogether.of_append {further : List Char} (fit : FitTogether (after ++ further) tokens) :
    FitTogether after tokens := by
  induction tokens with
  | nil => trivial
  | cons token rest ih =>
      obtain ⟨fits, others⟩ := fit
      rw [← List.append_assoc] at fits
      exact ⟨fits.of_append, ih others⟩

/-- The character behind tokens is read as code. -/
theorem FitTogether.after_concat {c : Char} (fit : FitTogether (c :: after) tokens)
    (before : List Char) : ScanMode.code.after before.reverse (textOf tokens ++ [c]) =
      enter (before ++ textOf tokens).reverse c := by
  have alone : FitTogether [c] tokens := @FitTogether.of_append [c] _ _ fit
  exact alone.after_eq before (List.cons_ne_nil c [])

end Fits

/-- Code that splits into tokens refers to the names among them that do not stand behind a dot, each
once, in the order in which they first occur. -/
theorem referenced_eq_references {code : String} {tokens : List Token}
    (splits : Splits code.toList tokens) :
    referenced code = ((references [] tokens).map String.ofList).eraseDups := by
  have names := splits.fit.namesFrom_eq []
  have done : namesFrom .code ([] ++ textOf tokens).reverse [] = [] := rfl
  rw [done, List.append_nil, List.append_nil, ← splits.text, List.reverse_nil] at names
  rw [referenced, names]

/-- Names behind one dot and behind three, the same name twice, and names inside of a quoted text, a
number and a comment. -/
theorem referenced_eq_references_of_spread :
    let code := "set(a.b, ...rest, 'it\\'s c', 0x1F) /* d */ + b / a"
    let tokens : List Token :=
      [⟨.name, "set".toList⟩, ⟨.sign, "(".toList⟩, ⟨.name, "a".toList⟩, ⟨.sign, ".".toList⟩,
        ⟨.name, "b".toList⟩, ⟨.sign, ",".toList⟩, ⟨.blank, " ".toList⟩, ⟨.sign, ".".toList⟩,
        ⟨.sign, ".".toList⟩, ⟨.sign, ".".toList⟩, ⟨.name, "rest".toList⟩, ⟨.sign, ",".toList⟩,
        ⟨.blank, " ".toList⟩, ⟨.quoted, "'it\\'s c'".toList⟩, ⟨.sign, ",".toList⟩,
        ⟨.blank, " ".toList⟩, ⟨.number, "0x1F".toList⟩, ⟨.sign, ")".toList⟩, ⟨.blank, " ".toList⟩,
        ⟨.comment, "/* d */".toList⟩, ⟨.blank, " ".toList⟩, ⟨.sign, "+".toList⟩,
        ⟨.blank, " ".toList⟩, ⟨.name, "b".toList⟩, ⟨.blank, " ".toList⟩, ⟨.sign, "/".toList⟩,
        ⟨.blank, " ".toList⟩, ⟨.name, "a".toList⟩]
    Splits code.toList tokens ∧ referenced code = ["set", "a", "rest", "b"] := by
  intro code tokens
  have splits : Splits code.toList tokens := by decide +kernel
  have names :
      ((references [] tokens).map String.ofList).eraseDups = ["set", "a", "rest", "b"] := by
    decide +kernel
  exact ⟨splits, (referenced_eq_references splits).trans names⟩

end Identifier
end Hookify
