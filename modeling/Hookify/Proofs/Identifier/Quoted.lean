import Hookify.Proofs.Identifier.Templates
import Hookify.Proofs.Pass.Renaming
import Hookify.Text.Quoted

namespace Hookify

/-!
# Quoted texts in scanned code

A selector or the name of an event goes into code between single quotes, with a
backslash before each backslash and each quote in it.  The scan for identifiers
takes a backslash together with the character behind it.  So it never takes a
quote of the text for the closing one, and never passes over the closing one,
whatever run of backslashes and quotes the text ends in.  A line end in the text
would be the only thing to stop it earlier.

The names that are found in code with a quoted text are therefore the names
before it and the names behind it.  In particular the names in the code of a
listener do not depend on its event, nor on the child that the event is
delegated for.
-/

namespace Text

/-- The characters that a text stands for if a backslash stands for the character behind it; none
if no character is behind it. -/
def unescape? : List Char → Option (List Char)
  | [] => some []
  | ['\\'] => none
  | '\\' :: c :: rest => (unescape? rest).map (c :: ·)
  | c :: rest => (unescape? rest).map (c :: ·)

theorem unescape?_of_ne {c : Char} (plain : c ≠ '\\') (rest : List Char) :
    unescape? (c :: rest) = (unescape? rest).map (c :: ·) := by
  rw [unescape?.eq_4 c rest]
  · exact fun same => absurd same plain
  · exact fun _ _ same => absurd same plain

theorem unescape?_escapeChar (c : Char) (rest : List Char) :
    unescape? (escapeChar c ++ rest) = (unescape? rest).map (c :: ·) := by
  rw [escapeChar]
  split
  · rw [List.cons_append, List.singleton_append, unescape?]
  · rename_i plain
    rw [List.singleton_append, unescape?_of_ne]
    rintro rfl
    exact plain rfl

theorem unescape?_flatMap_escapeChar (chars : List Char) :
    unescape? (chars.flatMap escapeChar) = some chars := by
  induction chars with
  | nil => rfl
  | cons c rest ih => rw [List.flatMap_cons, unescape?_escapeChar, ih, Option.map_some]

/-- Quoting adds no line ends. -/
theorem newline_not_mem_quote {text : String} (inLine : '\n' ∉ text.toList) :
    '\n' ∉ (quote text).toList := by
  have inside : '\n' ∉ text.toList.flatMap escapeChar := by
    intro member
    obtain ⟨c, among, here⟩ := List.mem_flatMap.mp member
    rw [escapeChar] at here
    split at here <;> simp only [List.mem_cons, List.not_mem_nil, or_false] at here
    · rcases here with impossible | rfl
      · cases impossible
      · exact inLine among
    · exact inLine (here ▸ among)
  simp [quote, toList_overChars, quoteChars, inside]

/-- A text of one line is indented at its beginning. -/
theorem indent_single {text : String} (single : '\n' ∉ text.toList) (nonempty : text.toList ≠ [])
    (margin : String) : indent margin text = margin ++ text := by
  apply String.toList_injective
  rw [indent, toList_overChars, indentChars, lineChars_single single nonempty,
    List.map_singleton, if_neg (by simpa using nonempty), joinLines, String.toList_append]

end Text

namespace Identifier

open Text

/-- What is left of a text behind a quoted text at its head: the scan is inside of it as long as it
is in a mode for quoted text. -/
def behindQuoted (mode : ScanMode) (before : List Char) : List Char → List Char
  | [] => []
  | c :: rest =>
      match mode.step before c with
      | .quoted mark => behindQuoted (.quoted mark) (c :: before) rest
      | .escaped mark => behindQuoted (.escaped mark) (c :: before) rest
      | _ => rest

section Scan

variable {mode : ScanMode} {before chars rest : List Char} {c : Char}

/-- An escaped character leaves the scan inside of the quoted text. -/
theorem behindQuoted_escapeChar (inLine : c ≠ '\n') :
    ∃ passed, behindQuoted (.quoted '\x27') before (escapeChar c ++ rest) =
      behindQuoted (.quoted '\x27') passed rest := by
  rw [escapeChar]
  split
  · exact ⟨_, rfl⟩
  · rename_i plain
    refine ⟨c :: before, ?_⟩
    rw [Bool.or_eq_true, beq_iff_eq, beq_iff_eq, not_or] at plain
    have inside : (ScanMode.quoted '\x27').step before c = .quoted '\x27' := by
      simp [ScanMode.step, plain.1, plain.2, inLine]
    rw [List.singleton_append, behindQuoted, inside]

theorem behindQuoted_flatMap_escapeChar (inLine : '\n' ∉ chars) :
    behindQuoted (.quoted '\x27') before (chars.flatMap escapeChar ++ '\x27' :: rest) = rest := by
  induction chars generalizing before with
  | nil => rfl
  | cons c others ih =>
      obtain ⟨first, later⟩ := not_or.mp (mt List.mem_cons.mpr inLine)
      rw [List.flatMap_cons, List.append_assoc]
      obtain ⟨passed, same⟩ := @behindQuoted_escapeChar before _ c (Ne.symm first)
      rw [same, ih later]

/-- A quote opens a quoted text wherever the scan is outside of quoted texts and comments. -/
theorem step_quote (isOpen : mode.isOpen = true) (before : List Char) :
    mode.step before '\x27' = .quoted '\x27' := by
  cases mode with
  | code | slash | word _ _ | number => rfl
  | quoted _ | escaped _ | lineComment | blockComment | commentStar => cases isOpen

theorem behindQuoted_quoteChars (inLine : '\n' ∉ chars) (isOpen : mode.isOpen = true)
    (before rest : List Char) : behindQuoted mode before (quoteChars chars ++ rest) = rest := by
  rw [quoteChars, List.cons_append, List.cons_append, List.append_assoc, List.singleton_append,
    behindQuoted, step_quote isOpen]
  exact behindQuoted_flatMap_escapeChar inLine

theorem reverse_quoteChars (chars before : List Char) :
    (quoteChars chars).reverse ++ before =
      '\x27' :: ((chars.flatMap escapeChar).reverse ++ '\x27' :: before) := by
  simp [quoteChars]

theorem leadsTo_flatMap_escapeChar (inLine : '\n' ∉ chars) :
    LeadsTo (.quoted '\x27') before (chars.flatMap escapeChar ++ ['\x27']) .code := by
  induction chars generalizing before with
  | nil => exact .cons (.inr rfl) (.refl _ _)
  | cons c others ih =>
      obtain ⟨first, later⟩ := not_or.mp (mt List.mem_cons.mpr inLine)
      rw [List.flatMap_cons, List.append_assoc, escapeChar]
      split
      · exact .cons (.inr rfl) (.cons (.inr rfl) (ih later))
      · rename_i plain
        rw [Bool.or_eq_true, beq_iff_eq, beq_iff_eq, not_or] at plain
        have inside : (ScanMode.quoted '\x27').step before c = .quoted '\x27' := by
          simp [ScanMode.step, plain.1, plain.2, Ne.symm first]
        refine .cons (.inr rfl) ?_
        rw [inside]
        exact ih later

/-- Behind a quoted text the scan reads code, and what it has found is the name before the text. -/
theorem namesFrom_quoteChars (inLine : '\n' ∉ chars) (isOpen : mode.isOpen = true)
    (before rest : List Char) :
    namesFrom mode before (quoteChars chars ++ rest) = mode.name?.toList ++
      namesFrom .code ((quoteChars chars).reverse ++ before) rest := by
  have ends : mode.continues '\x27' = false := by
    cases mode <;> rfl
  obtain ⟨leads, silent⟩ := @leadsTo_flatMap_escapeChar ('\x27' :: before) chars inLine
  have inside : namesIn mode before (quoteChars chars) = mode.name?.toList := by
    rw [quoteChars, List.cons_append, namesIn, step_quote isOpen, silent, ends,
      if_neg Bool.false_ne_true, List.append_nil]
  have behind : mode.after before (quoteChars chars) = .code := by
    rw [quoteChars, List.cons_append, ScanMode.after, step_quote isOpen, leads]
  rw [namesFrom_append, inside, behind]

end Scan

/-! ## What stands before does not matter -/

/-- Behind either text, given in reverse, the same names are those of members. -/
def SameBefore (first second : List Char) : Prop :=
  ∀ more, followsDot (more ++ first) = followsDot (more ++ second)

/-- The scan finds the same names in two texts if it comes to them in the same mode, outside of
quoted texts and comments. -/
def SameNames (first second : List Char) : Prop :=
  ∀ mode before other, mode.isOpen = true → SameBefore before other →
    namesFrom mode before first = namesFrom mode other second

/-- Outside of quoted texts and comments, these characters lead into none. -/
def isCalmChar (c : Char) : Bool :=
  ! (isMark c || c == '/' || c == '*')

section SameNames

variable {mode : ScanMode} {before other first second : List Char} {c : Char}

theorem SameBefore.refl (before : List Char) : SameBefore before before :=
  fun _ => rfl

theorem SameBefore.cons (same : SameBefore before other) (c : Char) :
    SameBefore (c :: before) (c :: other) := by
  intro more
  have both := same (more ++ [c])
  rwa [List.append_assoc, List.append_assoc] at both

theorem followsDot_eq (before : List Char) :
    followsDot before = (['.'].isPrefixOf (trimStartChars before) &&
      ! ['.', '.', '.'].isPrefixOf (trimStartChars before)) := by
  rw [followsDot]
  rcases trimStartChars before with _ | ⟨first, _ | ⟨second, _ | ⟨third, rest⟩⟩⟩ <;>
    simp [List.isPrefixOf] <;> grind

/-- What stands before a quote has no part in the names behind it. -/
theorem sameBefore_quote (before other : List Char) :
    SameBefore ('\x27' :: before) ('\x27' :: other) := by
  have quote : isBlank '\x27' = false := by decide
  intro more
  rw [followsDot_eq, followsDot_eq, trimStartChars, trimStartChars, List.dropWhile_append,
    List.dropWhile_append, List.dropWhile_cons_of_neg (by simp [quote]),
    List.dropWhile_cons_of_neg (by simp [quote])]
  generalize more.dropWhile isBlank = last
  rcases last with _ | ⟨first, _ | ⟨second, _ | ⟨third, rest⟩⟩⟩ <;> simp [List.isPrefixOf]

theorem SameBefore.enter_eq (same : SameBefore before other) (c : Char) :
    enter before c = enter other c := by
  have dots : followsDot before = followsDot other := same []
  rw [enter, enter, dots]

theorem SameBefore.step_eq (same : SameBefore before other) (mode : ScanMode) (c : Char) :
    mode.step before c = mode.step other c := by
  cases mode <;> simp only [ScanMode.step, same.enter_eq]

/-- In the same mode, what stands before matters only for what is a member. -/
theorem SameBefore.namesFrom_eq (same : SameBefore before other) (mode : ScanMode)
    (rest : List Char) : namesFrom mode before rest = namesFrom mode other rest := by
  induction rest generalizing mode before other with
  | nil => rfl
  | cons c rest ih => rw [namesFrom, namesFrom, same.step_eq mode c, ih (same.cons c)]

theorem isOpen_step_calm (calm : isCalmChar c = true) (isOpen : mode.isOpen = true)
    (before : List Char) : (mode.step before c).isOpen = true := by
  simp only [isCalmChar, Bool.not_eq_true', Bool.or_eq_false_iff, beq_eq_false_iff_ne] at calm
  obtain ⟨⟨noMark, noSlash⟩, noStar⟩ := calm
  have enters : (enter before c).isOpen = true := by
    rw [Identifier.enter_eq, noMark, if_neg Bool.false_ne_true,
      if_neg (by simpa using noSlash)]
    split
    · rfl
    · split <;> rfl
  cases mode with
  | code => exact enters
  | slash =>
      rw [ScanMode.step, if_neg (by simpa using noSlash), if_neg (by simpa using noStar)]
      exact enters
  | word _ _ | number =>
      rw [ScanMode.step]
      split
      · rfl
      · exact enters
  | quoted _ | escaped _ | lineComment | blockComment | commentStar => cases isOpen

theorem SameNames.cons (calm : isCalmChar c = true) (same : SameNames first second) :
    SameNames (c :: first) (c :: second) := by
  intro mode before other isOpen alike
  rw [namesFrom, namesFrom, alike.step_eq mode c]
  have rest := same (mode.step other c) (c :: before) (c :: other)
    (isOpen_step_calm calm isOpen other) (alike.cons c)
  rw [rest]

theorem SameNames.append {calmChars : List Char} (calm : calmChars.all isCalmChar = true)
    (same : SameNames first second) : SameNames (calmChars ++ first) (calmChars ++ second) := by
  induction calmChars with
  | nil => exact same
  | cons c rest ih =>
      rw [List.all_cons, Bool.and_eq_true] at calm
      exact .cons calm.1 (ih calm.2)

end SameNames

section SameTexts

variable {first second text later : String}

theorem SameNames.of_calm (calm : text.toList.all isCalmChar = true) :
    SameNames text.toList text.toList := by
  have nothing : SameNames [] [] := fun _ _ _ _ _ => rfl
  have same := nothing.append calm
  rwa [List.append_nil] at same

theorem SameNames.plain (calm : text.toList.all isCalmChar = true)
    (same : SameNames first.toList second.toList) :
    SameNames (text ++ first).toList (text ++ second).toList := by
  rw [String.toList_append, String.toList_append]
  exact same.append calm

/-- In the place of a quoted text there may be another one. -/
theorem SameNames.quote (inLine : '\n' ∉ text.toList) (also : '\n' ∉ later.toList)
    (same : SameNames first.toList second.toList) :
    SameNames (Text.quote text ++ first).toList (Text.quote later ++ second).toList := by
  simp only [String.toList_append, Text.quote, toList_overChars]
  intro mode before other isOpen _
  rw [namesFrom_quoteChars inLine isOpen, namesFrom_quoteChars also isOpen]
  refine congrArg (mode.name?.toList ++ ·) (same _ _ _ rfl ?_)
  rw [reverse_quoteChars, reverse_quoteChars]
  exact sameBefore_quote _ _

theorem isCalmChar_of_isNameChar {c : Char} (named : IsNameChar c) : isCalmChar c = true := by
  simp only [isCalmChar, isMark, Bool.not_eq_true', Bool.or_eq_false_iff, beq_eq_false_iff_ne]
  refine ⟨⟨⟨?_, ?_⟩, ?_⟩, ?_⟩ <;> rintro rfl <;> revert named <;> decide

theorem all_isCalmChar_of_isPlain (plain : IsPlain text.toList) :
    text.toList.all isCalmChar = true :=
  List.all_eq_true.mpr fun c member => isCalmChar_of_isNameChar (plain c member)

end SameTexts
end Identifier

/-! ## Listeners -/

namespace Pass

open Identifier

section Listener

variable {target : ListenerTarget} {handler first second : String}

theorem calm_elementLookup
    (named : ∀ identifier, target = .reference identifier → IsPlain identifier.toList) :
    (elementLookup target).toList.all isCalmChar = true := by
  cases target with
  | page object => rfl
  | reference identifier =>
      have calm := all_isCalmChar_of_isPlain (named identifier rfl)
      dsimp only [elementLookup]
      rw [String.toList_append, String.toList_append, List.all_append, List.all_append, calm]
      decide

theorem calm_elementName (target : ListenerTarget) :
    (elementName target).toList.all isCalmChar = true := by
  cases target with
  | reference identifier => exact (by decide : "element".toList.all isCalmChar = true)
  | page object => cases object <;> decide

theorem sameNames_listenerArguments {event other listener : String}
    (inLine : '\n' ∉ event.toList) (also : '\n' ∉ other.toList)
    (calm : listener.toList.all isCalmChar = true) (once : Bool)
    (same : SameNames first.toList second.toList) :
    SameNames (listenerArguments event listener once ++ first).toList
      (listenerArguments other listener once ++ second).toList := by
  have options : (if once then ", \x7b once: true \x7d" else "").toList.all isCalmChar = true := by
    cases once <;> decide
  simp only [listenerArguments, String.append_assoc, -String.reduceAppend]
  exact .plain (by decide) (.quote inLine also
    (.plain (by decide) (.plain calm (.plain options (.plain (by decide) same)))))

theorem sameNames_listenerDefinition (named : IsPlain handler.toList)
    {delegate : Option (String × String)}
    (inLine : ∀ child ∈ delegate, '\n' ∉ child.1.toList ∧ '\n' ∉ child.2.toList)
    (same : SameNames first.toList second.toList) :
    SameNames (listenerDefinition handler (delegate.map (·.1)) ++ first).toList
      (listenerDefinition handler (delegate.map (·.2)) ++ second).toList := by
  cases delegate with
  | none =>
      dsimp only [Option.map, listenerDefinition]
      rw [String.empty_append, String.empty_append]
      exact same
  | some child =>
      obtain ⟨before, after⟩ := inLine child rfl
      dsimp only [Option.map, listenerDefinition]
      simp only [String.append_assoc, -String.reduceAppend]
      exact .plain (by decide) (.quote before after (.plain (by decide)
        (.plain (all_isCalmChar_of_isPlain named) (.plain (by decide) same))))

/-- What removes a listener stands on one line. -/
theorem newline_not_mem_removal (target : ListenerTarget) {event listener : String}
    (inLine : '\n' ∉ event.toList) (named : IsPlain listener.toList) (once : Bool) :
    '\n' ∉ (elementName target ++ (".removeEventListener" ++
      listenerArguments event listener once)).toList := by
  have element : '\n' ∉ (elementName target).toList := by
    cases target with
    | reference identifier => exact (by decide : '\n' ∉ "element".toList)
    | page object => cases object <;> decide
  have options : '\n' ∉ (if once then ", \x7b once: true \x7d" else "").toList := by
    cases once <;> decide
  have quoted := Text.newline_not_mem_quote inLine
  have name : '\n' ∉ listener.toList := fun member => absurd (named _ member) (by decide)
  rw [listenerArguments]
  simp only [String.toList_append, List.mem_append, element, quoted, name, options, false_or,
    -String.reduceAppend, -String.reduceToList]
  decide

/-- The names in the code of a listener are the same for all events and for all children. -/
theorem sameNames_listenerCode
    (named : ∀ identifier, target = .reference identifier → IsPlain identifier.toList)
    (isName : IsPlain handler.toList) {event other : String} (inLine : '\n' ∉ event.toList)
    (also : '\n' ∉ other.toList) {delegate : Option (String × String)}
    (children : ∀ child ∈ delegate, '\n' ∉ child.1.toList ∧ '\n' ∉ child.2.toList) (once : Bool) :
    SameNames (listenerCode target event handler (delegate.map (·.1)) once).toList
      (listenerCode target other handler (delegate.map (·.2)) once).toList := by
  have listener : listenerName handler (delegate.map (·.2)) =
      listenerName handler (delegate.map (·.1)) := by cases delegate <;> rfl
  have isPlain : IsPlain (listenerName handler (delegate.map (·.1))).toList := by
    cases delegate with
    | none => exact isName
    | some child => exact (by decide : IsPlain "listener".toList)
  have calm := all_isCalmChar_of_isPlain isPlain
  have element := calm_elementName target
  have nonempty : ∀ event, (elementName target ++ (".removeEventListener" ++
      listenerArguments event (listenerName handler (delegate.map (·.1))) once)).toList ≠ [] := by
    intro event
    rw [String.toList_append, String.toList_append]
    exact List.append_ne_nil_of_right_ne_nil _ (List.append_ne_nil_of_left_ne_nil (by decide) _)
  rw [listenerCode_eq, listenerCode_eq, listener,
    Text.indent_single (newline_not_mem_removal target inLine isPlain once) (nonempty event),
    Text.indent_single (newline_not_mem_removal target also isPlain once) (nonempty other)]
  simp only [String.append_assoc, -String.reduceAppend]
  exact .plain (calm_elementLookup named) (sameNames_listenerDefinition isName children
    (.plain element (.plain (by decide) (sameNames_listenerArguments inLine also calm once
      (.plain (by decide) (.plain (by decide) (.plain element (.plain (by decide)
        (sameNames_listenerArguments inLine also calm once (.of_calm (by decide)))))))))))

end Listener
end Pass

namespace Identifier

open Text Pass

/-- A quoted text reads back as the text, and the scan stops right behind it: what it finds is the
name before it and the names behind it.  In the code of a listener nothing is found in the event or
in the child that is looked for, and everything is found behind them. -/
theorem quoted_text_skipped {text : String} (inLine : '\n' ∉ text.toList) :
    (∃ body, (quote text).toList = '\x27' :: (body ++ ['\x27']) ∧
      unescape? body = some text.toList) ∧
    (∀ mode before rest, mode.isOpen = true →
      behindQuoted mode before ((quote text).toList ++ rest) = rest ∧
      namesFrom mode before ((quote text).toList ++ rest) =
        mode.name?.toList ++ namesFrom .code ['\x27'] rest) ∧
    ∀ (target : ListenerTarget) (event handler : String) (once : Bool),
      (∀ identifier, target = .reference identifier → IsPlain identifier.toList) →
      IsPlain handler.toList → '\n' ∉ event.toList →
      referenced (listenerCode target text handler none once) =
        referenced (listenerCode target "" handler none once) ∧
      referenced (listenerCode target event handler (some text) once) =
        referenced (listenerCode target event handler (some "") once) := by
  have nothing : '\n' ∉ "".toList := by decide
  have characters : (quote text).toList = quoteChars text.toList := toList_overChars _ _
  refine ⟨⟨text.toList.flatMap escapeChar, characters, unescape?_flatMap_escapeChar _⟩, ?_, ?_⟩
  · intro mode before rest isOpen
    rw [characters]
    refine ⟨behindQuoted_quoteChars inLine isOpen before rest, ?_⟩
    rw [namesFrom_quoteChars inLine isOpen, reverse_quoteChars,
      (sameBefore_quote _ []).namesFrom_eq]
  · intro target event handler once named isName inEvent
    have childless : ∀ child ∈ (none : Option (String × String)),
        '\n' ∉ child.1.toList ∧ '\n' ∉ child.2.toList := fun _ impossible => nomatch impossible
    have children : ∀ child ∈ some (text, ""),
        '\n' ∉ child.1.toList ∧ '\n' ∉ child.2.toList := by
      rintro _ ⟨⟩
      exact ⟨inLine, nothing⟩
    have events := sameNames_listenerCode named isName inLine nothing childless once
      .code [] [] rfl (.refl [])
    have delegates := sameNames_listenerCode named isName inEvent inEvent children once
      .code [] [] rfl (.refl [])
    exact ⟨congrArg (fun names => (names.map String.ofList).eraseDups) events,
      congrArg (fun names => (names.map String.ofList).eraseDups) delegates⟩

/-- A text with a quote behind a backslash, and a backslash at its end. -/
theorem quoted_text_skipped_of_marks :
    '\n' ∉ "x\\\x27\\".toList ∧
      unescape? "x\\\\\\\x27\\\\".toList = some "x\\\x27\\".toList ∧
      behindQuoted (.word false ['f']) ['f'] ((quote "x\\\x27\\").toList ++ " + y".toList) =
        " + y".toList ∧
      referenced (listenerCode (.page .window) "x\\\x27\\" "handleX" none true) =
        referenced (listenerCode (.page .window) "" "handleX" none true) := by
  have inLine : '\n' ∉ "x\\\x27\\".toList := by decide
  obtain ⟨⟨body, framed, decoded⟩, behind, listeners⟩ := quoted_text_skipped inLine
  have isName : IsPlain "handleX".toList := by decide
  have written : body = "x\\\\\\\x27\\\\".toList :=
    List.append_cancel_right (List.cons.inj framed).2.symm
  have named : ∀ identifier, ListenerTarget.page .window = .reference identifier →
      IsPlain identifier.toList := fun _ impossible => nomatch impossible
  exact ⟨inLine, written ▸ decoded, (behind (.word false ['f']) ['f'] " + y".toList rfl).1,
    (listeners (.page .window) "click" "handleX" true named isName (by decide)).1⟩

end Identifier
end Hookify
