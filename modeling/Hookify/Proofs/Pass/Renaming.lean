import Hookify.Pass.Listeners
import Hookify.Proofs.Identifier.Form
import Hookify.Proofs.Text.Replacement

namespace Hookify
namespace Pass

open Text

/-!
# Renaming a handler within its effect

A handler whose name is taken gets another one, and its effect is rewritten as
text: the old name is replaced wherever it occurs.  The effect also names the
reference of the element and quotes the event and the delegated child, and the
script chooses all three.

None of them holds the old name.  The name has the letters of the owner, of the
child and of the event, and those of `handle` beside; the reference adds only
three letters to the owner, and quoting adds none.  The fixed parts of the
effect do not hold the word `handle`.
-/

/-! ## The parts of an effect -/

/-- The object that a listener is added to, as the effect writes it. -/
def elementName : ListenerTarget → String
  | .reference _ => "element"
  | .page object => object.name

/-- What finds the element, if the listener needs one. -/
def elementLookup : ListenerTarget → String
  | .reference identifier =>
      "const element = " ++ (identifier ++
        ".current;\nif (!element) return undefined;\n")
  | .page _ => ""

/-- The function that is added as a listener. -/
def listenerName (handler : String) : Option String → String
  | some _ => "listener"
  | none => handler

/-- The definition of the listener, if it is not the handler itself. -/
def listenerDefinition (handler : String) : Option String → String
  | some child =>
      "const listener = (event) => \x7b\n  if (event.target.closest(" ++ (Text.quote child ++
        (")) \x7b\n    " ++ (handler ++ "(event);\n  \x7d\n\x7d;\n")))
  | none => ""

/-- The arguments with which a listener is added and removed. -/
def listenerArguments (event listener : String) (once : Bool) : String :=
  "(" ++ (Text.quote event ++ (", " ++ (listener ++
    ((if once then ", \x7b once: true \x7d" else "") ++ ");"))))

theorem listenerCode_eq (target : ListenerTarget) (event handler : String)
    (delegate : Option String) (once : Bool) :
    listenerCode target event handler delegate once =
      elementLookup target ++ (listenerDefinition handler delegate ++ (elementName target ++
        (".addEventListener" ++ (listenerArguments event (listenerName handler delegate) once ++
          ("\nreturn () => \x7b\n" ++ (Text.indent "  " (elementName target ++
            (".removeEventListener" ++
              listenerArguments event (listenerName handler delegate) once)) ++ "\n\x7d;")))))) := by
  unfold listenerCode listenerArguments
  cases target <;> cases delegate <;>
    dsimp only [elementLookup, listenerDefinition, elementName, listenerName,
      -String.reduceAppend] <;>
    simp only [String.append_assoc, String.empty_append, -String.reduceAppend]

/-! ## Quoted texts -/

theorem letterCount_quote (text : String) :
    letterCount (Text.quote text).toList = letterCount text.toList := by
  have mark : isAsciiLetter '\x27' = false := rfl
  have escaped : ∀ chars : List Char, letterCount (chars.flatMap escapeChar) = letterCount chars := by
    intro chars
    induction chars with
    | nil => rfl
    | cons c rest ih =>
        have single : letterCount (escapeChar c) = letterCount [c] := by
          rw [escapeChar]
          split
          · exact letterCount_cons '\\' [c]
          · rfl
        rw [List.flatMap_cons, letterCount_append, single, ih, ← letterCount_append,
          List.singleton_append]
  rw [Text.quote, toList_overChars, quoteChars, List.cons_append, letterCount_cons,
    letterCount_append, escaped, letterCount_cons, letterCount_nil, mark]
  rfl

/-! ## Parts that are kept -/

/-- Text in which no handler is named, and behind which a name begins anew. -/
def isFixedPart (text : String) : Bool :=
  ! occursChars "handle".toList text.toList &&
    (text.toList.getLast?.map isAsciiAlphanumeric) == some false

/-- Text before which a name ends. -/
def StartsApart (text : String) : Prop :=
  text.toList.head?.map isAsciiAlphanumeric = some false

instance (text : String) : Decidable (StartsApart text) :=
  inferInstanceAs (Decidable (text.toList.head?.map isAsciiAlphanumeric = some false))

theorem StartsApart.exists_cons {text : String} (apart : StartsApart text) :
    ∃ c rest, text.toList = c :: rest ∧ isAsciiAlphanumeric c = false := by
  rcases Option.map_eq_some_iff.mp apart with ⟨c, first, separator⟩
  rcases List.head?_eq_some_iff.mp first with ⟨rest, same⟩
  exact ⟨c, rest, same, separator⟩

theorem StartsApart.append {text : String} (apart : StartsApart text) (rest : String) :
    StartsApart (text ++ rest) := by
  rcases apart.exists_cons with ⟨c, others, same, separator⟩
  rw [StartsApart, String.toList_append, same, List.cons_append, List.head?_cons, Option.map_some,
    separator]

section Renamed

variable (owner event : String) (delegate : Option String) (name : String)

/-- Replace the name that a handler would have. -/
def rename : String → String :=
  Text.replace (Identifier.handler owner delegate event) name

theorem toList_rename (text : String) :
    (rename owner event delegate name text).toList =
      replaceChars (Identifier.handler owner delegate event).toList name.toList text.toList := by
  rw [rename, Text.replace, toList_overChars]

theorem handler_ne_nil : (Identifier.handler owner delegate event).toList ≠ [] := by
  rw [Identifier.toList_handler]
  exact List.cons_ne_nil _ _

theorem rename_self :
    rename owner event delegate name (Identifier.handler owner delegate event) = name := by
  apply String.toList_inj.mp
  rw [toList_rename, replaceChars_self (handler_ne_nil owner event delegate)]

/-- A part that has fewer letters than the name is kept. -/
theorem rename_of_letterCount {text : String}
    (fewer : letterCount text.toList <
      letterCount (Identifier.handler owner delegate event).toList) :
    rename owner event delegate name text = text := by
  apply String.toList_inj.mp
  rw [toList_rename]
  exact replaceChars_of_not_infix (handler_ne_nil owner event delegate)
    (not_infix_of_letterCount fewer)

/-- A part without the word that the name begins with is kept. -/
theorem rename_of_absent {text : String}
    (absent : occursChars "handle".toList text.toList = false) :
    rename owner event delegate name text = text := by
  apply String.toList_inj.mp
  rw [toList_rename]
  apply replaceChars_of_not_infix (handler_ne_nil owner event delegate)
  rw [Identifier.toList_handler]
  exact not_infix_of_start absent

/-- Before a separator, a part is treated by itself. -/
theorem rename_append {rest : String} (apart : StartsApart rest) (part : String) :
    rename owner event delegate name (part ++ rest) =
      rename owner event delegate name part ++ rename owner event delegate name rest := by
  rcases apart.exists_cons with ⟨c, others, same, separator⟩
  have isWord := Identifier.isWord_handler owner delegate event
  have nonempty := handler_ne_nil owner event delegate
  apply String.toList_inj.mp
  rw [String.toList_append, toList_rename, toList_rename, toList_rename, String.toList_append, same,
    replaceChars_append_separator isWord nonempty _ _ separator,
    replaceChars_cons_separator isWord nonempty _ separator]

/-- A fixed part is kept, and what stands behind it is treated by itself. -/
theorem rename_fixed_append {part : String} (fixed : isFixedPart part = true) (rest : String) :
    rename owner event delegate name (part ++ rest) =
      part ++ rename owner event delegate name rest := by
  rw [isFixedPart, Bool.and_eq_true, Bool.not_eq_true', beq_iff_eq, Option.map_eq_some_iff] at fixed
  rcases fixed with ⟨absent, last, ends, separator⟩
  have isWord := Identifier.isWord_handler owner delegate event
  have nonempty := handler_ne_nil owner event delegate
  rcases List.getLast?_eq_some_iff.mp ends with ⟨front, same⟩
  have kept := congrArg String.toList (rename_of_absent owner event delegate name absent)
  rw [toList_rename, same, replaceChars_append_separator isWord nonempty _ _ separator,
    replaceChars_nil nonempty] at kept
  apply String.toList_inj.mp
  rw [String.toList_append, toList_rename, toList_rename, String.toList_append, same,
    List.append_assoc, List.append_assoc, List.singleton_append, List.singleton_append,
    replaceChars_append_separator isWord nonempty _ _ separator, (List.append_inj' kept rfl).1]

/-! ## Parts with a choice of the script -/

theorem rename_quote_event :
    rename owner event delegate name (Text.quote event) = Text.quote event := by
  apply rename_of_letterCount
  rw [letterCount_quote, Identifier.letterCount_handler]
  omega

theorem rename_quote_child (child : String) :
    rename owner event (some child) name (Text.quote child) = Text.quote child := by
  apply rename_of_letterCount
  have atMost := Identifier.letterCount_le_childPart child
  rw [letterCount_quote, Identifier.letterCount_handler]
  omega

/-- A reference for the element of the owner has three letters more than the key, not six. -/
theorem rename_reference {identifier : String}
    (numbered : Identifier.IsNumbered (Identifier.reference owner) identifier) :
    rename owner event delegate name identifier = identifier := by
  rcases numbered with ⟨number, digits, named⟩
  apply rename_of_letterCount
  have ending : letterCount ['R', 'e', 'f'] = 3 := by decide
  rw [named, letterCount_append, letterCount_digits digits, Identifier.toList_reference,
    letterCount_append, ending, Identifier.letterCount_handler]
  omega

theorem rename_elementName (target : ListenerTarget) :
    rename owner event delegate name (elementName target) = elementName target := by
  apply rename_of_absent
  cases target with
  | reference identifier =>
      change occursChars "handle".toList "element".toList = false
      decide
  | page object => cases object <;> decide

theorem rename_elementLookup_append {target : ListenerTarget}
    (kept : ∀ identifier, target = .reference identifier →
      rename owner event delegate name identifier = identifier) (rest : String) :
    rename owner event delegate name (elementLookup target ++ rest) =
      elementLookup target ++ rename owner event delegate name rest := by
  cases target with
  | reference identifier =>
      have apart : StartsApart (".current;\nif (!element) return undefined;\n" ++ rest) :=
        StartsApart.append (by decide) rest
      dsimp only [elementLookup]
      rw [String.append_assoc, String.append_assoc,
        rename_fixed_append owner event delegate name (by decide),
        rename_append owner event delegate name apart, kept identifier rfl,
        rename_fixed_append owner event delegate name (by decide), String.append_assoc,
        String.append_assoc]
  | page object =>
      dsimp only [elementLookup]
      rw [String.empty_append, String.empty_append]

theorem rename_listenerDefinition_append (rest : String) :
    rename owner event delegate name
        (listenerDefinition (Identifier.handler owner delegate event) delegate ++ rest) =
      listenerDefinition name delegate ++ rename owner event delegate name rest := by
  cases delegate with
  | some child =>
      have closing : StartsApart (")) \x7b\n    " ++
          (Identifier.handler owner (some child) event ++ ("(event);\n  \x7d\n\x7d;\n" ++ rest))) :=
        StartsApart.append (by decide) _
      have call : StartsApart ("(event);\n  \x7d\n\x7d;\n" ++ rest) :=
        StartsApart.append (by decide) _
      dsimp only [listenerDefinition]
      simp only [String.append_assoc, -String.reduceAppend]
      rw [rename_fixed_append owner event _ name (by decide),
        rename_append owner event _ name closing, rename_quote_child,
        rename_fixed_append owner event _ name (by decide),
        rename_append owner event _ name call, rename_self,
        rename_fixed_append owner event _ name (by decide)]
  | none =>
      dsimp only [listenerDefinition]
      rw [String.empty_append, String.empty_append]

theorem rename_listenerName :
    rename owner event delegate name
        (listenerName (Identifier.handler owner delegate event) delegate) =
      listenerName name delegate := by
  cases delegate with
  | some child =>
      change rename owner event (some child) name "listener" = "listener"
      exact rename_of_absent owner event (some child) name (by decide)
  | none => exact rename_self owner event none name

theorem rename_listenerArguments (once : Bool) :
    rename owner event delegate name (listenerArguments event
        (listenerName (Identifier.handler owner delegate event) delegate) once) =
      listenerArguments event (listenerName name delegate) once := by
  have options : ∀ listener : String,
      StartsApart (", " ++ (listener ++ ((if once then ", \x7b once: true \x7d" else "") ++ ");"))) :=
    fun listener => StartsApart.append (by decide) _
  have closing : StartsApart ((if once then ", \x7b once: true \x7d" else "") ++ ");") := by
    cases once <;> decide
  have kept : rename owner event delegate name
      ((if once then ", \x7b once: true \x7d" else "") ++ ");") =
        (if once then ", \x7b once: true \x7d" else "") ++ ");" := by
    apply rename_of_absent
    cases once <;> decide
  rw [listenerArguments, rename_fixed_append owner event delegate name (by decide),
    rename_append owner event delegate name (options _), rename_quote_event,
    rename_fixed_append owner event delegate name (by decide),
    rename_append owner event delegate name closing, rename_listenerName, kept, listenerArguments]

theorem startsApart_listenerArguments (listener : String) (once : Bool) :
    StartsApart (listenerArguments event listener once) :=
  StartsApart.append (by decide) _

/-- A nonempty word may be put in place of the name before or after lines are indented. -/
theorem rename_indent (isWord : IsWord name.toList) (nonempty : name.toList ≠ []) (text : String) :
    rename owner event delegate name (Text.indent "  " text) =
      Text.indent "  " (rename owner event delegate name text) := by
  have separate : ∀ c ∈ "  ".toList, Text.isAsciiAlphanumeric c = false := by
    intro c member
    have blank : c = ' ' := by simpa using member
    rw [blank]
    decide
  apply String.toList_inj.mp
  rw [toList_rename, Text.indent, toList_overChars, toList_overChars, toList_rename]
  exact (indentChars_replaceChars (Identifier.isWord_handler owner delegate event)
    (handler_ne_nil owner event delegate) isWord nonempty separate text.toList).symm

/-- The removal of the listener, with the name of the handler replaced. -/
theorem rename_removal (target : ListenerTarget) (once : Bool) :
    rename owner event delegate name (elementName target ++ (".removeEventListener" ++
        listenerArguments event
          (listenerName (Identifier.handler owner delegate event) delegate) once)) =
      elementName target ++ (".removeEventListener" ++
        listenerArguments event (listenerName name delegate) once) := by
  have method : ∀ rest, StartsApart (".removeEventListener" ++ rest) :=
    fun rest => StartsApart.append (by decide) rest
  have kept : rename owner event delegate name ".removeEventListener" = ".removeEventListener" :=
    rename_of_absent owner event delegate name (by decide)
  rw [rename_append owner event delegate name (method _), rename_elementName,
    rename_append owner event delegate name (startsApart_listenerArguments event _ once), kept,
    rename_listenerArguments]

end Renamed

/-! ## The whole effect -/

/-- The effect that a handler under another name has is the one that would have been written for
that name in the first place. -/
theorem rename_listenerCode (owner event : String) (delegate : Option String) {name : String}
    {target : ListenerTarget} (once : Bool)
    (kept : ∀ identifier, target = .reference identifier →
      rename owner event delegate name identifier = identifier)
    (isWord : IsWord name.toList) (nonempty : name.toList ≠ []) :
    rename owner event delegate name
        (listenerCode target event (Identifier.handler owner delegate event) delegate once) =
      listenerCode target event name delegate once := by
  have method : ∀ rest, StartsApart (".addEventListener" ++ rest) :=
    fun rest => StartsApart.append (by decide) rest
  have between : ∀ rest, StartsApart ("\nreturn () => \x7b\n" ++ rest) :=
    fun rest => StartsApart.append (by decide) rest
  have addition : rename owner event delegate name ".addEventListener" = ".addEventListener" :=
    rename_of_absent owner event delegate name (by decide)
  have closing : StartsApart "\n\x7d;" := by decide
  have closed : rename owner event delegate name "\n\x7d;" = "\n\x7d;" :=
    rename_of_absent owner event delegate name (by decide)
  rw [listenerCode_eq, rename_elementLookup_append owner event delegate name kept,
    rename_listenerDefinition_append, rename_append owner event delegate name (method _),
    rename_elementName, rename_append owner event delegate name
      (StartsApart.append (startsApart_listenerArguments event _ once) _), addition]
  rw [rename_append owner event delegate name (between _), rename_listenerArguments,
    rename_fixed_append owner event delegate name (by decide),
    rename_append owner event delegate name closing, closed,
    rename_indent owner event delegate name isWord nonempty, rename_removal, listenerCode_eq]

end Pass
end Hookify
