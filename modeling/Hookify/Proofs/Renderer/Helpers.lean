import Hookify.Proofs.Script.Comparisons
import Hookify.Renderer.Replace
import Hookify.Script.Parse

namespace Hookify

open Script

namespace Renderer

/-!
# Helper functions in the place of operands

The call of a helper function is an operand, and a text without parentheses
around it takes its place.  The arguments are put in that text without
parentheses too.

All texts but one end in a call, so they are operands themselves: whatever
stands around one, it is read as a whole.  The test for a function is a
comparison, and a comparison falls apart behind a negation, beside an operator
that binds at least as tight, and where a member is taken of it.

An argument between the parentheses of a call stands there as it stood before.
The object that is searched and the operand of the test stand beside the text
around them, so they have to be operands themselves.
-/

open Script.Reader Script.Grammar Selection

/-! ## Replacements -/

/-- The text of an argument of a call; nothing if there is no such argument. -/
def argumentText (renderer : Renderer) (place : Place) (index : Nat) : String :=
  (((callArguments place)[index]?).map renderer.fragment).getD ""

/-- The texts of a list, with a space before each but the first. -/
def spaced : List String → List (List Char)
  | [] => []
  | first :: others => first.toList :: others.map fun text => ' ' :: text.toList

/-- The arguments that are put between the parentheses of a replacement: all that are merged, and
the first one otherwise. -/
def listedTexts (renderer : Renderer) (place : Place) (name : String) : List String :=
  let texts := (callArguments place).map renderer.fragment
  if name == "extend" then
    if renderer.argumentText place 0 == "true" then texts.drop 1 else texts
  else
    texts.take 1

/-- The name of a standard object. -/
def standard (name : String) : Reader Sketch :=
  leafOf .identifier (.word name.toList)

/-- The tree that a replacement is meant to have: its own operators and calls, with so many
arguments inside.  An object that comes from the script is read by the reader given for it. -/
def replacement (grammar : Grammar) (object : Reader Sketch) (count : Nat) :
    String → Reader Sketch
  | "trim" => standard "String" >>= call grammar count >>= member "trim" >>= call grammar 0
  | "isArray" => standard "Array" >>= member "isArray" >>= call grammar count
  | "parseJSON" => standard "JSON" >>= member "parse" >>= call grammar count
  | "isFunction" => typeTest grammar
  | "now" => standard "Date" >>= member "now" >>= call grammar 0
  | "inArray" => object >>= member "indexOf" >>= call grammar count
  | "extend" => standard "Object" >>= member "assign" >>= call grammar count
  | _ => fail

/-- Where the replacement has its arguments, each of those between parentheses is read as one, the
object that is searched as an operand, and what is tested as an operand with the operators before
it. -/
def ArgumentsRead (renderer : Renderer) (grammar : Grammar) (object : Reader Sketch) (place : Place)
    (rest : List Char) (name : String) : Prop :=
  let inputs := spaced (renderer.listedTexts place name)
  match name with
  | "trim" => AreArguments grammar inputs (".trim()".toList ++ rest)
  | "isArray" | "parseJSON" | "extend" => AreArguments grammar inputs rest
  | "isFunction" =>
      Reads grammar.unary (' ' :: (renderer.argumentText place 0).toList)
        (" === 'function'".toList ++ rest)
  | "inArray" =>
      ReadsOperand grammar object (renderer.argumentText place 1).toList
        (".indexOf".toList ++ (enclosed inputs ++ rest)) ∧ AreArguments grammar inputs rest
  | _ => True

/-! ## Texts of replacements -/

theorem closed_cons_space (first : List Char) (others : List (List Char)) :
    closed ((' ' :: first) :: others) = ' ' :: closed (first :: others) := by
  cases others <;> rfl

/-- A list of texts between parentheses. -/
theorem closed_spaced (texts : List String) :
    closed (spaced texts) = (String.intercalate ", " texts).toList ++ [')'] := by
  induction texts with
  | nil => rfl
  | cons first others ih =>
      cases others with
      | nil => rw [String.intercalate_singleton]; rfl
      | cons second others =>
          rw [String.intercalate_cons_of_ne_nil (List.cons_ne_nil _ _), String.toList_append,
            String.toList_append, List.append_assoc, List.append_assoc, ← ih, spaced, spaced,
            List.map_cons, closed, closed_cons_space]
          rfl

theorem intercalate_take_one (texts : List String) :
    String.intercalate ", " (texts.take 1) = (texts[0]?).getD "" := by
  cases texts with
  | nil => rfl
  | cons first others => exact String.intercalate_singleton

/-- A call, as it is written. -/
theorem toList_call (callee : String) (texts : List String) :
    (callee ++ "(" ++ String.intercalate ", " texts ++ ")").toList =
      callee.toList ++ enclosed (spaced texts) := by
  rw [enclosed, closed_spaced]
  simp [String.toList_append]

/-- A call of a method, as it is written. -/
theorem toList_methodCall (object method : String) (texts : List String) :
    (object ++ "." ++ method ++ "(" ++ String.intercalate ", " texts ++ ")").toList =
      object.toList ++ (".".toList ++ method.toList) ++ enclosed (spaced texts) := by
  rw [toList_call, String.toList_append, String.toList_append, List.append_assoc object.toList]

section Helper

variable {renderer : Renderer} {grammar : Grammar} {object : Reader Sketch} {place : Place}
  {name text : String} {texts : List (List Char)} {rest : List Char}

theorem argumentText_eq (other : name ≠ "extend") : renderer.argumentText place 0 =
    String.intercalate ", " (renderer.listedTexts place name) := by
  rw [listedTexts, if_neg (by simpa using other), intercalate_take_one, argumentText,
    List.getElem?_map]

/-! ## Replacements that are operands -/

/-- A method of a standard object is an operand before a call. -/
theorem readsOperand_standard {method : String} (ordinary : name.toList ∉ specialWords)
    (isName : ∀ later, IsLexeme (.word name.toList) name.toList name.toList ('.' :: later))
    (isDot : ∀ later, IsLexeme (.sign ".".toList) ".".toList ".".toList (method.toList ++ later))
    (isMethod : ∀ later, IsLexeme (.word method.toList) method.toList method.toList ('(' :: later))
    (rest : List Char) : ReadsOperand grammar (standard name >>= member method)
      (name.toList ++ (".".toList ++ method.toList)) ('(' :: rest) := by
  have noArrow (later : List Char) :
      (readLexeme (gapOf (".".toList ++ (method.toList ++ later))).rest).1 ≠ .sign "=>".toList := by
    rw [(isDot later).gap, (isDot later).reads]
    decide
  have readsName : ReadsOperand grammar (standard name) name.toList
      (".".toList ++ method.toList ++ ('(' :: rest)) := by
    rw [List.append_assoc]
    exact readsOperand_name ordinary (isName _) (noArrow _)
  exact ReadsOperand.member readsName (isDot _) (isMethod _)

/-- The conversion to a string without the space around it is an operand. -/
theorem readsOperand_trimmed (are : AreArguments grammar texts (".trim()".toList ++ rest)) :
    ReadsOperand grammar
      (standard "String" >>= call grammar texts.length >>= member "trim" >>= call grammar 0)
      ("String".toList ++ enclosed texts ++ (".".toList ++ "trim".toList) ++ enclosed []) rest := by
  have opens : (readLexeme (gapOf (enclosed texts ++ (".trim()".toList ++ rest))).rest).1 =
      .sign "(".toList := rfl
  have readsName : ReadsOperand grammar (standard "String") "String".toList
      (enclosed texts ++ (".trim()".toList ++ rest)) :=
    readsOperand_name (by decide) ⟨rfl, rfl⟩ (by rw [opens]; decide)
  have trimmed : ReadsOperand grammar
      (standard "String" >>= call grammar texts.length >>= member "trim")
      ("String".toList ++ enclosed texts ++ (".".toList ++ "trim".toList)) (enclosed [] ++ rest) :=
    ReadsOperand.member (readsName.call are) ⟨rfl, rfl⟩ ⟨rfl, rfl⟩
  exact trimmed.call_nil

/-- The search in an operand is an operand. -/
theorem readsOperand_index {first : String}
    (readsObject : ReadsOperand grammar object first.toList
      (".indexOf".toList ++ (enclosed texts ++ rest)))
    (are : AreArguments grammar texts rest) :
    ReadsOperand grammar (object >>= member "indexOf" >>= call grammar texts.length)
      (first.toList ++ (".".toList ++ "indexOf".toList) ++ enclosed texts) rest :=
  ReadsOperand.call (ReadsOperand.member readsObject ⟨rfl, rfl⟩ ⟨rfl, rfl⟩) are

/-- A replacement without an operator of its own is an operand. -/
theorem readsOperand_replacement (named : helperName? place = some name)
    (replaced : renderer.helper? place = some text) (other : name ≠ "isFunction")
    (reads : ArgumentsRead renderer grammar object place rest name) :
    ReadsOperand grammar
      (replacement grammar object (spaced (renderer.listedTexts place name)).length name)
      text.toList rest := by
  rw [helper?, named] at replaced
  dsimp only [bind, Option.bind] at replaced
  split at replaced <;> try obtain rfl := Option.some.inj replaced
  case h_1 =>
    change ReadsOperand grammar _
      ("String(" ++ renderer.argumentText place 0 ++ ").trim()").toList _
    have written : ("String(" ++ renderer.argumentText place 0 ++ ").trim()").toList =
        "String".toList ++ enclosed (spaced (renderer.listedTexts place "trim")) ++
          (".".toList ++ "trim".toList) ++ enclosed [] := by
      rw [← toList_call, ← argumentText_eq (by decide)]
      simp [String.toList_append, enclosed, closed]
    rw [written]
    exact readsOperand_trimmed reads
  case h_2 =>
    have written := toList_methodCall "Array" "isArray" (renderer.listedTexts place "isArray")
    rw [← argumentText_eq (by decide)] at written
    exact written ▸ (readsOperand_standard (by decide) (fun _ => ⟨rfl, rfl⟩)
      (fun _ => ⟨rfl, rfl⟩) (fun _ => ⟨rfl, rfl⟩) _).call reads
  case h_3 =>
    have written := toList_methodCall "JSON" "parse" (renderer.listedTexts place "parseJSON")
    rw [← argumentText_eq (by decide)] at written
    exact written ▸ (readsOperand_standard (by decide) (fun _ => ⟨rfl, rfl⟩)
      (fun _ => ⟨rfl, rfl⟩) (fun _ => ⟨rfl, rfl⟩) _).call reads
  case h_4 => exact absurd rfl other
  case h_5 =>
    exact toList_methodCall "Date" "now" [] ▸ (readsOperand_standard (by decide)
      (fun _ => ⟨rfl, rfl⟩) (fun _ => ⟨rfl, rfl⟩) (fun _ => ⟨rfl, rfl⟩) _).call_nil
  case h_6 =>
    have written := toList_methodCall (renderer.argumentText place 1) "indexOf"
      (renderer.listedTexts place "inArray")
    rw [← argumentText_eq (by decide)] at written
    change ReadsOperand grammar _ (renderer.argumentText place 1 ++ ".indexOf(" ++
      renderer.argumentText place 0 ++ ")").toList _
    have joined : renderer.argumentText place 1 ++ ".indexOf(" ++ renderer.argumentText place 0 ++
        ")" = renderer.argumentText place 1 ++ "." ++ "indexOf" ++ "(" ++
          renderer.argumentText place 0 ++ ")" := by
      simp [String.append_assoc]
    rw [joined, written]
    exact readsOperand_index reads.1 reads.2
  case h_7 =>
    have written := toList_methodCall "Object" "assign" (renderer.listedTexts place "extend")
    exact written ▸ (readsOperand_standard (by decide) (fun _ => ⟨rfl, rfl⟩)
      (fun _ => ⟨rfl, rfl⟩) (fun _ => ⟨rfl, rfl⟩) _).call reads
  case h_8 => cases replaced

/-- What takes the place of a helper function has its own tree, with each argument inside.  It is
read as one operand by every reader that begins with an operand, whatever is behind it.  Only the
test for a function is not: that is read so by the readers that read comparisons, and if no member,
no call and no operator that binds tighter is behind it. -/
theorem helper_is_operand_iff {budget depth : Nat} {cursor : Cursor}
    (named : helperName? place = some name) (replaced : renderer.helper? place = some text)
    (reads : ArgumentsRead renderer (grammarOf (budget + 1) (depth + 1)) object place rest name)
    (stands : cursor.At (text.toList ++ rest)) :
    ∃ whole behind,
      replacement (grammarOf (budget + 1) (depth + 1)) object
        (spaced (renderer.listedTexts place name)).length name cursor = .ok whole behind ∧
      behind.At rest ∧
      (name ≠ "isFunction" →
        ∀ slot : Slot, slot.ReadsAs (grammarOf (budget + 1) (depth + 1)) cursor whole behind) ∧
      (name = "isFunction" → stepsUp behind = false →
        ∀ slot : Slot, slot.ReadsAs (grammarOf (budget + 1) (depth + 1)) cursor whole behind ↔
          slot.Takes 7 ∧ ¬ BindsTighter 7 behind) := by
  by_cases isTest : name = "isFunction"
  · subst isTest
    rw [helper?, named] at replaced
    obtain rfl := Option.some.inj replaced
    have written : ("typeof " ++ renderer.argumentText place 0 ++ " === 'function'").toList =
        "typeof".toList ++ (' ' :: (renderer.argumentText place 0).toList ++
          " === 'function'".toList) := by
      simp [String.toList_append]
    change cursor.At (("typeof " ++ renderer.argumentText place 0 ++ " === 'function'").toList ++
      rest) at stands
    rw [written] at stands
    obtain ⟨whole, behind, finds, standsBehind⟩ := reads_typeTest reads cursor stands
    have shorter : behind.behind.length < cursor.behind.length := by
      rw [standsBehind.behind, stands.behind, List.length_append, List.length_append]
      have letters : 0 < "typeof".toList.length := by decide
      omega
    have enough : (grammarOf (budget + 1) depth).budget = budget + 1 := by cases depth <;> rfl
    refine ⟨whole, behind, finds, standsBehind, fun other => absurd rfl other,
      fun _ noStep slot => ?_⟩
    exact typeTest_readsAs_iff (fun _ => rfl) enough finds noStep shorter
  · obtain ⟨whole, behind, finds, standsBehind, isOperand⟩ :=
      readsOperand_replacement named replaced isTest reads cursor stands
    exact ⟨whole, behind, finds, standsBehind, fun _ => isOperand.readsAs,
      fun same => absurd same isTest⟩

end Helper

/-- Some helper function of a script is replaced by the text, with these texts in it. -/
theorem exists_helper_of_any {facts : Facts} {renderer : Renderer} {name text second : String}
    {listed : List String}
    (run : facts.root.walk.any (fun place => helperName? place == some name &&
      renderer.helper? place == some text && renderer.listedTexts place name == listed &&
      renderer.argumentText place 1 == second) = true) :
    ∃ place ∈ facts.root.walk, helperName? place = some name ∧
      renderer.helper? place = some text ∧ renderer.listedTexts place name = listed ∧
      renderer.argumentText place 1 = second := by
  obtain ⟨place, member, checks⟩ := List.any_eq_true.mp run
  simp only [Bool.and_eq_true, beq_iff_eq] at checks
  obtain ⟨⟨⟨named, replaced⟩, isListed⟩, isSecond⟩ := checks
  exact ⟨place, member, named, replaced, isListed, isSecond⟩

/-- As the first operand of a choice the test is one operand, and behind a negation it is not.  The
search is one behind a negation. -/
theorem helper_is_operand_of_condition :
    let facts := Facts.ofTree (parse "$.isFunction(cb) && !$.inArray(cb, list);")
    let renderer := Renderer.of facts none
    let atTest := (Cursor.ofChars "typeof cb === 'function' && !list.indexOf(cb);".toList).resume
    let atSearch := (Cursor.ofChars "list.indexOf(cb);".toList).resume
    let grammar := grammarOf 51 1
    (∃ place ∈ facts.root.walk, helperName? place = some "isFunction" ∧
      renderer.helper? place = some "typeof cb === 'function'" ∧
      ∃ whole behind, typeTest grammar atTest = .ok whole behind ∧
        (Slot.binary 0).ReadsAs grammar atTest whole behind ∧
        ¬ Slot.unary.ReadsAs grammar atTest whole behind) ∧
    ∃ place ∈ facts.root.walk, helperName? place = some "inArray" ∧
      renderer.helper? place = some "list.indexOf(cb)" ∧
      ∃ whole behind, (standard "list" >>= member "indexOf" >>= call grammar 1) atSearch =
          .ok whole behind ∧ Slot.unary.ReadsAs grammar atSearch whole behind := by
  intro facts renderer atTest atSearch grammar
  constructor
  · obtain ⟨place, member, named, replaced, listed, -⟩ := @exists_helper_of_any facts renderer
      "isFunction" "typeof cb === 'function'" "" ["cb"] (by decide +kernel)
    have operand : ReadsOperand (grammarOf 51 0) (standard "cb") " cb".toList
        " === 'function' && !list.indexOf(cb);".toList :=
      readsOperand_name (by decide) ⟨rfl, rfl⟩ (by decide)
    have tested : Reads (unaryOf (grammarOf 51 0)) " cb".toList
        " === 'function' && !list.indexOf(cb);".toList := by
      refine operand.reads .unary (by decide) fun behind stands => ?_
      have lexeme : behind.lexeme = .sign "===".toList := stands.lexeme
      exact ⟨by rw [goesOn_of_sign lexeme]; decide, stepsUp_eq_false_of_sign lexeme (by decide),
        fun _ _ => rfl⟩
    have reads : ArgumentsRead renderer (grammarOf (50 + 1) (0 + 1)) (standard "cb") place
        " && !list.indexOf(cb);".toList "isFunction" := by
      change Reads _ (' ' :: (renderer.argumentText place 0).toList) _
      rw [argumentText_eq (by decide : "isFunction" ≠ "extend"), listed]
      exact tested
    obtain ⟨whole, behind, finds, standsBehind, -, isOperand⟩ :=
      @helper_is_operand_iff _ _ _ _ _ _ _ _ atTest named replaced reads (Cursor.resume_at _)
    have lexeme : behind.lexeme = .sign "&&".toList := standsBehind.lexeme
    have isOperand := isOperand rfl (stepsUp_eq_false_of_sign lexeme (by decide))
    refine ⟨place, member, named, replaced, whole, behind, finds, ?_, ?_⟩
    · refine (isOperand (.binary 0)).mpr ⟨⟨0, rfl, Nat.zero_le 7⟩, ?_⟩
      rw [bindsTighter_iff_of_sign lexeme]
      decide
    · intro reads
      obtain ⟨⟨least, noStrength, -⟩, -⟩ := (isOperand .unary).mp reads
      cases noStrength
  · obtain ⟨place, member, named, replaced, listed, searched⟩ := @exists_helper_of_any facts
      renderer "inArray" "list.indexOf(cb)" "list" ["cb"] (by decide +kernel)
    have isName : IsLexeme (.word "cb".toList) "cb".toList "cb".toList (')' :: ";".toList) :=
      ⟨rfl, rfl⟩
    have isElement : IsElement grammar "cb".toList (')' :: ";".toList) :=
      isElement_name (by decide) isName rfl (by decide)
    have reads : ArgumentsRead renderer (grammarOf (50 + 1) (0 + 1)) (standard "list") place
        ";".toList "inArray" := by
      dsimp only [ArgumentsRead]
      rw [listed, searched]
      exact ⟨readsOperand_name (by decide) ⟨rfl, rfl⟩ (by decide), by decide, .last isElement⟩
    obtain ⟨whole, behind, finds, -, isOperand, -⟩ :=
      @helper_is_operand_iff _ _ _ _ _ _ _ _ atSearch named replaced reads (Cursor.resume_at _)
    rw [listed] at finds
    exact ⟨place, member, named, replaced, whole, behind, finds, isOperand (by decide) .unary⟩

/-- What stands in a certain part of the nodes of a kind, from the outside in. -/
def partsIn (source : String) (kind : Kind) (field : Field) : List String :=
  ((Place.ofRoot (parse source)).walk.filter (·.kind == kind)).filterMap fun place =>
    (place.child? field).map (·.text)

/-- What a script becomes. -/
def rendered (source : String) : String :=
  let tree := parse source
  (Renderer.of (Facts.ofTree tree) none).render (Place.ofRoot tree)

/-- A negation takes the operand of the test alone, and a choice between two functions falls apart
around the test, or around the search in the second one. -/
theorem not_operand_of_negation :
    partsIn "if (!$.isFunction(cb)) \x7b stop(); \x7d" .unaryExpression .argument =
        ["$.isFunction(cb)"] ∧
      rendered "if (!$.isFunction(cb)) \x7b stop(); \x7d" =
        "if (!typeof cb === 'function') \x7b stop(); \x7d" ∧
      partsIn (rendered "if (!$.isFunction(cb)) \x7b stop(); \x7d") .unaryExpression .argument =
        ["typeof cb", "cb"] ∧
      partsIn (rendered "run($.isFunction(a || b));") .unaryExpression .argument = ["a"] ∧
      partsIn (rendered "run($.inArray(x, a || b));") .memberExpression .object = ["b"] := by
  decide +kernel

end Renderer
end Hookify
