import Hookify.Proofs.Script.Texts

namespace Hookify
namespace Script

/-!
# Texts in the place of operands

A text that is put in the place of an operand should be read as one, whatever
operators stand around it.  Two readers of the grammar begin with an operand:
the one for an operand with the operators before it, and the one for operators
of at least a certain strength with the operands between them.  All the others
begin with one of these.

What is behind an operand is read with the operand at hand: a member, a call or
an operator makes a node of it and of what follows.  So a text is read as an
operand if the reader that begins with the text does the same as the one that
goes on behind it with its node at hand.

An operand of the grammar, that is a name with the members and calls behind it,
is read so everywhere.
-/

namespace Grammar

open Reader

/-! ## Readers that begin with an operand -/

/-- What an operand goes on with: members and calls, at most so many, and a step operator. -/
def steppedFrom (grammar : Grammar) (budget : Nat) (first : Sketch) : Reader Sketch := do
  let whole ← steps grammar true budget first
  let cursor ← get
  if ! cursor.newline && (cursor.isSign "++" || cursor.isSign "--") then
    let sign ← leaf .operator
    let updated ← finish .updateExpression whole.start [whole.as .argument, sign.as .operator]
    steps grammar true grammar.budget updated
  else
    return whole

/-- An operand without anything behind it. -/
def firstOperand (grammar : Grammar) : Reader Sketch := do
  if ← atWord "new" then newOperand grammar grammar.budget else operand grammar

/-- An operand with the operators before it and so many members and calls behind it. -/
def unaryWith (grammar : Grammar) (budget : Nat) : Reader Sketch := do
  let cursor ← get
  if isPrefixSign cursor then
    let sign ← leaf .operator
    let inner ← grammar.unary
    finish .unaryExpression cursor.start [sign.as .operator, inner.as .argument]
  else if cursor.isSign "++" || cursor.isSign "--" then
    let sign ← leaf .operator
    let inner ← grammar.unary
    finish .updateExpression cursor.start [sign.as .operator, inner.as .argument]
  else if ← awaits then
    advance
    let inner ← grammar.unary
    finish .awaitExpression cursor.start [inner]
  else
    let first ← firstOperand grammar
    steppedFrom grammar budget first

theorem stepped_eq (grammar : Grammar) :
    stepped grammar = firstOperand grammar >>= steppedFrom grammar grammar.budget := by
  rw [stepped, firstOperand, bind_assoc]
  refine bind_congr fun isNew => ?_
  cases isNew <;> rfl

theorem unaryWith_budget (grammar : Grammar) :
    unaryWith grammar grammar.budget = unaryOf grammar := by
  rw [unaryOf, stepped_eq]
  rfl

/-- A choice on a condition that has been read, or the condition. -/
def chosenFrom (grammar : Grammar) (condition : Sketch) : Reader Sketch := do
  if ← optionalSign "?" then
    let consequence ← withIn true grammar.assignment
    sign ":"
    let alternative ← grammar.assignment
    finish .ternaryExpression condition.start
      [condition.as .condition, consequence.as .consequence, alternative.as .alternative]
  else
    return condition

/-- An assignment to what has been read, or what has been read. -/
def assignedFrom (grammar : Grammar) (left : Sketch) : Reader Sketch := do
  let cursor ← get
  if cursor.isSign "=" then
    advance
    let right ← grammar.assignment
    finish .assignmentExpression left.start [left.toPattern.as .left, right.as .right]
  else
    match cursor.lexeme with
    | .sign chars =>
        if augmentedSigns.contains chars then
          let sign ← leaf .operator
          let right ← grammar.assignment
          finish .augmentedAssignmentExpression left.start
            [left.as .left, sign.as .operator, right.as .right]
        else
          return left
    | _ => return left

/-- Expressions between commas, the first of which has been read. -/
def listedFrom (grammar : Grammar) (first : Sketch) : Reader Sketch := do
  let others ← many (do
    if ← optionalSign "," then return some (← grammar.assignment) else return none) grammar.budget
  if others.isEmpty then
    return first
  else
    finish .sequenceExpression first.start (first :: others)

theorem ternaryOf_eq (grammar : Grammar) :
    ternaryOf grammar = binaryOf grammar 0 >>= chosenFrom grammar := rfl

theorem assignmentOf_eq (grammar : Grammar) :
    assignmentOf grammar = (do
      if ← atWord "yield" then yielded grammar
      else ternaryOf grammar >>= assignedFrom grammar) := rfl

theorem expressionOf_eq (grammar : Grammar) :
    expressionOf grammar = assignmentOf grammar >>= listedFrom grammar := rfl

/-! ## Slots -/

/-- The readers that begin with an operand. -/
inductive Slot where
  /-- An operand with the operators before it. -/
  | unary
  /-- Operators of at least a certain strength with the operands between them. -/
  | binary (least : Nat)
  /-- One expression without commas outside of brackets. -/
  | assignment
  /-- Expressions separated by commas. -/
  | expression
  deriving Repr, DecidableEq

namespace Slot

/-- The least strength of the operators that the reader reads, if it reads any. -/
def least? : Slot → Option Nat
  | .unary => none
  | .binary least => some least
  | .assignment | .expression => some 0

/-- What the reader does with the operators behind its first operand. -/
def operatorsFrom (grammar : Grammar) (operators : Nat) (slot : Slot) (left : Sketch) :
    Reader Sketch :=
  match slot.least? with
  | some least => binaryFrom grammar least operators left
  | none => return left

/-- What the reader does behind operands and operators. -/
def tail (grammar : Grammar) : Slot → Sketch → Reader Sketch
  | .unary, left | .binary _, left => return left
  | .assignment, left => chosenFrom grammar left >>= assignedFrom grammar
  | .expression, left => chosenFrom grammar left >>= assignedFrom grammar >>= listedFrom grammar

/-- What the reader does behind its first operand. -/
def finish (grammar : Grammar) (operators : Nat) (slot : Slot) (left : Sketch) : Reader Sketch :=
  slot.operatorsFrom grammar operators left >>= slot.tail grammar

/-- The reader, with so many members and calls and so many operators that it may still read. -/
def read (grammar : Grammar) (budget operators : Nat) (slot : Slot) : Reader Sketch :=
  let plain := unaryWith grammar budget >>= slot.finish grammar operators
  match slot with
  | .unary | .binary _ => plain
  | .assignment => do
      if ← atWord "yield" then yielded grammar else plain
  | .expression => do
      if ← atWord "yield" then yielded grammar >>= listedFrom grammar else plain

/-- What the reader does behind an operand that it has begun with. -/
def goOn (grammar : Grammar) (budget operators : Nat) (slot : Slot) (whole : Sketch) :
    Reader Sketch :=
  steppedFrom grammar budget whole >>= slot.finish grammar operators

/-- From the cursor on, the reader does what it does behind an operand at hand, after it has read
some members, calls and operators, each of at least one character. -/
def ReadsAs (grammar : Grammar) (slot : Slot) (cursor : Cursor) (whole : Sketch)
    (behind : Cursor) : Prop :=
  ∃ taken passed, taken + passed + behind.behind.length ≤ cursor.behind.length ∧
    ∀ budget operators, slot.read grammar (budget + taken) (operators + passed) cursor =
      slot.goOn grammar budget operators whole behind

/-- An operator of this strength belongs to what the reader reads. -/
def Takes (strength : Nat) (slot : Slot) : Prop :=
  ∃ least, slot.least? = some least ∧ least ≤ strength

/-- The reader of the grammar. -/
def reader (grammar : Grammar) : Slot → Reader Sketch
  | .unary => unaryOf grammar
  | .binary least => binaryOf grammar least
  | .assignment => assignmentOf grammar
  | .expression => expressionOf grammar

/-- The budget of the grammar makes its own readers. -/
theorem read_budget (grammar : Grammar) (slot : Slot) :
    slot.read grammar grammar.budget grammar.budget = slot.reader grammar := by
  have plain (next : Sketch → Reader Sketch) : (unaryWith grammar grammar.budget >>= fun left =>
      binaryFrom grammar 0 grammar.budget left >>= next) = binaryOf grammar 0 >>= next := by
    rw [binaryOf, bind_assoc, unaryWith_budget]
  cases slot with
  | unary =>
      change (unaryWith grammar grammar.budget >>= fun left => pure left >>= pure) = _
      rw [unaryWith_budget]
      exact bind_pure (unaryOf grammar)
  | binary least =>
      change (unaryWith grammar grammar.budget >>= fun left =>
        binaryFrom grammar least grammar.budget left >>= pure) = _
      rw [unaryWith_budget]
      exact bind_congr fun left => bind_pure _
  | assignment =>
      rw [reader, assignmentOf_eq, ternaryOf_eq, bind_assoc]
      exact bind_congr fun isYield => congrArg (ite _ _) (plain _)
  | expression =>
      rw [reader, expressionOf_eq, assignmentOf_eq, ternaryOf_eq, bind_assoc, bind_assoc]
      refine bind_congr fun isYield => ?_
      cases isYield with
      | true => rfl
      | false => exact (plain _).trans (bind_assoc _ _ _).symm

end Slot

section Slots

variable {grammar : Grammar} {cursor behind : Cursor} {whole : Sketch} {slot : Slot}

/-- What the reader of a grammar does, with a budget that is enough for the text. -/
theorem Slot.ReadsAs.reader_eq (reads : slot.ReadsAs grammar cursor whole behind)
    (enough : cursor.behind.length ≤ grammar.budget) :
    ∃ budget operators, behind.behind.length ≤ budget ∧ behind.behind.length ≤ operators ∧
      slot.reader grammar cursor = slot.goOn grammar budget operators whole behind := by
  obtain ⟨taken, passed, bound, same⟩ := reads
  refine ⟨grammar.budget - taken, grammar.budget - passed, by omega, by omega, ?_⟩
  rw [← same, Nat.sub_add_cancel (by omega), Nat.sub_add_cancel (by omega), Slot.read_budget]

theorem Slot.read_eq (noYield : cursor.isWord "yield" = false) (budget operators : Nat)
    (slot : Slot) : slot.read grammar budget operators cursor =
      (unaryWith grammar budget >>= slot.finish grammar operators) cursor := by
  cases slot with
  | unary | binary _ => rfl
  | assignment | expression =>
      rw [Slot.read, run_atWord, noYield, if_neg Bool.false_ne_true]

theorem unaryWith_eq (noPrefix : isPrefixSign cursor = false)
    (noStep : (cursor.isSign "++" || cursor.isSign "--") = false)
    (noAwait : awaits cursor = .ok false cursor) (budget : Nat) :
    unaryWith grammar budget cursor =
      (firstOperand grammar >>= steppedFrom grammar budget) cursor := by
  rw [unaryWith, run_get, if_neg (by simp [noPrefix]), if_neg (by simp [noStep]),
    run_bind noAwait, if_neg Bool.false_ne_true]

end Slots

/-! ## Operands with members and calls -/

/-- A call of what has been read, with so many arguments. -/
def call (grammar : Grammar) (count : Nat) (callee : Sketch) : Reader Sketch := do
  let inputs ← argumentsOf grammar count
  finish .callExpression callee.start [callee.as .function, inputs.as .arguments]

/-- A certain member of what has been read. -/
def member (name : String) (object : Sketch) : Reader Sketch := do
  sign "."
  let property ← leafOf .propertyIdentifier (.word name.toList)
  finish .memberExpression object.start [object.as .object, property.as .property]

/-- The reader finds the operand from the cursor on, after some of its members and calls. -/
structure IsOperand (grammar : Grammar) (cursor : Cursor) (whole : Sketch) (behind : Cursor) :
    Prop where
  noPrefix : isPrefixSign cursor = false
  noStep : (cursor.isSign "++" || cursor.isSign "--") = false
  noAwait : awaits cursor = .ok false cursor
  noYield : cursor.isWord "yield" = false
  reached : ∃ first next taken, taken + behind.behind.length ≤ cursor.behind.length ∧
    firstOperand grammar cursor = .ok first next ∧
    ∀ budget, steps grammar true (budget + taken) first next =
      steps grammar true budget whole behind

section Operand

variable {grammar : Grammar} {cursor behind next : Cursor} {whole found object : Sketch}

/-- One step more has been taken. -/
theorem IsOperand.step (operand : IsOperand grammar cursor object behind)
    (takes : step grammar true object behind = .ok (some found) next)
    (shorter : next.behind.length < behind.behind.length) :
    IsOperand grammar cursor found next := by
  obtain ⟨first, start, taken, enough, reads, goesOn⟩ := operand.reached
  refine ⟨operand.noPrefix, operand.noStep, operand.noAwait, operand.noYield, first, start,
    taken + 1, by omega, reads, fun budget => ?_⟩
  rw [Nat.add_comm taken, ← Nat.add_assoc, goesOn (budget + 1), steps, run_bind takes]

/-- A call is one step. -/
theorem step_call {count : Nat} (same : arguments grammar behind = argumentsOf grammar count behind)
    (reads : call grammar count object behind = .ok found next) :
    step grammar true object behind = .ok (some found) next := by
  obtain ⟨inputs, last, readsInputs, finishes⟩ := exists_of_bind reads
  rw [← same] at readsInputs
  have signs : ∀ text, behind.isSign text = ("(".toList == text.toList) :=
    isSign_eq (lexeme_of_arguments readsInputs)
  rw [step, run_get]
  simp only [signs, Bool.true_and]
  rw [if_neg (by decide), if_neg (by decide), if_neg (by decide), if_neg (by decide),
    if_pos (by decide), run_bind readsInputs, run_bind finishes]
  rfl

/-- A member is one step. -/
theorem step_member {name : String} (reads : member name object behind = .ok found next) :
    step grammar true object behind = .ok (some found) next := by
  obtain ⟨result, first, takes, reads⟩ := exists_of_bind reads
  obtain ⟨isDot, rfl⟩ := lexeme_of_sign takes
  obtain ⟨property, second, takesWord, finishes⟩ := exists_of_bind reads
  obtain ⟨isWord, takesLeaf⟩ := lexeme_of_leafOf takesWord
  have named : propertyName behind.advance = .ok property second := by
    rw [propertyName, run_get, isWord]
    exact takesLeaf
  rw [step, run_get, isSign_eq isDot, if_pos (by decide), run_advance, run_bind named,
    run_bind finishes]
  rfl

/-- Words with a meaning of their own at the beginning of an operand. -/
def specialWords : List (List Char) :=
  Cursor.reservedWords ++ ["async".toList, "await".toList, "undefined".toList, "yield".toList]

/-- A name is an operand, unless it is the parameter of an arrow function. -/
theorem isOperand_name {name : String} (ordinary : name.toList ∉ specialWords)
    (reads : leafOf .identifier (.word name.toList) cursor = .ok whole behind)
    (noArrow : behind.isSign "=>" = false)
    (shorter : behind.behind.length ≤ cursor.behind.length) :
    IsOperand grammar cursor whole behind := by
  obtain ⟨lexeme, takes⟩ := lexeme_of_leafOf reads
  have noSign := isSign_eq_false lexeme
  have other : ∀ word : String, word.toList ∈ specialWords → cursor.isWord word = false := by
    intro word special
    rw [isWord_eq lexeme, beq_eq_false_iff_ne]
    exact fun same => ordinary (same ▸ special)
  have isName : cursor.isName = true := by
    rw [Cursor.isName, lexeme]
    have unreserved : name.toList ∉ Cursor.reservedWords :=
      fun reserved => ordinary (List.mem_append_left _ reserved)
    simpa using unreserved
  have readsName : Reader.name cursor = .ok whole behind := by
    rw [Reader.name, run_get, if_pos isName, other "undefined" (by decide)]
    exact takes
  have noAwait : awaits cursor = .ok false cursor := by
    rw [awaits, run_atWord, other "await" (by decide), if_neg Bool.false_ne_true]
    rfl
  have readsOperand : firstOperand grammar cursor = .ok whole behind := by
    rw [firstOperand, run_atWord, other "new" (by decide), if_neg Bool.false_ne_true, operand,
      run_get, lexeme]
    change wordOperand grammar cursor = _
    rw [wordOperand, run_get, other "function" (by decide), other "async" (by decide),
      other "class" (by decide), other "this" (by decide), other "super" (by decide),
      other "null" (by decide), other "true" (by decide), other "false" (by decide),
      other "import" (by decide)]
    simp only [if_neg Bool.false_ne_true]
    rw [nameOperand, run_bind readsName, run_atSign, noArrow, if_neg Bool.false_ne_true]
    rfl
  refine ⟨?_, by rw [noSign, noSign]; rfl, noAwait, other "yield" (by decide), whole, behind, 0,
    by omega, readsOperand, fun _ => rfl⟩
  simp only [isPrefixSign, noSign, Bool.false_or]
  rw [other "typeof" (by decide), other "void" (by decide), other "delete" (by decide)]
  rfl

/-- An operand with members and calls is read as an operand, whatever is around it. -/
theorem IsOperand.readsAs (isOperand : IsOperand grammar cursor whole behind) (slot : Slot) :
    slot.ReadsAs grammar cursor whole behind := by
  obtain ⟨first, start, taken, enough, reads, goesOn⟩ := isOperand.reached
  refine ⟨taken, 0, enough, fun budget operators => ?_⟩
  have same : unaryWith grammar (budget + taken) cursor =
      steppedFrom grammar budget whole behind := by
    rw [unaryWith_eq isOperand.noPrefix isOperand.noStep isOperand.noAwait, run_bind reads]
    exact run_bind_congr (goesOn budget)
  rw [Slot.read_eq isOperand.noYield]
  exact run_bind_congr same

end Operand

/-! ## Texts that are operands -/

/-- The text is read by the reader, and what the reader finds is an operand. -/
def ReadsOperand (grammar : Grammar) (reader : Reader Sketch) (text rest : List Char) : Prop :=
  ∀ cursor : Cursor, cursor.At (text ++ rest) → ∃ whole behind,
    reader cursor = .ok whole behind ∧ behind.At rest ∧ IsOperand grammar cursor whole behind

section Texts

variable {grammar : Grammar} {text later rest : List Char}

theorem reads_call {texts : List (List Char)} (are : AreArguments grammar texts rest)
    (callee : Sketch) : Reads (call grammar texts.length callee) (enclosed texts) rest :=
  are.reads.bind_nil fun _ => reads_finish _ _ _ _

theorem reads_member {name : String} (object : Sketch)
    (isDot : IsLexeme (.sign ".".toList) ".".toList ".".toList (name.toList ++ rest))
    (isWord : IsLexeme (.word name.toList) name.toList name.toList rest) :
    Reads (member name object) (".".toList ++ name.toList) rest :=
  Reads.bind (reads_sign isDot) fun _ =>
    (reads_leafOf isWord).bind_nil fun _ => reads_finish _ _ _ _

theorem ReadsOperand.step {operand : Reader Sketch} {next : Sketch → Reader Sketch}
    (reads : ReadsOperand grammar operand text (later ++ rest))
    (goesOn : ∀ object, Reads (next object) later rest) (nonempty : later ≠ [])
    (isStep : ∀ {object found : Sketch} {cursor behind : Cursor},
      cursor.At (later ++ rest) → next object cursor = .ok found behind →
        Grammar.step grammar true object cursor = .ok (some found) behind) :
    ReadsOperand grammar (operand >>= next) (text ++ later) rest := by
  intro cursor stands
  rw [List.append_assoc] at stands
  obtain ⟨object, behind, readsObject, standsBehind, isOperand⟩ := reads cursor stands
  obtain ⟨whole, last, readsWhole, standsLast⟩ := goesOn object behind standsBehind
  refine ⟨whole, last, (run_bind readsObject).trans readsWhole, standsLast,
    isOperand.step (isStep standsBehind readsWhole) ?_⟩
  have longer := List.length_pos_iff.mpr nonempty
  rw [standsLast.behind, standsBehind.behind, List.length_append]
  omega

theorem ReadsOperand.call {operand : Reader Sketch} {texts : List (List Char)}
    (reads : ReadsOperand grammar operand text (enclosed texts ++ rest))
    (are : AreArguments grammar texts rest) :
    ReadsOperand grammar (operand >>= Grammar.call grammar texts.length) (text ++ enclosed texts)
      rest :=
  reads.step (reads_call are) (List.cons_ne_nil _ _) fun stands =>
    step_call (are.arguments_eq stands)

theorem ReadsOperand.call_nil {operand : Reader Sketch}
    (reads : ReadsOperand grammar operand text (enclosed [] ++ rest)) :
    ReadsOperand grammar (operand >>= Grammar.call grammar 0) (text ++ enclosed []) rest :=
  reads.call (AreArguments.mk (Nat.zero_le _) .nil)

theorem ReadsOperand.member {operand : Reader Sketch} {name : String}
    (reads : ReadsOperand grammar operand text (".".toList ++ name.toList ++ rest))
    (isDot : IsLexeme (.sign ".".toList) ".".toList ".".toList (name.toList ++ rest))
    (isWord : IsLexeme (.word name.toList) name.toList name.toList rest) :
    ReadsOperand grammar (operand >>= Grammar.member name) (text ++ (".".toList ++ name.toList))
      rest :=
  reads.step (fun object => reads_member object isDot isWord) (by simp) fun _ => step_member

/-- A name is an operand. -/
theorem readsOperand_name {name : String} (ordinary : name.toList ∉ specialWords)
    (isWord : IsLexeme (.word name.toList) name.toList text rest)
    (noArrow : (readLexeme (gapOf rest).rest).1 ≠ .sign "=>".toList) :
    ReadsOperand grammar (leafOf .identifier (.word name.toList)) text rest := by
  intro cursor stands
  obtain ⟨whole, behind, reads, standsBehind⟩ := reads_leafOf isWord cursor stands
  refine ⟨whole, behind, reads, standsBehind, isOperand_name ordinary reads ?_ ?_⟩
  · refine Bool.eq_false_iff.mpr fun isArrow => noArrow ?_
    rw [← standsBehind.lexeme, lexeme_of_isSign isArrow]
  · rw [standsBehind.behind, stands.behind, List.length_append]
    omega

end Texts
end Grammar
end Script
end Hookify
