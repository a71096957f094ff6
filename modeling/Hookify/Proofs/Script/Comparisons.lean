import Hookify.Proofs.Script.Operands

namespace Hookify
namespace Script

/-!
# Comparisons in the place of operands

A comparison is read as one operand only where operators of its strength belong
to what is read, and only if nothing behind it takes its right operand away: a
member, an index, a call or a template behind it belongs to the right operand
alone, and so does an operator that binds tighter.  This is shown of the
comparison of a type with its name, whose right operand is a string.
-/

namespace Grammar

open Reader

/-- The type of an operand compared with the name of a type. -/
def typeTest (grammar : Grammar) : Reader Sketch := do
  let start := (← get).start
  let operator ← leafOf .operator (.word "typeof".toList)
  let inner ← grammar.unary
  let left ← finish .unaryExpression start [operator.as .operator, inner.as .argument]
  let comparison ← leafOf .operator (.sign "===".toList)
  let right ← leafOf .string .string
  finish .binaryExpression start [left.as .left, comparison.as .operator, right.as .right]

/-! ## What binds tighter -/

/-- A member, an index, a call or a template goes on with the operand before. -/
def goesOn (cursor : Cursor) : Bool :=
  [".", "[", "\x60", "?.", "("].any cursor.isSign

/-- A step operator stands on the same line as the operand before. -/
def stepsUp (cursor : Cursor) : Bool :=
  ! cursor.newline && (cursor.isSign "++" || cursor.isSign "--")

/-- What follows belongs to the last operand before it, and not to an operator of this strength. -/
def BindsTighter (strength : Nat) (cursor : Cursor) : Prop :=
  goesOn cursor = true ∨ ∃ next, strength? cursor = some next ∧ strength < next

section Tighter

variable {grammar inner : Grammar} {cursor behind : Cursor} {whole object found left : Sketch}
  {slot : Slot}

theorem step_eq_none (ends : goesOn cursor = false) (object : Sketch) :
    step grammar true object cursor = .ok none cursor := by
  simp only [goesOn, List.any_cons, List.any_nil, Bool.or_false, Bool.or_eq_false_iff] at ends
  obtain ⟨dot, bracket, quote, chain, parenthesis⟩ := ends
  rw [step, run_get, dot, bracket, quote, chain, parenthesis]
  rfl

theorem steps_eq_self (ends : goesOn cursor = false) (budget : Nat) (object : Sketch) :
    steps grammar true budget object cursor = .ok object cursor := by
  cases budget with
  | zero => rfl
  | succ budget => rw [steps, run_bind (step_eq_none ends object)]; rfl

theorem steppedFrom_eq_self (ends : goesOn cursor = false) (noStep : stepsUp cursor = false)
    (budget : Nat) (whole : Sketch) :
    steppedFrom grammar budget whole cursor = .ok whole cursor := by
  rw [steppedFrom, run_bind (steps_eq_self ends budget whole), run_get]
  rw [stepsUp] at noStep
  rw [if_neg (by simp [noStep])]
  rfl

theorem binaryFrom_eq_self {least : Nat}
    (ends : ∀ strength, strength? cursor = some strength → strength < least) (budget : Nat)
    (left : Sketch) : binaryFrom grammar least budget left cursor = .ok left cursor := by
  cases budget with
  | zero => rfl
  | succ budget =>
      rw [binaryFrom, run_get]
      cases strength : strength? cursor with
      | none => rfl
      | some strength => exact congrFun (if_pos (ends _ ‹_›)) cursor

theorem finds_finish_kind {kind other : Kind} (different : kind ≠ other) (start : Nat)
    (children : List Sketch) : Finds (·.kind ≠ other) (finish kind start children) := by
  rintro cursor found behind ⟨⟩
  exact different

/-- A reader that may read no more steps and operators goes on behind them. -/
theorem goOn_zero (noStep : stepsUp cursor = false) (slot : Slot) (whole : Sketch) :
    slot.goOn grammar 0 0 whole cursor = slot.tail grammar whole cursor := by
  have stepped : steppedFrom grammar 0 whole cursor = .ok whole cursor := by
    rw [steppedFrom, run_bind (rfl : steps grammar true 0 whole cursor = .ok whole cursor), run_get]
    rw [stepsUp] at noStep
    rw [if_neg (by simp [noStep])]
    rfl
  rw [Slot.goOn, run_bind stepped]
  cases slot <;> rfl

/-- What is read behind an operand is no string by itself. -/
theorem finds_step (object : Sketch) :
    Finds (∀ next ∈ ·, next.kind ≠ .string) (step grammar true object) := by
  have found : ∀ {reader : Reader Sketch}, Finds (·.kind ≠ .string) reader →
      Finds (∀ next ∈ ·, next.kind ≠ .string) (reader >>= fun next => pure (some next)) :=
    fun finds => finds_bind_of finds fun _ different => finds_pure (by simpa using different)
  have subscripts : ∀ chain, Finds (·.kind ≠ .string) (subscript grammar object chain) :=
    fun chain => finds_bind fun _ => finds_bind fun _ => finds_bind fun _ =>
      finds_finish_kind (by decide) _ _
  refine finds_bind fun cursor => finds_ite ?_ (finds_ite ?_ (finds_ite ?_ (finds_ite ?_
    (finds_ite ?_ ?_))))
  · exact finds_bind fun _ => finds_bind fun _ => found (finds_finish_kind (by decide) _ _)
  · exact found (subscripts _)
  · exact finds_bind fun _ => found (finds_finish_kind (by decide) _ _)
  · refine found (finds_bind fun _ => finds_bind fun _ => finds_ite ?_
      (finds_bind fun _ => finds_ite (subscripts _) ?_))
    · exact finds_bind fun _ => finds_finish_kind (by decide) _ _
    · exact finds_bind fun _ => finds_finish_kind (by decide) _ _
  · exact finds_bind fun _ => found (finds_finish_kind (by decide) _ _)
  · exact finds_pure (by simp)

theorem finds_steps (budget : Nat) (different : object.kind ≠ .string) :
    Finds (·.kind ≠ .string) (steps grammar true budget object) := by
  induction budget generalizing object with
  | zero => exact finds_pure different
  | succ budget ih =>
      refine finds_bind_of (finds_step object) fun found others => ?_
      cases found with
      | none => exact finds_pure different
      | some next => exact ih (others next rfl)

/-- Where a member, an index, a call or a template is, it is read. -/
theorem findsAt_step (follows : goesOn cursor = true) (object : Sketch) :
    FindsAt cursor (· ≠ none) (step grammar true object) := by
  have found : ∀ {reader : Reader Sketch}, Finds (· ≠ none)
      (reader >>= fun next => pure (some next)) :=
    fun {_} => finds_bind fun _ => finds_pure (by simp)
  intro result last reads
  rintro rfl
  rw [step, run_get] at reads
  split at reads
  · exact finds_bind (fun _ => finds_bind fun _ => found) cursor _ _ reads rfl
  · split at reads
    · exact found cursor _ _ reads rfl
    · split at reads
      · exact finds_bind (fun _ => found) cursor _ _ reads rfl
      · split at reads
        · exact found cursor _ _ reads rfl
        · split at reads
          · exact finds_bind (fun _ => found) cursor _ _ reads rfl
          · simp_all [goesOn]

/-- An operand that is read with what follows is no string by itself. -/
theorem findsAt_steppedFrom (follows : goesOn cursor = true) (budget : Nat) (object : Sketch) :
    FindsAt cursor (·.kind ≠ .string) (steppedFrom grammar (budget + 1) object) := by
  refine findsAt_bind fun whole behind reads => ?_
  have different : whole.kind ≠ .string := by
    obtain ⟨found, next, takes, goesOn⟩ := exists_of_bind reads
    cases found with
    | none => exact absurd rfl (findsAt_step follows object _ _ takes)
    | some found =>
        exact finds_steps budget (finds_step object cursor _ _ takes found rfl) next _ _ goesOn
  refine finds_bind (fun _ => ?_) behind
  refine finds_ite (finds_bind fun _ => ?_) (finds_pure different)
  exact finds_bind_of (finds_finish_kind (by decide) _ _) fun _ others => finds_steps _ others

theorem finds_binaryFrom (least budget : Nat) (different : left.kind ≠ .string) :
    Finds (·.kind ≠ .string) (binaryFrom grammar least budget left) := by
  induction budget generalizing left with
  | zero => exact finds_pure different
  | succ budget ih =>
      refine finds_bind fun cursor => ?_
      split
      · exact finds_pure different
      · refine finds_ite (finds_pure different) (finds_bind fun _ => finds_bind fun _ => ?_)
        exact finds_bind_of (finds_finish_kind (by decide) _ _) fun _ others => ih others

theorem findsAt_binaryFrom {least strength : Nat} (stands : strength? cursor = some strength)
    (enough : least ≤ strength) (budget : Nat) (left : Sketch) :
    FindsAt cursor (·.kind ≠ .string) (binaryFrom grammar least (budget + 1) left) := by
  intro result last reads
  rw [binaryFrom, run_get, stands] at reads
  change (if _ then _ else _ : Reader Sketch) cursor = _ at reads
  rw [if_neg (by omega)] at reads
  obtain ⟨sign, first, -, reads⟩ := exists_of_bind reads
  obtain ⟨right, second, -, reads⟩ := exists_of_bind reads
  obtain ⟨whole, third, finishes, reads⟩ := exists_of_bind reads
  exact finds_binaryFrom _ _ (finds_finish_kind (by decide) _ _ _ _ _ finishes) _ _ _ reads

/-- The signs that stand between operands with their operators. -/
def tailSigns : List (List Char) :=
  "?".toList :: "=".toList :: ",".toList :: augmentedSigns

/-- What binds tighter is none of the signs behind operands with their operators. -/
theorem BindsTighter.not_mem_tailSigns {strength : Nat} (tighter : BindsTighter strength cursor)
    {chars : List Char} (stands : cursor.lexeme = .sign chars) : chars ∉ tailSigns := by
  rcases tighter with follows | ⟨next, stronger, -⟩
  · have apart : ∀ text ∈ [".", "[", "\x60", "?.", "("], text.toList ∉ tailSigns := by decide
    obtain ⟨text, among, isSign⟩ := List.any_eq_true.mp follows
    rw [lexeme_of_isSign isSign] at stands
    cases stands
    exact apart text among
  · have apart : ∀ sign ∈ binarySigns, sign.1 ∉ tailSigns := by decide
    rw [strength?, stands] at stronger
    obtain ⟨before, after, same, -⟩ := List.lookup_eq_some_iff.mp stronger
    exact apart (chars, next) (by simp [same])

/-- Operands with their operators end where none of the signs behind them stands. -/
theorem tail_eq_self (ends : ∀ chars, cursor.lexeme = .sign chars → chars ∉ tailSigns)
    (slot : Slot) (whole : Sketch) : slot.tail grammar whole cursor = .ok whole cursor := by
  have noSign : ∀ text : String, text.toList ∈ tailSigns → cursor.isSign text = false :=
    fun text among => Bool.eq_false_iff.mpr fun isSign => ends _ (lexeme_of_isSign isSign) among
  have choice : chosenFrom grammar whole cursor = .ok whole cursor := by
    rw [chosenFrom, optionalSign, bind_assoc, run_atSign, noSign "?" (by decide)]
    rfl
  have assigned : assignedFrom grammar whole cursor = .ok whole cursor := by
    rw [assignedFrom, run_get, noSign "=" (by decide), if_neg Bool.false_ne_true]
    cases lexeme : cursor.lexeme with
    | sign chars =>
        have other : augmentedSigns.contains chars = false := by
          rw [Bool.eq_false_iff, Ne, List.contains_iff_mem]
          exact fun among => ends chars lexeme (by simp [tailSigns, among])
        dsimp only
        rw [other]
        rfl
    | word _ | number | string | privateName | stray | finish => rfl
  have listed : listedFrom grammar whole cursor = .ok whole cursor := by
    rw [listedFrom, run_bind (many_eq_nil ?_ grammar.budget)]
    · rfl
    · rw [optionalSign, bind_assoc, run_atSign, noSign "," (by decide)]
      rfl
  cases slot with
  | unary | binary _ => rfl
  | assignment => rw [Slot.tail, run_bind choice, assigned]
  | expression => rw [Slot.tail, bind_assoc, run_bind choice, run_bind assigned, listed]

/-- The sketch is the one that was at hand, or no operator between two operands. -/
def IsMade (left found : Sketch) : Prop :=
  found = left ∨ found.kind ≠ .binaryExpression

theorem finds_isMade_finish {kind : Kind} (other : kind ≠ .binaryExpression) (start : Nat)
    (children : List Sketch) : Finds (IsMade left) (finish kind start children) :=
  fun _ _ _ finishes => .inr (finds_finish_kind other _ _ _ _ _ finishes)

theorem finds_isMade_bind {first : Reader Sketch} {next : Sketch → Reader Sketch}
    (makes : Finds (IsMade left) first)
    (makesNext : ∀ middle, Finds (IsMade middle) (next middle)) :
    Finds (IsMade left) (first >>= next) := by
  refine finds_bind_of makes fun middle made cursor found behind reads => ?_
  rcases makesNext middle cursor found behind reads with rfl | different
  · exact made
  · exact .inr different

theorem finds_chosenFrom (left : Sketch) : Finds (IsMade left) (chosenFrom grammar left) :=
  finds_bind fun _ => finds_ite (finds_bind fun _ => finds_bind fun _ => finds_bind fun _ =>
    finds_isMade_finish (by decide) _ _) (finds_pure (.inl rfl))

theorem finds_assignedFrom (left : Sketch) : Finds (IsMade left) (assignedFrom grammar left) := by
  refine finds_bind fun cursor => finds_ite ?_ ?_
  · exact finds_bind fun _ => finds_bind fun _ => finds_isMade_finish (by decide) _ _
  · split
    · refine finds_ite ?_ (finds_pure (.inl rfl))
      exact finds_bind fun _ => finds_bind fun _ => finds_isMade_finish (by decide) _ _
    · exact finds_pure (.inl rfl)

theorem finds_listedFrom (left : Sketch) : Finds (IsMade left) (listedFrom grammar left) :=
  finds_bind fun _ => finds_ite (finds_pure (.inl rfl)) (finds_isMade_finish (by decide) _ _)

/-- What stands behind operands with their operators makes no operator between two operands. -/
theorem finds_tail (slot : Slot) (left : Sketch) :
    Finds (IsMade left) (slot.tail grammar left) := by
  have assigned : Finds (IsMade left) (chosenFrom grammar left >>= assignedFrom grammar) :=
    finds_isMade_bind (finds_chosenFrom left) finds_assignedFrom
  cases slot with
  | unary | binary _ => exact finds_pure (.inl rfl)
  | assignment => exact assigned
  | expression => exact finds_isMade_bind assigned finds_listedFrom

section Signs

variable {chars : List Char} (stands : cursor.lexeme = .sign chars)

include stands

theorem goesOn_of_sign : goesOn cursor = [".", "[", "\x60", "?.", "("].any (chars == ·.toList) :=
  congrArg (List.any _) (funext (isSign_eq stands))

theorem stepsUp_eq_false_of_sign (other : chars ≠ "++".toList ∧ chars ≠ "--".toList) :
    stepsUp cursor = false := by
  rw [stepsUp, isSign_eq stands, isSign_eq stands, beq_false_of_ne other.1, beq_false_of_ne other.2]
  exact Bool.and_false _

theorem bindsTighter_iff_of_sign (strength : Nat) : BindsTighter strength cursor ↔
    [".", "[", "\x60", "?.", "("].any (chars == ·.toList) = true ∨
      (binarySigns.lookup chars).any (strength < ·) = true := by
  rw [BindsTighter, goesOn_of_sign stands, strength?, stands, Option.any_eq_true]
  simp only [decide_eq_true_eq]

end Signs

/-- Nothing goes on with operands and operators before a sign that is none of theirs. -/
theorem finish_eq_self (noOperator : strength? cursor = none)
    (ends : ∀ chars, cursor.lexeme = .sign chars → chars ∉ tailSigns) (slot : Slot)
    (operators : Nat) (whole : Sketch) :
    slot.finish grammar operators whole cursor = .ok whole cursor := by
  have left : slot.operatorsFrom grammar operators whole cursor = .ok whole cursor := by
    rw [Slot.operatorsFrom]
    cases slot.least? with
    | none => rfl
    | some least =>
        refine binaryFrom_eq_self (fun strength stands => ?_) operators whole
        rw [noOperator] at stands
        cases stands
  rw [Slot.finish, run_bind left, tail_eq_self ends]

/-- An operand is read up to where nothing goes on with it. -/
theorem ReadsOperand.reads {reader : Reader Sketch} {text rest : List Char} (slot : Slot)
    (operand : ReadsOperand grammar reader text rest)
    (enough : (text ++ rest).length ≤ grammar.budget)
    (ends : ∀ behind : Cursor, behind.At rest → goesOn behind = false ∧ stepsUp behind = false ∧
      ∀ operators whole, slot.finish grammar operators whole behind = .ok whole behind) :
    Reads (slot.reader grammar) text rest := by
  intro cursor stands
  obtain ⟨whole, behind, -, standsBehind, isOperand⟩ := operand cursor stands
  obtain ⟨follows, noStep, nothing⟩ := ends behind standsBehind
  rw [← stands.behind] at enough
  obtain ⟨budget, operators, -, -, same⟩ := (isOperand.readsAs slot).reader_eq enough
  rw [Slot.goOn, run_bind (steppedFrom_eq_self follows noStep budget whole), nothing] at same
  exact ⟨whole, behind, same, standsBehind⟩

/-- A name is the last argument of a call before the closing parenthesis. -/
theorem isElement_name {name : String} {text rest : List Char}
    (ordinary : name.toList ∉ specialWords)
    (isWord : IsLexeme (.word name.toList) name.toList text (')' :: rest))
    (below : grammar.assignment = assignmentOf inner)
    (enough : (text ++ ')' :: rest).length ≤ inner.budget) :
    IsElement grammar text (')' :: rest) := by
  have isClosing : (readLexeme (gapOf (')' :: rest)).rest).1 = .sign ")".toList := rfl
  have reads : Reads (assignmentOf inner) text (')' :: rest) := by
    have isOperand : ReadsOperand inner (leafOf .identifier (.word name.toList)) text
        (')' :: rest) := readsOperand_name ordinary isWord (by rw [isClosing]; decide)
    refine isOperand.reads .assignment enough fun behind stands => ?_
    have lexeme : behind.lexeme = .sign ")".toList := stands.lexeme.trans isClosing
    have noOperator : strength? behind = none := by
      rw [strength?, lexeme]
      exact (by decide : binarySigns.lookup ")".toList = none)
    refine ⟨by rw [goesOn_of_sign lexeme]; decide, stepsUp_eq_false_of_sign lexeme (by decide),
      finish_eq_self noOperator (fun chars stands => ?_) .assignment⟩
    rw [lexeme] at stands
    cases stands
    decide
  refine ⟨fun cursor stands => ?_, fun sign _ => ?_⟩
  · rw [listItem, run_get, optionalSign, bind_assoc, run_atSign,
      isSign_eq_false (stands.single isWord).1, if_neg Bool.false_ne_true, below]
    exact reads cursor stands
  · rw [isWord.gap, isWord.reads]
    exact Lexeme.noConfusion

end Tighter

/-! ## Tests of types -/

/-- The parts of a test of a type. -/
structure TypeTest (grammar : Grammar) (cursor : Cursor) (whole : Sketch) (behind : Cursor)
    (left comparison right : Sketch) (atComparison atName last : Cursor) : Prop where
  noYield : cursor.isWord "yield" = false
  readsLeft : ∀ budget, unaryWith grammar budget cursor = .ok left atComparison
  isUnary : left.kind = .unaryExpression
  isComparison : atComparison.lexeme = .sign "===".toList
  readsComparison : leaf .operator atComparison = .ok comparison atName
  isName : atName.lexeme = .string
  readsName : leaf .string atName = .ok right last
  finishes : Reader.finish .binaryExpression left.start
    [left.as .left, comparison.as .operator, right.as .right] last = .ok whole behind

section TypeTest

variable {grammar inner : Grammar} {cursor behind atComparison atName last : Cursor}
  {whole left comparison right : Sketch} {slot : Slot}

theorem exists_typeTest (reads : typeTest grammar cursor = .ok whole behind) :
    ∃ left comparison right atComparison atName last,
      TypeTest grammar cursor whole behind left comparison right atComparison atName last := by
  rw [typeTest, run_get] at reads
  obtain ⟨operator, second, readsOperator, reads⟩ := exists_of_bind reads
  obtain ⟨argument, third, readsArgument, reads⟩ := exists_of_bind reads
  obtain ⟨left, atComparison, finishesLeft, reads⟩ := exists_of_bind reads
  obtain ⟨comparison, atName, readsSign, reads⟩ := exists_of_bind reads
  obtain ⟨right, last, readsString, finishes⟩ := exists_of_bind reads
  obtain ⟨lexeme, takes⟩ := lexeme_of_leafOf readsOperator
  obtain ⟨isComparison, readsComparison⟩ := lexeme_of_leafOf readsSign
  obtain ⟨isName, readsName⟩ := lexeme_of_leafOf readsString
  have isPrefix : isPrefixSign cursor = true := by
    simp [isPrefixSign, isSign_eq_false lexeme, isWord_eq lexeme]
  have noYield : cursor.isWord "yield" = false := by
    rw [isWord_eq lexeme]
    decide
  have readsLeft : ∀ budget, unaryWith grammar budget cursor = .ok left atComparison := by
    intro budget
    rw [unaryWith, run_get, if_pos isPrefix, run_bind takes, run_bind readsArgument]
    exact finishesLeft
  cases finishesLeft
  exact ⟨_, comparison, right, _, atName, last,
    { noYield, readsLeft, isUnary := rfl, isComparison, readsComparison, isName, readsName,
      finishes }⟩

theorem strength_comparison (stands : cursor.lexeme = .sign "===".toList) :
    strength? cursor = some 7 := by
  rw [strength?, stands]
  exact (by decide : binarySigns.lookup "===".toList = some 7)

/-- The name of a type is an operand. -/
theorem unaryWith_string (isString : cursor.lexeme = .string)
    (reads : leaf .string cursor = .ok right behind) (budget : Nat) :
    unaryWith grammar budget cursor = steppedFrom grammar budget right behind := by
  have noSign : ∀ text, cursor.isSign text = false := fun text => by rw [Cursor.isSign, isString]
  have noWord : ∀ text, cursor.isWord text = false := fun text => by rw [Cursor.isWord, isString]
  have noAwait : awaits cursor = .ok false cursor := by
    rw [awaits, run_atWord, noWord, if_neg Bool.false_ne_true]
    rfl
  have noPrefix : isPrefixSign cursor = false := by simp [isPrefixSign, noSign, noWord]
  have first : firstOperand grammar cursor = .ok right behind := by
    rw [firstOperand, run_atWord, noWord, if_neg Bool.false_ne_true, operand, run_get, isString]
    exact reads
  rw [unaryWith_eq noPrefix (by rw [noSign, noSign]; rfl) noAwait, run_bind first]

/-- What operators make of their operand has the operand at its left end. -/
theorem finds_binaryFrom_left (least budget : Nat) (isBinary : left.kind = .binaryExpression) :
    Finds (fun found => found = left ∨
      found.children.head?.map (·.kind) = some .binaryExpression)
      (binaryFrom grammar least budget left) := by
  induction budget generalizing left with
  | zero => exact finds_pure (.inl rfl)
  | succ budget ih =>
      refine finds_bind fun cursor => ?_
      split
      · exact finds_pure (.inl rfl)
      · refine finds_ite (finds_pure (.inl rfl)) ?_
        intro first found behind reads
        obtain ⟨sign, second, -, reads⟩ := exists_of_bind reads
        obtain ⟨right, third, -, reads⟩ := exists_of_bind reads
        obtain ⟨whole, fourth, finishes, reads⟩ := exists_of_bind reads
        cases finishes
        refine .inr ?_
        rcases ih rfl _ _ _ reads with rfl | nested
        · exact congrArg some isBinary
        · exact nested

section Test

variable
  (test : TypeTest grammar cursor whole behind left comparison right atComparison atName last)

include test

theorem TypeTest.follows_eq : goesOn last = goesOn behind ∧ stepsUp last = stepsUp behind ∧
    strength? last = strength? behind := by
  obtain ⟨-, -, -, -, -, -, -, finishes⟩ := test
  cases finishes
  exact ⟨rfl, rfl, rfl⟩

theorem TypeTest.whole_eq : whole.kind = .binaryExpression ∧
    whole.children = [left.as .left, comparison.as .operator, right.as .right] := by
  obtain ⟨-, -, -, -, -, -, -, finishes⟩ := test
  cases finishes
  exact ⟨rfl, rfl⟩

theorem TypeTest.read_eq (budget operators : Nat) (slot : Slot) :
    slot.read grammar budget operators cursor =
      slot.finish grammar operators left atComparison := by
  rw [Slot.read_eq test.noYield, run_bind (test.readsLeft budget)]

theorem TypeTest.binaryFrom_eq {least : Nat} (takes : least ≤ 7) (operators : Nat) :
    binaryFrom grammar least (operators + 1) left atComparison = (do
      let right ← grammar.binary 8
      let whole ← Reader.finish .binaryExpression left.start
        [left.as .left, comparison.as .operator, right.as .right]
      binaryFrom grammar least operators whole) atName := by
  rw [binaryFrom, run_get, strength_comparison test.isComparison]
  change (if _ then _ else _ : Reader Sketch) atComparison = _
  rw [if_neg (by omega), run_bind test.readsComparison]
  rfl

theorem TypeTest.binaryFrom_of_lt {least : Nat} (weaker : 7 < least) (operators : Nat) :
    binaryFrom grammar least operators left atComparison = .ok left atComparison := by
  refine binaryFrom_eq_self (fun strength stands => ?_) operators left
  rw [strength_comparison test.isComparison] at stands
  cases stands
  exact weaker

/-- If what follows binds tighter, the name of the type is not all of the right operand. -/
theorem TypeTest.findsAt_right {budget : Nat}
    (below : ∀ least, grammar.binary least = binaryOf inner least)
    (enough : inner.budget = budget + 1) (noStep : stepsUp behind = false)
    (tighter : BindsTighter 7 behind) : FindsAt atName (·.kind ≠ .string) (grammar.binary 8) := by
  obtain ⟨sameSteps, sameSign, sameStrength⟩ := test.follows_eq
  rw [below, binaryOf, ← unaryWith_budget]
  refine findsAt_bind fun operand next reads => ?_
  rw [unaryWith_string test.isName test.readsName] at reads
  by_cases follows : goesOn behind = true
  · rw [enough] at reads
    have different := findsAt_steppedFrom (sameSteps.trans follows) budget right _ _ reads
    exact finds_binaryFrom _ _ different next
  · rcases tighter with stands | ⟨strength, stands, weaker⟩
    · exact absurd stands follows
    · rw [Bool.not_eq_true, ← sameSteps] at follows
      rw [steppedFrom_eq_self follows (sameSign.trans noStep)] at reads
      cases reads
      rw [enough]
      exact findsAt_binaryFrom (sameStrength.trans stands) (by omega) budget right

/-- If nothing that follows binds tighter, the right operand is the name of the type. -/
theorem TypeTest.right_eq (below : ∀ least, grammar.binary least = binaryOf inner least)
    (noStep : stepsUp behind = false) (notTighter : ¬ BindsTighter 7 behind) :
    grammar.binary 8 atName = .ok right last := by
  obtain ⟨sameSteps, sameSign, sameStrength⟩ := test.follows_eq
  rw [BindsTighter, not_or, Bool.not_eq_true, ← sameSteps] at notTighter
  have ends : ∀ strength, strength? last = some strength → strength < 8 := fun strength stands =>
    Nat.lt_of_not_le fun weaker => notTighter.2 ⟨strength, sameStrength ▸ stands, weaker⟩
  rw [below, binaryOf, ← unaryWith_budget]
  have operand : unaryWith inner inner.budget atName = steppedFrom inner inner.budget right last :=
    unaryWith_string test.isName test.readsName inner.budget
  rw [steppedFrom_eq_self notTighter.1 (sameSign.trans noStep)] at operand
  rw [run_bind operand]
  exact binaryFrom_eq_self ends _ right

theorem TypeTest.left_ne : left ≠ whole := by
  intro same
  have isUnary := test.isUnary
  rw [same, test.whole_eq.1] at isUnary
  cases isUnary

/-- If what follows binds tighter, no operators make the test as it is meant. -/
theorem TypeTest.binaryFrom_ne {budget : Nat}
    (below : ∀ least, grammar.binary least = binaryOf inner least)
    (enough : inner.budget = budget + 1) (noStep : stepsUp behind = false)
    (tighter : BindsTighter 7 behind) (least operators : Nat) (next : Cursor) :
    binaryFrom grammar least operators left atComparison ≠ .ok whole next := by
  intro reads
  by_cases takes : least ≤ 7
  · cases operators with
    | zero =>
        cases reads
        exact test.left_ne rfl
    | succ operators =>
        rw [test.binaryFrom_eq takes] at reads
        obtain ⟨other, second, readsRight, reads⟩ := exists_of_bind reads
        obtain ⟨found, third, finishes, reads⟩ := exists_of_bind reads
        cases finishes
        have different := test.findsAt_right below enough noStep tighter _ _ readsRight
        have isName : right.kind = .string := by
          have takesName := test.readsName
          cases takesName
          rfl
        rcases finds_binaryFrom_left least operators rfl _ _ _ reads with same | nested
        · have parts := test.whole_eq.2
          rw [same] at parts
          have names := (List.cons.inj (List.cons.inj (List.cons.inj parts).2).2).1
          have kinds : other.kind = right.kind := congrArg (·.kind) names
          exact different (kinds.trans isName)
        · rw [test.whole_eq.2] at nested
          cases test.isUnary.symm.trans (Option.some.inj nested)
  · rw [test.binaryFrom_of_lt (by omega)] at reads
    cases reads
    exact test.left_ne rfl

/-- Where a slot goes on behind the first operand of the test as behind the whole test, it reads
comparisons, and nothing that follows binds tighter. -/
theorem TypeTest.takes_of_finish {budget operators : Nat}
    (below : ∀ least, grammar.binary least = binaryOf inner least)
    (enough : inner.budget = budget + 1) (noStep : stepsUp behind = false)
    (same : slot.finish grammar operators left atComparison = slot.tail grammar whole behind) :
    slot.Takes 7 ∧ ¬ BindsTighter 7 behind := by
  constructor
  · cases slot with
    | unary =>
        cases same
        exact absurd rfl test.left_ne
    | binary least =>
        by_cases takes : least ≤ 7
        · exact ⟨least, rfl, takes⟩
        · have weaker := test.binaryFrom_of_lt (Nat.lt_of_not_le takes) operators
          change (binaryFrom grammar least operators left >>= pure) atComparison = _ at same
          rw [run_bind weaker] at same
          cases same
          exact absurd rfl test.left_ne
    | assignment | expression => exact ⟨0, rfl, Nat.zero_le 7⟩
  · intro tighter
    rw [tail_eq_self fun _ => tighter.not_mem_tailSigns] at same
    obtain ⟨found, next, readsOperators, readsTail⟩ := exists_of_bind same
    rcases finds_tail slot found next _ _ readsTail with rfl | different
    · cases slot with
      | unary =>
          cases readsOperators
          exact test.left_ne rfl
      | binary _ | assignment | expression =>
          exact test.binaryFrom_ne below enough noStep tighter _ _ _ readsOperators
    · exact different test.whole_eq.1

end Test

/-- A test of a type is read as one operand where comparisons are read, if nothing follows that
binds tighter; elsewhere it is not. -/
theorem typeTest_readsAs_iff {budget : Nat}
    (below : ∀ least, grammar.binary least = binaryOf inner least)
    (enough : inner.budget = budget + 1) (reads : typeTest grammar cursor = .ok whole behind)
    (noStep : stepsUp behind = false) (shorter : behind.behind.length < cursor.behind.length) :
    slot.ReadsAs grammar cursor whole behind ↔ slot.Takes 7 ∧ ¬ BindsTighter 7 behind := by
  obtain ⟨left, comparison, right, atComparison, atName, last, test⟩ := exists_typeTest reads
  constructor
  · rintro ⟨taken, passed, -, same⟩
    have reads := same 0 0
    rw [test.read_eq, goOn_zero noStep slot whole] at reads
    exact test.takes_of_finish below enough noStep reads
  · rintro ⟨⟨least, reading, takes⟩, notTighter⟩
    refine ⟨0, 1, by omega, fun budget operators => ?_⟩
    have follows : goesOn behind = false :=
      Bool.not_eq_true _ ▸ fun follows => notTighter (.inl follows)
    have operatorsFrom (operators : Nat) :
        slot.operatorsFrom grammar operators = binaryFrom grammar least operators := by
      funext left
      rw [Slot.operatorsFrom, reading]
    have same : binaryFrom grammar least (operators + 1) left atComparison =
        binaryFrom grammar least operators whole behind := by
      rw [test.binaryFrom_eq takes, run_bind (test.right_eq below noStep notTighter),
        run_bind test.finishes]
    rw [test.read_eq, Slot.goOn, run_bind (steppedFrom_eq_self follows noStep budget whole),
      Slot.finish, Slot.finish, operatorsFrom, operatorsFrom]
    exact run_bind_congr same

end TypeTest

/-- A test of a type is read as such if its operand is. -/
theorem reads_typeTest {operand rest : List Char}
    (reads : Reads grammar.unary (' ' :: operand) (" === 'function'".toList ++ rest)) :
    Reads (typeTest grammar) ("typeof".toList ++ (' ' :: operand ++ " === 'function'".toList))
      rest := by
  intro cursor stands
  rw [typeTest, run_get]
  have isComparison : IsLexeme (.sign "===".toList) "===".toList " ===".toList
      (" 'function'".toList ++ rest) := ⟨rfl, rfl⟩
  have isName : IsLexeme .string "'function'".toList " 'function'".toList rest := ⟨rfl, rfl⟩
  refine (?_ : Reads _ ("typeof".toList ++ (' ' :: operand ++ ([] ++ (" ===".toList ++
    " 'function'".toList)))) rest) cursor stands
  have isWord (later : List Char) :
      IsLexeme (.word "typeof".toList) "typeof".toList "typeof".toList (' ' :: later) := ⟨rfl, rfl⟩
  refine Reads.bind (reads_leafOf (isWord _)) fun operator => ?_
  refine Reads.bind reads fun inner => Reads.bind (reads_finish _ _ _ _) fun left => ?_
  exact Reads.bind (reads_leafOf isComparison) fun _ =>
    (reads_leafOf isName).bind_nil fun _ => reads_finish _ _ _ _

end Grammar
end Script
end Hookify
