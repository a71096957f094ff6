import Hookify.Proofs.Script.Readers

namespace Hookify
namespace Script

open Std.Do Reader

set_option mvcgen.warning false

/-!
# Scripts have regular trees

Each rule of the grammar keeps what the readers of its parts keep, so that the
whole grammar does, level by level.  Calls and members are put together in a
few rules only; in all others it is enough that the kind of node belongs to no
chain.
-/

/-- The readers of a grammar find regular nodes. -/
structure Grammar.Regular (grammar : Grammar) : Prop where
  expression : Keeps Sketch.Regular grammar.expression
  assignment : Keeps Sketch.Regular grammar.assignment
  unary : Keeps Sketch.Regular grammar.unary
  binary : ∀ least, Keeps Sketch.Regular (grammar.binary least)
  element : Keeps Sketch.Regular grammar.element
  statement : Keeps Sketch.Regular grammar.statement
  statements : Keeps AllRegular grammar.statements

attribute [spec] Grammar.Regular.expression Grammar.Regular.assignment Grammar.Regular.unary
  Grammar.Regular.binary Grammar.Regular.element Grammar.Regular.statement
  Grammar.Regular.statements

attribute [grind] Kind.IsFree Sketch.part
attribute [grind cases] Sketch.IsNode
attribute [grind =] List.mem_flatten

namespace Grammar

variable {grammar : Grammar}

theorem regular_empty (budget : Nat) : (empty budget).Regular where
  expression := keeps_fail _
  assignment := keeps_fail _
  unary := keeps_fail _
  binary := fun _ => keeps_fail _
  element := keeps_fail _
  statement := keeps_fail _
  statements := keeps_fail _

/-! ## Lists, templates and functions -/

@[spec]
theorem keeps_commaItems (closing : String) {item : Reader Sketch}
    (keeps : Keeps Sketch.Regular item) :
    Keeps AllRegular (commaItems grammar closing item) := by
  mvcgen [commaItems, keeps] with grind

@[spec]
theorem keeps_substitution (regular : grammar.Regular) :
    Keeps Sketch.Regular (substitution grammar) := by
  mvcgen [substitution] with grind

@[spec]
theorem keeps_template (regular : grammar.Regular) :
    Keeps (Sketch.IsNode .templateString) (template grammar) := by
  mvcgen [template] with grind

@[spec]
theorem keeps_closingBrace (mayLack : Bool) : KeepsCursor (closingBrace mayLack) := by
  mvcgen [closingBrace] with grind

@[spec]
theorem keeps_block (regular : grammar.Regular) (afterExpression : Bool) :
    Keeps Sketch.Regular (block grammar afterExpression) := by
  mvcgen [block] with grind

@[spec]
theorem keeps_target (regular : grammar.Regular) : Keeps Sketch.Regular (target grammar) := by
  mvcgen [target] with grind [Sketch.Regular.toPattern]

@[spec]
theorem keeps_targetWithDefault (regular : grammar.Regular) :
    Keeps Sketch.Regular (targetWithDefault grammar) := by
  mvcgen [targetWithDefault] with grind

@[spec]
theorem keeps_parameter (regular : grammar.Regular) : Keeps Sketch.Regular (parameter grammar) := by
  mvcgen [parameter] with grind

@[spec]
theorem keeps_parameters (regular : grammar.Regular) :
    Keeps Sketch.Regular (parameters grammar) := by
  mvcgen [parameters] with grind

@[spec]
theorem keeps_function (regular : grammar.Regular) (isDeclaration : Bool) :
    Keeps Sketch.Regular (function grammar isDeclaration) := by
  mvcgen [function] with grind

@[spec]
theorem keeps_arrow (regular : grammar.Regular) (start : Nat) {before : List Sketch}
    (parts : AllRegular before) : Keeps Sketch.Regular (arrow grammar start before) := by
  mvcgen [arrow] with grind

/-! ## Objects and classes -/

@[spec]
theorem keeps_computedKey (regular : grammar.Regular) :
    Keeps Sketch.Regular (computedKey grammar) := by
  mvcgen [computedKey] with grind

@[spec]
theorem keeps_memberKey (regular : grammar.Regular) : Keeps Sketch.Regular (memberKey grammar) := by
  mvcgen [memberKey] with grind

@[spec]
theorem keeps_isModifier (text : String) : KeepsCursor (isModifier text) := by
  mvcgen [isModifier] with grind

@[spec]
theorem keeps_modifiers : Keeps AllRegular modifiers := by
  mvcgen [modifiers] with grind

@[spec]
theorem keeps_method (regular : grammar.Regular) (start : Nat) {before : List Sketch}
    {key : Sketch} (parts : AllRegular before) (isRegular : key.Regular) :
    Keeps Sketch.Regular (method grammar start before key) := by
  mvcgen [method] with grind

@[spec]
theorem keeps_shorthand (regular : grammar.Regular) {key : Sketch} (isRegular : key.Regular) :
    Keeps Sketch.Regular (shorthand grammar key) := by
  mvcgen [shorthand] with grind

@[spec]
theorem keeps_objectMember (regular : grammar.Regular) :
    Keeps Sketch.Regular (objectMember grammar) := by
  mvcgen [objectMember] with grind

@[spec]
theorem keeps_object (regular : grammar.Regular) : Keeps Sketch.Regular (object grammar) := by
  mvcgen [object] with grind

@[spec]
theorem keeps_listItem (regular : grammar.Regular) : Keeps Sketch.Regular (listItem grammar) := by
  mvcgen [listItem] with grind

@[spec]
theorem keeps_array (regular : grammar.Regular) : Keeps Sketch.Regular (array grammar) := by
  mvcgen [array] with grind

@[spec]
theorem keeps_decorators (regular : grammar.Regular) : Keeps AllRegular (decorators grammar) := by
  mvcgen [decorators] with grind

@[spec]
theorem keeps_classMember (regular : grammar.Regular) : Keeps AllRegular (classMember grammar) := by
  mvcgen [classMember] with grind

@[spec]
theorem keeps_classBody (regular : grammar.Regular) : Keeps Sketch.Regular (classBody grammar) := by
  mvcgen [classBody] with grind

@[spec]
theorem keeps_classOf (regular : grammar.Regular) (isDeclaration : Bool) :
    Keeps Sketch.Regular (classOf grammar isDeclaration) := by
  mvcgen [classOf] with grind

/-! ## Markup -/

@[spec]
theorem keeps_markupWord (kind : Kind) :
    Keeps (Sketch.IsNode kind) (markupWord kind) := by
  mvcgen [markupWord] with grind

@[spec]
theorem keeps_markupName (kind : Kind) :
    Keeps Sketch.Regular (markupName kind) := by
  mvcgen [markupName] with grind

/-- A name with dots is a member of the name before the last dot. -/
theorem regular_foldl_member {properties : List Sketch} :
    ∀ {object : Sketch}, object.Regular → AllRegular properties →
      (properties.foldl (fun object property =>
        ⟨.memberExpression, none, object.start, property.stop,
          [object.as .object, property.as .property]⟩) object).Regular := by
  induction properties with
  | nil => exact fun isRegular _ => isRegular
  | cons property rest ih =>
      intro object isRegular parts
      refine ih (.node (Fits.member object property) (.of_ne (by decide) _ _) ?_)
        fun other member => parts other (List.mem_cons_of_mem property member)
      have := parts property List.mem_cons_self
      grind

@[spec]
theorem keeps_elementName : Keeps Sketch.Regular (elementName grammar) := by
  mvcgen [elementName] with grind [regular_foldl_member]

@[spec]
theorem keeps_embedded (regular : grammar.Regular) : Keeps Sketch.Regular (embedded grammar) := by
  mvcgen [embedded] with grind

@[spec]
theorem keeps_attributeValue (regular : grammar.Regular) :
    Keeps Sketch.Regular (attributeValue grammar) := by
  mvcgen [attributeValue] with grind

@[spec]
theorem keeps_markupAttribute (regular : grammar.Regular) :
    Keeps Sketch.Regular (markupAttribute grammar) := by
  mvcgen [markupAttribute] with grind

@[spec]
theorem keeps_markupText (behind : List Char) : Keeps AllRegular (markupText behind) := by
  mvcgen [markupText] with grind

@[spec]
theorem keeps_markupChildren (regular : grammar.Regular) :
    Keeps AllRegular (markupChildren grammar) := by
  mvcgen [markupChildren] with grind

@[spec]
theorem keeps_tagEnd : KeepsCursor tagEnd := by
  mvcgen [tagEnd] with grind

@[spec]
theorem keeps_markup (regular : grammar.Regular) : Keeps Sketch.Regular (markup grammar) := by
  mvcgen [markup] with grind

/-! ## Operands -/

@[spec]
theorem keeps_parenthesized (regular : grammar.Regular) :
    Keeps Sketch.Regular (parenthesized grammar) := by
  mvcgen [parenthesized] with grind [Sketch.Regular.node]

@[spec]
theorem keeps_arguments (regular : grammar.Regular) :
    Keeps (Sketch.IsNode .arguments) (arguments grammar) := by
  mvcgen [arguments] with grind

@[spec]
theorem keeps_asyncOperand (regular : grammar.Regular) :
    Keeps Sketch.Regular (asyncOperand grammar) := by
  mvcgen [asyncOperand] with grind

@[spec]
theorem keeps_nameOperand (regular : grammar.Regular) :
    Keeps Sketch.Regular (nameOperand grammar) := by
  mvcgen [nameOperand] with grind

@[spec]
theorem keeps_importOperand : Keeps Sketch.Regular importOperand := by
  mvcgen [importOperand] with grind

@[spec]
theorem keeps_regex : Keeps Sketch.Regular regex := by
  mvcgen [regex] with grind

@[spec]
theorem keeps_signOperand (regular : grammar.Regular) :
    Keeps Sketch.Regular (signOperand grammar) := by
  mvcgen [signOperand] with grind

@[spec]
theorem keeps_wordOperand (regular : grammar.Regular) :
    Keeps Sketch.Regular (wordOperand grammar) :=
  keeps_get fun _ _ =>
    keeps_ite (keeps_function regular false) <|
    keeps_ite (keeps_asyncOperand regular) <|
    keeps_ite (keeps_classOf regular false) <|
    keeps_ite (keeps_node (keeps_leaf _)) <|
    keeps_ite (keeps_node (keeps_leaf _)) <|
    keeps_ite (keeps_node (keeps_leaf _)) <|
    keeps_ite (keeps_node (keeps_leaf _)) <|
    keeps_ite (keeps_node (keeps_leaf _)) <|
    keeps_ite keeps_importOperand (keeps_nameOperand regular)

@[spec]
theorem keeps_operand (regular : grammar.Regular) : Keeps Sketch.Regular (operand grammar) := by
  mvcgen [operand] with grind

/-! ## Members and calls -/

@[spec]
theorem keeps_propertyName : Keeps Sketch.Regular propertyName := by
  mvcgen [propertyName] with grind

@[spec]
theorem keeps_subscript (regular : grammar.Regular) {object : Sketch}
    {chain : List Sketch} (isRegular : object.Regular) (marks : AllRegular chain) :
    Keeps Sketch.Regular (subscript grammar object chain) := by
  mvcgen [subscript] with grind

@[spec]
theorem keeps_optionalStep (regular : grammar.Regular) {object : Sketch}
    (isRegular : object.Regular) :
    Keeps Sketch.Regular (optionalStep grammar object) := by
  mvcgen [optionalStep] with grind

@[spec]
theorem keeps_step (regular : grammar.Regular) (calls : Bool) {object : Sketch}
    (isRegular : object.Regular) :
    Keeps (fun found => ∀ next ∈ found, next.Regular) (step grammar calls object) := by
  mvcgen [step] with grind

@[spec]
theorem keeps_steps (regular : grammar.Regular) (calls : Bool) (budget : Nat) {object : Sketch}
    (isRegular : object.Regular) : Keeps Sketch.Regular (steps grammar calls budget object) := by
  induction budget generalizing object with
  | zero => mvcgen [steps]
  | succ budget ih => mvcgen [steps, ih] with grind

@[spec]
theorem keeps_newOperand (regular : grammar.Regular) (budget : Nat) :
    Keeps Sketch.Regular (newOperand grammar budget) := by
  induction budget with
  | zero => exact keeps_fail _
  | succ budget ih => mvcgen [newOperand, ih] with grind

@[spec]
theorem keeps_stepped (regular : grammar.Regular) : Keeps Sketch.Regular (stepped grammar) := by
  mvcgen [stepped] with grind

/-! ## Operators -/

@[spec]
theorem keeps_awaits : KeepsCursor awaits := by
  refine keeps_bind (keeps_atWord "await") fun _ _ => keeps_ite ?_ (keeps_pure trivial)
  refine keeps_bind keeps_following fun next _ => ?_
  split <;> exact keeps_pure trivial

@[spec]
theorem keeps_unaryOf (regular : grammar.Regular) : Keeps Sketch.Regular (unaryOf grammar) := by
  mvcgen [unaryOf] with grind

@[spec]
theorem keeps_binaryFrom (regular : grammar.Regular) (least budget : Nat) {left : Sketch}
    (isRegular : left.Regular) : Keeps Sketch.Regular (binaryFrom grammar least budget left) := by
  induction budget generalizing left with
  | zero => mvcgen [binaryFrom]
  | succ budget ih => mvcgen [binaryFrom, ih] with grind

@[spec]
theorem keeps_binaryOf (regular : grammar.Regular) (least : Nat) :
    Keeps Sketch.Regular (binaryOf grammar least) := by
  mvcgen [binaryOf] with grind

@[spec]
theorem keeps_ternaryOf (regular : grammar.Regular) : Keeps Sketch.Regular (ternaryOf grammar) := by
  mvcgen [ternaryOf] with grind

@[spec]
theorem keeps_yielded (regular : grammar.Regular) : Keeps Sketch.Regular (yielded grammar) := by
  mvcgen [yielded] with grind

@[spec]
theorem keeps_assignmentOf (regular : grammar.Regular) :
    Keeps Sketch.Regular (assignmentOf grammar) := by
  mvcgen [assignmentOf] with grind

@[spec]
theorem keeps_expressionOf (regular : grammar.Regular) :
    Keeps Sketch.Regular (expressionOf grammar) := by
  mvcgen [expressionOf] with grind

end Grammar
end Script
end Hookify
