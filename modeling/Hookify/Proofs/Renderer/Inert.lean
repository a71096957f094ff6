import Hookify.Proofs.Output.Comments
import Hookify.Proofs.Renderer.Arguments
import Hookify.Proofs.Renderer.Statements

namespace Hookify

open Script Selection

/-!
# Comments in the place of animations

A block comment ends at the first end mark behind its opening.  The comment that
takes the place of an animation has one at its end, but its label repeats the
selector and the arguments as the script has them, with blanks drawn together
and long arguments cut.  An end mark in one of these, in a string, a regular
expression or a comment between the members of an object, closes the comment
early, and the rest of the label is read as code.  Nothing else can: the name of
the method and what stands between the parts have no end mark, and none comes
about where they meet.
-/

namespace Script

/-! ## Where a comment ends -/

theorem skipBlock_cons {c : Char} {rest : List Char} (hasNewline : Bool)
    (open_ : ¬ (c = '*' ∧ rest.head? = some '/')) :
    skipBlock hasNewline (c :: rest) =
      skipBlock (hasNewline || c == '\n' || c.toNat == 0x2028 || c.toNat == 0x2029) rest := by
  rw [skipBlock]
  rintro others rfl rfl
  exact open_ ⟨rfl, rfl⟩

/-- A comment ends at the first end mark. -/
theorem skipBlock_append {body : List Char} (absent : ¬ ['*', '/'] <:+: body)
    (hasNewline : Bool) (rest : List Char) :
    (skipBlock hasNewline (body ++ '*' :: '/' :: rest)).map Prod.snd = some rest := by
  induction body generalizing hasNewline with
  | nil => rfl
  | cons c others ih =>
      rw [Output.pair_infix_cons_iff, not_or] at absent
      have unclosed : ¬ (c = '*' ∧ (others ++ '*' :: '/' :: rest).head? = some '/') := by
        rintro ⟨isStar, follows⟩
        cases others with
        | nil => exact absurd (Option.some.inj follows) (by decide)
        | cons next more => exact absent.1 ⟨isStar.symm, follows⟩
      rw [List.cons_append, skipBlock_cons hasNewline unclosed]
      exact ih absent.2 _

theorem exists_body_of_skipBlock {hasNewline : Bool} {chars rest : List Char}
    (closes : (skipBlock hasNewline chars).map Prod.snd = some rest) :
    ∃ body, chars = body ++ '*' :: '/' :: rest ∧ ¬ ['*', '/'] <:+: body := by
  induction chars generalizing hasNewline with
  | nil => cases closes
  | cons c others ih =>
      by_cases ends : c = '*' ∧ others.head? = some '/'
      · obtain ⟨rfl, follows⟩ := ends
        obtain ⟨more, rfl⟩ := List.head?_eq_some_iff.mp follows
        cases closes
        exact ⟨[], rfl, by decide⟩
      · rw [skipBlock_cons hasNewline ends] at closes
        obtain ⟨body, rfl, absent⟩ := ih closes
        refine ⟨c :: body, rfl, ?_⟩
        rw [Output.pair_infix_cons_iff, not_or]
        refine ⟨?_, absent⟩
        rintro ⟨isStar, follows⟩
        obtain ⟨more, rfl⟩ := List.head?_eq_some_iff.mp follows
        exact ends ⟨isStar.symm, rfl⟩

/-- What stands behind the block comment that a text begins with. -/
def behindComment? : List Char → Option (List Char)
  | '/' :: '*' :: rest => (skipBlock false rest).map Prod.snd
  | _ => none

theorem behindComment?_eq_iff {body tail : List Char} :
    behindComment? ('/' :: '*' :: (body ++ '*' :: '/' :: tail)) = some tail ↔
      ¬ ['*', '/'] <:+: body := by
  rw [behindComment?]
  constructor
  · intro closes
    obtain ⟨other, same, absent⟩ := exists_body_of_skipBlock closes
    rwa [List.append_cancel_right same]
  · exact fun absent => skipBlock_append absent false tail

end Script

namespace Animation

/-! ## The label in its comment -/

/-- The comment on an animation, behind its opening and before its end mark. -/
def inside (animation : Animation) : List Char :=
  ' ' :: (animation.label.toList ++ ": animation not translated, see conversion report ".toList)

theorem toList_comment_append (animation : Animation) (tail : List Char) :
    animation.comment.toList ++ tail =
      '/' :: '*' :: (animation.inside ++ '*' :: '/' :: tail) := by
  simp [comment, inside]

/-- The comment has no end mark inside exactly if the label has none. -/
theorem endMark_infix_inside_iff (animation : Animation) :
    ['*', '/'] <:+: animation.inside ↔ Text.occursIn "*/" animation.label = true := by
  have ending : ¬ ['*', '/'] <:+: " animation not translated, see conversion report ".toList := by
    decide
  rw [Text.occursIn_iff, inside]
  change _ <:+: [] ++ ' ' :: (_ ++ ':' :: " animation not translated, see conversion report ".toList)
    ↔ _
  rw [Output.pair_infix_append_iff (by decide) (by decide),
    Output.pair_infix_append_iff (by decide) (by decide), or_iff_left ending]
  exact or_iff_right (by decide)

/-- In a text that comments on an animation, perhaps behind a value that stands for it, the comment
is closed by nothing but its own end mark, however the code goes on, so that no part of it is read
as code. -/
def InertIn (animation : Animation) (text : String) : Prop :=
  ∃ lead ∈ ["", "void 0 "], ∃ tail, text = lead ++ animation.comment ++ tail ∧
    ∀ rest, behindComment? (animation.comment ++ (tail ++ rest)).toList = some (tail ++ rest).toList

theorem behindComment?_comment_iff (animation : Animation) (tail : String) :
    behindComment? (animation.comment ++ tail).toList = some tail.toList ↔
      Text.occursIn "*/" animation.label = false := by
  rw [String.toList_append, toList_comment_append, behindComment?_eq_iff, endMark_infix_inside_iff,
    Bool.not_eq_true]

theorem inertIn_iff (animation : Animation) {lead tail : String} (known : lead ∈ ["", "void 0 "]) :
    animation.InertIn (lead ++ animation.comment ++ tail) ↔
      Text.occursIn "*/" animation.label = false := by
  constructor
  · rintro ⟨_, _, other, _, inert⟩
    exact (behindComment?_comment_iff animation _).mp (inert "")
  · exact fun free => ⟨lead, known, tail, rfl,
      fun rest => (behindComment?_comment_iff animation _).mpr free⟩

end Animation

/-! ## The parts of a label -/

/-- The methods that may animate. -/
def Selection.animating : List String :=
  ["show", "hide", "toggle"] ++ animationMethods

theorem Selection.namedRole_animation {name : String} {count : Nat}
    (role : namedRole name count = .animation) : name ∈ animationMethods := by
  unfold namedRole at role
  split_ifs at role with binds fires counted known
  exact List.contains_iff_mem.mp known

theorem Selection.name_of_animation {call : MethodCall} (role : call.role = .animation) :
    call.name ∈ animating := by
  unfold MethodCall.role roleOf at role
  dsimp only at role
  split at role
  case h_4 name | h_5 name | h_6 name =>
    rw [name]
    decide
  case h_18 => exact List.mem_append_right _ (namedRole_animation role)
  all_goals
    first
      | cases role
      | (split at role <;> cases role)

/-- A pair of characters that do not separate occurs in a list if it occurs in one of its parts. -/
theorem Output.pair_infix_intercalate_iff {parts : List String} :
    ['*', '/'] <:+: (String.intercalate ", " parts).toList ↔
      ∃ part ∈ parts, ['*', '/'] <:+: part.toList := by
  induction parts with
  | nil => simp
  | cons first rest ih =>
      by_cases last : rest = []
      · rw [last, String.intercalate_singleton]
        simp
      · have separated : (String.intercalate ", " (first :: rest)).toList =
            first.toList ++ ',' :: ([] ++ ' ' :: (String.intercalate ", " rest).toList) := by
          rw [String.intercalate_cons_of_ne_nil last, String.toList_append, String.toList_append]
          simp
        rw [separated, pair_infix_append_iff (by decide) (by decide),
          pair_infix_append_iff (by decide) (by decide), ih, List.exists_mem_cons_iff]
        exact or_congr_right (or_iff_right (by decide))

namespace Animation

/-- A label has an end mark exactly if the selector or what is shown of an argument has one. -/
theorem endMark_label_iff {target : Target} {call : MethodCall} (role : call.role = .animation) :
    Text.occursIn "*/" (ofCall target call).label = false ↔
      Text.occursIn "*/" target.label = false ∧
        ∀ argument ∈ call.arguments, Text.occursIn "*/" (summarizeArgument argument) = false := by
  have method : ¬ ['*', '/'] <:+: call.name.toList := by
    have named := name_of_animation role
    exact (by decide : ∀ name ∈ animating, ¬ ['*', '/'] <:+: name.toList) call.name named
  have parts : (ofCall target call).label.toList = target.label.toList ++ '.' ::
      (call.name.toList ++ '(' :: ((String.intercalate ", "
        (call.arguments.map summarizeArgument)).toList ++ ')' :: [])) := by
    simp [label, ofCall]
  have whole : ['*', '/'] <:+: (ofCall target call).label.toList ↔
      ['*', '/'] <:+: target.label.toList ∨
        ∃ argument ∈ call.arguments, ['*', '/'] <:+: (summarizeArgument argument).toList := by
    rw [parts, Output.pair_infix_append_iff (by decide) (by decide),
      Output.pair_infix_append_iff (by decide) (by decide), or_iff_right method,
      Output.pair_infix_append_iff (by decide) (by decide),
      or_iff_left (by decide : ¬ ['*', '/'] <:+: ([] : List Char)),
      Output.pair_infix_intercalate_iff]
    simp only [List.mem_map, exists_exists_and_eq_and]
  simp only [← Bool.not_eq_true, Text.occursIn_iff]
  change ¬ ['*', '/'] <:+: _ ↔ ¬ ['*', '/'] <:+: _ ∧ ∀ argument ∈ _, ¬ ['*', '/'] <:+: _
  rw [whole, not_or]
  simp only [not_exists, not_and]

end Animation

namespace Renderer

/-! ## Steps that animate -/

/-- In the place of an animation stands the comment on it, in an expression behind a value, and in a
statement before what is kept of the function that would run afterwards. -/
theorem exists_step?_animation (renderer : Renderer) (target : Target) (element : Element)
    (isStatement : Bool) {call : MethodCall} (role : call.role = .animation) :
    ∃ lead ∈ ["", "void 0 "], ∃ tail, renderer.step? target element isStatement call =
      some (lead ++ (Animation.ofCall target call).comment ++ tail) := by
  rw [step?, role]
  dsimp only
  cases isStatement with
  | true =>
      rw [animation_statement]
      exact ⟨"", List.mem_cons_self, _, by rw [String.empty_append]⟩
  | false =>
      refine ⟨"void 0 ", List.mem_cons_of_mem _ List.mem_cons_self, "", ?_⟩
      rw [String.append_empty]
      rfl

/-- For each animation of a chain that is replaced there is a step in the code, whose comment is
inert exactly if neither the selector nor what is shown of an argument has the end mark of a
comment. -/
theorem animation_inert_iff (renderer : Renderer) {chain : Chain} {head : Place} {text : String}
    (replaced : renderer.chain? chain head = some text) {call : MethodCall}
    (member : call ∈ chain.calls) (role : call.role = .animation) :
    ∃ step, renderer.step? chain.target (renderer.element chain.target)
        ((head.parent?.map (·.kind == .expressionStatement)).getD false) call = some step ∧
      Text.occursIn step text = true ∧
      ((Animation.ofCall chain.target call).InertIn step ↔
        Text.occursIn "*/" chain.target.label = false ∧ ∀ argument ∈ call.arguments,
          Text.occursIn "*/" (Animation.summarizeArgument argument) = false) := by
  obtain ⟨step, isStep, occurs⟩ := exists_step_of_chain? replaced member
  refine ⟨step, isStep, occurs, ?_⟩
  obtain ⟨lead, known, tail, form⟩ := exists_step?_animation renderer chain.target
    (renderer.element chain.target) ((head.parent?.map (·.kind == .expressionStatement)).getD false)
    role
  obtain rfl := Option.some.inj (isStep.symm.trans form)
  rw [Animation.inertIn_iff _ known, Animation.endMark_label_iff role]

/-- A comment that opens inside of a comment closes nothing. -/
theorem animation_inert_iff_of_opening :
    let facts := Facts.ofTree (parse "$('#a').animate(\x7b left: '/*' \x7d, 500).hide(0, done);")
    let renderer := Renderer.of facts none
    ∃ head chain, (head, chain) ∈ chainsIn facts.aliases facts.root ∧
      ∃ text, renderer.chain? chain head = some text ∧
        chain.calls.map (·.name) = ["animate", "hide"] ∧
        ∀ call ∈ chain.calls, ∃ step, Text.occursIn step text = true ∧
          (Animation.ofCall chain.target call).InertIn step := by
  intro facts renderer
  have run : renderer.findsReplaced (fun _ chain _ =>
      chain.calls.map (·.name) == ["animate", "hide"] &&
      ! Text.occursIn "*/" chain.target.label && chain.calls.all fun call =>
        call.role == .animation && call.arguments.all fun argument =>
          ! Text.occursIn "*/" (Animation.summarizeArgument argument)) = true := by
    decide +kernel
  obtain ⟨head, chain, listed, text, replaced, checks⟩ := exists_of_findsReplaced run
  rw [Bool.and_eq_true, Bool.and_eq_true, beq_iff_eq, Bool.not_eq_true', List.all_eq_true] at checks
  obtain ⟨⟨names, selector⟩, each⟩ := checks
  refine ⟨head, chain, listed, text, replaced, names, fun call member => ?_⟩
  have check := each call member
  rw [Bool.and_eq_true, beq_iff_eq, List.all_eq_true] at check
  obtain ⟨role, shown⟩ := check
  obtain ⟨step, _, occurs, inert⟩ := animation_inert_iff renderer replaced member role
  refine ⟨step, occurs, inert.mpr ⟨selector, fun argument inside => ?_⟩⟩
  rw [← Bool.not_eq_true']
  exact shown argument inside

/-- The end of a comment between the members of an object ends the comment on the animation, and
what stands behind it is read as code. -/
theorem not_inert_of_comment :
    let facts := Facts.ofTree (parse "$('#a').animate(\x7b left: 10 /* px */ \x7d, 500);")
    let renderer := Renderer.of facts none
    (∃ head chain, (head, chain) ∈ chainsIn facts.aliases facts.root ∧
      ∃ text, renderer.chain? chain head = some text ∧
        ∃ call ∈ chain.calls, call.role = .animation ∧
          renderer.step? chain.target (renderer.element chain.target)
            ((head.parent?.map (·.kind == .expressionStatement)).getD false) call = some text ∧
          ¬ (Animation.ofCall chain.target call).InertIn text) ∧
    facts.statements.map renderer.fragment =
      ["/* #a.animate(\x7b left: 10 /* px */ \x7d, 500): " ++
        "animation not translated, see conversion report */;"] := by
  intro facts renderer
  have run : renderer.findsReplaced (fun head chain text => chain.calls.any fun call =>
        call.role == .animation &&
        renderer.step? chain.target (renderer.element chain.target)
          ((head.parent?.map (·.kind == .expressionStatement)).getD false) call == some text &&
        text == (Animation.ofCall chain.target call).comment &&
        Text.occursIn "*/" (Animation.ofCall chain.target call).label) = true ∧
      facts.statements.map renderer.fragment =
        ["/* #a.animate(\x7b left: 10 /* px */ \x7d, 500): " ++
          "animation not translated, see conversion report */;"] := by
    decide +kernel
  obtain ⟨finds, written⟩ := run
  obtain ⟨head, chain, listed, text, replaced, found⟩ := exists_of_findsReplaced finds
  obtain ⟨call, member, checks⟩ := List.any_eq_true.mp found
  simp only [Bool.and_eq_true, beq_iff_eq] at checks
  obtain ⟨⟨⟨role, isStep⟩, same⟩, closes⟩ := checks
  refine ⟨⟨head, chain, listed, text, replaced, call, member, role, isStep, fun inert => ?_⟩,
    written⟩
  have form : text = "" ++ (Animation.ofCall chain.target call).comment ++ "" := by
    rw [String.empty_append, String.append_empty]
    exact same
  rw [form, Animation.inertIn_iff _ List.mem_cons_self, closes] at inert
  cases inert

end Renderer
end Hookify
