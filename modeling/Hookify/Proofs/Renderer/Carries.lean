import Hookify.Proofs.Renderer.Locality
import Hookify.Proofs.Renderer.Values
import Hookify.Proofs.Renderer.Visits
import Hookify.Proofs.Request.Callbacks
import Hookify.Proofs.Text.Frames

namespace Hookify

open Script Selection

/-!
# What becomes of a part that is copied

Code is put together from rendered places by normal forms, which move lines and
leave everything else in place.  So for a part of a place it is enough to know
the normal forms that the code has gone through, one after the other.

A place that is copied with everything inside may stand deep in other code.
Rendering comes to it through places that are copied as well, and through idioms
that have the rendering of one of their parts in the code that replaces them.
-/

namespace Renderer

/-! ## Normal forms one after the other -/

/-- A text is made from a source by normal forms and by what is written around it, and `change` is
what becomes of a part of the source. -/
inductive Moves (source : String) : String → (List Char → List Char) → Prop where
  | refl : Moves source source id
  | around {text : String} {change : List Char → List Char} (before after : String)
      (moves : Moves source text change) : Moves source (before ++ text ++ after) change
  | dedentContinuation {text : String} {change : List Char → List Char} (column : Nat)
      (moves : Moves source text change) : Moves source (Text.dedentContinuation column text)
        (Text.dedentContinuationChars column ∘ change)
  | indentContinuation {text : String} {change : List Char → List Char} (margin : String)
      (moves : Moves source text change) : Moves source (Text.indentContinuation margin text)
        (Text.indentContinuationChars margin.toList ∘ change)
  | indent {text : String} {change : List Char → List Char} (margin : String)
      (moves : Moves source text change) :
      Moves source (Text.indent margin text) (Text.indentContinuationChars margin.toList ∘ change)
  | tidy {text : String} {change : List Char → List Char} (moves : Moves source text change) :
      Moves source (Text.tidy text) (Text.tidyChars ∘ change)
  | dedent {text : String} {change : List Char → List Char} (moves : Moves source text change) :
      Moves source (Text.dedent text)
        (Text.dedentBehindChars (Text.commonIndent (Text.lineChars text.toList)) ∘ change)
  | blockInner {text : String} {change : List Char → List Char} (moves : Moves source text change) :
      Moves source (Text.blockInner text)
        (Text.dedentBehindChars (Text.blockIndent text.toList) ∘ Text.tidyChars ∘ change)
  | dropSemicolon {text : String} {change : List Char → List Char}
      (moves : Moves source text change) : Moves source (Renderer.dropSemicolon text) change

theorem infix_dropSemicolon {text : String} {part : List Char} (framed : Text.IsFramed part)
    (inside : part <:+: text.toList) : part <:+: (dropSemicolon text).toList := by
  have trimmed := framed.infix_trimEnd inside
  rw [dropSemicolon]
  split
  · rename_i ends
    obtain ⟨before, same⟩ := List.getLast?_eq_some_iff.mp (beq_iff_eq.mp ends)
    rw [String.toList_ofList, same, List.dropLast_concat]
    rw [same] at trimmed
    obtain ⟨front, back, split⟩ := trimmed
    rcases List.eq_nil_or_concat back with rfl | ⟨back, last, rfl⟩
    · obtain ⟨rest, c, rfl, firm⟩ := framed.ends
      rw [List.append_nil, ← List.append_assoc] at split
      exact absurd (List.singleton_inj.mp (List.append_inj' split rfl).2) firm.2.2.2
    · rw [List.concat_eq_append, ← List.append_assoc] at split
      exact ⟨front, back, (List.append_inj' split rfl).1⟩
  · rwa [String.toList_ofList]

namespace Moves

variable {source text : String} {change : List Char → List Char} {part : List Char}

theorem isFramed (moves : Moves source text change) (framed : Text.IsFramed part) :
    Text.IsFramed (change part) := by
  induction moves with
  | refl => exact framed
  | around _ _ _ ih | dropSemicolon _ ih => exact ih
  | dedentContinuation column _ ih => exact ih.dedentContinuation column
  | indentContinuation margin _ ih | indent margin _ ih => exact ih.indentContinuation margin.toList
  | tidy _ ih => exact ih.tidy
  | dedent _ ih => exact ih.dedentBehind _
  | blockInner _ ih => exact ih.tidy.dedentBehind _

/-- What has become of a part of the source stands in the text. -/
theorem isInfix (moves : Moves source text change) (framed : Text.IsFramed part)
    (inside : part <:+: source.toList) : change part <:+: text.toList := by
  induction moves with
  | refl => exact inside
  | around before after _ ih =>
      rw [String.toList_append, String.toList_append]
      exact ih.trans (List.infix_append _ _ _)
  | dedentContinuation column moves ih =>
      rw [Text.dedentContinuation, Text.toList_overChars]
      exact (moves.isFramed framed).infix_dedentContinuation ih column
  | indentContinuation margin moves ih =>
      rw [Text.indentContinuation, Text.toList_overChars]
      exact (moves.isFramed framed).infix_indentContinuation ih margin.toList
  | indent margin moves ih =>
      rw [Text.indent, Text.toList_overChars]
      exact (moves.isFramed framed).infix_indent ih margin.toList
  | tidy moves ih =>
      rw [Text.tidy, Text.toList_overChars]
      exact (moves.isFramed framed).infix_tidy ih
  | dedent moves ih =>
      rw [Text.dedent, Text.toList_overChars]
      exact (moves.isFramed framed).infix_dedent ih
  | blockInner moves ih =>
      rw [Text.blockInner, Text.toList_overChars]
      exact (moves.isFramed framed).infix_blockInner ih
  | dropSemicolon moves ih => exact infix_dropSemicolon (moves.isFramed framed) ih

/-- A part within a line stays as it is. -/
theorem change_eq (moves : Moves source text change) (isInline : Text.IsInline part) :
    change part = part := by
  induction moves with
  | refl => rfl
  | around _ _ _ ih | dropSemicolon _ ih => exact ih
  | dedentContinuation column _ ih =>
      rw [Function.comp_apply, ih, isInline.dedentContinuation_eq]
  | indentContinuation margin _ ih | indent margin _ ih =>
      rw [Function.comp_apply, ih, isInline.indentContinuation_eq]
  | tidy _ ih => rw [Function.comp_apply, ih, isInline.tidy_eq]
  | dedent _ ih => rw [Function.comp_apply, ih, isInline.dedentBehind_eq]
  | blockInner _ ih =>
      rw [Function.comp_apply, Function.comp_apply, ih, isInline.tidy_eq, isInline.dedentBehind_eq]

/-- A text in which another one stands is written around it. -/
theorem of_occursIn {whole : String} (moves : Moves source text change)
    (occurs : Text.occursIn text whole = true) : Moves source whole change := by
  obtain ⟨before, after, same⟩ := (Text.occursIn_iff _ _).mp occurs
  have shape : whole = String.ofList before ++ text ++ String.ofList after :=
    String.toList_inj.mp (by simp [← same])
  exact shape ▸ .around _ _ moves

end Moves

/-! ## Parts of idioms -/

/-- The argument of a call that has the value for a facet. -/
def valueIndex (facet : Facet) (call : MethodCall) : Nat :=
  if facet == .style && call.arguments.length == 2 then 1 else 0

/-- A part of a place goes into the code that replaces the place. -/
inductive HasPart (renderer : Renderer) (place : Place) : Place → Prop where
  /-- What is assigned to a variable that has become a state. -/
  | assigned {target part : Place} {sign : String} (kind : place.kind = .assignmentExpression ∨
        place.kind = .augmentedAssignmentExpression)
      (assigned : assignment? place = some (target, sign)) (identifier : target.kind = .identifier)
      (reactive : renderer.facts.isReactiveVariable target.text = true)
      (found : place.child? .right = some part) : HasPart renderer place part
  /-- What the content, the text, the value, the classes or the style of an element is set to. -/
  | change {chain : Chain} {call : MethodCall} {facet : Facet} {part : Place}
      (chained : renderer.facts.chain? place = some chain) (member : call ∈ chain.calls)
      (role : call.role = .mutation facet) (noVisibility : facet ≠ .visibility)
      (found : call.argument? (valueIndex facet call) = some part) : HasPart renderer place part
  /-- What an attribute, a property or an entry of the data of an element is set to. -/
  | entry {chain : Chain} {call : MethodCall} {part : Place}
      (chained : renderer.facts.chain? place = some chain) (member : call ∈ chain.calls)
      (role : call.role = .attributeWrite) (noRequest : renderer.facts.request? place = none)
      (noHelper : renderer.helper? place = none) (noAttribute : call.name ≠ "removeAttr")
      (noProperty : call.name ≠ "removeProp") (found : call.argument? 1 = some part) :
      HasPart renderer place part
  /-- The address of a request, unless it is a plain string. -/
  | address {request : Request} {part : Place} (isCall : place.kind = .callExpression)
      (makes : renderer.facts.request? place = some request) (address : request.url = some part)
      (noString : part.kind ≠ .string) : HasPart renderer place part
  /-- The body of a callback of a request. -/
  | callback {request : Request} {branch : Branch} {function body : Place}
      (isCall : place.kind = .callExpression)
      (makes : renderer.facts.request? place = some request)
      (isCallback : request.callback? branch = some function)
      (isFunction : function.kind.isFunctionLike = true ∨ function.kind = .methodDefinition)
      (isBody : function.child? .body = some body) : HasPart renderer place body
  /-- The body of the function that would run after an animation. -/
  | afterwards {chain : Chain} {call : MethodCall} {function body : Place}
      (chained : renderer.facts.chain? place = some chain) (member : call ∈ chain.calls)
      (role : call.role = .animation) (noRequest : renderer.facts.request? place = none)
      (noHelper : renderer.helper? place = none)
      (isStatement : (place.parent?.map (·.kind == .expressionStatement)) = some true)
      (last : call.arguments.getLast?.filter (·.kind.isFunctionLike) = some function)
      (isBody : function.child? .body = some body) : HasPart renderer place body

section Parts

variable {renderer : Renderer} {place part target function body : Place} {text sign : String}

theorem moves_fragment (renderer : Renderer) (part : Place) : Moves (renderer.render part)
    (renderer.fragment part) (Text.dedentContinuationChars part.node.margin.chars.length) :=
  .dedentContinuation _ .refl

/-- A block is tidied and loses its indentation, and any other body is a fragment. -/
theorem exists_moves_functionBody (renderer : Renderer) (isBody : function.child? .body = some body) :
    ∃ change, Moves (renderer.render body) (renderer.functionBody function) change ∧
      (change = Text.dedentContinuationChars body.node.margin.chars.length ∨
        ∃ width, change = Text.dedentBehindChars width ∘ Text.tidyChars) := by
  rw [functionBody, isBody]
  dsimp only
  split
  · exact ⟨_, .blockInner .refl, .inr ⟨_, rfl⟩⟩
  · exact ⟨_, .around "return " ";" (moves_fragment renderer body), .inl rfl⟩

section Steps

variable {facet : Facet} {call : MethodCall} {value : String}

theorem argument_eq {index : Nat} (found : renderer.argument? call index = some value) :
    renderer.argument call index = value := by
  rw [argument, found]
  rfl

/-- The value is the first argument, or the second one of two for a style. -/
theorem valueIndex_cases (facet : Facet) (call : MethodCall) :
    valueIndex facet call = 0 ∧ (facet ≠ .style ∨ ¬ (call.arguments.length == 2) = true) ∨
      valueIndex facet call = 1 ∧ facet = .style ∧ (call.arguments.length == 2) = true := by
  rw [valueIndex]
  split
  · rename_i both
    rw [Bool.and_eq_true, beq_iff_eq] at both
    exact .inr ⟨rfl, both⟩
  · rename_i other
    rw [Bool.and_eq_true, beq_iff_eq, not_and_or] at other
    exact .inl ⟨rfl, other⟩

theorem occursIn_styleMembers
    (found : renderer.argument? call (valueIndex .style call) = some value) :
    Text.occursIn value (renderer.styleMembers call) = true := by
  have own := Text.occursIn_self value
  have argument := argument_eq found
  rw [styleMembers]
  rcases valueIndex_cases .style call with ⟨first, other⟩ | ⟨second, _, count⟩
  · rw [first] at argument
    rw [if_neg (other.resolve_left (absurd rfl)), argument]
    exact Text.occursIn_append_right own _
  · rw [second] at argument
    rw [if_pos count, argument]
    split <;> exact Text.occursIn_append_right own _

/-- A value that is set is in the new value of the state. -/
theorem occursIn_stateValue (noVisibility : facet ≠ .visibility)
    (found : renderer.argument? call (valueIndex facet call) = some value) :
    Text.occursIn value (renderer.stateValue facet call) = true := by
  have own := Text.occursIn_self value
  cases facet with
  | visibility => exact absurd rfl noVisibility
  | content | text | value =>
      have argument : renderer.argument call 0 = value := argument_eq found
      exact argument.symm ▸ own
  | style =>
      exact Text.occursIn_append_left (Text.occursIn_append_right (occursIn_styleMembers found) _) _
  | className =>
      have first : renderer.argument? call 0 = some value := found
      change Text.occursIn value (renderer.classUpdate call) = true
      rw [classUpdate]
      split <;> simp only [first, argument_eq first] <;>
        exact Text.occursIn_append_left (Text.occursIn_append_right own _) _

/-- A value that is set is in the change of an object. -/
theorem occursIn_objectMutation (noVisibility : facet ≠ .visibility)
    (found : renderer.argument? call (valueIndex facet call) = some value) (code : String) :
    Text.occursIn value (renderer.objectMutation code facet call) = true := by
  have own := Text.occursIn_self value
  cases facet with
  | visibility => exact absurd rfl noVisibility
  | content | text | value =>
      have argument : renderer.argument call 0 = value := argument_eq found
      rw [← argument] at own ⊢
      exact Text.occursIn_append_right own _
  | style =>
      have argument := argument_eq found
      change Text.occursIn value (renderer.styleMutation code call) = true
      rw [styleMutation]
      rcases valueIndex_cases .style call with ⟨first, other⟩ | ⟨second, _, count⟩
      · rw [first] at argument
        rw [if_neg (other.resolve_left (absurd rfl)), argument]
        exact Text.occursIn_append_left (Text.occursIn_append_right own _) _
      · rw [second] at argument
        rw [if_pos count, argument]
        split <;> exact Text.occursIn_append_right own _
  | className =>
      have first : renderer.argument? call 0 = some value := found
      have filled : ¬ call.arguments.isEmpty = true := by
        intro empty
        rw [argument?, MethodCall.argument?, List.isEmpty_iff.mp empty] at first
        cases first
      change Text.occursIn value (renderer.classMutation code call) = true
      rw [classMutation, argument_eq first, if_neg filled]
      split <;> exact Text.occursIn_append_left (Text.occursIn_append_right own _) _

theorem occursIn_step_of_mutation {target : Target} {element : Element} {isStatement : Bool}
    {step : String} (role : call.role = .mutation facet) (noVisibility : facet ≠ .visibility)
    (found : renderer.argument? call (valueIndex facet call) = some value)
    (isStep : renderer.step? target element isStatement call = some step) :
    Text.occursIn value step = true := by
  rw [step?, role] at isStep
  cases target with
  | selector selector =>
      rw [← Option.some.inj isStep]
      exact Text.occursIn_append_left (Text.occursIn_append_right
        (occursIn_stateValue noVisibility found) _) _
  | page _ | this =>
      rw [← Option.some.inj isStep]
      exact occursIn_objectMutation noVisibility found _

/-- A value that is written is in the code that writes it. -/
theorem occursIn_attributeWrite (element : Element) (noAttribute : call.name ≠ "removeAttr")
    (noProperty : call.name ≠ "removeProp") (found : renderer.argument? call 1 = some value) :
    Text.occursIn value (renderer.attributeWrite element call) = true := by
  have own := Text.occursIn_self value
  rw [attributeWrite, found]
  split
  case h_1 name => exact absurd name noAttribute
  case h_2 name => exact absurd name noProperty
  case h_3 same =>
    rw [← Option.some.inj same]
    exact Text.occursIn_append_left (Text.occursIn_append_right own _) _
  case h_5 same | h_7 same _ _ _ _ =>
    rw [← Option.some.inj same]
    exact Text.occursIn_append_right own _
  all_goals contradiction

end Steps

theorem kind_of_mem_calls {facts : Facts} {chain : Chain} {call : MethodCall}
    (chained : facts.chain? place = some chain) (member : call ∈ chain.calls) :
    place.kind = .callExpression := by
  rw [Facts.chain?, Chain.at?_eq, Option.map_eq_some_iff] at chained
  obtain ⟨_, _, rfl⟩ := chained
  obtain ⟨_, _, found⟩ := exists_methodCall? (List.ne_nil_of_mem member)
  exact (shape_of_methodCall? found).1

theorem chain?_of_idiom? {chain : Chain} {call : MethodCall}
    (replaced : renderer.idiom? place = some text)
    (chained : renderer.facts.chain? place = some chain) (member : call ∈ chain.calls)
    (noRequest : renderer.facts.request? place = none) (noHelper : renderer.helper? place = none) :
    renderer.chain? chain place = some text := by
  rw [idiom?_of_call (kind_of_mem_calls chained member)] at replaced
  exact (chain?_of_call? replaced noRequest noHelper chained (List.ne_nil_of_mem member)).2

/-- What a call of a chain writes is in the code that replaces the chain. -/
theorem moves_argument {chain : Chain} {call : MethodCall} {index : Nat}
    (replaced : renderer.chain? chain place = some text) (member : call ∈ chain.calls)
    (found : call.argument? index = some part)
    (written : ∀ step isStatement, renderer.argument? call index = some (renderer.fragment part) →
      renderer.step? chain.target (renderer.element chain.target) isStatement call = some step →
        Text.occursIn (renderer.fragment part) step = true) :
    Moves (renderer.render part) text
      (Text.dedentContinuationChars part.node.margin.chars.length) := by
  obtain ⟨step, isStep, occurs⟩ := exists_step_of_chain? replaced member
  have argument : renderer.argument? call index = some (renderer.fragment part) := by
    rw [argument?, found]
    rfl
  exact .of_occursIn (.of_occursIn (moves_fragment renderer part) (written _ _ argument isStep)) occurs

theorem moves_address {request : Request} (address : request.url = some part)
    (noString : part.kind ≠ .string) : Moves (renderer.render part) (renderer.fetch request)
      (Text.dedentContinuationChars part.node.margin.chars.length) := by
  have own := Text.occursIn_self (renderer.fragment part)
  have written : Text.occursIn (renderer.fragment part) (renderer.fetchCall request) = true := by
    rw [fetchCall, address]
    dsimp only [Option.map_some, Option.getD_some]
    split
    · split
      · rw [queryUrl, Option.map_some, Option.getD_some, beq_eq_false_iff_ne.mpr noString]
        refine Text.occursIn_append_left (Text.occursIn_append_right ?_ _) _
        exact Text.occursIn_append_left (Text.occursIn_append_left
          (Text.occursIn_append_right own _) _) _
      · exact Text.occursIn_append_left (Text.occursIn_append_right own _) _
    · iterate 3 apply Text.occursIn_append_left
      exact Text.occursIn_append_right own _
  rw [fetch]
  exact .of_occursIn (moves_fragment renderer part) (Text.occursIn_append_left
    (Text.occursIn_append_left (Text.occursIn_append_left
      (Text.occursIn_append_left written _) _) _) _)

/-- A callback stands in the code of its request with the margin of a continuation. -/
theorem occursIn_fetch_of_callback? {request : Request} {branch : Branch}
    (isCallback : request.callback? branch = some function) :
    Text.occursIn (Text.indentContinuation "  " (renderer.callback branch.usualParameter function))
      (renderer.fetch request) = true := by
  have written : Text.occursIn
      (Text.indentContinuation "  " (renderer.callback branch.usualParameter function))
      (renderer.branchText branch [function]) = true :=
    Text.occursIn_append_left (Text.occursIn_append_right (Text.occursIn_self _) _) _
  rw [renderer.fetch_eq request (fun branch => (request.callback? branch).toList)
    fun branch => by cases request.callback? branch <;> rfl]
  cases branch with
  | success =>
      rw [isCallback, Option.toList_some]
      exact Text.occursIn_append_left (Text.occursIn_append_left
        (Text.occursIn_append_right written _) _) _
  | failure =>
      rw [isCallback, Option.toList_some]
      exact Text.occursIn_append_left (Text.occursIn_append_right written _) _
  | completion =>
      rw [isCallback, Option.toList_some]
      exact Text.occursIn_append_right written _

theorem exists_moves_callback (renderer : Renderer) {usual : Option String}
    (isFunction : function.kind.isFunctionLike = true ∨ function.kind = .methodDefinition)
    (isBody : function.child? .body = some body) :
    ∃ change, Moves (renderer.render body) (renderer.callback usual function) change := by
  obtain ⟨change, moves, _⟩ := exists_moves_functionBody renderer isBody
  have written : ¬ (! function.kind.isFunctionLike && function.kind != .methodDefinition) = true := by
    rcases isFunction with like | method
    · rw [like]
      exact Bool.false_ne_true
    · rw [method]
      decide
  unfold Renderer.callback
  rw [if_neg written]
  dsimp only
  split
  · rename_i empty
    have none : renderer.functionBody function = "" := String.isEmpty_iff.mp empty
    rw [none] at moves
    exact ⟨_, .of_occursIn moves ((Text.occursIn_iff _ _).mpr List.nil_infix)⟩
  · refine ⟨_, .of_occursIn (moves.indent "  ") ?_⟩
    exact Text.occursIn_append_left (Text.occursIn_append_right (Text.occursIn_self _) _) _

/-- What goes into the code for a place is moved there by normal forms. -/
theorem HasPart.exists_moves (has : renderer.HasPart place part)
    (replaced : renderer.idiom? place = some text) :
    ∃ change, Moves (renderer.render part) text change := by
  cases has with
  | assigned kind assigned identifier reactive found =>
      obtain ⟨before, after, shape⟩ := exists_idiom?_of_right _ kind assigned identifier reactive found
      obtain rfl := Option.some.inj (replaced.symm.trans shape)
      exact ⟨_, .around before after (moves_fragment renderer part)⟩
  | change chained member role noVisibility found =>
      rw [renderer.idiom?_of_element chained member (mem_elementMethods_of_mutation role)] at replaced
      split at replaced
      · exact ⟨_, moves_argument replaced member found fun _ _ argument isStep =>
          occursIn_step_of_mutation role noVisibility argument isStep⟩
      · cases replaced
  | entry chained member role noRequest noHelper noAttribute noProperty found =>
      have asChain := chain?_of_idiom? replaced chained member noRequest noHelper
      refine ⟨_, moves_argument asChain member found fun step isStatement argument isStep => ?_⟩
      rw [step?, role] at isStep
      rw [← Option.some.inj isStep]
      exact occursIn_attributeWrite _ noAttribute noProperty argument
  | address isCall makes address noString =>
      rw [idiom?_of_call isCall, call?, makes] at replaced
      obtain rfl := Option.some.inj replaced
      exact ⟨_, moves_address address noString⟩
  | @callback request branch function body isCall makes isCallback isFunction isBody =>
      rw [idiom?_of_call isCall, call?, makes] at replaced
      obtain rfl := Option.some.inj replaced
      obtain ⟨change, moves⟩ := exists_moves_callback renderer isFunction isBody
      exact ⟨_, .of_occursIn (moves.indentContinuation "  ") (occursIn_fetch_of_callback? isCallback)⟩
  | @afterwards chain call function body chained member role noRequest noHelper isStatement last
      isBody =>
      obtain ⟨change, moves, _⟩ := exists_moves_functionBody renderer isBody
      have asChain := chain?_of_idiom? replaced chained member noRequest noHelper
      obtain ⟨step, isStep, occurs⟩ := exists_step_of_chain? asChain member
      rw [step?, role, isStatement] at isStep
      rw [← Option.some.inj isStep, Option.getD_some, animation, if_pos rfl, last] at occurs
      exact ⟨_, .of_occursIn (.of_occursIn moves.dropSemicolon
        (Text.occursIn_append_right (Text.occursIn_self _) _)) occurs⟩

end Parts

/-! ## Rendering -/

/-- Rendering comes from a place to one that is copied with everything inside, and the text of that
one becomes `image` in the rendering of the place. -/
inductive Carries (facts : Facts) (inner : Place) : Option String → Place → List Char → Prop where
  | here {this : Option String} (copied : Copied facts this inner) :
      Carries facts inner this inner inner.text.toList
  | child {this : Option String} {place child : Place} {image : List Char}
      (kept : (Renderer.of facts this).replacement? place = none)
      (member : child ∈ place.children)
      (below : Carries facts inner (if place.kind.isPlainFunction then none else this) child image) :
      Carries facts inner this place image
  | part {this : Option String} {place part : Place} {image : List Char} {text : String}
      {change : List Char → List Char} (inside : part ∈ place.walk)
      (replaced : (Renderer.of facts this).idiom? place = some text)
      (moves : Moves ((Renderer.of facts this).render part) text change)
      (below : Carries facts inner this part image) :
      Carries facts inner this place
        (Text.indentContinuationChars place.node.margin.chars (change image))

section Carries

variable {facts : Facts} {this : Option String} {place inner : Place} {image : List Char}

theorem Carries.isFramed (carries : Carries facts inner this place image)
    (framed : Text.IsFramed inner.text.toList) : Text.IsFramed image := by
  induction carries with
  | here => exact framed
  | child _ _ _ ih => exact ih
  | part _ _ moves _ ih => exact (moves.isFramed ih).indentContinuation _

theorem Carries.image_eq (carries : Carries facts inner this place image)
    (isInline : Text.IsInline inner.text.toList) : image = inner.text.toList := by
  induction carries with
  | here => rfl
  | child _ _ _ ih => exact ih
  | part _ _ moves _ ih => rw [ih, moves.change_eq isInline, isInline.indentContinuation_eq]

/-- What the part becomes stands in the rendering of the place. -/
theorem Carries.infix_render (carries : Carries facts inner this place image)
    (framed : Text.IsFramed inner.text.toList)
    (small : place.node.size ≤ facts.root.node.size) :
    image <:+: ((Renderer.of facts this).render place).toList := by
  induction carries with
  | here copied =>
      rw [copied.render_eq small]
  | child kept member below ih =>
      have smaller := Nat.le_trans (Nat.le_of_lt (Place.size_lt_of_mem_children member)) small
      rw [render_of facts _ small, kept]
      exact (ih smaller).trans ((Text.occursIn_iff _ _).mp
        (occursIn_renderParts (mem_placeParts_iff.mpr member) (Text.occursIn_self _)))
  | part inside replaced moves below ih =>
      have smaller := Nat.le_trans (Place.size_le_of_mem_walk inside) small
      have within := moves.isInfix (below.isFramed framed) (ih smaller)
      rw [render_eq_of_idiom small replaced, Text.indentContinuation, Text.toList_overChars,
        String.toList_ofList]
      exact (moves.isFramed (below.isFramed framed)).infix_indentContinuation within _

end Carries

end Renderer
end Hookify
