import Hookify.Proofs.Pass.Names
import Hookify.Proofs.Renderer.Setters
import Hookify.Proofs.Text.Breaks

namespace Hookify

open Script Selection

/-!
# How many statements replace a chain

Each call of a chain becomes a step.  A step is closed code in which no
statement ends, provided that the arguments of the call are; only an animation
may keep the statements of a function that would run afterwards.

Where the chain is the expression of a statement, its steps are put one behind
the other as statements of their own.  What stands around the statement is not
looked at.  If the statement is the body of a conditional or of a loop, the
first step alone remains in that body.  Everywhere else several steps are one
expression in parentheses.
-/

namespace Text

theorem signOf_eq_plain {c : Char} (nameChar : Identifier.IsNameChar c) : signOf c = .plain := by
  have apart : ∀ {signs : List Char}, (signs.any fun d => decide (Identifier.IsNameChar d)) = false →
      ¬ signs.contains c = true := by
    intro signs others same
    have found := List.any_eq_false.mp others c (List.contains_iff_mem.mp same)
    exact found (decide_eq_true nameChar)
  rw [signOf, if_neg (apart (by decide)), if_neg (apart (by decide)), if_neg (apart (by decide)),
    if_neg (apart (by decide)), if_neg (apart (by decide))]

theorem closed_of_isPlain {text : String} (plain : Identifier.IsPlain text.toList) : Closed text :=
  closed_of_plain fun c member => signOf_eq_plain (plain c member)

end Text

namespace Renderer

open Text

variable {renderer : Renderer} {call : MethodCall}

/-! ## What goes into a step -/

/-- The function that would run after an animation. -/
def afterwards? (call : MethodCall) : Option Place :=
  call.arguments.getLast?.filter (·.kind.isFunctionLike)

/-- The statements that are kept of such a function. -/
def keptCode (renderer : Renderer) (function : Place) : String :=
  dropSemicolon (renderer.functionBody function)

/-- How many statements end in what is kept of the function after an animation. -/
def keptBreaks (renderer : Renderer) (call : MethodCall) : Nat :=
  if call.role = .animation then
    ((afterwards? call).map fun function => breaksIn (renderer.keptCode function)).getD 0
  else
    0

/-- Nothing that a call contributes to code leaves something open there. -/
structure Contributes (renderer : Renderer) (target : Target) (call : MethodCall) : Prop where
  arguments : ∀ argument ∈ call.arguments, Closed (renderer.fragment argument)
  /-- A literal that names a member stands in the code without its quotes. -/
  members : ∀ argument ∈ call.arguments, argument.kind = .string →
    Closed (Identifier.cssProperty (unquote argument.text))
  comment : call.role = .animation → Closed (Animation.ofCall target call).comment
  afterwards : call.role = .animation → ∀ function ∈ afterwards? call,
    Breaks (renderer.keptCode function) (breaksIn (renderer.keptCode function))

theorem closed_element (this : ∀ code ∈ renderer.this, Closed code) (target : Target) :
    Closed (renderer.element target).code := by
  cases target with
  | selector selector =>
      have numbered := renderer.facts.isNumbered_referenceName selector
      exact (closed_of_isPlain (Identifier.isPlain_of_isNumbered numbered)).append (by decide)
  | page object =>
      have named : Closed object.name := by cases object <;> decide
      exact named
  | this =>
      rw [element]
      dsimp only
      cases expression : renderer.this with
      | none => decide
      | some code => exact this code expression

theorem closed_access {element : Element} (closed : Closed element.code) :
    Closed element.access :=
  closed.append (by cases element.optional <;> decide)

theorem closed_assign {code separator value : String} (object : Closed code)
    (between : Closed separator) (added : Closed value) :
    Closed ("Object.assign(" ++ code ++ separator ++ value ++ ")") := by
  have opening : Leads 0 "Object.assign(" 1 := by decide
  exact Closed.within 1 ((opening.append (object.leads 1)).append (between.leads 1)) added
    (by decide)

theorem closed_dispatch {access event : String} (object : Closed access) (name : Closed event) :
    Closed (dispatch access event) :=
  Closed.within 2 (Leads.append object (by decide)) name (by decide)

/-- In a statement, what is kept of the function that would run afterwards follows the comment. -/
theorem animation_statement (target : Target) : renderer.animation target true call =
    (Animation.ofCall target call).comment ++
      (((afterwards? call).map fun function => "\n" ++ renderer.keptCode function).getD "") := by
  rw [Renderer.animation, afterwards?]
  cases call.arguments.getLast?.filter (·.kind.isFunctionLike) with
  | none => simp
  | some function => simp [keptCode, String.append_assoc]

theorem closed_ownedState? {target : Target} {method state : String}
    (owned : renderer.ownedState? target method = some state) : Closed state := by
  unfold ownedState? at owned
  split at owned
  · dsimp only at owned
    split at owned
    · rw [← Option.some.inj owned]
      exact closed_of_isPlain (Identifier.isPlain_state _ _)
    · cases owned
  · cases owned

/-- Only methods that are named after events trigger them, and the method `trigger`. -/
theorem name_of_trigger (role : call.role = .trigger) :
    call.name ∈ "trigger" :: eventMethods := by
  have named : call.name = "trigger" ∨
      namedRole call.name (call.arguments.map (·.kind)).length = .trigger := by
    unfold MethodCall.role roleOf at role
    dsimp only at role
    split at role
    all_goals first
      | exact .inl ‹call.name = "trigger"›
      | exact .inr role
      | cases role
      | split at role <;> cases role
  rcases named with name | named
  · exact name ▸ List.mem_cons_self
  · unfold namedRole at named
    split at named
    · cases named
    · split at named
      · rename_i event
        exact List.mem_cons_of_mem _ (List.contains_iff_mem.mp event)
      · split at named
        · cases named
        · split at named <;> cases named

instance (renderer : Renderer) (target : Target) (call : MethodCall) :
    Decidable (renderer.Contributes target call) :=
  decidable_of_iff
    ((∀ argument ∈ call.arguments, Closed (renderer.fragment argument)) ∧
      (∀ argument ∈ call.arguments, argument.kind = .string →
        Closed (Identifier.cssProperty (unquote argument.text))) ∧
      (call.role = .animation → Closed (Animation.ofCall target call).comment) ∧
      (call.role = .animation → ∀ function ∈ afterwards? call,
        Breaks (renderer.keptCode function) (breaksIn (renderer.keptCode function))))
    ⟨fun ⟨arguments, members, comment, afterwards⟩ => ⟨arguments, members, comment, afterwards⟩,
      fun contributes => ⟨contributes.arguments, contributes.members, contributes.comment,
        contributes.afterwards⟩⟩

namespace Contributes

variable {target : Target} (contributes : renderer.Contributes target call)

include contributes

theorem argument? {index : Nat} {value : String} (found : renderer.argument? call index = some value) :
    Closed value := by
  rcases Option.map_eq_some_iff.mp found with ⟨argument, member, rfl⟩
  exact contributes.arguments argument (List.mem_of_getElem? member)

theorem argument (index : Nat) : Closed (renderer.argument call index) := by
  rw [Renderer.argument]
  cases found : renderer.argument? call index with
  | none => exact closed_empty
  | some value => exact contributes.argument? found

theorem literal? {index : Nat} {literal : String} (found : call.literal? index = some literal) :
    Closed (Identifier.cssProperty literal) := by
  rcases Option.map_eq_some_iff.mp found with ⟨argument, isString, rfl⟩
  rcases Option.filter_eq_some_iff.mp isString with ⟨member, string⟩
  exact contributes.members argument (List.mem_of_getElem? member) (beq_iff_eq.mp string)

/-! ## Changes -/

theorem styleMembers : Closed (renderer.styleMembers call) := by
  rw [Renderer.styleMembers]
  split
  · split
    · rename_i property found
      exact ((contributes.literal? found).append (by decide)).append (contributes.argument 1)
    · have opening : Leads 0 "[" 1 := by decide
      have closing : Leads 1 "]: " 0 := by decide
      exact (Closed.within 1 opening (contributes.argument 0) closing).append
        (contributes.argument 1)
  · exact Closed.append (by decide) (contributes.argument 0)

theorem classUpdate : Closed (renderer.classUpdate call) := by
  rw [Renderer.classUpdate]
  have name := contributes.argument 0
  split
  · exact Closed.within 1 (by decide +kernel) name (by decide +kernel)
  · split
    · rename_i value found
      exact Closed.within 1 (by decide +kernel) (contributes.argument? found) (by decide +kernel)
    · decide
  · dsimp only
    have start : Leads 0 ("(className) => \x7b const names = className.split(' ').filter(Boolean); " ++
        "return names.includes(") 2 := by decide +kernel
    have without : Leads 2 ") ? names.filter((name) => name !== " 2 := by decide +kernel
    have added : Leads 2 ").join(' ') : [...names, " 2 := by decide +kernel
    have stop : Leads 2 "].join(' '); \x7d" 0 := by decide +kernel
    exact ((((start.append (name.leads 2)).append without).append (name.leads 2)).append
      added |>.append (name.leads 2)).append stop

theorem stateValue (facet : Facet) : Closed (renderer.stateValue facet call) := by
  have value := contributes.argument 0
  cases facet with
  | visibility =>
      dsimp only [Renderer.stateValue]
      split
      · decide
      · decide
      · cases found : renderer.argument? call 0 with
        | none => decide
        | some flag => exact contributes.argument? found
  | className => exact contributes.classUpdate
  | style =>
      exact Closed.within 2 (by decide +kernel) contributes.styleMembers (by decide)
  | content => exact value
  | text => exact value
  | value => exact value

theorem stateMutation (selector : String) (facet : Facet) :
    Closed (renderer.stateMutation selector facet call) := by
  have setter := closed_of_isPlain (Identifier.isPlain_setter
    (Identifier.isPlain_state selector facet))
  exact setter.call (contributes.stateValue facet)

section Object

variable {code : String} (closed : Closed code)

include closed

theorem classMutation : Closed (renderer.classMutation code call) := by
  have value := contributes.argument 0
  rw [Renderer.classMutation]
  split
  · exact Closed.within 1 (Leads.append closed (by decide)) value (by decide)
  · split
    · exact closed.append (by decide)
    · exact Closed.within 1 (Leads.append closed (by decide)) value (by decide)
  · exact Closed.within 1 (Leads.append closed (by decide)) value (by decide)

theorem styleMutation : Closed (renderer.styleMutation code call) := by
  have value := contributes.argument 0
  have style := contributes.argument 1
  rw [Renderer.styleMutation]
  split
  · split
    · rename_i property found
      exact (((closed.append (by decide)).append (contributes.literal? found)).append
        (by decide)).append style
    · have closing : Leads 1 "] = " 0 := by decide
      exact (Closed.within 1 (Leads.append closed (by decide)) value closing).append style
  · exact closed_assign closed (by decide) value

theorem objectMutation (facet : Facet) : Closed (renderer.objectMutation code facet call) := by
  have value := contributes.argument 0
  cases facet with
  | visibility =>
      dsimp only [Renderer.objectMutation]
      split
      · exact closed.append (by decide)
      · exact closed.append (by decide)
      · exact ((closed.append (by decide)).append closed).append (by decide)
  | className => exact contributes.classMutation closed
  | style => exact contributes.styleMutation closed
  | content => exact (closed.append (by decide)).append value
  | text => exact (closed.append (by decide)).append value
  | value => exact (closed.append (by decide)).append value

/-! ## Members of elements -/

theorem memberOf : Closed (renderer.memberOf code call) := by
  rw [Renderer.memberOf]
  split
  · rename_i member found
    exact (closed.append (by decide)).append (contributes.literal? found)
  · exact Closed.within 1 (Leads.append closed (by decide)) (contributes.argument 0) (by decide)

end Object

section Element

variable {element : Element} (closed : Closed element.code)

include closed

theorem elementRead : Closed (renderer.elementRead element call) := by
  have access := closed_access closed
  have value := contributes.argument 0
  rw [Renderer.elementRead]
  split
  · exact access.append (by decide)
  · exact access.append (by decide)
  · exact access.append (by decide)
  · exact contributes.memberOf (access.append (by decide))
  · exact Closed.within 1 (Leads.append access (by decide)) value (by decide)
  · split
    · exact access.append (by decide)
    · exact contributes.memberOf (access.append (by decide))
  · have object : Closed (element.code ++ if element.optional then "?." else "") :=
      closed.append (by cases element.optional <;> decide)
    exact Closed.within 1 (Leads.append object (by decide)) value (by decide)

theorem read (target : Target) : Closed (renderer.read target element call) := by
  rw [Renderer.read]
  split
  · rename_i state owned
    exact closed_ownedState? owned
  · exact contributes.elementRead closed

theorem attributeWrite : Closed (renderer.attributeWrite element call) := by
  have access := closed_access closed
  have name := contributes.argument 0
  rw [Renderer.attributeWrite]
  split
  · exact Closed.within 1 (Leads.append access (by decide)) name (by decide)
  · have opening : Leads 0 "delete " 0 := by decide
    exact Closed.within 1 ((opening.append (closed.leads 0)).append (by decide)) name (by decide)
  · rename_i value _ found
    have opening : Leads 0 (element.access ++ "setAttribute(") 1 := Leads.append access (by decide)
    exact Closed.within 1 ((opening.append (name.leads 1)).append (by decide))
      (contributes.argument? found) (by decide)
  · have entries : Leads 0 "Object.entries(" 1 := by decide
    have forEach : Leads 1 ").forEach(([name, value]) => " 1 := by decide
    exact Closed.within 1 ((entries.append (name.leads 1)).append forEach) access (by decide)
  · rename_i value _ found
    exact ((contributes.memberOf (closed.append (by decide))).append (by decide)).append
      (contributes.argument? found)
  · exact closed_assign closed (by decide) name
  · have closing : Leads 1 "] = " 0 := by decide
    exact (Closed.within 1 (Leads.append closed (by decide)) name closing).append
      (contributes.argument? ‹renderer.argument? call 1 = some _›)
  · exact closed_assign closed (by decide) name

theorem trigger (role : call.role = .trigger) : Closed (renderer.trigger element call) := by
  have access := closed_access closed
  have names : ∀ name ∈ "trigger" :: eventMethods, Closed name ∧ Closed ("'" ++ name ++ "'") := by
    decide +kernel
  rw [Renderer.trigger]
  split
  · exact access.append (by decide)
  · exact closed_dispatch access (contributes.argument 0)
  · rcases names _ (name_of_trigger role) with ⟨plain, quoted⟩
    split
    · exact (access.append plain).append (by decide)
    · exact closed_dispatch access quoted

end Element

/-! ## Steps -/

theorem animation (role : call.role = .animation) (isStatement : Bool) :
    Breaks (renderer.animation target isStatement call)
      (if isStatement then renderer.keptBreaks call else 0) := by
  have comment := contributes.comment role
  cases isStatement with
  | false => exact Closed.append (by decide) comment
  | true =>
      rw [if_pos rfl, keptBreaks, if_pos role, animation_statement]
      cases found : afterwards? call with
      | none => exact comment.append closed_empty
      | some function =>
          have kept := Breaks.append (by decide : Closed "\n")
            (contributes.afterwards role function found)
          simpa using Breaks.append comment kept

/-- A step is closed, and only what is kept of the function after an animation has statements of its
own. -/
theorem breaks_step? {element : Element} (closed : Closed element.code) {isStatement : Bool}
    {step : String} (replaced : renderer.step? target element isStatement call = some step) :
    Breaks step (if isStatement then renderer.keptBreaks call else 0) := by
  have quiet : call.role ≠ .animation → Closed step →
      Breaks step (if isStatement then renderer.keptBreaks call else 0) := by
    intro other alone
    rw [keptBreaks, if_neg other, ite_self]
    exact alone
  rw [step?] at replaced
  split at replaced
  · rename_i facet role
    refine quiet (by rw [role]; exact Role.noConfusion) ?_
    split at replaced
    · rw [← Option.some.inj replaced]
      exact contributes.stateMutation _ facet
    · rw [← Option.some.inj replaced]
      exact contributes.objectMutation closed facet
  · rename_i role
    rw [← Option.some.inj replaced] at quiet ⊢
    exact quiet (by rw [role]; exact Role.noConfusion) (contributes.read closed target)
  · rename_i role
    rw [← Option.some.inj replaced] at quiet ⊢
    exact quiet (by rw [role]; exact Role.noConfusion) (contributes.attributeWrite closed)
  · rename_i role
    rw [← Option.some.inj replaced] at quiet ⊢
    exact quiet (by rw [role]; exact Role.noConfusion) (contributes.trigger closed role)
  · rename_i role
    rw [← Option.some.inj replaced]
    exact contributes.animation role isStatement
  · cases replaced
  · cases replaced
  · cases replaced
  · cases replaced

end Contributes

/-! ## Chains -/

/-- A place is the expression of a statement. -/
def isWholeStatement (place : Place) : Bool :=
  (place.parent?.map (·.kind == .expressionStatement)).getD false

theorem breaks_steps {target : Target} {element : Element} {isStatement : Bool}
    (closed : Closed element.code) {calls : List MethodCall}
    (contributes : ∀ call ∈ calls, renderer.Contributes target call) {steps : List String}
    (replaced : calls.mapM (renderer.step? target element isStatement) = some steps) :
    List.Forall₂ Breaks steps
      (calls.map fun call => if isStatement then renderer.keptBreaks call else 0) := by
  have made := (List.forall₂_and_left _ _).mpr ⟨contributes, forall₂_of_mapM replaced⟩
  rw [List.forall₂_map_right_iff]
  exact (made.imp fun call step ⟨contributes, isStep⟩ =>
    contributes.breaks_step? closed isStep).flip

/-- Steps are joined with one statement end between any two, or without any. -/
theorem breaks_joinSteps {first : String} {count : Nat} (head : Breaks first count)
    {rest : List String} {counts : List Nat} (tail : List.Forall₂ Breaks rest counts) :
    Breaks (joinSteps true (first :: rest)) (count + rest.length + counts.sum) ∧
      (rest ≠ [] → Closed (joinSteps false (first :: rest))) := by
  cases tail with
  | nil => exact ⟨by simpa [joinSteps] using head, fun several => absurd rfl several⟩
  | cons next others =>
      have tail := List.Forall₂.cons next others
      have statements := breaks_intercalate (by decide : Breaks ";\n" 1) head tail
      have items := breaks_intercalate (by decide : Closed ", ") head tail
      have opening : Leads 0 "(" 1 := by decide
      rw [Nat.mul_one] at statements
      exact ⟨statements, fun _ => (opening.append (items.leads 0)).append (by decide)⟩

/-- Where a chain is a statement, a statement ends behind each of its steps but the last.  Anywhere
else no statement ends in what replaces it. -/
theorem breaks_chain? {chain : Chain} {head : Place} {text : String}
    (this : ∀ code ∈ renderer.this, Closed code)
    (contributes : ∀ call ∈ chain.calls, renderer.Contributes chain.target call)
    (calls : chain.calls ≠ []) (replaced : renderer.chain? chain head = some text) :
    Breaks text (if isWholeStatement head then
      chain.calls.length - 1 + (chain.calls.map renderer.keptBreaks).sum else 0) := by
  rw [chain?] at replaced
  dsimp only at replaced
  rw [if_neg (by simpa using calls)] at replaced
  change ((chain.calls.mapM (renderer.step? chain.target (renderer.element chain.target)
    (isWholeStatement head))).map (joinSteps (isWholeStatement head))) = some text at replaced
  rcases Option.map_eq_some_iff.mp replaced with ⟨steps, all, rfl⟩
  have breaks := breaks_steps (closed_element this chain.target) contributes all
  rcases List.exists_cons_of_ne_nil calls with ⟨call, rest, split⟩
  rw [split, List.map_cons] at breaks
  rcases List.forall₂_cons_right_iff.mp breaks with ⟨first, others, firstBreaks, otherBreaks, rfl⟩
  rw [split]
  cases whole : isWholeStatement head with
  | true =>
      rw [whole] at firstBreaks otherBreaks
      have length := otherBreaks.length_eq
      rw [List.length_map] at length
      have total : renderer.keptBreaks call + others.length + (rest.map renderer.keptBreaks).sum =
          (call :: rest).length - 1 + ((call :: rest).map renderer.keptBreaks).sum := by
        rw [length, List.length_cons, List.map_cons, List.sum_cons]
        omega
      exact total ▸ (breaks_joinSteps firstBreaks otherBreaks).1
  | false =>
      rw [whole] at firstBreaks otherBreaks
      by_cases single : others = []
      · rw [single]
        exact firstBreaks
      · exact (breaks_joinSteps firstBreaks otherBreaks).2 single

/-- No statement ends in what replaces a chain, unless the chain is a statement itself and has
several calls, or keeps several statements of a function that would run after an animation. -/
theorem closed_chain?_iff {chain : Chain} {head : Place} {text : String}
    (this : ∀ code ∈ renderer.this, Closed code)
    (contributes : ∀ call ∈ chain.calls, renderer.Contributes chain.target call)
    (calls : chain.calls ≠ []) (replaced : renderer.chain? chain head = some text) :
    Closed text ↔ (isWholeStatement head = true →
      chain.calls.length = 1 ∧ ∀ call ∈ chain.calls, renderer.keptBreaks call = 0) := by
  have breaks := breaks_chain? this contributes calls replaced
  have atLeastOne := List.length_pos_iff.mpr calls
  constructor
  · intro closed whole
    rw [whole, if_pos rfl] at breaks
    have none := breaks.unique closed
    refine ⟨by omega, List.forall_mem_map.mp (List.sum_eq_zero_iff_forall_eq_nat.mp ?_)⟩
    omega
  · intro one
    cases whole : isWholeStatement head with
    | false =>
        rw [whole] at breaks
        exact breaks
    | true =>
        rcases one whole with ⟨single, quiet⟩
        have sum := List.sum_eq_zero_iff_forall_eq_nat.mpr (List.forall_mem_map.mpr quiet)
        rw [whole, if_pos rfl, single, sum] at breaks
        exact breaks

/-- In the body of a conditional, a chain of two calls becomes two statements. -/
theorem not_closed_chain?_of_two_calls :
    let tree := parse "if (ready) $('#msg').text('Hi').show();"
    let facts := Facts.ofTree tree
    let renderer := Renderer.of facts none
    ∃ head ∈ (Place.ofRoot tree).walk, ∃ chain text, facts.chain? head = some chain ∧
      renderer.chain? chain head = some text ∧ ¬ Closed text := by
  intro tree facts renderer
  have run : ((Place.ofRoot tree).walk.any fun head => (facts.chain? head).any fun chain =>
      isWholeStatement head && chain.calls.length == 2 && (renderer.chain? chain head).isSome &&
        decide (∀ call ∈ chain.calls, renderer.Contributes chain.target call)) = true := by
    decide +kernel
  rcases List.any_eq_true.mp run with ⟨head, inside, found⟩
  rcases (Option.any_eq_true _ _).mp found with ⟨chain, chained, checks⟩
  simp only [Bool.and_eq_true, decide_eq_true_eq, beq_iff_eq] at checks
  rcases checks with ⟨⟨⟨whole, two⟩, replaced⟩, contributes⟩
  rcases Option.isSome_iff_exists.mp replaced with ⟨text, replaced⟩
  have calls : chain.calls ≠ [] := fun none => by simp [none] at two
  refine ⟨head, inside, chain, text, chained, replaced, ?_⟩
  have this : ∀ code ∈ renderer.this, Closed code := fun code impossible => by cases impossible
  intro closed
  have single := ((closed_chain?_iff this contributes calls replaced).mp closed whole).1
  omega

/-- Only the first step stays in the body when the result is read again. -/
theorem not_one_statement_of_two_calls :
    let tree := parse "if (ready) $('#msg').text('Hi').show();"
    let rendered := (Renderer.of (Facts.ofTree tree) none).render (Place.ofRoot tree)
    rendered = "if (ready) setMsgText('Hi');\nsetMsgVisible(true);" ∧
      (Place.ofRoot (parse rendered)).children.map (·.text) =
        ["if (ready) setMsgText('Hi');", "setMsgVisible(true);"] := by
  decide +kernel

end Renderer
end Hookify
