import Hookify.Proofs.Conversion.Code
import Hookify.Proofs.Output.Items
import Hookify.Proofs.Text.Frames

namespace Hookify

open Script Selection

/-!
# Asynchronous functions and generators

A function of the script may use `await` if it is asynchronous, and `yield` if it
is a generator.  Its body is taken over into a function that is written anew: a
handler, a function of the component, or a callback of a request.  Each of the
three is written by rules of its own.

A function of the component is asynchronous if the function of the script is, or
makes a request.  Handlers and callbacks are always plain arrow functions, and
nothing that is written is a generator.
-/

/-- What a function may do in its body beside what every function may. -/
structure Flavor where
  isAsync : Bool
  isGenerator : Bool
  deriving Repr, DecidableEq

/-- Whatever the second function may do, the first may too. -/
def Flavor.Covers (emitted source : Flavor) : Prop :=
  (source.isAsync = true → emitted.isAsync = true) ∧
    (source.isGenerator = true → emitted.isGenerator = true)

instance (emitted source : Flavor) : Decidable (emitted.Covers source) :=
  inferInstanceAs (Decidable (_ ∧ _))

/-! ## Functions of the script -/

/-- The flavor of a function of the script.  The sign that makes a method a generator is a token of
the method itself. -/
def Script.Place.flavor (function : Place) : Flavor where
  isAsync := Pass.isDeclaredAsync function
  isGenerator :=
    match function.kind with
    | .generatorFunction | .generatorFunctionDeclaration => true
    | .methodDefinition => function.node.parts.any fun
        | .text source => source.toList.contains '*'
        | .child _ => false
    | _ => false

/-! ## Functions in the generated code -/

/-- The flavor that the text of a function begins with. -/
def flavorOf (text : String) : Flavor :=
  let isAsync := "async ".toList.isPrefixOf text.toList
  let rest := if isAsync then text.toList.drop 6 else text.toList
  ⟨isAsync, "function*".toList.isPrefixOf rest⟩

theorem flavorOf_arrow (rest : String) : flavorOf ("(" ++ rest) = ⟨false, false⟩ := by
  rw [flavorOf, String.toList_append]
  rfl

theorem flavorOf_keyword (isAsync : Bool) (rest : String) :
    flavorOf ((if isAsync then "async function " else "function ") ++ rest) = ⟨isAsync, false⟩ := by
  rw [flavorOf, String.toList_append]
  cases isAsync <;> rfl

namespace Output

/-- The line that an item begins with, if it is code of a fixed form. -/
def Item.opening : Item → String
  | .line text => text
  | .block opening _ _ => opening
  | _ => ""

theorem exists_opening_braces (head body closing : String) :
    ∃ rest, (braces head body closing).opening = head ++ rest := by
  rw [braces]
  split
  · exact ⟨"\x7b" ++ closing, String.append_assoc⟩
  · exact ⟨"\x7b", rfl⟩

end Output

/-! ## Callbacks of requests -/

namespace Request

/-- A callback of a request, with the method that continues the request and the usual name of the
parameter. -/
structure Callback where
  method : String
  usual : Option String
  function : Place

/-- The callbacks of a request. -/
def callbacks (request : Request) : List Callback :=
  (request.success.map (Callback.mk "then" (some "data"))).toList ++
    (request.error.map (Callback.mk "catch" (some "error"))).toList ++
      (request.complete.map (Callback.mk "finally" none)).toList

namespace Callback

/-- The callback is written as a function, and not only named. -/
def isFunction (callback : Callback) : Bool :=
  callback.function.kind.isFunctionLike || callback.function.kind == .methodDefinition

/-- The parameter of the function that a callback becomes, if it has one. -/
def parameter (callback : Callback) : String :=
  match callback.usual with
  | none => ""
  | some usual => (firstParameter? (parametersText callback.function)).getD usual

def parameters (callback : Callback) : String :=
  "(" ++ callback.parameter ++ ")"

end Callback

end Request

namespace Renderer

/-- A callback that is written as a function becomes an arrow function. -/
theorem exists_callback_eq (renderer : Renderer) {callback : Request.Callback}
    (isFunction : callback.isFunction = true) :
    ∃ rest, renderer.callback callback.usual callback.function =
      callback.parameters ++ (" => \x7b" ++ rest) := by
  have written : ¬ (! callback.function.kind.isFunctionLike &&
      callback.function.kind != .methodDefinition) = true := by
    rw [Request.Callback.isFunction] at isFunction
    cases function : callback.function.kind.isFunctionLike with
    | true => exact Bool.false_ne_true
    | false =>
        rw [function, Bool.false_or] at isFunction
        rw [beq_iff_eq.mp isFunction]
        exact Bool.false_ne_true
  have empty : ") => \x7b\x7d" = ")" ++ (" => \x7b" ++ "\x7d") := rfl
  have opened : ") => \x7b\n" = ")" ++ (" => \x7b" ++ "\n") := rfl
  unfold Renderer.callback Request.Callback.parameters Request.Callback.parameter
  rw [if_neg written, empty, opened]
  dsimp only
  split
  · exact ⟨"\x7d", (String.append_assoc).symm⟩
  · have shape : ∀ front body : String, front ++ (")" ++ (" => \x7b" ++ "\n")) ++ body ++ "\n\x7d" =
        front ++ ")" ++ (" => \x7b" ++ ("\n" ++ (body ++ "\n\x7d"))) := by
      intro front body
      simp only [String.append_assoc]
    exact ⟨_, shape _ _⟩

/-- What calls a callback, up to the body of the function that it becomes. -/
def callbackHead (callback : Request.Callback) : String :=
  "." ++ callback.method ++ "(" ++ callback.parameters

/-- The function that a callback becomes follows without a word before it. -/
theorem occursIn_continuation (renderer : Renderer) {callback : Request.Callback}
    (isFunction : callback.isFunction = true)
    (isInline : Text.IsInline callback.parameters.toList) :
    Text.occursIn (callbackHead callback)
      (renderer.continuation callback.method callback.usual callback.function) = true := by
  obtain ⟨rest, same⟩ := exists_callback_eq renderer isFunction
  obtain ⟨after, begins⟩ := isInline.exists_indentContinuation_eq "  ".toList
    (" => \x7b" ++ rest).toList
  have indented : Text.indentContinuation "  " (callback.parameters ++ (" => \x7b" ++ rest)) =
      callback.parameters ++ String.ofList after := by
    rw [← String.toList_inj, Text.indentContinuation, Text.toList_overChars, String.toList_append,
      begins, String.toList_append, String.toList_ofList]
  rw [continuation, same, indented, callbackHead, Text.occursIn_iff]
  exact ⟨"\n  ".toList, after ++ [')'], by simp⟩

/-- The code of a request has its callbacks. -/
theorem occursIn_fetch (renderer : Renderer) {request : Request} {callback : Request.Callback}
    (among : callback ∈ request.callbacks) :
    Text.occursIn (renderer.continuation callback.method callback.usual callback.function)
      (renderer.fetch request) = true := by
  simp only [Request.callbacks, List.mem_append, Option.mem_toList, Option.map_eq_some_iff] at among
  rw [fetch]
  rcases among with (⟨place, found, rfl⟩ | ⟨place, found, rfl⟩) | ⟨place, found, rfl⟩
  · rw [found]
    exact Text.occursIn_append_left (Text.occursIn_append_left
      (Text.occursIn_append_right (Text.occursIn_self _) _) _) _
  · rw [found]
    exact Text.occursIn_append_left (Text.occursIn_append_right (Text.occursIn_self _) _) _
  · rw [found]
    exact Text.occursIn_append_right (Text.occursIn_self _) _

end Renderer

theorem isParameterPart_of_firstParameter? {parameters name : String}
    (found : firstParameter? parameters = some name) :
    ∀ c ∈ name.toList, isParameterPart c = true := by
  rw [firstParameter?] at found
  split at found
  · rename_i plain
    rw [Bool.and_eq_true] at plain
    rw [← Option.some.inj found, String.toList_ofList]
    exact List.all_eq_true.mp plain.2
  · cases found

theorem isFirm_of_isParameterPart {c : Char} (part : isParameterPart c = true) :
    Text.IsFirm c := by
  rw [isParameterPart, Bool.or_eq_true, Bool.or_eq_true, beq_iff_eq, beq_iff_eq] at part
  have nameChar : Identifier.IsNameChar c ∨ c = '$' := by
    rcases part with (word | underscore) | dollar
    · exact .inl (.inl word)
    · exact .inl (.inr underscore)
    · exact .inr dollar
  rcases nameChar with nameChar | rfl
  · refine ⟨nameChar.isBlank_eq, ?_, ?_, ?_⟩ <;>
    · rintro rfl
      exact absurd nameChar (by decide)
  · decide

namespace Request

variable {request : Request} {callback : Callback}

/-- The methods that take callbacks have plain names, and so have the usual parameters. -/
theorem isParameterPart_of_callbacks (among : callback ∈ request.callbacks) :
    (∀ c ∈ callback.method.toList, isParameterPart c = true) ∧
      ∀ usual ∈ callback.usual, ∀ c ∈ usual.toList, isParameterPart c = true := by
  simp only [callbacks, List.mem_append, Option.mem_toList, Option.map_eq_some_iff] at among
  rcases among with (⟨place, found, rfl⟩ | ⟨place, found, rfl⟩) | ⟨place, found, rfl⟩
  · refine ⟨(List.all_eq_true (l := "then".toList)).mp (by decide), ?_⟩
    rintro _ ⟨⟩
    exact List.all_eq_true.mp rfl
  · refine ⟨(List.all_eq_true (l := "catch".toList)).mp (by decide), ?_⟩
    rintro _ ⟨⟩
    exact List.all_eq_true.mp rfl
  · refine ⟨(List.all_eq_true (l := "finally".toList)).mp (by decide), ?_⟩
    rintro _ ⟨⟩

theorem isParameterPart_of_parameter (among : callback ∈ request.callbacks) :
    ∀ c ∈ callback.parameter.toList, isParameterPart c = true := by
  obtain ⟨_, usual⟩ := isParameterPart_of_callbacks among
  rw [Callback.parameter]
  cases wanted : callback.usual with
  | none => exact List.all_eq_true.mp rfl
  | some name =>
      dsimp only
      cases found : firstParameter? (parametersText callback.function) with
      | none => exact usual name wanted
      | some first => exact isParameterPart_of_firstParameter? found

/-- A parameter is a plain name, so that nothing takes apart what calls a callback. -/
theorem isSolid_callbackHead (among : callback ∈ request.callbacks) :
    Text.IsSolid (Renderer.callbackHead callback).toList := by
  obtain ⟨method, _⟩ := isParameterPart_of_callbacks among
  have parameter := isParameterPart_of_parameter among
  have dot : Text.IsFirm '.' := by decide
  have opening : Text.IsFirm '(' := by decide
  have closing : Text.IsFirm ')' := by decide
  have shape : (Renderer.callbackHead callback).toList =
      '.' :: (callback.method.toList ++ '(' :: '(' :: (callback.parameter.toList ++ [')'])) := by
    simp [Renderer.callbackHead, Callback.parameters]
  have firm : ∀ c ∈ (Renderer.callbackHead callback).toList, Text.IsFirm c := by
    rw [shape]
    simp only [List.mem_cons, List.mem_append, List.not_mem_nil, or_false]
    rintro c (rfl | inMethod | rfl | rfl | inName | rfl)
    · exact dot
    · exact isFirm_of_isParameterPart (method c inMethod)
    · exact opening
    · exact opening
    · exact isFirm_of_isParameterPart (parameter c inName)
    · exact closing
  exact ⟨by simp [shape], fun c member => (firm c member).1,
    fun c member => ⟨(firm c member).2.1, (firm c member).2.2.1⟩⟩

theorem isInline_parameters (among : callback ∈ request.callbacks) :
    Text.IsInline callback.parameters.toList := by
  have shape : callback.parameters.toList = '(' :: (callback.parameter.toList ++ [')']) := by
    simp [Callback.parameters]
  rw [shape]
  refine ⟨⟨⟨'(', _, rfl, by decide⟩, ⟨'(' :: callback.parameter.toList, ')', rfl, by decide⟩⟩, ?_⟩
  have parameter := isParameterPart_of_parameter among
  simp only [List.mem_cons, List.mem_append, List.not_mem_nil, or_false]
  rintro (same | inName | same)
  · cases same
  · exact absurd (parameter _ inName) (by decide)
  · cases same

end Request

theorem kind_of_request? {facts : Facts} {place : Place} {request : Request}
    (makes : facts.request? place = some request) : place.kind = .callExpression := by
  have isCall : ∀ fuel, facts.requestFrom? fuel place = some request →
      place.kind = .callExpression := by
    intro fuel found
    cases fuel with
    | zero => cases found
    | succ fuel =>
        rw [Facts.requestFrom?] at found
        split at found
        · rename_i root isRoot
          simp only [Facts.rootRequest?, Option.bind_eq_bind, Option.bind_eq_some_iff,
            Option.guard_eq_some', beq_iff_eq] at isRoot
          exact isRoot.choose_spec.1
        · simp only [Facts.continuation?, Option.bind_eq_bind, Option.bind_eq_some_iff,
            Option.guard_eq_some', beq_iff_eq] at found
          obtain ⟨_, ⟨_, isCall, _⟩, _⟩ := found
          exact isCall
  exact isCall _ makes

/-! ## What a component emits -/

/-- What a function of the script becomes. -/
inductive FunctionRole where
  | handler
  | definition
  | callback
  deriving Repr, DecidableEq

/-- The generated function is asynchronous. -/
def FunctionRole.isAsync (facts : Facts) (function : Place) : FunctionRole → Bool
  | .definition =>
      Pass.isDeclaredAsync function || facts.containsRequest ((function.child? .body).getD function)
  | .handler | .callback => false

namespace Component

/-- The code of a component has a function with the given text in place of a function of the
script. -/
inductive Emits (component : Component) (facts : Facts) : FunctionRole → Place → String → Prop where
  | handler {entry : Target × Pass.Binding} {function : Place} {handler : Handler} {text : String}
      (binds : entry ∈ Pass.eventBindings facts)
      (made : (Pass.handlerSource facts entry.2.handler).function? = some function)
      (isHandler : Pass.MadeFor facts entry handler)
      (listed : Output.handler handler ∈ Output.body component)
      (written : (Output.handler handler).opening = "const " ++ handler.name ++ " = " ++ text) :
      Emits component facts .handler function text
  | definition {name : String} {function : Place}
      (defined : (name, function) ∈ facts.statements.flatMap definedFunctions)
      (listed : Output.function (Pass.asFunction facts name function) ∈ Output.body component) :
      Emits component facts .definition function
        (Output.function (Pass.asFunction facts name function)).opening
  | callback {this : Option String} {place : Place} {request : Request}
      {callback : Request.Callback} (shown : component.Shows facts this place)
      (makes : facts.request? place = some request) (among : callback ∈ request.callbacks)
      (isFunction : callback.isFunction = true) :
      Emits component facts .callback callback.function
        ((Renderer.of facts this).callback callback.usual callback.function)

section Emits

variable {component : Component} {facts : Facts} {role : FunctionRole} {function : Place}
  {text : String}

/-- What is written for a function tells its flavor, whatever the function is. -/
theorem Emits.flavorOf_eq (emits : component.Emits facts role function text) :
    flavorOf text = ⟨role.isAsync facts function, false⟩ := by
  cases emits with
  | @handler entry function handler text binds made isHandler listed written =>
      obtain ⟨rest, opening⟩ := Output.exists_opening_braces
        ("const " ++ handler.name ++ " = (" ++ handler.parameters ++ ") => ") handler.body "\x7d;"
      have shape : "const " ++ handler.name ++ " = " ++ text = "const " ++ handler.name ++ " = " ++
          ("(" ++ (handler.parameters ++ ") => " ++ rest)) := by
        rw [← written, Output.handler, opening]
        have sign : " = (" = " = " ++ "(" := rfl
        simp only [sign, String.append_assoc]
      rw [(String.append_right_inj _).mp shape]
      exact flavorOf_arrow _
  | @definition name function defined listed =>
      obtain ⟨rest, opening⟩ := Output.exists_opening_braces
        ((if (Pass.asFunction facts name function).isAsync then "async function "
          else "function ") ++ (Pass.asFunction facts name function).name ++ "(" ++
            (Pass.asFunction facts name function).parameters ++ ") ")
        (Pass.asFunction facts name function).body "\x7d"
      rw [Output.function, opening]
      simp only [String.append_assoc]
      exact flavorOf_keyword _ _
  | callback shown makes among isFunction =>
      obtain ⟨rest, same⟩ := Renderer.exists_callback_eq _ isFunction
      rw [same, Request.Callback.parameters]
      simp only [String.append_assoc]
      exact flavorOf_arrow _

/-- Handlers and callbacks may be made of plain functions only, and functions of the component of
all but generators. -/
theorem Emits.covers_iff (emits : component.Emits facts role function text) :
    (flavorOf text).Covers function.flavor ↔
      function.flavor.isGenerator = false ∧
        (role = .definition ∨ function.flavor.isAsync = false) := by
  rw [emits.flavorOf_eq, Flavor.Covers, and_comm]
  refine and_congr ?_ ?_
  · cases function.flavor.isGenerator <;> simp
  · have declared : function.flavor.isAsync = Pass.isDeclaredAsync function := rfl
    cases role with
    | definition =>
        simp only [FunctionRole.isAsync, declared, true_or, iff_true, Bool.or_eq_true]
        exact .inl
    | handler | callback => cases function.flavor.isAsync <;> simp [FunctionRole.isAsync]

end Emits

end Component

/-! ## Where functions are emitted -/

section Emitted

variable (document : Document) (settings : Settings) {tree : Node}

/-- A function that is bound to an event becomes a handler. -/
theorem exists_emits_handler {entry : Target × Pass.Binding} {function : Place}
    (binds : entry ∈ Pass.eventBindings (Facts.ofTree tree))
    (made : (Pass.handlerSource (Facts.ofTree tree) entry.2.handler).function? = some function) :
    ∃ text, (document.componentOf settings tree).Emits (Facts.ofTree tree) .handler function
      text := by
  obtain ⟨handler, member, isHandler⟩ := exists_handler_of_function? document settings tree binds made
  obtain ⟨rest, opening⟩ := Output.exists_opening_braces
    ("const " ++ handler.name ++ " = (" ++ handler.parameters ++ ") => ") handler.body "\x7d;"
  refine ⟨"(" ++ (handler.parameters ++ ") => " ++ rest),
    .handler binds made isHandler (Output.mem_body_of_handler member) ?_⟩
  have sign : " = (" = " = " ++ "(" := rfl
  rw [Output.handler, opening, sign]
  simp only [String.append_assoc]

/-- A function of the component is made of a function that a scope defines. -/
theorem exists_emits_definition {definition : NamedFunction}
    (member : definition ∈ (document.componentOf settings tree).functions) :
    ∃ name function, (name, function) ∈ (Facts.ofTree tree).statements.flatMap definedFunctions ∧
      definition = Pass.asFunction (Facts.ofTree tree) name function ∧
        (document.componentOf settings tree).Emits (Facts.ofTree tree) .definition function
          (Output.function definition).opening := by
  obtain ⟨name, function, defined, _, rfl⟩ :=
    Pass.functions_runAll (document.blank_draft settings).functions definition member
  exact ⟨name, function, defined, rfl, .definition defined (Output.mem_body_of_function member)⟩

end Emitted

/-- Every function that is bound to an event is written as a handler, every function of the component
is made of a function of the script, and where a request is shown its callbacks are written as
functions.  What is written is never a generator, and asynchronous only if it is a function of the
component; so the flavor of the function in the script is kept exactly if that is no generator and,
for handlers and callbacks, not asynchronous. -/
theorem emitted_flavor_iff (document : Document) (settings : Settings) (tree : Node) :
    let facts := Facts.ofTree tree
    let component := document.componentOf settings tree
    (∀ entry ∈ Pass.eventBindings facts, ∀ function,
      (Pass.handlerSource facts entry.2.handler).function? = some function →
        ∃ text, component.Emits facts .handler function text) ∧
      (∀ definition ∈ component.functions, ∃ name function,
        definition = Pass.asFunction facts name function ∧
          component.Emits facts .definition function (Output.function definition).opening) ∧
      (∀ this place request, component.Shows facts this place →
        facts.request? place = some request → ∀ callback ∈ request.callbacks,
          callback.isFunction = true →
            component.HasCode (Renderer.callbackHead callback) ∧
              component.Emits facts .callback callback.function
                ((Renderer.of facts this).callback callback.usual callback.function)) ∧
      ∀ role function text, component.Emits facts role function text →
        flavorOf text = ⟨role.isAsync facts function, false⟩ ∧
          ((flavorOf text).Covers function.flavor ↔
            function.flavor.isGenerator = false ∧
              (role = .definition ∨ function.flavor.isAsync = false)) := by
  intro facts component
  refine ⟨?_, ?_, ?_, ?_⟩
  · intro entry binds function made
    exact exists_emits_handler document settings binds made
  · intro definition member
    obtain ⟨name, function, _, same, emits⟩ := exists_emits_definition document settings member
    exact ⟨name, function, same, emits⟩
  · intro this place request shown makes callback among isFunction
    have solid := Request.isSolid_callbackHead among
    have replaced : (Renderer.of facts this).idiom? place =
        some ((Renderer.of facts this).fetch request) := by
      have same : (Renderer.of facts this).facts.request? place = some request := makes
      rw [Renderer.idiom?_of_call (kind_of_request? makes), Renderer.call?, same]
    have occurs := Text.occursIn_trans
      (Renderer.occursIn_continuation (Renderer.of facts this) isFunction
        (Request.isInline_parameters among))
      (Renderer.occursIn_fetch (Renderer.of facts this) among)
    exact ⟨shown.hasCode_of_idiom solid replaced occurs, .callback shown makes among isFunction⟩
  · intro role function text emits
    exact ⟨emits.flavorOf_eq, emits.covers_iff⟩

/-- An asynchronous function becomes a handler that is not asynchronous, but awaits as before. -/
theorem not_covers_of_async_handler :
    let document := Document.new "$('#a').click(async function (e) \x7b await save(e); \x7d);"
      ⟨"save.js"⟩
    let tree := parse document.script
    let facts := Facts.ofTree tree
    let component := document.componentOf {} tree
    component.handlers.map (·.body) = ["await save(e);"] ∧
      ∃ function text, component.Emits facts .handler function text ∧
        function.flavor = ⟨true, false⟩ ∧ ¬ (flavorOf text).Covers function.flavor := by
  intro document tree facts component
  have run : component.handlers.map (·.body) = ["await save(e);"] ∧
      findsHandled facts (fun _ function => function.flavor == ⟨true, false⟩) = true := by
    decide +kernel
  obtain ⟨bodies, finds⟩ := run
  obtain ⟨entry, binds, function, made, same⟩ := exists_of_findsHandled finds
  have flavor := beq_iff_eq.mp same
  obtain ⟨text, emits⟩ := exists_emits_handler document {} binds made
  refine ⟨bodies, function, text, emits, flavor, ?_⟩
  rw [emits.covers_iff, flavor]
  decide

/-- A generator becomes a function that is none, but yields as before. -/
theorem not_covers_of_generator :
    let document := Document.new "function* numbers() \x7b yield 1; \x7d" ⟨"numbers.js"⟩
    let tree := parse document.script
    let facts := Facts.ofTree tree
    let component := document.componentOf {} tree
    component.functions.map (·.body) = ["yield 1;"] ∧
      ∃ function text, component.Emits facts .definition function text ∧
        function.flavor = ⟨false, true⟩ ∧ ¬ (flavorOf text).Covers function.flavor := by
  intro document tree facts component
  have run : component.functions.map (·.body) = ["yield 1;"] ∧
      (facts.statements.flatMap definedFunctions).all
        (fun defined => defined.2.flavor == ⟨false, true⟩) = true := by
    decide +kernel
  obtain ⟨bodies, all⟩ := run
  have some : component.functions ≠ [] := by
    intro none
    rw [none] at bodies
    cases bodies
  obtain ⟨definition, member⟩ := List.exists_mem_of_ne_nil _ some
  obtain ⟨name, function, defined, _, emits⟩ := exists_emits_definition document {} member
  have flavor := beq_iff_eq.mp (List.all_eq_true.mp all _ defined)
  refine ⟨bodies, function, _, emits, flavor, ?_⟩
  rw [emits.covers_iff, flavor]
  decide

end Hookify
