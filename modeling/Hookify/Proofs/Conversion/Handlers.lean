import Hookify.Proofs.Conversion.Events
import Hookify.Proofs.Pass.Sources
import Hookify.Proofs.Renderer.Lexical

namespace Hookify

open Script Selection

/-!
# `this` in handlers

A function that handles an event refers to the element by `this`.  The handler
that is made from it has a parameter for the event, and takes the element from
there.

This is right if three things come together.  The expression stands wherever
`this` was the function's own, and nowhere else.  The handler does have the
parameter.  And no function inside, written in the script or generated for an
idiom, has a parameter of the same name, which would be meant instead.

The conversion does not see to all of that.  It takes over the body of a callback
although the callback binds `this` anew; it assumes a name for the event if the
first parameter is no plain name; it does not look at the names of other
parameters; and the method of a request goes into the code unrendered.
-/

/-! ## Parameters -/

/-- The names that a pattern binds, up to a depth. -/
def patternNames : Nat → Place → List String
  | 0, _ => []
  | depth + 1, pattern =>
      match pattern.kind with
      | .identifier | .shorthandPropertyIdentifierPattern => [pattern.text]
      | .assignmentPattern | .objectAssignmentPattern =>
          ((pattern.child? .left).map (patternNames depth)).getD []
      | .pairPattern => ((pattern.child? .value).map (patternNames depth)).getD []
      | _ => pattern.contents.flatMap (patternNames depth)

/-- The names of the parameters of a function. -/
def parameterNames (function : Place) : List String :=
  match (function.child? .parameter).or (function.child? .parameters) with
  | some parameters => patternNames parameters.node.size parameters
  | none => []

/-- The list begins with a parameter that is only a name. -/
def BeginsWith (parameters name : String) : Prop :=
  ∃ before after rest, parameters.toList = before ++ name.toList ++ after ++ rest ∧
    Text.isBlankChars before = true ∧ Text.isBlankChars after = true ∧
    (rest = [] ∨ rest.head? = some ',')

theorem exists_eq_dropWhile (chars : List Char) :
    ∃ before, chars = before ++ chars.dropWhile Text.isBlank ∧ Text.isBlankChars before = true := by
  refine ⟨chars.takeWhile Text.isBlank, List.takeWhile_append_dropWhile.symm, ?_⟩
  exact List.all_eq_true.mpr fun _ member => List.mem_takeWhile_imp member

theorem exists_eq_trimChars (chars : List Char) :
    ∃ before after, chars = before ++ Text.trimChars chars ++ after ∧
      Text.isBlankChars before = true ∧ Text.isBlankChars after = true := by
  obtain ⟨before, front, blank⟩ := exists_eq_dropWhile chars
  obtain ⟨behind, back, alsoBlank⟩ := exists_eq_dropWhile (Text.trimStartChars chars).reverse
  refine ⟨before, behind.reverse, ?_, blank, ?_⟩
  · have turned := congrArg List.reverse back
    rw [List.reverse_reverse, List.reverse_append] at turned
    rw [List.append_assoc]
    exact front.trans (congrArg (before ++ ·) turned)
  · rw [Text.isBlankChars, List.all_reverse]
    exact alsoBlank

theorem beginsWith_of_firstParameter? {parameters name : String}
    (found : firstParameter? parameters = some name) : BeginsWith parameters name := by
  rw [firstParameter?] at found
  split at found
  · obtain ⟨before, after, same, blank, alsoBlank⟩ :=
      exists_eq_trimChars (parameters.toList.takeWhile (· != ','))
    refine ⟨before, after, parameters.toList.dropWhile (· != ','), ?_, blank, alsoBlank, ?_⟩
    · rw [← Option.some.inj found, String.toList_ofList, ← same, List.takeWhile_append_dropWhile]
    · cases rest : parameters.toList.dropWhile (· != ',') with
      | nil => exact .inl rfl
      | cons sign others =>
          have stops := List.head?_dropWhile_not (· != ',') parameters.toList
          rw [rest] at stops
          exact .inr (congrArg some (by simpa using stops))
  · cases found

namespace Facts

/-- The parameter of the arrow function that a callback becomes. -/
def callbackParameter (usual : String) (callback : Option Place) : Option String :=
  (callback.filter fun place => place.kind.isFunctionLike || place.kind == .methodDefinition).map
    fun function => (firstParameter? (parametersText function)).getD usual

/-- The parameters of the functions that are generated around parts of a call. -/
def generatedParameters (facts : Facts) (call : Place) : List String :=
  match facts.request? call with
  | some request =>
      (callbackParameter "data" request.success).toList ++
        (callbackParameter "error" request.error).toList
  | none =>
      match facts.chain? call with
      | some chain => chain.calls.flatMap fun step =>
          match step.role with
          | .mutation .className => ["className", "name"]
          | .mutation .style => ["style"]
          | .attributeWrite => ["name", "value"]
          | _ => []
      | none => []

/-- The parameters of the arrow functions that the code for a place has around parts of it. -/
def innerParameters (facts : Facts) (place : Place) : List String :=
  match place.kind with
  | .callExpression => facts.generatedParameters place
  | .assignmentExpression | .augmentedAssignmentExpression | .updateExpression =>
      ((Renderer.assignment? place).map (·.1.text)).toList.filter facts.isReactiveVariable
  | .arrowFunction => parameterNames place
  | _ => []

/-- The expressions of a call that go into its code as they stand. -/
def copied (facts : Facts) (call : Place) : List Place :=
  match facts.request? call with
  | some request => (request.method.filter (·.kind != .string)).toList
  | none => []

end Facts

namespace Pass

/-! ## Handlers that are made from functions -/

/-- The function that a handler is made from. -/
def HandlerSource.function? : HandlerSource → Option Place
  | .inline function | .claimed _ function => some function
  | .called _ | .notCallable => none

/-- The parameters of a handler that is made from a function. -/
def handlerParameters (function : Place) : String :=
  if (parametersText function).isEmpty then "event" else parametersText function

/-- The name that a handler has for its event. -/
def eventName (function : Place) : String :=
  (firstParameter? (handlerParameters function)).getD "event"

/-- The element that an event is handled for. -/
def eventElement (delegate : Option String) (event : String) : String :=
  match delegate with
  | some child => event ++ ".target.closest(" ++ Text.quote child ++ ")"
  | none => event ++ ".currentTarget"

theorem handlerParts?_of_function? {facts : Facts} {source : HandlerSource} {function : Place}
    (made : source.function? = some function) (delegate : Option String) :
    handlerParts? facts delegate source =
      some (handlerParameters function, (Renderer.of facts
        (some (eventElement delegate (eventName function)))).functionBody function) := by
  cases source with
  | inline place | claimed _ place => cases made; rfl
  | called _ | notCallable => cases made

theorem mem_walk_of_function? {tree : Node} {entry : Target × Binding} {function : Place}
    (binds : entry ∈ eventBindings (Facts.ofTree tree))
    (made : (handlerSource (Facts.ofTree tree) entry.2.handler).function? = some function) :
    function ∈ (Facts.ofTree tree).root.walk := by
  cases source : handlerSource (Facts.ofTree tree) entry.2.handler with
  | inline place =>
      rw [source] at made
      cases made
      exact handlerSource_eq_inline source ▸ mem_walk_of_eventBindings binds
  | claimed name place =>
      rw [source] at made
      cases made
      have defined := Facts.mem_definedFunctions_of_function? (handlerSource_eq_claimed source).1
      obtain ⟨statement, member, defines⟩ := List.mem_flatMap.mp defined
      exact Place.mem_walk_trans (Facts.mem_walk_of_statements member)
        (mem_walk_of_definedFunctions defines).1
  | called _ | notCallable =>
      rw [source] at made
      cases made

/-- The event can stand for `this` in a function. -/
structure EventStandsForThis (facts : Facts) (function : Place) : Prop where
  /-- The first parameter, if there is one, is a plain name. -/
  named : (firstParameter? (handlerParameters function)).isSome = true
  /-- Callbacks of which only the bodies are taken over are arrow functions. -/
  arrows : ∀ inner ∈ function.walk, ∀ callback ∈ facts.takenOver inner,
    callback.kind.isPlainFunction = false
  /-- No arrow function inside has a parameter with the name of the event. -/
  fresh : ∀ inner ∈ function.inside, eventName function ∉ facts.innerParameters inner
  /-- What goes into the code as it stands has no `this`. -/
  rendered : ∀ inner ∈ function.walk, ∀ expression ∈ facts.copied inner,
    ∀ place ∈ expression.walk, place.kind ≠ .this

instance (facts : Facts) (function : Place) : Decidable (EventStandsForThis facts function) :=
  decidable_of_iff ((firstParameter? (handlerParameters function)).isSome = true ∧
      (∀ inner ∈ function.walk, ∀ callback ∈ facts.takenOver inner,
        callback.kind.isPlainFunction = false) ∧
      (∀ inner ∈ function.inside, eventName function ∉ facts.innerParameters inner) ∧
      ∀ inner ∈ function.walk, ∀ expression ∈ facts.copied inner,
        ∀ place ∈ expression.walk, place.kind ≠ .this)
    ⟨fun ⟨named, arrows, fresh, rendered⟩ => ⟨named, arrows, fresh, rendered⟩,
      fun ⟨named, arrows, fresh, rendered⟩ => ⟨named, arrows, fresh, rendered⟩⟩

/-- In a handler, `this` has been replaced by the element of the event. -/
structure ReplacesThis (facts : Facts) (delegate : Option String) (function : Place)
    (handler : Handler) : Prop where
  /-- The handler has a parameter for the event. -/
  parameter : BeginsWith handler.parameters (eventName function)
  /-- Where no function that binds `this` lies between, the element stands for `this`, and `this`
  stays everywhere else. -/
  body : handler.body = ((Renderer.choosing facts (Renderer.lexicalThis function
    (eventElement delegate (eventName function)))).functionBody function)
  /-- For a selection of `this`, it is that `this` which counts. -/
  selection : ∀ place ∈ function.inside, ∀ chain, facts.chain? place = some chain →
    chain.target = .this → ∃ occurrence, (callArguments chain.root).head? = some occurrence ∧
      occurrence.kind = .this ∧
        Renderer.lexicalThis function (eventElement delegate (eventName function)) occurrence =
          Renderer.lexicalThis function (eventElement delegate (eventName function)) place
  /-- Where the element stands, the name of the event is the parameter of the handler. -/
  notShadowed : ∀ place ∈ function.inside,
    (Renderer.lexicalThis function (eventElement delegate (eventName function)) place).isSome →
      ∀ inner ∈ place :: Place.between function place,
        eventName function ∉ facts.innerParameters inner
  /-- No `this` goes into the code without being rendered. -/
  rendered : ∀ inner ∈ function.walk, ∀ expression ∈ facts.copied inner,
    ∀ place ∈ expression.walk, place.kind ≠ .this

theorem EventStandsForThis.replacesThis {tree : Node} (regular : tree.Regular)
    {entry : Target × Binding} {function : Place} {handler : Handler}
    (binds : entry ∈ eventBindings (Facts.ofTree tree))
    (made : (handlerSource (Facts.ofTree tree) entry.2.handler).function? = some function)
    (stands : EventStandsForThis (Facts.ofTree tree) function)
    (isHandler : MadeFor (Facts.ofTree tree) entry handler) :
    ReplacesThis (Facts.ofTree tree) entry.2.delegate function handler := by
  have inTree := mem_walk_of_function? binds made
  have parts := isHandler.parts
  rw [handlerParts?_of_function? made] at parts
  obtain ⟨parameters, body⟩ := Prod.mk.inj (Option.some.inj parts)
  refine ⟨?_, ?_, fun place below chain found target => ?_, fun place below _ inner around => ?_,
    stands.rendered⟩
  · obtain ⟨name, first⟩ := Option.isSome_iff_exists.mp stands.named
    rw [← parameters, eventName, first]
    exact beginsWith_of_firstParameter? first
  · rw [← body]
    exact Renderer.functionBody_of_eq regular inTree stands.arrows _
  · exact Renderer.lexicalThis_of_selection regular (Place.length_path_lt_of_mem_inside below)
      (Place.mem_walk_trans inTree (Place.mem_walk_of_mem_inside below)) found target
  · rcases List.mem_cons.mp around with rfl | between
    · exact stands.fresh inner below
    · exact stands.fresh inner (Place.mem_inside_of_mem_between below between)

/-- The body that a function has as a handler is not the one in which only its own `this` is
replaced. -/
def replacesOtherwise (facts : Facts) (delegate : Option String) (function : Place) : Bool :=
  (Renderer.of facts (some (eventElement delegate (eventName function)))).functionBody function !=
    (Renderer.choosing facts (Renderer.lexicalThis function
      (eventElement delegate (eventName function)))).functionBody function

theorem not_replacesThis {facts : Facts} {entry : Target × Binding} {function : Place}
    {handler : Handler} (made : (handlerSource facts entry.2.handler).function? = some function)
    (isHandler : MadeFor facts entry handler)
    (differs : replacesOtherwise facts entry.2.delegate function = true) :
    ¬ ReplacesThis facts entry.2.delegate function handler := by
  intro replaces
  have parts := isHandler.parts
  rw [handlerParts?_of_function? made] at parts
  obtain ⟨_, body⟩ := Prod.mk.inj (Option.some.inj parts)
  exact bne_iff_ne.mp differs (body.trans replaces.body)

end Pass

/-! ## Converted handlers -/

theorem exists_handler_of_function? (document : Document) (settings : Settings) (tree : Node)
    {entry : Target × Pass.Binding} {function : Place}
    (binds : entry ∈ Pass.eventBindings (Facts.ofTree tree))
    (made : (Pass.handlerSource (Facts.ofTree tree) entry.2.handler).function? = some function) :
    ∃ handler ∈ (document.componentOf settings tree).handlers,
      Pass.MadeFor (Facts.ofTree tree) entry handler := by
  refine Pass.exists_handler_of_isCallable (document.blank_draft settings).handlers binds ?_
  rw [Pass.isCallable, Pass.handlerParts?_of_function? made]
  rfl

/-- Every function that is bound to an event becomes a handler.  If the event can stand for `this` in
the function, the handler has the element of the event exactly where `this` was the function's own,
and there the name of the event is the handler's parameter. -/
theorem this_replaced_by_event (document : Document) (settings : Settings)
    {entry : Target × Pass.Binding} {function : Place}
    (binds : entry ∈ Pass.eventBindings (Facts.ofTree (parse document.script)))
    (made : (Pass.handlerSource (Facts.ofTree (parse document.script)) entry.2.handler).function? =
      some function)
    (stands : Pass.EventStandsForThis (Facts.ofTree (parse document.script)) function) :
    let tree := parse document.script
    let facts := Facts.ofTree tree
    (∃ handler ∈ (document.componentOf settings tree).handlers, Pass.MadeFor facts entry handler) ∧
      ∀ handler, Pass.MadeFor facts entry handler →
        Pass.ReplacesThis facts entry.2.delegate function handler := by
  intro tree facts
  exact ⟨exists_handler_of_function? document settings tree binds made, fun handler isHandler =>
    stands.replacesThis (regular_parse document.script) binds made isHandler⟩

/-- A search for a function that is bound to an event. -/
def findsHandled (facts : Facts) (wanted : Target × Pass.Binding → Place → Bool) : Bool :=
  (Pass.eventBindings facts).any fun entry =>
    (Pass.handlerSource facts entry.2.handler).function?.any fun function => wanted entry function

theorem exists_of_findsHandled {facts : Facts} {wanted : Target × Pass.Binding → Place → Bool}
    (finds : findsHandled facts wanted = true) :
    ∃ entry ∈ Pass.eventBindings facts, ∃ function,
      (Pass.handlerSource facts entry.2.handler).function? = some function ∧
        wanted entry function = true := by
  obtain ⟨entry, binds, some⟩ := List.any_eq_true.mp finds
  obtain ⟨function, made, wanted⟩ := (Option.any_eq_true _ _).mp some
  exact ⟨entry, binds, function, made, wanted⟩

/-- A handler in which `this` is the element, also in an arrow function, and something else in a
function that is called later. -/
theorem this_replaced_by_event_of_arrow :
    let document := Document.new
      "$('#a').click(function (e) \x7b $(this).hide(); f(() => this); g(function () \x7b this.h(); \x7d); \x7d);"
      ⟨"arrow.js"⟩
    let tree := parse document.script
    let facts := Facts.ofTree tree
    ∃ entry ∈ Pass.eventBindings facts, ∃ function,
      (Pass.handlerSource facts entry.2.handler).function? = some function ∧
        Pass.EventStandsForThis facts function ∧
          (∃ handler ∈ (document.componentOf {} tree).handlers, Pass.MadeFor facts entry handler) ∧
            ∀ handler, Pass.MadeFor facts entry handler →
              Pass.ReplacesThis facts entry.2.delegate function handler := by
  intro document tree facts
  have run : findsHandled facts (fun _ function =>
      decide (Pass.EventStandsForThis facts function)) = true := by
    decide +kernel
  obtain ⟨entry, binds, function, made, stands⟩ := exists_of_findsHandled run
  have stands := of_decide_eq_true stands
  exact ⟨entry, binds, function, made, stands, this_replaced_by_event document {} binds made stands⟩

/-- What runs after an animation has a `this` of its own, but the element of the event takes its place
as well. -/
theorem not_replacesThis_of_callback :
    let document := Document.new
      "$('#a').click(function () \x7b\n  $('p').fadeIn(function () \x7b f(this); \x7d);\n\x7d);"
      ⟨"callback.js"⟩
    let tree := parse document.script
    let facts := Facts.ofTree tree
    ∃ entry ∈ Pass.eventBindings facts, ∃ function,
      (Pass.handlerSource facts entry.2.handler).function? = some function ∧
        ∃ handler ∈ (document.componentOf {} tree).handlers, Pass.MadeFor facts entry handler ∧
          ¬ Pass.ReplacesThis facts entry.2.delegate function handler := by
  intro document tree facts
  have run : findsHandled facts (fun entry function =>
      Pass.replacesOtherwise facts entry.2.delegate function) = true := by
    decide +kernel
  obtain ⟨entry, binds, function, made, differs⟩ := exists_of_findsHandled run
  obtain ⟨handler, listed, isHandler⟩ := exists_handler_of_function? document {} tree binds made
  exact ⟨entry, binds, function, made, handler, listed, isHandler,
    Pass.not_replacesThis made isHandler differs⟩

end Hookify
