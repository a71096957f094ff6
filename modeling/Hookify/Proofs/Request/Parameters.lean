import Hookify.Proofs.Conversion.Flavors
import Hookify.Proofs.Renderer.Carries
import Hookify.Proofs.Script.Declarations

namespace Hookify

open Script

/-!
# The parameters of callbacks

A callback of a request that is written as a function becomes an arrow function
around its rendered body.  The names of the parameters that the body reads have
to be parameters of the arrow function, or nothing binds them any more.

Of the parameters of the script the arrow function has the first one, if that is
a plain name; otherwise it has the usual one, and at the end of a request it has
none at all.
-/

/-! ## Parameters of the script -/

namespace Script.Place

/-- The place with the parameters of a function: the only one, or a list. -/
def parameterList? (function : Place) : Option Place :=
  (function.child? .parameter).or (function.child? .parameters)

/-- The names that the parameters of a function bind, in patterns too. -/
def boundParameters (function : Place) : List String :=
  match function.parameterList? with
  | some list => (list.walk.filter fun name =>
      name.declaredIn?.map (·.path) == some function.path).map (·.text)
  | none => []

/-- The place gives a new value to what stands there, without a look at the old one. -/
def isOverwritten (place : Place) : Bool :=
  place.target.field == some .left && place.target.parent?.any fun parent =>
    parent.kind == .assignmentExpression || parent.kind == .forInStatement

/-- The place reads a variable. -/
def isVariableRead (place : Place) : Bool :=
  (place.kind == .identifier || place.kind == .shorthandPropertyIdentifier) &&
    place.declaredIn?.isNone && ! place.isOverwritten

/-- The name means a variable of a function.  What `var` declares in the body anew is still the
parameter of that name. -/
def meansVariableOf (name function : Place) : Bool :=
  name.declaringScope?.any fun scope => scope.path == function.path ||
    (scope.isVariableScope && scope.parent?.any (·.path == function.path))

/-- The names that the parameters of a function bind and that its body reads. -/
def readParameters (function : Place) : List String :=
  function.boundParameters.filter fun name =>
    (function.child? .body).any fun body => body.walk.any fun use =>
      use.isVariableRead && use.text == name && use.meansVariableOf function

end Script.Place

/-! ## Parameters of the generated function -/

/-- The names between the parentheses that an arrow function begins with. -/
def arrowParameters (text : String) : List String :=
  let inside := (text.toList.drop 1).takeWhile (· != ')')
  ((inside.splitOn ',').map Text.trimChars).filterMap fun name =>
    if name.isEmpty then none else some (String.ofList name)

theorem trimChars_of_isParameterPart {name : List Char}
    (plain : ∀ c ∈ name, isParameterPart c = true) : Text.trimChars name = name := by
  have keeps {chars : List Char} (plain : ∀ c ∈ chars, isParameterPart c = true) :
      chars.dropWhile Text.isBlank = chars := by
    cases chars with
    | nil => rfl
    | cons c rest =>
        refine List.dropWhile_cons_of_neg ?_
        rw [(isFirm_of_isParameterPart (plain c List.mem_cons_self)).1]
        exact Bool.false_ne_true
  rw [Text.trimChars, Text.trimEndChars, Text.trimStartChars, keeps plain,
    keeps fun c member => plain c (List.mem_reverse.mp member), List.reverse_reverse]

/-- A plain name in parentheses is the only parameter, and nothing in them is none. -/
theorem arrowParameters_append {name : String} (plain : ∀ c ∈ name.toList, isParameterPart c = true)
    (rest : String) :
    arrowParameters ("(" ++ name ++ ")" ++ rest) = if name.isEmpty then [] else [name] := by
  have listed : ("(" ++ name ++ ")" ++ rest).toList =
      '(' :: (name.toList ++ ')' :: rest.toList) := by
    simp
  have apart {sign : Char} (other : isParameterPart sign = false) : sign ∉ name.toList :=
    fun member => absurd (plain sign member) (by rw [other]; exact Bool.false_ne_true)
  have inside : (name.toList ++ ')' :: rest.toList).takeWhile (· != ')') = name.toList := by
    rw [List.takeWhile_append_of_pos fun c member => bne_iff_ne.mpr fun same =>
      apart (by decide) (same ▸ member), List.takeWhile_cons_of_neg (by decide), List.append_nil]
  rw [arrowParameters, listed, List.drop_one, List.tail_cons, inside,
    List.splitOn_eq_singleton (apart (by decide)), List.map_singleton,
    trimChars_of_isParameterPart plain]
  by_cases empty : name = ""
  · subst empty
    rfl
  · simp [empty]

namespace Request

variable {request : Request} {callback : Callback}

theorem ne_empty_of_firstParameter? {parameters name : String}
    (found : firstParameter? parameters = some name) : name ≠ "" := by
  rw [firstParameter?] at found
  split at found
  · rename_i plain
    rw [Bool.and_eq_true, Bool.not_eq_true', List.isEmpty_eq_false_iff] at plain
    rw [← Option.some.inj found]
    simpa using plain.1
  · cases found

/-- Only at the end of a request a callback has no parameter. -/
theorem parameter_ne_empty (among : callback ∈ request.callbacks)
    (some : callback.usual.isSome = true) : callback.parameter ≠ "" := by
  simp only [callbacks, List.mem_append, Option.mem_toList, Option.map_eq_some_iff] at among
  have named {usual : String} (plain : usual ≠ "") (place : Place) :
      (firstParameter? (parametersText place)).getD usual ≠ "" := by
    cases found : firstParameter? (parametersText place) with
    | none => exact plain
    | some name => exact ne_empty_of_firstParameter? found
  rcases among with (⟨place, _, rfl⟩ | ⟨place, _, rfl⟩) | ⟨place, _, rfl⟩
  · exact named (by decide) place
  · exact named (by decide) place
  · cases some

/-- The parameter of the function that a callback becomes. -/
theorem arrowParameters_callback (renderer : Renderer) (among : callback ∈ request.callbacks)
    (isFunction : callback.isFunction = true) :
    arrowParameters (renderer.callback callback.usual callback.function) =
      (callback.usual.map fun _ => callback.parameter).toList := by
  obtain ⟨rest, same⟩ := renderer.exists_callback_eq isFunction
  rw [same, Callback.parameters, arrowParameters_append (isParameterPart_of_parameter among)]
  cases usual : callback.usual with
  | none =>
      rw [Callback.parameter, usual]
      rfl
  | some name =>
      have filled := parameter_ne_empty among (by rw [usual]; rfl)
      rw [if_neg (mt String.isEmpty_iff.mp filled)]
      rfl

end Request

namespace Renderer

/-- Every parameter that the body of a callback reads is a parameter of the function that the
callback becomes. -/
def BindsParameters (renderer : Renderer) (callback : Request.Callback) : Prop :=
  ∀ name ∈ callback.function.readParameters,
    name ∈ arrowParameters (renderer.callback callback.usual callback.function)

end Renderer

/-- A callback of a request that is written as a function becomes, in the code of the request, an
arrow function with the parameter of the branch and no other.  So the parameters that its body
reads are bound exactly if there is none but this one, and at the end of a request if there is
none.  A name that stands in the body stays there, whether it is bound or not. -/
theorem bindsParameters_iff (facts : Facts) (this : Option String) {request : Request}
    {callback : Request.Callback} (among : callback ∈ request.callbacks)
    (isFunction : callback.isFunction = true) :
    let renderer := Renderer.of facts this
    let emitted := renderer.callback callback.usual callback.function
    Text.occursIn (renderer.continuation callback.method callback.usual callback.function)
        (renderer.fetch request) = true ∧
      arrowParameters emitted = (callback.usual.map fun _ => callback.parameter).toList ∧
      (renderer.BindsParameters callback ↔ ∀ name ∈ callback.function.readParameters,
        callback.usual.isSome = true ∧ name = callback.parameter) ∧
      ∀ body name image, callback.function.child? .body = some body →
        body ∈ facts.root.walk → Renderer.Carries facts name this body image →
          Text.IsInline name.text.toList → Text.occursIn name.text emitted = true := by
  intro renderer emitted
  have parameters : arrowParameters emitted = _ :=
    Request.arrowParameters_callback renderer among isFunction
  refine ⟨renderer.occursIn_fetch among, parameters, ?_, ?_⟩
  · rw [Renderer.BindsParameters]
    change (∀ name ∈ _, name ∈ arrowParameters emitted) ↔ _
    rw [parameters]
    cases callback.usual <;> simp
  · intro body name image isBody inside carries isInline
    have like : callback.function.kind.isFunctionLike = true ∨
        callback.function.kind = .methodDefinition := by
      rwa [Request.Callback.isFunction, Bool.or_eq_true, beq_iff_eq] at isFunction
    obtain ⟨change, moves⟩ : ∃ change, Renderer.Moves (renderer.render body) emitted change :=
      renderer.exists_moves_callback like isBody
    have framed := isInline.1
    have within := moves.isInfix (carries.isFramed framed)
      (carries.infix_render framed (Place.size_le_of_mem_walk inside))
    rw [carries.image_eq isInline, moves.change_eq isInline] at within
    exact (Text.occursIn_iff _ _).mpr within

/-- A search for a request with callbacks of a kind. -/
def findsCallbacks (facts : Facts) (wanted : List Request.Callback → Bool) : Bool :=
  facts.root.walk.any fun place => (facts.request? place).any fun request =>
    wanted request.callbacks

theorem exists_of_findsCallbacks {facts : Facts} {wanted : List Request.Callback → Bool}
    (finds : findsCallbacks facts wanted = true) :
    ∃ place ∈ facts.root.walk, ∃ request, facts.request? place = some request ∧
      wanted request.callbacks = true := by
  obtain ⟨place, inside, some⟩ := List.any_eq_true.mp finds
  obtain ⟨request, makes, wanted⟩ := (Option.any_eq_true _ _).mp some
  exact ⟨place, inside, request, makes, wanted⟩

/-- The first parameters are kept, and at the end there is none to be kept. -/
theorem bindsParameters_of_plain_names :
    let source := "$.ajax(\x7b success(item) \x7b show(item); \x7d, " ++
      "error: (e, status) => warn(e), complete: () => stop() \x7d);"
    let facts := Facts.ofTree (parse source)
    let renderer := Renderer.of facts none
    ∃ place ∈ facts.root.walk, ∃ request, facts.request? place = some request ∧
      request.callbacks.map (·.function.readParameters) = [["item"], ["e"], []] ∧
      ∀ callback ∈ request.callbacks, renderer.BindsParameters callback := by
  intro source facts renderer
  have run : findsCallbacks facts (fun callbacks =>
      callbacks.map (·.function.readParameters) == [["item"], ["e"], []] &&
      callbacks.all fun callback => callback.isFunction &&
        callback.function.readParameters.all fun name =>
          callback.usual.isSome && name == callback.parameter) = true := by
    decide +kernel
  obtain ⟨place, inside, request, makes, checks⟩ := exists_of_findsCallbacks run
  rw [Bool.and_eq_true, beq_iff_eq, List.all_eq_true] at checks
  refine ⟨place, inside, request, makes, checks.1, fun callback among => ?_⟩
  have fits := checks.2 callback among
  rw [Bool.and_eq_true, List.all_eq_true] at fits
  obtain ⟨_, _, binds, _⟩ := bindsParameters_iff facts none among fits.1
  refine binds.mpr fun name read => ?_
  have single := fits.2 name read
  rwa [Bool.and_eq_true, beq_iff_eq] at single

/-- What a pattern takes from the answer is not bound: the function has the usual parameter. -/
theorem not_bindsParameters_of_pattern :
    let source := "$.getJSON('/items', (\x7b items \x7d) => \x7b show(items); \x7d);"
    let emitted := "(data) => \x7b\n  show(items);\n\x7d"
    let facts := Facts.ofTree (parse source)
    let renderer := Renderer.of facts none
    ∃ place ∈ facts.root.walk, ∃ request, facts.request? place = some request ∧
      ∃ callback ∈ request.callbacks, callback.isFunction = true ∧
        callback.function.readParameters = ["items"] ∧
        renderer.callback callback.usual callback.function = emitted ∧
        arrowParameters emitted = ["data"] ∧ ¬ renderer.BindsParameters callback := by
  intro source emitted facts renderer
  have run : findsCallbacks facts (fun callbacks => callbacks.any fun callback =>
      callback.isFunction && callback.function.readParameters == ["items"] &&
        renderer.callback callback.usual callback.function == emitted) = true ∧
      arrowParameters emitted = ["data"] := by
    decide +kernel
  obtain ⟨place, inside, request, makes, found⟩ := exists_of_findsCallbacks run.1
  obtain ⟨callback, among, checks⟩ := List.any_eq_true.mp found
  rw [Bool.and_eq_true, Bool.and_eq_true, beq_iff_eq, beq_iff_eq] at checks
  obtain ⟨⟨isFunction, read⟩, same⟩ := checks
  refine ⟨place, inside, request, makes, callback, among, isFunction, read, same, run.2, ?_⟩
  intro binds
  have bound := binds "items" (read ▸ List.mem_singleton.mpr rfl)
  rw [same, run.2] at bound
  exact absurd bound (by decide)

end Hookify
