import Hookify.Proofs.Request.Chains
import Hookify.Proofs.Text.Occurrence
import Hookify.Renderer.Replace
import Hookify.Script.Parse

namespace Hookify

open Script Selection

/-!
# The callbacks of a request

A request ends in success or in failure, and it is complete in either case.
For each of these branches a script can register callbacks in several ways: in
the settings of the request, as an argument of a short form, and by any number
of continuations.  A request has room for one callback of each branch, and a
later one takes the place of an earlier one.

So of all callbacks that are registered for a branch, in whatever mixture, it is
the last one that becomes an argument of the fetch chain.
-/

/-- The ways in which a request can end. -/
inductive Branch where
  | success
  | failure
  | completion
  deriving Repr, DecidableEq

namespace Branch

/-- The setting that registers a callback. -/
def setting : Branch → String
  | .success => "success"
  | .failure => "error"
  | .completion => "complete"

/-- The method of the fetch chain that takes the callback. -/
def method : Branch → String
  | .success => "then"
  | .failure => "catch"
  | .completion => "finally"

/-- The parameter of a callback that declares none. -/
def usualParameter : Branch → Option String
  | .success => some "data"
  | .failure => some "error"
  | .completion => none

/-- What stands in the fetch chain if there is no callback. -/
def standard : Branch → String
  | .failure => "\n  .catch((error) => \x7b\n    console.error(error);\n  \x7d)"
  | .success | .completion => ""

end Branch

/-! ## What is registered -/

namespace Request

/-- The callback of a request for a branch. -/
def callback? (request : Request) : Branch → Option Place
  | .success => request.success
  | .failure => request.error
  | .completion => request.complete

/-- The object with the settings of a request: the only argument, or the second one. -/
def settingsObject? (arguments : List Place) : Option Place :=
  (if arguments.length == 1 then arguments.head? else arguments[1]?).filter (·.kind == .object)

/-- The callbacks that the settings of a request register for a branch. -/
def settingCallbacks (branch : Branch) (arguments : List Place) : List Place :=
  match settingsObject? arguments with
  | some object => (object.namedChildren.filterMap setting?).filterMap fun (key, value) =>
      if key == branch.setting then some value else none
  | none => []

/-- The callback among the arguments of a short form: the first one behind the address that can be
called. -/
def argumentCallbacks (facts : Facts) (branch : Branch) (arguments : List Place) : List Place :=
  match branch with
  | .success => (arguments.tail.find? (isCallback facts)).toList
  | .failure | .completion => []

/-- The callback that a continuation registers for a branch. -/
def continuationCallback? (branch : Branch) (step : Continuation) : Option Place :=
  match branch, step.1 with
  | .success, "done" | .success, "then" => step.2.head?
  | .failure, "then" => step.2[1]?
  | .failure, "fail" | .failure, "catch" => step.2.head?
  | .completion, "always" | .completion, "finally" => step.2.head?
  | _, _ => none

end Request

namespace Facts

/-- The callbacks that the call which makes a request registers for a branch. -/
def rootCallbacks (facts : Facts) (branch : Branch) (root : Place) : List Place :=
  match ((root.child? .function).bind (·.child? .property)).map (·.text) with
  | some "ajax" => Request.settingCallbacks branch (callArguments root)
  | some _ => Request.argumentCallbacks facts branch (callArguments root)
  | none => []

/-- The callbacks that a request and its continuations register for a branch, in the order of the
source. -/
def callbacks (facts : Facts) (branch : Branch) (root : Place) (steps : List Continuation) :
    List Place :=
  facts.rootCallbacks branch root ++ steps.filterMap (Request.continuationCallback? branch)

end Facts

/-! ## The last callback of a branch -/

namespace Request

section Last

variable {request : Request} {branch : Branch}

/-- If each item puts what it writes in the place of what was there, the last one to write wins. -/
theorem foldl_last_write {Item State Value : Type} (read : State → Option Value)
    {write : Item → Option Value} {add : State → Item → State} {items : List Item}
    (each : ∀ item ∈ items, ∀ state, read (add state item) = (write item).or (read state))
    (state : State) :
    read (items.foldl add state) = (items.filterMap write).getLast?.or (read state) := by
  induction items generalizing state with
  | nil => rfl
  | cons item rest ih =>
      have later := ih (fun other member => each other (List.mem_cons_of_mem item member))
        (add state item)
      rw [List.foldl_cons, later, each item List.mem_cons_self, List.filterMap_cons]
      cases write item with
      | none => rfl
      | some value =>
          rw [List.getLast?_cons]
          cases (rest.filterMap write).getLast? <;> rfl

theorem callback?_withSetting (branch : Branch) (key : String) (value : Place)
    (request : Request) :
    (request.withSetting key value).callback? branch =
      if key = branch.setting then some value else request.callback? branch := by
  by_cases same : key = branch.setting
  · rw [if_pos same, same]
    cases branch <;> rfl
  · rw [if_neg same]
    unfold withSetting
    split
    case h_5 => cases branch <;> first | rfl | exact absurd rfl same
    case h_6 => cases branch <;> first | rfl | exact absurd rfl same
    case h_7 => cases branch <;> first | rfl | exact absurd rfl same
    all_goals cases branch <;> rfl

/-- The settings write to the branches that their names stand for. -/
theorem callback?_foldl_withSetting (branch : Branch) (settings : List (String × Place))
    (request : Request) :
    (settings.foldl (fun (request : Request) (key, value) => request.withSetting key value)
      request).callback? branch =
    (settings.filterMap fun (key, value) =>
      if key == branch.setting then some value else none).getLast?.or (request.callback? branch) := by
  refine foldl_last_write (fun request : Request => request.callback? branch) ?_ request
  rintro ⟨key, value⟩ _ request
  dsimp only
  rw [callback?_withSetting]
  by_cases same : key = branch.setting <;> simp [same]

theorem configurable_eq (arguments : List Place) :
    configurable arguments =
      match settingsObject? arguments with
      | some object =>
          (object.namedChildren.filterMap setting?).foldl
            (fun (request : Request) (key, value) => request.withSetting key value)
            { kind := .generic, url := if arguments.length ≤ 1 then none else arguments.head? }
      | none =>
          { kind := .generic, url := if arguments.length ≤ 1 then none else arguments.head? } := by
  rcases arguments with _ | ⟨first, _ | ⟨second, rest⟩⟩
  · rfl
  · rfl
  · rfl

theorem callback?_configurable (branch : Branch) (arguments : List Place) :
    (configurable arguments).callback? branch = (settingCallbacks branch arguments).getLast? := by
  have blank : ∀ address : Option Place,
      ({ kind := .generic, url := address } : Request).callback? branch = none := by
    intro address
    cases branch <;> rfl
  rw [configurable_eq, settingCallbacks]
  split
  · rw [callback?_foldl_withSetting, blank, Option.or_none]
  · exact blank _

/-- Arguments behind the callback of a short form do not change it. -/
theorem success_foldl_withArgument (facts : Facts) (arguments : List Place) (request : Request) :
    (arguments.foldl (withArgument facts) request).success =
      request.success.or (arguments.find? (isCallback facts)) := by
  induction arguments generalizing request with
  | nil => exact (Option.or_none).symm
  | cons argument rest ih =>
      rw [List.foldl_cons, ih, withArgument, List.find?_cons]
      cases success : request.success with
      | some callback =>
          simp only [Option.isSome_some, Bool.and_true, Option.isNone_some, Bool.false_and,
            Bool.and_false]
          split <;> simp [success]
      | none =>
          simp only [Option.isSome_none, Bool.and_false, Option.isNone_none, Bool.true_and,
            Bool.and_true]
          cases isCallback facts argument with
          | true => simp
          | false =>
              simp only [Bool.false_eq_true, if_false]
              split <;> simp [success]

theorem callback?_foldl_withArgument (facts : Facts) {branch : Branch} (other : branch ≠ .success)
    (arguments : List Place) (request : Request) :
    (arguments.foldl (withArgument facts) request).callback? branch = request.callback? branch := by
  induction arguments generalizing request with
  | nil => rfl
  | cons argument rest ih =>
      rw [List.foldl_cons, ih, withArgument]
      cases branch with
      | success => exact absurd rfl other
      | failure | completion =>
          split
          · rfl
          · split
            · rfl
            · split <;> rfl

theorem callback?_short (facts : Facts) (kind : RequestKind) (branch : Branch)
    (arguments : List Place) :
    (short facts kind arguments).callback? branch =
      (argumentCallbacks facts branch arguments).getLast? := by
  rw [short]
  cases branch with
  | success =>
      refine (success_foldl_withArgument facts _ _).trans ?_
      rw [argumentCallbacks, Option.none_or]
      cases arguments.tail.find? (isCallback facts) <;> rfl
  | failure => exact callback?_foldl_withArgument facts Branch.noConfusion _ _
  | completion => exact callback?_foldl_withArgument facts Branch.noConfusion _ _

theorem callback?_withContinuation (branch : Branch) {step : Continuation}
    (continues : continuationMethods.contains step.1 = true) (request : Request) :
    (request.withContinuation step.1 step.2).callback? branch =
      (continuationCallback? branch step).or (request.callback? branch) := by
  rcases step with ⟨method, arguments⟩
  rw [List.contains_iff_mem] at continues
  simp only [continuationMethods, List.mem_cons, List.not_mem_nil, or_false] at continues
  rcases continues with rfl | rfl | rfl | rfl | rfl | rfl <;> cases branch <;> rfl

theorem callback?_withContinuations (branch : Branch) {steps : List Continuation}
    (methods : ∀ step ∈ steps, continuationMethods.contains step.1 = true) (request : Request) :
    (request.withContinuations steps).callback? branch =
      (steps.filterMap (continuationCallback? branch)).getLast?.or (request.callback? branch) :=
  foldl_last_write (fun request : Request => request.callback? branch)
    (fun step member => callback?_withContinuation branch (methods step member)) request

end Last

end Request

namespace Facts

variable {facts : Facts} {root place : Place} {request start : Request} {steps : List Continuation}

theorem callback?_rootRequest? (branch : Branch) (found : facts.rootRequest? root = some start) :
    start.callback? branch = (facts.rootCallbacks branch root).getLast? := by
  simp only [rootRequest?, Option.bind_eq_bind, Option.bind_eq_some_iff] at found
  rcases found with ⟨_, _, function, isFunction, _, _, object, _, _, _, property, isProperty, found⟩
  rw [rootCallbacks, isFunction, Option.bind_some, isProperty, Option.map_some]
  split at found
  · rename_i ajax
    rw [ajax, ← Option.some.inj found]
    exact Request.callback?_configurable branch _
  · rename_i get
    rw [get, ← Option.some.inj found]
    exact Request.callback?_short facts .get branch _
  · rename_i getJSON
    rw [getJSON, ← Option.some.inj found]
    refine Eq.trans ?_ (Request.callback?_short facts .get branch _)
    cases branch <;> rfl
  · rename_i post
    rw [post, ← Option.some.inj found]
    exact Request.callback?_short facts .post branch _
  · cases found

theorem Continues.methods (continues : Continues root steps place) :
    ∀ step ∈ steps, continuationMethods.contains step.1 = true := by
  induction continues with
  | refl => exact fun _ absent => absurd absent List.not_mem_nil
  | step before continues ih =>
      intro step member
      rcases List.mem_append.mp member with earlier | last
      · exact ih step earlier
      · rcases continuation?_eq_some_iff.mp continues with ⟨_, _, _, _, _, _, _, _, isMethod, _⟩
        exact List.mem_singleton.mp last ▸ isMethod

/-- A request has the last callback that is registered for a branch. -/
theorem callback?_eq_getLast? (branch : Branch) (continues : Continues root steps place)
    (isRoot : facts.rootRequest? root = some start) :
    (start.withContinuations steps).callback? branch =
      (facts.callbacks branch root steps).getLast? := by
  rw [Request.callback?_withContinuations branch continues.methods,
    callback?_rootRequest? branch isRoot, callbacks, List.getLast?_append]

end Facts

/-! ## The fetch chain -/

namespace Renderer

/-- What the callbacks of a branch add to a fetch chain: the last one, or the standard. -/
def branchText (renderer : Renderer) (branch : Branch) (callbacks : List Place) : String :=
  match callbacks.getLast? with
  | some callback =>
      "\n  ." ++ branch.method ++ "(" ++
        Text.indentContinuation "  " (renderer.callback branch.usualParameter callback) ++ ")"
  | none => branch.standard

theorem fetch_eq (renderer : Renderer) (request : Request) (callbacks : Branch → List Place)
    (last : ∀ branch, request.callback? branch = (callbacks branch).getLast?) :
    renderer.fetch request = renderer.fetchCall request ++ checkAnswer request ++
      renderer.branchText .success (callbacks .success) ++
      renderer.branchText .failure (callbacks .failure) ++
      renderer.branchText .completion (callbacks .completion) := by
  have success : request.success = (callbacks .success).getLast? := last .success
  have failure : request.error = (callbacks .failure).getLast? := last .failure
  have completion : request.complete = (callbacks .completion).getLast? := last .completion
  rw [fetch, branchText, branchText, branchText, success, failure, completion]
  cases (callbacks .success).getLast? <;> cases (callbacks .failure).getLast? <;>
    cases (callbacks .completion).getLast? <;> rfl

end Renderer

/-- For each way in which a request can end, its fetch chain has the callback that is registered
last, in the settings, among the arguments or by a continuation, as the argument of the method for
that end.  If none is registered, only the failure is taken care of. -/
theorem last_callback_rendered {facts : Facts} {place : Place} {request : Request}
    (found : facts.request? place = some request) :
    (∃ root steps, Facts.Continues root steps place ∧ (facts.rootRequest? root).isSome) ∧
      ∀ root steps, Facts.Continues root steps place → (facts.rootRequest? root).isSome →
        ∀ renderer : Renderer,
          renderer.fetch request = renderer.fetchCall request ++ Renderer.checkAnswer request ++
            renderer.branchText .success (facts.callbacks .success root steps) ++
            renderer.branchText .failure (facts.callbacks .failure root steps) ++
            renderer.branchText .completion (facts.callbacks .completion root steps) := by
  constructor
  · rcases Facts.request?_eq_some_iff.mp found with ⟨root, steps, start, continues, isRoot, _⟩
    exact ⟨root, steps, continues, Option.isSome_of_eq_some isRoot⟩
  · intro root steps continues isRoot renderer
    rcases Option.isSome_iff_exists.mp isRoot with ⟨start, isRoot⟩
    have same := Facts.request?_eq_some_iff.mpr ⟨root, steps, start, continues, isRoot, rfl⟩
    rw [found] at same
    rw [Option.some.inj same]
    exact renderer.fetch_eq _ (fun branch => facts.callbacks branch root steps)
      fun branch => Facts.callback?_eq_getLast? branch continues isRoot

/-- A search for a request with one continuation. -/
def findsContinued (facts : Facts) (wanted : Request → Place → Continuation → Bool) : Bool :=
  facts.root.walk.any fun place => (Facts.continuation? place).any fun (method, arguments, object) =>
    (facts.rootRequest? object).isSome && (facts.request? place).any fun request =>
      wanted request object (method, arguments)

theorem exists_of_findsContinued {facts : Facts} {wanted : Request → Place → Continuation → Bool}
    (finds : findsContinued facts wanted = true) :
    ∃ place ∈ facts.root.walk, ∃ request, facts.request? place = some request ∧
      ∃ root step, Facts.Continues root [step] place ∧ (facts.rootRequest? root).isSome ∧
        wanted request root step = true := by
  rcases List.any_eq_true.mp finds with ⟨place, member, some⟩
  rcases Option.any_eq_true _ _ |>.mp some with ⟨⟨method, arguments, object⟩, continues, both⟩
  rcases Bool.and_eq_true _ _ ▸ both with ⟨isRoot, some⟩
  rcases Option.any_eq_true _ _ |>.mp some with ⟨request, found, wanted⟩
  exact ⟨place, member, request, found, object, (method, arguments),
    .step .refl continues, isRoot, wanted⟩

/-- A request in a short form with a callback for failures that is added by a continuation. -/
theorem last_callback_rendered_of_fail :
    let tree := parse "$.get('/a', show).fail(warn);"
    let facts := Facts.ofTree tree
    let renderer := Renderer.of facts none
    ∃ place ∈ facts.root.walk, ∃ request, facts.request? place = some request ∧
      ∃ root steps, Facts.Continues root steps place ∧
        renderer.fetch request = renderer.fetchCall request ++ Renderer.checkAnswer request ++
          renderer.branchText .success (facts.callbacks .success root steps) ++
          renderer.branchText .failure (facts.callbacks .failure root steps) ++
          renderer.branchText .completion (facts.callbacks .completion root steps) := by
  intro tree facts renderer
  have run : findsContinued facts (fun _ _ _ => true) = true := by
    decide +kernel
  rcases exists_of_findsContinued run with
    ⟨place, member, request, found, root, step, continues, isRoot, _⟩
  exact ⟨place, member, request, found, root, [step], continues,
    (last_callback_rendered found).2 root [step] continues isRoot renderer⟩

/-- The callback of a short form is lost if a continuation registers one for the same branch. -/
theorem not_rendered_of_later_callback :
    let tree := parse "$.get('/a', function () \x7b a(); \x7d).done(function () \x7b b(); \x7d);"
    let facts := Facts.ofTree tree
    let renderer := Renderer.of facts none
    ∃ place ∈ facts.root.walk, ∃ request, facts.request? place = some request ∧
      ∃ root steps, Facts.Continues root steps place ∧ (facts.rootRequest? root).isSome ∧
        ∃ callback ∈ facts.callbacks .success root steps, ∀ branch : Branch,
          Text.occursIn (Text.indentContinuation "  "
            (renderer.callback branch.usualParameter callback)) (renderer.fetch request) = false := by
  intro tree facts renderer
  have run : findsContinued facts (fun request root step =>
      (facts.callbacks .success root [step]).any fun callback =>
        [Branch.success, .failure, .completion].all fun branch =>
          ! Text.occursIn (Text.indentContinuation "  "
            (renderer.callback branch.usualParameter callback)) (renderer.fetch request)) = true := by
    decide +kernel
  rcases exists_of_findsContinued run with
    ⟨place, member, request, found, root, step, continues, isRoot, lost⟩
  rcases List.any_eq_true.mp lost with ⟨callback, registered, absent⟩
  refine ⟨place, member, request, found, root, [step], continues, isRoot, callback, registered, ?_⟩
  intro branch
  have listed : branch ∈ [Branch.success, .failure, .completion] := by cases branch <;> decide
  simpa using List.all_eq_true.mp absent branch listed

end Hookify
