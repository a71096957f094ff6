import Hookify.Proofs.Pass.Frames
import Mathlib.Data.List.Forall2

namespace Hookify

open Script Selection

/-!
# What becomes of an event

The listeners take the bindings of a script one after the other.  A binding
whose handler can be called gets a handler; for any other there is a warning.
Later the calls of all chains are gone through once more, and there are
warnings about calls that are kept and about bindings inside nested code.

Nothing else adds handlers or warnings.  So both lists can be told from the
script alone: there is one handler for each binding that can be called, in the
order of the script, and the warnings are those of the two passes, each once.
-/

namespace Pass

/-! ## Arguments that bind an event -/

/-- An object gives a function for an event: some entry has a key with an event, and a value. -/
def HandlesByKey (object : Place) : Prop :=
  ∃ entry ∈ object.namedChildren, entry.kind = .pair ∧ (entry.child? .value).isSome ∧
    ∃ key, entry.child? .key = some key ∧ eventNames (Text.unquote key.text) ≠ []

/-- A call that binds events names one, and has something to handle it. -/
inductive NamesHandler (call : MethodCall) : Prop where
  | hover (name : call.name = "hover") (handled : call.arguments ≠ [])
  | delegate (name : call.name = "delegate") (named : literalEvents call 1 ≠ [])
      (handled : 3 ≤ call.arguments.length)
  | listed (name : call.name ∈ ["on", "bind", "one", "live"]) (first : Place)
      (isFirst : call.argument? 0 = some first) (plain : first.kind ≠ .object)
      (named : literalEvents call 0 ≠ []) (handled : 2 ≤ call.arguments.length)
  | keyed (name : call.name ∈ ["on", "bind", "one", "live"]) (first : Place)
      (isFirst : call.argument? 0 = some first) (isObject : first.kind = .object)
      (handled : HandlesByKey first)
  /-- The method is named after its event. -/
  | event (name : eventMethods.contains call.name = true)

section Arguments

variable {call : MethodCall}

theorem bindAll_ne_nil_iff {events : List String} {delegate : Option String} {once : Bool}
    {handler : Option Place} :
    bindAll events delegate once handler ≠ [] ↔ events ≠ [] ∧ handler.isSome := by
  cases handler with
  | none => simp [bindAll]
  | some place => simp [bindAll]

theorem isSome_getLast?_drop {Item : Type} {items : List Item} {count : Nat} :
    (items.drop count).getLast?.isSome ↔ count + 1 ≤ items.length := by
  rw [List.getLast?_isSome, ← List.length_pos_iff, List.length_drop]
  omega

theorem mapBindings_ne_nil_iff {once : Bool} {object : Place} :
    mapBindings call once object ≠ [] ↔ HandlesByKey object := by
  have named : ∀ entry : Place,
      ((entry.child? .key).map fun key => eventNames (Text.unquote key.text)).getD [] ≠ [] ↔
        ∃ key, entry.child? .key = some key ∧ eventNames (Text.unquote key.text) ≠ [] := by
    intro entry
    cases entry.child? .key <;> simp
  simp only [mapBindings, HandlesByKey, ne_eq, List.flatMap_eq_nil_iff, List.mem_filter, not_forall]
  constructor
  · rintro ⟨entry, ⟨member, kind⟩, binds⟩
    have both := bindAll_ne_nil_iff.mp binds
    exact ⟨entry, member, beq_iff_eq.mp kind, both.2, (named entry).mp both.1⟩
  · rintro ⟨entry, member, kind, value, key⟩
    exact ⟨entry, ⟨member, beq_iff_eq.mpr kind⟩,
      bindAll_ne_nil_iff.mpr ⟨(named entry).mpr key, value⟩⟩

theorem generalBindings_ne_nil_iff :
    generalBindings call ≠ [] ↔ ∃ first, call.argument? 0 = some first ∧
      if first.kind = .object then HandlesByKey first
      else literalEvents call 0 ≠ [] ∧ 2 ≤ call.arguments.length := by
  rw [generalBindings]
  cases call.argument? 0 with
  | none => simp
  | some first =>
      simp only [Option.some.injEq, exists_eq_left', beq_iff_eq]
      split
      · exact mapBindings_ne_nil_iff
      · exact bindAll_ne_nil_iff.trans (and_congr_right fun _ => isSome_getLast?_drop)

theorem bindingsOf_general (name : call.name ∈ ["on", "bind", "one", "live"]) :
    bindingsOf call = generalBindings call := by
  simp only [List.mem_cons, List.not_mem_nil, or_false] at name
  rw [bindingsOf]
  rcases name with name | name | name | name <;> rw [name] <;> rfl

theorem namesHandler_general (name : call.name ∈ ["on", "bind", "one", "live"])
    (binds : generalBindings call ≠ []) : NamesHandler call := by
  rcases generalBindings_ne_nil_iff.mp binds with ⟨first, isFirst, handled⟩
  split at handled
  · rename_i isObject
    exact .keyed name first isFirst isObject handled
  · rename_i plain
    exact .listed name first isFirst plain handled.1 handled.2

/-- Without arguments, a method that is named after its event triggers it. -/
theorem roleOf_event : ∀ name ∈ eventMethods, roleOf name [] = .trigger := by
  decide

theorem bindingsOf_event (name : eventMethods.contains call.name = true) :
    bindingsOf call = bindAll [call.name] none false call.arguments.getLast? := by
  rw [bindingsOf]
  split
  -- None of the methods with a form of their own is named after an event.
  iterate 6
    rename_i other
    rw [other] at name
    exact absurd name (by decide)
  exact if_pos name

/-- A call in the role of a binding binds something exactly if it names an event and a handler. -/
theorem bindingsOf_ne_nil_iff (role : call.role = .binding) :
    bindingsOf call ≠ [] ↔ NamesHandler call := by
  constructor
  · rw [bindingsOf]
    split
    · rename_i name
      intro binds
      refine .hover name fun none => binds ?_
      rw [hoverBindings, MethodCall.argument?, none]
      rfl
    · rename_i name
      intro binds
      have both := bindAll_ne_nil_iff.mp binds
      exact .delegate name both.1 (isSome_getLast?_drop.mp both.2)
    · rename_i name
      exact namesHandler_general (by simp [name])
    · rename_i name
      exact namesHandler_general (by simp [name])
    · rename_i name
      exact namesHandler_general (by simp [name])
    · rename_i name
      exact namesHandler_general (by simp [name])
    · intro binds
      split at binds
      · rename_i isEvent
        exact .event isEvent
      · exact absurd rfl binds
  · intro names
    cases names with
    | hover name handled =>
        rw [bindingsOf, name]
        rcases List.exists_cons_of_ne_nil handled with ⟨enter, rest, same⟩
        rw [hoverBindings, MethodCall.argument?, same]
        exact List.cons_ne_nil _ _
    | delegate name named handled =>
        rw [bindingsOf, name]
        exact bindAll_ne_nil_iff.mpr ⟨named, isSome_getLast?_drop.mpr handled⟩
    | listed name first isFirst plain named handled =>
        rw [bindingsOf_general name]
        refine generalBindings_ne_nil_iff.mpr ⟨first, isFirst, ?_⟩
        rw [if_neg plain]
        exact ⟨named, handled⟩
    | keyed name first isFirst isObject handled =>
        rw [bindingsOf_general name]
        refine generalBindings_ne_nil_iff.mpr ⟨first, isFirst, ?_⟩
        rw [if_pos isObject]
        exact handled
    | event name =>
        rw [bindingsOf_event name, bindAll_ne_nil_iff, List.getLast?_isSome]
        refine ⟨List.cons_ne_nil _ _, fun none => ?_⟩
        rw [MethodCall.role, none, List.map_nil,
          roleOf_event call.name (List.contains_iff_mem.mp name)] at role
        cases role

end Arguments

/-! ## Handlers -/

/-- The kind of target that a listener has: elements listen by a reference, the page does not. -/
def KindOfListener : Target → ListenerTarget → Prop
  | .selector _, .reference _ => True
  | .page object, .page other => object = other
  | _, _ => False

/-- The handler has been made for an event that is bound on a target. -/
structure MadeFor (facts : Facts) (entry : Target × Binding) (handler : Handler) : Prop where
  event : handler.event = entry.2.event
  selector : handler.selector = entry.2.delegate.getD entry.1.label
  parent : handler.parent = entry.2.delegate.map fun _ => entry.1.label
  target : KindOfListener entry.1 handler.target
  once : handler.once = entry.2.once
  parts : handlerParts? facts entry.2.delegate (handlerSource facts entry.2.handler) =
    some (handler.parameters, handler.body)

/-- The handler of a binding can be called. -/
def isCallable (facts : Facts) (entry : Target × Binding) : Bool :=
  (handlerParts? facts entry.2.delegate (handlerSource facts entry.2.handler)).isSome

section Handlers

variable {facts : Facts}

theorem listeners_eq (facts : Facts) (draft : Draft) :
    listeners facts draft =
      (eventBindings facts).foldl (fun draft entry => register facts entry.1 draft entry.2) draft := by
  simp only [listeners, eventBindings, chainBindings, List.foldl_flatMap, List.foldl_map]

theorem target_ne_this {entry : Target × Binding} (binds : entry ∈ eventBindings facts) :
    entry.1 ≠ .this := by
  rcases mem_eventBindings.mp binds with ⟨_, _, _, found, same, _⟩
  exact same ▸ (bindingChain?_eq_some found).2.1

theorem handlers_ensureReferenceNamed (draft : Draft) (selector wanted : String) :
    (draft.ensureReferenceNamed selector wanted).1.handlers = draft.handlers := by
  rw [Draft.ensureReferenceNamed]
  split <;> rfl

/-- A binding that can be called adds one handler, and any other none. -/
theorem handlers_register {target : Target} {binding : Binding} (elsewhere : target ≠ .this)
    (draft : Draft) : ∃ added, (register facts target draft binding).handlers =
        draft.handlers ++ added ∧
      List.Forall₂ (MadeFor facts) ([(target, binding)].filter (isCallable facts)) added := by
  rw [register]
  split
  · rename_i parameters body parts
    have callable : isCallable facts (target, binding) = true := by rw [isCallable, parts]; rfl
    rw [List.filter_cons_of_pos callable, List.filter_nil]
    have claimed : ((handlerSource facts binding.handler).claim draft).handlers =
        draft.handlers := by
      cases handlerSource facts binding.handler <;> rfl
    rw [← claimed]
    generalize (handlerSource facts binding.handler).claim draft = start
    cases target with
    | selector selector =>
        refine ⟨_, congrArg (· ++ _) (handlers_ensureReferenceNamed start selector _), ?_⟩
        exact .cons ⟨rfl, rfl, rfl, trivial, rfl, parts⟩ .nil
    | page object => exact ⟨_, rfl, .cons ⟨rfl, rfl, rfl, rfl, rfl, parts⟩ .nil⟩
    | this => exact absurd rfl elsewhere
  · rename_i uncallable
    have callable : ¬ isCallable facts (target, binding) = true := by rw [isCallable, uncallable]; simp
    rw [List.filter_cons_of_neg callable, List.filter_nil]
    refine ⟨[], ?_, .nil⟩
    rw [List.append_nil]
    exact @Draft.perform_handlers draft (.addWarning _) fun _ _ => Draft.Operation.noConfusion

theorem handlers_listeners (entries : List (Target × Binding))
    (elsewhere : ∀ entry ∈ entries, entry.1 ≠ .this) (draft : Draft) :
    ∃ added, (entries.foldl (fun draft entry => register facts entry.1 draft entry.2)
        draft).handlers = draft.handlers ++ added ∧
      List.Forall₂ (MadeFor facts) (entries.filter (isCallable facts)) added := by
  induction entries generalizing draft with
  | nil => exact ⟨[], (List.append_nil _).symm, .nil⟩
  | cons entry rest ih =>
      rcases handlers_register (elsewhere entry List.mem_cons_self) draft with
        ⟨first, isFirst, made⟩
      rcases ih (fun other member => elsewhere other (List.mem_cons_of_mem entry member))
        (register facts entry.1 draft entry.2) with ⟨others, areOthers, later⟩
      refine ⟨first ++ others, ?_, ?_⟩
      · rw [List.foldl_cons, areOthers, isFirst, List.append_assoc]
      · rw [← List.singleton_append, List.filter_append]
        exact List.rel_append made later

/-- The handlers of a script have been made for its bindings: one for each that can be called, in
the order of the script. -/
theorem forall₂_handlers_runAll {draft : Draft} (blank : draft.handlers = []) :
    List.Forall₂ (MadeFor facts) ((eventBindings facts).filter (isCallable facts))
      (Stage.runAll facts draft).handlers := by
  have before : (runStages facts [.declarations, .startup] draft).handlers = [] :=
    (handlers_runStages _ (by decide) draft).trans blank
  have later : (Stage.runAll facts draft).handlers =
      (listeners facts (runStages facts [.declarations, .startup] draft)).handlers :=
    handlers_runStages (Stage.all.drop 3) (by decide) _
  rcases handlers_listeners (eventBindings facts) (fun _ => target_ne_this)
    (runStages facts [.declarations, .startup] draft) with ⟨added, same, made⟩
  rw [← listeners_eq, before, List.nil_append] at same
  rwa [later, same]

/-- A binding that can be called has got its handler. -/
theorem exists_handler_of_isCallable {draft : Draft} (blank : draft.handlers = [])
    {entry : Target × Binding} (binds : entry ∈ eventBindings facts)
    (callable : isCallable facts entry = true) :
    ∃ handler ∈ (Stage.runAll facts draft).handlers, MadeFor facts entry handler := by
  have listed := List.mem_filter.mpr ⟨binds, callable⟩
  have made : List.Forall₂ (MadeFor facts) _ _ := forall₂_handlers_runAll blank
  rcases List.getElem_of_mem listed with ⟨index, inside, same⟩
  have bound := made.length_eq ▸ inside
  exact ⟨_, List.getElem_mem bound, same ▸ made.get inside bound⟩

end Handlers

/-! ## Warnings -/

/-- A warning is added unless it is there already. -/
def note (noted : List String) (warning : String) : List String :=
  if noted.contains warning then noted else noted ++ [warning]

/-- The warning about a binding whose handler cannot be called. -/
def refusal (target : Target) (binding : Binding) : String :=
  binding.event ++ " event handler on " ++ target.label ++
    " is not a function and was not converted"

/-- The warning about a call that is kept as it is, or that binds inside nested code. -/
def caution? (facts : Facts) (head : Place) (target : Target) (call : MethodCall) :
    Option String :=
  let shown := target.label ++ "." ++ call.name ++ "()"
  match call.role with
  | .traversal =>
      some (shown ++
        " walks the DOM from a selection; the rest of that chain is kept as direct DOM code")
  | .unknown => some (shown ++ " has no React equivalent and is kept as a call on the element")
  | .binding =>
      if facts.isScopeExpression head then none
      else some (shown ++ " binds an event inside nested code; move it into an effect by hand")
  | _ => none

/-- What is warned of, with the target that it is about. -/
def warningsOf (facts : Facts) : List (Target × String) :=
  ((eventBindings facts).filter fun entry => ! isCallable facts entry).map
      (fun entry => (entry.1, refusal entry.1 entry.2)) ++
    (chainsIn facts.aliases facts.root).flatMap fun (head, chain) =>
      ((callsToTraversal chain.calls).filterMap (caution? facts head chain.target)).map
        fun warning => (chain.target, warning)

section Warnings

variable {facts : Facts}

theorem warnings_addWarning (draft : Draft) (warning : String) :
    (draft.addWarning warning).warnings = note draft.warnings warning := by
  rw [Draft.addWarning, note]
  split <;> rfl

theorem mem_foldl_note {warning : String} {warnings noted : List String} :
    warning ∈ warnings.foldl note noted ↔ warning ∈ noted ∨ warning ∈ warnings := by
  induction warnings generalizing noted with
  | nil => simp
  | cons first rest ih =>
      have once : warning ∈ note noted first ↔ warning ∈ noted ∨ warning = first := by
        rw [note]
        split
        · rename_i known
          have listed := List.contains_iff_mem.mp known
          exact ⟨.inl, fun either => either.elim id fun same => same ▸ listed⟩
        · simp
      rw [List.foldl_cons, ih, once, List.mem_cons, or_assoc]

/-- What each item notes, all of them note one after the other. -/
theorem warnings_foldl {Item : Type} {items : List Item} {add : Draft → Item → Draft}
    {notes : Item → List String}
    (each : ∀ item draft, (add draft item).warnings = (notes item).foldl note draft.warnings)
    (draft : Draft) :
    (items.foldl add draft).warnings = (items.flatMap notes).foldl note draft.warnings := by
  induction items generalizing draft with
  | nil => rfl
  | cons first rest ih =>
      rw [List.foldl_cons, ih, each, List.flatMap_cons, List.foldl_append]

theorem warnings_addBinding (target : Target) (binding : Binding) (parameters body : String)
    (draft : Draft) :
    (addBinding facts target binding parameters body draft).warnings = draft.warnings := by
  cases target with
  | selector selector =>
      exact @Draft.perform_warnings draft (.ensureReferenceNamed selector _)
        fun _ => Draft.Operation.noConfusion
  | page object => rfl
  | this => rfl

theorem warnings_register (entry : Target × Binding) (draft : Draft) :
    (register facts entry.1 draft entry.2).warnings =
      (if isCallable facts entry then [] else [refusal entry.1 entry.2]).foldl note
        draft.warnings := by
  rw [register]
  split
  · rename_i parameters body parts
    have callable : isCallable facts entry = true := by rw [isCallable, parts]; rfl
    rw [if_pos callable, warnings_addBinding]
    cases handlerSource facts entry.2.handler <;> rfl
  · rename_i uncallable
    have callable : ¬ isCallable facts entry = true := by rw [isCallable, uncallable]; simp
    rw [if_neg callable, warnings_addWarning]
    rfl

theorem warnings_listeners (facts : Facts) (draft : Draft) :
    (listeners facts draft).warnings =
      (((eventBindings facts).filter fun entry => ! isCallable facts entry).map
        fun entry => refusal entry.1 entry.2).foldl note draft.warnings := by
  rw [listeners_eq, warnings_foldl warnings_register]
  congr 1
  induction eventBindings facts with
  | nil => rfl
  | cons entry rest ih =>
      rw [List.flatMap_cons, ih]
      cases callable : isCallable facts entry <;> simp [callable]

theorem warnings_addOwningState (selector method : String) (facet : Facet) (draft : Draft) :
    (addOwningState selector method facet draft).warnings = draft.warnings := by
  rw [addOwningState]
  split
  · rfl
  · exact @Draft.perform_warnings draft (.addState _) fun _ => Draft.Operation.noConfusion

theorem warnings_recordCall (head : Place) (target : Target) (call : MethodCall) (draft : Draft) :
    (recordCall facts head target draft call).warnings =
      (caution? facts head target call).toList.foldl note draft.warnings := by
  rw [recordCall, caution?]
  cases call.role with
  | mutation facet =>
      cases target with
      | selector selector => exact warnings_addOwningState selector call.name facet _
      | page object => rfl
      | this => rfl
  | traversal => exact warnings_addWarning draft _
  | unknown => exact warnings_addWarning draft _
  | binding =>
      dsimp only
      split
      · rfl
      · exact warnings_addWarning draft _
  | _ => rfl

theorem warnings_mutations (facts : Facts) (draft : Draft) :
    (mutations facts draft).warnings =
      ((chainsIn facts.aliases facts.root).flatMap fun (head, chain) =>
        (callsToTraversal chain.calls).filterMap (caution? facts head chain.target)).foldl note
          draft.warnings := by
  refine warnings_foldl ?_ draft
  rintro ⟨head, chain⟩ start
  rw [warnings_foldl (warnings_recordCall head chain.target)]
  dsimp only
  rw [List.filterMap_eq_flatMap_toList]

/-- The warnings of a script are those of its bindings and those of its chains, each once. -/
theorem warnings_runAll {draft : Draft} (blank : draft.warnings = []) :
    (Stage.runAll facts draft).warnings = ((warningsOf facts).map (·.2)).foldl note [] := by
  have before : (runStages facts [.declarations, .startup] draft).warnings = [] :=
    (warnings_runStages _ (by decide) (by decide) draft).trans blank
  have between : ∀ start : Draft,
      (runStages facts [.requests, .animations, .functions] start).warnings = start.warnings :=
    warnings_runStages _ (by decide) (by decide)
  have later : (Stage.runAll facts draft).warnings =
      (mutations facts (runStages facts [.requests, .animations, .functions]
        (listeners facts (runStages facts [.declarations, .startup] draft)))).warnings :=
    warnings_runStages [.references] (by decide) (by decide) _
  rw [later, warnings_mutations, between, warnings_listeners, before, ← List.foldl_append]
  simp only [warningsOf, List.map_append, List.map_map, List.map_flatMap, Function.comp_def,
    List.map_id']

theorem mem_warnings_runAll {draft : Draft} (blank : draft.warnings = []) {warning : String} :
    warning ∈ (Stage.runAll facts draft).warnings ↔
      ∃ target, (target, warning) ∈ warningsOf facts := by
  rw [warnings_runAll blank, mem_foldl_note]
  simp

end Warnings

end Pass
end Hookify
