import Hookify.Proofs.Conversion.Code
import Hookify.Proofs.Conversion.Events
import Hookify.Proofs.Pass.ChainRecords
import Hookify.Proofs.Renderer.Calls
import Hookify.Proofs.Renderer.Locality

namespace Hookify

open Script Selection

/-!
# What is left of the selecting function

The component has no selecting function.  A call through it that is left in the
code fails when it runs, so the report should not be empty then.

Rendering leaves such a call if there is no rule for it.  The warnings come from
elsewhere: from bindings whose handler cannot be called, and from calls of chains
that begin at something selected.  A call that is left belongs to no such chain,
unless the script has given the name of the selecting function to a selection,
so there is a warning only if something else in the script is warned of.
-/

/-- A script is warned of something. -/
inductive Pass.Warns (facts : Facts) : Prop where
  | binding {entry : Target × Pass.Binding} (binds : entry ∈ Pass.eventBindings facts)
      (refused : Pass.isCallable facts entry = false)
  | call {head : Place} {chain : Chain} {call : MethodCall}
      (listed : (head, chain) ∈ chainsIn facts.aliases facts.root)
      (reached : call ∈ Pass.callsToTraversal chain.calls)
      (role : call.role = .traversal ∨ call.role = .unknown ∨
        call.role = .binding ∧ facts.isScopeExpression head = false)

/-- A listener calls its handler by what the script writes for it. -/
def Pass.CallsByText (facts : Facts) (binding : Pass.Binding) : Prop :=
  Pass.handlerSource facts binding.handler = .called binding.handler.text

namespace Component

/-- A call through the selecting function is shown and left as it is. -/
def Leaves (component : Component) (facts : Facts) (this : Option String) (place : Place) : Prop :=
  component.Shows facts this place ∧ callsSelect place = true ∧
    (Renderer.of facts this).replacement? place = none

/-- The code of a component calls the selecting function: in a call that is left, or in a handler
that is called by its name. -/
inductive CallsSelect (component : Component) (facts : Facts) : Prop where
  | left {this : Option String} {place : Place} (leaves : component.Leaves facts this place)
  | handler {entry : Target × Pass.Binding} (binds : entry ∈ Pass.eventBindings facts)
      (selects : namesSelect entry.2.handler = true) (called : Pass.CallsByText facts entry.2)

/-- If the code calls the selecting function, there is a warning. -/
def ReportsCalls (component : Component) (facts : Facts) : Prop :=
  component.CallsSelect facts → component.warnings ≠ []

/-- If some code of the component has a call through the selecting function when it is read as a
script, there is a warning. -/
def ReportsCode (component : Component) : Prop :=
  (∃ code ∈ component.codes, ∃ place ∈ (Place.ofRoot (parse code)).walk,
    callsSelect place = true) → component.warnings ≠ []

end Component

section Left

variable {facts : Facts} {head place name : Place} {chain : Chain} {call : MethodCall}

theorem isSome_caution?_iff (target : Target) :
    (Pass.caution? facts head target call).isSome = true ↔
      call.role = .traversal ∨ call.role = .unknown ∨
        call.role = .binding ∧ facts.isScopeExpression head = false := by
  rw [Pass.caution?]
  cases call.role with
  | binding => cases facts.isScopeExpression head <;> simp
  | _ => simp

theorem exists_mem_warningsOf_iff_warns :
    (∃ entry, entry ∈ Pass.warningsOf facts) ↔ Pass.Warns facts := by
  constructor
  · rintro ⟨entry, listed⟩
    rw [Pass.warningsOf, List.mem_append, List.mem_map, List.mem_flatMap] at listed
    rcases listed with ⟨bound, refused, _⟩ | ⟨⟨head, chain⟩, listed, cautioned⟩
    · rw [List.mem_filter, Bool.not_eq_true'] at refused
      exact .binding refused.1 refused.2
    · obtain ⟨warning, among, _⟩ := List.mem_map.mp cautioned
      obtain ⟨call, reached, cautions⟩ := List.mem_filterMap.mp among
      exact .call listed reached
        ((isSome_caution?_iff _).mp (Option.isSome_iff_exists.mpr ⟨warning, cautions⟩))
  · intro warns
    cases warns with
    | @binding entry binds refused =>
        refine ⟨_, List.mem_append_left _ (List.mem_map_of_mem (List.mem_filter.mpr ⟨binds, ?_⟩))⟩
        rw [refused]
        rfl
    | @call head chain call listed reached role =>
        obtain ⟨warning, cautions⟩ := Option.isSome_iff_exists.mp
          ((isSome_caution?_iff chain.target).mpr role)
        exact ⟨_, List.mem_append_right _ (List.mem_flatMap.mpr ⟨(head, chain), listed,
          List.mem_map_of_mem (List.mem_filterMap.mpr ⟨call, reached, cautions⟩)⟩)⟩

/-- What cannot be selected begins no chain. -/
theorem directTarget?_of_hasNoRule (noRule : facts.HasNoRule place) :
    directTarget? place = none := by
  cases noRule with
  | selection _ nothing => exact nothing
  | method named =>
      obtain ⟨function, _, _, isFunction, isMember, _⟩ := Renderer.helperName?_eq_some_iff.mp named
      simp [directTarget?, selectArguments?, isFunction, isMember]

/-- A call without a rule is in a chain only if the script has given its name to a selection. -/
theorem isSome_alias?_of_mem_chain (found : calledName? place = some name)
    (noRule : facts.HasNoRule place) (chained : facts.chain? head = some chain)
    (member : place = chain.root ∨ ∃ call ∈ chain.calls, call.place = place) :
    (facts.alias? name.text).isSome = true := by
  obtain ⟨isCall, isName, function, isFunction, owner⟩ := Renderer.calledName?_eq_some found
  rw [Facts.chain?, Chain.at?_eq, Option.map_eq_some_iff] at chained
  obtain ⟨target, targets, rfl⟩ := chained
  rcases member with same | ⟨call, member, rfl⟩
  · dsimp only at same
    rw [← same, targetOf?, isCall, if_neg (by decide), directTarget?_of_hasNoRule noRule] at targets
    cases targets
  · obtain ⟨before, after, split⟩ := List.append_of_mem member
    obtain ⟨calls, _⟩ := callsTo_of_split split
    have filled : (callsTo call.place).1 ≠ [] := by simp [calls]
    obtain ⟨_, object, isMethod⟩ := exists_methodCall? filled
    obtain ⟨_, other, _, isOther, isMember, isObject, _⟩ := shape_of_methodCall? isMethod
    rw [isFunction] at isOther
    obtain rfl := Option.some.inj isOther
    rw [owner isMember] at isObject
    obtain rfl := Option.some.inj isObject
    have noMethod : methodCall? name = none := by simp [methodCall?, isName]
    have root : (callsTo head).2 = name := by
      rw [callsTo_of_methodCall? isMethod, callsTo_eq name, noMethod] at calls
      exact (congrArg Prod.snd calls).symm
    rw [root, targetOf?, isName, if_pos (by decide)] at targets
    rw [Facts.alias?]
    cases aliased : facts.aliases.find? name.text with
    | none => rw [aliased] at targets; cases targets
    | some selector => rfl

/-- What a kept call calls, if nothing of it is replaced, is called by the code. -/
theorem Component.Shows.hasCode_of_function {component : Component} {this : Option String}
    {function : Place} (shown : component.Shows facts this place)
    (isCall : place.kind = .callExpression)
    (kept : (Renderer.of facts this).replacement? place = none)
    (isFunction : place.child? .function = some function)
    (copied : Renderer.Copied facts this function) (solid : Text.IsSolid function.text.toList) :
    component.HasCode function.text := by
  have member := Place.mem_children_of_child? isFunction
  have small := Place.size_le_of_mem_walk shown.mem_walk
  refine shown.hasCode_of_render solid ?_
  rw [Renderer.render_of facts this small, kept, isCall]
  refine Renderer.occursIn_renderParts (Renderer.mem_placeParts_iff.mpr member) ?_
  rw [if_neg (by decide), copied.render_eq
    (Nat.le_trans (Nat.le_of_lt (Place.size_lt_of_mem_children member)) small)]
  exact Text.occursIn_self _

end Left

/-- A component is warned of exactly if something in its script is. -/
theorem warnings_ne_nil_iff (document : Document) (settings : Settings) (tree : Node) :
    (document.componentOf settings tree).warnings ≠ [] ↔ Pass.Warns (Facts.ofTree tree) := by
  rw [← exists_mem_warningsOf_iff_warns, ne_eq, List.eq_nil_iff_forall_not_mem, not_forall]
  simp only [not_not, mem_warnings_componentOf, Prod.exists]
  exact exists_comm

/-- A handler that is called by its text has that call as its body. -/
theorem exists_handler_of_callsByText (document : Document) (settings : Settings) {tree : Node}
    {entry : Target × Pass.Binding} (binds : entry ∈ Pass.eventBindings (Facts.ofTree tree))
    (called : Pass.CallsByText (Facts.ofTree tree) entry.2) :
    ∃ handler ∈ (document.componentOf settings tree).handlers,
      handler.body = entry.2.handler.text ++ "(event);" := by
  have parts : Pass.handlerParts? (Facts.ofTree tree) entry.2.delegate
      (Pass.handlerSource (Facts.ofTree tree) entry.2.handler) =
        some ("event", entry.2.handler.text ++ "(event);") := by
    rw [called]
    rfl
  obtain ⟨handler, member, made⟩ := Pass.exists_handler_of_isCallable
    (document.blank_draft settings).handlers binds (by rw [Pass.isCallable, parts]; rfl)
  have same := Option.some.inj (parts.symm.trans made.parts)
  exact ⟨handler, member, (Prod.mk.inj same).2.symm⟩

end Hookify
