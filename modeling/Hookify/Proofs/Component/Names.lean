import Hookify.Component.Draft
import Hookify.Proofs.Identifier.Fresh
import Mathlib.Data.List.Perm.Basic

namespace Hookify

/-!
# The names of a draft

A draft has four lists of named parts: its states, references, handlers and
functions.  It finds out whether a name is in use by asking one collection of
taken names, in which each of the four kinds is entered in a way of its own.

A draft is registered if that collection has exactly the names of the parts,
each once.  There are four ways in which a draft gets a new named part, and all
of them leave it registered and what it had before in its place.
-/

/-! ## Names in lists -/

/-- One of several things with different names is found by its name. -/
theorem filter_eq_singleton {Item : Type} {nameOf : Item → String} {items : List Item}
    (distinct : (items.map nameOf).Nodup) {item : Item} (member : item ∈ items) :
    items.filter (nameOf · == nameOf item) = [item] := by
  induction items with
  | nil => exact absurd member List.not_mem_nil
  | cons first rest ih =>
      rw [List.map_cons, List.nodup_cons] at distinct
      rcases distinct with ⟨fresh, others⟩
      rcases List.mem_cons.mp member with rfl | later
      · have none : rest.filter (nameOf · == nameOf item) = [] := by
          rw [List.filter_eq_nil_iff]
          intro other inside same
          exact fresh (beq_iff_eq.mp same ▸ List.mem_map_of_mem inside)
        rw [List.filter_cons, if_pos (beq_self_eq_true _), none]
      · have different : ¬ (nameOf first == nameOf item) = true := by
          intro same
          exact fresh (beq_iff_eq.mp same ▸ List.mem_map_of_mem later)
        rw [List.filter_cons, if_neg different, ih others later]

namespace Draft

/-- The names of all named parts. -/
def identifiers (draft : Draft) : List String :=
  draft.states.map (·.identifier) ++ draft.references.map (·.identifier) ++
    draft.handlers.map (·.name) ++ draft.functions.map (·.name)

theorem mem_identifiers {draft : Draft} {identifier : String} :
    identifier ∈ draft.identifiers ↔
      (∃ state ∈ draft.states, state.identifier = identifier) ∨
      (∃ reference ∈ draft.references, reference.identifier = identifier) ∨
      (∃ handler ∈ draft.handlers, handler.name = identifier) ∨
      ∃ function ∈ draft.functions, function.name = identifier := by
  rw [identifiers, List.mem_append, List.mem_append, List.mem_append, List.mem_map, List.mem_map,
    List.mem_map, List.mem_map, or_assoc, or_assoc]

theorem isTaken_iff_mem {draft : Draft} {identifier : String} :
    draft.isTaken identifier = true ↔ identifier ∈ draft.taken :=
  List.contains_iff_mem

/-! ## Order -/

/-- What the first draft has, the second has too. -/
structure Extends (first second : Draft) : Prop where
  states : first.states <+: second.states
  references : first.references <+: second.references
  handlers : first.handlers <+: second.handlers
  functions : first.functions <+: second.functions

theorem Extends.refl (draft : Draft) : draft.Extends draft :=
  ⟨List.prefix_rfl, List.prefix_rfl, List.prefix_rfl, List.prefix_rfl⟩

theorem Extends.trans {first second third : Draft} (left : first.Extends second)
    (right : second.Extends third) : first.Extends third :=
  ⟨left.states.trans right.states, left.references.trans right.references,
    left.handlers.trans right.handlers, left.functions.trans right.functions⟩

theorem Extends.identifiers {first second : Draft} (extends_ : first.Extends second)
    {identifier : String} (member : identifier ∈ first.identifiers) :
    identifier ∈ second.identifiers := by
  rw [mem_identifiers] at member ⊢
  rcases member with ⟨state, inside, same⟩ | ⟨reference, inside, same⟩ | ⟨handler, inside, same⟩ |
    ⟨function, inside, same⟩
  · exact .inl ⟨state, extends_.states.subset inside, same⟩
  · exact .inr (.inl ⟨reference, extends_.references.subset inside, same⟩)
  · exact .inr (.inr (.inl ⟨handler, extends_.handlers.subset inside, same⟩))
  · exact .inr (.inr (.inr ⟨function, extends_.functions.subset inside, same⟩))

theorem extends_withState (draft : Draft) (state : StateVariable) :
    draft.Extends (draft.withState state) :=
  { Extends.refl draft with states := List.prefix_append _ _ }

theorem extends_withReference (draft : Draft) (reference : Reference) :
    draft.Extends (draft.withReference reference) :=
  { Extends.refl draft with references := List.prefix_append _ _ }

theorem extends_addHandler (draft : Draft) (handler : Handler) (code : String) :
    draft.Extends (draft.addHandler handler code).1 :=
  { Extends.refl draft with handlers := List.prefix_append _ _ }

theorem extends_withFunction (draft : Draft) (function : NamedFunction) :
    draft.Extends (draft.withFunction function) :=
  { Extends.refl draft with functions := List.prefix_append _ _ }

/-! ## Registered names -/

/-- The names in use are those of the named parts, and no two parts have the same name. -/
structure Registered (draft : Draft) : Prop where
  taken : draft.taken.Perm draft.identifiers
  distinct : draft.identifiers.Nodup

namespace Registered

variable {draft : Draft}

theorem isTaken_iff (registered : draft.Registered) {identifier : String} :
    draft.isTaken identifier = true ↔ identifier ∈ draft.identifiers :=
  isTaken_iff_mem.trans registered.taken.mem_iff

/-- A part is added under a name that was not taken. -/
theorem add (registered : draft.Registered) {later : Draft} {name : String}
    (free : name ∉ draft.taken) (entered : later.taken = name :: draft.taken)
    (added : later.identifiers.Perm (name :: draft.identifiers)) : later.Registered := by
  have names : later.taken.Perm later.identifiers := by
    rw [entered]
    exact (registered.taken.cons name).trans added.symm
  refine ⟨names, names.nodup_iff.mp ?_⟩
  rw [entered]
  exact List.nodup_cons.mpr ⟨free, registered.taken.nodup_iff.mpr registered.distinct⟩

theorem withState (registered : draft.Registered) {state : StateVariable}
    (free : state.identifier ∉ draft.taken) : (draft.withState state).Registered := by
  refine registered.add free rfl ?_
  simp only [identifiers, Draft.withState, List.map_append, List.map_cons, List.map_nil,
    List.append_assoc, List.singleton_append]
  exact List.perm_middle

theorem withReference (registered : draft.Registered) {reference : Reference}
    (free : reference.identifier ∉ draft.taken) : (draft.withReference reference).Registered := by
  refine registered.add free rfl ?_
  simp only [identifiers, Draft.withReference, List.map_append, List.map_cons, List.map_nil,
    List.append_assoc, List.singleton_append]
  exact (List.perm_middle.append_left _).trans List.perm_middle

/-- A handler needs no free name: it gets one. -/
theorem addHandler (registered : draft.Registered) (handler : Handler) (code : String) :
    (draft.addHandler handler code).1.Registered := by
  refine registered.add (Identifier.fresh_not_mem _ _) rfl ?_
  simp only [identifiers, Draft.addHandler, List.map_append, List.map_cons, List.map_nil,
    List.append_assoc, List.singleton_append]
  exact ((List.perm_middle.append_left _).append_left _).trans
    ((List.perm_middle.append_left _).trans List.perm_middle)

theorem withFunction (registered : draft.Registered) {function : NamedFunction}
    (free : function.name ∉ draft.taken) : (draft.withFunction function).Registered := by
  refine registered.add free rfl ?_
  simp only [identifiers, Draft.withFunction, List.map_append, List.map_cons, List.map_nil]
  rw [← List.append_assoc]
  exact List.perm_append_singleton _ _

end Registered

/-! ## Changes -/

/-- The second draft has the same named parts. -/
structure SameParts (first second : Draft) : Prop where
  taken : second.taken = first.taken
  states : second.states = first.states
  references : second.references = first.references
  handlers : second.handlers = first.handlers
  functions : second.functions = first.functions

/-- What may become of a draft at once: at most one named part is added.  Only a handler may ask
for a name that is taken. -/
inductive Change : Draft → Draft → Prop where
  | same {first second : Draft} (same : first.SameParts second) : Change first second
  | state {draft : Draft} {state : StateVariable} (free : state.identifier ∉ draft.taken) :
      Change draft (draft.withState state)
  | reference {draft : Draft} {reference : Reference}
      (free : reference.identifier ∉ draft.taken) : Change draft (draft.withReference reference)
  | handler {draft : Draft} (handler : Handler) (code : String) :
      Change draft (draft.addHandler handler code).1
  | function {draft : Draft} {function : NamedFunction} (free : function.name ∉ draft.taken) :
      Change draft (draft.withFunction function)

section Change

variable {first second : Draft}

theorem Change.extends (change : Change first second) : first.Extends second := by
  cases change with
  | same same =>
      exact ⟨same.states ▸ List.prefix_rfl, same.references ▸ List.prefix_rfl,
        same.handlers ▸ List.prefix_rfl, same.functions ▸ List.prefix_rfl⟩
  | state free => exact first.extends_withState _
  | reference free => exact first.extends_withReference _
  | handler handler code => exact first.extends_addHandler handler code
  | function free => exact first.extends_withFunction _

theorem Change.registered (change : Change first second) (registered : first.Registered) :
    second.Registered := by
  cases change with
  | same same =>
      have identifiers : second.identifiers = first.identifiers := by
        rw [Draft.identifiers, Draft.identifiers, same.states, same.references, same.handlers,
          same.functions]
      refine ⟨?_, identifiers ▸ registered.distinct⟩
      rw [identifiers, same.taken]
      exact registered.taken
  | state free => exact registered.withState free
  | reference free => exact registered.withReference free
  | handler handler code => exact registered.addHandler handler code
  | function free => exact registered.withFunction free

end Change
end Draft

/-!
## Operations on a draft

A draft is built by operations: parts are added to it, and it is told what to
record.  Nothing is assumed of their order or of their arguments.  A caller may
ask for a name twice, or for a reference under the name of a function.

Whatever the operations are, the draft stays registered, and each of them only
adds to the end of the lists of named parts.  The finished component has the
lists as they are in the end.
-/

namespace Draft

/-- What can be done to a draft. -/
inductive Operation where
  | addState (state : StateVariable)
  | ensureReference (selector : String)
  | ensureReferenceNamed (selector wanted : String)
  | addHandler (handler : Handler) (code : String)
  | addMountEffect (code description : String)
  | addFetchEffect (code description : String)
  | addFunction (function : NamedFunction)
  | claim (name : String)
  | addRemoteCall (call : RemoteCall)
  | addAnimation (animation : Animation)
  | addMutation (mutation : Mutation)
  | addSelector (selector : String)
  | addWarning (warning : String)
  | setResources (resources : List Resource)
  | setStyles (styles : Option String)
  deriving Repr, DecidableEq

/-- The draft after an operation; what the operation answers is left aside. -/
def perform (draft : Draft) : Operation → Draft
  | .addState state => (draft.addState state).1
  | .ensureReference selector => (draft.ensureReference selector).1
  | .ensureReferenceNamed selector wanted => (draft.ensureReferenceNamed selector wanted).1
  | .addHandler handler code => (draft.addHandler handler code).1
  | .addMountEffect code description => draft.addMountEffect code description
  | .addFetchEffect code description => draft.addFetchEffect code description
  | .addFunction function => (draft.addFunction function).1
  | .claim name => draft.claim name
  | .addRemoteCall call => draft.addRemoteCall call
  | .addAnimation animation => draft.addAnimation animation
  | .addMutation mutation => draft.addMutation mutation
  | .addSelector selector => draft.addSelector selector
  | .addWarning warning => draft.addWarning warning
  | .setResources resources => draft.setResources resources
  | .setStyles styles => draft.setStyles styles

/-- The draft after several operations. -/
def performAll (draft : Draft) (operations : List Operation) : Draft :=
  operations.foldl perform draft

/-! ## One operation -/

section Operations

variable (draft : Draft)

theorem SameParts.refl : draft.SameParts draft :=
  ⟨rfl, rfl, rfl, rfl, rfl⟩

/-- A state is refused exactly if some part has its name, and then nothing changes. -/
theorem addState_eq {draft : Draft} (registered : draft.Registered) (state : StateVariable) :
    draft.addState state =
      if state.identifier ∈ draft.identifiers then (draft, false)
      else (draft.withState state, true) := by
  rw [addState]
  simp only [registered.isTaken_iff]

/-- A function is refused exactly if some part has its name, and then nothing changes. -/
theorem addFunction_eq {draft : Draft} (registered : draft.Registered) (function : NamedFunction) :
    draft.addFunction function =
      if function.name ∈ draft.identifiers then (draft, false)
      else (draft.withFunction function, true) := by
  rw [addFunction]
  simp only [registered.isTaken_iff]

theorem change_addState (state : StateVariable) : draft.Change (draft.addState state).1 := by
  rw [addState]
  split
  · exact .same (SameParts.refl draft)
  · rename_i free
    exact .state (mt isTaken_iff_mem.mpr free)

theorem change_ensureReferenceNamed (selector wanted : String) :
    draft.Change (draft.ensureReferenceNamed selector wanted).1 := by
  rw [ensureReferenceNamed]
  split
  · exact .same (SameParts.refl draft)
  · exact .reference (Identifier.fresh_not_mem _ _)

theorem change_addFunction (function : NamedFunction) :
    draft.Change (draft.addFunction function).1 := by
  rw [addFunction]
  split
  · exact .same (SameParts.refl draft)
  · rename_i free
    exact .function (mt isTaken_iff_mem.mpr free)

theorem sameParts_addSelector (selector : String) :
    draft.SameParts (draft.addSelector selector) := by
  rw [addSelector]
  split
  · exact SameParts.refl draft
  · exact ⟨rfl, rfl, rfl, rfl, rfl⟩

theorem sameParts_addWarning (warning : String) :
    draft.SameParts (draft.addWarning warning) := by
  rw [addWarning]
  split
  · exact SameParts.refl draft
  · exact ⟨rfl, rfl, rfl, rfl, rfl⟩

theorem change_perform (operation : Operation) : draft.Change (draft.perform operation) := by
  cases operation with
  | addState state => exact change_addState draft state
  | ensureReference selector => exact change_ensureReferenceNamed draft selector _
  | ensureReferenceNamed selector wanted => exact change_ensureReferenceNamed draft selector wanted
  | addHandler handler code => exact .handler handler code
  | addFunction function => exact change_addFunction draft function
  | addSelector selector => exact .same (sameParts_addSelector draft selector)
  | addWarning warning => exact .same (sameParts_addWarning draft warning)
  | _ => exact .same ⟨rfl, rfl, rfl, rfl, rfl⟩

end Operations

/-! ## Any number of operations -/

/-- What every operation preserves is preserved by any number of them. -/
theorem performAll_preserves (invariant : Draft → Prop)
    (preserved : ∀ {draft : Draft} (operation : Operation), invariant draft →
      invariant (draft.perform operation))
    {draft : Draft} (holds : invariant draft) (operations : List Operation) :
    invariant (draft.performAll operations) := by
  induction operations generalizing draft with
  | nil => exact holds
  | cons operation rest ih => exact ih (preserved operation holds)

theorem extends_performAll (draft : Draft) (operations : List Operation) :
    draft.Extends (draft.performAll operations) :=
  performAll_preserves draft.Extends
    (fun operation extended => extended.trans (change_perform _ operation).extends)
    (Extends.refl draft) operations

theorem registered_new (name source : String) : (new name source).Registered :=
  ⟨List.Perm.refl [], List.nodup_nil⟩

theorem registered_performAll (name source : String) (operations : List Operation) :
    ((new name source).performAll operations).Registered :=
  performAll_preserves Registered (fun operation => (change_perform _ operation).registered)
    (registered_new name source) operations

/-- After any operations the named parts have different names, and the names in use are theirs.
Further operations leave the parts where they are, up to the finished component; a state or a
function is refused exactly if its name is in use, and then nothing changes. -/
theorem performAll_names (name source : String) (operations later : List Operation) :
    let draft := (new name source).performAll operations
    let component := (draft.performAll later).finish
    draft.identifiers.Nodup ∧
      (∀ identifier, draft.isTaken identifier = true ↔ identifier ∈ draft.identifiers) ∧
      (draft.states <+: component.states ∧ draft.references <+: component.references ∧
        draft.handlers <+: component.handlers ∧ draft.functions <+: component.functions) ∧
      (∀ state, draft.addState state =
        if state.identifier ∈ draft.identifiers then (draft, false)
        else (draft.withState state, true)) ∧
      ∀ function, draft.addFunction function =
        if function.name ∈ draft.identifiers then (draft, false)
        else (draft.withFunction function, true) := by
  intro draft component
  have registered : draft.Registered := registered_performAll name source operations
  have extended : draft.Extends (draft.performAll later) := extends_performAll draft later
  exact ⟨registered.distinct, fun _ => registered.isTaken_iff,
    ⟨extended.states, extended.references, extended.handlers, extended.functions⟩,
    addState_eq registered, addFunction_eq registered⟩

/-- The name of a function is kept from the reference that asks for it, and a second reference to
the same element is the first. -/
example :
    let draft := (new "Box" "box.js").performAll
      [.addFunction ⟨"boxRef", "", "", false⟩, .ensureReference "#box",
        .ensureReferenceNamed ".box" "other"]
    draft.identifiers = ["boxRef2", "boxRef"] := by
  decide +kernel

end Draft
end Hookify
