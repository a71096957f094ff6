import Hookify.Proofs.Facts.Prefixes
import Hookify.Proofs.Pass.Coverage
import Hookify.Proofs.Pass.Reports

namespace Hookify
namespace Pass

open Script Selection

/-!
# What is recorded because of a call

The passes on animations, on changes of elements and on listeners each go
through the calls of chains, up to the first that leads to other elements.  All
that they record because of one call is put into one list here.  The lists of
all chains together account for what a component has of these things.

A chain that goes on behind some of its calls is recorded like its beginning
exactly if the recording does not come to the calls behind, or if there is
nothing to be recorded of them.
-/

/-- What a pass records because of a call. -/
inductive Record where
  | mutation (mutation : Mutation)
  | state (state : StateVariable)
  | animation (animation : Animation)
  | binding (target : Target) (binding : Binding)
  | warning (text : String)

namespace Record

/-- The recorded change of an element. -/
def mutation? : Record → Option Mutation
  | .mutation change => some change
  | _ => none

/-- The recorded state. -/
def state? : Record → Option StateVariable
  | .state owner => some owner
  | _ => none

/-- The recorded animation. -/
def animation? : Record → Option Animation
  | .animation effect => some effect
  | _ => none

end Record

section Records

variable (facts : Facts)

/-- The listeners take the events of an expression with a target. -/
def listensAt (head : Place) (target : Target) : Bool :=
  target != .this && facts.statements.any fun statement =>
    ! introducesScope statement && (statementExpression? statement).any (·.path == head.path)

/-- What is recorded because of a call, apart from warnings. -/
def plainRecordsOf (head : Place) (target : Target) (call : MethodCall) : List Record :=
  match call.role with
  | .mutation facet =>
      .mutation ⟨target.label, call.name, facet⟩ ::
        match target with
        | .selector selector => [.state (owningState selector call.name facet)]
        | _ => []
  | .animation => [.animation (Animation.ofCall target call)]
  | .binding => if listensAt facts head target then (bindingsOf call).map (.binding target) else []
  | _ => []

/-- What is recorded because of a call. -/
def recordsOf (head : Place) (target : Target) (call : MethodCall) : List Record :=
  plainRecordsOf facts head target call ++ (caution? facts head target call).toList.map .warning

/-- What is recorded because of the calls of a chain. -/
def chainRecords (head : Place) (chain : Chain) : List Record :=
  (callsToTraversal chain.calls).flatMap (recordsOf facts head chain.target)

/-- What is recorded because of the calls of all chains. -/
def records : List Record :=
  (chainsIn facts.aliases facts.root).flatMap fun (head, chain) => chainRecords facts head chain

end Records

/-- The animations of a script: those of each chain, before the first call that leads to other
elements. -/
def animationsOf (facts : Facts) : List Animation :=
  (chainsIn facts.aliases facts.root).flatMap fun (_, chain) =>
    (chain.effective.filter (·.role == .animation)).map (Animation.ofCall chain.target)

/-! ## Chains and their beginnings -/

section Beginnings

variable {facts : Facts} {head : Place} {target : Target} {chain : Chain} {read : MethodCall}
  {before after : List MethodCall}

theorem callsToTraversal_append (first second : List MethodCall) :
    callsToTraversal (first ++ second) =
      if ∃ call ∈ first, call.role = .traversal then callsToTraversal first
      else first ++ callsToTraversal second := by
  induction first with
  | nil => simp
  | cons call rest ih =>
      rw [List.cons_append, callsToTraversal, callsToTraversal, ih]
      by_cases leads : call.role = .traversal
      · simp [leads]
      · by_cases later : ∃ call ∈ rest, call.role = .traversal <;> simp [leads, later]

theorem callsToTraversal_of_none (none : ¬ ∃ call ∈ before, call.role = .traversal) :
    callsToTraversal before = before := by
  have whole := callsToTraversal_append before []
  rwa [List.append_nil, if_neg none, callsToTraversal, List.append_nil] at whole

/-- Nothing is recorded because of the calls behind a call that reads exactly if the recording ends
before them, or if there is nothing to be recorded of any of them. -/
theorem chainRecords_eq_iff (split : chain.calls = before ++ read :: after)
    (role : read.role = .read) :
    chainRecords facts head chain = chainRecords facts head (chain.upTo (before ++ [read])) ↔
      (∃ call ∈ before, call.role = .traversal) ∨
        ∀ call ∈ callsToTraversal after, recordsOf facts head chain.target call = [] := by
  have leads : (∃ call ∈ before ++ [read], call.role = .traversal) ↔
      ∃ call ∈ before, call.role = .traversal := by
    simp [role, or_and_right, exists_or]
  have calls : chain.calls = (before ++ [read]) ++ after := by
    rw [split, List.append_assoc, List.singleton_append]
  rw [chainRecords, chainRecords, calls, callsToTraversal_append, Chain.upTo]
  dsimp only
  by_cases ends : ∃ call ∈ before, call.role = .traversal
  · rw [if_pos (leads.mpr ends)]
    exact iff_of_true rfl (.inl ends)
  · rw [if_neg (mt leads.mp ends), callsToTraversal_of_none (mt leads.mp ends),
      List.flatMap_append, List.append_right_eq_self, List.flatMap_eq_nil_iff, or_iff_right ends]

end Beginnings

/-! ## What the passes record -/

section Passes

variable {facts : Facts} {head : Place} {target : Target} {call : MethodCall} {chain : Chain}

theorem filterMap_chainRecords {Value : Type} (read : Record → Option Value) :
    (chainRecords facts head chain).filterMap read =
      (callsToTraversal chain.calls).flatMap fun call =>
        (recordsOf facts head chain.target call).filterMap read := by
  rw [chainRecords, List.filterMap_flatMap]

theorem filterMap_records {Value : Type} (read : Record → Option Value) :
    (records facts).filterMap read = (chainsIn facts.aliases facts.root).flatMap fun found =>
      (chainRecords facts found.1 found.2).filterMap read := by
  rw [records, List.filterMap_flatMap]

/-! ### Changes and states -/

theorem mutations_addWarning (draft : Draft) (warning : String) :
    (draft.addWarning warning).mutations = draft.mutations :=
  @Draft.perform_mutations draft (.addWarning warning) fun _ => Draft.Operation.noConfusion

theorem mutations_addOwningState (selector method : String) (facet : Facet) (draft : Draft) :
    (addOwningState selector method facet draft).mutations = draft.mutations := by
  rw [addOwningState]
  split
  · rfl
  · exact @Draft.perform_mutations draft (.addState _) fun _ => Draft.Operation.noConfusion

theorem filterMap_recordsOf {Value : Type} {read : Record → Option Value}
    (silent : ∀ text, read (.warning text) = none) :
    (recordsOf facts head target call).filterMap read =
      (plainRecordsOf facts head target call).filterMap read := by
  rw [recordsOf, List.filterMap_append]
  cases caution? facts head target call <;> simp [silent]

theorem mutations_recordCall (call : MethodCall) (draft : Draft) :
    (recordCall facts head target draft call).mutations =
      draft.mutations ++ (recordsOf facts head target call).filterMap Record.mutation? := by
  rw [filterMap_recordsOf fun _ => rfl, recordCall, plainRecordsOf]
  cases call.role with
  | mutation facet =>
      cases target with
      | selector selector => exact mutations_addOwningState selector call.name facet _
      | page object => rfl
      | this => rfl
  | binding =>
      have none : ((bindingsOf call).map (Record.binding target)).filterMap Record.mutation? = [] :=
        List.filterMap_eq_nil_iff.mpr fun record member => by
          obtain ⟨binding, _, rfl⟩ := List.mem_map.mp member
          rfl
      dsimp only
      rw [apply_ite (List.filterMap Record.mutation?), none]
      split
      · simp
      · simp [mutations_addWarning]
  | traversal => exact (mutations_addWarning draft _).trans (List.append_nil _).symm
  | unknown => exact (mutations_addWarning draft _).trans (List.append_nil _).symm
  | _ => exact (List.append_nil _).symm

theorem mutations_mutations (facts : Facts) (draft : Draft) :
    (mutations facts draft).mutations =
      draft.mutations ++ (records facts).filterMap Record.mutation? := by
  rw [filterMap_records]
  refine Draft.foldl_appends (·.mutations) _ (fun found start => ?_) draft
  rw [filterMap_chainRecords]
  exact Draft.foldl_appends (·.mutations) _ mutations_recordCall start

theorem mem_states_addOwningState {selector method : String} {facet : Facet} {draft : Draft}
    {state : StateVariable} (member : state ∈ (addOwningState selector method facet draft).states) :
    state ∈ draft.states ∨ state = owningState selector method facet := by
  rw [addOwningState] at member
  split at member
  · exact .inl member
  · exact Draft.mem_states_addState member

theorem mem_states_recordCall {draft : Draft} {state : StateVariable}
    (member : state ∈ (recordCall facts head target draft call).states) :
    state ∈ draft.states ∨ state ∈ (recordsOf facts head target call).filterMap Record.state? := by
  have warned : ∀ warning, (draft.addWarning warning).states = draft.states := fun warning =>
    @Draft.perform_states draft (.addWarning warning) fun _ => Draft.Operation.noConfusion
  rw [recordCall] at member
  rw [filterMap_recordsOf fun _ => rfl, plainRecordsOf]
  cases role : call.role with
  | mutation facet =>
      rw [role] at member
      cases target with
      | selector selector =>
          refine (mem_states_addOwningState member).imp_right ?_
          rintro rfl
          exact List.mem_singleton.mpr rfl
      | page object => exact .inl member
      | this => exact .inl member
  | binding =>
      rw [role] at member
      dsimp only at member
      split at member
      · exact .inl member
      · exact .inl (warned _ ▸ member)
  | traversal | unknown =>
      rw [role] at member
      exact .inl (warned _ ▸ member)
  | _ =>
      rw [role] at member
      exact .inl member

/-- The states that the recording of changes adds own the facets that calls change. -/
theorem mem_states_mutations {draft : Draft} {state : StateVariable}
    (member : state ∈ (mutations facts draft).states) :
    state ∈ draft.states ∨ .state state ∈ records facts := by
  have recorded : ∀ found : Record, found.state? = some state → found = .state state := by
    intro found same
    cases found <;> cases same
    rfl
  refine (Draft.mem_foldl_added (·.states) (fun found : Place × Chain =>
    (chainRecords facts found.1 found.2).filterMap Record.state?) ?_ member).imp_right ?_
  · rintro ⟨head, chain⟩ start inside
    rw [filterMap_chainRecords]
    exact Draft.mem_foldl_added (·.states)
      (fun call => (recordsOf facts head chain.target call).filterMap Record.state?)
      (fun _ _ => mem_states_recordCall) inside
  · intro listed
    rw [← filterMap_records, List.mem_filterMap] at listed
    obtain ⟨found, member, same⟩ := listed
    exact recorded found same ▸ member

/-! ### Animations -/

theorem callsToTraversal_eq (calls : List MethodCall) : ∃ rest,
    callsToTraversal calls = calls.takeWhile (·.role != .traversal) ++ rest ∧
      ∀ call ∈ rest, call.role = .traversal := by
  induction calls with
  | nil => exact ⟨[], rfl, fun _ absent => absurd absent List.not_mem_nil⟩
  | cons first later ih =>
      obtain ⟨rest, same, traversals⟩ := ih
      by_cases leads : first.role = .traversal
      · refine ⟨[first], ?_, fun call member => List.mem_singleton.mp member ▸ leads⟩
        simp [callsToTraversal, leads]
      · exact ⟨rest, by simp [callsToTraversal, leads, same], traversals⟩

/-- An animating call is recorded as an animation, and no other call is. -/
theorem filterMap_animation (call : MethodCall) :
    (recordsOf facts head target call).filterMap Record.animation? =
      if call.role == .animation then [Animation.ofCall target call] else [] := by
  rw [filterMap_recordsOf fun _ => rfl, plainRecordsOf]
  cases call.role with
  | mutation facet => cases target <;> rfl
  | binding =>
      refine List.filterMap_eq_nil_iff.mpr fun record member => ?_
      dsimp only at member
      split at member
      · obtain ⟨binding, _, rfl⟩ := List.mem_map.mp member
        rfl
      · exact absurd member List.not_mem_nil
  | _ => rfl

/-- Of a chain, the animations are recorded that come before the first call that leads to other
elements. -/
theorem filterMap_animation_chainRecords (chain : Chain) :
    (chainRecords facts head chain).filterMap Record.animation? =
      (chain.effective.filter (·.role == .animation)).map (Animation.ofCall chain.target) := by
  obtain ⟨rest, same, traversals⟩ := callsToTraversal_eq chain.calls
  have none : (rest.flatMap fun call =>
      (recordsOf facts head chain.target call).filterMap Record.animation?) = [] := by
    refine List.flatMap_eq_nil_iff.mpr fun call member => ?_
    rw [filterMap_animation, traversals call member]
    rfl
  rw [filterMap_chainRecords, same, List.flatMap_append, none, List.append_nil, Chain.effective]
  induction chain.calls.takeWhile (·.role != .traversal) with
  | nil => rfl
  | cons call later ih =>
      rw [List.flatMap_cons, filterMap_animation, ih, List.filter_cons]
      split <;> rfl

theorem animations_chain (chain : Chain) (draft : Draft) :
    ((chain.effective.filter (·.role == .animation)).foldl (fun draft call =>
      draft.addAnimation (Animation.ofCall chain.target call)) draft).animations =
      draft.animations ++ (chainRecords facts head chain).filterMap Record.animation? := by
  rw [filterMap_animation_chainRecords, List.map_eq_flatMap]
  exact Draft.foldl_appends (·.animations) (fun call => [Animation.ofCall chain.target call])
    (fun _ _ => rfl) draft

/-- What is recorded of animations, chain by chain. -/
theorem filterMap_animation_records (facts : Facts) :
    (records facts).filterMap Record.animation? = animationsOf facts := by
  rw [filterMap_records, animationsOf]
  exact List.flatMap_congr fun found _ => filterMap_animation_chainRecords found.2

theorem animations_animations (facts : Facts) (draft : Draft) :
    (animations facts draft).animations =
      draft.animations ++ (records facts).filterMap Record.animation? := by
  rw [filterMap_records]
  exact Draft.foldl_appends (·.animations) _
    (fun found start => animations_chain found.2 start) draft

/-! ### Warnings and bindings -/

theorem warning_mem_recordsOf {text : String} :
    .warning text ∈ recordsOf facts head target call ↔
      caution? facts head target call = some text := by
  have plain : Record.warning text ∉ plainRecordsOf facts head target call := by
    rw [plainRecordsOf]
    cases call.role with
    | mutation facet => cases target <;> simp
    | binding => cases listensAt facts head target <;> simp
    | _ => simp
  rw [recordsOf, List.mem_append, or_iff_right plain]
  simp

theorem binding_mem_recordsOf {other : Target} {binding : Binding} :
    .binding other binding ∈ recordsOf facts head target call ↔ call.role = .binding ∧
      listensAt facts head target = true ∧ target = other ∧ binding ∈ bindingsOf call := by
  have cautions : Record.binding other binding ∉
      (caution? facts head target call).toList.map Record.warning := by simp
  rw [recordsOf, List.mem_append, or_iff_left cautions, plainRecordsOf]
  cases call.role with
  | mutation facet => cases target <;> simp
  | binding => cases listensAt facts head target <;> simp [and_comm]
  | _ => simp

theorem mem_records {found : Record} : found ∈ records facts ↔
    ∃ head chain, (head, chain) ∈ chainsIn facts.aliases facts.root ∧
      found ∈ chainRecords facts head chain := by
  simp only [records, List.mem_flatMap, Prod.exists]

/-- A chain of a script ends at a call on its walk, with nothing of the chain above it. -/
theorem mem_chainsIn : (head, chain) ∈ chainsIn facts.aliases facts.root ↔
    head ∈ facts.root.walk ∧ head.kind = .callExpression ∧ isHead head = true ∧
      facts.chain? head = some chain :=
  Selection.mem_chainsIn

/-- The expression of a statement, if it is a call, has nothing of its chain above it. -/
theorem isHead_of_statementExpression? {statement expression : Place}
    (isExpression : statementExpression? statement = some expression) :
    isHead expression = true := by
  have kind : statement.kind = .expressionStatement := by
    rw [statementExpression?] at isExpression
    split at isExpression
    · rename_i same
      exact beq_iff_eq.mp same
    · cases isExpression
  rw [isHead, Place.parent?_of_mem_children (mem_children_of_statementExpression? isExpression)]
  dsimp only
  rw [kind]
  rfl

/-- The listeners take what is recorded as a binding, and nothing else. -/
theorem mem_eventBindings_iff_record {tree : Node} {target : Target} {binding : Binding} :
    (target, binding) ∈ eventBindings (Facts.ofTree tree) ↔
      .binding target binding ∈ records (Facts.ofTree tree) := by
  rw [mem_eventBindings, mem_records]
  constructor
  · rintro ⟨statement, among, chain, found, rfl, bound⟩
    obtain ⟨plain, elsewhere, expression, isExpression, chained⟩ := bindingChain?_eq_some found
    obtain ⟨call, inside, binds⟩ := List.mem_flatMap.mp bound
    obtain ⟨effective, role⟩ := List.mem_filter.mp inside
    have isCall : expression.kind = .callExpression := by
      have calls := chained
      rw [Facts.chain?, Chain.at?_eq, Option.map_eq_some_iff] at calls
      obtain ⟨_, _, rfl⟩ := calls
      obtain ⟨_, _, isCall⟩ :=
        exists_methodCall? (List.ne_nil_of_mem (mem_calls_of_effective effective))
      exact (shape_of_methodCall? isCall).1
    have onWalk := Place.mem_walk_of_children (Facts.mem_walk_of_statements among)
      (mem_children_of_statementExpression? isExpression)
    refine ⟨expression, chain, mem_chainsIn.mpr ⟨onWalk, isCall,
      isHead_of_statementExpression? isExpression, chained⟩, List.mem_flatMap.mpr ⟨call,
        mem_callsToTraversal effective, binding_mem_recordsOf.mpr
          ⟨beq_iff_eq.mp role, ?_, rfl, binds⟩⟩⟩
    rw [listensAt, Bool.and_eq_true, bne_iff_ne, List.any_eq_true]
    refine ⟨elsewhere, statement, among, ?_⟩
    rw [plain, isExpression]
    exact beq_self_eq_true expression.path
  · rintro ⟨head, chain, listed, found⟩
    obtain ⟨onWalk, _, _, chained⟩ := mem_chainsIn.mp listed
    obtain ⟨call, member, found⟩ := List.mem_flatMap.mp found
    obtain ⟨role, listens, rfl, binds⟩ := binding_mem_recordsOf.mp found
    rw [listensAt, Bool.and_eq_true, List.any_eq_true] at listens
    obtain ⟨elsewhere, statement, among, both⟩ := listens
    rw [Bool.and_eq_true, Bool.not_eq_true', Option.any_eq_true] at both
    obtain ⟨plain, expression, isExpression, samePath⟩ := both
    have same : expression = head := Place.eq_of_path (Place.mem_walk_of_children
      (Facts.mem_walk_of_statements among) (mem_children_of_statementExpression? isExpression))
        onWalk (beq_iff_eq.mp samePath)
    refine ⟨statement, among, chain, ?_, rfl, List.mem_flatMap.mpr ⟨call, List.mem_filter.mpr
      ⟨mem_effective_of_mem_callsToTraversal (by rw [role]; exact Role.noConfusion) member,
        beq_iff_eq.mpr role⟩, binds⟩⟩
    rw [bindingChain?, if_neg (by rw [plain]; exact Bool.false_ne_true), isExpression,
      Option.bind_some, same, chained]
    exact Option.filter_eq_some_iff.mpr ⟨rfl, elsewhere⟩

/-- A warning is recorded, or it refuses a binding whose handler cannot be called. -/
theorem exists_mem_warningsOf_iff {warning : String} :
    (∃ target, (target, warning) ∈ warningsOf facts) ↔ .warning warning ∈ records facts ∨
      ∃ target binding, (target, binding) ∈ eventBindings facts ∧
        isCallable facts (target, binding) = false ∧ warning = refusal target binding := by
  have recorded : .warning warning ∈ records facts ↔ ∃ head chain,
      (head, chain) ∈ chainsIn facts.aliases facts.root ∧ ∃ call ∈ callsToTraversal chain.calls,
        caution? facts head chain.target call = some warning := by
    simp only [mem_records, chainRecords, List.mem_flatMap, warning_mem_recordsOf]
  rw [recorded]
  constructor
  · rintro ⟨target, listed⟩
    rcases List.mem_append.mp listed with refused | cautioned
    · obtain ⟨entry, among, same⟩ := List.mem_map.mp refused
      obtain ⟨rfl, rfl⟩ := Prod.mk.inj same
      obtain ⟨binds, uncallable⟩ := List.mem_filter.mp among
      exact .inr ⟨entry.1, entry.2, binds, by simpa using uncallable, rfl⟩
    · obtain ⟨⟨head, chain⟩, among, inside⟩ := List.mem_flatMap.mp cautioned
      obtain ⟨text, found, same⟩ := List.mem_map.mp inside
      obtain ⟨rfl, rfl⟩ := Prod.mk.inj same
      exact .inl ⟨head, chain, among, List.mem_filterMap.mp found⟩
  · rintro (⟨head, chain, among, found⟩ | ⟨target, binding, binds, uncallable, rfl⟩)
    · exact ⟨chain.target, List.mem_append_right _ (List.mem_flatMap.mpr ⟨(head, chain), among,
        List.mem_map.mpr ⟨warning, List.mem_filterMap.mpr found, rfl⟩⟩)⟩
    · exact ⟨target, List.mem_append_left _ (List.mem_map.mpr ⟨(target, binding),
        List.mem_filter.mpr ⟨binds, by rw [uncallable]; rfl⟩, rfl⟩)⟩

end Passes

/-! ## The result -/

section Result

variable {facts : Facts} {draft : Draft}

theorem mutations_runAll (blank : draft.mutations = []) :
    (Stage.runAll facts draft).mutations = (records facts).filterMap Record.mutation? := by
  have before : (runStages facts (Stage.all.take 6) draft).mutations = [] :=
    (mutations_runStages _ (by decide) draft).trans blank
  have later : (Stage.runAll facts draft).mutations =
      (mutations facts (runStages facts (Stage.all.take 6) draft)).mutations :=
    mutations_runStages [.references] (by decide) _
  rw [later, mutations_mutations, before, List.nil_append]

theorem animations_runAll (blank : draft.animations = []) :
    (Stage.runAll facts draft).animations = (records facts).filterMap Record.animation? := by
  have before : (runStages facts (Stage.all.take 4) draft).animations = [] :=
    (animations_runStages _ (by decide) draft).trans blank
  have later : (Stage.runAll facts draft).animations =
      (animations facts (runStages facts (Stage.all.take 4) draft)).animations :=
    animations_runStages (Stage.all.drop 5) (by decide) _
  rw [later, animations_animations, before, List.nil_append]

/-- A state belongs to a variable of the script, or to a facet that a recorded call changes. -/
theorem mem_states_runAll (blank : draft.states = []) {state : StateVariable}
    (member : state ∈ (Stage.runAll facts draft).states) :
    state ∈ variableStates facts ∨ .state state ∈ records facts := by
  have later : (Stage.runAll facts draft).states =
      (mutations facts (functions facts (functionsDraft facts draft))).states :=
    states_runStages [.references] (by decide) (by decide) _
  have before : (functions facts (functionsDraft facts draft)).states =
      (functionsDraft facts draft).states :=
    states_runStages [.functions] (by decide) (by decide) _
  refine (mem_states_mutations (later ▸ member)).imp_left fun earlier => ?_
  exact states_functionsDraft blank state (before ▸ earlier)

end Result

end Pass
end Hookify
