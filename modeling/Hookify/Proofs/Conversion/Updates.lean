import Hookify.Proofs.Conversion.Component
import Hookify.Proofs.Pass.Declared
import Hookify.Proofs.Renderer.Locality
import Hookify.Proofs.Renderer.Setters

namespace Hookify

open Script

/-!
# Assignments to variables of inner scopes

An assignment to a variable that has become a state is replaced by a call of the
setter.  Whether it is one is decided by the name alone: that some scope
declares a variable of that name, and that the name is assigned to or written
somewhere.

The state is made from the first declaration of the name in a scope.  So the
replacement is right if the name is seen from there: it stands inside that
scope, and no function, block, loop, parameter or catch clause between declares
it.  Otherwise another variable is meant, and its assignment is lost to it.
-/

namespace Renderer

/-- The kinds of nodes that are assignments by themselves. -/
def isAssignment (kind : Kind) : Bool :=
  kind == .assignmentExpression || kind == .augmentedAssignmentExpression ||
    kind == .updateExpression

/-- The name that an assignment is to, if it stands there alone and the assignment is complete. -/
def updatedName? (place : Place) : Option Place := do
  guard (isAssignment place.kind)
  let (target, _) ← assignment? place
  guard (target.kind == .identifier)
  guard (place.kind == .updateExpression || (place.child? .right).isSome)
  return target

section Updates

variable {renderer : Renderer} {place target : Place}

/-- The parts of an assignment to a name. -/
structure IsUpdate (place target : Place) : Prop where
  kind : place.kind = .assignmentExpression ∨ place.kind = .augmentedAssignmentExpression ∨
    place.kind = .updateExpression
  assigned : ∃ sign, assignment? place = some (target, sign)
  identifier : target.kind = .identifier
  complete : place.kind ≠ .updateExpression → (place.child? .right).isSome = true

theorem isUpdate_of_updatedName? (updates : updatedName? place = some target) :
    IsUpdate place target := by
  simp only [updatedName?, Option.bind_eq_bind, Option.bind_eq_some_iff, Option.guard_eq_some',
    Option.pure_def, isAssignment, Bool.or_eq_true, beq_iff_eq, or_assoc] at updates
  obtain ⟨_, kind, ⟨other, sign⟩, assigned, _, identifier, _, complete, same⟩ := updates
  cases same
  exact ⟨kind, ⟨sign, assigned⟩, identifier, complete.resolve_left⟩

theorem IsUpdate.mem_children (update : IsUpdate place target) : target ∈ place.children := by
  obtain ⟨sign, assigned⟩ := update.assigned
  simp only [assignment?, Option.bind_eq_bind, Option.bind_eq_some_iff] at assigned
  obtain ⟨child, found, same⟩ := assigned
  cases same
  exact Place.mem_children_of_child? found

/-- An assignment to a name is replaced exactly if the name is that of a state. -/
theorem IsUpdate.isSome_idiom? (update : IsUpdate place target) :
    (renderer.idiom? place).isSome = renderer.facts.isReactiveVariable target.text := by
  obtain ⟨sign, assigned⟩ := update.assigned
  rw [idiom?_of_update update.kind, stateUpdate?, assigned]
  simp only [Option.bind_eq_bind, Option.bind_some, update.identifier, beq_self_eq_true,
    guard_true, Option.pure_def]
  cases renderer.facts.isReactiveVariable target.text with
  | false => rfl
  | true =>
      simp only [guard_true, Option.pure_def, Option.bind_some]
      split
      · rfl
      · rename_i other
        obtain ⟨right, found⟩ := Option.isSome_iff_exists.mp
          (update.complete (fun same => other (beq_iff_eq.mpr same)))
        rw [found, Option.bind_some]
        split <;> rfl

/-- What replaces an assignment to a name sets the state of that name. -/
theorem IsUpdate.setsAt_iff (update : IsUpdate place target) :
    renderer.SetsAt place target.text ↔ renderer.facts.isReactiveVariable target.text = true := by
  rw [← update.isSome_idiom?]
  constructor
  · rintro ⟨text, replaced, _⟩
    rw [replaced]
    rfl
  · intro some
    obtain ⟨text, replaced⟩ := Option.isSome_iff_exists.mp some
    obtain ⟨sign, assigned⟩ := update.assigned
    have asUpdate := (idiom?_of_update update.kind).symm.trans replaced
    exact ⟨text, replaced, (stateUpdate?_eq_some assigned asUpdate).2⟩

/-- Otherwise it stays, with its parts rendered. -/
theorem IsUpdate.replacement?_eq_none_iff (update : IsUpdate place target) :
    renderer.replacement? place = none ↔
      renderer.facts.isReactiveVariable target.text = false := by
  have noComment : ¬ (place.kind == .comment) = true := by
    rcases update.kind with kind | kind | kind <;> rw [kind] <;> exact Bool.false_ne_true
  rw [replacement?, if_neg noComment, Option.map_eq_none_iff, ← Option.isNone_iff_eq_none,
    ← update.isSome_idiom?, ← Option.not_isSome, Bool.not_eq_true']

end Updates

end Renderer

/-! ## The state of a variable -/

namespace Component

/-- The component has a state that can change and that was made from a declaration of the name. -/
def HasStateFrom (component : Component) (facts : Facts) (name : String) (declaration : Place) :
    Prop :=
  ∃ value, facts.stateDeclaration? name = some (declaration, value) ∧
    ∃ state ∈ component.reactiveStates, facts.stateOf? (name, value) = some state

end Component

section States

variable (document : Document) (settings : Settings) {tree : Node} {name : String}

/-- The first declaration of a variable that makes a state belongs to a scope. -/
theorem exists_scope_of_stateDeclaration? {declaration : Place} {value : Option Place}
    (found : (Facts.ofTree tree).stateDeclaration? name = some (declaration, value)) :
    ∃ scope ∈ (Facts.ofTree tree).scopes, scope.body ∈ (Place.ofRoot tree).walk ∧
      declaration ∈ scope.body.declarationsIn name := by
  have named := List.find?_some found
  rw [Bool.and_eq_true, beq_iff_eq] at named
  obtain ⟨_, scope, isScope, belongs⟩ :=
    Facts.exists_scope_of_mem (List.mem_of_find?_eq_some found)
  have inWalk := mem_walk_of_scopesFrom _ (Place.ofRoot tree).mem_walk_self isScope
  exact ⟨scope, isScope, inWalk, named.1 ▸ belongs⟩

/-- It has made a state of the component. -/
theorem exists_state_of_stateDeclaration? {declaration : Place} {value : Option Place}
    (found : (Facts.ofTree tree).stateDeclaration? name = some (declaration, value)) :
    ∃ state ∈ (document.componentOf settings tree).states,
      (Facts.ofTree tree).stateOf? (name, value) = some state := by
  obtain ⟨_, state, member, isMade⟩ :=
    Pass.mem_states_of_stateDeclaration? found (document.blank_draft settings)
  have later := (Pass.steps_stages (Facts.ofTree tree)
    [.startup, .listeners, .requests, .animations, .functions, .mutations, .references]
    (Pass.declarations (Facts.ofTree tree) (document.draft settings))).extends
  exact ⟨state, later.states.subset member, isMade⟩

/-- If the variable changes, so does the state. -/
theorem hasStateFrom_of_stateDeclaration? {declaration : Place} {value : Option Place}
    (classified : (Facts.ofTree tree).classify name = .reactive)
    (found : (Facts.ofTree tree).stateDeclaration? name = some (declaration, value)) :
    (document.componentOf settings tree).HasStateFrom (Facts.ofTree tree) name declaration := by
  obtain ⟨state, member, isMade⟩ := exists_state_of_stateDeclaration? document settings found
  have kind := (Pass.variableState?_eq_some isMade).2.2
  exact ⟨value, found, state,
    List.mem_filter.mpr ⟨member, beq_iff_eq.mpr (kind.trans classified)⟩, isMade⟩

/-- A variable that changes has a declaration that makes its state, unless the name also stands for
a selection. -/
theorem exists_hasStateFrom_iff
    (reactive : (Facts.ofTree tree).isReactiveVariable name = true) :
    (∃ declaration, (document.componentOf settings tree).HasStateFrom (Facts.ofTree tree) name
      declaration) ↔ (Facts.ofTree tree).alias? name = none := by
  rw [Facts.isReactiveVariable, Bool.and_eq_true, List.contains_iff_mem, beq_iff_eq] at reactive
  obtain ⟨declared, classified⟩ := reactive
  constructor
  · rintro ⟨declaration, value, _, state, _, isMade⟩
    exact (Pass.variableState?_eq_some isMade).2.1
  · intro plain
    obtain ⟨state, listed, same⟩ := Pass.exists_variableState declared plain
    rw [Pass.variableStates_eq] at listed
    obtain ⟨entry, among, isMade⟩ := List.mem_filterMap.mp listed
    have makes : ((Facts.ofTree tree).declaration? name).isSome = true := by
      refine List.find?_isSome.mpr ⟨entry, among, ?_⟩
      rw [← Pass.identifier_of_stateOf? isMade, same, isMade]
      simp
    rw [Pass.declaration?_eq, Option.isSome_map] at makes
    obtain ⟨⟨declaration, value⟩, found⟩ := Option.isSome_iff_exists.mp makes
    exact ⟨declaration, hasStateFrom_of_stateDeclaration? document settings classified found⟩

/-- The declaration from which a state was made belongs to a scope. -/
theorem exists_scope_of_hasStateFrom {component : Component} {declaration : Place}
    (made : component.HasStateFrom (Facts.ofTree tree) name declaration) :
    ∃ scope ∈ (Facts.ofTree tree).scopes, scope.body ∈ (Place.ofRoot tree).walk ∧
      declaration ∈ scope.body.declarationsIn name := by
  obtain ⟨value, found, _⟩ := made
  exact exists_scope_of_stateDeclaration? found

end States

/-! ## Assignments and scopes -/

/-- An assignment to a name is replaced only if the name means the variable from which the state was
made. -/
def FollowsScope (component : Component) (renderer : Renderer) (place target : Place) : Prop :=
  renderer.replacement? place ≠ none → ∃ declaration ∈ target.declarations,
    component.HasStateFrom renderer.facts target.text declaration

/-- An assignment to a name, in any of its forms, sets the state of that name if some scope declares
a variable of the name that changes, and stays as it is otherwise.  Such a name has a state that was
made from a declaration of a scope, unless it also stands for a selection.  The assignment follows
the scopes of the script exactly if the name is not replaced, or if it stands inside the scope of
that declaration and no place between the two declares it. -/
theorem updates_follow_scopes_iff (document : Document) (settings : Settings) (tree : Node)
    (this : Option String) {place target : Place}
    (inside : place ∈ (Facts.ofTree tree).root.walk)
    (updates : Renderer.updatedName? place = some target) :
    let facts := Facts.ofTree tree
    let renderer := Renderer.of facts this
    let component := document.componentOf settings tree
    (renderer.SetsAt place target.text ↔ facts.isReactiveVariable target.text = true) ∧
      (renderer.replacement? place = none ↔ facts.isReactiveVariable target.text = false) ∧
      (facts.isReactiveVariable target.text = true →
        ((∃ declaration, component.HasStateFrom facts target.text declaration) ↔
          facts.alias? target.text = none)) ∧
      (FollowsScope component renderer place target ↔
        (facts.isReactiveVariable target.text = true →
          ∃ declaration, component.HasStateFrom facts target.text declaration ∧
            ∃ scope ∈ facts.scopes, declaration ∈ scope.body.declarationsIn target.text ∧
              target.Sees scope.body)) := by
  intro facts renderer component
  have update := Renderer.isUpdate_of_updatedName? updates
  refine ⟨update.setsAt_iff, update.replacement?_eq_none_iff,
    exists_hasStateFrom_iff document settings, ?_⟩
  have inWalk := Place.mem_walk_of_children inside update.mem_children
  rw [FollowsScope, Ne, update.replacement?_eq_none_iff, Bool.not_eq_false]
  refine imp_congr_right fun _ => exists_congr fun declaration => ?_
  rw [and_comm]
  refine and_congr_right fun made => ?_
  obtain ⟨scope, isScope, inScope, belongs⟩ := exists_scope_of_hasStateFrom made
  rw [Place.mem_declarations_iff_sees inWalk inScope belongs]
  constructor
  · exact fun sees => ⟨scope, isScope, belongs, sees⟩
  · rintro ⟨other, isOther, alsoBelongs, sees⟩
    have inOther := mem_walk_of_scopesFrom _ (Place.ofRoot tree).mem_walk_self isOther
    rw [← Place.mem_declarations_iff_sees inWalk inScope belongs,
      Place.mem_declarations_iff_sees inWalk inOther alsoBelongs]
    exact sees

/-- A search for an assignment to a name. -/
def findsUpdate (facts : Facts) (wanted : Place → Place → Bool) : Bool :=
  facts.root.walk.any fun place => (Renderer.updatedName? place).any (wanted place)

theorem exists_of_findsUpdate {facts : Facts} {wanted : Place → Place → Bool}
    (finds : findsUpdate facts wanted = true) :
    ∃ place ∈ facts.root.walk, ∃ target, Renderer.updatedName? place = some target ∧
      wanted place target = true := by
  obtain ⟨place, inside, found⟩ := List.any_eq_true.mp finds
  obtain ⟨target, updates, fits⟩ := (Option.any_eq_true _ _).mp found
  exact ⟨place, inside, target, updates, fits⟩

/-- A name means the declaration that makes the state of that name. -/
def meansState (facts : Facts) (target : Place) : Bool :=
  (facts.stateDeclaration? target.text).any fun declared =>
    target.declarations.any (·.path == declared.1.path)

theorem meansState_iff (document : Document) (settings : Settings) {tree : Node} {target : Place}
    (inWalk : target ∈ (Place.ofRoot tree).walk)
    (reactive : (Facts.ofTree tree).isReactiveVariable target.text = true) :
    meansState (Facts.ofTree tree) target = true ↔ ∃ declaration ∈ target.declarations,
      (document.componentOf settings tree).HasStateFrom (Facts.ofTree tree) target.text
        declaration := by
  rw [Facts.isReactiveVariable, Bool.and_eq_true, beq_iff_eq] at reactive
  constructor
  · intro means
    obtain ⟨⟨declared, value⟩, found, among⟩ := (Option.any_eq_true _ _).mp means
    obtain ⟨declaration, member, paths⟩ := List.any_eq_true.mp among
    have made := hasStateFrom_of_stateDeclaration? document settings reactive.2 found
    obtain ⟨scope, _, inScope, belongs⟩ := exists_scope_of_hasStateFrom made
    have same : declaration = declared :=
      Place.eq_of_path (Place.mem_walk_of_declarations inWalk member)
        (Place.mem_walk_trans inScope (Place.mem_declarationsIn.mp belongs).1) (beq_iff_eq.mp paths)
    exact ⟨declaration, member, same ▸ made⟩
  · rintro ⟨declaration, member, value, found, _⟩
    rw [meansState, found, Option.any_some]
    exact List.any_eq_true.mpr ⟨declaration, member, beq_self_eq_true _⟩

/-- In a function that has no variable of the name, the assignment follows the scopes. -/
theorem update_follows_scope_of_step :
    let document := Document.new "var total = 0;\nfunction add(step) \x7b total += step; \x7d"
      ⟨"total.js"⟩
    let tree := parse document.script
    let facts := Facts.ofTree tree
    let renderer := Renderer.of facts none
    let component := document.componentOf {} tree
    ∃ place ∈ facts.root.walk, ∃ target, Renderer.updatedName? place = some target ∧
      renderer.SetsAt place "total" ∧ FollowsScope component renderer place target ∧
        ∃ declaration, component.HasStateFrom facts "total" declaration ∧
          ∃ scope ∈ facts.scopes, declaration ∈ scope.body.declarationsIn "total" ∧
            target.Sees scope.body := by
  intro document tree facts renderer component
  have run : findsUpdate facts (fun _ target => target.text == "total" &&
      facts.isReactiveVariable target.text && meansState facts target) = true := by
    decide +kernel
  obtain ⟨place, inside, target, updates, fits⟩ := exists_of_findsUpdate run
  simp only [Bool.and_eq_true, beq_iff_eq] at fits
  obtain ⟨⟨named, reactive⟩, means⟩ := fits
  have inWalk := Place.mem_walk_of_children inside
    (Renderer.isUpdate_of_updatedName? updates).mem_children
  have follows : FollowsScope component renderer place target := fun _ =>
    (meansState_iff document {} inWalk reactive).mp means
  obtain ⟨sets, _, _, sees⟩ := updates_follow_scopes_iff document {} tree none inside updates
  rw [named] at sets sees reactive
  exact ⟨place, inside, target, updates, sets.mpr reactive, follows, sees.mp follows reactive⟩

/-- The parameter of a function is lost to a state of the same name. -/
theorem not_followsScope_of_parameter :
    let document := Document.new
      "var count = 0;\ncount = 1;\nfunction f(count) \x7b count = 2; \x7d" ⟨"count.js"⟩
    let tree := parse document.script
    let facts := Facts.ofTree tree
    let renderer := Renderer.of facts none
    let component := document.componentOf {} tree
    (∃ place ∈ facts.root.walk, ∃ target, Renderer.updatedName? place = some target ∧
      (∃ declaration, component.HasStateFrom facts "count" declaration) ∧
      renderer.SetsAt place "count" ∧ ¬ FollowsScope component renderer place target) ∧
      component.functions.map (fun function => (function.parameters, function.body)) =
        [("count", "setCount(2);")] := by
  intro document tree facts renderer component
  have run : findsUpdate facts (fun _ target => target.text == "count" &&
        facts.isReactiveVariable target.text && (facts.alias? target.text).isNone &&
          ! meansState facts target) = true ∧
      component.functions.map (fun function => (function.parameters, function.body)) =
        [("count", "setCount(2);")] := by
    decide +kernel
  obtain ⟨finds, functions⟩ := run
  obtain ⟨place, inside, target, updates, fits⟩ := exists_of_findsUpdate finds
  simp only [Bool.and_eq_true, beq_iff_eq, Option.isNone_iff_eq_none, Bool.not_eq_true'] at fits
  obtain ⟨⟨⟨named, reactive⟩, plain⟩, means⟩ := fits
  have update := Renderer.isUpdate_of_updatedName? updates
  have inWalk := Place.mem_walk_of_children inside update.mem_children
  have sets : renderer.SetsAt place target.text := update.setsAt_iff.mpr reactive
  have made := (exists_hasStateFrom_iff document {} reactive).mpr plain
  have replaced : renderer.replacement? place ≠ none := fun stays => by
    have constant := update.replacement?_eq_none_iff.mp stays
    exact absurd reactive (by rw [← Bool.not_eq_true] at constant; exact constant)
  refine ⟨⟨place, inside, target, updates, named ▸ made, named ▸ sets, fun follows => ?_⟩, functions⟩
  rw [(meansState_iff document {} inWalk reactive).mpr (follows replaced)] at means
  cases means

end Hookify
