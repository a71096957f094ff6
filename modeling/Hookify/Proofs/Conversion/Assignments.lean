import Hookify.Proofs.Conversion.Code
import Hookify.Proofs.Conversion.Updates

namespace Hookify

open Script

/-!
# Assignments in all forms

A variable of a scope becomes a constant or a state, and in the code both are
declared by `const`.  So the code must not assign to it any more: each
assignment has to become a call of the setter.

An assignment is found only if the name stands alone as what is assigned to. It
is overlooked in parentheses, in a pattern, and where a loop assigns to it.  Such
an assignment is never replaced, and a variable that is assigned to in no other
way is taken for a constant.
-/

namespace Component

/-- The code keeps an assignment to the variable of a declaration. -/
def KeepsAssignment (component : Component) (facts : Facts) (declaration : Place) : Prop :=
  ∃ this place name, component.Shows facts this place ∧ place.Assigns name declaration ∧
    (Renderer.of facts this).replacement? place = none

end Component

namespace Facts

/-- If the script assigns to the variable of a declaration, the variable can change. -/
def ChangesIfAssigned (facts : Facts) (declaration : Place) : Prop :=
  (∃ place ∈ facts.root.walk, ∃ name, place.Assigns name declaration) →
    facts.classify declaration.text = .reactive

end Facts

/-! ## What is found -/

section Found

variable {tree : Node} {place whole name declaration : Place}

/-- An assignment that is found and complete is to a name that stands alone. -/
theorem assignedTarget?_of_updatedName? (updates : Renderer.updatedName? place = some whole) :
    place.assignedTarget? = some whole ∧ whole.kind = .identifier ∧
      assignedName? place = some whole.text := by
  have update := Renderer.isUpdate_of_updatedName? updates
  obtain ⟨sign, assigned⟩ := update.assigned
  simp only [Renderer.assignment?, Option.bind_eq_bind, Option.bind_eq_some_iff] at assigned
  obtain ⟨child, found, same⟩ := assigned
  cases same
  have identifier := update.identifier
  rcases update.kind with kind | kind | kind <;>
  · rw [kind] at found
    simp only [beq_self_eq_true, if_true, if_false, reduceCtorEq, beq_iff_eq] at found
    rw [Place.assignedTarget?, assignedName?, kind]
    dsimp only
    rw [found]
    exact ⟨rfl, identifier, by simp [identifier]⟩

/-- Other nodes that assign are kept, whatever they assign to. -/
theorem replacement?_eq_none_of_updatedName? (renderer : Renderer)
    (assigned : place.assignedTarget? = some whole)
    (overlooked : Renderer.updatedName? place = none) : renderer.replacement? place = none := by
  have kinds : place.kind = .forInStatement ∨ Renderer.isAssignment place.kind = true := by
    rw [Place.assignedTarget?.eq_def] at assigned
    split at assigned <;> rename_i kind
    case h_4 => exact .inl kind
    case h_5 => cases assigned
    all_goals exact .inr (kind ▸ rfl)
  have noComment : ¬ (place.kind == .comment) = true := by
    intro comment
    rw [beq_iff_eq.mp comment] at kinds
    rcases kinds with kind | kind <;> cases kind
  rw [Renderer.replacement?, if_neg noComment, Option.map_eq_none_iff]
  rcases kinds with kind | kind
  · rw [Renderer.idiom?, kind]
  · have update := kind
    simp only [Renderer.isAssignment, Bool.or_eq_true, beq_iff_eq, or_assoc] at update
    rw [Renderer.idiom?_of_update update]
    by_contra present
    obtain ⟨text, replaced⟩ := Option.ne_none_iff_exists'.mp present
    simp only [Renderer.stateUpdate?, Option.bind_eq_bind, Option.bind_eq_some_iff] at replaced
    obtain ⟨⟨target, sign⟩, isTarget, _, identifier, _, _, complete⟩ := replaced
    have ends : (place.kind == .updateExpression || (place.child? .right).isSome) = true := by
      split at complete
      · rename_i isUpdate
        rw [isUpdate, Bool.true_or]
      · obtain ⟨right, found, _⟩ := Option.bind_eq_some_iff.mp complete
        rw [found, Option.isSome_some, Bool.or_true]
    rw [Renderer.updatedName?, isTarget] at overlooked
    simp only [kind, guard_true, Option.bind_eq_bind, Option.bind_some, Option.pure_def, ends,
      identifier] at overlooked
    cases overlooked

/-- An assignment to a variable is kept unless it is found and the variable changes. -/
theorem Script.Place.Assigns.replacement?_eq_none_iff (assigns : place.Assigns name declaration)
    (inWalk : place ∈ (Place.ofRoot tree).walk) (renderer : Renderer) :
    renderer.replacement? place = none ↔ ¬ (Renderer.updatedName? place = some name ∧
      renderer.facts.isReactiveVariable declaration.text = true) := by
  obtain ⟨whole, assigned, _⟩ := Place.mem_assignedNames.mp assigns.assigned
  rw [Place.text_of_mem_declarations (Place.mem_walk_trans inWalk
    (Place.mem_walk_of_assignedNames assigns.assigned)) assigns.means]
  cases found : Renderer.updatedName? place with
  | none =>
      rw [replacement?_eq_none_of_updatedName? renderer assigned found]
      exact iff_of_true rfl fun impossible => by cases impossible.1
  | some target =>
      obtain ⟨isTarget, identifier, _⟩ := assignedTarget?_of_updatedName? found
      obtain rfl := (Place.mem_assignedNames_of_identifier inWalk isTarget identifier).mp
        assigns.assigned
      rw [(Renderer.isUpdate_of_updatedName? found).replacement?_eq_none_iff]
      simp

end Found

/-! ## What the code keeps -/

section Kept

variable {tree : Node} {name : String}

theorem classify_eq_reactive_iff (facts : Facts)
    (changeable : Identifier.isConstantName name = false) :
    facts.classify name = .reactive ↔ name ∈ facts.reassigned ∨ name ∈ facts.written := by
  rw [Facts.classify, changeable, if_neg Bool.false_ne_true]
  split
  · rename_i changes
    rw [Bool.or_eq_true, List.contains_iff_mem, List.contains_iff_mem] at changes
    exact iff_of_true rfl changes
  · rename_i still
    rw [Bool.or_eq_true, List.contains_iff_mem, List.contains_iff_mem] at still
    exact iff_of_false StateKind.noConfusion still

theorem mem_reassigned_iff : name ∈ (Facts.ofTree tree).reassigned ↔
    ∃ place ∈ (Facts.ofTree tree).root.walk, assignedName? place = some name :=
  List.mem_filterMap

theorem mem_declared_of_stateDeclaration? {declaration : Place} {value : Option Place}
    (found : (Facts.ofTree tree).stateDeclaration? name = some (declaration, value)) :
    name ∈ (Facts.ofTree tree).declared := by
  have makes := List.find?_some found
  rw [Bool.and_eq_true, beq_iff_eq] at makes
  obtain ⟨rfl, makes⟩ := makes
  obtain ⟨state, isMade⟩ := Option.isSome_iff_exists.mp makes
  have listed : state ∈ Pass.variableStates (Facts.ofTree tree) := by
    rw [Pass.variableStates_eq, Pass.declaredVariables_eq]
    exact List.mem_filterMap.mpr
      ⟨_, List.mem_map_of_mem (List.mem_of_find?_eq_some found), isMade⟩
  have named := Pass.mem_declared_of_variableStates listed
  rwa [Pass.identifier_of_stateOf? isMade] at named

end Kept

/-- A variable whose name does not mark it as a constant can change exactly if something assigns to
its name alone, or if the name stands in what is written to an element.  An assignment to the
variable becomes a call of the setter exactly if it is to the name alone; in any other form it is
kept, whether or not the variable changes.  So the code goes on to assign to what it declares by
`const` exactly if it shows an assignment of another form. -/
theorem assigned_variable_changes_iff (document : Document) (settings : Settings) (tree : Node)
    {declaration : Place} (changeable : Identifier.isConstantName declaration.text = false) :
    let facts := Facts.ofTree tree
    let component := document.componentOf settings tree
    let name := declaration.text
    (facts.ChangesIfAssigned declaration ↔
        ((∃ place ∈ facts.root.walk, ∃ target, place.Assigns target declaration) →
          (∃ place ∈ facts.root.walk, assignedName? place = some name) ∨ name ∈ facts.written)) ∧
      (∀ place ∈ facts.root.walk, ∀ target, place.Assigns target declaration →
        Renderer.updatedName? place = some target → facts.classify name = .reactive) ∧
      ∀ value, facts.stateDeclaration? name = some (declaration, value) →
        (∃ state ∈ component.states, facts.stateOf? (name, value) = some state) ∧
          (∀ this, ∀ place ∈ facts.root.walk, ∀ target, place.Assigns target declaration →
            ((Renderer.of facts this).replacement? place = none ↔
              Renderer.updatedName? place ≠ some target)) ∧
          (component.KeepsAssignment facts declaration ↔
            ∃ this place target, component.Shows facts this place ∧
              place.Assigns target declaration ∧ Renderer.updatedName? place ≠ some target) := by
  intro facts component name
  have changes : ∀ place ∈ facts.root.walk, ∀ target, place.Assigns target declaration →
      Renderer.updatedName? place = some target → facts.classify name = .reactive := by
    intro place inside target assigns found
    have inWalk := Place.mem_walk_trans inside (Place.mem_walk_of_assignedNames assigns.assigned)
    obtain ⟨_, _, assigned⟩ := assignedTarget?_of_updatedName? found
    rw [← Place.text_of_mem_declarations inWalk assigns.means] at assigned
    exact (classify_eq_reactive_iff facts changeable).mpr
      (.inl (mem_reassigned_iff.mpr ⟨place, inside, assigned⟩))
  refine ⟨?_, changes, fun value declares => ?_⟩
  · rw [Facts.ChangesIfAssigned, classify_eq_reactive_iff facts changeable, mem_reassigned_iff]
  · have kept : ∀ this, ∀ place ∈ facts.root.walk, ∀ target, place.Assigns target declaration →
        ((Renderer.of facts this).replacement? place = none ↔
          Renderer.updatedName? place ≠ some target) := by
      intro this place inside target assigns
      have inWalk : place ∈ (Place.ofRoot tree).walk := inside
      rw [assigns.replacement?_eq_none_iff inWalk]
      refine not_congr (and_iff_left_of_imp fun found => ?_)
      have declared := mem_declared_of_stateDeclaration? declares
      change facts.isReactiveVariable name = true
      rw [Facts.isReactiveVariable, changes place inside target assigns found,
        List.contains_iff_mem.mpr declared]
      rfl
    refine ⟨exists_state_of_stateDeclaration? document settings declares, kept, ?_⟩
    refine exists_congr fun this => exists_congr fun place => exists_congr fun target => ?_
    refine and_congr_right fun shown => and_congr_right fun assigns => ?_
    exact kept this place shown.mem_walk target assigns

/-- The names through which a node assigns to the variable of a declaration. -/
def namesFor (declaration place : Place) : List Place :=
  place.assignedNames.filter fun name => name.declarations.any (·.path == declaration.path)

theorem mem_namesFor {tree : Node} {declaration place name : Place}
    (inWalk : place ∈ (Facts.ofTree tree).root.walk)
    (declares : declaration ∈ (Facts.ofTree tree).root.walk) :
    name ∈ namesFor declaration place ↔ place.Assigns name declaration := by
  have means : name ∈ place.assignedNames → (declaration ∈ name.declarations ↔
      name.declarations.any (·.path == declaration.path) = true) := fun assigned =>
    Place.mem_iff_any_path declares fun _ =>
      Place.mem_walk_of_declarations (Place.mem_walk_trans inWalk
        (Place.mem_walk_of_assignedNames assigned))
  rw [namesFor, List.mem_filter]
  constructor
  · rintro ⟨assigned, among⟩
    exact ⟨assigned, (means assigned).mpr among⟩
  · rintro ⟨assigned, declared⟩
    exact ⟨assigned, (means assigned).mp declared⟩

theorem mem_walk_of_stateDeclaration? {tree : Node} {name : String} {declaration : Place}
    {value : Option Place}
    (found : (Facts.ofTree tree).stateDeclaration? name = some (declaration, value)) :
    declaration ∈ (Place.ofRoot tree).walk ∧ declaration.text = name := by
  obtain ⟨_, _, inWalk, belongs⟩ := exists_scope_of_stateDeclaration? found
  obtain ⟨inside, _, named⟩ := Place.mem_declarationsIn.mp belongs
  exact ⟨Place.mem_walk_trans inWalk inside, named⟩

/-- A variable to whose name alone the script assigns can change, and no assignment is kept. -/
theorem assigned_variable_changes_of_step :
    let document := Document.new "var total = 0;\nfunction add(step) \x7b total += step; \x7d"
      ⟨"total.js"⟩
    let tree := parse document.script
    let facts := Facts.ofTree tree
    let component := document.componentOf {} tree
    ∃ declaration, Identifier.isConstantName declaration.text = false ∧
      (∃ value, facts.stateDeclaration? "total" = some (declaration, value)) ∧
        (∃ place ∈ facts.root.walk, ∃ target, place.Assigns target declaration) ∧
          facts.ChangesIfAssigned declaration ∧ ¬ component.KeepsAssignment facts declaration := by
  intro document tree facts component
  have run : (facts.stateDeclaration? "total").any (fun declared =>
      (facts.root.walk.any fun place => ! (namesFor declared.1 place).isEmpty) &&
        facts.root.walk.all fun place => (namesFor declared.1 place).all fun target =>
          (Renderer.updatedName? place).any (·.path == target.path)) = true := by
    decide +kernel
  obtain ⟨⟨declaration, value⟩, declares, fits⟩ := (Option.any_eq_true _ _).mp run
  rw [Bool.and_eq_true] at fits
  obtain ⟨inWalk, named⟩ := mem_walk_of_stateDeclaration? declares
  obtain ⟨place, inside, some⟩ := List.any_eq_true.mp fits.1
  rw [Bool.not_eq_true', List.isEmpty_eq_false_iff] at some
  obtain ⟨target, member⟩ := List.exists_mem_of_ne_nil _ some
  have assigns := (mem_namesFor inside inWalk).mp member
  have plain : ∀ place ∈ facts.root.walk, ∀ target, place.Assigns target declaration →
      Renderer.updatedName? place = .some target := by
    intro place inside target assigns
    have among := (mem_namesFor inside inWalk).mpr assigns
    have found := List.all_eq_true.mp (List.all_eq_true.mp fits.2 place inside) target among
    obtain ⟨other, updates, paths⟩ := (Option.any_eq_true _ _).mp found
    have child := (Renderer.isUpdate_of_updatedName? updates).mem_children
    have within := Place.mem_walk_of_assignedNames assigns.assigned
    rw [updates, Place.eq_of_path (Place.mem_walk_of_children place.mem_walk_self child) within
      (beq_iff_eq.mp paths)]
  have changeable : Identifier.isConstantName declaration.text = false := by
    rw [named]
    decide
  obtain ⟨_, changes, kept⟩ := assigned_variable_changes_iff document {} tree changeable
  obtain ⟨_, _, keeps⟩ := kept value (named.symm ▸ declares)
  refine ⟨declaration, changeable, ⟨value, declares⟩, ⟨place, inside, target, assigns⟩, fun _ =>
    changes place inside target assigns (plain place inside target assigns), fun keep => ?_⟩
  obtain ⟨this, other, name, shown, assigns, apart⟩ := keeps.mp keep
  exact apart (plain other shown.mem_walk name assigns)

/-- A variable that is assigned to in parentheses is taken for a constant, and the assignment is
kept. -/
theorem not_changesIfAssigned_of_parentheses :
    let document := Document.new "var x = 1;\n(x) = 2;" ⟨"x.js"⟩
    let tree := parse document.script
    let facts := Facts.ofTree tree
    let component := document.componentOf {} tree
    (∃ declaration value, facts.stateDeclaration? "x" = some (declaration, value) ∧
      ¬ facts.ChangesIfAssigned declaration ∧ component.KeepsAssignment facts declaration) ∧
        component.states.map (fun state => (state.identifier, state.kind)) = [("x", .constant)] ∧
          component.effects.map (·.code) = ["(x) = 2;"] := by
  intro document tree facts component
  have run : (facts.stateDeclaration? "x").any (fun declared =>
        (Pass.keptStatements facts).any fun statement => statement.kind == .expressionStatement &&
          statement.children.any fun place => ! (namesFor declared.1 place).isEmpty &&
            ((Renderer.of facts none).replacement? place).isNone) = true ∧
      facts.classify "x" = .constant ∧
        component.states.map (fun state => (state.identifier, state.kind)) = [("x", .constant)] ∧
          component.effects.map (·.code) = ["(x) = 2;"] := by
    decide +kernel
  obtain ⟨finds, constant, states, codes⟩ := run
  obtain ⟨⟨declaration, value⟩, declares, found⟩ := (Option.any_eq_true _ _).mp finds
  obtain ⟨inWalk, named⟩ := mem_walk_of_stateDeclaration? declares
  obtain ⟨statement, kept, found⟩ := List.any_eq_true.mp found
  rw [Bool.and_eq_true, beq_iff_eq] at found
  obtain ⟨isExpression, found⟩ := found
  obtain ⟨place, child, found⟩ := List.any_eq_true.mp found
  rw [Bool.and_eq_true, Bool.not_eq_true', List.isEmpty_eq_false_iff,
    Option.isNone_iff_eq_none] at found
  obtain ⟨some, unchanged⟩ := found
  have shown := shows_of_kept document {} kept isExpression child
  obtain ⟨target, member⟩ := List.exists_mem_of_ne_nil _ some
  have assigns := (mem_namesFor shown.mem_walk inWalk).mp member
  refine ⟨⟨declaration, value, declares, fun changes => ?_, none, place, target, shown, assigns,
    unchanged⟩, states, codes⟩
  have reactive := changes ⟨place, shown.mem_walk, target, assigns⟩
  rw [named, constant] at reactive
  cases reactive

end Hookify
