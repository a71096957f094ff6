import Hookify.Proofs.Script.Paths
import Hookify.Script.Functions

namespace Hookify
namespace Script
namespace Place

/-!
# Names and their declarations

A name is declared by a variable declaration, a loop, a parameter, a catch
clause, a function, a class or an import, alone or as a part of a pattern.
Every declaration belongs to a place around it: what `var` declares to the body
of the function, what `let`, `const`, `class` and `function` declare to the
block, as in strict code, and a parameter to its function.

Wherever a name stands, it means the variable that is declared by the nearest
place around it that has a declaration of that name.

The same patterns stand to the left of an assignment, where their names are
assigned to and not declared.
-/

/-! ## Targets -/

/-- The place is assigned to, or declared, as a part of what is around it. -/
def isTargetPart (place : Place) : Bool :=
  match place.parent? with
  | none => false
  | some parent =>
      match parent.kind with
      | .objectPattern | .arrayPattern | .restPattern | .parenthesizedExpression => true
      | .pairPattern => place.field == some .value
      | .assignmentPattern | .objectAssignmentPattern => place.field == some .left
      | _ => false

/-- The whole target that a place is a part of: the outermost pattern or parenthesis around it, or
the place itself. -/
def target (place : Place) : Place :=
  ((place :: place.above).find? (! ·.isTargetPart)).getD place

/-- The place is a name that can be declared or assigned to. -/
def isTargetName (place : Place) : Bool :=
  place.kind == .identifier || place.kind == .shorthandPropertyIdentifierPattern

/-- The text of a list of parts up to the child that plays a given part. -/
def textBeforeField (field : Field) : List (NodePart Node) → String
  | [] => ""
  | .text source :: rest => source ++ textBeforeField field rest
  | .child node :: rest => if node.field == some field then "" else textBeforeField field rest

/-- The word with which a loop over the elements of an object declares its variable. -/
def loopWord? (loop : Place) : Option String :=
  let before := Text.trimEndChars (textBeforeField .left loop.node.parts).toList
  let word := String.ofList (before.reverse.takeWhile Text.isAsciiAlphanumeric).reverse
  if ["var", "let", "const"].contains word then some word else none

/-! ## Declarations -/

/-- Variables of a function belong to its body, those of a script to the whole of it. -/
def isVariableScope (place : Place) : Bool :=
  match place.parent? with
  | none => true
  | some parent =>
      place.kind == .statementBlock && place.field == some .body &&
        (parent.kind.isPlainFunction || parent.kind.isFunctionLike ||
          parent.kind == .classStaticBlock)

/-- Other declarations belong to a list of statements, or to a loop. -/
def isBlockScope (place : Place) : Bool :=
  place.parent?.isNone || place.kind == .statementBlock || place.kind == .switchBody ||
    place.kind == .forStatement || place.kind == .forInStatement

/-- The place to which a variable that is declared at a place belongs. -/
def variableScope? (place : Place) : Option Place :=
  place.above.find? (·.isVariableScope)

/-- The place to which other declarations at a place belong. -/
def blockScope? (place : Place) : Option Place :=
  place.above.find? (·.isBlockScope)

/-- The place to which a name belongs that is declared where it stands. -/
def declaredIn? (place : Place) : Option Place := do
  guard place.isTargetName
  let target := place.target
  let parent ← target.parent?
  match parent.kind with
  | .variableDeclarator =>
      guard (target.field == some .name)
      if parent.parent?.any (·.kind == .variableDeclaration) then parent.variableScope?
      else parent.blockScope?
  | .forInStatement =>
      guard (target.field == some .left)
      let word ← parent.loopWord?
      if word == "var" then parent.variableScope? else some parent
  | .formalParameters => parent.parent?
  | .arrowFunction | .catchClause =>
      guard (target.field == some .parameter)
      return parent
  | .functionDeclaration | .generatorFunctionDeclaration | .classDeclaration =>
      guard (target.field == some .name)
      parent.blockScope?
  | .functionExpression | .generatorFunction | .classExpression =>
      guard (target.field == some .name)
      return parent
  | .importClause | .namespaceImport => parent.blockScope?
  | .importSpecifier =>
      guard (target.field == some .alias || (parent.child? .alias).isNone)
      parent.blockScope?
  | _ => none

/-- The declarations of a name that belong to a place. -/
def declarationsIn (scope : Place) (name : String) : List Place :=
  scope.walk.filter fun inner =>
    (inner.declaredIn?.map (·.path) == some scope.path) && inner.text == name

/-- The nearest place around a name that has declarations of it. -/
def declaringScope? (place : Place) : Option Place :=
  place.above.find? fun scope => ! (scope.declarationsIn place.text).isEmpty

/-- The declarations of the variable that a name means. -/
def declarations (place : Place) : List Place :=
  match place.declaringScope? with
  | some scope => scope.declarationsIn place.text
  | none => []

/-- A name stands inside a scope, and no place between the two has a declaration of it. -/
structure Sees (place scope : Place) : Prop where
  around : scope ∈ place.above
  unshadowed : ∀ nearer ∈ between scope place, nearer.declarationsIn place.text = []

section Meaning

variable {root : Node} {place scope declaration : Place} {name : String}

theorem mem_declarationsIn : declaration ∈ scope.declarationsIn name ↔
    declaration ∈ scope.walk ∧ declaration.declaredIn?.map (·.path) = some scope.path ∧
      declaration.text = name := by
  rw [declarationsIn, List.mem_filter, Bool.and_eq_true, beq_iff_eq, beq_iff_eq]

theorem declaringScope?_eq_some_iff (inWalk : place ∈ (ofRoot root).walk) :
    place.declaringScope? = some scope ↔
      place.Sees scope ∧ scope.declarationsIn place.text ≠ [] := by
  rw [declaringScope?, List.find?_eq_some_iff_append]
  simp only [Bool.not_eq_true', List.isEmpty_eq_false_iff, Bool.not_not, List.isEmpty_iff]
  constructor
  · rintro ⟨some, before, after, split, none⟩
    rw [← between_of_append inWalk split] at none
    exact ⟨⟨split ▸ List.mem_append_right _ List.mem_cons_self, none⟩, some⟩
  · rintro ⟨⟨around, none⟩, some⟩
    obtain ⟨before, after, split⟩ := List.append_of_mem around
    rw [between_of_append inWalk split] at none
    exact ⟨some, before, after, split, none⟩

/-- A name means what is declared around it, in so far as nothing between has the name. -/
theorem mem_declarations_iff (inWalk : place ∈ (ofRoot root).walk) :
    declaration ∈ place.declarations ↔
      ∃ scope, place.Sees scope ∧ declaration ∈ scope.declarationsIn place.text := by
  rw [declarations]
  constructor
  · intro member
    cases found : place.declaringScope? with
    | none =>
        rw [found] at member
        exact absurd member List.not_mem_nil
    | some scope =>
        rw [found] at member
        exact ⟨scope, ((declaringScope?_eq_some_iff inWalk).mp found).1, member⟩
  · rintro ⟨scope, sees, member⟩
    rw [(declaringScope?_eq_some_iff inWalk).mpr ⟨sees, List.ne_nil_of_mem member⟩]
    exact member

theorem mem_walk_of_declarations (inWalk : place ∈ (ofRoot root).walk)
    (member : declaration ∈ place.declarations) : declaration ∈ (ofRoot root).walk := by
  obtain ⟨scope, sees, declares⟩ := (mem_declarations_iff inWalk).mp member
  exact mem_walk_trans ((mem_above_iff inWalk).mp sees.around).1
    (mem_declarationsIn.mp declares).1

theorem text_of_mem_declarations (inWalk : place ∈ (ofRoot root).walk)
    (member : declaration ∈ place.declarations) : declaration.text = place.text := by
  obtain ⟨_, _, declares⟩ := (mem_declarations_iff inWalk).mp member
  exact (mem_declarationsIn.mp declares).2.2

/-- A declaration that belongs to a scope is meant by the names that see the scope. -/
theorem mem_declarations_iff_sees (inWalk : place ∈ (ofRoot root).walk)
    (scopeInWalk : scope ∈ (ofRoot root).walk)
    (member : declaration ∈ scope.declarationsIn place.text) :
    declaration ∈ place.declarations ↔ place.Sees scope := by
  rw [mem_declarations_iff inWalk]
  constructor
  · rintro ⟨other, sees, declares⟩
    have paths : other.path = scope.path := by
      have belongs := (mem_declarationsIn.mp member).2.1
      rw [(mem_declarationsIn.mp declares).2.1] at belongs
      exact Option.some.inj belongs
    have same := eq_of_path ((mem_above_iff inWalk).mp sees.around).1 scopeInWalk paths
    exact same ▸ sees
  · exact fun sees => ⟨scope, sees, member⟩

end Meaning

/-! ## Assignments -/

/-- What a node assigns to. -/
def assignedTarget? (place : Place) : Option Place :=
  match place.kind with
  | .assignmentExpression | .augmentedAssignmentExpression => place.child? .left
  | .updateExpression => place.child? .argument
  | .forInStatement => if place.loopWord?.isSome then none else place.child? .left
  | _ => none

/-- The names to which a node assigns: those that stand for a part of its target. -/
def assignedNames (place : Place) : List Place :=
  match place.assignedTarget? with
  | some whole => whole.walk.filter fun name => name.isTargetName && name.target.path == whole.path
  | none => []

/-- A node assigns to the variable of a declaration. -/
structure Assigns (place name declaration : Place) : Prop where
  assigned : name ∈ place.assignedNames
  means : declaration ∈ name.declarations

section Assignments

variable {root : Node} {place whole name declaration : Place}

/-! ### Whole targets -/

theorem above_of_parent? {parent : Place} (isParent : place.parent? = some parent) :
    place.above = parent :: parent.above := by
  obtain ⟨ancestors, path⟩ := parent?_eq_some_iff.mp isParent
  rw [above, ancestors, aboveFrom, ← path]
  rfl

theorem target_of_isTargetPart_eq_false (apart : place.isTargetPart = false) :
    place.target = place := by
  rw [target, List.find?_cons, apart]
  rfl

/-- Parts of targets have something around them that is no name. -/
theorem exists_parent_of_isTargetPart (part : place.isTargetPart = true) :
    ∃ parent, place.parent? = some parent ∧ parent.kind ≠ .identifier := by
  rw [isTargetPart] at part
  split at part
  · cases part
  · rename_i parent isParent
    refine ⟨parent, isParent, fun kind => ?_⟩
    rw [kind] at part
    cases part

/-- The target of which a place is a part is the place itself or something around it; it is no part
of another one, and it is no name unless it is the place. -/
theorem target_cases (place : Place) :
    place.target.isTargetPart = false ∧
      (place.target = place ∨
        (place.target ∈ place.above ∧ place.target.kind ≠ .identifier)) := by
  induction length : place.ancestors.length using Nat.strongRecOn generalizing place with
  | ind bound ih =>
      cases part : place.isTargetPart with
      | false =>
          rw [target_of_isTargetPart_eq_false part]
          exact ⟨part, .inl rfl⟩
      | true =>
          obtain ⟨parent, isParent, kind⟩ := exists_parent_of_isTargetPart part
          have around := above_of_parent? isParent
          have shorter : parent.ancestors.length < bound := by
            rw [← length, (parent?_eq_some_iff.mp isParent).1]
            exact Nat.lt_succ_self _
          have outer := ih _ shorter parent rfl
          have same : place.target = parent.target := by
            have found : ((parent :: parent.above).find? (! ·.isTargetPart)).isSome = true := by
              refine List.find?_isSome.mpr ⟨parent.target, ?_, by rw [outer.1]; rfl⟩
              rcases outer.2 with same | ⟨above, _⟩
              · exact same.symm ▸ List.mem_cons_self
              · exact List.mem_cons_of_mem _ above
            obtain ⟨whole, isWhole⟩ := Option.isSome_iff_exists.mp found
            rw [target, List.find?_cons, part, around]
            change (List.find? _ (parent :: parent.above)).getD place = parent.target
            rw [target, isWhole]
            rfl
          rw [same, around]
          refine ⟨outer.1, .inr ?_⟩
          rcases outer.2 with same | ⟨above, other⟩
          · rw [same]
            exact ⟨List.mem_cons_self, kind⟩
          · exact ⟨List.mem_cons_of_mem _ above, other⟩

/-! ### Names in targets -/

theorem mem_children_of_assignedTarget? (assigned : place.assignedTarget? = some whole) :
    whole ∈ place.children ∧ whole.isTargetPart = false := by
  rw [assignedTarget?.eq_def] at assigned
  split at assigned
  case h_5 => cases assigned
  case h_4 kind =>
    split at assigned
    · cases assigned
    · have child := mem_children_of_child? assigned
      rw [isTargetPart, parent?_of_mem_children child]
      dsimp only
      rw [kind]
      exact ⟨child, rfl⟩
  all_goals
    rename_i kind
    have child := mem_children_of_child? assigned
    rw [isTargetPart, parent?_of_mem_children child]
    dsimp only
    rw [kind]
    exact ⟨child, rfl⟩

theorem mem_assignedNames : name ∈ place.assignedNames ↔ ∃ whole,
    place.assignedTarget? = some whole ∧ name ∈ whole.walk ∧ name.isTargetName = true ∧
      name.target.path = whole.path := by
  rw [assignedNames]
  cases place.assignedTarget? with
  | none => simp
  | some whole => simp [List.mem_filter]

theorem mem_walk_of_assignedNames (member : name ∈ place.assignedNames) : name ∈ place.walk := by
  obtain ⟨whole, assigned, inside, _⟩ := mem_assignedNames.mp member
  exact mem_walk_of_child (mem_children_of_assignedTarget? assigned).1 inside

/-- What assigns to a name alone assigns to no other. -/
theorem mem_assignedNames_of_identifier (inWalk : place ∈ (ofRoot root).walk)
    (assigned : place.assignedTarget? = some whole) (kind : whole.kind = .identifier) :
    name ∈ place.assignedNames ↔ name = whole := by
  obtain ⟨child, apart⟩ := mem_children_of_assignedTarget? assigned
  have wholeInWalk := mem_walk_of_children inWalk child
  rw [mem_assignedNames]
  constructor
  · rintro ⟨other, alsoAssigned, inside, _, paths⟩
    rw [assigned] at alsoAssigned
    obtain rfl := Option.some.inj alsoAssigned
    have nameInWalk := mem_walk_trans wholeInWalk inside
    rcases name.target_cases.2 with same | ⟨around, other⟩
    · exact eq_of_path nameInWalk wholeInWalk (same ▸ paths)
    · have targetInWalk := ((mem_above_iff nameInWalk).mp around).1
      rw [eq_of_path targetInWalk wholeInWalk paths] at other
      exact absurd kind other
  · rintro rfl
    refine ⟨name, assigned, name.mem_walk_self, ?_, ?_⟩
    · rw [isTargetName, kind]
      rfl
    · rw [target_of_isTargetPart_eq_false apart]

end Assignments

end Place
end Script
end Hookify
