import Hookify.Proofs.Conversion.Component
import Hookify.Proofs.Facts.Declarations
import Hookify.Proofs.Facts.Prefixes

namespace Hookify

open Script Selection

/-!
# Variables of several scopes that stand for selections

A chain that begins with a name has the target for which the variable stands.
The variables of all scopes are put into one list, and the last one of a name
decides wherever the name stands.

By the rules of the language the name means what is declared around it.  So the
target is right if the name sees a variable for the same selector: if it stands
inside the scope of one, and no place between declares the name.
-/

namespace Facts

/-- The selectors of the selections with which the variable that a name means is initialised. -/
def selectionsOf (facts : Facts) (name : Place) : List String :=
  (facts.aliasDeclarations.filter fun declared =>
    name.declarations.any (·.path == declared.1.path)).map (·.2)

/-- The chain that ends at a place has a target only if the name at its beginning means a variable
for a selection, and then it has the selector of one. -/
structure FollowsAlias (facts : Facts) (place name : Place) : Prop where
  sound : ∀ chain, facts.chain? place = some chain →
    ∃ selector ∈ facts.selectionsOf name, chain.target = .selector selector
  complete : facts.selectionsOf name ≠ [] → (facts.chain? place).isSome = true

section Selections

variable {tree : Node} {name : Place} {selector : String}

/-- What a variable stands for is seen from inside its scope. -/
theorem mem_selectionsOf (inWalk : name ∈ (Place.ofRoot tree).walk) :
    selector ∈ (ofTree tree).selectionsOf name ↔
      ∃ declaration, (declaration, selector) ∈ (ofTree tree).aliasDeclarations ∧
        ∃ scope ∈ (ofTree tree).scopes, declaration ∈ scope.body.declarationsIn name.text ∧
          name.Sees scope.body := by
  have listed : ∀ declaration, (declaration, selector) ∈ (ofTree tree).aliasDeclarations →
      ∃ scope ∈ (ofTree tree).scopes, scope.body ∈ (Place.ofRoot tree).walk ∧
        declaration ∈ scope.body.declarationsIn declaration.text := by
    intro declaration member
    obtain ⟨⟨place, value⟩, declares, found⟩ := List.mem_filterMap.mp member
    obtain ⟨_, _, same⟩ := Option.map_eq_some_iff.mp found
    obtain ⟨rfl, _⟩ := Prod.mk.inj same
    obtain ⟨_, scope, isScope, belongs⟩ := exists_scope_of_mem declares
    exact ⟨scope, isScope, mem_walk_of_scopesFrom _ (Place.ofRoot tree).mem_walk_self isScope,
      belongs⟩
  rw [selectionsOf, List.mem_map]
  constructor
  · rintro ⟨⟨declaration, _⟩, member, rfl⟩
    obtain ⟨among, means⟩ := List.mem_filter.mp member
    obtain ⟨scope, isScope, inScope, belongs⟩ := listed declaration among
    have inDeclarations := (Place.mem_iff_any_path
      (Place.mem_walk_trans inScope (Place.mem_declarationsIn.mp belongs).1)
      (fun _ => Place.mem_walk_of_declarations inWalk)).mpr means
    rw [Place.text_of_mem_declarations inWalk inDeclarations] at belongs
    exact ⟨declaration, among, scope, isScope, belongs,
      (Place.mem_declarations_iff_sees inWalk inScope belongs).mp inDeclarations⟩
  · rintro ⟨declaration, among, scope, isScope, belongs, sees⟩
    have inScope := mem_walk_of_scopesFrom _ (Place.ofRoot tree).mem_walk_self isScope
    have inDeclarations := (Place.mem_declarations_iff_sees inWalk inScope belongs).mpr sees
    exact ⟨(declaration, selector), List.mem_filter.mpr ⟨among,
      List.any_eq_true.mpr ⟨declaration, inDeclarations, beq_self_eq_true _⟩⟩, rfl⟩

end Selections

end Facts

/-- The target of a chain that begins with a name is the selector of the last variable with that name
that any scope declares for a selection.  It follows the scopes of the script exactly if there is no
such variable, or if the name stands inside the scope of one for the same selector and no place
between the two declares the name. -/
theorem chain_target_follows_scopes_iff (tree : Node) {place : Place}
    (inside : place ∈ (Facts.ofTree tree).root.walk)
    (named : (callsTo place).2.kind = .identifier) :
    let facts := Facts.ofTree tree
    let name := (callsTo place).2
    let last? := (facts.aliasDeclarations.filter (·.1.text == name.text)).getLast?
    (facts.chain? place).map (·.target) = last?.map (fun declared => .selector declared.2) ∧
      (facts.FollowsAlias place name ↔ ∀ declared ∈ last?,
        ∃ declaration, (declaration, declared.2) ∈ facts.aliasDeclarations ∧
          ∃ scope ∈ facts.scopes, declaration ∈ scope.body.declarationsIn name.text ∧
            name.Sees scope.body) := by
  intro facts name last?
  have inWalk : name ∈ (Place.ofRoot tree).walk := mem_walk_of_callsFrom place.node.size inside
  have targets : facts.chain? place =
      last?.map fun declared => ⟨.selector declared.2, name, (callsTo place).1⟩ := by
    rw [Facts.chain?, Chain.at?_eq, targetOf?, named, beq_self_eq_true, if_pos rfl]
    change ((facts.alias? name.text).map Target.selector).map _ = _
    rw [Facts.alias?_eq, Option.map_map, Option.map_map]
    rfl
  refine ⟨by rw [targets, Option.map_map]; rfl, ?_⟩
  constructor
  · intro follows declared isLast
    rw [Option.mem_def] at isLast
    obtain ⟨selector, seen, same⟩ := follows.sound _ (by rw [targets, isLast]; rfl)
    cases same
    exact (Facts.mem_selectionsOf inWalk).mp seen
  · intro seen
    constructor
    · intro chain found
      rw [targets] at found
      obtain ⟨declared, isLast, rfl⟩ := Option.map_eq_some_iff.mp found
      exact ⟨declared.2, (Facts.mem_selectionsOf inWalk).mpr (seen declared isLast), rfl⟩
    · intro some
      obtain ⟨selector, member⟩ := List.exists_mem_of_ne_nil _ some
      obtain ⟨declaration, among, _, _, belongs, _⟩ := (Facts.mem_selectionsOf inWalk).mp member
      have listed : (declaration, selector) ∈
          facts.aliasDeclarations.filter (·.1.text == name.text) :=
        List.mem_filter.mpr ⟨among, beq_iff_eq.mpr (Place.mem_declarationsIn.mp belongs).2.2⟩
      rw [targets, Option.isSome_map, List.getLast?_isSome]
      exact List.ne_nil_of_mem listed

/-- A search for a chain that begins with a name, by the methods that it calls. -/
def findsNamedChain (facts : Facts) (methods : List String)
    (wanted : Place → Option Target → Bool) : Bool :=
  facts.root.walk.any fun place =>
    (callsTo place).2.kind == .identifier && (callsTo place).1.map (·.name) == methods &&
      wanted (callsTo place).2 ((facts.chain? place).map (·.target))

theorem exists_of_findsNamedChain {facts : Facts} {methods : List String}
    {wanted : Place → Option Target → Bool} (finds : findsNamedChain facts methods wanted = true) :
    ∃ place ∈ facts.root.walk, (callsTo place).2.kind = .identifier ∧
      (callsTo place).1.map (·.name) = methods ∧
        wanted (callsTo place).2 ((facts.chain? place).map (·.target)) = true := by
  obtain ⟨place, inside, found⟩ := List.any_eq_true.mp finds
  simp only [Bool.and_eq_true, beq_iff_eq] at found
  exact ⟨place, inside, found.1.1, found.1.2, found.2⟩

/-- A variable of the function around a callback is seen in the callback. -/
theorem chain_target_follows_scopes_of_callback :
    let tree := parse "$(function () \x7b var $b = $('#a'); go(function () \x7b $b.hide(); \x7d); \x7d);"
    let facts := Facts.ofTree tree
    ∃ place ∈ facts.root.walk, (callsTo place).2.kind = .identifier ∧
      (callsTo place).1.map (·.name) = ["hide"] ∧
        (facts.chain? place).map (·.target) = some (.selector "#a") ∧
          facts.FollowsAlias place (callsTo place).2 := by
  intro tree facts
  have run : findsNamedChain facts ["hide"] (fun name target =>
      facts.selectionsOf name == ["#a"] &&
        ((facts.aliasDeclarations.filter (·.1.text == name.text)).getLast?).map (·.2) == some "#a") =
      true := by
    decide +kernel
  obtain ⟨place, inside, named, calls, fits⟩ := exists_of_findsNamedChain run
  rw [Bool.and_eq_true, beq_iff_eq, beq_iff_eq] at fits
  obtain ⟨seen, last⟩ := fits
  obtain ⟨target, follows⟩ := chain_target_follows_scopes_iff tree inside named
  obtain ⟨declared, isLast, selector⟩ := Option.map_eq_some_iff.mp last
  refine ⟨place, inside, named, calls, ?_, follows.mpr fun other isOther => ?_⟩
  · rw [target, isLast, Option.map_some, selector]
  · rw [isLast] at isOther
    cases isOther
    have inWalk : (callsTo place).2 ∈ (Place.ofRoot tree).walk :=
      mem_walk_of_callsFrom place.node.size inside
    have isSeen : declared.2 ∈ facts.selectionsOf (callsTo place).2 := by
      rw [selector, seen]
      exact List.mem_cons_self
    exact (Facts.mem_selectionsOf inWalk).mp isSeen

/-- Two callbacks for the ready page have each a variable of the same name for an element of its own.
The first one hides the element of the second. -/
theorem not_followsAlias_of_second_callback :
    let document := Document.new ("$(function () \x7b var $b = $('#a'); $b.hide(); \x7d);\n" ++
      "$(function () \x7b var $b = $('#c'); $b.show(); \x7d);") ⟨"ready.js"⟩
    let tree := parse document.script
    let facts := Facts.ofTree tree
    let component := document.componentOf {} tree
    (∃ place ∈ facts.root.walk, (callsTo place).2.kind = .identifier ∧
      (callsTo place).1.map (·.name) = ["hide"] ∧ facts.selectionsOf (callsTo place).2 = ["#a"] ∧
        (facts.chain? place).map (·.target) = some (.selector "#c") ∧
          ¬ facts.FollowsAlias place (callsTo place).2) ∧
      component.effects.map (·.code) = ["setCVisible(false);", "setCVisible(true);"] := by
  intro document tree facts component
  have run : findsNamedChain facts ["hide"] (fun name target =>
        facts.selectionsOf name == ["#a"] && target == some (.selector "#c")) = true ∧
      component.effects.map (·.code) = ["setCVisible(false);", "setCVisible(true);"] := by
    decide +kernel
  obtain ⟨finds, codes⟩ := run
  obtain ⟨place, inside, named, calls, fits⟩ := exists_of_findsNamedChain finds
  rw [Bool.and_eq_true, beq_iff_eq, beq_iff_eq] at fits
  obtain ⟨seen, target⟩ := fits
  refine ⟨⟨place, inside, named, calls, seen, target, fun follows => ?_⟩, codes⟩
  obtain ⟨chain, found, same⟩ := Option.map_eq_some_iff.mp target
  obtain ⟨selector, member, other⟩ := follows.sound chain found
  rw [seen, List.mem_singleton] at member
  rw [same, member] at other
  exact absurd other (by decide)

end Hookify
