import Hookify.Proofs.Script.Places
import Mathlib.Data.List.Nodup
import Mathlib.Logic.Relation

namespace Hookify
namespace Script
namespace Place

/-!
# Places apart

A path lists the numbers of children from the place up to the root, so that the
path of a place ends with the path of every place around it.  From this follows
where two places can meet: the walks over different children have nothing in
common, and on one walk a path stands for one place.
-/

/-- The path of a place ends with the paths of the places around it. -/
theorem path_suffix_of_mem_walk {outer inner : Place} (inside : inner ∈ outer.walk) :
    outer.path <:+ inner.path := by
  induction inside using mem_walk_induction with
  | here => exact List.suffix_rfl
  | @below outer child member _ ih =>
      obtain ⟨index, _, same⟩ := mem_children.mp member
      have step : outer.path <:+ child.path := by
        rw [same]
        exact List.suffix_cons index outer.path
      exact step.trans ih

/-- What is inside a child of a place has another path than the place. -/
theorem path_ne_of_mem_children {outer child inner : Place} (member : child ∈ outer.children)
    (deeper : inner ∈ child.walk) : inner.path ≠ outer.path := by
  intro paths
  obtain ⟨index, _, same⟩ := mem_children.mp member
  have longer := (path_suffix_of_mem_walk deeper).length_le
  rw [same, paths] at longer
  exact Nat.not_succ_le_self _ longer

/-- Children of a place are told apart by the ends of paths. -/
theorem eq_of_path_suffix {place first second : Place} (isFirst : first ∈ place.children)
    (isSecond : second ∈ place.children) {path : List Nat} (left : first.path <:+ path)
    (right : second.path <:+ path) : first = second := by
  rcases mem_children.mp isFirst with ⟨index, found, firstSame⟩
  rcases mem_children.mp isSecond with ⟨other, otherFound, secondSame⟩
  have firstPath : first.path = index :: place.path := congrArg Place.path firstSame
  have secondPath : second.path = other :: place.path := congrArg Place.path secondSame
  rw [firstPath] at left
  rw [secondPath] at right
  -- Both ends have the same length.
  have paths : index :: place.path = other :: place.path :=
    (List.suffix_of_suffix_length_le left right (Nat.le_refl _)).eq_of_length rfl
  have numbers : index = other := (List.cons.inj paths).1
  have nodes : first.node = second.node := by
    rw [numbers, otherFound] at found
    exact (Option.some.inj found).symm
  rw [firstSame, secondSame, nodes, numbers]

/-- Different children have no place in common. -/
theorem eq_of_mem_walk_children {place first second inner : Place}
    (isFirst : first ∈ place.children) (isSecond : second ∈ place.children)
    (inFirst : inner ∈ first.walk) (inSecond : inner ∈ second.walk) : first = second :=
  eq_of_path_suffix isFirst isSecond (path_suffix_of_mem_walk inFirst)
    (path_suffix_of_mem_walk inSecond)

/-- Children that play different parts have no place in common. -/
theorem field_eq_of_mem_walk {place first second inner : Place} {part other : Field}
    (isFirst : place.child? part = some first) (isSecond : place.child? other = some second)
    (inFirst : inner ∈ first.walk) (inSecond : inner ∈ second.walk) : part = other := by
  have same := eq_of_mem_walk_children (mem_children_of_child? isFirst)
    (mem_children_of_child? isSecond) inFirst inSecond
  have firstField : first.field = some part := by simpa using List.find?_some isFirst
  have secondField : second.field = some other := by simpa using List.find?_some isSecond
  rw [same, secondField] at firstField
  exact (Option.some.inj firstField).symm

/-- On one walk, places with the same path are the same. -/
theorem eq_of_path {outer first second : Place} (inFirst : first ∈ outer.walk)
    (inSecond : second ∈ outer.walk) (paths : first.path = second.path) : first = second := by
  induction inFirst using mem_walk_induction with
  | here =>
      rw [walk_eq] at inSecond
      rcases List.mem_cons.mp inSecond with same | further
      · exact same.symm
      · obtain ⟨child, member, deeper⟩ := List.mem_flatMap.mp further
        exact absurd paths.symm (path_ne_of_mem_children member deeper)
  | @below outer child member deeper ih =>
      rw [walk_eq] at inSecond
      rcases List.mem_cons.mp inSecond with rfl | further
      · exact absurd paths (path_ne_of_mem_children member deeper)
      · obtain ⟨other, isOther, otherDeeper⟩ := List.mem_flatMap.mp further
        have same : child = other := by
          have left := path_suffix_of_mem_walk deeper
          rw [paths] at left
          exact eq_of_path_suffix member isOther left (path_suffix_of_mem_walk otherDeeper)
        exact ih (same ▸ otherDeeper)

/-- On one walk, a place is in a list if its path is. -/
theorem mem_iff_any_path {outer place : Place} {places : List Place} (inWalk : place ∈ outer.walk)
    (within : ∀ other ∈ places, other ∈ outer.walk) :
    place ∈ places ↔ places.any (·.path == place.path) = true := by
  rw [List.any_eq_true]
  constructor
  · exact fun member => ⟨place, member, beq_self_eq_true _⟩
  · rintro ⟨other, member, paths⟩
    exact eq_of_path (within other member) inWalk (beq_iff_eq.mp paths) ▸ member

/-! ## Parents -/

theorem parent?_eq_some_iff {place parent : Place} :
    place.parent? = some parent ↔
      place.ancestors = parent.node :: parent.ancestors ∧ parent.path = place.path.tail := by
  rw [parent?]
  cases place.ancestors with
  | nil => exact iff_of_false nofun fun same => nomatch same.1
  | cons node others =>
      constructor
      · intro same
        cases same
        exact ⟨rfl, rfl⟩
      · rintro ⟨same, path⟩
        cases same
        rw [← path]

theorem parent?_of_mem_children {place child : Place} (member : child ∈ place.children) :
    child.parent? = some place := by
  obtain ⟨index, _, same⟩ := mem_children.mp member
  rw [same]
  rfl

/-- What is on a walk is where it begins, or a child of what is on it. -/
theorem eq_or_child_of_mem_walk {outer inner : Place} (inside : inner ∈ outer.walk) :
    inner = outer ∨ ∃ parent ∈ outer.walk, inner ∈ parent.children := by
  induction inside using mem_walk_parent_induction with
  | here => exact .inl rfl
  | child above member _ => exact .inr ⟨_, above, member⟩

/-- On the walk over a tree, all places but the root have a parent. -/
theorem mem_children_of_parent? {root : Node} {place parent : Place}
    (inside : place ∈ (ofRoot root).walk) (isParent : place.parent? = some parent) :
    parent ∈ (ofRoot root).walk ∧ place ∈ parent.children := by
  rcases eq_or_child_of_mem_walk inside with rfl | ⟨other, above, member⟩
  · cases isParent
  · rw [parent?_of_mem_children member] at isParent
    exact Option.some.inj isParent ▸ ⟨above, member⟩

/-! ## Going up -/

/-- A relation leads from places to what stands two levels above them, as from the object of a
method to the call. -/
def LeadsUp (relation : Place → Place → Prop) : Prop :=
  ∀ ⦃place outer : Place⦄, relation place outer → place.parent?.bind parent? = some outer

/-- What is reached from a place and leads no further. -/
structure IsTop (relation : Place → Place → Prop) (place top : Place) : Prop where
  reaches : Relation.ReflTransGen relation place top
  outermost : ∀ outer, ¬ relation top outer

section LeadsUp

variable {relation : Place → Place → Prop} {place outer top other : Place}

theorem ancestors_lt_of_parent? {place parent : Place} (isParent : place.parent? = some parent) :
    parent.ancestors.length < place.ancestors.length := by
  rw [(parent?_eq_some_iff.mp isParent).1]
  exact Nat.lt_succ_self _

theorem LeadsUp.ancestors_lt (up : LeadsUp relation) (leads : relation place outer) :
    outer.ancestors.length < place.ancestors.length := by
  obtain ⟨member, isMember, isOuter⟩ := Option.bind_eq_some_iff.mp (up leads)
  exact Nat.lt_trans (ancestors_lt_of_parent? isOuter) (ancestors_lt_of_parent? isMember)

/-- Going up ends somewhere. -/
theorem LeadsUp.exists_isTop (up : LeadsUp relation) (place : Place) :
    ∃ top, IsTop relation place top := by
  induction size : place.ancestors.length using Nat.strongRecOn generalizing place with
  | ind bound ih =>
      by_cases further : ∃ outer, relation place outer
      · obtain ⟨outer, leads⟩ := further
        obtain ⟨top, isTop⟩ := ih _ (size ▸ up.ancestors_lt leads) outer rfl
        exact ⟨top, .head leads isTop.reaches, isTop.outermost⟩
      · exact ⟨place, .refl, not_exists.mp further⟩

theorem IsTop.eq_of_reaches (isTop : IsTop relation place top)
    (reaches : Relation.ReflTransGen relation top other) : top = other := by
  rcases reaches.cases_head with same | ⟨outer, leads, _⟩
  · exact same
  · exact absurd leads (isTop.outermost outer)

/-- There is only one way up, so it ends at one place. -/
theorem IsTop.unique (up : LeadsUp relation) (isTop : IsTop relation place top)
    (isOther : IsTop relation place other) : top = other := by
  have oneWay : Relator.RightUnique relation := fun _ _ _ first second =>
    Option.some.inj ((up first).symm.trans (up second))
  rcases Relation.ReflTransGen.total_of_right_unique oneWay isTop.reaches isOther.reaches with
    above | below
  · exact isTop.eq_of_reaches above
  · exact (isOther.eq_of_reaches below).symm

theorem LeadsUp.mem_walk (up : LeadsUp relation) {root : Node}
    (reaches : Relation.ReflTransGen relation place top)
    (inside : place ∈ (ofRoot root).walk) : top ∈ (ofRoot root).walk := by
  induction reaches with
  | refl => exact inside
  | tail _ leads ih =>
      obtain ⟨member, isMember, isOuter⟩ := Option.bind_eq_some_iff.mp (up leads)
      exact (mem_children_of_parent? (mem_children_of_parent? ih isMember).1 isOuter).1

end LeadsUp

/-! ## Walks without repetition -/

theorem nodup_children (place : Place) : place.children.Nodup := by
  refine List.Nodup.of_map Place.path ?_
  have paths : place.children.map Place.path =
      (List.range' 0 place.node.children.length).map (· :: place.path) := by
    rw [← List.zipIdx_map_snd, children, List.map_map, List.map_map]
    rfl
  rw [paths]
  exact List.Nodup.map (fun _ _ same => (List.cons.inj same).1) List.nodup_range'

/-- A walk comes to no place twice. -/
theorem nodup_walk (place : Place) : place.walk.Nodup := by
  induction place using children_induction with
  | step place ih =>
      rw [walk_eq, List.nodup_cons, List.nodup_flatMap]
      refine ⟨fun below => ?_, ih, ?_⟩
      · obtain ⟨child, member, deeper⟩ := List.mem_flatMap.mp below
        exact path_ne_of_mem_children member deeper rfl
      · refine place.nodup_children.pairwise_of_forall_ne fun first isFirst second isSecond apart => ?_
        exact fun inner inFirst inSecond =>
          apart (eq_of_mem_walk_children isFirst isSecond inFirst inSecond)

/-!
## What lies around a place

A place knows the nodes around it, and their places are those of which it is a
part: on the walk over a tree, a place is around another one exactly if the
other is below it.  What lies around a place that is itself around is the rest
of the list, so that of several places around, those between come first.
-/

/-- The places of nodes that lie around each other, the innermost first. -/
def aboveFrom : List Node → List Nat → List Place
  | [], _ => []
  | node :: others, path => ⟨node, others, path⟩ :: aboveFrom others path.tail

/-- The places around a place, the nearest first. -/
def above (place : Place) : List Place :=
  aboveFrom place.ancestors place.path.tail

/-- The places between a place and one around it. -/
def between (outer place : Place) : List Place :=
  place.above.takeWhile (·.path != outer.path)

/-- The places below a place. -/
def inside (place : Place) : List Place :=
  place.children.flatMap walk

section Between

variable {outer place inner child : Place}

theorem above_of_mem_children (member : child ∈ place.children) :
    child.above = place :: place.above := by
  obtain ⟨index, _, same⟩ := mem_children.mp member
  rw [same]
  rfl

theorem between_of_mem_children (member : child ∈ place.children) :
    between place child = [] := by
  rw [between, above_of_mem_children member, List.takeWhile_cons_of_neg (by simp)]

theorem between_of_deeper (member : child ∈ place.children) (apart : place.path ≠ outer.path) :
    between outer child = place :: between outer place := by
  have passes : (place.path != outer.path) = true := bne_iff_ne.mpr apart
  rw [between, above_of_mem_children member, List.takeWhile_cons, passes]
  rfl

theorem length_path_of_mem_children (member : child ∈ place.children) :
    child.path.length = place.path.length + 1 := by
  obtain ⟨index, _, same⟩ := mem_children.mp member
  rw [same]
  rfl

theorem mem_inside_of_mem_walk (below : inner ∈ outer.walk) (apart : inner.path ≠ outer.path) :
    inner ∈ outer.inside := by
  rw [walk_eq] at below
  rcases List.mem_cons.mp below with same | below
  · exact absurd (congrArg path same) apart
  · exact below

theorem mem_walk_of_mem_inside (below : inner ∈ outer.inside) : inner ∈ outer.walk := by
  rw [walk_eq]
  exact List.mem_cons_of_mem outer below

theorem length_path_lt_of_mem_inside (below : inner ∈ outer.inside) :
    outer.path.length < inner.path.length := by
  obtain ⟨child, member, deeper⟩ := List.mem_flatMap.mp below
  exact Nat.lt_of_lt_of_le (length_path_of_mem_children member ▸ Nat.lt_succ_self _)
    (path_suffix_of_mem_walk deeper).length_le

/-- What lies between a place and one inside is inside as well. -/
theorem mem_inside_of_mem_between (below : place ∈ outer.inside)
    (member : inner ∈ between outer place) : inner ∈ outer.inside := by
  induction mem_walk_of_mem_inside below using mem_walk_parent_induction with
  | here => exact absurd (length_path_lt_of_mem_inside below) (Nat.lt_irrefl _)
  | @child parent place above isChild ih =>
      by_cases atOuter : parent.path = outer.path
      · have same := eq_of_path above outer.mem_walk_self atOuter
        rw [← same, between_of_mem_children isChild] at member
        exact absurd member List.not_mem_nil
      · have parentInside := mem_inside_of_mem_walk above atOuter
        rw [between_of_deeper isChild atOuter] at member
        rcases List.mem_cons.mp member with same | further
        · exact same ▸ parentInside
        · exact ih parentInside further

end Between

/-! ## What is around is what a place is inside of -/

section Around

variable {root : Node} {outer inner : Place}

/-- What comes behind a place that is around is what is around that place. -/
theorem above_of_append {before after : List Place} (split : inner.above = before ++ outer :: after) :
    outer.above = after := by
  have behind : ∀ (before : List Place) (nodes : List Node) (path : List Nat),
      aboveFrom nodes path = before ++ outer :: after → outer.above = after := by
    intro before
    induction before with
    | nil =>
        intro nodes path split
        cases nodes with
        | nil => cases split
        | cons node others =>
            rw [aboveFrom, List.nil_append] at split
            obtain ⟨rfl, same⟩ := List.cons.inj split
            exact same
    | cons first rest ih =>
        intro nodes path split
        cases nodes with
        | nil => cases split
        | cons node others =>
            rw [aboveFrom, List.cons_append] at split
            exact ih others path.tail (List.cons.inj split).2
  exact behind before _ _ split

/-- On the walk over a tree, a place is around exactly what is below it. -/
theorem mem_above_iff (inWalk : inner ∈ (ofRoot root).walk) :
    outer ∈ inner.above ↔ outer ∈ (ofRoot root).walk ∧ inner ∈ outer.inside := by
  constructor
  · intro around
    induction inWalk using mem_walk_parent_induction with
    | here => exact absurd around List.not_mem_nil
    | @child parent inner above member ih =>
        rw [above_of_mem_children member] at around
        rcases List.mem_cons.mp around with rfl | further
        · exact ⟨above, List.mem_flatMap.mpr ⟨inner, member, inner.mem_walk_self⟩⟩
        · obtain ⟨outerAbove, below⟩ := ih further
          obtain ⟨child, isChild, deeper⟩ := List.mem_flatMap.mp below
          exact ⟨outerAbove, List.mem_flatMap.mpr
            ⟨child, isChild, mem_walk_of_children deeper member⟩⟩
  · rintro ⟨_, below⟩
    obtain ⟨child, member, deeper⟩ := List.mem_flatMap.mp below
    clear inWalk below
    induction deeper using mem_walk_parent_induction with
    | here =>
        rw [above_of_mem_children member]
        exact List.mem_cons_self
    | child _ isChild ih =>
        rw [above_of_mem_children isChild]
        exact List.mem_cons_of_mem _ ih

/-- The places between are those that come before a place around. -/
theorem between_of_append (inWalk : inner ∈ (ofRoot root).walk) {before after : List Place}
    (split : inner.above = before ++ outer :: after) : between outer inner = before := by
  have apart : ∀ nearer ∈ before, (nearer.path != outer.path) = true := by
    intro nearer member
    have around : nearer ∈ inner.above := split ▸ List.mem_append_left _ member
    -- The place around comes behind, so it is around the nearer one as well.
    have further : outer ∈ nearer.above := by
      obtain ⟨front, rest, same⟩ := List.append_of_mem member
      rw [same, List.append_assoc, List.cons_append] at split
      rw [above_of_append split]
      exact List.mem_append_right _ List.mem_cons_self
    have below := ((mem_above_iff ((mem_above_iff inWalk).mp around).1).mp further).2
    refine bne_iff_ne.mpr fun same => ?_
    have longer := length_path_lt_of_mem_inside below
    rw [same] at longer
    exact Nat.lt_irrefl _ longer
  rw [between, split, List.takeWhile_append_of_pos apart, List.takeWhile_cons_of_neg (by simp),
    List.append_nil]

end Around

end Place
end Script
end Hookify
