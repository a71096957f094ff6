import Hookify.Pass.Records
import Hookify.Proofs.Component.Frames
import Hookify.Proofs.Request.Chains
import Hookify.Proofs.Script.Trees

namespace Hookify

open Script Selection

/-!
# The calls at which requests are recorded

A request is recorded once, with all continuations that are chained onto it.
To find out whether something continues a place, the recording looks at the
parents of the place; to find the continuations, it looks at the objects of
calls.  In a regular tree the two directions agree, since a member has one
object and a call one function.

So the way up from a call that makes a request and the way down to it are the
same.  Each such call has one head, at which its request is recorded, and no
two have the same head.
-/

namespace Facts

/-! ## The two directions -/

theorem exists_of_getD_map {Item : Type} {test : Item → Bool} {found : Option Item}
    (passes : (found.map test).getD false = true) : ∃ item, found = some item ∧ test item = true := by
  cases found with
  | none => cases passes
  | some item => exact ⟨item, rfl, passes⟩

/-- A call continues what stands at a place. -/
def IsContinuedBy (place outer : Place) : Prop :=
  ∃ method arguments, continuation? outer = some (method, arguments, place)

section Directions

variable {place outer root : Place} {steps : List Continuation}

/-- What a call continues has the call two levels above it. -/
theorem leadsUp_isContinuedBy : Place.LeadsUp IsContinuedBy := by
  rintro place outer ⟨method, arguments, continues⟩
  obtain ⟨_, _, member, _, isFunction, _, _, _, _, isObject⟩ :=
    continuation?_eq_some_iff.mp continues
  rw [Place.parent?_of_mem_children (Place.mem_children_of_child? isObject), Option.bind_some,
    Place.parent?_of_mem_children (Place.mem_children_of_child? isFunction)]

theorem IsContinuedBy.isContinued (continued : IsContinuedBy place outer) :
    isContinued place = true := by
  obtain ⟨method, arguments, continues⟩ := continued
  obtain ⟨isCall, _, member, property, isFunction, isMember, isProperty, rfl, known, isObject⟩ :=
    continuation?_eq_some_iff.mp continues
  have plays : place.field = some .object := by
    simpa using List.find?_some isObject
  rw [Hookify.isContinued, Place.parent?_of_mem_children (Place.mem_children_of_child? isObject)]
  dsimp only
  rw [isMember, plays, isProperty, Option.map_some, known,
    Place.parent?_of_mem_children (Place.mem_children_of_child? isFunction), Option.map_some, isCall]
  rfl

/-- In a regular tree a call does continue what the parents of a place seem to continue. -/
theorem exists_isContinuedBy {tree : Node} (regular : tree.Regular)
    (inside : place ∈ (Place.ofRoot tree).walk) (continued : isContinued place = true) :
    ∃ outer ∈ (Place.ofRoot tree).walk, IsContinuedBy place outer := by
  rw [Hookify.isContinued] at continued
  split at continued
  · cases continued
  · rename_i member isParent
    obtain ⟨⟨⟨isMember, isObject⟩, known⟩, isCall⟩ := by
      simpa only [Bool.and_eq_true, beq_iff_eq] using continued
    obtain ⟨property, isProperty, known⟩ := exists_of_getD_map known
    obtain ⟨outer, isOuter, isCall⟩ := exists_of_getD_map isCall
    obtain ⟨memberInside, isChild⟩ := Place.mem_children_of_parent? inside isParent
    obtain ⟨outerInside, isGrandchild⟩ := Place.mem_children_of_parent? memberInside isOuter
    have found := (Place.exists_property (Place.regular_of_mem_walk regular memberInside) isMember
      isChild isObject).1
    have isLinked := (Place.regular_of_mem_walk regular outerInside).fits
    change (outer.kind == .callExpression) = true at isCall
    replace isCall : outer.node.kind = .callExpression := beq_iff_eq.mp isCall
    rw [isCall, Fits] at isLinked
    -- a member below a call is the function that is called
    have isFunction : member.field = some .function := by
      refine isLinked.2.1 member.node.part (List.mem_map.mpr ⟨member.node, ?_, rfl⟩) isMember
      obtain ⟨index, found, _⟩ := Place.mem_children.mp isGrandchild
      exact List.mem_of_getElem? found
    refine ⟨outer, outerInside, property.text, callArguments outer,
      continuation?_eq_some_iff.mpr ⟨isCall, rfl, member, property, ?_, isMember, isProperty, rfl,
        known, ?_⟩⟩
    · exact Place.child?_eq_some isLinked.1 isGrandchild isFunction
    · exact found

/-- What stands in a tree is continued if and only if its parents say so. -/
theorem isContinued_iff {tree : Node} (regular : tree.Regular)
    (inside : place ∈ (Place.ofRoot tree).walk) :
    isContinued place = true ↔ ∃ outer, IsContinuedBy place outer := by
  constructor
  · intro continued
    obtain ⟨outer, _, isContinuedBy⟩ := exists_isContinuedBy regular inside continued
    exact ⟨outer, isContinuedBy⟩
  · rintro ⟨outer, continued⟩
    exact continued.isContinued

/-! ## Heads -/

/-- A request has all its continuations at its head, which no other call continues. -/
structure IsHead (root : Place) (steps : List Continuation) (head : Place) : Prop where
  continues : Continues root steps head
  outermost : ∀ outer, ¬ IsContinuedBy head outer

theorem Continues.reaches (continues : Continues root steps place) :
    Relation.ReflTransGen IsContinuedBy root place := by
  induction continues with
  | refl => exact .refl
  | step before continues ih => exact ih.tail ⟨_, _, continues⟩

theorem exists_continues (reaches : Relation.ReflTransGen IsContinuedBy root place) :
    ∃ steps, Continues root steps place := by
  induction reaches with
  | refl => exact ⟨[], .refl⟩
  | tail _ continued ih =>
      obtain ⟨steps, before⟩ := ih
      obtain ⟨method, arguments, continues⟩ := continued
      exact ⟨_, .step before continues⟩

theorem IsHead.isTop {head : Place} (isHead : IsHead root steps head) :
    Place.IsTop IsContinuedBy root head :=
  ⟨isHead.continues.reaches, isHead.outermost⟩

/-- There is only one way up from a call, so it has only one head. -/
theorem IsHead.unique {head other : Place} {later : List Continuation}
    (isHead : IsHead root steps head) (isOther : IsHead root later other) : head = other :=
  isHead.isTop.unique leadsUp_isContinuedBy isOther.isTop

theorem Continues.mem_walk {tree : Node} (continues : Continues root steps place)
    (inside : root ∈ (Place.ofRoot tree).walk) : place ∈ (Place.ofRoot tree).walk :=
  leadsUp_isContinuedBy.mem_walk continues.reaches inside

theorem Continues.root_mem_walk {above : Place} (continues : Continues root steps place)
    (inside : place ∈ above.walk) : root ∈ above.walk := by
  induction continues with
  | refl => exact inside
  | step before continues ih =>
      obtain ⟨_, _, member, _, isFunction, _, _, _, _, isObject⟩ :=
        continuation?_eq_some_iff.mp continues
      exact ih (Place.mem_walk_of_children
        (Place.mem_walk_of_children inside (Place.mem_children_of_child? isFunction))
        (Place.mem_children_of_child? isObject))

/-- Going up as long as something continues ends at a head. -/
theorem exists_isHead (root : Place) : ∃ steps head, IsHead root steps head := by
  obtain ⟨head, isTop⟩ := leadsUp_isContinuedBy.exists_isTop root
  obtain ⟨steps, continues⟩ := exists_continues isTop.reaches
  exact ⟨steps, head, continues, isTop.outermost⟩

theorem Continues.root_unique {facts : Facts} {other : Place} {later : List Continuation}
    (continues : Continues root steps place) (also : Continues other later place)
    (isRoot : (facts.rootRequest? root).isSome) (isOther : (facts.rootRequest? other).isSome) :
    root = other := by
  have isCall : ∀ {root : Place}, (facts.rootRequest? root).isSome → root.kind = .callExpression :=
    fun isRoot => (rootRequest?_eq_some (Option.eq_some_of_isSome isRoot)).1
  induction continues generalizing later with
  | refl =>
      cases also with
      | refl => rfl
      | step before continues =>
          rw [rootRequest?_of_continuation? continues (before.kind (isCall isOther))] at isRoot
          cases isRoot
  | step before continues ih =>
      cases also with
      | refl =>
          rw [rootRequest?_of_continuation? continues (before.kind (isCall isRoot))] at isOther
          cases isOther
      | step first second =>
          rw [continues] at second
          cases second
          exact ih first

/-- Two calls that make requests have different heads. -/
theorem IsHead.root_unique {facts : Facts} {other head : Place} {later : List Continuation}
    (isHead : IsHead root steps head) (isOther : IsHead other later head)
    (isRoot : (facts.rootRequest? root).isSome) (isAlso : (facts.rootRequest? other).isSome) :
    root = other :=
  isHead.continues.root_unique isOther.continues isRoot isAlso

end Directions

/-! ## The recorded requests -/

section Recorded

variable {tree : Node}

/-- The heads of a script are the heads of the calls that make requests. -/
theorem mem_heads_iff {facts : Facts} {head : Place} (regular : tree.Regular)
    (whole : facts.root = Place.ofRoot tree) :
    head ∈ facts.root.walk.filter (fun place => ! isContinued place && (facts.request? place).isSome) ↔
      ∃ root ∈ facts.root.walk, (facts.rootRequest? root).isSome ∧ ∃ steps, IsHead root steps head := by
  rw [List.mem_filter, Bool.and_eq_true, Bool.not_eq_true', whole]
  constructor
  · rintro ⟨inside, free, isSome⟩
    obtain ⟨request, found⟩ := Option.isSome_iff_exists.mp isSome
    obtain ⟨root, steps, start, continues, isRoot, _⟩ := request?_eq_some_iff.mp found
    refine ⟨root, continues.root_mem_walk inside, isRoot ▸ rfl, steps, continues, fun outer continued => ?_⟩
    rw [continued.isContinued] at free
    cases free
  · rintro ⟨root, inside, isSome, steps, isHead⟩
    obtain ⟨start, isRoot⟩ := Option.isSome_iff_exists.mp isSome
    have headInside := isHead.continues.mem_walk inside
    refine ⟨headInside, Bool.eq_false_iff.mpr fun continued => ?_, ?_⟩
    · obtain ⟨outer, isContinuedBy⟩ := (isContinued_iff regular headInside).mp continued
      exact isHead.outermost outer isContinuedBy
    · rw [request?_eq_some_iff.mpr ⟨root, steps, start, isHead.continues, isRoot, rfl⟩]
      rfl

/-- The requests of a script are those of the calls that make requests, each with the continuations
up to its head. -/
theorem requests_perm {facts : Facts} (regular : tree.Regular)
    (whole : facts.root = Place.ofRoot tree) {headOf : Place → Place}
    {stepsOf : Place → List Continuation}
    (isHead : ∀ root ∈ facts.root.walk, (facts.rootRequest? root).isSome →
      IsHead root (stepsOf root) (headOf root)) :
    facts.requests.Perm (facts.root.walk.filterMap fun root =>
      (facts.rootRequest? root).map fun start => start.withContinuations (stepsOf root)) := by
  let roots := facts.root.walk.filter fun place => (facts.rootRequest? place).isSome
  let heads := facts.root.walk.filter fun place =>
    ! isContinued place && (facts.request? place).isSome
  have ofRoot : ∀ {root}, root ∈ roots → IsHead root (stepsOf root) (headOf root) := fun member =>
    isHead _ (List.mem_of_mem_filter member) (List.mem_filter.mp member).2
  have same : (roots.map headOf).Perm heads := by
    refine (List.perm_ext_iff_of_nodup ?_ (facts.root.nodup_walk.filter _)).mpr fun head => ?_
    · refine List.Nodup.map_on (fun root member other also together => ?_)
        (facts.root.nodup_walk.filter _)
      exact (ofRoot member).root_unique (together ▸ ofRoot also) (List.mem_filter.mp member).2
        (List.mem_filter.mp also).2
    · rw [mem_heads_iff regular whole, List.mem_map]
      constructor
      · rintro ⟨root, member, rfl⟩
        exact ⟨root, List.mem_of_mem_filter member, (List.mem_filter.mp member).2, _, ofRoot member⟩
      · rintro ⟨root, inside, isSome, steps, isOther⟩
        exact ⟨root, List.mem_filter.mpr ⟨inside, isSome⟩, (isHead root inside isSome).unique isOther⟩
  have recorded : facts.requests = heads.filterMap facts.request? := by
    rw [List.filterMap_filter]
    refine List.filterMap_congr fun place _ => ?_
    cases isContinued place <;> cases facts.request? place <;> rfl
  have made : (roots.map headOf).filterMap facts.request? =
      facts.root.walk.filterMap fun root =>
        (facts.rootRequest? root).map fun start => start.withContinuations (stepsOf root) := by
    rw [List.filterMap_map, List.filterMap_filter]
    refine List.filterMap_congr fun root inside => ?_
    cases isRoot : facts.rootRequest? root with
    | none => rfl
    | some start =>
        have atHead := isHead root inside (isRoot ▸ rfl)
        exact request?_eq_some_iff.mpr ⟨root, _, start, atHead.continues, isRoot, rfl⟩
  rw [recorded, ← made]
  exact same.symm.filterMap _

end Recorded

end Facts

namespace Pass

theorem remoteCalls_foldl_addRemoteCall (calls : List RemoteCall) (draft : Draft) :
    (calls.foldl Draft.addRemoteCall draft).remoteCalls = draft.remoteCalls ++ calls := by
  rw [Draft.foldl_appends (·.remoteCalls) (fun call => [call]) fun _ _ => rfl,
    ← List.map_eq_flatMap, List.map_id']

/-- Each call in a script that makes a request has one head, reached from it by chained
continuations and continued by nothing, and no two have the same.  What is recorded is, in some
order, one request for each of these calls: the one that its head stands for, which has all
continuations between them. -/
theorem requests_recorded_once (text : String) (draft : Draft) :
    let facts := Facts.ofTree (parse text)
    ∃ (headOf : Place → Place) (stepsOf : Place → List Continuation),
      (∀ root ∈ facts.root.walk, ∀ start, facts.rootRequest? root = some start →
        headOf root ∈ facts.root.walk ∧ Facts.IsHead root (stepsOf root) (headOf root) ∧
          facts.request? (headOf root) = some (start.withContinuations (stepsOf root)) ∧
          ∀ other ∈ facts.root.walk, (facts.rootRequest? other).isSome →
            headOf other = headOf root → other = root) ∧
      ∃ recorded, (requests facts draft).remoteCalls = draft.remoteCalls ++ recorded ∧
        recorded.Perm (facts.root.walk.filterMap fun root =>
          (facts.rootRequest? root).map fun start =>
            remoteCall (Renderer.of facts none) (start.withContinuations (stepsOf root))) := by
  intro facts
  have regular := regular_parse text
  choose stepsOf headOf isHead using Facts.exists_isHead
  refine ⟨headOf, stepsOf, fun root inside start isRoot => ⟨?_, isHead root, ?_, ?_⟩, _,
    remoteCalls_foldl_addRemoteCall _ draft, ?_⟩
  · exact (isHead root).continues.mem_walk inside
  · exact Facts.request?_eq_some_iff.mpr ⟨root, _, start, (isHead root).continues, isRoot, rfl⟩
  · intro other _ isOther same
    exact (isHead other).root_unique (same ▸ isHead root) isOther (isRoot ▸ rfl)
  · have perm : facts.requests.Perm _ := Facts.requests_perm regular rfl fun root _ _ => isHead root
    have mapped := perm.map (remoteCall (Renderer.of facts none))
    simpa only [List.map_filterMap, Option.map_map, Function.comp_def] using mapped

end Pass
end Hookify
