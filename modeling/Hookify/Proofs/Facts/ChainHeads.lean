import Hookify.Proofs.Facts.Prefixes
import Hookify.Proofs.Script.Order
import Hookify.Proofs.Script.Trees

namespace Hookify
namespace Selection

open Script

/-!
# Chains and their heads

A chain is found from its head by going down from calls to the objects of their
methods.  Whether a call is a head is found by going up: its parent would be a
member, and the parent of that a call.  In the tree of a script a member has one
object and a property behind it, and a member below a call is what is called, so
that the two ways are one.

So each call that is chained onto a selection has one head above itself, and
the calls of two heads have nothing in common.  What the script does at the
heads of its chains, it does once for every chained call.
-/

/-- What stands at a place is the object of a method call. -/
def IsObjectOf (object place : Place) : Prop :=
  ∃ call, methodCall? place = some (call, object)

/-- The call of a method at a place, if the objects below it end in a target. -/
def chainedCall? (aliases : Aliases) (place : Place) : Option MethodCall := do
  let (call, _) ← methodCall? place
  let _ ← targetOf? aliases (callsTo place).2
  return call

/-- A call stands inside of another one, in front of the name of the method. -/
structure Precedes (inner outer : MethodCall) : Prop where
  inside : inner.place ∈ outer.place.walk
  apart : inner.place ≠ outer.place
  inFront : inner.place.stop + outer.name.utf8ByteSize ≤ outer.place.stop

section Heads

variable {place object head : Place} {call inner : MethodCall} {tree : Node}

/-! ## The two ways -/

theorem leadsUp_isObjectOf : Place.LeadsUp IsObjectOf := by
  rintro object place ⟨call, found⟩
  obtain ⟨_, function, _, isFunction, _, isObject, _⟩ := shape_of_methodCall? found
  rw [Place.parent?_of_mem_children (Place.mem_children_of_child? isObject), Option.bind_some,
    Place.parent?_of_mem_children (Place.mem_children_of_child? isFunction)]

/-- In a regular tree, what is no head is the object of a method call. -/
theorem exists_isObjectOf (regular : tree.Regular) (inside : object ∈ (Place.ofRoot tree).walk)
    (noHead : isHead object = false) : ∃ place, IsObjectOf object place := by
  rw [isHead] at noHead
  split at noHead
  · cases noHead
  rename_i member isParent
  split at noHead
  · cases noHead
  rename_i isLink
  simp only [Bool.or_eq_true, bne_iff_ne, not_or, not_not] at isLink
  split at noHead
  · cases noHead
  rename_i place isCaller
  simp only [Bool.or_eq_false_iff, bne_eq_false_iff_eq] at noHead
  obtain ⟨memberInside, isChild⟩ := Place.mem_children_of_parent? inside isParent
  obtain ⟨placeInside, isGrandchild⟩ := Place.mem_children_of_parent? memberInside isCaller
  obtain ⟨isObject, property, isProperty, _⟩ :=
    Place.exists_property (Place.regular_of_mem_walk regular memberInside) isLink.1 isChild isLink.2
  have linked := (Place.regular_of_mem_walk regular placeInside).fits
  rw [show place.node.kind = .callExpression from noHead.1, Fits] at linked
  have isFunction := Place.child?_eq_some linked.1 isGrandchild noHead.2
  refine ⟨place, ⟨property.text, place, callArguments place⟩, ?_⟩
  rw [methodCall?, beq_iff_eq.mpr noHead.1, isFunction]
  simp only [guard_true, Option.bind_eq_bind, Option.bind_some, Option.pure_def, isLink.1,
    beq_self_eq_true, isObject, isProperty]

theorem isHead_iff (regular : tree.Regular) (inside : object ∈ (Place.ofRoot tree).walk) :
    isHead object = true ↔ ∀ place, ¬ IsObjectOf object place := by
  constructor
  · rintro ends place ⟨call, found⟩
    rw [isHead_of_methodCall? found] at ends
    cases ends
  · intro free
    by_contra noHead
    obtain ⟨place, isObject⟩ :=
      exists_isObjectOf regular inside (Bool.not_eq_true _ ▸ noHead)
    exact free place isObject

/-! ## The calls up to a head -/

/-- What is above a call goes on with its calls, and has the same first object. -/
theorem callsTo_of_reaches (reaches : Relation.ReflTransGen IsObjectOf place head) :
    ∃ after, callsTo head = ((callsTo place).1 ++ after, (callsTo place).2) := by
  induction reaches with
  | refl => exact ⟨[], by rw [List.append_nil]⟩
  | tail _ leads ih =>
      obtain ⟨after, same⟩ := ih
      obtain ⟨call, found⟩ := leads
      refine ⟨after ++ [call], ?_⟩
      rw [callsTo_of_methodCall? found, same, List.append_assoc]

/-- The first object and each of the calls up to a place lead there. -/
theorem reaches_of_mem_callsTo :
    Relation.ReflTransGen IsObjectOf (callsTo head).2 head ∧
      ∀ call ∈ (callsTo head).1, Relation.ReflTransGen IsObjectOf call.place head := by
  induction calls : (callsTo head).1 using List.reverseRecOn generalizing head with
  | nil =>
      refine ⟨?_, fun _ absent => absurd absent List.not_mem_nil⟩
      cases found : methodCall? head with
      | none => rw [callsTo_eq, found]
      | some pair =>
          rw [callsTo_of_methodCall? found] at calls
          exact absurd calls (List.append_ne_nil_of_right_ne_nil _ (List.cons_ne_nil _ _))
  | append_singleton before last ih =>
      obtain ⟨object, found, earlier⟩ := exists_methodCall?_of_concat calls
      obtain ⟨fromRoot, fromCalls⟩ := @ih object (by rw [earlier])
      rw [earlier] at fromRoot
      refine ⟨fromRoot.tail ⟨last, found⟩, fun call member => ?_⟩
      rcases List.mem_append.mp member with below | same
      · exact (fromCalls call below).tail ⟨last, found⟩
      · rw [List.mem_singleton.mp same, (methodCall?_eq_some found).1]

theorem methodCall?_of_mem_callsTo (member : call ∈ (callsTo head).1) :
    ∃ object, methodCall? call.place = some (call, object) ∧
      (callsTo call.place).2 = (callsTo head).2 := by
  obtain ⟨before, after, split⟩ := List.append_of_mem member
  have ends := (callsTo_of_split split).1
  have last : (callsTo call.place).1 = before ++ [call] := by rw [ends]
  obtain ⟨object, found, _⟩ := exists_methodCall?_of_concat last
  exact ⟨object, found, by rw [ends]⟩

theorem mem_walk_of_reaches (reaches : Relation.ReflTransGen IsObjectOf place head) :
    place ∈ head.walk := by
  induction reaches with
  | refl => exact Place.mem_walk_self _
  | tail _ leads ih =>
      obtain ⟨call, found⟩ := leads
      obtain ⟨_, function, _, isFunction, _, isObject, _⟩ := shape_of_methodCall? found
      exact Place.mem_walk_of_child (Place.mem_children_of_child? isFunction)
        (Place.mem_walk_of_child (Place.mem_children_of_child? isObject) ih)

/-! ## The order of calls -/

/-- Behind the object of a method stands its name. -/
theorem stop_add_le_of_methodCall? (regular : tree.Regular)
    (inside : place ∈ (Place.ofRoot tree).walk) (found : methodCall? place = some (call, object)) :
    object.stop + call.name.utf8ByteSize ≤ place.stop := by
  obtain ⟨_, function, property, isFunction, isMember, isObject, isProperty, name⟩ :=
    shape_of_methodCall? found
  have functionChild := Place.mem_children_of_child? isFunction
  have plays : object.field = some .object := by simpa using List.find?_some isObject
  obtain ⟨_, other, isOther, order⟩ := Place.exists_property
    (Place.regular_of_mem_walk regular (Place.mem_walk_of_children inside functionChild)) isMember
    (Place.mem_children_of_child? isObject) plays
  obtain rfl := Option.some.inj (isProperty.symm.trans isOther)
  have behind : object.stop ≤ property.start := by
    simpa using function.pairwise_children.sublist order
  have inFunction := (Place.start_le_and_stop_le_of_mem_walk (Place.mem_walk_of_children
    function.mem_walk_self (Place.mem_children_of_child? isProperty))).2
  have inPlace := (Place.start_le_and_stop_le_of_mem_walk (Place.mem_walk_of_children
    place.mem_walk_self functionChild)).2
  calc
    object.stop + call.name.utf8ByteSize
        ≤ property.start + property.text.utf8ByteSize := by
          rw [name]
          exact Nat.add_le_add_right behind _
    _ = property.stop := rfl
    _ ≤ place.stop := inFunction.trans inPlace

/-- The calls up to a place are listed from the inside to the outside. -/
theorem pairwise_callsTo (regular : tree.Regular) (inside : head ∈ (Place.ofRoot tree).walk) :
    (callsTo head).1.Pairwise Precedes := by
  induction calls : (callsTo head).1 using List.reverseRecOn generalizing head with
  | nil => exact .nil
  | append_singleton before last ih =>
      obtain ⟨object, found, earlier⟩ := exists_methodCall?_of_concat calls
      have isPlace := (methodCall?_eq_some found).1
      have objectInside : object ∈ head.walk := mem_walk_of_reaches (.single ⟨last, found⟩)
      refine List.pairwise_append.mpr ⟨ih (Place.mem_walk_trans inside objectInside)
        (by rw [earlier]), List.pairwise_singleton _ _, fun inner member outer same => ?_⟩
      rw [List.mem_singleton.mp same]
      have inObject : inner.place ∈ object.walk := mem_walk_of_reaches
        (reaches_of_mem_callsTo.2 inner (by rw [earlier]; exact member))
      have smaller := size_lt_of_methodCall? found
      have fits := Place.size_le_of_mem_walk inObject
      have stops := (Place.start_le_and_stop_le_of_mem_walk inObject).2
      refine ⟨?_, ?_, ?_⟩
      · rw [isPlace]
        exact Place.mem_walk_trans objectInside inObject
      · intro equal
        rw [equal, isPlace] at fits
        exact absurd fits (Nat.not_le_of_lt smaller)
      · rw [isPlace]
        exact (Nat.add_le_add_right stops _).trans
          (stop_add_le_of_methodCall? regular inside found)

end Heads

/-! ## Chained calls -/

section Chained

variable {aliases : Aliases} {place head : Place} {call : MethodCall} {chain : Chain} {tree : Node}

theorem chainedCall?_eq_some_iff : chainedCall? aliases place = some call ↔
    (∃ object, methodCall? place = some (call, object)) ∧
      ∃ target, targetOf? aliases (callsTo place).2 = some target := by
  simp only [chainedCall?, Option.bind_eq_bind, Option.bind_eq_some_iff, Option.pure_def,
    Option.some.injEq, Prod.exists]
  constructor
  · rintro ⟨call, object, found, target, ends, rfl⟩
    exact ⟨⟨object, found⟩, target, ends⟩
  · rintro ⟨⟨object, found⟩, target, ends⟩
    exact ⟨call, object, found, target, ends, rfl⟩

/-- The chain at a place has the chained calls that lead there. -/
theorem mem_calls_iff : (∃ chain, Chain.at? aliases head = some chain ∧ call ∈ chain.calls) ↔
    chainedCall? aliases call.place = some call ∧
      Relation.ReflTransGen IsObjectOf call.place head := by
  rw [chainedCall?_eq_some_iff]
  constructor
  · rintro ⟨chain, found, member⟩
    rw [Chain.at?_eq, Option.map_eq_some_iff] at found
    obtain ⟨target, ends, rfl⟩ := found
    obtain ⟨object, isCall, sameRoot⟩ := methodCall?_of_mem_callsTo member
    exact ⟨⟨⟨object, isCall⟩, target, by rw [sameRoot, ends]⟩, reaches_of_mem_callsTo.2 call member⟩
  · rintro ⟨⟨⟨object, isCall⟩, target, ends⟩, reaches⟩
    obtain ⟨after, same⟩ := callsTo_of_reaches reaches
    refine ⟨⟨target, (callsTo head).2, (callsTo head).1⟩, ?_, ?_⟩
    · rw [Chain.at?_eq, same, ends]
      rfl
    · rw [same, callsTo_of_methodCall? isCall]
      simp

theorem place_of_chainedCall? (chained : chainedCall? aliases place = some call) :
    call.place = place := by
  obtain ⟨⟨_, found⟩, _⟩ := chainedCall?_eq_some_iff.mp chained
  exact (methodCall?_eq_some found).1

/-- A chained call is among the calls of one head. -/
theorem existsUnique_head (regular : tree.Regular) (inside : place ∈ (Place.ofRoot tree).walk)
    (chained : chainedCall? aliases place = some call) :
    ∃! head, head ∈ (Place.ofRoot tree).walk ∧ isHead head = true ∧
      ∃ chain, Chain.at? aliases head = some chain ∧ call ∈ chain.calls := by
  obtain rfl := place_of_chainedCall? chained
  obtain ⟨head, isTop⟩ := leadsUp_isObjectOf.exists_isTop call.place
  have onWalk := leadsUp_isObjectOf.mem_walk isTop.reaches inside
  refine ⟨head, ⟨onWalk, (isHead_iff regular onWalk).mpr isTop.outermost,
    mem_calls_iff.mpr ⟨chained, isTop.reaches⟩⟩, ?_⟩
  rintro other ⟨otherOnWalk, ends, listed⟩
  have isOther : Place.IsTop IsObjectOf call.place other :=
    ⟨(mem_calls_iff.mp listed).2, (isHead_iff regular otherOnWalk).mp ends⟩
  exact isOther.unique leadsUp_isObjectOf isTop

/-! ## All chains of a tree -/

/-- The calls of the chains of a tree, in the order in which its heads are visited. -/
def callsIn (aliases : Aliases) (root : Place) : List MethodCall :=
  (chainsIn aliases root).flatMap (·.2.calls)

theorem mem_callsIn {root : Place} : call ∈ callsIn aliases root ↔
    ∃ head, head ∈ root.walk ∧ isHead head = true ∧
      ∃ chain, Chain.at? aliases head = some chain ∧ call ∈ chain.calls := by
  rw [callsIn, List.mem_flatMap]
  constructor
  · rintro ⟨⟨head, chain⟩, listed, member⟩
    obtain ⟨onWalk, _, ends, found⟩ := mem_chainsIn.mp listed
    exact ⟨head, onWalk, ends, chain, found, member⟩
  · rintro ⟨head, onWalk, ends, chain, found, member⟩
    have isCall : head.kind = .callExpression := by
      rw [Chain.at?_eq, Option.map_eq_some_iff] at found
      obtain ⟨_, _, rfl⟩ := found
      obtain ⟨_, _, isCall⟩ := exists_methodCall? (List.ne_nil_of_mem member)
      exact (shape_of_methodCall? isCall).1
    exact ⟨(head, chain), mem_chainsIn.mpr ⟨onWalk, isCall, ends, found⟩, member⟩

theorem nodup_chainsIn (aliases : Aliases) (root : Place) : (chainsIn aliases root).Nodup := by
  refine root.nodup_walk.filterMap fun place other found isFound isOther => ?_
  have headOf : ∀ {inner : Place}, (if inner.kind == .callExpression && isHead inner then
      (Chain.at? aliases inner).map fun chain => (inner, chain) else none) = some found →
      found.1 = inner := by
    intro inner same
    split at same
    · obtain ⟨_, _, rfl⟩ := Option.map_eq_some_iff.mp same
      rfl
    · cases same
  exact (headOf isFound).symm.trans (headOf isOther)

theorem nodup_callsIn (regular : tree.Regular) (aliases : Aliases) :
    (callsIn aliases (Place.ofRoot tree)).Nodup := by
  rw [callsIn, List.nodup_flatMap]
  constructor
  · rintro ⟨head, chain⟩ listed
    obtain ⟨onWalk, _, _, found⟩ := mem_chainsIn.mp listed
    rw [Chain.at?_eq, Option.map_eq_some_iff] at found
    obtain ⟨_, _, rfl⟩ := found
    exact (pairwise_callsTo regular onWalk).imp fun precedes same =>
      precedes.apart (congrArg MethodCall.place same)
  · refine (nodup_chainsIn aliases _).pairwise_of_forall_ne ?_
    rintro ⟨head, chain⟩ listed ⟨other, otherChain⟩ alsoListed apart call member also
    obtain ⟨onWalk, _, ends, found⟩ := mem_chainsIn.mp listed
    obtain ⟨otherOnWalk, _, otherEnds, otherFound⟩ := mem_chainsIn.mp alsoListed
    obtain ⟨chained, reaches⟩ := mem_calls_iff.mp ⟨chain, found, member⟩
    have inside := Place.mem_walk_trans onWalk (mem_walk_of_reaches reaches)
    have same := (existsUnique_head regular inside chained).unique
      ⟨onWalk, ends, chain, found, member⟩ ⟨otherOnWalk, otherEnds, otherChain, otherFound, also⟩
    subst same
    exact apart (by rw [Option.some.inj (found.symm.trans otherFound)])

theorem nodup_chainedCalls (aliases : Aliases) (root : Place) :
    (root.walk.filterMap (chainedCall? aliases)).Nodup :=
  root.nodup_walk.filterMap fun _ _ _ isFound isOther =>
    (place_of_chainedCall? isFound).symm.trans (place_of_chainedCall? isOther)

/-- The heads of a tree have all chained calls, and each of them once. -/
theorem callsIn_perm (regular : tree.Regular) (aliases : Aliases) :
    (callsIn aliases (Place.ofRoot tree)).Perm
      ((Place.ofRoot tree).walk.filterMap (chainedCall? aliases)) := by
  refine (List.perm_ext_iff_of_nodup (nodup_callsIn regular aliases)
    (nodup_chainedCalls aliases _)).mpr fun call => ?_
  rw [mem_callsIn, List.mem_filterMap]
  constructor
  · rintro ⟨head, onWalk, _, listed⟩
    obtain ⟨chained, reaches⟩ := mem_calls_iff.mp listed
    exact ⟨call.place, Place.mem_walk_trans onWalk (mem_walk_of_reaches reaches), chained⟩
  · rintro ⟨place, inside, chained⟩
    exact (existsUnique_head regular inside chained).exists

/-- In the tree of every script, each chained call is among the calls of exactly one head.  The
calls of a chain have its root and its target, and are listed from the root outwards, each in front
of the names of the later ones.  So what visits the heads of the chains comes to every chained call
once. -/
theorem heads_partition_calls (text : String) (aliases : Aliases) :
    let root := Place.ofRoot (parse text)
    (∀ place ∈ root.walk, ∀ call, chainedCall? aliases place = some call →
      ∃! head, head ∈ root.walk ∧ isHead head = true ∧
        ∃ chain, Chain.at? aliases head = some chain ∧ call ∈ chain.calls) ∧
    (∀ head ∈ root.walk, ∀ chain, Chain.at? aliases head = some chain →
      (∀ before call after, chain.calls = before ++ call :: after →
        Chain.at? aliases call.place = some (chain.upTo (before ++ [call])) ∧
          chain.root ∈ call.place.walk) ∧
      chain.calls.Pairwise Precedes) ∧
    (callsIn aliases root).Perm (root.walk.filterMap (chainedCall? aliases)) ∧
    (callsIn aliases root).Nodup := by
  intro root
  have regular := regular_parse text
  refine ⟨fun place inside call chained => existsUnique_head regular inside chained, ?_,
    callsIn_perm regular aliases, nodup_callsIn regular aliases⟩
  intro head onWalk chain found
  constructor
  · intro before call after split
    have upTo := (at?_of_split found split).1
    refine ⟨upTo, ?_⟩
    rw [Chain.at?_eq, Option.map_eq_some_iff] at upTo
    obtain ⟨_, _, same⟩ := upTo
    have sameRoot : (callsTo call.place).2 = chain.root := congrArg Chain.root same
    exact sameRoot ▸ mem_walk_of_reaches reaches_of_mem_callsTo.1
  · rw [Chain.at?_eq, Option.map_eq_some_iff] at found
    obtain ⟨_, _, rfl⟩ := found
    exact pairwise_callsTo regular onWalk

end Chained
end Selection
end Hookify
