import Hookify.Conversion.Copies
import Mathlib.Data.List.Induction
import Mathlib.Data.List.Nodup

namespace Hookify
namespace CopyPlan

/-!
# What becomes of each copy

A plan is made copy by copy, and goes by what it has planned so far.  What
becomes of a copy can be told without the plan, from the copies that are asked
for before it: it is planned if none of them has its destination, and it is in
conflict if the first of them that has its destination has another source.

The two agree because the one copy that is planned for a destination is the
first one that is asked for.  Paths are the same here if their parts are, so
that a destination may be written in different ways; a plan keeps the copies as
they are written.
-/

/-- A copy goes to a destination. -/
def goesTo (destination : Path) (copy : Copy) : Bool :=
  copy.destination.same destination

/-- No two of the copies go to the same destination. -/
def IsDistinct (copies : List Copy) : Prop :=
  (copies.map (·.destination.parts)).Nodup

section Destinations

variable {copies : List Copy} {copy first other : Copy} {destination : Path}

theorem goesTo_iff : goesTo destination copy = true ↔ copy.destination.parts = destination.parts :=
  beq_iff_eq

theorem find?_eq_none_iff : copies.find? (goesTo destination) = none ↔
    ∀ copy ∈ copies, copy.destination.parts ≠ destination.parts := by
  rw [List.find?_eq_none]
  exact forall₂_congr fun copy _ => not_congr goesTo_iff

theorem isDistinct_concat :
    IsDistinct (copies ++ [copy]) ↔
      IsDistinct copies ∧ copies.find? (goesTo copy.destination) = none := by
  rw [IsDistinct, List.map_append, List.map_singleton, ← List.concat_eq_append,
    List.nodup_concat, and_comm, find?_eq_none_iff, List.mem_map]
  simp [IsDistinct]

/-- Among copies to different destinations, the first one to a destination is the only one. -/
theorem IsDistinct.find?_eq (distinct : IsDistinct copies) (member : copy ∈ copies)
    (leads : goesTo destination copy = true) : copies.find? (goesTo destination) = some copy := by
  cases found : copies.find? (goesTo destination) with
  | none => exact absurd (goesTo_iff.mp leads) (find?_eq_none_iff.mp found copy member)
  | some first =>
      have same : first.destination.parts = copy.destination.parts :=
        (goesTo_iff.mp (List.find?_some found)).trans (goesTo_iff.mp leads).symm
      rw [List.inj_on_of_nodup_map distinct (List.mem_of_find?_eq_some found) member same]

end Destinations

/-! ## Adding a copy -/

section Add

variable {plan : CopyPlan} {copy kept : Copy}

theorem add_of_missing (missing : plan.planned.find? (goesTo copy.destination) = none) :
    plan.add copy = { plan with planned := plan.planned ++ [copy] } := by
  rw [add, show plan.planned.find? (·.destination.same copy.destination) = none from missing]

theorem add_of_found (found : plan.planned.find? (goesTo copy.destination) = some kept) :
    plan.add copy =
      if kept.source.same copy.source then plan
      else { plan with
        conflicts := plan.conflicts ++ [⟨copy.destination, kept.source, copy.source⟩] } := by
  rw [add, show plan.planned.find? (·.destination.same copy.destination) = some kept from found]

/-- A copy whose destination has been planned for is not planned itself. -/
theorem planned_add_of_found (found : plan.planned.find? (goesTo copy.destination) = some kept) :
    (plan.add copy).planned = plan.planned := by
  rw [add_of_found found]
  split <;> rfl

/-- The first copy to a destination stays the first one; a copy that is added becomes the first one
where there was none. -/
theorem find?_planned_add (plan : CopyPlan) (copy : Copy) (destination : Path) :
    (plan.add copy).planned.find? (goesTo destination) =
      (plan.planned ++ [copy]).find? (goesTo destination) := by
  cases found : plan.planned.find? (goesTo copy.destination) with
  | none => rw [add_of_missing found]
  | some kept =>
      rw [planned_add_of_found found, List.find?_append]
      cases there : plan.planned.find? (goesTo destination) with
      | some first => rfl
      | none =>
          -- what has been planned goes where the copy does, so the copy does not go there either
          have same := goesTo_iff.mp (List.find?_some found)
          have elsewhere : ¬ goesTo destination copy = true := fun leads =>
            find?_eq_none_iff.mp there kept (List.mem_of_find?_eq_some found)
              (same.trans (goesTo_iff.mp leads))
          rw [Option.none_or, List.find?_singleton, if_neg elsewhere]

theorem isDistinct_add (distinct : IsDistinct plan.planned) (copy : Copy) :
    IsDistinct (plan.add copy).planned := by
  cases found : plan.planned.find? (goesTo copy.destination) with
  | none =>
      rw [add_of_missing found]
      exact isDistinct_concat.mpr ⟨distinct, found⟩
  | some kept =>
      rw [planned_add_of_found found]
      exact distinct

end Add

/-! ## The whole plan -/

theorem of_concat (copies : List Copy) (copy : Copy) :
    of (copies ++ [copy]) = (of copies).add copy := by
  rw [of, List.foldl_append]
  rfl

/-- What is planned for a destination is the first copy to it. -/
theorem find?_planned_of (copies : List Copy) (destination : Path) :
    (of copies).planned.find? (goesTo destination) = copies.find? (goesTo destination) := by
  induction copies using List.reverseRecOn with
  | nil => rfl
  | append_singleton copies copy ih =>
      rw [of_concat, find?_planned_add, List.find?_append, List.find?_append, ih]

theorem isDistinct_of (copies : List Copy) : IsDistinct (of copies).planned := by
  induction copies using List.reverseRecOn with
  | nil => exact List.nodup_nil
  | append_singleton copies copy ih =>
      rw [of_concat]
      exact isDistinct_add ih copy

/-- Copies to different destinations are planned as they are. -/
theorem of_eq_of_isDistinct {copies : List Copy} (distinct : IsDistinct copies) :
    of copies = ⟨copies, []⟩ := by
  induction copies using List.reverseRecOn with
  | nil => rfl
  | append_singleton copies copy ih =>
      obtain ⟨before, missing⟩ := isDistinct_concat.mp distinct
      rw [of_concat, ih before, add_of_missing missing]

/-! ## Each copy in its turn -/

/-- A copy in its turn, behind those that are asked for before it. -/
structure Turn where
  earlier : List Copy
  copy : Copy

/-- The turns of copies that are asked for behind others. -/
def turnsFrom (earlier : List Copy) : List Copy → List Turn
  | [] => []
  | copy :: rest => ⟨earlier, copy⟩ :: turnsFrom (earlier ++ [copy]) rest

/-- The turns of copies in their order. -/
def turns (copies : List Copy) : List Turn :=
  turnsFrom [] copies

theorem turnsFrom_concat (earlier copies : List Copy) (copy : Copy) :
    turnsFrom earlier (copies ++ [copy]) =
      turnsFrom earlier copies ++ [⟨earlier ++ copies, copy⟩] := by
  induction copies generalizing earlier with
  | nil => simp [turnsFrom]
  | cons first rest ih =>
      rw [List.cons_append, turnsFrom, ih, turnsFrom, List.append_assoc]
      rfl

theorem turns_concat (copies : List Copy) (copy : Copy) :
    turns (copies ++ [copy]) = turns copies ++ [⟨copies, copy⟩] :=
  turnsFrom_concat [] copies copy

theorem map_copy_turns (copies : List Copy) : (turns copies).map (·.copy) = copies := by
  induction copies using List.reverseRecOn with
  | nil => rfl
  | append_singleton copies copy ih => rw [turns_concat, List.map_append, ih, List.map_singleton]

/-- What may become of a copy. -/
inductive Group where
  | planned
  | conflict
  | repeated

namespace Turn

/-- The first of the earlier copies that has the destination. -/
def first? (turn : Turn) : Option Copy :=
  turn.earlier.find? (goesTo turn.copy.destination)

/-- The conflict with the first copy to the destination, if that one has another source. -/
def conflict? (turn : Turn) : Option CopyConflict :=
  turn.first?.bind fun first =>
    if first.source.same turn.copy.source then none
    else some ⟨turn.copy.destination, first.source, turn.copy.source⟩

/-- A copy falls in a group: none before it has its destination, or the first one that has it has
another source, or the destination is planned for already, and with the same source. -/
def Falls (turn : Turn) : Group → Prop
  | .planned => turn.first? = none
  | .conflict => ∃ conflict, turn.conflict? = some conflict
  | .repeated => ∃ other ∈ (of turn.earlier).planned,
      goesTo turn.copy.destination other = true ∧ other.source.same turn.copy.source = true

/-- The plan has the first copy to a destination and no other one. -/
theorem falls_repeated_iff {turn : Turn} : turn.Falls .repeated ↔
    ∃ first, turn.first? = some first ∧ first.source.same turn.copy.source = true := by
  rw [first?, ← find?_planned_of]
  constructor
  · rintro ⟨other, member, leads, same⟩
    exact ⟨other, (isDistinct_of turn.earlier).find?_eq member leads, same⟩
  · rintro ⟨first, found, same⟩
    exact ⟨first, List.mem_of_find?_eq_some found, List.find?_some found, same⟩

theorem falls_conflict_iff {turn : Turn} : turn.Falls .conflict ↔
    ∃ first, turn.first? = some first ∧ first.source.same turn.copy.source = false := by
  rw [Falls, conflict?]
  cases turn.first? with
  | none => simp
  | some first => cases same : first.source.same turn.copy.source <;> simp [same]

/-- A copy falls in one group only. -/
theorem existsUnique_falls (turn : Turn) : ∃! group, turn.Falls group := by
  cases found : turn.first? with
  | none =>
      refine ⟨.planned, found, fun group falls => ?_⟩
      cases group with
      | planned => rfl
      | conflict => simp [falls_conflict_iff, found] at falls
      | repeated => simp [falls_repeated_iff, found] at falls
  | some first =>
      cases same : first.source.same turn.copy.source with
      | true =>
          refine ⟨.repeated, falls_repeated_iff.mpr ⟨first, found, same⟩, fun group falls => ?_⟩
          cases group with
          | planned => exact absurd (found.symm.trans falls) (Option.some_ne_none _)
          | conflict => simp [falls_conflict_iff, found, same] at falls
          | repeated => rfl
      | false =>
          refine ⟨.conflict, falls_conflict_iff.mpr ⟨first, found, same⟩, fun group falls => ?_⟩
          cases group with
          | planned => exact absurd (found.symm.trans falls) (Option.some_ne_none _)
          | conflict => rfl
          | repeated => simp [falls_repeated_iff, found, same] at falls

end Turn

/-- A plan holds the copies that are the first ones to their destinations, and the conflicts of the
others with the first ones. -/
theorem of_eq_turns (copies : List Copy) :
    of copies =
      ⟨((turns copies).filter (·.first?.isNone)).map (·.copy),
        (turns copies).filterMap Turn.conflict?⟩ := by
  induction copies using List.reverseRecOn with
  | nil => rfl
  | append_singleton copies copy ih =>
      have known := find?_planned_of copies copy.destination
      rw [of_concat, turns_concat, List.filter_append, List.map_append, List.filterMap_append]
      cases first : copies.find? (goesTo copy.destination) with
      | none =>
          have alone : (Turn.mk copies copy).first? = none := first
          rw [add_of_missing (known.trans first), ih]
          simp [alone, Turn.conflict?]
      | some kept =>
          have behind : (Turn.mk copies copy).first? = some kept := first
          rw [add_of_found (known.trans first), ih]
          split <;> rename_i source <;> simp [behind, Turn.conflict?, source]

/-- A plan holds, in the order in which they are asked for, the first copy to each destination and
the conflicts of the other copies with the first ones, where the sources are not the same.  No two
of the planned copies go to the same destination, and there is one for every destination that is
asked for.  Each copy is planned, is in conflict, or repeats a copy that has been planned already,
and only one of these; and a plan for what is planned changes nothing. -/
theorem plan_of_copies (copies : List Copy) :
    let plan := of copies
    plan.planned = ((turns copies).filter (·.first?.isNone)).map (·.copy) ∧
      plan.conflicts = (turns copies).filterMap Turn.conflict? ∧
      IsDistinct plan.planned ∧
      (∀ destination, (∃ copy ∈ plan.planned, goesTo destination copy = true) ↔
        ∃ copy ∈ copies, goesTo destination copy = true) ∧
      ((turns copies).map (·.copy) = copies ∧ ∀ turn : Turn, ∃! group, turn.Falls group) ∧
      of plan.planned = ⟨plan.planned, []⟩ := by
  intro plan
  have shape := of_eq_turns copies
  have distinct := isDistinct_of copies
  refine ⟨congrArg planned shape, congrArg conflicts shape, distinct, fun destination => ?_,
    ⟨map_copy_turns copies, Turn.existsUnique_falls⟩, of_eq_of_isDistinct distinct⟩
  rw [← List.any_eq_true, ← List.any_eq_true, ← List.isSome_find?, ← List.isSome_find?,
    find?_planned_of]

/-- The same copy is asked for again in other words, and then another file in its place. -/
example :
    of [⟨⟨"a/x.css"⟩, ⟨"out/x.css"⟩⟩, ⟨⟨"a//x.css"⟩, ⟨"out/./x.css"⟩⟩,
        ⟨⟨"b/x.css"⟩, ⟨"out//x.css"⟩⟩] =
      ⟨[⟨⟨"a/x.css"⟩, ⟨"out/x.css"⟩⟩], [⟨⟨"out//x.css"⟩, ⟨"a/x.css"⟩, ⟨"b/x.css"⟩⟩]⟩ := by
  decide +kernel

end CopyPlan
end Hookify
