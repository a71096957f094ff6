import Hookify.Proofs.Facts.Prefixes
import Hookify.Renderer.Replace

namespace Hookify

open Script Selection

/-!
# Values in chains

A call that reads gives a value, and whatever is called behind it is called on
that value.  The translation does not look at what a call returns: a chain is
replaced as a whole, each call by a step for the element, or it is not replaced
at all.  So the value is read in its place only if nothing is behind it, or if a
call before it has no step, in which case the chain stays as it is.
-/

/-- A call with the role becomes a step of its chain. -/
def Selection.Role.hasStep : Role → Bool
  | .mutation _ | .read | .attributeWrite | .trigger | .animation => true
  | .binding | .traversal | .ready | .unknown => false

namespace Renderer

variable {renderer : Renderer} {place : Place} {chain : Chain} {read : MethodCall}
  {before after : List MethodCall}

theorem step?_eq_none_iff {target : Target} {element : Element} {isStatement : Bool}
    {call : MethodCall} :
    renderer.step? target element isStatement call = none ↔ call.role.hasStep = false := by
  rw [step?]
  cases call.role with
  | mutation facet => cases target <;> simp [Role.hasStep]
  | _ => simp [Role.hasStep]

theorem mapM_eq_none_iff {Item Result : Type} {f : Item → Option Result} {items : List Item} :
    items.mapM f = none ↔ ∃ item ∈ items, f item = none := by
  induction items with
  | nil => simp
  | cons first rest ih =>
      rw [List.mapM_cons]
      cases found : f first with
      | none => simp [found]
      | some result =>
          have onlyRest : (∃ item ∈ first :: rest, f item = none) ↔ ∃ item ∈ rest, f item = none := by
            simp [found]
          rw [onlyRest, ← ih]
          cases rest.mapM f <;> simp

/-- A chain is left as it is exactly if one of its calls has no step. -/
theorem chain?_eq_none_iff (some : chain.calls ≠ []) :
    renderer.chain? chain place = none ↔ ∃ call ∈ chain.calls, call.role.hasStep = false := by
  have filled : ¬ chain.calls.isEmpty = true := mt List.isEmpty_iff.mp some
  rw [chain?]
  dsimp only
  rw [if_neg filled, Option.map_eq_none_iff, mapM_eq_none_iff]
  simp only [step?_eq_none_iff]

/-- What has a call for an element at or below it is replaced as a chain, if at all. -/
theorem idiom?_of_element (renderer : Renderer)
    (chained : renderer.facts.chain? place = some chain) {call : MethodCall}
    (member : call ∈ chain.calls) (own : call.name ∈ elementMethods) :
    renderer.idiom? place = if isHead place then renderer.chain? chain place else none := by
  have isChain := chained
  rw [Facts.chain?, Chain.at?_eq, Option.map_eq_some_iff] at isChain
  obtain ⟨target, _, rfl⟩ := isChain
  obtain ⟨_, _, found⟩ := exists_methodCall? (List.ne_nil_of_mem member)
  have filled : ¬ (callsTo place).1.isEmpty = true :=
    mt List.isEmpty_iff.mp (List.ne_nil_of_mem member)
  have noRequest : renderer.facts.request? place = none := requestFrom?_of_element _ member own
  rw [idiom?, (shape_of_methodCall? found).1]
  dsimp only
  rw [call?, noRequest]
  dsimp only
  rw [helper?_of_element renderer member own]
  dsimp only
  rw [chained]
  dsimp only
  cases head : isHead place <;> simp [filled]

/-- A chain is replaced up to a call that reads, and the calls behind that one are left as they are,
called on the value. -/
structure ReadsValue (renderer : Renderer) (chain : Chain) (read : MethodCall)
    (after : List MethodCall) : Prop where
  value : renderer.idiom? read.place = renderer.chain? chain read.place
  kept : ∀ call ∈ after, renderer.idiom? call.place = none

/-- The calls behind a call that reads are left to its value exactly if there are none, or if a call
before it has no step, so that nothing of the chain is replaced. -/
theorem readsValue_iff (renderer : Renderer) (chained : renderer.facts.chain? place = some chain)
    (head : isHead place = true) (split : chain.calls = before ++ read :: after)
    (role : read.role = .read) :
    renderer.ReadsValue (chain.upTo (before ++ [read])) read after ↔
      after = [] ∨ ∃ call ∈ before, call.role.hasStep = false := by
  obtain ⟨inner, ends, above⟩ := at?_of_split chained split
  have isRead : read ∈ (chain.upTo (before ++ [read])).calls :=
    List.mem_append_right _ (List.mem_singleton.mpr rfl)
  have own := mem_elementMethods_of_read role
  have value := renderer.idiom?_of_element inner isRead own
  rcases List.eq_nil_or_concat' after with rfl | ⟨between, last, rfl⟩
  · rw [ends rfl, if_pos head] at value
    refine iff_of_true ⟨?_, fun _ absent => absurd absent List.not_mem_nil⟩ (.inl rfl)
    rw [ends rfl, value]
  · have some : between ++ [last] ≠ [] := by simp
    have kept : renderer.idiom? read.place = none := by
      rw [value, if_neg (by rw [above some]; exact Bool.false_ne_true)]
    rw [or_iff_right some]
    constructor
    · intro reads
      have none := reads.value.symm.trans kept
      rw [chain?_eq_none_iff (List.ne_nil_of_mem isRead)] at none
      obtain ⟨call, member, noStep⟩ := none
      rcases List.mem_append.mp member with earlier | same
      · exact ⟨call, earlier, noStep⟩
      · rw [List.mem_singleton.mp same, role] at noStep
        cases noStep
    · rintro ⟨call, earlier, noStep⟩
      refine ⟨?_, fun other member => ?_⟩
      · rw [kept, eq_comm, chain?_eq_none_iff (List.ne_nil_of_mem isRead)]
        exact ⟨call, List.mem_append_left _ earlier, noStep⟩
      · -- The chain that ends at a later call has both the call that reads and the one without a step.
        obtain ⟨left, right, same⟩ := List.append_of_mem member
        have whole : chain.calls = (before ++ read :: left) ++ other :: right := by
          rw [split, same, List.append_assoc, List.cons_append]
        obtain ⟨later, _⟩ := at?_of_split chained whole
        have among : ∀ item ∈ before ++ [read],
            item ∈ (chain.upTo (before ++ read :: left ++ [other])).calls := fun item inside => by
          rcases List.mem_append.mp inside with isEarlier | isRead
          · exact List.mem_append_left _ (List.mem_append_left _ isEarlier)
          · rw [List.mem_singleton.mp isRead]
            exact List.mem_append_left _ (List.mem_append_right _ List.mem_cons_self)
        rw [renderer.idiom?_of_element later (among read isRead) own]
        split
        · rw [chain?_eq_none_iff (List.ne_nil_of_mem (among read isRead))]
          exact ⟨call, among call (List.mem_append_left _ earlier), noStep⟩
        · rfl

end Renderer
end Hookify
