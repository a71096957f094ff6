import Hookify.Proofs.Conversion.Code
import Hookify.Proofs.Pass.ChainRecords
import Hookify.Proofs.Renderer.Values

namespace Hookify

open Script Selection

/-!
# Reading back what is written

If some call of the script writes a facet of an element, a state owns the facet,
and reading it means reading the state.  That is right only if every call that
writes the facet sets the state.

What is written counts call by call, but a chain is replaced as a whole or not
at all.  A call that writes stays as it is if a call beside it has no step, or
is lost with the statement in which it stands.  Then the element has one value
and the state another.
-/

namespace Facts

/-- A call of a chain writes the facet that a state owns. -/
structure WritesState (facts : Facts) (name : String) (head : Place) (chain : Chain)
    (call : MethodCall) : Prop where
  listed : (head, chain) ∈ chainsIn facts.aliases facts.root
  effective : call ∈ chain.effective
  writes : ∃ facet selector, call.role = .mutation facet ∧ chain.target = .selector selector ∧
    name = Identifier.state selector facet

theorem exists_writesState_iff {facts : Facts} {name : String} {head : Place} {chain : Chain}
    (listed : (head, chain) ∈ chainsIn facts.aliases facts.root) :
    (∃ call, facts.WritesState name head chain call) ↔ name ∈ mutatedBy chain := by
  rw [mem_mutatedBy]
  constructor
  · rintro ⟨call, writes⟩
    obtain ⟨facet, selector, written⟩ := writes.writes
    exact ⟨call, writes.effective, facet, selector, written⟩
  · rintro ⟨call, effective, written⟩
    exact ⟨call, listed, effective, written⟩

/-- A state is one that calls write if some call writes it. -/
theorem isMutated_iff {tree : Node} {name : String} :
    (ofTree tree).isMutated name = true ↔
      ∃ head chain call, (ofTree tree).WritesState name head chain call := by
  rw [isMutated, List.contains_iff_mem]
  change name ∈ ((chainsIn (ofTree tree).aliases (ofTree tree).root).map (·.2)).flatMap mutatedBy ↔ _
  rw [List.mem_flatMap]
  constructor
  · rintro ⟨chain, member, written⟩
    obtain ⟨⟨head, _⟩, listed, rfl⟩ := List.mem_map.mp member
    exact ⟨head, _, (exists_writesState_iff listed).mpr written⟩
  · rintro ⟨head, chain, call, writes⟩
    exact ⟨chain, List.mem_map.mpr ⟨_, writes.listed, rfl⟩,
      (exists_writesState_iff writes.listed).mp ⟨call, writes⟩⟩

end Facts

namespace Renderer

/-- In what replaces a chain, a call is the setting of a state. -/
def SetsBy (renderer : Renderer) (head : Place) (chain : Chain) (call : MethodCall)
    (name : String) : Prop :=
  ∃ text value, renderer.idiom? head = some text ∧
    renderer.step? chain.target (renderer.element chain.target) (Facts.isStatement head) call =
      some (Identifier.setter name ++ "(" ++ value ++ ")") ∧
    Text.occursIn (Identifier.setter name ++ "(" ++ value ++ ")") text = true

/-- A place is replaced, and in the replacement a call that reads is the name of the state that owns
what is read. -/
def ReadsState (renderer : Renderer) (name : String) (place : Place) : Prop :=
  ∃ chain, renderer.facts.chain? place = some chain ∧ renderer.replacement? place ≠ none ∧
    ∃ read ∈ chain.calls, read.role = .read ∧ ∃ selector facet, chain.target = .selector selector ∧
      readFacet? read.name = some facet ∧ name = Identifier.state selector facet ∧
        renderer.step? chain.target (renderer.element chain.target) (Facts.isStatement place) read =
          some name

section Sets

variable {renderer : Renderer} {name : String} {head : Place} {chain : Chain} {call : MethodCall}

theorem SetsBy.setsAt (sets : renderer.SetsBy head chain call name) : renderer.SetsAt head name := by
  obtain ⟨text, value, replaced, _, occurs⟩ := sets
  refine ⟨text, replaced, Text.occursIn_trans ?_ occurs⟩
  exact Text.occursIn_append_left (Text.occursIn_append_left (Text.occursIn_self _) _) _

/-- A chain that writes is replaced as a chain, if at all. -/
theorem idiom?_of_writesState (writes : renderer.facts.WritesState name head chain call) :
    renderer.idiom? head = renderer.chain? chain head := by
  obtain ⟨_, _, isHead, chained⟩ := Pass.mem_chainsIn.mp writes.listed
  obtain ⟨_, _, role, _, _⟩ := writes.writes
  rw [idiom?_of_element renderer chained (mem_calls_of_effective writes.effective)
    (mem_elementMethods_of_mutation role), if_pos isHead]

/-- A call that writes sets the state exactly if every call of its chain has a step. -/
theorem setsBy_iff (writes : renderer.facts.WritesState name head chain call) :
    renderer.SetsBy head chain call name ↔ ∀ other ∈ chain.calls, other.role.hasStep = true := by
  have member := mem_calls_of_effective writes.effective
  have stays : renderer.chain? chain head = none ↔
      ∃ other ∈ chain.calls, other.role.hasStep = false :=
    chain?_eq_none_iff (List.ne_nil_of_mem member)
  have whole := idiom?_of_writesState writes
  constructor
  · rintro ⟨text, _, replaced, _⟩ other inside
    by_contra noStep
    rw [whole, stays.mpr ⟨other, inside, Bool.not_eq_true _ ▸ noStep⟩] at replaced
    cases replaced
  · intro all
    have some : renderer.chain? chain head ≠ none := fun none => by
      obtain ⟨other, inside, noStep⟩ := stays.mp none
      rw [all other inside] at noStep
      cases noStep
    obtain ⟨text, replaced⟩ := Option.ne_none_iff_exists'.mp some
    obtain ⟨step, isStep, occurs⟩ := exists_step_of_chain? replaced member
    obtain ⟨facet, selector, role, target, rfl⟩ := writes.writes
    obtain rfl : renderer.stateMutation selector facet call = step := by
      rw [step?, role, target] at isStep
      exact Option.some.inj isStep
    exact ⟨text, renderer.stateValue facet call, whole.trans replaced, isStep, occurs⟩

/-- Otherwise the chain is kept as it is. -/
theorem replacement?_eq_none_of_writesState
    (writes : renderer.facts.WritesState name head chain call) :
    renderer.replacement? head = none ↔ ∃ other ∈ chain.calls, other.role.hasStep = false := by
  obtain ⟨_, kind, _, _⟩ := Pass.mem_chainsIn.mp writes.listed
  have noComment : ¬ (head.kind == .comment) = true := by
    rw [kind]
    exact Bool.false_ne_true
  rw [replacement?, if_neg noComment, Option.map_eq_none_iff, idiom?_of_writesState writes,
    chain?_eq_none_iff (List.ne_nil_of_mem (mem_calls_of_effective writes.effective))]

/-! ## Reads -/

/-- A value that is read from an element is no plain name. -/
theorem elementRead_ne {selector : String} {facet : Facet} (isRead : readFacet? call.name = some facet) :
    renderer.elementRead (renderer.element (.selector selector)) call ≠
      Identifier.state selector facet := by
  intro same
  have dot : '.' ∈ (renderer.elementRead (renderer.element (.selector selector)) call).toList := by
    have access : '.' ∈ (renderer.element (.selector selector)).access.toList := by
      rw [Element.access, String.toList_append]
      exact List.mem_append_right _ (by simp [element])
    unfold readFacet? at isRead
    split at isRead
    case h_4 => cases isRead
    all_goals
      rename_i method
      simp only [elementRead, method, String.toList_append, List.mem_append, access, true_or]
  rw [same] at dot
  exact absurd (Identifier.isPlain_state selector facet '.' dot) (by decide)

/-- A read is the name of a state exactly if the state owns what is read. -/
theorem step?_eq_state_iff {selector : String} {facet : Facet} (role : call.role = .read)
    (isRead : readFacet? call.name = some facet) (isStatement : Bool) :
    renderer.step? (.selector selector) (renderer.element (.selector selector)) isStatement call =
        some (Identifier.state selector facet) ↔
      renderer.facts.isMutated (Identifier.state selector facet) = true := by
  simp only [step?, role, Option.some.injEq, read, ownedState?, isRead]
  cases renderer.facts.isMutated (Identifier.state selector facet) with
  | true => simp
  | false => simp [elementRead_ne isRead]

end Sets

end Renderer

/-- If the component reads a state for a value of an element, then every call that writes that value
is shown as the setting of the state. -/
def Component.ReadsCurrent (component : Component) (facts : Facts) (name : String) : Prop :=
  (∃ this place, component.Shows facts this place ∧ (Renderer.of facts this).ReadsState name place) →
    ∀ head chain call, facts.WritesState name head chain call →
      ∃ this, component.Shows facts this head ∧ (Renderer.of facts this).SetsBy head chain call name

/-- A read of a value is the name of a state exactly if some call writes that value.  A call that
writes it sets the state exactly if every call of its chain has a step; otherwise the chain is kept
as it is.  What sets the state is found in the code wherever the chain is shown, as it is in
statements that run at the start.  So the state is current where it is read exactly if every chain
that writes the value has steps for all of its calls and is shown. -/
theorem owned_reads_current_iff (document : Document) (settings : Settings) (tree : Node)
    (name : String) :
    let facts := Facts.ofTree tree
    let component := document.componentOf settings tree
    (∀ this selector facet isStatement (read : MethodCall), read.role = .read →
        Renderer.readFacet? read.name = some facet → name = Identifier.state selector facet →
          let renderer := Renderer.of facts this
          (renderer.step? (.selector selector) (renderer.element (.selector selector)) isStatement
              read = some name ↔
            ∃ head chain call, facts.WritesState name head chain call)) ∧
      (∀ this head chain call, facts.WritesState name head chain call →
        let renderer := Renderer.of facts this
        (renderer.SetsBy head chain call name ↔
            ∀ other ∈ chain.calls, other.role.hasStep = true) ∧
          (renderer.replacement? head = none ↔
            ∃ other ∈ chain.calls, other.role.hasStep = false) ∧
          (component.Shows facts this head → renderer.SetsBy head chain call name →
            component.HasCode (Identifier.setter name ++ "("))) ∧
      (∀ statement ∈ Pass.keptStatements facts, statement.kind = .expressionStatement →
        ∀ head ∈ statement.children, component.Shows facts none head) ∧
      (component.ReadsCurrent facts name ↔
        ((∃ this place, component.Shows facts this place ∧
            (Renderer.of facts this).ReadsState name place) →
          ∀ head chain call, facts.WritesState name head chain call →
            (∃ this, component.Shows facts this head) ∧
              ∀ other ∈ chain.calls, other.role.hasStep = true)) := by
  intro facts component
  refine ⟨?_, ?_, ?_, ?_⟩
  · rintro this selector facet isStatement read role isRead rfl
    rw [← Facts.isMutated_iff]
    exact Renderer.step?_eq_state_iff role isRead isStatement
  · intro this head chain call writes
    refine ⟨Renderer.setsBy_iff writes, Renderer.replacement?_eq_none_of_writesState writes, ?_⟩
    intro shown sets
    obtain ⟨facet, selector, _, _, rfl⟩ := writes.writes
    exact shown.hasCode (Identifier.isSolid_setter_state selector facet) sets.setsAt
  · exact fun statement kept kind head child => shows_of_kept document settings kept kind child
  · refine imp_congr_right fun _ => forall_congr' fun head => forall_congr' fun chain =>
      forall_congr' fun call => imp_congr_right fun writes => ?_
    constructor
    · rintro ⟨this, shown, sets⟩
      exact ⟨⟨this, shown⟩, (Renderer.setsBy_iff writes).mp sets⟩
    · rintro ⟨⟨this, shown⟩, all⟩
      exact ⟨this, shown, (Renderer.setsBy_iff writes).mpr all⟩

/-! ## Reads and writes of a script -/

/-- A place is replaced, and a call that reads is the name of a state. -/
def isStateRead (renderer : Renderer) (name : String) (place : Place) : Bool :=
  (renderer.replacement? place).isSome && (renderer.facts.chain? place).any fun chain =>
    chain.calls.any fun read => read.role == .read &&
      renderer.ownedState? chain.target read.name == some name

theorem readsState_of_isStateRead {renderer : Renderer} {name : String} {place : Place}
    (reads : isStateRead renderer name place = true) : renderer.ReadsState name place := by
  rw [isStateRead, Bool.and_eq_true] at reads
  obtain ⟨replaced, found⟩ := reads
  obtain ⟨chain, chained, found⟩ := (Option.any_eq_true _ _).mp found
  obtain ⟨read, member, found⟩ := List.any_eq_true.mp found
  rw [Bool.and_eq_true, beq_iff_eq, beq_iff_eq] at found
  obtain ⟨role, owned⟩ := found
  refine ⟨chain, chained, Option.isSome_iff_ne_none.mp replaced, read, member, role, ?_⟩
  rw [Renderer.ownedState?.eq_def] at owned
  split at owned
  · rename_i selector facet target isRead
    dsimp only at owned
    split at owned
    · rename_i mutated
      obtain rfl := Option.some.inj owned
      refine ⟨selector, facet, target, isRead, rfl, ?_⟩
      rw [target]
      exact (Renderer.step?_eq_state_iff role isRead _).mpr mutated
    · cases owned
  · cases owned

/-- What is taken for an initial value is shown, and may read a state. -/
theorem exists_shown_read {component : Component} {facts : Facts} {name : String}
    (finds : (facts.root.walk.any fun place => isStateRead (Renderer.of facts none) name place &&
      component.states.any (·.initial == Pass.startCode facts place)) = true) :
    ∃ this place, component.Shows facts this place ∧
      (Renderer.of facts this).ReadsState name place := by
  obtain ⟨place, inside, found⟩ := List.any_eq_true.mp finds
  rw [Bool.and_eq_true] at found
  obtain ⟨reads, initial⟩ := found
  obtain ⟨state, member, made⟩ := List.any_eq_true.mp initial
  exact ⟨none, place, ⟨none, place, inside, .value member (beq_iff_eq.mp made), .here⟩,
    readsState_of_isStateRead reads⟩

/-- A value that is written by a statement of its own is read back from the state. -/
theorem owned_reads_current_of_statement :
    let document := Document.new "$('#name').val('x');\nvar v = $('#name').val();" ⟨"name.js"⟩
    let tree := parse document.script
    let facts := Facts.ofTree tree
    let component := document.componentOf {} tree
    (∃ this place, component.Shows facts this place ∧
      (Renderer.of facts this).ReadsState "nameValue" place) ∧
        component.ReadsCurrent facts "nameValue" := by
  intro document tree facts component
  have run : (facts.root.walk.any fun place =>
        isStateRead (Renderer.of facts none) "nameValue" place &&
          component.states.any (·.initial == Pass.startCode facts place)) = true ∧
      (chainsIn facts.aliases facts.root).all (fun entry =>
        entry.2.calls.all (·.role.hasStep) && ((mutatedBy entry.2).isEmpty ||
          (Pass.keptStatements facts).any fun statement => statement.kind == .expressionStatement &&
            statement.children.any (·.path == entry.1.path))) = true := by
    decide +kernel
  obtain ⟨reads, writes⟩ := run
  refine ⟨exists_shown_read reads, ?_⟩
  obtain ⟨_, _, starts, current⟩ := owned_reads_current_iff document {} tree "nameValue"
  refine current.mpr fun _ head chain call isWrite => ?_
  have fits := List.all_eq_true.mp writes _ isWrite.listed
  rw [Bool.and_eq_true, Bool.or_eq_true] at fits
  refine ⟨⟨none, ?_⟩, fun other member => List.all_eq_true.mp fits.1 other member⟩
  have written := (Facts.exists_writesState_iff isWrite.listed).mp ⟨call, isWrite⟩
  have isKept := fits.2.resolve_left (mt List.isEmpty_iff.mp (List.ne_nil_of_mem written))
  obtain ⟨statement, kept, found⟩ := List.any_eq_true.mp isKept
  rw [Bool.and_eq_true, beq_iff_eq, List.any_eq_true] at found
  obtain ⟨kind, other, child, paths⟩ := found
  have inStatement := Facts.mem_walk_of_statements (Pass.mem_keptStatements.mp kept).1
  have same := Place.eq_of_path (Place.mem_walk_of_children inStatement child)
    (Pass.mem_chainsIn.mp isWrite.listed).1 (beq_iff_eq.mp paths)
  exact starts statement kept kind head (same ▸ child)

/-- A value is written to the element as it was, and read back from a state that nothing sets. -/
theorem not_readsCurrent_of_plugin :
    let document := Document.new
      "$('#name').val('x').datepicker();\nvar v = $('#name').val();" ⟨"name.js"⟩
    let tree := parse document.script
    let facts := Facts.ofTree tree
    let component := document.componentOf {} tree
    ¬ component.ReadsCurrent facts "nameValue" ∧ ¬ component.HasCode "setNameValue(" ∧
      component.states.map (fun state => (state.identifier, state.initial)) =
        [("v", "nameValue"), ("nameValue", "\'\'")] ∧
      component.effects.map (·.code) = ["nameRef.current.val('x').datepicker();"] := by
  intro document tree facts component
  have run : (facts.root.walk.any fun place =>
        isStateRead (Renderer.of facts none) "nameValue" place &&
          component.states.any (·.initial == Pass.startCode facts place)) = true ∧
      ((chainsIn facts.aliases facts.root).any fun entry =>
        (mutatedBy entry.2).contains "nameValue" &&
          entry.2.calls.any (! ·.role.hasStep)) = true ∧
      ¬ component.HasCode "setNameValue(" ∧
      component.states.map (fun state => (state.identifier, state.initial)) =
        [("v", "nameValue"), ("nameValue", "\'\'")] ∧
      component.effects.map (·.code) = ["nameRef.current.val('x').datepicker();"] := by
    decide +kernel
  obtain ⟨reads, writes, code⟩ := run
  refine ⟨fun current => ?_, code⟩
  obtain ⟨⟨head, chain⟩, listed, writes⟩ := List.any_eq_true.mp writes
  rw [Bool.and_eq_true, List.contains_iff_mem] at writes
  obtain ⟨written, stays⟩ := writes
  obtain ⟨call, isWrite⟩ := (Facts.exists_writesState_iff listed).mpr written
  obtain ⟨this, _, sets⟩ := current (exists_shown_read reads) head chain call isWrite
  obtain ⟨other, member, noStep⟩ := List.any_eq_true.mp stays
  have all := (Renderer.setsBy_iff isWrite).mp sets other member
  rw [all] at noStep
  cases noStep

end Hookify
