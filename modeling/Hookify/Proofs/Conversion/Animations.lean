import Hookify.Proofs.Conversion.Claims
import Hookify.Proofs.Conversion.Events
import Hookify.Proofs.Pass.ChainRecords
import Hookify.Proofs.Renderer.Noting
import Hookify.Proofs.Renderer.Values
import Hookify.Proofs.Request.Heads
import Hookify.Proofs.Script.Trees

namespace Hookify

open Script Selection
open Text (Alike IsNote)

/-!
# Animations in the code and in the report

The comments in the code and the entries of the report come about apart from
each other: the one while bodies are rendered, the other on a walk over the
whole script.  The code comments on no animation that is not in the report.

The comment is the one that the report would lead to, as long as its label is on
one line.  A selector that goes on in the next line makes a label of two lines,
and then the comment is indented with the code around it.
-/

/-!
## Calls on values

A call that reads ends what a chain does to its element: whatever is called
behind it is called on the value.  The conversion does not stop there.  It takes
the calls of a chain by their names alone, so that a method of the value which
happens to have the name of a method of selections is taken for that method.

The calls behind a call that reads are left to the value if there are none, or
if the chain has led to other elements before.  Apart from that the chain must
be one that stays as it is, because a call before has no step, and then nothing
may be recorded of the calls behind either.
-/

namespace Component

/-- What a component has because of calls in chains is recorded call by call. -/
structure RecordedFrom (component : Component) (facts : Facts) : Prop where
  mutations : component.mutations = (Pass.records facts).filterMap Pass.Record.mutation?
  animations : component.animations = (Pass.records facts).filterMap Pass.Record.animation?
  /-- Other states belong to the variables of the script. -/
  states : ∀ state ∈ component.states,
    state ∈ Pass.variableStates facts ∨ .state state ∈ Pass.records facts
  handlers : ∀ handler ∈ component.handlers, ∃ target binding,
    .binding target binding ∈ Pass.records facts ∧ Pass.MadeFor facts (target, binding) handler
  /-- Other warnings are about bindings whose handler cannot be called. -/
  warnings : ∀ warning, warning ∈ component.warnings ↔ .warning warning ∈ Pass.records facts ∨
    ∃ target binding, .binding target binding ∈ Pass.records facts ∧
      Pass.isCallable facts (target, binding) = false ∧ warning = Pass.refusal target binding

end Component

section Values

variable (document : Document) (settings : Settings) (tree : Node)

/-- Before the script is read, nothing is recorded. -/
theorem records_draft :
    (document.draft settings).mutations = [] ∧ (document.draft settings).animations = [] := by
  rw [Document.draft]
  cases document.kind <;> exact ⟨rfl, rfl⟩

theorem recordedFrom_componentOf :
    (document.componentOf settings tree).RecordedFrom (Facts.ofTree tree) := by
  have blank := document.blank_draft settings
  exact {
    mutations := Pass.mutations_runAll (records_draft document settings).1
    animations := Pass.animations_runAll (records_draft document settings).2
    states := fun state member => Pass.mem_states_runAll blank.states member
    handlers := fun handler member => by
      have made : List.Forall₂ (Pass.MadeFor (Facts.ofTree tree)) _ _ :=
        Pass.forall₂_handlers_runAll blank.handlers
      obtain ⟨index, inside, same⟩ := List.getElem_of_mem member
      have bound : index < (List.filter _ _).length := made.length_eq ▸ inside
      have isMade := made.get bound inside
      have binds := List.mem_of_mem_filter (List.getElem_mem bound)
      exact ⟨_, _, Pass.mem_eventBindings_iff_record.mp binds, same ▸ isMade⟩
    warnings := fun warning => by
      rw [mem_warnings_componentOf, Pass.exists_mem_warningsOf_iff]
      simp only [Pass.mem_eventBindings_iff_record] }

/-- What the component has because of calls is what is recorded of the calls of all chains.  A chain
is replaced up to a call that reads, with the calls behind left to the value, and nothing is recorded
of those, exactly if there are none, or the chain has led to other elements before, or it stays as it
is because of a call before, and of the calls behind there is nothing to be recorded. -/
theorem calls_on_value_left_iff {head : Place} {chain : Chain} {read : MethodCall}
    {before after : List MethodCall} (this : Option String)
    (listed : (head, chain) ∈ chainsIn (Facts.ofTree tree).aliases (Facts.ofTree tree).root)
    (split : chain.calls = before ++ read :: after) (role : read.role = .read) :
    let facts := Facts.ofTree tree
    let upToRead := chain.upTo (before ++ [read])
    facts.chain? read.place = some upToRead ∧
      (document.componentOf settings tree).RecordedFrom facts ∧
      (((Renderer.of facts this).ReadsValue upToRead read after ∧
          Pass.chainRecords facts head chain = Pass.chainRecords facts head upToRead) ↔
        after = [] ∨ (∃ call ∈ before, call.role = .traversal) ∨
          ((∃ call ∈ before, call.role.hasStep = false) ∧
            ∀ call ∈ Pass.callsToTraversal after,
              Pass.recordsOf facts head chain.target call = [])) := by
  intro facts upToRead
  obtain ⟨_, _, ends, chained⟩ := Pass.mem_chainsIn.mp listed
  obtain ⟨inner, _⟩ := at?_of_split chained split
  refine ⟨inner, recordedFrom_componentOf document settings tree, ?_⟩
  rw [(Renderer.of facts this).readsValue_iff chained ends split role,
    Pass.chainRecords_eq_iff split role]
  constructor
  · rintro ⟨none | stays, others⟩
    · exact .inl none
    · exact .inr (others.imp_right fun silent => ⟨stays, silent⟩)
  · rintro (rfl | ⟨call, member, leads⟩ | ⟨stays, silent⟩)
    · exact ⟨.inl rfl, .inr fun _ absent => absurd absent List.not_mem_nil⟩
    · exact ⟨.inr ⟨call, member, by rw [leads]; rfl⟩, .inl ⟨call, member, leads⟩⟩
    · exact ⟨.inr stays, .inr silent⟩

end Values

/-! ## Calls that read -/

/-- A search for a chain with a call that reads, split at the first such call. -/
def findsRead (facts : Facts)
    (wanted : Place → Chain → List MethodCall → MethodCall → List MethodCall → Bool) : Bool :=
  (chainsIn facts.aliases facts.root).any fun (head, chain) =>
    match chain.calls.dropWhile (·.role != .read) with
    | [] => false
    | read :: after => read.role == .read &&
        wanted head chain (chain.calls.takeWhile (·.role != .read)) read after

theorem exists_of_findsRead {facts : Facts}
    {wanted : Place → Chain → List MethodCall → MethodCall → List MethodCall → Bool}
    (finds : findsRead facts wanted = true) :
    ∃ head chain, (head, chain) ∈ chainsIn facts.aliases facts.root ∧
      ∃ before read after, chain.calls = before ++ read :: after ∧ read.role = .read ∧
        wanted head chain before read after = true := by
  obtain ⟨⟨head, chain⟩, listed, found⟩ := List.any_eq_true.mp finds
  have split := (List.takeWhile_append_dropWhile (p := (·.role != .read))
    (l := chain.calls)).symm
  dsimp only at found
  revert found
  cases rest : chain.calls.dropWhile (·.role != .read) with
  | nil => exact fun absent => absurd absent Bool.false_ne_true
  | cons read after =>
      intro both
      rw [rest] at split
      rw [Bool.and_eq_true, beq_iff_eq] at both
      exact ⟨head, chain, listed, _, read, after, split, both⟩

/-- Behind a step to other elements the text that is read there is trimmed as a text. -/
theorem calls_on_value_left_of_traversal :
    let document := Document.new "$('#list').find('li').text().trim();" ⟨"list.js"⟩
    let tree := parse document.script
    let facts := Facts.ofTree tree
    ∃ head chain, (head, chain) ∈ chainsIn facts.aliases facts.root ∧
      ∃ before read after, chain.calls = before ++ read :: after ∧ read.role = .read ∧
        after.map (·.name) = ["trim"] ∧
        (Renderer.of facts none).ReadsValue (chain.upTo (before ++ [read])) read after ∧
        Pass.chainRecords facts head chain =
          Pass.chainRecords facts head (chain.upTo (before ++ [read])) := by
  intro document tree facts
  have run : findsRead facts (fun _ _ before _ after =>
      before.any (·.role == .traversal) && after.map (·.name) == ["trim"]) = true := by
    decide +kernel
  obtain ⟨head, chain, listed, before, read, after, split, role, both⟩ := exists_of_findsRead run
  rw [Bool.and_eq_true, List.any_eq_true, beq_iff_eq] at both
  obtain ⟨⟨call, member, leads⟩, names⟩ := both
  obtain ⟨_, _, left⟩ := calls_on_value_left_iff document {} tree none listed split role
  exact ⟨head, chain, listed, before, read, after, split, role, names,
    left.mpr (.inr (.inl ⟨call, member, beq_iff_eq.mp leads⟩))⟩

/-- A value that is read from the data of an element is shown as if it was the element. -/
theorem not_left_to_value_of_shown_data :
    let document := Document.new "$('#dialog').data('modal').show();" ⟨"dialog.js"⟩
    let tree := parse document.script
    let facts := Facts.ofTree tree
    let component := document.componentOf {} tree
    (∃ head chain, (head, chain) ∈ chainsIn facts.aliases facts.root ∧
      ∃ before read after, chain.calls = before ++ read :: after ∧ read.role = .read ∧
        ¬ (Renderer.of facts none).ReadsValue (chain.upTo (before ++ [read])) read after ∧
        Pass.chainRecords facts head chain ≠
          Pass.chainRecords facts head (chain.upTo (before ++ [read]))) ∧
      component.mutations = [⟨"#dialog", "show", .visibility⟩] ∧
      component.states.map (·.identifier) = ["dialogVisible"] := by
  intro document tree facts component
  have run : findsRead facts (fun head chain before read after =>
        after.any (fun call => ((Renderer.of facts none).idiom? call.place).isSome) &&
          (Pass.chainRecords facts head chain).filterMap Pass.Record.mutation? !=
            (Pass.chainRecords facts head
              (chain.upTo (before ++ [read]))).filterMap Pass.Record.mutation?) = true ∧
      component.mutations = [⟨"#dialog", "show", .visibility⟩] ∧
      component.states.map (·.identifier) = ["dialogVisible"] := by
    decide +kernel
  obtain ⟨finds, recorded⟩ := run
  obtain ⟨head, chain, listed, before, read, after, split, role, both⟩ := exists_of_findsRead finds
  rw [Bool.and_eq_true, List.any_eq_true, bne_iff_ne] at both
  obtain ⟨⟨call, member, replaced⟩, differ⟩ := both
  refine ⟨⟨head, chain, listed, before, read, after, split, role, fun reads => ?_, fun same => ?_⟩,
    recorded⟩
  · rw [reads.kept call member] at replaced
    cases replaced
  · exact differ (congrArg _ same)

/-! ## Comments in the code -/

namespace Component

/-- How a text comes about from a script, with the comments on animations left open. -/
inductive Wording (facts : Facts) : ((Animation → String) → String) → Prop where
  | statements {places : List Place} (inside : ∀ place ∈ places, place ∈ facts.root.walk) :
      Wording facts fun note =>
        String.intercalate "\n" (places.map (Renderer.noting note facts none).fragment)
  | body (this : Option String) {function : Place} (inside : function ∈ facts.root.walk) :
      Wording facts fun note => (Renderer.noting note facts this).functionBody function
  | request {place : Place} {request : Request} (inside : place ∈ facts.root.walk)
      (made : facts.request? place = some request) :
      Wording facts fun note => (Renderer.noting note facts none).fetch request

/-- Other notes than the comments, as far as the labels of the animations are on one line. -/
def RewordsComments (animations : List Animation) (note : Animation → String) : Prop :=
  ∀ animation ∈ animations, note animation = animation.comment ∨
    ('\n' ∉ animation.label.toList ∧ IsNote (note animation).toList)

/-- A text comments on no other animations, and its comments stand in it as they are: if something
else is noted of animations, the text changes only where a comment stands on one of these, and the
note takes the place of that comment. -/
def CommentsOn (facts : Facts) (animations : List Animation) (text : String) : Prop :=
  ∃ wording, Wording facts wording ∧ text = wording Animation.comment ∧
    ∀ note, RewordsComments animations note →
      Alike (fun comment other => ∃ animation ∈ animations,
        comment = animation.comment ∧ other = note animation) text (wording note)

/-- The animations of a component are those of its script, with advice on each, and its code
comments on no others. -/
structure ReportsAnimations (component : Component) (facts : Facts) : Prop where
  recorded : component.animations = Pass.animationsOf facts
  advised : ∀ animation ∈ component.animations, animation.suggestion ≠ ""
  effects : ∀ effect ∈ component.effects, CommentsOn facts component.animations effect.code ∨
    ∃ handler ∈ component.handlers, effect.code = handler.listenerCode
  handlers : ∀ handler ∈ component.handlers, CommentsOn facts component.animations handler.body ∨
    ∃ place ∈ facts.root.walk, handler.body = place.text ++ "(event);"
  functions : ∀ function ∈ component.functions, CommentsOn facts component.animations function.body
  requests : ∀ call ∈ component.remoteCalls, CommentsOn facts component.animations call.code

end Component

/-! ## What is recorded -/

theorem Selection.suggestion_ne_empty (method : String) : suggestion method ≠ "" := by
  rw [suggestion.eq_def]
  split <;> decide

namespace Pass

variable {facts : Facts} {draft : Draft}

theorem remoteCalls_runAll (blank : draft.remoteCalls = []) :
    (Stage.runAll facts draft).remoteCalls =
      facts.requests.map (remoteCall (Renderer.of facts none)) := by
  have before : (runStages facts (Stage.all.take 3) draft).remoteCalls = [] :=
    (remoteCalls_runStages _ (by decide) draft).trans blank
  have later : (Stage.runAll facts draft).remoteCalls =
      (requests facts (runStages facts (Stage.all.take 3) draft)).remoteCalls :=
    remoteCalls_runStages (Stage.all.drop 4) (by decide) _
  rw [later, requests, remoteCalls_foldl_addRemoteCall, before, List.nil_append]

/-- Code of the component is made of places of the script. -/
theorem Source.mem_walk {tree : Node} {place : Place} (source : Source (Facts.ofTree tree) place) :
    place ∈ (Place.ofRoot tree).walk := by
  rcases source.exists_statement with ⟨statement, member, _, within, _⟩
  exact Place.mem_walk_trans (Facts.mem_walk_of_statements member) within

end Pass

/-! ## What is commented on -/

/-- A comment on an animation with a label on one line is a comment on one line. -/
theorem Animation.isNote_comment {animation : Animation}
    (single : '\n' ∉ animation.label.toList) : IsNote animation.comment.toList := by
  have parts : animation.comment.toList = "/* ".toList ++ animation.label.toList ++
      ": animation not translated, see conversion report */".toList := by
    rw [comment, String.toList_append, String.toList_append]
  rw [parts]
  refine ⟨?_, rfl, ?_⟩
  · simp only [List.mem_append, not_or]
    exact ⟨⟨by decide, single⟩, by decide⟩
  · rw [List.getLast?_append]
    rfl

namespace Component

section Comments

variable {tree : Node}

theorem RewordsComments.alikeNotes {note : Animation → String}
    (rewords : RewordsComments (Pass.animationsOf (Facts.ofTree tree)) note) :
    Renderer.AlikeNotes (fun comment other => ∃ animation ∈ Pass.animationsOf (Facts.ofTree tree),
      comment = animation.comment ∧ other = note animation) Animation.comment note
        (Facts.ofTree tree) := by
  intro animation member
  rcases rewords animation member with same | ⟨single, isNote⟩
  · rw [same]
    exact .refl _ _
  · exact .of_swap ⟨animation, member, rfl, rfl⟩ (animation.isNote_comment single) isNote

theorem Wording.alike (regular : tree.Regular) {wording : (Animation → String) → String}
    (writes : Wording (Facts.ofTree tree) wording) {note : Animation → String}
    (rewords : RewordsComments (Pass.animationsOf (Facts.ofTree tree)) note) :
    Alike (fun comment other => ∃ animation ∈ Pass.animationsOf (Facts.ofTree tree),
      comment = animation.comment ∧ other = note animation) (wording Animation.comment)
        (wording note) := by
  have within : ∀ (this : Option String) {place : Place}, place ∈ (Place.ofRoot tree).walk →
      Renderer.AlikeWithin _ (Renderer.noting Animation.comment (Facts.ofTree tree) this)
        (Renderer.noting note (Facts.ofTree tree) this) place :=
    fun this _ => Renderer.alikeWithin_noting regular rewords.alikeNotes this
  cases writes with
  | @statements places inside =>
      refine Alike.intercalate "\n" ?_
      rw [List.forall₂_map_left_iff, List.forall₂_map_right_iff, List.forall₂_same]
      exact fun place member =>
        (within none (inside place member) place place.mem_walk_self).fragment
  | body this inside => exact ((within this inside).inBody (Place.mem_walk_self _)).functionBody
  | @request place request inside made =>
      refine (Renderer.alikeRequest_of_request? (within none inside) ?_ made).fetch
      exact fun inner below isString => Renderer.renderNoting_of_string regular _
        (Place.mem_walk_trans inside below) (.inl isString)

theorem Wording.commentsOn (regular : tree.Regular) {wording : (Animation → String) → String}
    (writes : Wording (Facts.ofTree tree) wording) :
    CommentsOn (Facts.ofTree tree) (Pass.animationsOf (Facts.ofTree tree))
      (wording Animation.comment) :=
  ⟨wording, writes, rfl, fun _ rewords => writes.alike regular rewords⟩

end Comments

end Component

/-! ## The agreement -/

theorem reportsAnimations_componentOf (document : Document) (settings : Settings) {tree : Node}
    (regular : tree.Regular) :
    (document.componentOf settings tree).ReportsAnimations (Facts.ofTree tree) := by
  have made := madeFrom_componentOf document settings tree
  have recorded : (document.componentOf settings tree).animations =
      Pass.animationsOf (Facts.ofTree tree) :=
    (recordedFrom_componentOf document settings tree).animations.trans
      (Pass.filterMap_animation_records _)
  have body : ∀ (this : Option String) {function : Place},
      function ∈ (Place.ofRoot tree).walk → Component.CommentsOn (Facts.ofTree tree)
        (Pass.animationsOf (Facts.ofTree tree))
          ((Renderer.of (Facts.ofTree tree) this).functionBody function) := by
    intro this function inside
    have writes := (Component.Wording.body this inside).commentsOn regular
    rwa [Renderer.noting_comment] at writes
  refine ⟨recorded, ?_, ?_, ?_, ?_, ?_⟩
  · intro animation member
    rw [recorded] at member
    rcases List.mem_flatMap.mp member with ⟨⟨head, chain⟩, _, listed⟩
    rcases List.mem_map.mp listed with ⟨call, _, rfl⟩
    exact suggestion_ne_empty call.name
  · intro effect member
    refine (made.effects effect member).imp_left ?_
    rintro ⟨places, sources, code⟩
    have writes := (Component.Wording.statements fun place listed =>
      (sources place listed).mem_walk).commentsOn regular
    rw [Renderer.noting_comment] at writes
    rw [recorded, code]
    exact writes
  · intro handler member
    rcases made.handlers handler member with ⟨place, source, ⟨delegate, parts⟩ | called⟩
    · rw [recorded, (Prod.mk.inj parts).2]
      exact .inl (body _ source.mem_walk)
    · exact .inr ⟨place, source.mem_walk, called⟩
  · intro function member
    rcases made.functions function member with ⟨name, place, source, rfl⟩
    rw [recorded]
    exact body none source.mem_walk
  · intro call member
    have blank : (document.draft settings).remoteCalls = [] := by
      rw [Document.draft]
      cases document.kind <;> rfl
    have listed : call ∈ (Stage.runAll (Facts.ofTree tree) (document.draft settings)).remoteCalls :=
      member
    rw [Pass.remoteCalls_runAll blank] at listed
    rcases List.mem_map.mp listed with ⟨request, among, rfl⟩
    rcases List.mem_filterMap.mp among with ⟨place, inside, found⟩
    split at found
    · cases found
    · have writes := (Component.Wording.request inside found).commentsOn regular
      rw [Renderer.noting_comment] at writes
      rw [recorded]
      exact writes

/-- The animations of a component are those of its script, chain by chain, with advice on each.  The
code that is rendered for the component comments on no others, and where the label of an animation
is on one line, the comment on it stands in the code as it is. -/
theorem code_comments_on_recorded (document : Document) (settings : Settings) :
    let tree := parse document.script
    (document.componentOf settings tree).ReportsAnimations (Facts.ofTree tree) :=
  reportsAnimations_componentOf document settings (regular_parse document.script)

/-- A label of two lines is indented with the code around the comment, and then it is not the label
in the report any more. -/
theorem not_label_of_two_lines :
    let document := Document.new "if (open) \x7b\n  $('#menu, \\\n#panel').fadeIn();\n\x7d" ⟨"menu.js"⟩
    let component := document.componentOf {} (parse document.script)
    component.animations.map (·.label) = ["#menu, \\\n#panel.fadeIn()"] ∧
      component.effects.map (·.code) = ["if (open) \x7b\n  /* #menu, \\\n  #panel.fadeIn(): " ++
        "animation not translated, see conversion report */;\n\x7d"] ∧
      ∃ effect ∈ component.effects, ∃ label, Text.occursIn
        ("/* " ++ label ++ ": animation not translated, see conversion report */") effect.code = true ∧
          ∀ animation ∈ component.animations, animation.label ≠ label := by
  intro document component
  have run : component.animations.map (·.label) = ["#menu, \\\n#panel.fadeIn()"] ∧
      component.effects.map (·.code) = ["if (open) \x7b\n  /* #menu, \\\n  #panel.fadeIn(): " ++
        "animation not translated, see conversion report */;\n\x7d"] := by
    decide +kernel
  rcases run with ⟨labels, codes⟩
  refine ⟨labels, codes, ?_⟩
  have listed := codes ▸ List.mem_singleton_self _
  rcases List.mem_map.mp listed with ⟨effect, member, code⟩
  refine ⟨effect, member, "#menu, \\\n  #panel.fadeIn()", ?_, ?_⟩
  · rw [code]
    decide +kernel
  · intro animation inside same
    have label := List.mem_map_of_mem inside (f := (·.label))
    rw [labels, same] at label
    exact absurd label (by decide)

end Hookify
