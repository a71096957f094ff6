import Hookify.Proofs.Pass.ChainRecords
import Hookify.Proofs.Renderer.Alike
import Hookify.Proofs.Renderer.Locality
import Hookify.Proofs.Renderer.Values
import Hookify.Proofs.Script.Trees

namespace Hookify

open Script Selection
open Text (Alike)

/-!
# Rendering with other notes

The comment that takes the place of an animating call is the only text that
rendering makes up from what the report says.  Here rendering is told what to
write instead.  With the comments of the report it is rendering as it is.

Rendering with two kinds of notes gives texts that are alike, as long as the
notes on the animations of the script are.  No note on anything else is asked
for: a chain is replaced only if none of its calls leads to other elements, and
then all its animating calls are animations of the script.
-/

namespace Renderer

/-! ## The second rendering -/

section Noting

variable (note : Animation → String)

/-- A call that animates, with a note in the place of the comment. -/
def animationNoting (renderer : Renderer) (target : Target) (isStatement : Bool)
    (call : MethodCall) : String :=
  let comment := note (Animation.ofCall target call)
  if isStatement then
    match call.arguments.getLast?.filter (·.kind.isFunctionLike) with
    | some callback => comment ++ "\n" ++ dropSemicolon (renderer.functionBody callback)
    | none => comment
  else
    "void 0 " ++ comment

/-- What a call of a chain becomes. -/
def stepNoting? (renderer : Renderer) (target : Target) (element : Element) (isStatement : Bool)
    (call : MethodCall) : Option String :=
  if call.role = .animation then some (renderer.animationNoting note target isStatement call)
  else renderer.step? target element isStatement call

/-- What a chain becomes. -/
def chainNoting? (renderer : Renderer) (chain : Chain) (head : Place) : Option String :=
  let element := renderer.element chain.target
  if chain.calls.isEmpty then
    some element.code
  else
    let isStatement := Facts.isStatement head
    (chain.calls.mapM (renderer.stepNoting? note chain.target element isStatement)).map
      (joinSteps isStatement)

/-- What a call becomes. -/
def callNoting? (renderer : Renderer) (place : Place) : Option String :=
  match renderer.facts.request? place with
  | some request => some (renderer.fetch request)
  | none =>
      match renderer.helper? place with
      | some text => some text
      | none =>
          match renderer.facts.chain? place with
          | some chain =>
              if ! chain.calls.isEmpty && ! isHead place then none
              else renderer.chainNoting? note chain place
          | none => none

/-- What a node becomes if it is an idiom. -/
def idiomNoting? (renderer : Renderer) (place : Place) : Option String :=
  if place.kind = .callExpression then renderer.callNoting? note place else renderer.idiom? place

/-- Rendering of a place whose nodes are nested at most so deep. -/
def renderNoting (facts : Facts) : Nat → Option String → Place → String
  | 0, _, place => place.text
  | depth + 1, this, place =>
      if place.kind == .comment then
        ""
      else
        match idiomNoting? note ⟨facts, this, renderNoting facts depth this⟩ place with
        | some text => Text.indentContinuation (String.ofList place.node.margin.chars) text
        | none =>
            let inside := if place.kind.isPlainFunction then none else this
            renderParts (renderNoting facts depth inside) (placeParts place 0 place.node.parts)

/-- The renderer of a script that is told what to note of animations. -/
def noting (facts : Facts) (this : Option String) : Renderer where
  facts := facts
  this := this
  render := renderNoting note facts (facts.root.node.size + 1) this

end Noting

/-! ## With the comments of the report it is rendering as it is -/

section Same

variable (renderer : Renderer)

theorem stepNoting?_comment (target : Target) (element : Element) (isStatement : Bool)
    (call : MethodCall) : renderer.stepNoting? Animation.comment target element isStatement call =
      renderer.step? target element isStatement call := by
  rw [stepNoting?]
  split
  · rename_i role
    rw [step?, role]
    rfl
  · rfl

theorem chainNoting?_comment (chain : Chain) (head : Place) :
    renderer.chainNoting? Animation.comment chain head = renderer.chain? chain head := by
  have same : ∀ target element isStatement,
      renderer.stepNoting? Animation.comment target element isStatement =
        renderer.step? target element isStatement :=
    fun target element isStatement =>
      funext (renderer.stepNoting?_comment target element isStatement)
  rw [chainNoting?, chain?]
  simp only [same]
  rfl

theorem idiomNoting?_comment (place : Place) :
    renderer.idiomNoting? Animation.comment place = renderer.idiom? place := by
  rw [idiomNoting?]
  split
  · rename_i kind
    rw [idiom?, kind]
    dsimp only
    rw [callNoting?, call?]
    cases renderer.facts.request? place with
    | some request => rfl
    | none =>
        cases renderer.helper? place with
        | some text => rfl
        | none =>
            cases renderer.facts.chain? place with
            | none => rfl
            | some chain =>
                dsimp only
                rw [chainNoting?_comment]
  · rfl

theorem renderNoting_comment (facts : Facts) (depth : Nat) (this : Option String) (place : Place) :
    renderNoting Animation.comment facts depth this place = renderTo facts depth this place := by
  induction depth generalizing this place with
  | zero => rfl
  | succ depth ih =>
      have same : ∀ this, renderNoting Animation.comment facts depth this =
          renderTo facts depth this := fun this => funext (ih this)
      rw [renderNoting, renderTo, idiomNoting?_comment, same]
      by_cases comment : (place.kind == .comment) = true
      · rw [if_pos comment, if_pos comment]
      · rw [if_neg comment, if_neg comment]
        cases idiom? ⟨facts, this, renderTo facts depth this⟩ place with
        | some text => rfl
        | none => exact congrArg (fun render => renderParts render _) (same _)

/-- With the comments of the report, it is the renderer of the script. -/
theorem noting_comment (facts : Facts) (this : Option String) :
    noting Animation.comment facts this = Renderer.of facts this := by
  rw [noting, Renderer.of]
  congr 1
  exact funext (renderNoting_comment facts _ this)

/-- The note stands where the comment would. -/
example :
    let tree := parse "go($('#a').fadeIn());"
    (noting Animation.label (Facts.ofTree tree) none).render (Place.ofRoot tree) =
      "go(void 0 #a.fadeIn());" := by
  decide +kernel

end Same

/-! ## Alike notes give alike texts -/

section Alike

variable {swaps : String → String → Prop} {note other : Animation → String}

/-- On the animations of a script, the notes are alike. -/
def AlikeNotes (swaps : String → String → Prop) (note other : Animation → String) (facts : Facts) :
    Prop :=
  ∀ animation ∈ Pass.animationsOf facts, Alike swaps (note animation) (other animation)

section Idioms

variable {facts : Facts} {this : Option String} {render otherRender : Place → String}
  {place : Place} {chain : Chain}

theorem alike_animationNoting {target : Target} {call : MethodCall}
    (noted : Alike swaps (note (Animation.ofCall target call))
      (other (Animation.ofCall target call)))
    (bodies : ∀ callback ∈ call.arguments, AlikeInBody swaps ⟨facts, this, render⟩
      ⟨facts, this, otherRender⟩ callback) (isStatement : Bool) :
    Alike swaps (animationNoting note ⟨facts, this, render⟩ target isStatement call)
      (animationNoting other ⟨facts, this, otherRender⟩ target isStatement call) := by
  rw [animationNoting, animationNoting]
  split
  · cases last : call.arguments.getLast?.filter (·.kind.isFunctionLike) with
    | none => exact noted
    | some callback =>
        have member := List.mem_of_getLast? (Option.filter_eq_some_iff.mp last).1
        exact (noted.append (.refl swaps _)).append
          (alike_dropSemicolon (bodies callback member).functionBody)
  · exact noted.behind _

/-- If a chain is replaced, then all its animating calls are animations of the script. -/
theorem animation_mem_of_chain (inside : place ∈ facts.root.walk)
    (isCall : place.kind = .callExpression) (head : isHead place = true)
    (chained : facts.chain? place = some chain)
    (stays : ¬ ∃ call ∈ chain.calls, call.role = .traversal) {call : MethodCall}
    (member : call ∈ chain.calls) (role : call.role = .animation) :
    Animation.ofCall chain.target call ∈ Pass.animationsOf facts := by
  have effective : chain.effective = chain.calls := by
    rw [Chain.effective, List.takeWhile_eq_self_iff]
    exact fun other among => bne_iff_ne.mpr fun leads => stays ⟨other, among, leads⟩
  refine List.mem_flatMap.mpr ⟨(place, chain),
    Pass.mem_chainsIn.mpr ⟨inside, isCall, head, chained⟩, ?_⟩
  dsimp only
  rw [effective]
  exact List.mem_map_of_mem (List.mem_filter.mpr ⟨member, beq_iff_eq.mpr role⟩)

/-- Renderers give alike texts for a place and everything inside. -/
def AlikeWithin (swaps : String → String → Prop) (first second : Renderer) (place : Place) : Prop :=
  ∀ inner ∈ place.walk, AlikeAt swaps first second inner

theorem AlikeWithin.inBody {first second : Renderer}
    (alike : AlikeWithin swaps first second place) {function : Place}
    (inside : function ∈ place.walk) : AlikeInBody swaps first second function :=
  fun body found =>
    alike body (Place.mem_walk_of_children inside (Place.mem_children_of_child? found))

variable (alike : AlikeWithin swaps ⟨facts, this, render⟩ ⟨facts, this, otherRender⟩ place)

include alike

theorem alike_stepNoting? {target : Target} {call : MethodCall}
    (noted : call.role = .animation →
      Alike swaps (note (Animation.ofCall target call)) (other (Animation.ofCall target call)))
    (inside : ∀ argument ∈ call.arguments, argument ∈ place.walk) (element : Element)
    (isStatement : Bool) :
    Option.Rel (Alike swaps)
      (stepNoting? note ⟨facts, this, render⟩ target element isStatement call)
      (stepNoting? other ⟨facts, this, otherRender⟩ target element isStatement call) := by
  rw [stepNoting?, stepNoting?]
  split
  · rename_i role
    exact .some (alike_animationNoting (noted role)
      (fun callback member => alike.inBody (inside callback member)) isStatement)
  · rename_i quiet
    exact (alikeArguments fun argument member => alike argument (inside argument member)).step? rfl
      quiet target element isStatement

theorem alike_chainNoting? (notes : AlikeNotes swaps note other facts)
    (inside : place ∈ facts.root.walk) (isCall : place.kind = .callExpression)
    (head : chain.calls.isEmpty = false → isHead place = true)
    (chained : facts.chain? place = some chain) :
    Option.Rel (Alike swaps) (chainNoting? note ⟨facts, this, render⟩ chain place)
      (chainNoting? other ⟨facts, this, otherRender⟩ chain place) := by
  have sameElement : element ⟨facts, this, render⟩ chain.target =
      element ⟨facts, this, otherRender⟩ chain.target := element_congr chain.target
  rw [chainNoting?, chainNoting?, sameElement]
  dsimp only
  split
  · exact .some (.refl swaps _)
  · rename_i filled
    have ends := head (Bool.eq_false_iff.mpr filled)
    generalize element ⟨facts, this, otherRender⟩ chain.target = element
    by_cases leads : ∃ call ∈ chain.calls, call.role = .traversal
    · -- The chain stays as it is, whatever the notes are.
      rcases leads with ⟨call, member, role⟩
      have stays : ∀ (note : Animation → String) (renderer : Renderer), chain.calls.mapM
          (stepNoting? note renderer chain.target element (Facts.isStatement place)) = none := by
        intro note renderer
        refine mapM_eq_none_iff.mpr ⟨call, member, ?_⟩
        rw [stepNoting?, role, if_neg Role.noConfusion, step?_eq_none_iff, role]
        rfl
      rw [stays, stays]
      exact .none
    · have steps : Option.Rel (List.Forall₂ (Alike swaps))
          (chain.calls.mapM (stepNoting? note ⟨facts, this, render⟩ chain.target element
            (Facts.isStatement place)))
          (chain.calls.mapM (stepNoting? other ⟨facts, this, otherRender⟩ chain.target element
            (Facts.isStatement place))) := by
        refine rel_mapM fun call member => alike_stepNoting? alike ?_ ?_ element _
        · exact fun role => notes _
            (animation_mem_of_chain inside isCall ends chained leads member role)
        · exact fun argument passed =>
            (reaches_of_mem_calls Place.passable_true chained member passed).mem_walk
      generalize chain.calls.mapM (stepNoting? note _ _ _ _) = texts at steps
      generalize chain.calls.mapM (stepNoting? other _ _ _ _) = others at steps
      cases steps with
      | none => exact .none
      | some steps => exact .some (alike_joinSteps _ steps)

omit alike in
/-- The parts of a request that is made at a place are alike, if everything inside is. -/
theorem alikeRequest_of_request? {first second : Renderer} {request : Request}
    (alike : AlikeWithin swaps first second place)
    (plain : ∀ inner ∈ place.walk, inner.kind = .string → first.render inner = second.render inner)
    (found : facts.request? place = some request) : AlikeRequest swaps first second request := by
  have reached := Request.all_of_request? Place.passable_true found
  refine ⟨reached.mono fun part way => alike part way.mem_walk, fun callback taken => ?_, ?_⟩
  · have takenOver : callback ∈ facts.takenOver place := by
      rwa [Facts.takenOver, found]
    exact alike.inBody (Facts.reaches_of_mem_takenOver Place.passable_true takenOver).mem_walk
  · intro url isUrl isString
    rw [Renderer.fragment, Renderer.fragment, plain url (reached.url url isUrl).mem_walk isString]

theorem alike_idiomNoting? (notes : AlikeNotes swaps note other facts)
    (inside : place ∈ facts.root.walk)
    (plain : ∀ inner ∈ place.walk, inner.kind = .string → render inner = otherRender inner) :
    Option.Rel (Alike swaps) (idiomNoting? note ⟨facts, this, render⟩ place)
      (idiomNoting? other ⟨facts, this, otherRender⟩ place) := by
  have update : Option.Rel (Alike swaps) (stateUpdate? ⟨facts, this, render⟩ place)
      (stateUpdate? ⟨facts, this, otherRender⟩ place) :=
    alike_stateUpdate? rfl fun right found => alike right
      (Place.mem_walk_of_children place.mem_walk_self (Place.mem_children_of_child? found))
  rw [idiomNoting?, idiomNoting?]
  split
  · rename_i isCall
    rw [callNoting?, callNoting?]
    dsimp only
    cases found : facts.request? place with
    | some request => exact .some (alikeRequest_of_request? alike plain found).fetch
    | none =>
        have helper : Option.Rel (Alike swaps) (helper? ⟨facts, this, render⟩ place)
            (helper? ⟨facts, this, otherRender⟩ place) :=
          alike_helper? fun argument member => alike argument
            (reaches_of_mem_callArguments Place.passable_true isCall member).mem_walk
        generalize helper? ⟨facts, this, render⟩ place = text at helper
        generalize helper? ⟨facts, this, otherRender⟩ place = otherText at helper
        cases helper with
        | some same => exact .some same
        | none =>
            cases chained : facts.chain? place with
            | none => exact .none
            | some chain =>
                dsimp only
                split
                · exact .none
                · rename_i ends
                  refine alike_chainNoting? alike notes inside isCall (fun filled => ?_) chained
                  simpa [filled] using ends
  · rename_i noCall
    unfold idiom?
    split
    · exact absurd ‹_› noCall
    · exact update
    · exact update
    · exact update
    · cases this with
      | none => exact .none
      | some text => exact .some (.refl swaps text)
    · exact .none

end Idioms

/-- A string has nothing inside but comments, so that nothing is noted there. -/
theorem renderNoting_of_string {tree : Node} (regular : tree.Regular) (facts : Facts) {depth : Nat}
    {this : Option String} {place : Place} (inside : place ∈ (Place.ofRoot tree).walk)
    (kind : place.kind = .string ∨ place.kind = .htmlComment) :
    renderNoting note facts depth this place = renderNoting other facts depth this place := by
  induction depth generalizing this place with
  | zero => rfl
  | succ depth ih =>
      have noIdiom : ∀ (note : Animation → String) (renderer : Renderer),
          idiomNoting? note renderer place = none := by
        intro note renderer
        rcases kind with kind | kind
        · rw [idiomNoting?, if_neg (by rw [kind]; decide), idiom?, kind]
        · rw [idiomNoting?, if_neg (by rw [kind]; decide), idiom?, kind]
      rw [renderNoting, renderNoting, noIdiom, noIdiom]
      split
      · rfl
      · refine renderParts_congr fun child member => ?_
        have isChild := mem_placeParts_iff.mp member
        have below := Place.mem_walk_of_children inside isChild
        have fits := (Place.regular_of_mem_walk regular inside).fits
        rcases Place.mem_children.mp isChild with ⟨index, found, _⟩
        have remark : isRemark child.node.part = true := by
          have all : ∀ part ∈ place.node.children.map Node.part, isRemark part = true := by
            change place.node.kind = _ ∨ place.node.kind = _ at kind
            rcases kind with kind | kind <;> rw [kind] at fits <;> exact fits
          exact all _ (List.mem_map_of_mem (List.mem_of_getElem? found))
        rcases Bool.or_eq_true_iff.mp remark with comment | html
        · have isComment : child.kind = .comment := congrArg Prod.fst (beq_iff_eq.mp comment)
          cases depth with
          | zero => rfl
          | succ depth =>
              rw [renderNoting, renderNoting, if_pos (beq_iff_eq.mpr isComment),
                if_pos (beq_iff_eq.mpr isComment)]
        · exact ih below (.inr (congrArg Prod.fst (beq_iff_eq.mp html)))

/-- Rendering with alike notes gives alike texts. -/
theorem alike_renderNoting {tree : Node} (regular : tree.Regular)
    (notes : AlikeNotes swaps note other (Facts.ofTree tree)) {depth : Nat} {this : Option String}
    {place : Place} (inside : place ∈ (Place.ofRoot tree).walk) :
    Alike swaps (renderNoting note (Facts.ofTree tree) depth this place)
      (renderNoting other (Facts.ofTree tree) depth this place) := by
  induction depth generalizing this place with
  | zero => exact .refl swaps _
  | succ depth ih =>
      have within : AlikeWithin swaps
          ⟨Facts.ofTree tree, this, renderNoting note (Facts.ofTree tree) depth this⟩
          ⟨Facts.ofTree tree, this, renderNoting other (Facts.ofTree tree) depth this⟩ place :=
        fun inner below => ih (Place.mem_walk_trans inside below)
      have idiom := alike_idiomNoting? within notes inside fun inner below isString =>
        renderNoting_of_string regular _ (Place.mem_walk_trans inside below) (.inl isString)
      rw [renderNoting, renderNoting]
      split
      · exact .refl swaps _
      · generalize idiomNoting? note _ place = text at idiom
        generalize idiomNoting? other _ place = otherText at idiom
        cases idiom with
        | none =>
            exact alike_renderParts fun child member =>
              ih (Place.mem_walk_of_children inside (mem_placeParts_iff.mp member))
        | some same => exact same.indentContinuation _

theorem alikeWithin_noting {tree : Node} (regular : tree.Regular)
    (notes : AlikeNotes swaps note other (Facts.ofTree tree)) (this : Option String) {place : Place}
    (inside : place ∈ (Place.ofRoot tree).walk) :
    AlikeWithin swaps (noting note (Facts.ofTree tree) this) (noting other (Facts.ofTree tree) this)
      place :=
  fun _ below => alike_renderNoting regular notes (Place.mem_walk_trans inside below)

end Alike

end Renderer
end Hookify
