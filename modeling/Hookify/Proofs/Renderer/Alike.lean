import Hookify.Proofs.Renderer.Parts
import Hookify.Proofs.Text.Alike
import Hookify.Renderer.Replace

namespace Hookify
namespace Renderer

open Script Selection
open Text (Alike AlikeChars)

/-!
# Rules for idioms and alike texts

The rules for idioms put the texts of parts together and indent them.  They do
not look into these texts, with two exceptions: whether an argument reads
`true`, and what is between the quotes of an address.  So two renderers that
give alike texts for the parts of an idiom give alike texts for the idiom.

How the text of an animation comes about is left out here.
-/

/-- Two renderers give alike texts for a place. -/
def AlikeAt (swaps : String → String → Prop) (first second : Renderer) (place : Place) : Prop :=
  Alike swaps (first.render place) (second.render place)

/-- Two renderers give alike texts for the body of a function. -/
def AlikeInBody (swaps : String → String → Prop) (first second : Renderer) (function : Place) :
    Prop :=
  ∀ body, function.child? .body = some body → AlikeAt swaps first second body

variable {swaps : String → String → Prop} {first second : Renderer} {place : Place}

theorem AlikeAt.fragment (alike : AlikeAt swaps first second place) :
    Alike swaps (first.fragment place) (second.fragment place) :=
  alike.dedentContinuation _

theorem AlikeInBody.functionBody {function : Place}
    (alike : AlikeInBody swaps first second function) :
    Alike swaps (first.functionBody function) (second.functionBody function) := by
  rw [Renderer.functionBody, Renderer.functionBody]
  cases found : function.child? .body with
  | none => exact .refl swaps _
  | some body =>
      dsimp only
      split
      · exact (alike body found).blockInner
      · exact (alike body found).fragment.within _ _

theorem alike_dropSemicolon {text other : String} (alike : Alike swaps text other) :
    Alike swaps (dropSemicolon text) (dropSemicolon other) := by
  have trimmed := AlikeChars.trimEnd alike
  rw [Alike, dropSemicolon, dropSemicolon, beq_eq_decide, beq_eq_decide, ← trimmed.getLast?_eq]
  by_cases ends : (Text.trimEndChars text.toList).getLast? = some ';'
  · rcases List.getLast?_eq_some_iff.mp ends with ⟨front, same⟩
    rw [same] at trimmed ⊢
    rcases trimmed.of_concat (by decide) with ⟨before, other, inside⟩
    rw [other, if_pos (by simp), if_pos (by simp), String.toList_ofList, String.toList_ofList,
      List.dropLast_concat, List.dropLast_concat]
    exact inside
  · rw [if_neg (by simpa using ends), if_neg (by simpa using ends), String.toList_ofList,
      String.toList_ofList]
    exact trimmed

/-! ## Calls of a chain -/

/-- Two renderers give alike texts for the arguments of a call. -/
def AlikeArguments (swaps : String → String → Prop) (first second : Renderer) (call : MethodCall) :
    Prop :=
  ∀ index, Option.Rel (Alike swaps) (first.argument? call index) (second.argument? call index)

theorem alike_getD {value other : Option String} (alike : Option.Rel (Alike swaps) value other)
    (usual : String) : Alike swaps (value.getD usual) (other.getD usual) := by
  cases alike with
  | none => exact .refl swaps usual
  | some same => exact same

theorem alike_map {Item : Type} {item : Option Item} {write other : Item → String}
    (alike : ∀ value, item = some value → Alike swaps (write value) (other value)) :
    Option.Rel (Alike swaps) (item.map write) (item.map other) := by
  cases item with
  | none => exact .none
  | some value => exact .some (alike value rfl)

theorem alikeArguments {call : MethodCall}
    (alike : ∀ argument ∈ call.arguments, AlikeAt swaps first second argument) :
    AlikeArguments swaps first second call :=
  fun _ => alike_map fun argument found => (alike argument (List.mem_of_getElem? found)).fragment

namespace AlikeArguments

variable {call : MethodCall} (alike : AlikeArguments swaps first second call)

include alike

theorem argument (index : Nat) :
    Alike swaps (first.argument call index) (second.argument call index) :=
  alike_getD (alike index) ""

/-! ### Changes -/

theorem styleMembers : Alike swaps (first.styleMembers call) (second.styleMembers call) := by
  rw [Renderer.styleMembers, Renderer.styleMembers]
  split
  · split
    · exact (alike.argument 1).behind _
    · exact ((alike.argument 0).within _ _).append (alike.argument 1)
  · exact (alike.argument 0).behind _

theorem classUpdate : Alike swaps (first.classUpdate call) (second.classUpdate call) := by
  have name := alike.argument 0
  unfold Renderer.classUpdate
  split
  · exact name.within _ _
  · have value := alike 0
    generalize first.argument? call 0 = given at value
    generalize second.argument? call 0 = other at value
    cases value with
    | none => exact .refl swaps _
    | some value => exact value.within _ _
  · exact (((name.within _ _).append name).append (.refl swaps _)).append name |>.append
      (.refl swaps _)

theorem stateValue (facet : Facet) :
    Alike swaps (first.stateValue facet call) (second.stateValue facet call) := by
  have value := alike.argument 0
  cases facet with
  | visibility =>
      dsimp only [Renderer.stateValue]
      split
      · exact .refl swaps _
      · exact .refl swaps _
      · exact alike_getD (alike 0) _
  | className => exact alike.classUpdate
  | style => exact alike.styleMembers.within _ _
  | content => exact value
  | text => exact value
  | value => exact value

theorem stateMutation (selector : String) (facet : Facet) :
    Alike swaps (first.stateMutation selector facet call)
      (second.stateMutation selector facet call) :=
  (alike.stateValue facet).within _ _

theorem classMutation (code : String) :
    Alike swaps (first.classMutation code call) (second.classMutation code call) := by
  have value := alike.argument 0
  unfold Renderer.classMutation
  split
  · exact value.within _ _
  · split
    · exact .refl swaps _
    · exact value.within _ _
  · exact value.within _ _

theorem styleMutation (code : String) :
    Alike swaps (first.styleMutation code call) (second.styleMutation code call) := by
  have value := alike.argument 0
  unfold Renderer.styleMutation
  split
  · split
    · exact (alike.argument 1).behind _
    · exact (value.within _ _).append (alike.argument 1)
  · exact value.within _ _

theorem objectMutation (code : String) (facet : Facet) :
    Alike swaps (first.objectMutation code facet call)
      (second.objectMutation code facet call) := by
  have value := alike.argument 0
  cases facet with
  | visibility => exact .refl swaps _
  | className => exact alike.classMutation code
  | style => exact alike.styleMutation code
  | content => exact value.behind _
  | text => exact value.behind _
  | value => exact value.behind _

/-! ### Members of elements -/

theorem memberOf (part : String) :
    Alike swaps (first.memberOf part call) (second.memberOf part call) := by
  rw [Renderer.memberOf, Renderer.memberOf]
  split
  · exact .refl swaps _
  · exact (alike.argument 0).within _ _

theorem elementRead (element : Element) :
    Alike swaps (first.elementRead element call) (second.elementRead element call) := by
  have value := alike.argument 0
  unfold Renderer.elementRead
  split
  · exact .refl swaps _
  · exact .refl swaps _
  · exact .refl swaps _
  · exact alike.memberOf _
  · exact value.within _ _
  · split
    · exact .refl swaps _
    · exact alike.memberOf _
  · exact value.within _ _

theorem read (facts : first.facts = second.facts) (target : Target) (element : Element) :
    Alike swaps (first.read target element call) (second.read target element call) := by
  have same : first.ownedState? target call.name = second.ownedState? target call.name := by
    unfold ownedState?
    rw [facts]
  rw [Renderer.read, Renderer.read, same]
  split
  · exact .refl swaps _
  · exact alike.elementRead element

theorem attributeWrite (element : Element) :
    Alike swaps (first.attributeWrite element call) (second.attributeWrite element call) := by
  have name := alike.argument 0
  have value := alike 1
  unfold Renderer.attributeWrite
  generalize first.argument? call 1 = given at value
  generalize second.argument? call 1 = other at value
  generalize call.name = method
  cases value with
  | none =>
      split <;> dsimp only
      · exact name.within _ _
      · exact name.within _ _
      · contradiction
      · exact ((name.within _ _).append (.refl swaps _)).append (.refl swaps _)
      · contradiction
      · exact name.within _ _
      · contradiction
      · exact name.within _ _
  | some value =>
      split <;> dsimp only
      · exact name.within _ _
      · exact name.within _ _
      · cases ‹some _ = some _›
        exact ((name.within _ _).append value).append (.refl swaps _)
      · contradiction
      · cases ‹some _ = some _›
        exact ((alike.memberOf _).append (.refl swaps _)).append value
      · contradiction
      · cases ‹some _ = some _›
        exact (name.within _ _).append value
      · contradiction

theorem trigger (element : Element) :
    Alike swaps (first.trigger element call) (second.trigger element call) := by
  unfold Renderer.trigger
  split
  · exact .refl swaps _
  · exact ((alike.argument 0).behind _).append (.refl swaps _)
  · exact .refl swaps _

/-- A call that does not animate. -/
theorem step? (facts : first.facts = second.facts) (quiet : call.role ≠ .animation)
    (target : Target) (element : Element) (isStatement : Bool) :
    Option.Rel (Alike swaps) (first.step? target element isStatement call)
      (second.step? target element isStatement call) := by
  unfold Renderer.step?
  cases role : call.role with
  | mutation facet =>
      cases target with
      | selector selector => exact .some (alike.stateMutation selector facet)
      | page object => exact .some (alike.objectMutation element.code facet)
      | this => exact .some (alike.objectMutation element.code facet)
  | read => exact .some (alike.read facts target element)
  | attributeWrite => exact .some (alike.attributeWrite element)
  | trigger => exact .some (alike.trigger element)
  | animation => exact absurd role quiet
  | binding => exact .none
  | traversal => exact .none
  | ready => exact .none
  | unknown => exact .none

end AlikeArguments

/-! ## Chains -/

/-- What is made of each item of a list is related, if what is made of any single one is. -/
theorem rel_mapM {Item : Type} {relation : String → String → Prop}
    {make other : Item → Option String} {items : List Item}
    (related : ∀ item ∈ items, Option.Rel relation (make item) (other item)) :
    Option.Rel (List.Forall₂ relation) (items.mapM make) (items.mapM other) := by
  induction items with
  | nil => exact .some .nil
  | cons item rest ih =>
      have head := related item List.mem_cons_self
      have tail := ih fun later member => related later (List.mem_cons_of_mem item member)
      rw [List.mapM_cons, List.mapM_cons]
      generalize make item = first at head
      generalize other item = second at head
      cases head with
      | none => exact .none
      | some same =>
          generalize rest.mapM make = firsts at tail
          generalize rest.mapM other = seconds at tail
          cases tail with
          | none => exact .none
          | some others => exact .some (.cons same others)

theorem alike_joinSteps (isStatement : Bool) {steps others : List String}
    (alike : List.Forall₂ (Alike swaps) steps others) :
    Alike swaps (joinSteps isStatement steps) (joinSteps isStatement others) := by
  cases alike with
  | nil => exact .refl swaps _
  | cons head tail =>
      cases tail with
      | nil => exact head
      | cons next rest =>
          have all := List.Forall₂.cons head (.cons next rest)
          rw [joinSteps, joinSteps]
          · split
            · exact .intercalate ";\n" all
            · exact (Alike.intercalate ", " all).within _ _
          · exact fun _ single => by cases single
          · exact fun _ single => by cases single

/-! ## Helper functions and assignments -/

theorem alike_helper?
    (alike : ∀ argument ∈ callArguments place, AlikeAt swaps first second argument) :
    Option.Rel (Alike swaps) (first.helper? place) (second.helper? place) := by
  have argument : ∀ index : Nat,
      Alike swaps (((callArguments place)[index]?.map first.fragment).getD "")
        (((callArguments place)[index]?.map second.fragment).getD "") :=
    fun index => alike_getD
      (alike_map fun value found => (alike value (List.mem_of_getElem? found)).fragment) ""
  have texts : List.Forall₂ (Alike swaps) ((callArguments place).map first.fragment)
      ((callArguments place).map second.fragment) := by
    rw [List.forall₂_map_left_iff, List.forall₂_map_right_iff, List.forall₂_same]
    exact fun value member => (alike value member).fragment
  rw [helper?, helper?]
  cases helperName? place with
  | none => exact .none
  | some name =>
      simp only [Option.bind_eq_bind, Option.bind_some]
      split
      · exact .some ((argument 0).within _ _)
      · exact .some ((argument 0).within _ _)
      · exact .some ((argument 0).within _ _)
      · exact .some ((argument 0).within _ _)
      · exact .some (.refl swaps _)
      · exact .some (((argument 1).append (.refl swaps _)).append (argument 0) |>.append
          (.refl swaps _))
      · refine .some (Alike.within _ (.intercalate _ ?_) _)
        -- A text that reads `true` has no note in it.
        have same : (((callArguments place)[0]?.map first.fragment).getD "" == "true") =
            (((callArguments place)[0]?.map second.fragment).getD "" == "true") := by
          rw [Bool.eq_iff_iff, beq_iff_eq, beq_iff_eq]
          constructor
          · intro reads
            rw [← (argument 0).eq_of_not_mem (reads ▸ by decide), reads]
          · intro reads
            rw [← (argument 0).flip.eq_of_not_mem (reads ▸ by decide), reads]
        rw [same]
        split
        · exact List.forall₂_drop 1 texts
        · exact texts
      · exact .none

theorem rel_bind {Item : Type} {relation : String → String → Prop} {item : Option Item}
    {make other : Item → Option String}
    (related : ∀ value, item = some value → Option.Rel relation (make value) (other value)) :
    Option.Rel relation (item.bind make) (item.bind other) := by
  cases item with
  | none => exact .none
  | some value => exact related value rfl

theorem alike_stateUpdate? (facts : first.facts = second.facts)
    (alike : ∀ right, place.child? .right = some right → AlikeAt swaps first second right) :
    Option.Rel (Alike swaps) (first.stateUpdate? place) (second.stateUpdate? place) := by
  simp only [stateUpdate?, Option.bind_eq_bind, facts]
  refine rel_bind fun ⟨target, sign⟩ _ => rel_bind fun _ _ => rel_bind fun _ _ => ?_
  split
  · exact .some (.refl swaps _)
  · refine rel_bind fun right found => ?_
    have value := (alike right found).fragment
    split
    · exact .some (value.within _ _)
    · exact .some (value.within _ _)

/-! ## Requests -/

theorem alike_callback {callback : Place} (alike : AlikeAt swaps first second callback)
    (body : callback.kind.isFunctionLike = true ∨ callback.kind = .methodDefinition →
      AlikeInBody swaps first second callback) (usual : Option String) :
    Alike swaps (first.callback usual callback) (second.callback usual callback) := by
  unfold Renderer.callback
  split
  · exact alike.fragment
  · rename_i callable
    have statements := (body (by simpa [imp_iff_not_or] using callable)).functionBody
    dsimp only
    rw [statements.isEmpty_eq]
    split
    · exact .refl swaps _
    · exact (statements.indent "  ").within _ _

theorem alike_continuation {callback : Place} (alike : AlikeAt swaps first second callback)
    (body : callback.kind.isFunctionLike = true ∨ callback.kind = .methodDefinition →
      AlikeInBody swaps first second callback) (method : String) (usual : Option String) :
    Alike swaps (first.continuation method usual callback)
      (second.continuation method usual callback) :=
  ((alike_callback alike body usual).indentContinuation "  ").within _ _

theorem alike_fetchOptions (request : Request) {data other : Option String}
    (alike : Option.Rel (Alike swaps) data other) :
    Alike swaps (fetchOptions request data) (fetchOptions request other) := by
  cases alike with
  | none => exact .refl swaps _
  | some text =>
      have body := (text.indentContinuation "  ").within "body: JSON.stringify(" ")"
      refine Alike.within _ (.intercalate "\n" ?_) _
      exact .cons (.refl swaps _) (.cons (.refl swaps _) (.cons (body.within _ _) .nil))

/-- The quotes around an address are taken off, so that its text has to be the same. -/
theorem alike_queryUrl {address : Option Place} {url otherUrl data otherData : String}
    (alike : Alike swaps url otherUrl) (alikeData : Alike swaps data otherData)
    (plain : ∀ place, address = some place → place.kind = .string → url = otherUrl) :
    Alike swaps (queryUrl address url data) (queryUrl address otherUrl otherData) := by
  have query := alikeData.within "?$\x7bnew URLSearchParams(" ")\x7d`"
  rw [queryUrl, queryUrl]
  cases address with
  | none => exact (alike.within _ _).append query
  | some place =>
      split
      · rename_i isString
        rw [plain place rfl (by simpa using isString)]
        exact query.behind _
      · exact (alike.within _ _).append query

/-- Two renderers give alike texts for the parts of a request, and for the bodies of the callbacks
that are taken over. -/
structure AlikeRequest (swaps : String → String → Prop) (first second : Renderer)
    (request : Request) : Prop where
  parts : request.All (AlikeAt swaps first second)
  bodies : ∀ callback ∈ [request.success, request.error, request.complete].filterMap
      (Option.filter fun place : Place =>
        place.kind.isFunctionLike || place.kind == .methodDefinition),
    AlikeInBody swaps first second callback
  plain : ∀ url, request.url = some url → url.kind = .string →
    first.fragment url = second.fragment url

namespace AlikeRequest

variable {request : Request} (alike : AlikeRequest swaps first second request)

include alike

theorem fetchCall : Alike swaps (first.fetchCall request) (second.fetchCall request) := by
  have url := alike_getD
    (alike_map fun place found => (alike.parts.url place found).fragment) "''"
  have data : Option.Rel (Alike swaps) (request.data.map first.fragment)
      (request.data.map second.fragment) :=
    alike_map fun place found => (alike.parts.data place found).fragment
  unfold Renderer.fetchCall
  dsimp only
  generalize request.data.map first.fragment = given at data
  generalize request.data.map second.fragment = other at data
  split
  · cases data with
    | none => exact url.within _ _
    | some text =>
        refine (alike_queryUrl url text fun place found isString => ?_).within _ _
        rw [found, Option.map_some, Option.map_some, Option.getD_some, Option.getD_some]
        exact alike.plain place found isString
  · exact ((url.within _ _).append (alike_fetchOptions request data)).append (.refl swaps _)

theorem fetch : Alike swaps (first.fetch request) (second.fetch request) := by
  have continued : ∀ {callback : Option Place},
      callback ∈ [request.success, request.error, request.complete] →
      (∀ place, callback = some place → AlikeAt swaps first second place) →
      ∀ method usual, Option.Rel (Alike swaps)
        (callback.map (first.continuation method usual))
        (callback.map (second.continuation method usual)) := by
    intro callback listed parts method usual
    refine alike_map fun place found =>
      alike_continuation (parts place found) (fun callable => ?_) method usual
    refine alike.bodies place (List.mem_filterMap.mpr ⟨callback, listed, ?_⟩)
    exact Option.filter_eq_some_iff.mpr ⟨found, by simpa using callable⟩
  have success := continued (by simp) alike.parts.success
  have failure := continued (by simp) alike.parts.error
  have complete := continued (by simp) alike.parts.complete
  unfold Renderer.fetch
  exact (((alike.fetchCall.append (.refl swaps _)).append (alike_getD (success _ _) "")).append
    (alike_getD (failure _ _) _)).append (alike_getD (complete _ _) "")

end AlikeRequest

/-! ## What is copied -/

theorem alike_renderParts {render other : Place → String} {parts : List (NodePart Place)}
    (alike : ∀ child, .child child ∈ parts → Alike swaps (render child) (other child)) :
    Alike swaps (renderParts render parts) (renderParts other parts) := by
  induction parts with
  | nil => exact .refl swaps _
  | cons part rest ih =>
      have others := ih fun child member => alike child (List.mem_cons_of_mem part member)
      cases part with
      | text source => exact others.behind source
      | child child => exact (alike child List.mem_cons_self).append others

end Renderer
end Hookify
