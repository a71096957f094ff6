import Hookify.Proofs.Pass.Frames
import Hookify.Proofs.Pass.Start
import Hookify.Proofs.Pass.Origins

namespace Hookify
namespace Pass

open Script Selection

/-!
# Which places the code is made of

The code of a component is made of some places of the script: of statements that
run at the start, of functions, of the initial values of variables, and of
expressions for handlers.  The rest of the script only leaves names behind.

A function that has become a handler is no longer there under its name.  Its
name is no part of the code if it only stands where handlers are bound by
statements of scopes; but it is not looked for everywhere.
-/

/-! ## Sources -/

/-- Code of the component is made of the place. -/
inductive Source (facts : Facts) : Place → Prop where
  | statement {place : Place} (kept : place ∈ keptStatements facts) : Source facts place
  | value {statement place : Place} {name : String} (member : statement ∈ facts.statements)
      (isVariables : statement.kind.isVariables = true)
      (declares : (name, some place) ∈ declarators statement) : Source facts place
  | function {name : String} {place : Place}
      (defined : (name, place) ∈ facts.statements.flatMap definedFunctions) : Source facts place
  /-- The expression for a handler, unless it is the name of a function that has become one. -/
  | handler {target : Target} {binding : Binding} (binds : (target, binding) ∈ eventBindings facts)
      (source : handlerSource facts binding.handler = .inline binding.handler ∨
        handlerSource facts binding.handler = .called binding.handler.text) :
      Source facts binding.handler

/-- What a source says about its place among the statements of scopes. -/
inductive StandsIn (facts : Facts) (place statement : Place) : Prop where
  | kept (isKept : statement ∈ keptStatements facts)
  | declaration (kind : statement.kind ≠ .expressionStatement)
  | bound {chain : Chain} {binding : Binding} (found : bindingChain? facts statement = some chain)
      (member : binding ∈ chainBindings chain) (same : binding.handler = place)
      (source : handlerSource facts place = .inline place ∨
        handlerSource facts place = .called place.text)

/-! ## Handlers -/

/-- Why an expression stands for what it does as a handler. -/
inductive StandsFor (facts : Facts) (handler : Place) : HandlerSource → Prop where
  | inline (kind : handler.kind.isFunctionLike = true) : StandsFor facts handler (.inline handler)
  | claimed {function : Place} (kind : handler.kind = .identifier)
      (defined : facts.function? handler.text = some function)
      (unused : isUsedElsewhere facts handler.text = false) :
      StandsFor facts handler (.claimed handler.text function)
  | called (kind : handler.kind = .identifier ∨ handler.kind = .memberExpression) :
      StandsFor facts handler (.called handler.text)
  | notCallable : StandsFor facts handler .notCallable

section Handlers

variable {facts : Facts} {handler : Place}

theorem standsFor_handlerSource (facts : Facts) (handler : Place) :
    StandsFor facts handler (handlerSource facts handler) := by
  rw [handlerSource]
  split
  · rename_i kind
    exact .inline kind
  · split
    · rename_i kind
      rw [beq_iff_eq] at kind
      split
      · rename_i defined
        split
        · exact .called (.inl kind)
        · rename_i unused
          exact .claimed kind defined (Bool.not_eq_true _ ▸ unused)
      · exact .called (.inl kind)
    · split
      · rename_i kind
        exact .called (.inr (beq_iff_eq.mp kind))
      · exact .notCallable

theorem handlerSource_eq_inline {function : Place}
    (source : handlerSource facts handler = .inline function) : function = handler := by
  have stands := source ▸ standsFor_handlerSource facts handler
  cases stands
  rfl

theorem handlerSource_eq_called {code : String}
    (source : handlerSource facts handler = .called code) : code = handler.text := by
  have stands := source ▸ standsFor_handlerSource facts handler
  cases stands
  rfl

/-- A function is claimed by its name, and only if the name is not used otherwise. -/
theorem handlerSource_eq_claimed {name : String} {function : Place}
    (source : handlerSource facts handler = .claimed name function) :
    facts.function? name = some function ∧ isUsedElsewhere facts name = false := by
  have stands := source ▸ standsFor_handlerSource facts handler
  cases stands with
  | claimed kind defined unused => exact ⟨defined, unused⟩

/-- The name of a function that is not used otherwise stands for that function. -/
theorem handlerSource_of_identifier {function : Place} (kind : handler.kind = .identifier)
    (defined : facts.function? handler.text = some function)
    (unused : isUsedElsewhere facts handler.text = false) :
    handlerSource facts handler = .claimed handler.text function := by
  rw [handlerSource, kind, defined, unused]
  rfl

end Handlers

section Sources

variable {facts : Facts} {tree : Node} {place : Place}

theorem kind_ne_of_isVariables {statement : Place}
    (isVariables : statement.kind.isVariables = true) : statement.kind ≠ .expressionStatement := by
  intro same
  rw [same] at isVariables
  cases isVariables

theorem mem_walk_of_definedFunctions {statement : Place} {name : String}
    (defines : (name, place) ∈ definedFunctions statement) :
    place ∈ statement.walk ∧ statement.kind ≠ .expressionStatement := by
  rw [definedFunctions] at defines
  split at defines
  · rename_i declaration
    have kind : statement.kind ≠ .expressionStatement := by
      intro same
      rw [same] at declaration
      cases declaration
    split at defines
    · rcases Prod.mk.inj (List.mem_singleton.mp defines) with ⟨_, rfl⟩
      exact ⟨place.mem_walk_self, kind⟩
    · exact absurd defines List.not_mem_nil
  · split at defines
    · rename_i isVariables
      rcases List.mem_filterMap.mp defines with ⟨⟨key, value⟩, declares, found⟩
      rcases Option.map_eq_some_iff.mp found with ⟨function, filtered, same⟩
      rcases Prod.mk.inj same with ⟨rfl, rfl⟩
      have isValue := (Option.filter_eq_some_iff.mp filtered).1
      exact ⟨mem_walk_of_declarators (isValue ▸ declares), kind_ne_of_isVariables isVariables⟩
    · exact absurd defines List.not_mem_nil

/-- Every source stands in a statement of a scope that introduces no scope. -/
theorem Source.exists_statement (source : Source facts place) :
    ∃ statement ∈ facts.statements, scopeOf? statement = none ∧ place ∈ statement.walk ∧
      StandsIn facts place statement := by
  cases source with
  | statement kept =>
      exact ⟨place, (mem_keptStatements.mp kept).1, scopeOf?_eq_none_of_kept kept,
        place.mem_walk_self, .kept kept⟩
  | @value statement _ name member isVariables declares =>
      have kind := kind_ne_of_isVariables isVariables
      exact ⟨statement, member, scopeOf?_eq_none_of_introducesScope (introducesScope_of_kind kind),
        mem_walk_of_declarators declares, .declaration kind⟩
  | function defined =>
      rcases List.mem_flatMap.mp defined with ⟨statement, member, defines⟩
      rcases mem_walk_of_definedFunctions defines with ⟨inside, kind⟩
      exact ⟨statement, member, scopeOf?_eq_none_of_introducesScope (introducesScope_of_kind kind),
        inside, .declaration kind⟩
  | handler binds source =>
      rcases mem_eventBindings.mp binds with ⟨statement, member, chain, found, _, bound⟩
      exact ⟨statement, member,
        scopeOf?_eq_none_of_introducesScope (bindingChain?_eq_some found).1,
        mem_walk_of_mem_chainBindings found bound, .bound found bound rfl source⟩

end Sources

/-! ## Mentions -/

/-- A name stands at the place, other than where it is declared. -/
structure Mentions (name : String) (place : Place) : Prop where
  kind : place.kind = .identifier ∨ place.kind = .shorthandPropertyIdentifier ∨
    place.kind = .shorthandPropertyIdentifierPattern
  text : place.text = name
  used : isDeclaredName place = false

instance (name : String) (place : Place) : Decidable (Mentions name place) :=
  decidable_of_iff ((place.kind = .identifier ∨ place.kind = .shorthandPropertyIdentifier ∨
      place.kind = .shorthandPropertyIdentifierPattern) ∧ place.text = name ∧
      isDeclaredName place = false)
    ⟨fun ⟨kind, text, used⟩ => ⟨kind, text, used⟩, fun ⟨kind, text, used⟩ => ⟨kind, text, used⟩⟩

/-- A mention of the name is left in the code of the component. -/
def Remains (facts : Facts) (name : String) (place : Place) : Prop :=
  Mentions name place ∧ ∃ source, Source facts source ∧ place ∈ source.walk

section Mentions

variable {facts : Facts} {tree : Node} {name : String} {place : Place}

theorem Mentions.isFunctionLike_eq_false (mentions : Mentions name place) :
    place.kind.isFunctionLike = false := by
  rcases mentions.kind with same | same | same <;> rw [same] <;> rfl

theorem Mentions.kind_ne_memberExpression (mentions : Mentions name place) :
    place.kind ≠ .memberExpression := by
  rcases mentions.kind with same | same | same <;> rw [same] <;> exact Kind.noConfusion

/-- A mention of a claimed function that is a source by itself would not have been claimed. -/
theorem not_mentions_of_source {function : Place} (defined : facts.function? name = some function)
    (unused : isUsedElsewhere facts name = false)
    (source : handlerSource facts place = .inline place ∨
      handlerSource facts place = .called place.text) : ¬ Mentions name place := by
  intro mentions
  have stands := standsFor_handlerSource facts place
  rcases source with isFunction | isCalled
  · rw [isFunction] at stands
    cases stands with
    | inline function =>
        rw [mentions.isFunctionLike_eq_false] at function
        cases function
  · rw [isCalled] at stands
    cases stands with
    | called callable =>
        have identifier := callable.resolve_right mentions.kind_ne_memberExpression
        rw [← mentions.text] at defined unused
        rw [handlerSource_of_identifier identifier defined unused] at isCalled
        cases isCalled

theorem mem_walk_of_eventBindings {entry : Target × Binding}
    (binds : entry ∈ eventBindings (Facts.ofTree tree)) :
    entry.2.handler ∈ (Facts.ofTree tree).root.walk := by
  rcases mem_eventBindings.mp binds with ⟨statement, member, chain, found, _, bound⟩
  exact Place.mem_walk_trans (Facts.mem_walk_of_statements member)
    (mem_walk_of_mem_chainBindings found bound)

theorem binds_of_mem_chainBindings {chain : Chain} {binding : Binding}
    (member : binding ∈ chainBindings chain) : chain.effective.any (·.role == .binding) = true := by
  rcases List.mem_flatMap.mp member with ⟨call, effective, _⟩
  rcases List.mem_filter.mp effective with ⟨inside, role⟩
  exact List.any_eq_true.mpr ⟨call, inside, role⟩

/-- What is left of the name of a claimed function is no handler of a scope; and wherever the
script names it as a variable, it is passed to a method that binds events. -/
theorem Remains.not_bound {function : Place}
    (defined : (Facts.ofTree tree).function? name = some function)
    (unused : isUsedElsewhere (Facts.ofTree tree) name = false)
    (remains : Remains (Facts.ofTree tree) name place) :
    (∀ entry ∈ eventBindings (Facts.ofTree tree), entry.2.handler ≠ place) ∧
      (place.kind = .identifier → isBindingArgument place = true) := by
  rcases remains with ⟨mentions, source, isSource, inside⟩
  rcases isSource.exists_statement with ⟨statement, member, plain, within, stands⟩
  have inStatement := Place.mem_walk_trans within inside
  refine ⟨?_, fun identifier => ?_⟩
  · rintro ⟨target, binding⟩ binds rfl
    rcases mem_eventBindings.mp binds with ⟨other, otherMember, chain, found, _, bound⟩
    have inOther := mem_walk_of_mem_chainBindings found bound
    have otherPlain := scopeOf?_eq_none_of_introducesScope (bindingChain?_eq_some found).1
    -- The handler stands in one statement only, so the source belongs to its chain.
    have same := Facts.eq_of_mem_statements member otherMember plain otherPlain inStatement inOther
    rw [← same] at found
    cases stands with
    | kept isKept =>
        exact not_mem_walk_of_kept member found (binds_of_mem_chainBindings bound) isKept
          inStatement inStatement
    | declaration kind =>
        rcases bindingChain?_eq_some found with ⟨_, _, expression, isExpression, _⟩
        exact kind (kind_of_statementExpression? isExpression)
    | bound again among isHandler ownSource =>
        rw [found] at again
        cases again
        rw [← isHandler] at inside ownSource
        rw [← eq_of_mem_chainBindings found bound among inside] at ownSource
        exact not_mentions_of_source defined unused ownSource mentions
  · have onWalk := Place.mem_walk_trans (Facts.mem_walk_of_statements member) inStatement
    by_contra elsewhere
    have used : isUsedElsewhere (Facts.ofTree tree) name = true := by
      refine List.any_eq_true.mpr ⟨place, onWalk, ?_⟩
      rw [identifier, mentions.text, mentions.used, Bool.eq_false_iff.mpr elsewhere,
        beq_self_eq_true, beq_self_eq_true]
      rfl
    rw [unused] at used
    cases used

end Mentions

end Pass
end Hookify
