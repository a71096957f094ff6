import Hookify.Proofs.Conversion.Handlers
import Hookify.Proofs.Conversion.Listeners
import Hookify.Proofs.Request.Addresses
import Hookify.Proofs.Text.Undecoded

namespace Hookify

open Script Selection

/-!
# Children that events are delegated for

An element may listen for the events of its children, which a selector tells from
others.  In the script the selector is a string, and the conversion writes it
twice: the listener looks for the child before it calls the handler, and in the
handler the child that was found takes the place of `this`.

Both times the selector is a string again, and it should have the value that it
has in the script.  It has if there is no backslash in it.  But a backslash is
doubled on the way, so a selector with an escape sequence is never the same.
-/

/-! ## The value of a literal -/

namespace Text

/-- A text is a string of a script, with its value. -/
def Denotes (literal : List Char) (value : List Nat) : Prop :=
  ∃ mark body, (mark = '\x27' ∨ mark = '\x22') ∧ literal = mark :: (body ++ [mark]) ∧
    (Quoting.string mark).read? 0 body = some value

variable {literal : List Char} {value : List Nat}

theorem denotes_quoteChars_iff {body : List Char} :
    Denotes (quoteChars body) value ↔
      (Quoting.string '\x27').read? 0 (body.flatMap escapeChar) = some value := by
  constructor
  · rintro ⟨mark, inside, _, written, reads⟩
    rcases List.cons.inj written with ⟨rfl, same⟩
    rw [List.append_cancel_right same]
    exact reads
  · exact fun reads => ⟨'\x27', _, .inl rfl, rfl, reads⟩

theorem toList_quote_unquote (text : String) :
    (quote (unquote text)).toList = quoteChars (unquoteChars text.toList) := by
  change (overChars quoteChars (overChars unquoteChars text)).toList = _
  rw [toList_overChars, toList_overChars]

/-- A string that loses its quotes and is quoted again has the same value exactly if it has no
backslash. -/
theorem denotes_requoted_iff (denotes : Denotes literal value) :
    Denotes (quoteChars (unquoteChars literal)) value ↔ '\\' ∉ literal := by
  rcases denotes with ⟨mark, body, isMark, rfl, reads⟩
  have inside : '\\' ∈ mark :: (body ++ [mark]) ↔ '\\' ∈ body := by
    have apart : '\\' ≠ mark := by rcases isMark with rfl | rfl <;> decide
    simp [apart]
  rw [unquoteChars_string isMark, denotes_quoteChars_iff, inside]
  exact read?_requoted_iff reads

end Text

/-! ## The literal of a child -/

namespace Pass

variable {facts : Facts}

/-- The number of the argument that names the child. -/
def childIndex (call : MethodCall) : Nat :=
  if call.name == "delegate" then 0 else 1

/-- A string literal names the child that an event is delegated for: it is an argument of the call
that binds the event. -/
structure NamesChild (facts : Facts) (entry : Target × Binding) (literal : Place) : Prop where
  binds : ∃ statement ∈ facts.statements, ∃ chain, bindingChain? facts statement = some chain ∧
    chain.target = entry.1 ∧ ∃ call ∈ chain.effective, call.role = .binding ∧
      entry.2 ∈ bindingsOf call ∧ call.argument? (childIndex call) = some literal
  isString : literal.kind = .string
  child : entry.2.delegate = some (Text.unquote literal.text)

theorem NamesChild.mem_eventBindings {entry : Target × Binding} {literal : Place}
    (names : NamesChild facts entry literal) : entry ∈ eventBindings facts := by
  rcases names.binds with ⟨statement, among, chain, found, target, call, effective, role, binds, _⟩
  refine Pass.mem_eventBindings.mpr ⟨statement, among, chain, found, target, ?_⟩
  exact List.mem_flatMap.mpr ⟨call, List.mem_filter.mpr ⟨effective, beq_iff_eq.mpr role⟩, binds⟩

theorem delegate_of_mem_bindAll {events : List String} {delegate : Option String} {once : Bool}
    {handler : Option Place} {binding : Binding}
    (binds : binding ∈ bindAll events delegate once handler) : binding.delegate = delegate := by
  rw [bindAll.eq_def] at binds
  split at binds
  · rcases List.mem_map.mp binds with ⟨event, _, rfl⟩
    rfl
  · cases binds

/-- A child is always named by a literal. -/
theorem literal?_of_mem_bindingsOf {call : MethodCall} {binding : Binding} {child : String}
    (binds : binding ∈ bindingsOf call) (delegated : binding.delegate = some child) :
    call.literal? (childIndex call) = some child := by
  have general (name : childIndex call = 1) (binds : binding ∈ generalBindings call) :
      call.literal? (childIndex call) = some child := by
    rw [name]
    rw [generalBindings] at binds
    split at binds
    · cases binds
    split at binds
    · rcases List.mem_flatMap.mp binds with ⟨entry, _, binds⟩
      rw [← delegated, delegate_of_mem_bindAll binds]
    · have same := (delegate_of_mem_bindAll binds).symm.trans delegated
      split at same
      · exact same
      · cases same
  rw [bindingsOf] at binds
  split at binds
  · rw [hoverBindings] at binds
    split at binds
    · cases binds
    · simp only [List.mem_cons, List.not_mem_nil, or_false] at binds
      rcases binds with rfl | rfl <;> cases delegated
  · rename_i name
    rw [childIndex, if_pos (beq_iff_eq.mpr name), ← delegated, delegate_of_mem_bindAll binds]
  · rename_i name
    exact general (by rw [childIndex, name]; rfl) binds
  · rename_i name
    exact general (by rw [childIndex, name]; rfl) binds
  · rename_i name
    exact general (by rw [childIndex, name]; rfl) binds
  · rename_i name
    exact general (by rw [childIndex, name]; rfl) binds
  · split at binds
    · rw [delegate_of_mem_bindAll binds] at delegated
      cases delegated
    · cases binds

/-- Every child that an event is delegated for is named by a string literal. -/
theorem exists_namesChild {entry : Target × Binding} {child : String}
    (binds : entry ∈ eventBindings facts) (delegated : entry.2.delegate = some child) :
    ∃ literal, NamesChild facts entry literal := by
  rcases Pass.mem_eventBindings.mp binds with ⟨statement, among, chain, found, target, member⟩
  rcases List.mem_flatMap.mp member with ⟨call, isBinding, binds⟩
  rcases List.mem_filter.mp isBinding with ⟨effective, role⟩
  rcases Option.map_eq_some_iff.mp (literal?_of_mem_bindingsOf binds delegated) with
    ⟨literal, isLiteral, rfl⟩
  rcases Option.filter_eq_some_iff.mp isLiteral with ⟨isArgument, isString⟩
  exact ⟨literal, ⟨statement, among, chain, found, target, call, effective, beq_iff_eq.mp role,
    binds, isArgument⟩, beq_iff_eq.mp isString, delegated⟩

/-- The expression that finds the child of an event. -/
def closestCode (event child : String) : String :=
  event ++ ".target.closest(" ++ Text.quote child ++ ")"

/-- The listener of a delegated event looks for the child. -/
theorem closestCode_infix_listenerCode (target : ListenerTarget) (event handler child : String)
    (once : Bool) :
    (closestCode "event" child).toList <:+:
      (listenerCode target event handler (some child) once).toList := by
  have opening : "const listener = (event) => \x7b\n  if (event.target.closest(" =
      "const listener = (event) => \x7b\n  if (" ++ ("event" ++ ".target.closest(") := rfl
  have ending : ")) \x7b\n    " = ")" ++ ") \x7b\n    " := rfl
  have looks : (closestCode "event" child).toList <:+:
      (listenerDefinition handler (some child)).toList := by
    refine ⟨"const listener = (event) => \x7b\n  if (".toList,
      (") \x7b\n    " ++ (handler ++ "(event);\n  \x7d\n\x7d;\n")).toList, ?_⟩
    change _ = (_ ++ (Text.quote child ++ (_ ++ (handler ++ _)))).toList
    rw [opening, ending, closestCode]
    simp only [String.toList_append, List.append_assoc]
  rw [listenerCode_eq, String.toList_append, String.toList_append]
  exact List.infix_append_of_infix_right (List.infix_append_of_infix_left looks)

end Pass

/-! ## Converted children -/

section Conversion

variable (document : Document) (settings : Settings) {tree : Node}
  {entry : Target × Pass.Binding} {literal : Place}

/-- The effect of a handler for a child looks for the child. -/
theorem exists_effect_of_namesChild (names : Pass.NamesChild (Facts.ofTree tree) entry literal)
    {handler : Handler} (listed : handler ∈ (document.componentOf settings tree).handlers)
    (made : Pass.MadeFor (Facts.ofTree tree) entry handler) :
    ∃ effect ∈ (document.componentOf settings tree).listenerEffects,
      (document.componentOf settings tree).Attaches handler effect ∧
        (Pass.closestCode "event" (Text.unquote literal.text)).toList <:+: effect.code.toList := by
  have blank := document.blank_draft settings
  have steps := Pass.steps_runAll (Facts.ofTree tree) (document.draft settings)
  have attached : List.Forall₂ (document.componentOf settings tree).Attaches
      (document.componentOf settings tree).handlers
      (document.componentOf settings tree).listenerEffects :=
    (steps.attached blank.wellNamed blank.attached).finish (steps.wellNamed blank.wellNamed)
  generalize document.componentOf settings tree = component at listed attached ⊢
  rcases List.getElem_of_mem listed with ⟨index, inside, rfl⟩
  have bound := attached.length_eq ▸ inside
  have attaches : component.Attaches component.handlers[index] component.listenerEffects[index] :=
    attached.get inside bound
  refine ⟨_, List.getElem_mem bound, attaches, ?_⟩
  rw [attaches.code, made.parent, made.selector, names.child]
  exact Pass.closestCode_infix_listenerCode _ _ _ _ _

/-- An event that is delegated for a child has a listener that looks for the child with a string,
and a handler in which the child that is found with the same string takes the place of `this`.  The
string has the value of the one in the script exactly if that has no backslash. -/
theorem child_value_kept_iff (names : Pass.NamesChild (Facts.ofTree tree) entry literal) :
    let facts := Facts.ofTree tree
    let component := document.componentOf settings tree
    let child := Text.unquote literal.text
    (Pass.isCallable facts entry = true →
      ∃ handler ∈ component.handlers, Pass.MadeFor facts entry handler) ∧
    (∀ handler ∈ component.handlers, Pass.MadeFor facts entry handler →
      (∃ effect ∈ component.listenerEffects, component.Attaches handler effect ∧
        (Pass.closestCode "event" child).toList <:+: effect.code.toList) ∧
      ∀ function, (Pass.handlerSource facts entry.2.handler).function? = some function →
        handler.body = (Renderer.of facts
          (some (Pass.closestCode (Pass.eventName function) child))).functionBody function) ∧
    ∀ value, Text.Denotes literal.text.toList value →
      (Text.Denotes (Text.quote child).toList value ↔ '\\' ∉ literal.text.toList) := by
  intro facts component child
  refine ⟨fun callable => ?_, fun handler listed made => ⟨?_, fun function isSource => ?_⟩,
    fun value denotes => ?_⟩
  · exact Pass.exists_handler_of_isCallable (document.blank_draft settings).handlers
      names.mem_eventBindings callable
  · exact exists_effect_of_namesChild document settings names listed made
  · have parts := made.parts
    rw [Pass.handlerParts?_of_function? isSource, names.child] at parts
    exact (Prod.mk.inj (Option.some.inj parts)).2.symm
  · rw [Text.toList_quote_unquote]
    exact Text.denotes_requoted_iff denotes

end Conversion

/-- A search for a literal that names a child. -/
def findsChild (facts : Facts) (wanted : Target × Pass.Binding → Place → Bool) : Bool :=
  facts.statements.any fun statement => (Pass.bindingChain? facts statement).any fun chain =>
    chain.effective.any fun call => call.role == .binding &&
      (Pass.bindingsOf call).any fun binding =>
        (call.argument? (Pass.childIndex call)).any fun literal => literal.kind == .string &&
          binding.delegate == some (Text.unquote literal.text) &&
            wanted (chain.target, binding) literal

theorem exists_of_findsChild {facts : Facts} {wanted : Target × Pass.Binding → Place → Bool}
    (finds : findsChild facts wanted = true) :
    ∃ entry literal, Pass.NamesChild facts entry literal ∧ wanted entry literal = true := by
  obtain ⟨statement, among, some⟩ := List.any_eq_true.mp finds
  obtain ⟨chain, found, some⟩ := (Option.any_eq_true _ _).mp some
  obtain ⟨call, effective, checks⟩ := List.any_eq_true.mp some
  rw [Bool.and_eq_true, beq_iff_eq] at checks
  obtain ⟨binding, binds, some⟩ := List.any_eq_true.mp checks.2
  obtain ⟨literal, isArgument, checked⟩ := (Option.any_eq_true _ _).mp some
  rw [Bool.and_eq_true, Bool.and_eq_true, beq_iff_eq, beq_iff_eq] at checked
  exact ⟨(chain.target, binding), literal, ⟨⟨statement, among, chain, found, rfl, call, effective,
    checks.1, binds, isArgument⟩, checked.1.1, checked.1.2⟩, checked.2⟩

/-- Quotes of the other kind are no escape sequences: the backslashes that they get are taken off
again. -/
theorem child_value_kept_of_quotes :
    let document := Document.new
      "$('#list').on('click', \x22li[title='x']\x22, function () \x7b $(this).hide(); \x7d);"
      ⟨"list.js"⟩
    let tree := parse document.script
    ∃ entry literal value, Pass.NamesChild (Facts.ofTree tree) entry literal ∧
      literal.text = "\x22li[title='x']\x22" ∧ Text.Denotes literal.text.toList value ∧
      Text.Denotes (Text.quote (Text.unquote literal.text)).toList value ∧
      ∃ handler ∈ (document.componentOf {} tree).handlers,
        Pass.MadeFor (Facts.ofTree tree) entry handler := by
  intro document tree
  have run : findsChild (Facts.ofTree tree) (fun entry literal =>
      literal.text == "\x22li[title='x']\x22" && Pass.isCallable (Facts.ofTree tree) entry) =
        true := by
    decide +kernel
  obtain ⟨entry, literal, names, checks⟩ := exists_of_findsChild run
  rw [Bool.and_eq_true, beq_iff_eq] at checks
  have denotes : Text.Denotes literal.text.toList
      ("li[title='x']".toList.flatMap Text.unitsOf) := by
    rw [checks.1]
    exact ⟨'\x22', "li[title='x']".toList, .inr rfl, by decide, by decide +kernel⟩
  have kept := child_value_kept_iff document {} names
  exact ⟨entry, literal, _, names, checks.1, denotes,
    (kept.2.2 _ denotes).mpr (by rw [checks.1]; decide), kept.1 checks.2⟩

/-- A selector for a class with a colon in its name has the colon escaped. The backslash before it
is doubled once more. -/
theorem child_value_lost_of_backslash :
    let document := Document.new
      "$('#list').on('click', 'li.a\\\\:b', function () \x7b $(this).remove(); \x7d);" ⟨"list.js"⟩
    let tree := parse document.script
    ∃ entry literal value, Pass.NamesChild (Facts.ofTree tree) entry literal ∧
      literal.text = "'li.a\\\\:b'" ∧ Text.Denotes literal.text.toList value ∧
      ¬ Text.Denotes (Text.quote (Text.unquote literal.text)).toList value ∧
      (∃ handler ∈ (document.componentOf {} tree).handlers,
        Pass.MadeFor (Facts.ofTree tree) entry handler ∧
          handler.body = "event.target.closest('li.a\\\\\\\\:b').remove();") := by
  intro document tree
  have run : findsChild (Facts.ofTree tree) (fun entry literal =>
      literal.text == "'li.a\\\\:b'" && Pass.handlerParts? (Facts.ofTree tree) entry.2.delegate
        (Pass.handlerSource (Facts.ofTree tree) entry.2.handler) ==
          some ("event", "event.target.closest('li.a\\\\\\\\:b').remove();")) = true := by
    decide +kernel
  obtain ⟨entry, literal, names, checks⟩ := exists_of_findsChild run
  rw [Bool.and_eq_true, beq_iff_eq, beq_iff_eq] at checks
  have denotes : Text.Denotes literal.text.toList ("li.a\\:b".toList.flatMap Text.unitsOf) := by
    rw [checks.1]
    exact ⟨'\x27', "li.a\\\\:b".toList, .inl rfl, by decide, by decide +kernel⟩
  have callable : Pass.isCallable (Facts.ofTree tree) entry = true := by
    rw [Pass.isCallable, checks.2]
    rfl
  obtain ⟨handler, listed, made⟩ := Pass.exists_handler_of_isCallable
    (document.blank_draft {}).handlers names.mem_eventBindings callable
  refine ⟨entry, literal, _, names, checks.1, denotes, fun kept => ?_, handler, listed, made, ?_⟩
  · exact (Text.denotes_requoted_iff denotes).mp (Text.toList_quote_unquote _ ▸ kept)
      (by rw [checks.1]; decide)
  · exact (Prod.mk.inj (Option.some.inj (made.parts.symm.trans checks.2))).2

end Hookify
