import Hookify.Proofs.Conversion.Code
import Hookify.Proofs.Output.Items
import Hookify.Proofs.Renderer.Carries
import Hookify.Proofs.Text.Unmoved

namespace Hookify

open Script Selection
open Renderer (Carries Moves)

/-!
# Template literals

What stands in a template literal is part of the program: its line ends, its
indentation and its blanks are characters of a string.  The normal forms do not
look at literals.  They move the lines of a literal as they move all others, so
that a literal is kept as it is only if there is nothing to be moved in it.

A literal within a line is always kept.  Of a literal of several lines, the
component has what becomes of it when it is cut out of the script, and the file
what becomes of that when it is laid out.
-/

/-- A template literal, from one mark to the other. -/
structure Script.Place.IsTemplate (place : Place) : Prop where
  kind : place.kind = .templateString
  marks : ∃ inside, place.text = "`" ++ inside ++ "`"

theorem Script.Place.IsTemplate.isFramed {place : Place} (isTemplate : place.IsTemplate) :
    Text.IsFramed place.text.toList := by
  obtain ⟨inside, same⟩ := isTemplate.marks
  have mark : Text.IsFirm '`' := by decide
  have shape : place.text.toList = '`' :: (inside.toList ++ ['`']) := by
    rw [same]
    simp
  rw [shape]
  exact ⟨⟨'`', _, rfl, mark⟩, ⟨'`' :: inside.toList, '`', rfl, mark⟩⟩

/-! ## The code of the component -/

/-- What becomes of a part of a place when the place is cut out of its script: as a fragment, or as
the inside of a block. -/
def Cuts (place : Place) (change : List Char → List Char) : Prop :=
  change = Text.dedentContinuationChars place.node.margin.chars.length ∨
    ∃ width, change = Text.dedentBehindChars width ∘ Text.tidyChars

section Recorded

variable {component : Component} {facts : Facts} {this : Option String} {place : Place}

/-- What is rendered for a component is cut out of the script for its code. -/
theorem Component.Renders.exists_moves (renders : component.Renders facts this place) :
    ∃ code ∈ component.codes, ∃ change,
      Moves ((Renderer.of facts this).render place) code change ∧ Cuts place change := by
  cases renders with
  | start member _ part =>
      exact ⟨_, Component.mem_codes_iff.mpr (.inl ⟨_, member, rfl⟩), _,
        .of_occursIn (Renderer.moves_fragment _ place) part, .inl rfl⟩
  | @value state _ member made =>
      refine ⟨_, Component.mem_codes_iff.mpr (.inr (.inr (.inr ⟨_, member, rfl⟩))), _, ?_, .inl rfl⟩
      rw [made]
      exact Renderer.moves_fragment _ place
  | function member isBody =>
      obtain ⟨change, moves, cuts⟩ :=
        Renderer.exists_moves_functionBody (Renderer.of facts none) isBody
      exact ⟨_, Component.mem_codes_iff.mpr (.inr (.inr (.inl ⟨_, member, rfl⟩))), change, moves, cuts⟩
  | @handler handler delegate function _ member made isBody =>
      obtain ⟨change, moves, cuts⟩ := Renderer.exists_moves_functionBody
        (Renderer.of facts (some (Pass.eventElement delegate (Pass.eventName function))))
        isBody
      refine ⟨_, Component.mem_codes_iff.mpr (.inr (.inl ⟨_, member, rfl⟩)), change, ?_, cuts⟩
      rw [(Prod.mk.inj made).2]
      exact moves

end Recorded

/-! ## The file -/

section Printed

variable {component : Component} {code : String}

/-- The item of a body in braces has the body as code, unless that is blank. -/
theorem mem_braces (head closing : String) (filled : Text.isBlankText code = false) :
    Output.braces head code closing = .block (head ++ "\x7b") [.code code] closing := by
  rw [Output.braces, if_neg (by rw [filled]; exact Bool.false_ne_true)]

/-- Code of a component is laid out somewhere in the body of the component. -/
theorem exists_within_body (member : code ∈ component.codes)
    (filled : Text.isBlankText code = false) : ∃ depth text, 0 < depth ∧
      Text.occursIn code text = true ∧
        Output.Within depth (.code text) 1 (Output.body component) := by
  rcases Component.mem_codes_iff.mp member with ⟨effect, among, rfl⟩ | ⟨handler, among, rfl⟩ |
    ⟨function, among, rfl⟩ | ⟨state, among, rfl⟩
  · exact ⟨2, _, Nat.two_pos, Text.occursIn_self _, .block
      (Output.mem_body_of_effect among (List.mem_cons_of_mem _ (List.mem_singleton_self _)))
      (.here (List.mem_singleton_self _))⟩
  · have item := Output.mem_body_of_handler among
    rw [Output.handler, mem_braces _ _ filled] at item
    exact ⟨2, _, Nat.two_pos, Text.occursIn_self _, .block item (.here (List.mem_singleton_self _))⟩
  · have item := Output.mem_body_of_function among
    rw [Output.function, mem_braces _ _ filled] at item
    exact ⟨2, _, Nat.two_pos, Text.occursIn_self _, .block item (.here (List.mem_singleton_self _))⟩
  · cases kind : state.isReactive with
    | false =>
        have item := Output.mem_body_of_constant
          (List.mem_filter.mpr ⟨among, by rw [kind]; rfl⟩)
        exact ⟨1, _, Nat.one_pos, Text.occursIn_append_left
          (Text.occursIn_append_right (Text.occursIn_self _) _) _, .here item⟩
    | true =>
        have item := Output.mem_body_of_reactive
          (List.mem_filter.mpr ⟨among, kind⟩)
        have declared : Text.occursIn state.initial ("const [" ++ state.identifier ++ ", " ++
            state.setter ++ "] = useState(" ++ state.initial ++ ");") = true :=
          Text.occursIn_append_left (Text.occursIn_append_right (Text.occursIn_self _) _) _
        rw [Output.reactive] at item
        cases purpose : state.purpose with
        | none =>
            rw [purpose] at item
            exact ⟨1, _, Nat.one_pos, declared, .here item⟩
        | some owner =>
            rw [purpose] at item
            refine ⟨1, _, Nat.one_pos, ?_, .here item⟩
            iterate 4 apply Text.occursIn_append_left
            exact declared

/-- So it is found in the file, tidied, without its indentation and with the margin of its place. -/
theorem exists_moves_generate (member : code ∈ component.codes)
    (filled : Text.isBlankText code = false) (extension : String) : ∃ depth width, 0 < depth ∧
      Moves code (Output.generate component extension).code
        (Text.indentContinuationChars (Output.margin depth).toList ∘
          Text.dedentBehindChars width ∘ Text.tidyChars) := by
  obtain ⟨depth, text, deep, occurs, within⟩ := exists_within_body member filled
  have wrapped : ∀ stylesheet report, Output.Within depth (.code text) 0
      (Output.items component stylesheet report) := fun stylesheet report =>
    .block (Output.mem_separated (List.mem_cons_of_mem _ List.mem_cons_self)
      (List.mem_cons_of_mem _ List.mem_cons_self)) within
  let name := (Output.stylesheetOf component extension).map (·.name)
  obtain ⟨before, after, printed⟩ :=
    (wrapped name (Report.of component name)).exists_print
  have file : (Output.generate component extension).code = before ++
      Text.indent (Output.margin depth) (Text.dedent (Text.tidy text)) ++ after := printed
  rw [file]
  exact ⟨depth, _, deep,
    .around before after (.indent _ (.dedent (.tidy (.of_occursIn .refl occurs))))⟩

theorem isBlankText_of_framed {part : List Char} (framed : Text.IsFramed part)
    (inside : part <:+: code.toList) : Text.isBlankText code = false := by
  obtain ⟨before, after, same⟩ := inside
  rw [Text.isBlankText, ← same, Text.isBlankChars, List.all_append, List.all_append,
    ← Text.isBlankChars, ← Text.isBlankChars, framed.starts.isBlankChars_eq, Bool.and_false,
    Bool.false_and]

theorem isLine_margin (depth : Nat) : Text.IsLine (Output.margin depth).toList := by
  rw [Output.margin, String.toList_ofList]
  intro c member
  rw [List.eq_of_mem_replicate member]
  decide

end Printed

/-! ## Literals -/

/-- A literal occurs as it is in the code of a component and in the file that is written for it. -/
def Component.KeepsLiteral (component : Component) (extension : String) (literal : Place) : Prop :=
  component.HasCode literal.text ∧
    Text.occursIn literal.text (Output.generate component extension).code = true

/-- A template literal is copied, as `image`, into what is rendered for a component at `source`. -/
structure Component.CopiesLiteral (component : Component) (facts : Facts) (this : Option String)
    (source literal : Place) (image : List Char) : Prop where
  inside : source ∈ facts.root.walk
  renders : component.Renders facts this source
  carries : Carries facts literal this source image
  isTemplate : literal.IsTemplate

namespace Component.CopiesLiteral

variable {component : Component} {facts : Facts} {this : Option String} {source literal : Place}
  {image : List Char}

theorem isFramed (copies : component.CopiesLiteral facts this source literal image) :
    Text.IsFramed image :=
  copies.carries.isFramed copies.isTemplate.isFramed

/-- The code that is cut out at the source has what becomes of the literal. -/
theorem exists_code (copies : component.CopiesLiteral facts this source literal image) :
    ∃ code ∈ component.codes, ∃ cut,
      Moves ((Renderer.of facts this).render source) code cut ∧ Cuts source cut ∧
        cut image <:+: code.toList := by
  obtain ⟨code, member, cut, moves, cuts⟩ := copies.renders.exists_moves
  have rendered := copies.carries.infix_render copies.isTemplate.isFramed
    (Place.size_le_of_mem_walk copies.inside)
  exact ⟨code, member, cut, moves, cuts, moves.isInfix copies.isFramed rendered⟩

/-- The file has what becomes of that when it is laid out. -/
theorem exists_cut (copies : component.CopiesLiteral facts this source literal image) :
    ∃ code ∈ component.codes, ∃ cut, Cuts source cut ∧ cut image <:+: code.toList ∧
      ∀ extension, ∃ depth width, 0 < depth ∧
        Text.indentContinuationChars (Output.margin depth).toList
            (Text.dedentBehindChars width (Text.tidyChars (cut image))) <:+:
          (Output.generate component extension).code.toList := by
  obtain ⟨code, member, cut, moves, cuts, occurs⟩ := copies.exists_code
  have framed := moves.isFramed copies.isFramed
  refine ⟨code, member, cut, cuts, occurs, fun extension => ?_⟩
  obtain ⟨depth, width, deep, printed⟩ :=
    exists_moves_generate member (isBlankText_of_framed framed occurs) extension
  exact ⟨depth, width, deep, printed.isInfix framed occurs⟩

/-- A literal within a line is kept. -/
theorem keeps (copies : component.CopiesLiteral facts this source literal image)
    (single : '\n' ∉ literal.text.toList) (extension : String) :
    component.KeepsLiteral extension literal := by
  have isInline : Text.IsInline literal.text.toList := ⟨copies.isTemplate.isFramed, single⟩
  obtain ⟨code, member, cut, moves, _, occurs⟩ := copies.exists_code
  rw [copies.carries.image_eq isInline, moves.change_eq isInline] at occurs
  obtain ⟨_, _, _, printed⟩ :=
    exists_moves_generate member (isBlankText_of_framed copies.isTemplate.isFramed occurs) extension
  have inFile := printed.isInfix copies.isTemplate.isFramed occurs
  rw [printed.change_eq isInline] at inFile
  exact ⟨Component.hasCode_iff.mpr ⟨code, member, (Text.occursIn_iff _ _).mpr occurs⟩,
    (Text.occursIn_iff _ _).mpr inFile⟩

end Component.CopiesLiteral

/-- Rendering comes to a literal also in an idiom: in what is assigned to a state, in what a call sets,
in the address of a request and in callbacks.  The component has what becomes of the literal when it
is cut out of the script, and the file what becomes of that when it is laid out.  A literal within a
line is kept as it is.  One of several lines, without carriage returns, is kept by a fragment only if
its other lines begin with no blanks, by a block only if in addition it is tidy, unless there is no
indentation to be lost, and in the file only if the margin that its lines lose is the one that they
get. -/
theorem literal_lines_moved (document : Document) (settings : Settings) (tree : Node) :
    let facts := Facts.ofTree tree
    let component := document.componentOf settings tree
    (∀ this place part text literal image, (Renderer.of facts this).HasPart place part →
      (Renderer.of facts this).idiom? place = some text → part ∈ place.walk →
        Carries facts literal this part image → ∃ after, Carries facts literal this place after) ∧
    (∀ this source literal image, component.CopiesLiteral facts this source literal image →
      (∃ code ∈ component.codes, ∃ cut, Cuts source cut ∧ cut image <:+: code.toList ∧
        ∀ extension, ∃ depth width, 0 < depth ∧
          Text.indentContinuationChars (Output.margin depth).toList
              (Text.dedentBehindChars width (Text.tidyChars (cut image))) <:+:
            (Output.generate component extension).code.toList) ∧
      ('\n' ∉ literal.text.toList → ∀ extension, component.KeepsLiteral extension literal)) ∧
    ∀ literal : Place, literal.IsTemplate → '\r' ∉ literal.text.toList →
      let chars := literal.text.toList
      let others := (Text.lineChars chars).tail
      (∀ column, Text.dedentContinuationChars column chars = chars ↔
        ∀ line ∈ others, column = 0 ∨ Text.indentWidth line = 0) ∧
      (∀ width, Text.dedentBehindChars width (Text.tidyChars chars) = chars ↔
        Text.tidyChars chars = chars ∧ ∀ line ∈ others, width = 0 ∨ Text.indentWidth line = 0) ∧
      ∀ depth width, Text.indentContinuationChars (Output.margin depth).toList
          (Text.dedentBehindChars width (Text.tidyChars chars)) = chars ↔
        Text.tidyChars chars = chars ∧ ∀ line ∈ others, line ≠ [] →
          (Output.margin depth).toList ++ Text.stripIndent width line = line := by
  intro facts component
  refine ⟨?_, ?_, ?_⟩
  · intro this place part text literal image has replaced inside carries
    obtain ⟨change, moves⟩ := has.exists_moves replaced
    exact ⟨_, .part inside replaced moves carries⟩
  · intro this source literal image copies
    exact ⟨copies.exists_cut, copies.keeps⟩
  · intro literal isTemplate noReturn
    have framed := isTemplate.isFramed
    exact ⟨framed.dedentContinuation_eq_iff noReturn, framed.dedentBehind_tidy_eq_iff noReturn,
      fun depth width => framed.indentContinuation_dedentBehind_tidy_eq_iff noReturn
        (isLine_margin depth) width⟩

/-- Looks for a template literal of a given text in a handler, with nothing inside that a rule is
about. -/
def findsLiteral (facts : Facts) (text : String) : Bool :=
  (Pass.eventBindings facts).any fun entry => entry.2.handler.walk.any fun place =>
    place.kind == .templateString && place.text == text &&
      place.walk.all fun inner => ! Renderer.mayBeReplaced inner.kind

/-- The second line of a literal loses blanks together with the lines of its handler. -/
theorem not_keepsLiteral_of_handler :
    let document :=
      Document.new "$('#a').click(function () \x7b\n  show(`x\n    y`);\n\x7d);" ⟨"box.js"⟩
    let facts := Facts.ofTree (parse document.script)
    let component := document.componentOf {} (parse document.script)
    ∃ entry ∈ Pass.eventBindings facts, ∃ literal ∈ entry.2.handler.walk, literal.IsTemplate ∧
      (∀ this, Renderer.Copied facts this literal) ∧
        ∀ extension, ¬ component.KeepsLiteral extension literal := by
  intro document facts component
  have run : findsLiteral facts "`x\n    y`" = true ∧ ¬ component.HasCode "`x\n    y`" := by
    decide +kernel
  obtain ⟨entry, among, found⟩ := List.any_eq_true.mp run.1
  obtain ⟨literal, inside, fits⟩ := List.any_eq_true.mp found
  rw [Bool.and_eq_true, Bool.and_eq_true, beq_iff_eq, beq_iff_eq] at fits
  obtain ⟨⟨kind, same⟩, plain⟩ := fits
  refine ⟨entry, among, literal, inside, ⟨kind, "x\n    y", same⟩,
    Renderer.copied_of_plain facts fun inner member => ?_, fun _ keeps => run.2 (same ▸ keeps.1)⟩
  exact Bool.not_eq_true' _ ▸ List.all_eq_true.mp plain inner member

end Hookify
