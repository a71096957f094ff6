import Hookify.Conversion.Basic
import Hookify.Proofs.Pass.Names

namespace Hookify

open Script

/-!
# The component of a syntax tree

What a conversion finds in a script depends on the syntax tree alone.  The
properties of components are stated for whatever tree a script may have; that
the tree is the one that the parser builds is used nowhere.
-/

namespace Component

/-- Something in the component that is called has the name. -/
def NamesCode (component : Component) (name : String) : Prop :=
  (∃ handler ∈ component.handlers, handler.name = name) ∨
    ∃ function ∈ component.functions, function.name = name

instance (component : Component) (name : String) : Decidable (component.NamesCode name) :=
  inferInstanceAs (Decidable (_ ∨ _))

end Component

namespace Document

/-- The component of a document whose script has the given syntax tree. -/
def componentOf (document : Document) (settings : Settings) (tree : Node) : Component :=
  (Stage.runAll (Facts.ofTree tree) (document.draft settings)).finish

/-- A conversion takes the tree of the script, unless the script is blank. -/
theorem component_convert (document : Document) (settings : Settings)
    (filled : Text.isBlankText document.script = false) :
    (document.convert settings).component =
      document.componentOf settings (parse document.script) := by
  rw [convert, Draft.readScript, filled]
  rfl

/-- Before the script is read, nothing in the draft has a name. -/
theorem blank_draft (document : Document) (settings : Settings) :
    (document.draft settings).Blank := by
  rw [draft]
  cases document.kind with
  | script => exact ⟨rfl, rfl, rfl, rfl, rfl, rfl⟩
  | page => exact ⟨rfl, rfl, rfl, rfl, rfl, rfl⟩

end Document
end Hookify
