import Hookify.Files.Path

namespace Hookify

/-!
# Where output goes

The paths of components and stylesheets, derived from those of the sources.
-/

/-- The component of a single file: beside it, with another extension. -/
def defaultOutput (input : Path) (extension : String) : Path :=
  input.withExtension extension

/-- The component of a file of a batch: at the same place below the output directory as the file
has below the root of the batch. -/
def outputBelow (root input outputRoot : Path) (extension : String) : Path :=
  let relative :=
    match root.below? input with
    | some path => path
    | none => (root.from? input).getD ⟨input.fileName?.getD ""⟩
  (outputRoot.join relative).withExtension extension

/-- The stylesheet for the styles that are embedded in a page. -/
def stylesheetName (source : Path) (extension : String) : String :=
  source.stem?.getD "component" ++ ".styles." ++ extension

end Hookify
