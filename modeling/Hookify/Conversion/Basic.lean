import Hookify.Output.Generated
import Hookify.Page.Document
import Hookify.Page.Loaded
import Hookify.Pass.Stage
import Hookify.Settings.Basic

namespace Hookify

/-!
# Conversion

A document becomes a component and the files that are written for it.  A
conversion depends on the document and the settings alone and never fails; only
reading and writing files can.
-/

/-- What a document has become. -/
structure Conversion where
  component : Component
  generated : Output.Generated
  deriving Repr, DecidableEq

/-- The draft of a document, in which the script has not been read yet. -/
def Document.draft (document : Document) (settings : Settings) : Draft :=
  let draft := Draft.new (Identifier.component document.baseName) document.fileName
  match document.kind with
  | .script => draft
  | .page =>
      (draft.setResources (Page.resources document.raw document.directory
        settings.resources.excludedScripts)).setStyles document.styles

/-- Convert a document. -/
def Document.convert (document : Document) (settings : Settings) : Conversion :=
  let component := ((document.draft settings).readScript document.script).finish
  { component := component
    generated := Output.generate component settings.output.stylesheetExtension }

end Hookify
