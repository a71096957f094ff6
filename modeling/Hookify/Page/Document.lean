import Hookify.Page.Content
import Hookify.Files.Path

namespace Hookify

/-!
# Documents

What is converted is either a script or a page with scripts in it; the name of
the file tells which.
-/

/-- What a file holds. -/
inductive DocumentKind where
  | script
  | page
  deriving Repr, DecidableEq

/-- A page has one of two extensions; anything else is a script. -/
def DocumentKind.of (path : Path) : DocumentKind :=
  match path.extension?.map Text.asciiLower with
  | some extension => if extension == "html" || extension == "htm" then .page else .script
  | none => .script

/-- A file to be converted. -/
structure Document where
  raw : String
  /-- The name that the component is derived from. -/
  baseName : String
  /-- The name that reports use. -/
  fileName : String
  /-- Where the files are that a page loads. -/
  directory : Path
  kind : DocumentKind
  deriving Repr, DecidableEq

namespace Document

/-- The document with the given contents at a path. -/
def new (raw : String) (path : Path) : Document :=
  let baseName := path.stem?.getD "component"
  { raw := raw
    baseName := baseName
    fileName := path.fileName?.getD baseName
    directory := path.parent?.getD ⟨"."⟩
    kind := DocumentKind.of path }

/-- The script to be converted. -/
def script (document : Document) : String :=
  match document.kind with
  | .script => document.raw
  | .page => String.intercalate "\n" (Page.inlineScripts document.raw)

/-- The styles that are written in a page. -/
def styles (document : Document) : Option String :=
  match document.kind with
  | .script => none
  | .page =>
      match Page.styleBlocks document.raw with
      | [] => none
      | blocks => some (String.intercalate "\n\n" blocks)

end Document
end Hookify
