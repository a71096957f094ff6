import Hookify.Page.Tag
import Hookify.Text.Lines

namespace Hookify
namespace Page

/-!
# What a page contains

The scripts of a page are either written in it or loaded from elsewhere, and so
are its styles.
-/

/-- The script elements of a page. -/
def scriptElements (page : String) : List Element :=
  findAll (element? "script".toList) page.toList

/-- A script is loaded from elsewhere. -/
def isExternal (script : Element) : Bool :=
  (value? "src" script.attributes).isSome

/-- A script is one to be run, and not a template or data. -/
def isRunnable (script : Element) : Bool :=
  match value? "type" script.attributes with
  | some value =>
      let kind := (Text.trimChars value).map Text.asciiLowerChar
      kind.isEmpty || Text.occursChars "javascript".toList kind || kind == "module".toList
  | none => true

/-- The scripts that are written in the page. -/
def inlineScripts (page : String) : List String :=
  ((scriptElements page).filter fun script =>
    ! isExternal script && isRunnable script && ! Text.isBlankChars script.body).map
      fun script => String.ofList script.body

/-- The addresses of the scripts that the page loads. -/
def scriptSources (page : String) : List String :=
  (scriptElements page).filterMap fun script =>
    (value? "src" script.attributes).map String.ofList

/-- A link leads to a stylesheet. -/
def isStylesheetLink (attributes : List Char) : Bool :=
  (findValue? "rel".toList (Text.hasWord "stylesheet".toList) false attributes).isSome

/-- The addresses of the stylesheets that the page loads. -/
def stylesheetLinks (page : String) : List String :=
  ((findAll (opening? "link".toList) page.toList).filter isStylesheetLink).filterMap
    fun attributes => (value? "href" attributes).map String.ofList

/-- The styles that are written in the page, in normal form. -/
def styleBlocks (page : String) : List String :=
  let blocks := (findAll (element? "style".toList) page.toList).map fun block =>
    String.ofList (Text.dedentChars (Text.tidyChars block.body))
  blocks.filter (! Text.isBlankText ·)

end Page
end Hookify
