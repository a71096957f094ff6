import Hookify.Component.Basic
import Hookify.Page.Content

namespace Hookify
namespace Page

/-!
# Files that a page loads

Only files beside the page can be copied.  Whether they exist is not asked
here; all that is done is to tell local addresses from others and to find the
paths they stand for.
-/

/-- A character of the scheme of an address. -/
def isSchemeChar (c : Char) : Bool :=
  Text.isAsciiAlphanumeric c || c == '+' || c == '-' || c == '.'

/-- An address begins with a scheme. A single letter before a colon names a drive instead. -/
def hasScheme (address : List Char) : Bool :=
  match Text.upTo? (· == ':') address with
  | some (scheme, _) => 1 < scheme.length && scheme.all isSchemeChar
  | none => false

/-- An address leads away from the directory of the page. -/
def isRemote (address : List Char) : Bool :=
  "//".toList.isPrefixOf address || hasScheme address

/-- An address without its query and its fragment. -/
def withoutQuery (address : List Char) : List Char :=
  address.takeWhile fun c => c != '?' && c != '#'

/-- The path that an address stands for. A slash at the beginning means the directory of the page
as well. -/
def localPath? (directory : Path) (address : List Char) : Option Path :=
  let trimmed := Text.trimChars address
  let path := withoutQuery trimmed
  if isRemote trimmed || path.isEmpty then none
  else some (directory.join ⟨String.ofList (path.dropWhile (· == '/'))⟩)

/-- A script is one of the libraries that a component has no use for. -/
def isExcluded (excluded : List String) (address : String) : Bool :=
  let path : Path := ⟨String.ofList (withoutQuery address.toList)⟩
  let name := Text.asciiLower (path.fileName?.getD "")
  excluded.any fun library => Text.occursIn (Text.asciiLower library) name

/-- A resource is kept unless one with the same path has been found before. -/
def addResource (found : List Resource) (resource : Resource) : List Resource :=
  if found.any fun other => other.path.same resource.path then found else found ++ [resource]

/-- The local files that a page loads, the stylesheets first. -/
def resources (page : String) (directory : Path) (excluded : List String) : List Resource :=
  let scripts := (scriptSources page).filter (! isExcluded excluded ·)
  let addresses :=
    (stylesheetLinks page).map (·, ResourceKind.stylesheet) ++ scripts.map (·, .script)
  let local? := addresses.filterMap fun (address, kind) =>
    (localPath? directory address.toList).map fun path => (⟨address, path, kind⟩ : Resource)
  local?.foldl addResource []

end Page
end Hookify
