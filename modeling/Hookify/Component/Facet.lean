namespace Hookify

/-!
# Facets of an element

A script may write several facets of a page element: its markup, its text, its
form value, and so on.  In a component each facet that the script writes is
owned by one state variable, whose name ends in the suffix of the facet and
whose first value is the default of the facet.
-/

/-- The sides of an element that a script can change directly. -/
inductive Facet where
  | content
  | text
  | value
  | visibility
  | className
  | style
  deriving Repr, DecidableEq

namespace Facet

/-- The end of the name of the state variable that owns the facet. -/
def suffix : Facet → String
  | .content => "Html"
  | .text => "Text"
  | .value => "Value"
  | .visibility => "Visible"
  | .className => "ClassName"
  | .style => "Style"

/-- What the facet is taken to be before the script has run. -/
def initial : Facet → String
  | .content | .text | .value | .className => "''"
  | .visibility => "true"
  | .style => "\x7b\x7d"

/-- The facet in words. -/
def label : Facet → String
  | .content => "content"
  | .text => "text"
  | .value => "form value"
  | .visibility => "visibility"
  | .className => "class name"
  | .style => "style"

end Facet
end Hookify
