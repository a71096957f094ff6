import Hookify.Component.Draft
import Hookify.Renderer.Replace

namespace Hookify
namespace Pass

open Script

/-!
# Variables

The variables that scopes declare become states or constants of the component.
Functions are left to another pass, and a variable that stands for a selection
is replaced by the reference to its element.
-/

/-- The state of a declared variable; none for functions and selections. -/
def variableState? (facts : Facts) (renderer : Renderer) (name : String) (value : Option Place) :
    Option StateVariable :=
  if (value.map (·.kind.isFunctionLike)).getD false || (facts.alias? name).isSome then
    none
  else
    some
      { identifier := name
        initial := (value.map renderer.fragment).getD "undefined"
        kind := facts.classify name
        purpose := none }

/-- The states of all declared variables, in the order of the scopes. -/
def variableStates (facts : Facts) : List StateVariable :=
  let renderer := Renderer.of facts none
  (facts.statements.filter (·.kind.isVariables)).flatMap fun statement =>
    (declarators statement).filterMap fun (name, value) =>
      variableState? facts renderer name value

/-- Add the declared variables. -/
def declarations (facts : Facts) (draft : Draft) : Draft :=
  (variableStates facts).foldl (fun draft state => (draft.addState state).1) draft

end Pass
end Hookify
