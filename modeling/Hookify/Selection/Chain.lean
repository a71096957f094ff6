import Hookify.Selection.Role
import Hookify.Selection.Target

namespace Hookify
namespace Selection

open Script

/-!
# Chains of calls

Methods of a selection return the selection, so that calls are written one
behind the other.  In the tree the last call stands on top.  A chain lists them
in the order in which they run, beginning at the selection.
-/

/-- One call of a chain. -/
structure MethodCall where
  name : String
  place : Place
  arguments : List Place

namespace MethodCall

/-- What the call does. -/
def role (call : MethodCall) : Role :=
  roleOf call.name (call.arguments.map (·.kind))

/-- The argument with a number. -/
def argument? (call : MethodCall) (index : Nat) : Option Place :=
  call.arguments[index]?

/-- The text inside an argument that is a string literal. -/
def literal? (call : MethodCall) (index : Nat) : Option String :=
  ((call.argument? index).filter (·.kind == .string)).map fun place => Text.unquote place.text

end MethodCall

/-- The selections that variables of the script stand for; a later entry replaces an earlier. -/
abbrev Aliases := List (String × String)

/-- The selector that a variable stands for. -/
def Aliases.find? (aliases : Aliases) (name : String) : Option String :=
  (aliases.reverse.find? (·.1 == name)).map (·.2)

/-- The target of a place: of a selection, or of a variable that stands for one. -/
def targetOf? (aliases : Aliases) (place : Place) : Option Target :=
  if place.kind == .identifier then
    (aliases.find? place.text).map Target.selector
  else
    directTarget? place

/-- The call of a method at a place, with the object whose method it is. -/
def methodCall? (place : Place) : Option (MethodCall × Place) := do
  guard (place.kind == .callExpression)
  let function ← place.child? .function
  guard (function.kind == .memberExpression)
  let object ← function.child? .object
  let property ← function.child? .property
  return (⟨property.text, place, callArguments place⟩, object)

/-- The calls from a place down to the first object that is no method call, in the order in which
they run, and that object. -/
def callsFrom : Nat → Place → List MethodCall × Place
  | 0, place => ([], place)
  | fuel + 1, place =>
      match methodCall? place with
      | none => ([], place)
      | some (call, object) =>
          let (calls, root) := callsFrom fuel object
          (calls ++ [call], root)

/-- A selection with the calls of its methods. -/
structure Chain where
  target : Target
  root : Place
  calls : List MethodCall

/-- The chain that ends at a place. -/
def Chain.at? (aliases : Aliases) (place : Place) : Option Chain :=
  let (calls, root) := callsFrom place.node.size place
  (targetOf? aliases root).map fun target => ⟨target, root, calls⟩

/-- The calls before the first one that leads to other elements. -/
def Chain.effective (chain : Chain) : List MethodCall :=
  chain.calls.takeWhile (·.role != .traversal)

/-- A call has nothing of its chain above it: it is not the object of another method call. -/
def isHead (place : Place) : Bool :=
  match place.parent? with
  | none => true
  | some member =>
      if member.kind != .memberExpression || place.field != some .object then true
      else
        match member.parent? with
        | none => true
        | some call => call.kind != .callExpression || member.field != some .function

/-- The chains of a tree, at the calls that have nothing of their chain above them. -/
def chainsIn (aliases : Aliases) (place : Place) : List (Place × Chain) :=
  place.walk.filterMap fun inner =>
    if inner.kind == .callExpression && isHead inner then
      (Chain.at? aliases inner).map fun chain => (inner, chain)
    else
      none

end Selection
end Hookify
