import Hookify.Component.Basic
import Hookify.Files.Path

namespace Hookify

/-!
# Copies of resources

The files that pages load are copied beside the components.  Pages in different
directories may load different files of the same name, which would end up at
the same place; the first one of them is copied, and the others are conflicts.
Paths are compared by their parts.
-/

/-- A file to be copied. -/
structure Copy where
  source : Path
  destination : Path
  deriving Repr, DecidableEq

/-- A file that is not copied, since another one has taken its place. -/
structure CopyConflict where
  destination : Path
  kept : Path
  skipped : Path
  deriving Repr, DecidableEq

/-- Which files to copy, and which conflicts there are. -/
structure CopyPlan where
  planned : List Copy := []
  conflicts : List CopyConflict := []
  deriving Repr, DecidableEq

namespace CopyPlan

/-- Add a copy to a plan. The same copy a second time changes nothing. -/
def add (plan : CopyPlan) (copy : Copy) : CopyPlan :=
  match plan.planned.find? (·.destination.same copy.destination) with
  | none => { plan with planned := plan.planned ++ [copy] }
  | some kept =>
      if kept.source.same copy.source then plan
      else
        { plan with
          conflicts := plan.conflicts ++ [⟨copy.destination, kept.source, copy.source⟩] }

/-- The plan for some copies, made in their order. -/
def of (copies : List Copy) : CopyPlan :=
  copies.foldl add {}

end CopyPlan

/-- The directory for scripts below the one for stylesheets. -/
def scriptsDirectory : Path := ⟨"utils"⟩

/-- Where a resource is copied to; a path without a file name cannot be copied. -/
def Resource.destination? (resource : Resource) (root : Path) : Option Path :=
  resource.path.fileName?.map fun name =>
    match resource.kind with
    | .stylesheet => root.join ⟨name⟩
    | .script => (root.join scriptsDirectory).join ⟨name⟩

end Hookify
