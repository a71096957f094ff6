import Hookify.Proofs.Files.Below
import Hookify.Proofs.Files.Writes

namespace Hookify

/-!
# The same action on two trees

One of two trees is ahead of the other: files have been written to some places,
and directories have been added.  An action whose paths keep clear of these
places ends in the same way on both trees, and leaves the one ahead of the other
as before.

Directories that have been added do make a difference where a path leaves one of
them by `..`: it can be followed on the tree that has the directory, but not on
the other.  So every directory that is left in this way has to be there already.
-/

open FileAction Hookify.Path

/-- A tree is ahead of another one: files have been written to some places, and some directories
have been added.  There is nothing under a temporary name in either tree. -/
structure Ahead (process : Nat) (others added : Location → Prop) (alone tree : FileTree) :
    Prop where
  root : alone.entryAt? [] = some .directory
  agree : ∀ place, ¬ others place → tree.entryAt? place = alone.entryAt? place ∨
    added place ∧ alone.entryAt? place = none ∧ tree.entryAt? place = some .directory
  visible : ∀ place, IsTemporary process place →
    alone.entryAt? place = none ∧ tree.entryAt? place = none

namespace Ahead

variable {process : Nat} {others added wider further : Location → Prop} {alone tree : FileTree}
  {location place : Location} {segments : List (List Char)}

theorem mono (ahead : Ahead process others added alone tree)
    (moreOthers : ∀ place, others place → wider place)
    (moreAdded : ∀ place, added place → further place) :
    Ahead process wider further alone tree where
  root := ahead.root
  agree := fun place free =>
    (ahead.agree place (mt (moreOthers place) free)).imp_right fun new =>
      ⟨moreAdded place new.1, new.2⟩
  visible := ahead.visible

theorem eq_of_some (ahead : Ahead process others added alone tree) (free : ¬ others place)
    (held : alone.entryAt? place ≠ none) : tree.entryAt? place = alone.entryAt? place :=
  (ahead.agree place free).resolve_right fun new => held new.2.1

theorem directory (ahead : Ahead process others added alone tree) (free : ¬ others place)
    (held : alone.entryAt? place = some .directory) :
    tree.entryAt? place = some .directory := by
  rw [ahead.eq_of_some free (by rw [held]; exact nofun), held]

theorem file_iff {contents : Contents} (ahead : Ahead process others added alone tree)
    (free : ¬ others place) :
    tree.entryAt? place = some (.file contents) ↔
      alone.entryAt? place = some (.file contents) := by
  rcases ahead.agree place free with same | ⟨-, nothing, new⟩
  · rw [same]
  · rw [nothing, new]
    exact ⟨nofun, nofun⟩

theorem contents?_eq (ahead : Ahead process others added alone tree) (free : ¬ others place) :
    tree.contents? place = alone.contents? place :=
  Option.ext fun _ => by
    rw [FileTree.contents?_eq_some, FileTree.contents?_eq_some, ahead.file_iff free]

end Ahead

/-! ## What lies behind a missing directory -/

namespace FileTree

variable {tree : FileTree} {next location place : Location} {segments rest : List (List Char)}

/-- If what is left by `..` is there, segments that have come past the last directory go down all
the way. -/
theorem trailFrom_descends (blocked : tree.entryAt? next ≠ some .directory)
    (isAbove : next <+: location)
    (left : ∀ station ∈ exitsFrom location segments, tree.entryAt? station = some .directory) :
    ∃ place, placeFrom? location segments = some place ∧
      ∀ station ∈ trailFrom location segments, location <+: station ∧ station <+: place := by
  induction segments generalizing location with
  | nil =>
      exact ⟨location, rfl, List.forall_mem_singleton.mpr ⟨List.prefix_refl _, List.prefix_refl _⟩⟩
  | cons segment rest ih =>
      have down : ∀ further, step? location segment = some further → location <+: further →
          ∃ place, placeFrom? location (segment :: rest) = some place ∧
            ∀ station ∈ trailFrom location (segment :: rest),
              location <+: station ∧ station <+: place := by
        intro further stepped deeper
        rw [exitsFrom_cons stepped, List.forall_mem_append] at left
        rcases ih (isAbove.trans deeper) left.2 with ⟨place, leads, between⟩
        rw [placeFrom?_cons, trailFrom_cons stepped, stepped]
        refine ⟨place, leads, List.forall_mem_cons.mpr ⟨⟨List.prefix_refl _, ?_⟩, ?_⟩⟩
        · exact deeper.trans (between further mem_trailFrom_self).2
        · exact fun station isStation =>
            ⟨deeper.trans (between station isStation).1, (between station isStation).2⟩
      rcases segment_cases segment with silent | rfl | plain
      · exact down location (step?_silent silent) (List.prefix_refl _)
      · -- The location itself is left by `..`, so it is a directory, and so is what is above it.
        have isDirectory := left location List.mem_cons_self
        by_cases same : next = location
        · exact absurd (same ▸ isDirectory) blocked
        · exact absurd (directory_above isAbove same (by rw [isDirectory]; exact nofun)) blocked
      · exact down _ (step?_plain plain) (List.prefix_append _ _)

/-- If there is something where segments lead to, all on the way are directories. -/
theorem stationsFrom_directories (enters : tree.entryAt? location = some .directory)
    (leads : placeFrom? location segments = some place) (held : tree.entryAt? place ≠ none)
    (left : ∀ station ∈ exitsFrom location segments, tree.entryAt? station = some .directory) :
    ∀ station ∈ stationsFrom location segments,
      tree.entryAt? station = some .directory ∨ station = place := by
  induction segments generalizing location with
  | nil => exact nofun
  | cons segment rest ih =>
      rw [placeFrom?_cons] at leads
      rcases Option.bind_eq_some_iff.mp leads with ⟨next, stepped, leads⟩
      rw [exitsFrom_cons stepped, List.forall_mem_append] at left
      rw [stationsFrom_cons stepped, List.forall_mem_cons]
      refine ⟨Or.inl enters, ?_⟩
      by_cases entersNext : tree.entryAt? next = some .directory
      · exact ih entersNext leads left.2
      · rcases trailFrom_descends entersNext (List.prefix_refl _) left.2 with
          ⟨_, leadsToo, between⟩
        rw [leads] at leadsToo
        cases leadsToo
        have isPlace : next = place := by
          by_contra different
          exact entersNext
            (directory_above (between next mem_trailFrom_self).2 different held)
        intro station isStation
        right
        have inside := between station (mem_trailFrom_of_mem_stationsFrom isStation)
        rw [isPlace] at inside
        exact inside.2.eq_of_length_le inside.1.length_le

end FileTree

namespace Ahead

variable {process : Nat} {others added : Location → Prop} {alone tree : FileTree}
  {location place : Location} {segments : List (List Char)}

/-- To add directories goes wrong on both trees in the same way, before any has been added, or on
neither. -/
theorem createFrom (ahead : Ahead process others added alone tree)
    (enters : alone.entryAt? location = some .directory)
    (clear : ∀ station ∈ trailFrom location segments, ¬ others station)
    (left : ∀ station ∈ exitsFrom location segments, alone.entryAt? station = some .directory) :
    (∃ error, FileTree.createFrom false location segments alone = (some error, alone) ∧
      FileTree.createFrom false location segments tree = (some error, tree)) ∨
    (FileTree.createFrom false location segments alone).1 = none ∧
      (FileTree.createFrom false location segments tree).1 = none := by
  induction segments generalizing location with
  | nil => exact Or.inr ⟨rfl, rfl⟩
  | cons segment rest ih =>
      have entersTree := ahead.directory (clear location mem_trailFrom_self) enters
      rcases FileTree.createFrom_cases enters segment with
        top | ⟨next, stepped, held | ⟨plain, leads, nothing | ⟨contents, held⟩⟩⟩
      · exact Or.inl ⟨.missing, FileTree.createFrom_top top, FileTree.createFrom_top top⟩
      · rw [trailFrom_cons stepped, List.forall_mem_cons] at clear
        rw [exitsFrom_cons stepped, List.forall_mem_append] at left
        have heldTree := ahead.directory (clear.2 next mem_trailFrom_self) held
        rw [FileTree.createFrom_enter stepped held, FileTree.createFrom_enter stepped heldTree]
        exact ih held clear.2 left.2
      · -- Below the first missing directory there is nothing, or directories in the other tree.
        right
        have blocked : alone.entryAt? next ≠ some .directory := by rw [nothing]; exact nofun
        have clearBelow := clear
        rw [trailFrom_cons stepped, List.forall_mem_cons] at clearBelow
        rw [exitsFrom_cons stepped, List.forall_mem_append] at left
        rcases FileTree.trailFrom_descends blocked (List.prefix_refl _) left.2 with
          ⟨place, leadsTo, between⟩
        have known : (placeFrom? location (segment :: rest)).isSome := by
          rw [placeFrom?_cons, stepped, Option.bind_some, leadsTo]
          rfl
        have free : ∀ station ∈ trailFrom location (segment :: rest), ∀ contents,
            alone.entryAt? station ≠ some (.file contents) := by
          rw [trailFrom_cons stepped, List.forall_mem_cons]
          refine ⟨fun _ => by rw [enters]; exact nofun, fun station isStation contents held => ?_⟩
          have isBelow := (between station isStation).1
          by_cases same : next = station
          · rw [← same, nothing] at held
            cases held
          · exact blocked (FileTree.directory_above isBelow same (by rw [held]; exact nofun))
        exact ⟨FileTree.createFrom_eq_none enters known free,
          FileTree.createFrom_eq_none entersTree known fun station isStation contents =>
            mt (ahead.file_iff (clear station isStation)).mp (free station isStation contents)⟩
      · rw [trailFrom_cons stepped, List.forall_mem_cons] at clear
        have heldTree := (ahead.file_iff (clear.2 next mem_trailFrom_self)).mpr held
        rw [leads] at held heldTree
        exact Or.inl ⟨.notDirectory, FileTree.createFrom_file plain held,
          FileTree.createFrom_file plain heldTree⟩

theorem congr {alone' tree' : FileTree} (ahead : Ahead process others added alone tree)
    (sameAlone : alone'.entryAt? = alone.entryAt?) (sameTree : tree'.entryAt? = tree.entryAt?) :
    Ahead process others added alone' tree' where
  root := by rw [sameAlone, ahead.root]
  agree := by
    rw [sameAlone, sameTree]
    exact ahead.agree
  visible := by
    rw [sameAlone, sameTree]
    exact ahead.visible

/-- The same file is written in both trees. -/
theorem update {alone' tree' : FileTree} {entry : FileTree.Entry}
    (ahead : Ahead process others added alone tree) (notRoot : place ≠ [])
    (visible : ¬ IsTemporary process place)
    (writtenAlone : alone'.entryAt? = Function.update alone.entryAt? place (some entry))
    (written : tree'.entryAt? = Function.update tree.entryAt? place (some entry)) :
    Ahead process others added alone' tree' where
  root := by rw [writtenAlone, Function.update_of_ne notRoot.symm, ahead.root]
  agree := by
    intro other free
    rw [writtenAlone, written]
    by_cases here : other = place
    · rw [here, Function.update_self, Function.update_self]
      exact Or.inl rfl
    · rw [Function.update_of_ne here, Function.update_of_ne here]
      exact ahead.agree other free
  visible := by
    intro other isTemporary
    have elsewhere : other ≠ place := by
      rintro rfl
      exact visible isTemporary
    rw [writtenAlone, written, Function.update_of_ne elsewhere, Function.update_of_ne elsewhere]
    exact ahead.visible other isTemporary

theorem of_directories {region : List Location} {alone' tree' : FileTree}
    (ahead : Ahead process others added alone tree)
    (grownAlone : FileTree.GrownIn region alone alone')
    (grownTree : FileTree.GrownIn region tree tree')
    (there : ∀ place ∈ region,
      alone'.entryAt? place = some .directory ∧ tree'.entryAt? place = some .directory)
    (visible : ∀ place ∈ region, ¬ IsTemporary process place) :
    Ahead process others added alone' tree' where
  root := grownAlone.directory ahead.root
  agree := by
    intro place free
    by_cases inside : place ∈ region
    · left
      rw [(there place inside).1, (there place inside).2]
    · rw [(grownAlone place).resolve_right fun new => inside new.1,
        (grownTree place).resolve_right fun new => inside new.1]
      exact ahead.agree place free
  visible := by
    intro place isTemporary
    rw [(grownAlone place).resolve_right fun new => visible place new.1 isTemporary,
      (grownTree place).resolve_right fun new => visible place new.1 isTemporary]
    exact ahead.visible place isTemporary

/-- A file that is there on the tree that is ahead is there on the other one as well. -/
theorem follow_file {path : Path} {contents : Contents}
    (ahead : Ahead process others added alone tree) (clear : ∀ place ∈ path.trail, ¬ others place)
    (left : ∀ station ∈ path.exits, alone.entryAt? station = some .directory)
    (followed : tree.follow path = .ok place)
    (found : tree.entryAt? place = some (.file contents)) :
    alone.follow path = .ok place ∧ alone.entryAt? place = some (.file contents) := by
  rcases FileTree.follow_eq_ok.mp followed with ⟨leads, directories⟩
  have free : ¬ others place :=
    clear place (List.mem_append_right _ (Option.mem_toList.mpr leads))
  have foundAlone := (ahead.file_iff free).mp found
  refine ⟨FileTree.follow_eq_ok.mpr ⟨leads, fun station isStation => ?_⟩, foundAlone⟩
  refine (FileTree.stationsFrom_directories ahead.root (placeFrom?_of_place? leads)
    (by rw [foundAlone]; exact nofun) left station isStation).resolve_right ?_
  rintro rfl
  rw [directories station isStation] at found
  cases found

/-- What is there on the tree that is ahead is there on the other one as well, or it is a directory
to which nothing is in the way. -/
theorem holds_or_directories {path : Path} (ahead : Ahead process others added alone tree)
    (clear : ∀ station ∈ trailFrom [] path.segments.names, ¬ others station)
    (left : ∀ station ∈ path.exits, alone.entryAt? station = some .directory)
    (held : tree.holds path = true) :
    alone.holds path = true ∨
      (placeFrom? [] path.segments.names).isSome ∧
        ∀ station ∈ trailFrom [] path.segments.names, tree.entryAt? station = some .directory := by
  rcases FileTree.holds_iff.mp held with ⟨place, followed, some_entry⟩
  rcases FileTree.follow_eq_ok.mp followed with ⟨leads, directories⟩
  rcases found : tree.entryAt? place with _ | contents | _
  · exact absurd found some_entry
  · left
    have clearTrail : ∀ place ∈ path.trail, ¬ others place :=
      fun place inside => clear place (trail_subset path inside)
    rcases ahead.follow_file clearTrail left followed found with ⟨followedAlone, foundAlone⟩
    exact FileTree.holds_iff.mpr ⟨place, followedAlone, by rw [foundAlone]; exact nofun⟩
  · right
    refine ⟨by rw [placeFrom?_of_place? leads]; rfl, ?_⟩
    rw [trailFrom_of_place? leads]
    exact List.forall_mem_append.mpr ⟨directories, List.forall_mem_singleton.mpr found⟩

end Ahead

section Actions

variable {process : Nat} {others added : Location → Prop} {path : Path} {session other : Session}

theorem ensureDirectory_held (ahead : Ahead process others added session.tree other.tree)
    (free : ∀ station ∈ trailFrom [] path.segments.names, ¬ others station)
    (held : session.tree.holds path = true) :
    (ensureDirectory path).run other = .ok () other ∧
      ∀ station ∈ trailFrom [] path.segments.names,
        other.tree.entryAt? station = session.tree.entryAt? station := by
  rcases FileTree.holds_iff.mp held with ⟨place, followed, some_entry⟩
  rcases FileTree.follow_eq_ok.mp followed with ⟨leads, directories⟩
  have trail := trailFrom_of_place? leads
  rw [trail] at free
  have same : ∀ station ∈ trailFrom [] path.segments.names,
      other.tree.entryAt? station = session.tree.entryAt? station := by
    rw [trail]
    intro station isStation
    refine ahead.eq_of_some (free station isStation) ?_
    rcases List.mem_append.mp isStation with isStation | isPlace
    · rw [directories station isStation]
      exact nofun
    · rwa [List.mem_singleton.mp isPlace]
  have heldOther : other.tree.holds path = true := by
    refine FileTree.holds_iff.mpr ⟨place, FileTree.follow_eq_ok.mpr ⟨leads, ?_⟩, ?_⟩
    · intro station isStation
      rw [same station (trail ▸ List.mem_append_left _ isStation), directories station isStation]
    · rwa [same place (trail ▸ List.mem_append_right _ (List.mem_singleton_self _))]
  exact ⟨by rw [run_ensureDirectory, if_pos heldOther], same⟩

theorem ensureDirectory_stuck (ahead : Ahead process others added session.tree other.tree)
    (free : ∀ station ∈ trailFrom [] path.segments.names, ¬ others station)
    (left : ∀ station ∈ path.exits, session.tree.entryAt? station = some .directory)
    (held : ¬ session.tree.holds path = true) (relative : ¬ path.isAbsolute = true)
    {error : FileError}
    (failed : (FileTree.createFrom false [] path.segments.names session.tree).1 = some error) :
    (ensureDirectory path).run other = .error ⟨path, error⟩ other := by
  have stuck : FileTree.createFrom false [] path.segments.names other.tree =
      (some error, other.tree) := by
    rcases ahead.createFrom ahead.root free left with ⟨_, stuckAlone, stuck⟩ | none
    · rw [stuckAlone] at failed
      cases failed
      exact stuck
    · rw [none.1] at failed
      cases failed
  have heldOther : ¬ other.tree.holds path = true := by
    intro heldOther
    rcases (ahead.holds_or_directories free left heldOther).resolve_left held with ⟨known, there⟩
    have done : (FileTree.createFrom false [] path.segments.names other.tree).1 = none :=
      FileTree.createFrom_eq_none (ahead.directory (free [] mem_trailFrom_self) ahead.root) known
        (fun station isStation contents => by rw [there station isStation]; exact nofun)
    rw [stuck] at done
    cases done
  rw [run_ensureDirectory, if_neg heldOther, if_neg relative, stuck]

theorem ensureDirectory_added (ahead : Ahead process others added session.tree other.tree)
    (free : ∀ station ∈ trailFrom [] path.segments.names, ¬ others station)
    (left : ∀ station ∈ path.exits, session.tree.entryAt? station = some .directory)
    (held : ¬ session.tree.holds path = true) (relative : ¬ path.isAbsolute = true)
    (made : (FileTree.createFrom false [] path.segments.names session.tree).1 = none) :
    ∃ done, (ensureDirectory path).run other = .ok () done ∧
      FileTree.GrownIn (trailFrom [] path.segments.names) other.tree done.tree ∧
      ∀ station ∈ trailFrom [] path.segments.names,
        done.tree.entryAt? station = some .directory := by
  by_cases heldOther : other.tree.holds path = true
  · have there := (ahead.holds_or_directories free left heldOther).resolve_left held
    exact ⟨other, by rw [run_ensureDirectory, if_pos heldOther], FileTree.GrownIn.refl _ _,
      there.2⟩
  · have root := ahead.directory (free [] mem_trailFrom_self) ahead.root
    have done : (FileTree.createFrom false [] path.segments.names other.tree).1 = none := by
      rcases ahead.createFrom ahead.root free left with ⟨error, stuck, -⟩ | none
      · rw [stuck] at made
        cases made
      · exact none.2
    refine ⟨⟨(FileTree.createFrom false [] path.segments.names other.tree).2, other.process,
      other.named⟩, ?_, FileTree.createFrom_grown _ _ root,
      (FileTree.createFrom_directories root done).2⟩
    rw [run_ensureDirectory, if_neg heldOther, if_neg relative]
    rcases created : FileTree.createFrom false [] path.segments.names other.tree with
      ⟨failure, grown⟩
    rw [created] at done
    cases done
    rfl

/-- A directory is prepared on all trees that are ahead in the same way, and where it is to be there
is the same on all of them then. -/
theorem ensureDirectory_ahead
    (alone : Ahead process others added session.tree session.tree)
    (clear : ∀ station ∈ trailFrom [] path.segments.names,
      ¬ others station ∧ ¬ IsTemporary process station)
    (left : ∀ station ∈ path.exits, session.tree.entryAt? station = some .directory) :
    (∃ failure, ∀ other : Session, Ahead process others added session.tree other.tree →
      (ensureDirectory path).run other = .error failure other) ∨
    ∀ other : Session, Ahead process others added session.tree other.tree →
      ∃ done, (ensureDirectory path).run other = .ok () done ∧
        Ahead process others added (after (ensureDirectory path) session).tree done.tree ∧
        ∀ station ∈ trailFrom [] path.segments.names, done.tree.entryAt? station =
          (after (ensureDirectory path) session).tree.entryAt? station := by
  have free : ∀ station ∈ trailFrom [] path.segments.names, ¬ others station :=
    fun station isStation => (clear station isStation).1
  by_cases held : session.tree.holds path = true
  · right
    intro other ahead
    rcases ensureDirectory_held ahead free held with ⟨ran, same⟩
    rw [after_ok (ensureDirectory_held alone free held).1]
    exact ⟨other, ran, ahead, same⟩
  by_cases rooted : path.isAbsolute = true
  · left
    refine ⟨⟨path, .missing⟩, fun other _ => ?_⟩
    have heldOther : ¬ other.tree.holds path = true := by
      intro heldOther
      rcases FileTree.holds_iff.mp heldOther with ⟨place, followed, -⟩
      have leads := (FileTree.follow_eq_ok.mp followed).1
      rw [place?, rooted, Bool.or_true, if_pos rfl] at leads
      cases leads
    rw [run_ensureDirectory, if_neg heldOther, if_pos rooted]
  cases made : (FileTree.createFrom false [] path.segments.names session.tree).1 with
  | some error =>
      exact Or.inl ⟨⟨path, error⟩, fun other ahead =>
        ensureDirectory_stuck ahead free left held rooted made⟩
  | none =>
      right
      intro other ahead
      rcases ensureDirectory_added alone free left held rooted made with
        ⟨grown, ranAlone, grownAlone, directories⟩
      rcases ensureDirectory_added ahead free left held rooted made with
        ⟨done, ran, grownOther, there⟩
      rw [after_ok ranAlone]
      refine ⟨done, ran, ahead.of_directories grownAlone grownOther (fun station isStation =>
        ⟨directories station isStation, there station isStation⟩)
        (fun station isStation => (clear station isStation).2), fun station isStation => ?_⟩
      rw [directories station isStation, there station isStation]

theorem prepare_eq {path parent : Path} (isParent : path.parent? = some parent) :
    prepare path = if parent.text.isEmpty then pure () else ensureDirectory parent := by
  rw [prepare, isParent]

variable {before : List (List Char)} {last : List Char}

/-- The directory for a file is prepared on all trees that are ahead in the same way, and all that
the path of the file comes past is the same on all of them then. -/
theorem prepare_ahead (alone : Ahead process others added session.tree session.tree)
    (named : path.segments = ⟨false, before ++ [last]⟩)
    (plain : IsPlain last)
    (clear : ∀ station ∈ path.stations, ¬ others station ∧ ¬ IsTemporary process station)
    (left : ∀ station ∈ path.exits, session.tree.entryAt? station = some .directory) :
    (∃ failure, ∀ other : Session, Ahead process others added session.tree other.tree →
      (prepare path).run other = .error failure other) ∨
    ∀ other : Session, Ahead process others added session.tree other.tree →
      ∃ done, (prepare path).run other = .ok () done ∧
        Ahead process others added (after (prepare path) session).tree done.tree ∧
        ∀ station ∈ path.stations, done.tree.entryAt? station =
          (after (prepare path) session).tree.entryAt? station := by
  rcases parent?_spec named plain with ⟨parent, isParent, stations, exits, top⟩
  rw [prepare_eq isParent]
  by_cases empty : parent.text.isEmpty = true
  · right
    intro other ahead
    rw [if_pos empty]
    refine ⟨other, rfl, ahead, fun station isStation => ?_⟩
    have free := (clear station isStation).1
    rw [top empty station isStation] at free ⊢
    exact ahead.eq_of_some free (by rw [ahead.root]; exact nofun)
  · rw [if_neg empty]
    rcases ensureDirectory_ahead alone
      (fun station isStation => clear station ((stations station).mp isStation))
      (fun station isExit => left station (exits isExit)) with stuck | prepared
    · exact Or.inl stuck
    · right
      intro other ahead
      rcases prepared other ahead with ⟨done, ran, aheadDone, same⟩
      exact ⟨done, ran, aheadDone, fun station isStation =>
        same station ((stations station).mpr isStation)⟩

/-- Where a file is put under a temporary name. -/
theorem locationForFile_hidden {tree : FileTree} (number : Nat)
    (named : path.segments = ⟨false, before ++ [last]⟩) (plain : IsPlain last)
    (visible : ∀ place, IsTemporary process place → tree.entryAt? place = none) :
    ∃ name, tree.locationForFile (hiddenPath process number path) =
      (tree.followFrom [] (trimmed false before)).bind fun parent =>
        (tree.checkDirectory parent).bind fun _ => .ok (parent ++ [name]) := by
  have free := slash_not_mem_temporaryName process number path.slash_not_mem_fileName
  have segments := withFileName_segments named plain free
  have long : 4 ≤ (temporaryName process number (path.fileName?.getD "")).toList.length := by
    have ending : ".tmp".toList.length = 4 := rfl
    rw [temporaryName, String.toList_append, List.length_append, ending]
    omega
  generalize isName : temporaryName process number (path.fileName?.getD "") = name at segments long
  have written : name.toList ≠ [] := by
    intro nothing
    rw [nothing] at long
    cases long
  have dots : (name.toList == ['.'] || name.toList == ['.', '.']) = false := by
    rw [Bool.or_eq_false_iff, beq_eq_false_iff_ne, beq_eq_false_iff_ne]
    constructor <;> intro same <;> rw [same] at long <;> exact absurd long (by decide)
  refine ⟨name, ?_⟩
  rw [hiddenPath, isName, FileTree.locationForFile_eq (known_of_segments segments written)
    (congrArg Segments.names segments), if_neg (by simpa using written), dots]
  cases tree.followFrom [] (trimmed false before) with
  | error error => rfl
  | ok parent =>
      have nothing := visible (parent ++ [name])
        ⟨parent, number, path.fileName?.getD "", by rw [isName]⟩
      simp [Except.bind, nothing]

/-- Whether a file can be put under a temporary name depends on what its path comes past. -/
theorem locationForFile_hidden_congr {tree other : FileTree} {error : FileError}
    (first second : Nat) (named : path.segments = ⟨false, before ++ [last]⟩) (plain : IsPlain last)
    (same : ∀ station ∈ path.stations, tree.entryAt? station = other.entryAt? station)
    (visible : ∀ place, IsTemporary process place →
      tree.entryAt? place = none ∧ other.entryAt? place = none)
    (stuck : tree.locationForFile (hiddenPath process first path) = .error error) :
    other.locationForFile (hiddenPath process second path) = .error error := by
  rcases trimmed_spec false before with ⟨silent, split, allSilent⟩
  have sameTrail : ∀ station ∈ trailFrom [] (trimmed false before),
      tree.entryAt? station = other.entryAt? station := by
    intro station isStation
    refine same station ?_
    rw [stations, named, stationsFrom_concat, split]
    exact (mem_trailFrom_silent allSilent).mpr isStation
  rcases locationForFile_hidden first named plain fun place isTemporary =>
    (visible place isTemporary).1 with ⟨name, located⟩
  rcases locationForFile_hidden second named plain fun place isTemporary =>
    (visible place isTemporary).2 with ⟨nameToo, locatedToo⟩
  rw [located] at stuck
  rw [locatedToo, ← FileTree.followFrom_congr fun station isStation =>
    sameTrail station (mem_trailFrom_of_mem_stationsFrom isStation)]
  cases followed : tree.followFrom [] (trimmed false before) with
  | error error =>
      rw [followed] at stuck
      exact stuck
  | ok parent =>
      rw [followed, Except.bind] at stuck
      have leads := (FileTree.followFrom_eq_ok.mp followed).1
      rw [Except.bind,
        ← FileTree.checkDirectory_congr (sameTrail parent (mem_trailFrom_place leads))]
      cases checked : tree.checkDirectory parent with
      | error error =>
          rw [checked] at stuck
          exact stuck
      | ok _ =>
          rw [checked] at stuck
          cases stuck

end Actions

/-! ## Actions that end in the same way -/

/-- What goes wrong with a file.  A temporary name is given but for its number. -/
inductive Trouble where
  | known (failure : FileFailure)
  | hidden (path : Path) (error : FileError)

/-- The failure that tells of a trouble. -/
def Trouble.failure (process number : Nat) : Trouble → FileFailure
  | .known failure => failure
  | .hidden path error => ⟨hiddenPath process number path, error⟩

/-- How an action ends, but for the number of a temporary name. -/
inductive Ends {Result : Type} (process : Nat) :
    EStateM.Result FileFailure Session Result → Except Trouble Result → Session → Prop where
  | ok (result : Result) (done : Session) : Ends process (.ok result done) (.ok result) done
  | error (trouble : Trouble) (number : Nat) (done : Session) :
      Ends process (.error (trouble.failure process number) done) (.error trouble) done

/-- An action ends in the same way on all trees that are ahead, and leaves them ahead. -/
def Steady {Result : Type} (process : Nat) (others added : Location → Prop)
    (action : FileAction Result) (session : Session) : Prop :=
  ∃ outcome, ∀ other : Session, other.process = process →
    Ahead process others added session.tree other.tree →
    ∃ done, Ends process (action.run other) outcome done ∧ done.process = process ∧
      Ahead process others added (after action session).tree done.tree

/-- Where a write puts its file once the directory has been prepared, or what goes wrong. -/
def putAt (process : Nat) (path : Path) (session : Session) : Except Trouble Location :=
  match session.tree.locationForFile (hiddenPath process session.named path) with
  | .error error => .error (.hidden path error)
  | .ok _ =>
      match session.tree.locationForFile path with
      | .error error => .error (.known ⟨path, error⟩)
      | .ok place => .ok place

/-- A path at which a file can be written whatever others do: it keeps clear of the places that they
write to, and they add no directory where it leads. -/
structure Writable (process : Nat) (others added : Location → Prop) (tree : FileTree)
    (path : Path) : Prop where
  named : ∃ before last, path.segments = ⟨false, before ++ [last]⟩ ∧ IsPlain last
  clear : ∀ place ∈ path.trail, ¬ others place ∧ ¬ IsTemporary process place
  own : ∀ place, path.place? = some place → ¬ added place
  left : ∀ station ∈ path.exits, tree.entryAt? station = some .directory

section Writing

variable {process : Nat} {others added : Location → Prop} {path : Path} {session : Session}

theorem Ends.of_ok {Result : Type} {ran : EStateM.Result FileFailure Session Result}
    {result : Result} {done : Session} (ends : Ends process ran (.ok result) done) :
    ran = .ok result done := by
  cases ends
  rfl

theorem Ends.of_error {Result : Type} {ran : EStateM.Result FileFailure Session Result}
    {trouble : Trouble} {done : Session} (ends : Ends process ran (.error trouble) done) :
    ∃ number, ran = .error (trouble.failure process number) done := by
  cases ends with
  | error _ number _ => exact ⟨number, rfl⟩

theorem Ends.after_eq {Result : Type} {action : FileAction Result}
    {outcome : Except Trouble Result} {done : Session}
    (ends : Ends process (action.run session) outcome done) : after action session = done := by
  cases outcome with
  | ok result => exact after_ok ends.of_ok
  | error trouble =>
      rcases ends.of_error with ⟨number, ran⟩
      exact after_error ran

theorem locationForFile_of_putAt {place : Location} (put : putAt process path session = .ok place) :
    session.tree.locationForFile path = .ok place := by
  rw [putAt] at put
  split at put
  · cases put
  · split at put
    · cases put
    case h_2 other located =>
      cases put
      exact located

theorem putAt_congr {first second : Session} {before : List (List Char)} {last : List Char}
    (named : path.segments = ⟨false, before ++ [last]⟩) (plain : IsPlain last)
    (same : ∀ place ∈ path.trail, first.tree.entryAt? place = second.tree.entryAt? place)
    (visible : ∀ place, IsTemporary process place →
      first.tree.entryAt? place = none ∧ second.tree.entryAt? place = none) :
    putAt process path first = putAt process path second := by
  have stations : ∀ station ∈ path.stations,
      first.tree.entryAt? station = second.tree.entryAt? station :=
    fun station isStation => same station (List.mem_append_left _ isStation)
  rw [putAt, putAt, FileTree.locationForFile_congr same]
  cases hidden : first.tree.locationForFile (hiddenPath process first.named path) with
  | error error =>
      rw [locationForFile_hidden_congr first.named second.named named plain stations visible hidden]
  | ok under =>
      cases hiddenToo : second.tree.locationForFile (hiddenPath process second.named path) with
      | ok _ => rfl
      | error error =>
          rw [locationForFile_hidden_congr second.named first.named named plain
            (fun station isStation => (stations station isStation).symm)
            (fun place isTemporary => (visible place isTemporary).symm) hiddenToo] at hidden
          cases hidden

/-- How a write ends once its directory has been prepared, if there is nothing under a temporary
name. -/
theorem run_write_prepared (contents : Contents) {grown : Session}
    (isProcess : grown.process = process) (prepared : (prepare path).run session = .ok () grown)
    (visible : ∀ place, IsTemporary process place → grown.tree.entryAt? place = none)
    (clear : ∀ place ∈ path.trail, ¬ IsTemporary process place) :
    ∃ done, Ends process ((write path contents).run session)
        ((putAt process path grown).map fun _ => ()) done ∧
      done.process = process ∧ done.tree.entryAt? =
        match putAt process path grown with
        | .ok place => Function.update grown.tree.entryAt? place (some (.file contents))
        | .error _ => grown.tree.entryAt? := by
  subst isProcess
  rcases write_cases path contents session with
    ⟨failure, stuck, preparedToo, -⟩ | ⟨same, preparedToo, rest⟩
  · rw [prepared] at preparedToo
    cases preparedToo
  rw [prepared] at preparedToo
  cases preparedToo
  rcases rest with ⟨error, stuck, ran⟩ | ⟨under, free, rest⟩
  · rw [ran, putAt, stuck]
    exact ⟨_, .error (.hidden path error) grown.named _, rfl, rfl⟩
  have isTemporary := isTemporary_of_hiddenPath free
  have still := locationForFile_put contents free
  have filled := entryAt?_put_of_locationForFile contents free
  have erased : ((FileTree.put (.file contents) under grown.tree).erase under).entryAt? =
      grown.tree.entryAt? := by
    rw [entryAt?_erase_of_locationForFile still, filled, Function.update_idem,
      Function.update_eq_self_iff, visible under isTemporary]
  have same : (FileTree.put (.file contents) under grown.tree).locationForFile path =
      grown.tree.locationForFile path := by
    refine FileTree.locationForFile_congr fun location inside => ?_
    rw [filled, Function.update_of_ne]
    rintro rfl
    exact clear location inside isTemporary
  rcases rest with ⟨error, stuck, ran⟩ | ⟨place, target, ran⟩
  · rw [ran, putAt, free, ← same, stuck]
    exact ⟨_, .error (.known ⟨path, error⟩) 0 _, rfl, erased⟩
  · have put := entryAt?_put_of_locationForFile contents (locationForFile_erase target still)
    rw [erased] at put
    rw [ran, putAt, free, ← same, target]
    exact ⟨_, .ok () _, rfl, put⟩

/-- A file is written in the same way on all trees that are ahead. -/
theorem steady_write (contents : Contents) (isProcess : session.process = process)
    (alone : Ahead process others added session.tree session.tree)
    (writable : Writable process others added session.tree path) :
    Steady process others added (write path contents) session := by
  rcases writable with ⟨⟨before, last, named, plain⟩, clear, own, left⟩
  have clearStations : ∀ station ∈ path.stations,
      ¬ others station ∧ ¬ IsTemporary process station := fun station isStation => clear station (List.mem_append_left _ isStation)
  rcases prepare_ahead alone named plain clearStations left with ⟨failure, stuck⟩ | prepared
  · have ran : ∀ other : Session, Ahead process others added session.tree other.tree →
        (write path contents).run other = .error failure other := by
      intro other ahead
      rw [write_eq]
      exact run_bind_error (stuck other ahead)
    refine ⟨.error (.known failure), fun other isProcess ahead => ⟨other, ?_, isProcess, ?_⟩⟩
    · rw [ran other ahead]
      exact .error (.known failure) 0 other
    · rwa [after_error (ran session alone)]
  rcases prepared session alone with ⟨grown, ranGrown, aheadGrown, -⟩
  have isGrown := after_ok ranGrown
  rw [isGrown] at prepared aheadGrown
  have onOther : ∀ other : Session, other.process = process →
      Ahead process others added session.tree other.tree → ∃ further done : Session,
        (prepare path).run other = .ok () further ∧
        Ends process ((write path contents).run other)
          ((putAt process path grown).map fun _ => ()) done ∧
        done.process = process ∧ Ahead process others added grown.tree further.tree ∧
        done.tree.entryAt? = match putAt process path grown with
          | .ok place => Function.update further.tree.entryAt? place (some (.file contents))
          | .error _ => further.tree.entryAt? := by
    intro other isProcess ahead
    rcases prepared other ahead with ⟨further, ran, aheadFurther, stations⟩
    have grows := grows_prepare path other
    rw [after_ok ran] at grows
    have same : ∀ place ∈ path.trail, further.tree.entryAt? place = grown.tree.entryAt? place := by
      intro place inside
      rcases List.mem_append.mp inside with isStation | isPlace
      · exact stations place isStation
      · exact (aheadFurther.agree place (clear place inside).1).resolve_right fun new =>
          own place (Option.mem_toList.mp isPlace) new.1
    rcases run_write_prepared contents (grows.process.trans isProcess) ran
      (fun place isTemporary => (aheadFurther.visible place isTemporary).2)
      (fun place inside => (clear place inside).2) with ⟨done, ends, isProcessDone, entries⟩
    rw [putAt_congr named plain same fun place isTemporary =>
      (aheadFurther.visible place isTemporary).symm] at ends entries
    exact ⟨further, done, ran, ends, isProcessDone, aheadFurther, entries⟩
  rcases onOther session isProcess alone with ⟨_, end', ranToo, ends', -, -, entries'⟩
  rw [ranGrown] at ranToo
  cases ranToo
  refine ⟨(putAt process path grown).map fun _ => (), fun other isProcess ahead => ?_⟩
  rcases onOther other isProcess ahead with
    ⟨further, done, -, ends, isProcessDone, aheadFurther, entries⟩
  refine ⟨done, ends, isProcessDone, ?_⟩
  rw [ends'.after_eq]
  cases put : putAt process path grown with
  | error trouble =>
      rw [put] at entries entries'
      exact aheadFurther.congr entries' entries
  | ok place =>
      rw [put] at entries entries'
      have target := locationForFile_of_putAt put
      have isPlace : place ∈ path.trail := List.mem_append_right _
        (Option.mem_toList.mpr (FileTree.place?_of_locationForFile target).1)
      have notRoot : place ≠ [] := by
        rcases FileTree.locationForFile_eq_ok.mp target with ⟨_, _, _, -, -, -, -, -, rfl, -⟩
        simp
      exact aheadFurther.update notRoot (clear place isPlace).2 entries' entries

/-- Directories stay when a file is written. -/
theorem write_directory (path : Path) (contents : Contents) (session : Session) {place : Location}
    (held : session.tree.entryAt? place = some .directory) :
    (after (write path contents) session).tree.entryAt? place = some .directory := by
  have grows := grows_prepare path session
  rcases write_cases path contents session with
    ⟨failure, grown, prepared, ran⟩ | ⟨grown, prepared, ⟨error, -, ran⟩ | ⟨under, free, rest⟩⟩
  · rw [after_error prepared] at grows
    rw [after_error ran]
    exact grows.tree.directory held
  · rw [after_ok prepared] at grows
    rw [after_error ran]
    exact grows.tree.directory held
  · rw [after_ok prepared] at grows
    have heldGrown := grows.tree.directory held
    have still := locationForFile_put contents free
    have erased : ((FileTree.put (.file contents) under grown.tree).erase under).entryAt? place =
        some .directory := by
      rw [entryAt?_erase_of_locationForFile still, entryAt?_put_of_locationForFile contents free,
        Function.update_idem, Function.update_of_ne (ne_of_locationForFile free heldGrown),
        heldGrown]
    rcases rest with ⟨error, -, ran⟩ | ⟨target, isTarget, ran⟩
    · rw [after_error ran]
      exact erased
    · have isTargetStill := locationForFile_erase isTarget still
      rw [after_ok ran, entryAt?_put_of_locationForFile contents isTargetStill,
        Function.update_of_ne (ne_of_locationForFile isTargetStill erased), erased]

/-- Actions that are carried out one after the other end in the same way if each of them does. -/
theorem steady_bind {First Second : Type} {action : FileAction First}
    {next : First → FileAction Second} (isProcess : session.process = process)
    (alone : Ahead process others added session.tree session.tree)
    (first : Steady process others added action session)
    (rest : ∀ result done, action.run session = .ok result done → done.process = process →
      Ahead process others added done.tree done.tree →
      Steady process others added (next result) done) :
    Steady process others added (action >>= next) session := by
  rcases first with ⟨outcome, ends⟩
  rcases ends session isProcess alone with ⟨done, endsAlone, isProcessDone, aheadDone⟩
  cases outcome with
  | error trouble =>
      rcases endsAlone.of_error with ⟨number, ran⟩
      rw [after_error ran] at ends
      refine ⟨.error trouble, fun other isProcess ahead => ?_⟩
      rcases ends other isProcess ahead with ⟨further, endsOther, isProcessOther, aheadOther⟩
      rcases endsOther.of_error with ⟨numberOther, ranOther⟩
      rw [run_bind_error ranOther, after_bind_error ran]
      exact ⟨further, .error trouble numberOther further, isProcessOther, aheadOther⟩
  | ok result =>
      have ran := endsAlone.of_ok
      rw [after_ok ran] at ends aheadDone
      rcases rest result done ran isProcessDone aheadDone with ⟨outcome, endsNext⟩
      refine ⟨outcome, fun other isProcess ahead => ?_⟩
      rcases ends other isProcess ahead with ⟨further, endsOther, isProcessOther, aheadOther⟩
      rw [run_bind_ok endsOther.of_ok, after_bind_ok ran]
      exact endsNext further isProcessOther aheadOther

end Writing

/-! ## Reading -/

section Reading

variable {process : Nat} {others added : Location → Prop} {alone tree : FileTree} {path : Path}
  {place : Location} {contents : Contents}

/-- A file that is there is there on the tree that is ahead. -/
theorem Ahead.get_file (ahead : Ahead process others added alone tree)
    (clear : ∀ place ∈ path.trail, ¬ others place) (followed : alone.follow path = .ok place)
    (held : alone.entryAt? place = some (.file contents)) :
    tree.get path = .ok (.file contents) := by
  rcases FileTree.follow_eq_ok.mp followed with ⟨leads, directories⟩
  have free : ¬ others place :=
    clear place (List.mem_append_right _ (Option.mem_toList.mpr leads))
  refine FileTree.get_eq_ok.mpr ⟨place, FileTree.follow_eq_ok.mpr ⟨leads, ?_⟩,
    FileTree.find?_eq_file.mpr ((ahead.file_iff free).mpr held)⟩
  exact fun station isStation => ahead.directory (clear station (List.mem_append_left _ isStation))
    (directories station isStation)

/-- Both trees hold the same files of others. -/
theorem Ahead.holdsFile_eq (ahead : Ahead process others added alone tree)
    (clear : ∀ place ∈ path.trail, ¬ others place)
    (left : ∀ station ∈ path.exits, alone.entryAt? station = some .directory) :
    tree.holdsFile path = alone.holdsFile path := by
  rw [Bool.eq_iff_iff, FileTree.holdsFile_iff, FileTree.holdsFile_iff]
  constructor
  · rintro ⟨place, contents, followed, found⟩
    exact ⟨place, contents, ahead.follow_file clear left followed found⟩
  · rintro ⟨place, contents, followed, found⟩
    rcases FileTree.get_eq_ok.mp (ahead.get_file clear followed found) with
      ⟨place, followed, found⟩
    exact ⟨place, contents, followed, FileTree.find?_eq_file.mp found⟩

/-- A tree stays ahead when others write to their places. -/
theorem Ahead.of_written {done : FileTree} {writes : List (Location × Contents)}
    {region : List Location} (ahead : Ahead process others added alone tree)
    (written : Written process writes region tree done)
    (isOther : ∀ place, writes.lookup place ≠ none → others place ∧ ¬ IsTemporary process place)
    (isAdded : ∀ place ∈ region, added place ∧ ¬ IsTemporary process place) :
    Ahead process others added alone done where
  root := ahead.root
  agree := by
    intro place free
    have untouched : writes.lookup place = none :=
      not_not.mp fun touched => free (isOther place touched).1
    rcases written.kept place untouched with
      same | ⟨isTemporary, gone⟩ | ⟨inside, nothing | isTemporary, new⟩
    · rw [same]
      exact ahead.agree place free
    · exact Or.inl (gone.trans (ahead.visible place isTemporary).1.symm)
    · refine Or.inr ⟨(isAdded place inside).1, ?_, new⟩
      rcases ahead.agree place free with same | ⟨-, nothingAlone, -⟩
      · rw [← same, nothing]
      · exact nothingAlone
    · exact absurd isTemporary (isAdded place inside).2
  visible := by
    intro place isTemporary
    refine ⟨(ahead.visible place isTemporary).1, ?_⟩
    have untouched : writes.lookup place = none :=
      not_not.mp fun touched => (isOther place touched).2 isTemporary
    rcases written.kept place untouched with same | ⟨-, gone⟩ | ⟨inside, -, -⟩
    · rw [same]
      exact (ahead.visible place isTemporary).2
    · exact gone
    · exact absurd isTemporary (isAdded place inside).2

end Reading
end Hookify
