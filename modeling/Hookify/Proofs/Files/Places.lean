import Hookify.Proofs.Files.Entries

namespace Hookify

/-!
# Where paths lead

Where a path leads can be read off its segments, whatever there is in the tree.
To follow it, there has to be a directory wherever one of its segments is
followed from.  These are the stations of the path.  Whether it can be followed,
and what goes wrong if not, depends on what is at the stations and on nothing
else.
-/

namespace Path

/-- Where a segment leads from a location; what is above the working directory is not known. -/
def step? (location : Location) (segment : List Char) : Option Location :=
  if segment.isEmpty || segment == ['.'] then some location
  else if segment == ['.', '.'] then
    if location.isEmpty then none else some location.dropLast
  else some (location ++ [String.ofList segment])

/-- Where segments lead from a location. -/
def placeFrom? (location : Location) (segments : List (List Char)) : Option Location :=
  segments.foldlM step? location

/-- The locations that segments are followed from. -/
def stationsFrom (location : Location) : List (List Char) → List Location
  | [] => []
  | segment :: rest =>
      location :: match step? location segment with
        | some next => stationsFrom next rest
        | none => []

/-- The stations of segments, and the place that they lead to. -/
def trailFrom (location : Location) (segments : List (List Char)) : List Location :=
  stationsFrom location segments ++ (placeFrom? location segments).toList

/-- The stations that `..` leads away from. -/
def exitsFrom (location : Location) : List (List Char) → List Location
  | [] => []
  | segment :: rest =>
      (if segment == ['.', '.'] then [location] else []) ++
        match step? location segment with
        | some next => exitsFrom next rest
        | none => []

/-- A segment is the name of a file or a directory. -/
def IsPlain (segment : List Char) : Prop :=
  segment ≠ [] ∧ segment ≠ ['.'] ∧ segment ≠ ['.', '.']

instance (segment : List Char) : Decidable (IsPlain segment) :=
  inferInstanceAs (Decidable (_ ∧ _))

/-- The place that a path leads to. -/
def place? (path : Path) : Option Location :=
  if path.text.isEmpty || path.isAbsolute then none else placeFrom? [] path.segments.names

/-- The stations of a path. -/
def stations (path : Path) : List Location :=
  stationsFrom [] path.segments.names

/-- The stations of a path, and the place that it leads to. -/
def trail (path : Path) : List Location :=
  path.stations ++ path.place?.toList

/-- The stations of a path that `..` leads away from. -/
def exits (path : Path) : List Location :=
  exitsFrom [] path.segments.names

variable {location place : Location} {segment : List Char} {segments rest : List (List Char)}

/-- What a segment can be. -/
theorem segment_cases (segment : List Char) :
    (segment.isEmpty || segment == ['.']) = true ∨ segment = ['.', '.'] ∨ IsPlain segment := by
  by_cases silent : (segment.isEmpty || segment == ['.']) = true
  · exact Or.inl silent
  · by_cases up : segment = ['.', '.']
    · exact Or.inr (Or.inl up)
    · refine Or.inr (Or.inr ⟨?_, ?_, up⟩)
      · rintro rfl
        exact silent rfl
      · rintro rfl
        exact silent rfl

theorem IsPlain.not_silent (plain : IsPlain segment) :
    ¬ (segment.isEmpty || segment == ['.']) = true := by
  simpa using ⟨plain.1, plain.2.1⟩

theorem step?_silent (silent : (segment.isEmpty || segment == ['.']) = true) :
    step? location segment = some location :=
  if_pos silent

theorem step?_up (below : location ≠ []) :
    step? location ['.', '.'] = some location.dropLast := by
  rw [step?, if_neg (by decide), if_pos (by decide), if_neg (by simpa using below)]

theorem step?_plain (plain : IsPlain segment) :
    step? location segment = some (location ++ [String.ofList segment]) := by
  rw [step?, if_neg plain.not_silent, if_neg (by simpa using plain.2.2)]

theorem placeFrom?_cons :
    placeFrom? location (segment :: rest) = (step? location segment).bind (placeFrom? · rest) :=
  List.foldlM_cons

theorem placeFrom?_append :
    placeFrom? location (segments ++ rest) =
      (placeFrom? location segments).bind (placeFrom? · rest) :=
  List.foldlM_append

theorem stationsFrom_cons {next : Location} (stepped : step? location segment = some next) :
    stationsFrom location (segment :: rest) = location :: stationsFrom next rest := by
  rw [stationsFrom, stepped]

theorem exitsFrom_cons {next : Location} (stepped : step? location segment = some next) :
    exitsFrom location (segment :: rest) =
      (if segment == ['.', '.'] then [location] else []) ++ exitsFrom next rest := by
  rw [exitsFrom, stepped]

theorem trailFrom_cons {next : Location} (stepped : step? location segment = some next) :
    trailFrom location (segment :: rest) = location :: trailFrom next rest := by
  rw [trailFrom, trailFrom, stationsFrom_cons stepped, placeFrom?_cons, stepped, Option.bind_some,
    List.cons_append]

theorem stationsFrom_append (leads : placeFrom? location segments = some place) :
    stationsFrom location (segments ++ rest) =
      stationsFrom location segments ++ stationsFrom place rest := by
  induction segments generalizing location with
  | nil =>
      cases leads
      rfl
  | cons segment segments ih =>
      rw [placeFrom?_cons] at leads
      rcases Option.bind_eq_some_iff.mp leads with ⟨next, stepped, leads⟩
      rw [List.cons_append, stationsFrom_cons stepped, stationsFrom_cons stepped, ih leads,
        List.cons_append]

theorem mem_trailFrom_self : location ∈ trailFrom location segments := by
  cases segments with
  | nil => exact List.mem_singleton_self location
  | cons segment rest => exact List.mem_append_left _ List.mem_cons_self

theorem mem_trailFrom_of_mem_stationsFrom {station : Location}
    (isStation : station ∈ stationsFrom location segments) :
    station ∈ trailFrom location segments :=
  List.mem_append_left _ isStation

theorem mem_trailFrom_place (leads : placeFrom? location segments = some place) :
    place ∈ trailFrom location segments := by
  rw [trailFrom, leads]
  exact List.mem_append_right _ (List.mem_singleton_self place)

theorem placeFrom?_of_place? {path : Path} (leads : path.place? = some place) :
    placeFrom? [] path.segments.names = some place := by
  rw [place?] at leads
  split at leads
  · cases leads
  · exact leads

theorem trailFrom_of_place? {path : Path} (leads : path.place? = some place) :
    trailFrom [] path.segments.names = path.stations ++ [place] := by
  rw [trailFrom, placeFrom?_of_place? leads]
  rfl

theorem trail_subset (path : Path) : path.trail ⊆ trailFrom [] path.segments.names := by
  rw [trail]
  cases leads : path.place? with
  | none => exact List.append_subset.mpr ⟨List.subset_append_left _ _, List.nil_subset _⟩
  | some place =>
      rw [trailFrom_of_place? leads]
      exact List.Subset.refl _

theorem trailFrom_top (top : step? location segment = none) :
    trailFrom location (segment :: rest) = [location] := by
  rw [trailFrom, stationsFrom, placeFrom?_cons, top]
  rfl

theorem stationsFrom_top (top : step? location segment = none) :
    stationsFrom location (segment :: rest) = [location] := by
  rw [stationsFrom, top]

/-- A file is looked up from wherever the segments before its name have come past. -/
theorem stationsFrom_concat (location : Location) (before : List (List Char)) (last : List Char) :
    stationsFrom location (before ++ [last]) = trailFrom location before := by
  induction before generalizing location with
  | nil =>
      rw [List.nil_append, stationsFrom]
      cases step? location last <;> rfl
  | cons segment before ih =>
      cases stepped : step? location segment with
      | none => rw [List.cons_append, stationsFrom_top stepped, trailFrom_top stepped]
      | some next => rw [List.cons_append, stationsFrom_cons stepped, trailFrom_cons stepped, ih]

/-- Segments that do not count lead nowhere else. -/
theorem mem_trailFrom_silent {silent : List (List Char)} {station : Location}
    (allSilent : ∀ name ∈ silent, (name.isEmpty || name == ['.']) = true) :
    station ∈ trailFrom location (segments ++ silent) ↔ station ∈ trailFrom location segments := by
  induction segments generalizing location with
  | nil =>
      induction silent with
      | nil => rfl
      | cons name silent ih =>
          rcases List.forall_mem_cons.mp allSilent with ⟨isSilent, allSilent⟩
          have below := ih allSilent
          rw [List.nil_append] at below ⊢
          rw [trailFrom_cons (step?_silent isSilent), List.mem_cons, below]
          exact or_iff_right_of_imp fun same => List.mem_singleton.mpr same
  | cons segment segments ih =>
      cases stepped : step? location segment with
      | none => rw [List.cons_append, trailFrom_top stepped, trailFrom_top stepped]
      | some next =>
          rw [List.cons_append, trailFrom_cons stepped, trailFrom_cons stepped, List.mem_cons,
            List.mem_cons, ih]

theorem exitsFrom_append (location : Location) (segments rest : List (List Char)) :
    exitsFrom location segments ⊆ exitsFrom location (segments ++ rest) := by
  induction segments generalizing location with
  | nil => exact List.nil_subset _
  | cons segment segments ih =>
      rw [List.cons_append, exitsFrom, exitsFrom]
      cases step? location segment with
      | none => exact List.Subset.refl _
      | some next =>
          exact List.append_subset.mpr
            ⟨List.subset_append_left _ _,
              List.Subset.trans (ih next) (List.subset_append_right _ _)⟩

end Path

namespace FileTree

open Hookify.Path

variable {tree other : FileTree} {location place : Location} {segment : List Char}
  {segments rest : List (List Char)}

/-! ## Following segments -/

theorem checkDirectory_eq (tree : FileTree) (location : Location) :
    tree.checkDirectory location =
      match tree.entryAt? location with
      | some .directory => .ok ()
      | some (.file _) => .error .notDirectory
      | none => .error .missing := by
  rw [checkDirectory, entryAt?]
  rcases tree.find? location with _ | _ | _ <;> rfl

theorem checkDirectory_eq_ok :
    tree.checkDirectory location = .ok () ↔ tree.entryAt? location = some .directory := by
  rw [checkDirectory_eq]
  rcases tree.entryAt? location with _ | _ | _ <;> simp

theorem checkDirectory_congr (same : tree.entryAt? location = other.entryAt? location) :
    tree.checkDirectory location = other.checkDirectory location := by
  rw [checkDirectory_eq, checkDirectory_eq, same]

theorem followFrom_cons {next : Location} (enters : tree.entryAt? location = some .directory)
    (stepped : step? location segment = some next) :
    tree.followFrom location (segment :: rest) = tree.followFrom next rest := by
  rw [followFrom, checkDirectory_eq_ok.mpr enters]
  rcases segment_cases segment with silent | rfl | plain
  · rw [step?_silent silent] at stepped
    cases stepped
    exact if_pos silent
  · cases location with
    | nil => cases stepped
    | cons first below =>
        rw [step?_up (List.cons_ne_nil _ _)] at stepped
        cases stepped
        rfl
  · rw [step?_plain plain] at stepped
    cases stepped
    exact (if_neg plain.not_silent).trans (if_neg (by simpa using plain.2.2))

theorem followFrom_cons_top (enters : tree.entryAt? location = some .directory)
    (top : step? location segment = none) :
    tree.followFrom location (segment :: rest) = .error .missing := by
  rw [followFrom, checkDirectory_eq_ok.mpr enters]
  rcases segment_cases segment with silent | rfl | plain
  · rw [step?_silent silent] at top
    cases top
  · cases location with
    | nil => rfl
    | cons first below =>
        rw [step?_up (List.cons_ne_nil _ _)] at top
        cases top
  · rw [step?_plain plain] at top
    cases top

theorem followFrom_cons_stuck {error : FileError}
    (stuck : tree.checkDirectory location = .error error) :
    tree.followFrom location (segment :: rest) = .error error := by
  rw [followFrom, stuck]
  rfl

/-- Segments can be followed if there are directories at all stations. -/
theorem followFrom_eq_ok :
    tree.followFrom location segments = .ok place ↔
      placeFrom? location segments = some place ∧
        ∀ station ∈ stationsFrom location segments, tree.entryAt? station = some .directory := by
  induction segments generalizing location with
  | nil => simp [followFrom, placeFrom?, stationsFrom, pure]
  | cons segment rest ih =>
      cases checked : tree.checkDirectory location with
      | error error =>
          rw [followFrom_cons_stuck checked]
          refine ⟨nofun, fun leads => ?_⟩
          rw [checkDirectory_eq_ok.mpr (leads.2 location List.mem_cons_self)] at checked
          cases checked
      | ok _ =>
          have enters := checkDirectory_eq_ok.mp checked
          cases stepped : step? location segment with
          | none =>
              rw [followFrom_cons_top enters stepped, placeFrom?_cons, stepped]
              exact ⟨nofun, fun leads => nomatch leads.1⟩
          | some next =>
              rw [followFrom_cons enters stepped, ih, placeFrom?_cons, stepped,
                stationsFrom_cons stepped, List.forall_mem_cons]
              exact ⟨fun leads => ⟨leads.1, enters, leads.2⟩,
                fun leads => ⟨leads.1, leads.2.2⟩⟩

/-- What comes of following segments depends on what is at the stations. -/
theorem followFrom_congr
    (same : ∀ station ∈ stationsFrom location segments,
      tree.entryAt? station = other.entryAt? station) :
    tree.followFrom location segments = other.followFrom location segments := by
  induction segments generalizing location with
  | nil => rfl
  | cons segment rest ih =>
      have here := checkDirectory_congr (same location List.mem_cons_self)
      cases checked : tree.checkDirectory location with
      | error error =>
          rw [followFrom_cons_stuck checked, followFrom_cons_stuck (here.symm.trans checked)]
      | ok _ =>
          have enters := checkDirectory_eq_ok.mp checked
          have entersOther := checkDirectory_eq_ok.mp (here.symm.trans checked)
          cases stepped : step? location segment with
          | none => rw [followFrom_cons_top enters stepped, followFrom_cons_top entersOther stepped]
          | some next =>
              rw [followFrom_cons enters stepped, followFrom_cons entersOther stepped]
              rw [stationsFrom_cons stepped] at same
              exact ih (List.forall_mem_cons.mp same).2

/-! ## Following paths -/

variable {path : Path} {contents : Contents}

theorem follow_eq_ok :
    tree.follow path = .ok place ↔
      path.place? = some place ∧
        ∀ station ∈ path.stations, tree.entryAt? station = some .directory := by
  rw [follow, place?]
  by_cases unknown : (path.text.isEmpty || path.isAbsolute) = true
  · rw [if_pos unknown, if_pos unknown]
    exact ⟨nofun, fun leads => nomatch leads.1⟩
  · rw [if_neg unknown, if_neg unknown]
    exact followFrom_eq_ok

theorem get_eq_ok {found : FileTree} :
    tree.get path = .ok found ↔
      ∃ place, tree.follow path = .ok place ∧ tree.find? place = some found := by
  rw [get]
  cases followed : tree.follow path with
  | error error =>
      constructor
      · intro same
        cases same
      · rintro ⟨_, ok, _⟩
        cases ok
  | ok place =>
      dsimp only [bind, Except.bind]
      cases held : tree.find? place with
      | none =>
          constructor
          · intro same
            cases same
          · rintro ⟨_, ok, known⟩
            cases ok
            rw [held] at known
            cases known
      | some node =>
          constructor
          · intro same
            cases same
            exact ⟨place, rfl, held⟩
          · rintro ⟨_, ok, known⟩
            cases ok
            rw [held] at known
            cases known
            rfl

theorem holds_iff :
    tree.holds path = true ↔
      ∃ place, tree.follow path = .ok place ∧ tree.entryAt? place ≠ none := by
  rw [holds]
  constructor
  · intro held
    cases got : tree.get path with
    | error error =>
        rw [got] at held
        cases held
    | ok found =>
        rcases get_eq_ok.mp got with ⟨place, followed, found⟩
        exact ⟨place, followed, by rw [entryAt?, found]; exact Option.some_ne_none _⟩
  · rintro ⟨place, followed, held⟩
    rw [entryAt?] at held
    cases found : tree.find? place with
    | none =>
        rw [found] at held
        exact absurd rfl held
    | some node => rw [get_eq_ok.mpr ⟨place, followed, found⟩]

theorem holdsFile_iff :
    tree.holdsFile path = true ↔
      ∃ place contents, tree.follow path = .ok place ∧
        tree.entryAt? place = some (.file contents) := by
  rw [holdsFile]
  constructor
  · intro held
    rcases got : tree.get path with error | contents | entries
    · rw [got] at held
      cases held
    · rcases get_eq_ok.mp got with ⟨place, followed, found⟩
      exact ⟨place, contents, followed, by rw [entryAt?, found]; rfl⟩
    · rw [got] at held
      cases held
  · rintro ⟨place, contents, followed, held⟩
    rw [entryAt?] at held
    rcases found : tree.find? place with _ | other | entries
    · rw [found] at held
      cases held
    · rw [get_eq_ok.mpr ⟨place, followed, found⟩]
    · rw [found] at held
      cases held

theorem directoryLocation?_eq_some :
    tree.directoryLocation? path = some place ↔
      tree.follow path = .ok place ∧ tree.entryAt? place = some .directory := by
  rw [directoryLocation?]
  cases followed : tree.follow path with
  | error error => exact ⟨nofun, nofun⟩
  | ok location =>
      dsimp only
      rw [entryAt?]
      constructor
      · intro found
        rcases held : tree.find? location with _ | _ | entries
        all_goals rw [held] at found
        all_goals cases found
        exact ⟨rfl, by rw [held]; rfl⟩
      · rintro ⟨same, held⟩
        cases same
        rcases found : tree.find? place with _ | _ | entries
        · rw [found] at held
          cases held
        · rw [found] at held
          cases held
        · rfl

/-! ## Places for files -/

/-- Where a file may be put for a path that ends in a given segment. -/
theorem locationForFile_eq {before : List (List Char)} {last : List Char}
    (known : (path.text.isEmpty || path.isAbsolute) = false)
    (named : path.segments.names = before ++ [last]) :
    tree.locationForFile path =
      if last.isEmpty then .error .notDirectory
      else
        (tree.followFrom [] before).bind fun parent =>
          (tree.checkDirectory parent).bind fun _ =>
            if last == ['.'] || last == ['.', '.'] then .error .busy
            else if tree.entryAt? (parent ++ [String.ofList last]) = some .directory then
              .error .isDirectory
            else .ok (parent ++ [String.ofList last]) := by
  rw [locationForFile, if_neg (Bool.eq_false_iff.mp known), named, List.reverse_append,
    List.reverse_singleton, List.singleton_append]
  dsimp only
  by_cases nothing : last.isEmpty = true
  · rw [if_pos nothing, if_pos nothing]
    rfl
  · rw [if_neg nothing, if_neg nothing, List.reverse_reverse]
    cases tree.followFrom [] before with
    | error error => rfl
    | ok parent =>
        simp only [bind, Except.bind]
        cases tree.checkDirectory parent with
        | error error => rfl
        | ok _ =>
            by_cases dots : (last == ['.'] || last == ['.', '.']) = true
            · rw [if_pos dots, if_pos dots]
            · rw [if_neg dots, if_neg dots, entryAt?]
              rcases tree.find? (parent ++ [String.ofList last]) with _ | _ | _
              · exact (if_neg fun same => by cases same).symm
              · exact (if_neg fun same => by cases same).symm
              · exact (if_pos rfl).symm

/-- The place for a file is inside a directory and no directory itself. -/
theorem locationForFile_eq_ok {target : Location} :
    tree.locationForFile path = .ok target ↔
      ∃ before last parent, (path.text.isEmpty || path.isAbsolute) = false ∧
        path.segments.names = before ++ [last] ∧ IsPlain last ∧
        tree.followFrom [] before = .ok parent ∧ tree.entryAt? parent = some .directory ∧
        target = parent ++ [String.ofList last] ∧ tree.entryAt? target ≠ some .directory := by
  constructor
  · intro free
    by_cases unknown : (path.text.isEmpty || path.isAbsolute) = true
    · rw [locationForFile, if_pos unknown] at free
      cases free
    have known := Bool.eq_false_iff.mpr unknown
    rcases List.eq_nil_or_concat path.segments.names with none | ⟨before, last, named⟩
    · rw [locationForFile, if_neg unknown, none] at free
      cases free
    rw [List.concat_eq_append] at named
    rw [locationForFile_eq known named] at free
    by_cases nothing : last.isEmpty = true
    · rw [if_pos nothing] at free
      cases free
    rw [if_neg nothing] at free
    cases followed : tree.followFrom [] before with
    | error error =>
        rw [followed] at free
        cases free
    | ok parent =>
        rw [followed, Except.bind] at free
        cases checked : tree.checkDirectory parent with
        | error error =>
            rw [checked] at free
            cases free
        | ok _ =>
            rw [checked, Except.bind] at free
            by_cases dots : (last == ['.'] || last == ['.', '.']) = true
            · rw [if_pos dots] at free
              cases free
            rw [if_neg dots] at free
            by_cases taken : tree.entryAt? (parent ++ [String.ofList last]) = some .directory
            · rw [if_pos taken] at free
              cases free
            rw [if_neg taken] at free
            cases free
            refine ⟨before, last, parent, known, named, ?_, followed,
              checkDirectory_eq_ok.mp checked, rfl, taken⟩
            simpa [IsPlain, not_or] using And.intro nothing dots
  · rintro ⟨before, last, parent, known, named, plain, followed, enters, rfl, free⟩
    have dots : (last == ['.'] || last == ['.', '.']) = false := by
      simpa using ⟨plain.2.1, plain.2.2⟩
    rw [locationForFile_eq known named, if_neg (by simpa using plain.1), followed]
    simp only [Except.bind, checkDirectory_eq_ok.mpr enters, dots, if_neg free]
    rfl

theorem place?_of_locationForFile {target : Location}
    (free : tree.locationForFile path = .ok target) :
    path.place? = some target ∧
      ∀ station ∈ path.stations, tree.entryAt? station = some .directory := by
  rcases locationForFile_eq_ok.mp free with
    ⟨before, last, parent, known, named, plain, followed, enters, rfl, -⟩
  rcases followFrom_eq_ok.mp followed with ⟨leads, directories⟩
  constructor
  · rw [place?, if_neg (Bool.eq_false_iff.mp known), named, placeFrom?_append, leads,
      Option.bind_some, placeFrom?_cons, step?_plain plain]
    rfl
  · rw [stations, named, stationsFrom_append leads, List.forall_mem_append]
    refine ⟨directories, ?_⟩
    rw [stationsFrom_cons (step?_plain plain)]
    exact List.forall_mem_singleton.mpr enters

/-- A place for a file stays one as long as the directories stay. -/
theorem locationForFile_mono {target : Location} (free : tree.locationForFile path = .ok target)
    (stay : ∀ station, tree.entryAt? station = some .directory →
      other.entryAt? station = some .directory)
    (stillFree : other.entryAt? target ≠ some .directory) :
    other.locationForFile path = .ok target := by
  rcases locationForFile_eq_ok.mp free with
    ⟨before, last, parent, known, named, plain, followed, enters, same, -⟩
  rcases followFrom_eq_ok.mp followed with ⟨leads, directories⟩
  have followedToo : other.followFrom [] before = .ok parent := followFrom_eq_ok.mpr
    ⟨leads, fun station isStation => stay station (directories station isStation)⟩
  exact locationForFile_eq_ok.mpr ⟨before, last, parent, known, named, plain, followedToo,
    stay parent enters, same, stillFree⟩

/-- Where a file may be put depends on what is at the stations and at the place of its path. -/
theorem locationForFile_congr
    (same : ∀ location ∈ path.trail, tree.entryAt? location = other.entryAt? location) :
    tree.locationForFile path = other.locationForFile path := by
  rw [trail, List.forall_mem_append] at same
  by_cases unknown : (path.text.isEmpty || path.isAbsolute) = true
  · rw [locationForFile, locationForFile, if_pos unknown, if_pos unknown]
    rfl
  have known := Bool.eq_false_iff.mpr unknown
  rcases List.eq_nil_or_concat path.segments.names with none | ⟨before, last, named⟩
  · rw [locationForFile, locationForFile, if_neg unknown, if_neg unknown, none]
    rfl
  rw [List.concat_eq_append] at named
  have stations : path.stations = trailFrom [] before := by
    rw [Path.stations, named, stationsFrom_concat]
  rw [stations] at same
  rw [locationForFile_eq known named, locationForFile_eq known named,
    followFrom_congr fun station isStation =>
      same.1 station (mem_trailFrom_of_mem_stationsFrom isStation)]
  cases followed : other.followFrom [] before with
  | error error => rfl
  | ok parent =>
      have leads := (followFrom_eq_ok.mp followed).1
      simp only [Except.bind]
      rw [checkDirectory_congr (same.1 parent (mem_trailFrom_place leads))]
      by_cases dots : (last == ['.'] || last == ['.', '.']) = true
      · simp only [dots, if_true]
      · by_cases nothing : last.isEmpty = true
        · simp only [nothing, if_true]
        have plain : IsPlain last := by simpa [IsPlain, not_or] using And.intro nothing dots
        have isPlace : path.place? = some (parent ++ [String.ofList last]) := by
          rw [place?, if_neg unknown, named, placeFrom?_append, leads, Option.bind_some,
            placeFrom?_cons, step?_plain plain]
          rfl
        rw [isPlace] at same
        rw [same.2 _ (List.mem_singleton_self _)]

/-! ## Growth -/

/-- Directories have been added in a region, and nothing else has changed. -/
def GrownIn (region : List Location) (before after : FileTree) : Prop :=
  ∀ location, after.entryAt? location = before.entryAt? location ∨
    location ∈ region ∧ before.entryAt? location = none ∧
      after.entryAt? location = some .directory

namespace GrownIn

variable {region further : List Location} {before middle after : FileTree}

theorem refl (region : List Location) (tree : FileTree) : GrownIn region tree tree :=
  fun _ => Or.inl rfl

theorem mono (wider : region ⊆ further) (grown : GrownIn region before after) :
    GrownIn further before after := fun location =>
  (grown location).imp_right fun added => ⟨wider added.1, added.2⟩

theorem trans (first : GrownIn region before middle) (second : GrownIn region middle after) :
    GrownIn region before after := by
  intro location
  rcases second location with same | ⟨inside, free, added⟩
  · rw [same]
    exact first location
  · refine Or.inr ⟨inside, ?_, added⟩
    rcases first location with same | ⟨-, nothing, -⟩
    · rw [← same, free]
    · exact nothing

theorem file_iff {contents : Contents} (grown : GrownIn region before after) :
    after.entryAt? location = some (.file contents) ↔
      before.entryAt? location = some (.file contents) := by
  rcases grown location with same | ⟨-, nothing, added⟩
  · rw [same]
  · rw [nothing, added]
    exact ⟨nofun, nofun⟩

theorem contents?_eq (grown : GrownIn region before after) (location : Location) :
    after.contents? location = before.contents? location :=
  Option.ext fun _ => by rw [contents?_eq_some, contents?_eq_some, grown.file_iff]

theorem directory (grown : GrownIn region before after)
    (held : before.entryAt? location = some .directory) :
    after.entryAt? location = some .directory := by
  rcases grown location with same | ⟨-, -, added⟩
  · rw [same, held]
  · exact added

end GrownIn

theorem grownIn_put {parent : Location} {name : String}
    (enters : tree.entryAt? parent = some .directory)
    (nothing : tree.entryAt? (parent ++ [name]) = none) :
    GrownIn [parent ++ [name]] tree (put (.directory []) (parent ++ [name]) tree) := by
  intro location
  rw [entryAt?_put isLeaf_empty enters (by rw [nothing]; exact nofun)]
  by_cases here : location = parent ++ [name]
  · rw [here, Function.update_self]
    exact Or.inr ⟨List.mem_singleton_self _, nothing, rfl⟩
  · exact Or.inl (Function.update_of_ne here ..)

/-! ## Adding directories -/

section Adding

variable {added : Bool}

theorem directory_of_step? {next : Location} (enters : tree.entryAt? location = some .directory)
    (stepped : step? location segment = some next) :
    tree.entryAt? next = some .directory ∨
      IsPlain segment ∧ next = location ++ [String.ofList segment] := by
  rcases segment_cases segment with silent | rfl | plain
  · rw [step?_silent silent] at stepped
    cases stepped
    exact Or.inl enters
  · cases location with
    | nil => cases stepped
    | cons first below =>
        rw [step?_up (List.cons_ne_nil _ _)] at stepped
        cases stepped
        refine Or.inl (directory_above (List.dropLast_prefix _) ?_ (by rw [enters]; exact nofun))
        intro same
        have shorter := congrArg List.length same
        simp at shorter
  · rw [step?_plain plain] at stepped
    cases stepped
    exact Or.inr ⟨plain, rfl⟩

theorem createFrom_top (top : step? location segment = none) :
    createFrom added location (segment :: rest) tree = (some .missing, tree) := by
  rw [createFrom]
  rcases segment_cases segment with silent | rfl | plain
  · rw [step?_silent silent] at top
    cases top
  · cases location with
    | nil => rfl
    | cons first below => cases top
  · rw [step?_plain plain] at top
    cases top

theorem createFrom_enter {next : Location} (stepped : step? location segment = some next)
    (held : tree.entryAt? next = some .directory) :
    createFrom added location (segment :: rest) tree = createFrom added next rest tree := by
  rw [createFrom]
  rcases segment_cases segment with silent | rfl | plain
  · rw [step?_silent silent] at stepped
    cases stepped
    exact if_pos silent
  · cases location with
    | nil => cases stepped
    | cons first below =>
        cases stepped
        rfl
  · rw [step?_plain plain] at stepped
    cases stepped
    rw [if_neg plain.not_silent, if_neg (by simpa using plain.2.2)]
    rw [entryAt?] at held
    rcases found : tree.find? (location ++ [String.ofList segment]) with _ | _ | _
    · rw [found] at held
      cases held
    · rw [found] at held
      cases held
    · simp only [found]

theorem createFrom_file {contents : Contents} (plain : IsPlain segment)
    (held : tree.entryAt? (location ++ [String.ofList segment]) = some (.file contents)) :
    createFrom added location (segment :: rest) tree =
      (some (if added then .occupied else .notDirectory), tree) := by
  rw [createFrom, if_neg plain.not_silent, if_neg (by simpa using plain.2.2)]
  rw [entryAt?] at held
  rcases found : tree.find? (location ++ [String.ofList segment]) with _ | _ | _
  · rw [found] at held
    cases held
  · simp only [found]
  · rw [found] at held
    cases held

theorem createFrom_new (plain : IsPlain segment)
    (nothing : tree.entryAt? (location ++ [String.ofList segment]) = none) :
    createFrom added location (segment :: rest) tree =
      createFrom true (location ++ [String.ofList segment]) rest
        (put (.directory []) (location ++ [String.ofList segment]) tree) := by
  rw [createFrom, if_neg plain.not_silent, if_neg (by simpa using plain.2.2)]
  rw [entryAt?, Option.map_eq_none_iff] at nothing
  simp only [nothing]

/-- What is done for the first of some segments, from a directory. -/
theorem createFrom_cases (enters : tree.entryAt? location = some .directory)
    (segment : List Char) :
    step? location segment = none ∨
      ∃ next, step? location segment = some next ∧
        (tree.entryAt? next = some .directory ∨
          IsPlain segment ∧ next = location ++ [String.ofList segment] ∧
            (tree.entryAt? next = none ∨
              ∃ contents, tree.entryAt? next = some (.file contents))) := by
  cases stepped : step? location segment with
  | none => exact Or.inl rfl
  | some next =>
      refine Or.inr ⟨next, rfl, ?_⟩
      rcases directory_of_step? enters stepped with held | ⟨plain, leads⟩
      · exact Or.inl held
      · rcases held : tree.entryAt? next with _ | contents | _
        · exact Or.inr ⟨plain, leads, Or.inl rfl⟩
        · exact Or.inr ⟨plain, leads, Or.inr ⟨contents, rfl⟩⟩
        · exact Or.inl rfl

theorem createFrom_grown (added : Bool) (segments : List (List Char))
    (enters : tree.entryAt? location = some .directory) :
    GrownIn (trailFrom location segments) tree (createFrom added location segments tree).2 := by
  induction segments generalizing location tree added with
  | nil => exact GrownIn.refl _ _
  | cons segment rest ih =>
      rcases createFrom_cases enters segment with top | ⟨next, stepped, held | ⟨plain, rfl, held⟩⟩
      · rw [createFrom_top top]
        exact GrownIn.refl _ _
      · rw [createFrom_enter stepped held, trailFrom_cons stepped]
        exact (ih added held).mono (List.subset_cons_self _ _)
      · rw [trailFrom_cons stepped]
        rcases held with nothing | ⟨contents, held⟩
        · rw [createFrom_new plain nothing]
          have here := grownIn_put enters nothing
          refine (here.mono ?_).trans ((ih true ?_).mono (List.subset_cons_self _ _))
          · exact List.cons_subset.mpr
              ⟨List.mem_cons_of_mem _ mem_trailFrom_self, List.nil_subset _⟩
          · rw [entryAt?_put isLeaf_empty enters (by rw [nothing]; exact nofun),
              Function.update_self]
            rfl
        · rw [createFrom_file plain held]
          exact GrownIn.refl _ _

/-- Once the directories have been added, the segments can be followed. -/
theorem createFrom_directories (enters : tree.entryAt? location = some .directory)
    (done : (createFrom added location segments tree).1 = none) :
    (placeFrom? location segments).isSome ∧ ∀ station ∈ trailFrom location segments,
      (createFrom added location segments tree).2.entryAt? station = some .directory := by
  induction segments generalizing location tree added with
  | nil => exact ⟨rfl, List.forall_mem_singleton.mpr enters⟩
  | cons segment rest ih =>
      have grown := createFrom_grown added (segment :: rest) enters
      rcases createFrom_cases enters segment with top | ⟨next, stepped, held | ⟨plain, rfl, held⟩⟩
      · rw [createFrom_top top] at done
        cases done
      · rw [placeFrom?_cons, stepped, trailFrom_cons stepped, List.forall_mem_cons]
        rw [createFrom_enter stepped held] at done grown ⊢
        exact ⟨(ih held done).1, grown.directory enters, (ih held done).2⟩
      · rcases held with nothing | ⟨contents, held⟩
        · rw [placeFrom?_cons, stepped, trailFrom_cons stepped, List.forall_mem_cons]
          rw [createFrom_new plain nothing] at done grown ⊢
          have here : (put (.directory []) (location ++ [String.ofList segment]) tree).entryAt?
              (location ++ [String.ofList segment]) = some .directory := by
            rw [entryAt?_put isLeaf_empty enters (by rw [nothing]; exact nofun),
              Function.update_self]
            rfl
          exact ⟨(ih here done).1, grown.directory enters, (ih here done).2⟩
        · rw [createFrom_file plain held] at done
          cases done

/-- Directories can be added unless there is a file on the way. -/
theorem createFrom_eq_none (enters : tree.entryAt? location = some .directory)
    (leads : (placeFrom? location segments).isSome)
    (free : ∀ station ∈ trailFrom location segments, ∀ contents,
      tree.entryAt? station ≠ some (.file contents)) :
    (createFrom added location segments tree).1 = none := by
  induction segments generalizing location tree added with
  | nil => rfl
  | cons segment rest ih =>
      rcases createFrom_cases enters segment with top | ⟨next, stepped, held | ⟨plain, rfl, held⟩⟩
      · rw [placeFrom?_cons, top] at leads
        cases leads
      · rw [placeFrom?_cons, stepped] at leads
        rw [trailFrom_cons stepped] at free
        rw [createFrom_enter stepped held]
        exact ih held leads (List.forall_mem_cons.mp free).2
      · rw [placeFrom?_cons, stepped] at leads
        rw [trailFrom_cons stepped] at free
        have freeBelow := (List.forall_mem_cons.mp free).2
        rcases held with nothing | ⟨contents, held⟩
        · rw [createFrom_new plain nothing]
          have grown := grownIn_put enters nothing
          refine ih ?_ leads fun station isStation contents => ?_
          · rw [entryAt?_put isLeaf_empty enters (by rw [nothing]; exact nofun),
              Function.update_self]
            rfl
          · exact mt grown.file_iff.mp (freeBelow station isStation contents)
        · exact absurd held (freeBelow _ mem_trailFrom_self contents)

/-- Nothing can be added where the working directory is no directory. -/
theorem createFrom_of_file (contents : Contents) :
    (createFrom added location segments (.file contents)).2 = .file contents := by
  induction segments generalizing location added with
  | nil => rfl
  | cons segment rest ih =>
      rw [createFrom]
      split
      · exact ih
      · split
        · split
          · rfl
          · exact ih
        · have nothing : (FileTree.file contents).find? (location ++ [String.ofList segment]) =
              none := by
            cases location <;> rfl
          have same : put (.directory []) (location ++ [String.ofList segment]) (.file contents) =
              .file contents := by
            cases location <;> rfl
          simp only [nothing, same]
          exact ih

end Adding

end FileTree
end Hookify
