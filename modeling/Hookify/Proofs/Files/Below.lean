import Hookify.Files.Output
import Hookify.Proofs.Files.Paths

namespace Hookify
namespace Path

/-!
# Paths below a directory

A walk reaches a file by joining one name after the other to the path of a
directory.  The parts of such a path are those of the directory with the names
behind them, so what is below the directory is given back by the names, and its
mirror image below another directory ends in the same names, but for the
extension of the last one.
-/

/-- The path that names lead to from a directory. -/
def descend (path : Path) (names : List String) : Path :=
  names.foldl (fun path name => path.join ⟨name⟩) path

variable {path : Path} {names : List String}

/-! ## Segments -/

theorem descend_concat (root : Path) (names : List String) (last : String) :
    root.descend (names ++ [last]) = (root.descend names).join ⟨last⟩ := by
  rw [descend, List.foldl_append]
  rfl

theorem front_join_name {name : String} (isName : IsName name) :
    (path.join ⟨name⟩).front = path.front ++ [name.toList] := by
  rw [front, join_name_segments isName.2]
  refine if_neg ?_
  rw [List.getLast?_concat]
  exact fun ends => isName.1.1 (Option.some.inj ends)

theorem descend_front (root : Path) (areNames : ∀ name ∈ names, IsName name) :
    (root.descend names).segments.rooted = root.segments.rooted ∧
      (root.descend names).front = root.front ++ names.map String.toList := by
  induction names generalizing root with
  | nil => exact ⟨rfl, (List.append_nil _).symm⟩
  | cons name names ih =>
      rcases List.forall_mem_cons.mp areNames with ⟨isName, areNames⟩
      have below := ih (root.join ⟨name⟩) areNames
      rw [front_join_name isName, join_name_segments isName.2, List.append_assoc] at below
      exact below

theorem descend_inj {root : Path} {others : List String} (areNames : ∀ name ∈ names, IsName name)
    (areOthers : ∀ name ∈ others, IsName name) (same : root.descend names = root.descend others) :
    names = others := by
  have fronts := (descend_front root areNames).2
  rw [same, (descend_front root areOthers).2, List.append_cancel_left_eq] at fronts
  exact ((List.map_inj_right fun _ _ => String.toList_inj.mp).mp fronts).symm

theorem descend_segments (root : Path) {last : String}
    (areNames : ∀ name ∈ names ++ [last], IsName name) :
    (root.descend (names ++ [last])).segments =
      ⟨root.segments.rooted, (root.front ++ names.map String.toList) ++ [last.toList]⟩ := by
  have isName := areNames last (List.mem_append_right _ (List.mem_singleton_self _))
  have upper := descend_front root fun name inside => areNames name (List.mem_append_left _ inside)
  rw [descend_concat, join_name_segments isName.2, upper.1, upper.2]

/-- The path of some names. -/
def ofNames (names : List String) : Path :=
  Segments.path ⟨false, names.map String.toList⟩

theorem ofNames_segments (some_name : names ≠ []) (areNames : ∀ name ∈ names, IsName name) :
    (ofNames names).segments = ⟨false, names.map String.toList⟩ := by
  refine segments_path ⟨?_, ?_, ?_⟩
  · simpa using some_name
  · intro chars inside
    rcases List.mem_map.mp inside with ⟨name, isName, rfl⟩
    exact (areNames name isName).2
  · intro _ next rest same
    cases names with
    | nil => exact some_name rfl
    | cons name names =>
        exact (areNames name List.mem_cons_self).1.1 (List.cons.inj same).1

/-! ## Parts -/

theorem partsOf_append (leading : Bool) (first second : List (List Char)) :
    partsOf leading (first ++ second) =
      partsOf leading first ++ partsOf (leading && first.isEmpty) second := by
  induction first generalizing leading with
  | nil => simp [partsOf]
  | cons name rest ih =>
      rw [List.cons_append, partsOf, partsOf, ih]
      split <;> simp

theorem partsOf_names (leading : Bool) (areNames : ∀ name ∈ names, IsName name) :
    partsOf leading (names.map String.toList) = names.map Part.name := by
  induction names generalizing leading with
  | nil => rfl
  | cons name names ih =>
      rcases List.forall_mem_cons.mp areNames with ⟨isName, areNames⟩
      have counts : ¬ isSilent leading name.toList = true := by
        simp [isSilent, isName.1.1, isName.1.2.1]
      have part : partOf name.toList = .name name := by
        rw [partOf, if_neg (by simpa using isName.1.2.1), if_neg (by simpa using isName.1.2.2),
          String.ofList_toList]
      rw [List.map_cons, partsOf, if_neg counts, part, ih false areNames, List.map_cons]

theorem names_eq_front (path : Path) :
    path.segments.names = path.front ∨ path.segments.names = path.front ++ [[]] := by
  rw [front]
  by_cases ends : path.segments.names.getLast? = some []
  · rw [if_pos ends]
    rcases List.getLast?_eq_some_iff.mp ends with ⟨names, split⟩
    rw [split, List.dropLast_concat]
    exact Or.inr rfl
  · rw [if_neg ends]
    exact Or.inl rfl

theorem partsOf_front (leading : Bool) (path : Path) :
    partsOf leading path.segments.names = partsOf leading path.front := by
  rcases names_eq_front path with same | same
  · rw [same]
  · rw [same, partsOf_append]
    exact List.append_nil _

theorem descend_parts (root : Path) (areNames : ∀ name ∈ names, IsName name) :
    (root.descend names).parts = root.parts ++ names.map Part.name := by
  rcases descend_front root areNames with ⟨rooted, front⟩
  simp only [parts, rooted, partsOf_front, front, partsOf_append, partsOf_names _ areNames]
  split
  · rfl
  · rfl

/-! ## What is below -/

theorem dropParts_append (leading : Bool) (first second : List (List Char)) :
    dropParts leading (partsOf leading first).length (first ++ second) =
      dropParts (leading && first.isEmpty) 0 second := by
  induction first generalizing leading with
  | nil => simp [partsOf]
  | cons name rest ih =>
      rw [partsOf]
      by_cases silent : isSilent leading name = true
      · rw [if_pos silent, List.cons_append]
        have below := ih false
        have silentInside : isSilent false name = true := by
          rw [isSilent, Bool.or_eq_true, Bool.and_eq_true] at silent ⊢
          exact silent.imp_right fun isDot => ⟨isDot.1, rfl⟩
        cases count : (partsOf false rest).length with
        | zero =>
            rw [count] at below
            rw [dropParts, if_pos silentInside, below]
            simp
        | succ count' =>
            rw [count] at below
            rw [dropParts, if_pos silent, below]
            simp
      · rw [if_neg silent, List.length_cons, List.cons_append, dropParts, if_neg silent, ih]
        simp

theorem dropParts_names {last : String} (areNames : ∀ name ∈ names ++ [last], IsName name) :
    dropParts false 0 ((names ++ [last]).map String.toList) =
      (names ++ [last]).map String.toList := by
  have isLast := areNames last (List.mem_append_right _ (List.mem_singleton_self _))
  have whole : (dropSilent true ((names ++ [last]).map String.toList).reverse).reverse =
      (names ++ [last]).map String.toList := by
    rw [List.map_append, List.reverse_append, List.map_singleton, List.reverse_singleton,
      List.singleton_append, dropSilent_plain true isLast.1]
    simp
  cases shape : (names ++ [last]).map String.toList with
  | nil => rfl
  | cons first rest =>
      have isFirst : first ∈ (names ++ [last]).map String.toList := shape ▸ List.mem_cons_self
      rcases List.mem_map.mp isFirst with ⟨name, inside, rfl⟩
      have isName := areNames name inside
      rw [dropParts, if_neg (by simp [isSilent, isName.1.1, isName.1.2.1]), ← shape, whole]

/-- A relative path that is not empty has a part. -/
theorem parts_ne_nil (relative : path.segments.rooted = false) (written : path.text ≠ "") :
    path.parts ≠ [] := by
  have sound := segments_sound path
  rcases segments_cases path with ⟨body, chars, names, -⟩
  rw [relative] at chars
  rw [parts, relative]
  rcases shape : path.segments.names with _ | ⟨first, rest⟩
  · exact absurd shape sound.some_name
  · have some_char : first ≠ [] := by
      rintro rfl
      cases rest with
      | nil =>
          have back := joinNames_splitOn body
          rw [← names, shape] at back
          exact written (String.toList_eq_nil_iff.mp (chars.trans back.symm))
      | cons next rest => exact sound.begins relative next rest shape
    have counts : ¬ isSilent true first = true := by simpa [isSilent] using some_char
    simp only [partsOf, if_neg counts]
    exact List.cons_ne_nil _ _

/-- What is below a directory is given back by its names. -/
theorem below?_descend {root : Path} {last : String} (relative : root.segments.rooted = false)
    (written : root.text ≠ "") (areNames : ∀ name ∈ names ++ [last], IsName name) :
    root.below? (root.descend (names ++ [last])) = some (ofNames (names ++ [last])) := by
  have isAbove : root.parts.isPrefixOf (root.descend (names ++ [last])).parts = true := by
    rw [descend_parts root areNames, List.isPrefixOf_iff_prefix]
    exact List.prefix_append _ _
  have some_part : (root.parts.length == 0) = false := by
    simpa using parts_ne_nil relative written
  have count : root.parts.length = (partsOf true root.front).length := by
    rw [parts, relative, ← partsOf_front]
    rfl
  have some_segment : root.front.isEmpty = false := by
    rw [Bool.eq_false_iff, ne_eq, List.isEmpty_iff]
    intro none
    rw [count, none] at some_part
    cases some_part
  have segments : root.front ++ names.map String.toList ++ [last.toList] =
      root.front ++ (names ++ [last]).map String.toList := by
    rw [List.map_append, List.append_assoc]
    rfl
  have left : dropParts true root.parts.length
      (root.front ++ (names ++ [last]).map String.toList) =
        (names ++ [last]).map String.toList := by
    rw [count, dropParts_append, some_segment, Bool.and_false, dropParts_names areNames]
  rw [below?, isAbove, some_part, descend_segments root areNames, relative, segments]
  exact congrArg (fun names => some (Segments.path ⟨false, names⟩)) left

/-! ## Mirror images -/

/-- The name of a component, from the name of its source. -/
def componentName (extension last : String) : String :=
  String.ofList ((splitName last.toList).1 ++
    if extension.isEmpty then [] else '.' :: extension.toList)

theorem componentName_isName {extension last : String} (isName : IsName last)
    (some_extension : extension ≠ "") (no_slash : '/' ∉ extension.toList) :
    IsName (componentName extension last) := by
  have some_stem := stem_ne_nil isName.1.1
  have some_char : extension.toList ≠ [] := mt String.toList_eq_nil_iff.mp some_extension
  have notEmpty : ¬ extension.isEmpty = true := by
    rwa [String.isEmpty_iff]
  have long : 2 < ((splitName last.toList).1 ++ '.' :: extension.toList).length := by
    have stem := List.length_pos_iff.mpr some_stem
    have chars := List.length_pos_iff.mpr some_char
    rw [List.length_append, List.length_cons]
    omega
  rw [IsName, componentName, String.toList_ofList, if_neg notEmpty]
  refine ⟨⟨?_, ?_, ?_⟩, ?_⟩
  · intro same
    rw [same] at long
    cases long
  · intro same
    rw [same] at long
    exact absurd long (by decide)
  · intro same
    rw [same] at long
    exact absurd long (by decide)
  · rw [List.mem_append, List.mem_cons, not_or, not_or]
    exact ⟨fun slash => isName.2 (mem_of_mem_stem slash), by decide, no_slash⟩

theorem componentName_inj {extension first second : String} :
    componentName extension first = componentName extension second ↔
      (splitName first.toList).1 = (splitName second.toList).1 := by
  rw [componentName, componentName, String.ofList_inj, List.append_cancel_right_eq]

theorem componentNames_areNames {extension last : String} (some_extension : extension ≠ "")
    (no_slash : '/' ∉ extension.toList) (areNames : ∀ name ∈ names ++ [last], IsName name) :
    ∀ name ∈ names ++ [componentName extension last], IsName name := by
  have isLast := areNames last (List.mem_append_right _ (List.mem_singleton_self _))
  refine List.forall_mem_append.mpr
    ⟨fun name inside => areNames name (List.mem_append_left _ inside), ?_⟩
  exact List.forall_mem_singleton.mpr (componentName_isName isLast some_extension no_slash)

/-- The image of a file below another directory has the same names, but for the extension. -/
theorem outputBelow_descend {root outputRoot : Path} {extension last : String}
    (relative : root.segments.rooted = false) (written : root.text ≠ "")
    (some_extension : extension ≠ "") (no_slash : '/' ∉ extension.toList)
    (areNames : ∀ name ∈ names ++ [last], IsName name) :
    outputBelow root (root.descend (names ++ [last])) outputRoot extension =
      outputRoot.descend (names ++ [componentName extension last]) := by
  have isLast := areNames last (List.mem_append_right _ (List.mem_singleton_self _))
  have cut := ofNames_segments (by simp) areNames
  have joined : (outputRoot.join (ofNames (names ++ [last]))).segments =
      ⟨outputRoot.segments.rooted, (outputRoot.front ++ names.map String.toList) ++
        [last.toList]⟩ := by
    rw [join_segments (by rw [isAbsolute, cut]), cut, List.append_assoc, List.map_append]
    rfl
  apply segments_injective
  rw [outputBelow, below?_descend relative written areNames,
    descend_segments outputRoot (componentNames_areNames some_extension no_slash areNames),
    componentName, String.toList_ofList]
  exact withExtension_segments joined isLast.1 no_slash

/-! ## Places -/

/-- The place that names are joined to; an empty path stands for the working directory. -/
def base? (path : Path) : Option Location :=
  if path.segments.rooted then none else placeFrom? [] path.front

theorem base?_eq_some {location : Location} :
    path.base? = some location ↔
      path.segments.rooted = false ∧ placeFrom? [] path.front = some location := by
  rw [base?]
  cases path.segments.rooted with
  | true => exact ⟨nofun, fun ⟨relative, _⟩ => nomatch relative⟩
  | false => exact ⟨fun leads => ⟨rfl, leads⟩, fun leads => leads.2⟩

theorem placeFrom?_names (location : Location) (areNames : ∀ name ∈ names, IsName name) :
    placeFrom? location (names.map String.toList) = some (location ++ names) := by
  induction names generalizing location with
  | nil => exact congrArg some (List.append_nil location).symm
  | cons name names ih =>
      rcases List.forall_mem_cons.mp areNames with ⟨isName, areNames⟩
      rw [List.map_cons, placeFrom?_cons, step?_plain isName.1, String.ofList_toList,
        Option.bind_some, ih _ areNames, List.append_assoc]
      rfl

theorem placeFrom?_front (path : Path) :
    placeFrom? [] path.segments.names = placeFrom? [] path.front := by
  rcases names_eq_front path with same | same
  · rw [same]
  · rw [same, placeFrom?_append]
    cases placeFrom? [] path.front <;> rfl

/-- The place of a path that ends in a name. -/
theorem place?_of_segments {before : List (List Char)} {last : String}
    (named : path.segments = ⟨false, before ++ [last.toList]⟩) (plain : IsPlain last.toList) :
    path.place? = (placeFrom? [] before).map (· ++ [last]) := by
  have known := Bool.eq_false_iff.mp (known_of_segments named plain.1)
  rw [place?, if_neg known, named, placeFrom?_append]
  cases placeFrom? [] before with
  | none => rfl
  | some parent =>
      rw [Option.bind_some, placeFrom?_cons, step?_plain plain, String.ofList_toList]
      rfl

theorem placeFrom?_silent {silent : List (List Char)} (location : Location)
    (allSilent : ∀ name ∈ silent, (name.isEmpty || name == ['.']) = true) :
    placeFrom? location silent = some location := by
  induction silent with
  | nil => rfl
  | cons name silent ih =>
      rcases List.forall_mem_cons.mp allSilent with ⟨isSilent, allSilent⟩
      rw [placeFrom?_cons, step?_silent isSilent, Option.bind_some, ih allSilent]

theorem placeFrom?_trimmed (rooted : Bool) (location : Location) (before : List (List Char)) :
    placeFrom? location (trimmed rooted before) = placeFrom? location before := by
  rcases trimmed_spec rooted before with ⟨silent, split, allSilent⟩
  have whole := congrArg (placeFrom? location) split
  rw [placeFrom?_append] at whole
  rw [whole]
  cases placeFrom? location (trimmed rooted before) with
  | none => rfl
  | some place => exact (placeFrom?_silent place allSilent).symm

/-- A file beside another one has the place beside its place. -/
theorem withFileName_place? {before : List (List Char)} {last : List Char} {name : String}
    (named : path.segments = ⟨false, before ++ [last]⟩) (plain : IsPlain last)
    (isName : IsName name) :
    (path.withFileName name).place? = (placeFrom? [] before).map (· ++ [name]) := by
  rw [place?_of_segments (withFileName_segments named plain isName.2) isName.1,
    placeFrom?_trimmed]

/-- A place ends in the name that its path ends in. -/
theorem place?_getLast? {front : List (List Char)} {name : String} {place : Location}
    (named : path.segments.names = front ++ [name.toList]) (plain : IsPlain name.toList)
    (leads : path.place? = some place) : ∃ parent, place = parent ++ [name] := by
  rw [place?] at leads
  split at leads
  · cases leads
  · rw [named, placeFrom?_append] at leads
    rcases Option.bind_eq_some_iff.mp leads with ⟨parent, -, stepped⟩
    rw [placeFrom?_cons, step?_plain plain, String.ofList_toList] at stepped
    exact ⟨parent, (Option.some.inj stepped).symm⟩

/-- A path leads to a place inside the place of its front only by the name of that. -/
theorem place?_child_iff {before : List (List Char)} {segment : List Char} {last : String}
    {parent : Location} (named : path.segments = ⟨false, before ++ [segment]⟩)
    (leads : placeFrom? [] before = some parent) (plain : IsPlain last.toList) :
    path.place? = some (parent ++ [last]) ↔ segment = last.toList := by
  constructor
  · intro leadsThere
    rw [place?] at leadsThere
    split at leadsThere
    · cases leadsThere
    rw [named, placeFrom?_append, leads, Option.bind_some, placeFrom?_cons] at leadsThere
    rcases Option.bind_eq_some_iff.mp leadsThere with ⟨next, stepped, same⟩
    cases same
    have long : (parent ++ [last]).length = parent.length + 1 := List.length_append
    rcases segment_cases segment with silent | rfl | plainSegment
    · rw [step?_silent silent] at stepped
      rw [← Option.some.inj stepped] at long
      omega
    · cases parent with
      | nil => cases stepped
      | cons first below =>
          rw [step?_up (List.cons_ne_nil _ _)] at stepped
          rw [← Option.some.inj stepped, List.length_dropLast] at long
          omega
    · rw [step?_plain plainSegment, Option.some_inj, List.append_cancel_left_eq,
        List.singleton_inj] at stepped
      rw [← stepped, String.toList_ofList]
  · rintro rfl
    rw [place?_of_segments named plain, leads]
    rfl

/-- The path of a file ends in a name. -/
theorem segments_of_file {tree : FileTree} {place : Location} {contents : Contents}
    (followed : tree.follow path = .ok place)
    (held : tree.entryAt? place = some (.file contents)) :
    ∃ before last parent, path.segments = ⟨false, before ++ [last.toList]⟩ ∧
      IsPlain last.toList ∧ placeFrom? [] before = some parent ∧ place = parent ++ [last] := by
  rcases FileTree.follow_eq_ok.mp followed with ⟨leads, directories⟩
  rw [place?] at leads
  split at leads
  · cases leads
  case isFalse known =>
  rw [Bool.or_eq_true, not_or] at known
  rcases List.eq_nil_or_concat path.segments.names with none | ⟨before, last, named⟩
  · exact absurd none (segments_sound path).some_name
  rw [List.concat_eq_append] at named
  rw [named, placeFrom?_append] at leads
  rcases Option.bind_eq_some_iff.mp leads with ⟨parent, leadsBefore, stepped⟩
  rw [placeFrom?_cons] at stepped
  rcases Option.bind_eq_some_iff.mp stepped with ⟨next, stepped, same⟩
  cases same
  rw [stations, named, stationsFrom_append leadsBefore, stationsFrom_cons stepped] at directories
  have enters := directories parent (List.mem_append_right _ List.mem_cons_self)
  rcases FileTree.directory_of_step? enters stepped with isDirectory | ⟨plain, rfl⟩
  · rw [held] at isDirectory
    cases isDirectory
  · refine ⟨before, String.ofList last, parent, ?_, ?_, leadsBefore, rfl⟩
    · rw [String.toList_ofList, ← named, ← Bool.eq_false_iff.mpr known.2, isAbsolute]
    · rwa [String.toList_ofList]

theorem base?_of_place? {location : Location} (leads : path.place? = some location) :
    path.base? = some location ∧ path.segments.rooted = false ∧ path.text ≠ "" := by
  rw [place?] at leads
  by_cases unknown : (path.text.isEmpty || path.isAbsolute) = true
  · rw [if_pos unknown] at leads
    cases leads
  · rw [if_neg unknown] at leads
    rw [Bool.or_eq_true, not_or, String.isEmpty_iff] at unknown
    have relative := Bool.eq_false_iff.mpr unknown.2
    refine ⟨?_, relative, unknown.1⟩
    rw [base?, ← isAbsolute, if_neg unknown.2, ← placeFrom?_front, leads]

theorem descend_place? {root : Path} {location : Location} {last : String}
    (leads : root.base? = some location) (areNames : ∀ name ∈ names ++ [last], IsName name) :
    (root.descend (names ++ [last])).place? = some (location ++ (names ++ [last])) := by
  have isLast := areNames last (List.mem_append_right _ (List.mem_singleton_self _))
  have segments := descend_segments root areNames
  rcases base?_eq_some.mp leads with ⟨relative, leadsFront⟩
  rw [relative] at segments
  rw [place?_of_segments segments isLast.1, placeFrom?_append, leadsFront, Option.bind_some,
    placeFrom?_names location fun name inside => areNames name (List.mem_append_left _ inside),
    Option.map_some, List.append_assoc]

/-- Where a path below a directory leads is below the place of the directory. -/
theorem base?_of_descend {root : Path} {place : Location} {last : String}
    (areNames : ∀ name ∈ names ++ [last], IsName name)
    (leads : (root.descend (names ++ [last])).place? = some place) :
    ∃ location, root.base? = some location ∧ place = location ++ (names ++ [last]) := by
  cases isBase : root.base? with
  | some location =>
      rw [descend_place? isBase areNames, Option.some_inj] at leads
      exact ⟨location, rfl, leads.symm⟩
  | none =>
      have isLast := areNames last (List.mem_append_right _ (List.mem_singleton_self _))
      have segments := descend_segments root areNames
      rw [base?] at isBase
      cases relative : root.segments.rooted with
      | true =>
          rw [place?, isAbsolute, segments, relative, Bool.or_true, if_pos rfl] at leads
          cases leads
      | false =>
          rw [relative, if_neg (by decide)] at isBase
          rw [relative] at segments
          rw [place?_of_segments segments isLast.1, placeFrom?_append, isBase] at leads
          cases leads

theorem trailFrom_append {location place : Location} {front rest : List (List Char)}
    (leads : placeFrom? location front = some place) :
    trailFrom location (front ++ rest) = stationsFrom location front ++ trailFrom place rest := by
  rw [trailFrom, trailFrom, stationsFrom_append leads, placeFrom?_append, leads, Option.bind_some,
    List.append_assoc]

theorem trailFrom_names {location station : Location} (areNames : ∀ name ∈ names, IsName name)
    (inside : station ∈ trailFrom location (names.map String.toList)) :
    station <+: location ++ names := by
  induction names generalizing location with
  | nil =>
      rw [List.mem_singleton.mp inside]
      exact List.prefix_append _ _
  | cons name names ih =>
      rcases List.forall_mem_cons.mp areNames with ⟨isName, areNames⟩
      rw [List.map_cons, trailFrom_cons (step?_plain isName.1), String.ofList_toList] at inside
      rcases List.mem_cons.mp inside with rfl | below
      · exact List.prefix_append _ _
      · have deeper := ih areNames below
        rwa [List.append_assoc] at deeper

/-- What is there below a directory is found by its path. -/
theorem follow_descend {tree : FileTree} {root : Path} {location : Location} {last : String}
    (followed : tree.follow root = .ok location) (areNames : ∀ name ∈ names ++ [last], IsName name)
    (held : tree.entryAt? (location ++ (names ++ [last])) ≠ none) :
    tree.follow (root.descend (names ++ [last])) = .ok (location ++ (names ++ [last])) := by
  rcases FileTree.follow_eq_ok.mp followed with ⟨leads, directories⟩
  have isBase := (base?_of_place? leads).1
  refine FileTree.follow_eq_ok.mpr ⟨descend_place? isBase areNames, fun station isStation => ?_⟩
  rw [stations, descend_segments root areNames, stationsFrom_concat,
    trailFrom_append (base?_eq_some.mp isBase).2] at isStation
  rcases List.mem_append.mp isStation with isAbove | isBelow
  · refine directories station ?_
    rw [stations]
    rcases names_eq_front root with same | same
    · rwa [same]
    · rw [same, stationsFrom_append (base?_eq_some.mp isBase).2]
      exact List.mem_append_left _ isAbove
  · have above := trailFrom_names
      (fun name inside => areNames name (List.mem_append_left _ inside)) isBelow
    refine FileTree.directory_above ?_ ?_ held
    · rw [← List.append_assoc]
      exact above.trans (List.prefix_append _ _)
    · rintro rfl
      have long := above.length_le
      simp only [List.length_append, List.length_singleton] at long
      omega

end Path
end Hookify
