import Hookify.Proofs.Files.Places

namespace Hookify

/-!
# Paths by their segments

The text of a path and its segments determine each other.  So what is made of a
path, to be joined with another one or to get another name, is told by its
segments, and the slashes are counted only here.
-/

namespace Text

theorem splitFrom_eq_splitOn (separator : Char) (current chars : List Char) :
    splitFrom separator current chars =
      (chars.splitOn separator).modifyHead (current.reverse ++ ·) := by
  rw [List.splitOn_eq_splitOnP]
  induction chars generalizing current with
  | nil => simp [splitFrom]
  | cons c rest ih =>
      rw [splitFrom, List.splitOnP_cons_eq_if_modifyHead]
      by_cases separates : (c == separator) = true
      · rw [if_pos separates, if_pos separates, ih]
        cases List.splitOnP (· == separator) rest <;> simp
      · rw [if_neg separates, if_neg separates, ih, List.modifyHead_modifyHead]
        congr 1
        funext part
        simp

theorem splitFrom_nil_eq (separator : Char) (chars : List Char) :
    splitFrom separator [] chars = chars.splitOn separator := by
  rw [splitFrom_eq_splitOn]
  cases chars.splitOn separator <;> rfl

/-- No part of a text holds the separator. -/
theorem not_mem_of_mem_splitOn {separator : Char} {part : List Char} {chars : List Char}
    (isPart : part ∈ chars.splitOn separator) : separator ∉ part := by
  rw [List.splitOn_eq_splitOnP] at isPart
  induction chars generalizing part with
  | nil =>
      rw [List.splitOnP_nil, List.mem_singleton] at isPart
      rw [isPart]
      exact List.not_mem_nil
  | cons c rest ih =>
      rw [List.splitOnP_cons_eq_if_modifyHead] at isPart
      by_cases separates : (c == separator) = true
      · rw [if_pos separates] at isPart
        rcases List.mem_cons.mp isPart with rfl | later
        · exact List.not_mem_nil
        · exact ih later
      · rw [if_neg separates] at isPart
        rcases List.exists_cons_of_ne_nil (List.splitOnP_ne_nil (· == separator) rest) with
          ⟨first, others, split⟩
        rw [split, List.modifyHead_cons] at isPart
        rcases List.mem_cons.mp isPart with rfl | later
        · intro inside
          rcases List.mem_cons.mp inside with rfl | below
          · exact separates (beq_self_eq_true _)
          · exact ih (split ▸ List.mem_cons_self) below
        · exact ih (split ▸ List.mem_cons_of_mem _ later)

theorem splitOn_append_cons (separator : Char) (front back : List Char) :
    (front ++ separator :: back).splitOn separator =
      front.splitOn separator ++ back.splitOn separator := by
  rw [List.splitOn_eq_splitOnP, List.splitOn_eq_splitOnP, List.splitOn_eq_splitOnP]
  exact List.splitOnP_append_cons front back (beq_self_eq_true separator)

theorem splitOn_of_not_mem {separator : Char} {part : List Char} (free : separator ∉ part) :
    part.splitOn separator = [part] := by
  rw [List.splitOn_eq_splitOnP]
  refine List.splitOnP_eq_singleton fun c inside => ?_
  exact beq_eq_false_iff_ne.mpr fun same => free (same ▸ inside)

end Text

namespace Path

open Text

theorem joinNames_eq_intercalate (names : List (List Char)) :
    joinNames names = ['/'].intercalate names := by
  induction names with
  | nil => rfl
  | cons name rest ih =>
      cases rest with
      | nil => simp [joinNames]
      | cons next rest => simp [joinNames, ih, List.intercalate_cons_cons]

theorem joinNames_splitOn (chars : List Char) : joinNames (chars.splitOn '/') = chars := by
  rw [joinNames_eq_intercalate, List.intercalate_splitOn]

theorem segments_relative {path : Path} (relative : path.text.toList.head? ≠ some '/') :
    path.segments = ⟨false, path.text.toList.splitOn '/'⟩ := by
  rw [segments]
  split
  case h_1 rest chars =>
    rw [chars] at relative
    exact absurd rfl relative
  case h_2 => rw [splitFrom_nil_eq]

theorem segments_rooted {path : Path} {rest : List Char} (chars : path.text.toList = '/' :: rest) :
    path.segments = ⟨true, rest.splitOn '/'⟩ := by
  rw [segments, chars]
  exact congrArg _ (splitFrom_nil_eq '/' rest)

/-- The characters of a path: perhaps a slash, and a body that is cut at its slashes. -/
theorem segments_cases (path : Path) :
    ∃ body, path.text.toList = (if path.segments.rooted then '/' :: body else body) ∧
      path.segments.names = body.splitOn '/' ∧
      (path.segments.rooted = false → body.head? ≠ some '/') := by
  by_cases relative : path.text.toList.head? = some '/'
  · rcases List.head?_eq_some_iff.mp relative with ⟨rest, chars⟩
    rw [segments_rooted chars]
    exact ⟨rest, chars, rfl, nofun⟩
  · rw [segments_relative relative]
    exact ⟨_, rfl, rfl, fun _ => relative⟩

/-- Segments that a path can have. -/
structure Segments.Sound (segments : Segments) : Prop where
  some_name : segments.names ≠ []
  no_slash : ∀ name ∈ segments.names, '/' ∉ name
  /-- A relative path does not begin with a slash. -/
  begins : segments.rooted = false → ∀ next rest, segments.names ≠ [] :: next :: rest

theorem segments_sound (path : Path) : path.segments.Sound := by
  rcases segments_cases path with ⟨body, -, names, relative⟩
  refine ⟨?_, ?_, ?_⟩
  · rw [names]
    exact List.splitOn_ne_nil '/' body
  · rw [names]
    exact fun _ => not_mem_of_mem_splitOn
  · intro notRooted next rest same
    have written : body = '/' :: joinNames (next :: rest) := by
      rw [← joinNames_splitOn body, ← names, same]
      rfl
    exact relative notRooted (written ▸ rfl)

theorem splitOn_joinNames {names : List (List Char)} (some_name : names ≠ [])
    (no_slash : ∀ name ∈ names, '/' ∉ name) : (joinNames names).splitOn '/' = names := by
  rw [joinNames_eq_intercalate]
  exact List.splitOn_intercalate '/' no_slash some_name

theorem segments_path {segments : Segments} (sound : segments.Sound) :
    segments.path.segments = segments := by
  rcases segments with ⟨rooted, names⟩
  have cut := splitOn_joinNames sound.some_name sound.no_slash
  cases rooted with
  | true =>
      have chars : (Segments.path ⟨true, names⟩).text.toList = '/' :: joinNames names :=
        String.toList_ofList
      rw [segments_rooted chars, cut]
  | false =>
      have chars : (Segments.path ⟨false, names⟩).text.toList = joinNames names :=
        String.toList_ofList
      rw [segments_relative, chars, cut]
      rw [chars]
      rcases names with _ | ⟨name, _ | ⟨next, rest⟩⟩
      · exact nofun
      · intro slash
        exact sound.no_slash name List.mem_cons_self (List.mem_of_head? slash)
      · cases name with
        | nil => exact absurd rfl (sound.begins rfl next rest)
        | cons c name =>
            intro slash
            cases slash
            exact sound.no_slash _ List.mem_cons_self List.mem_cons_self

/-- The segments of a path determine its text. -/
theorem segments_injective : Function.Injective segments := by
  intro first second same
  rcases segments_cases first with ⟨body, chars, names, -⟩
  rcases segments_cases second with ⟨other, otherChars, otherNames, -⟩
  have bodies : body = other := by
    rw [← joinNames_splitOn body, ← names, same, otherNames, joinNames_splitOn]
  have texts : first.text = second.text := by
    rw [← String.toList_inj, chars, otherChars, bodies, same]
  cases first
  cases second
  cases texts
  rfl

/-! ## Joining -/

/-- The segments of a path that stay in front of what is joined to it. -/
def front (path : Path) : List (List Char) :=
  let names := path.segments.names
  if names.getLast? = some [] then names.dropLast else names

theorem splitOn_getLast?_eq_nil {chars : List Char}
    (ends : (chars.splitOn '/').getLast? = some []) :
    chars = [] ∨ ∃ front, chars = front ++ ['/'] := by
  rcases List.getLast?_eq_some_iff.mp ends with ⟨names, cut⟩
  have written := joinNames_splitOn chars
  cases names with
  | nil =>
      rw [cut] at written
      exact Or.inl written.symm
  | cons name names =>
      refine Or.inr ⟨joinNames (name :: names), ?_⟩
      have cutFront := splitOn_append_cons '/' (joinNames (name :: names)) []
      rw [splitOn_joinNames (List.cons_ne_nil _ _) fun part isPart => ?_] at cutFront
      · rw [← written, cut, show [([] : List Char)] = [].splitOn '/' from rfl, ← cutFront,
          joinNames_splitOn]
      · exact not_mem_of_mem_splitOn (cut ▸ List.mem_append_left _ isPart)

/-- The segments of a text with a known beginning. -/
theorem segments_of_body {path : Path} {rooted : Bool} {body : List Char}
    (chars : path.text.toList = if rooted then '/' :: body else body)
    (relative : rooted = false → body.head? ≠ some '/') :
    path.segments = ⟨rooted, body.splitOn '/'⟩ := by
  cases rooted with
  | true => exact segments_rooted chars
  | false =>
      have written : path.text.toList = body := chars
      rw [← written]
      exact segments_relative (written ▸ relative rfl)

theorem join_of_slash {base path : Path} (relative : path.isAbsolute = false)
    (slash : base.text.toList.getLast? = some '/') :
    (base.join path).text.toList = base.text.toList ++ path.text.toList := by
  have written : base.text.isEmpty = false := by
    rw [Bool.eq_false_iff, ne_eq, String.isEmpty_iff]
    intro nothing
    rw [nothing] at slash
    cases slash
  rw [join, relative, written, if_neg (by decide), if_pos (beq_iff_eq.mpr slash)]
  exact String.toList_append

theorem join_of_name {base path : Path} (relative : path.isAbsolute = false)
    (written : base.text.toList ≠ []) (name : base.text.toList.getLast? ≠ some '/') :
    (base.join path).text.toList = base.text.toList ++ '/' :: path.text.toList := by
  have notEmpty : base.text.isEmpty = false := by
    rw [Bool.eq_false_iff, ne_eq, String.isEmpty_iff]
    intro nothing
    exact written (nothing ▸ rfl)
  rw [join, relative, notEmpty, if_neg (by decide), if_neg (mt beq_iff_eq.mp name)]
  rw [String.toList_append, String.toList_append, List.append_assoc]
  rfl

theorem join_segments {base path : Path} (relative : path.isAbsolute = false) :
    (base.join path).segments = ⟨base.segments.rooted, base.front ++ path.segments.names⟩ := by
  rcases segments_cases path with ⟨added, addedChars, addedNames, addedBegins⟩
  rw [isAbsolute] at relative
  have written : path.text.toList = added := by rw [addedChars, if_neg (by simp [relative])]
  rcases segments_cases base with ⟨body, chars, names, begins⟩
  rw [addedNames, front]
  by_cases ends : base.segments.names.getLast? = some []
  · rw [if_pos ends]
    rcases splitOn_getLast?_eq_nil (names ▸ ends) with rfl | ⟨front, rfl⟩
    · rw [names]
      refine segments_of_body ?_ fun _ => addedBegins relative
      cases rooted : base.segments.rooted with
      | true =>
          rw [rooted] at chars
          rw [join_of_slash relative (by rw [chars]; rfl), chars, written]
          rfl
      | false =>
          rw [rooted] at chars
          rw [join, String.toList_eq_nil_iff.mp chars, if_pos (by simp), written]
          rfl
    · have cut : base.segments.names = front.splitOn '/' ++ [[]] := by
        rw [names]
        exact splitOn_append_cons '/' front []
      rw [cut, List.dropLast_concat, ← splitOn_append_cons]
      refine segments_of_body ?_ fun notRooted => ?_
      · rw [join_of_slash relative, chars, written]
        · split <;> simp
        · rw [chars]
          split <;> simp [List.getLast?_cons]
      · have same := begins notRooted
        cases front with
        | nil => exact absurd rfl same
        | cons c front => exact same
  · rw [if_neg ends, names, ← splitOn_append_cons]
    have body_ne_nil : body ≠ [] := by
      rintro rfl
      rw [names] at ends
      exact ends rfl
    have no_slash : body.getLast? ≠ some '/' := by
      intro slash
      rcases List.getLast?_eq_some_iff.mp slash with ⟨front, rfl⟩
      rw [names, splitOn_append_cons] at ends
      exact ends List.getLast?_concat
    refine segments_of_body ?_ fun notRooted => ?_
    · rw [join_of_name relative, chars, written]
      · split <;> simp
      · rw [chars]
        split
        · exact List.cons_ne_nil _ _
        · exact body_ne_nil
      · rw [chars]
        split
        · rwa [List.getLast?_cons_of_ne_nil body_ne_nil]
        · exact no_slash
    · have same := begins notRooted
      cases body with
      | nil => exact absurd rfl body_ne_nil
      | cons c body => exact same

theorem segments_of_name {name : String} (no_slash : '/' ∉ name.toList) :
    (Path.mk name).segments = ⟨false, [name.toList]⟩ := by
  have relative : (Path.mk name).text.toList.head? ≠ some '/' := fun slash =>
    no_slash (List.mem_of_head? slash)
  rw [segments_relative relative, splitOn_of_not_mem no_slash]

theorem join_name_segments {base : Path} {name : String} (no_slash : '/' ∉ name.toList) :
    (base.join ⟨name⟩).segments = ⟨base.segments.rooted, base.front ++ [name.toList]⟩ := by
  rw [join_segments (by rw [isAbsolute, segments_of_name no_slash]), segments_of_name no_slash]

/-- Whatever the path is, the new name is the last one. -/
theorem withFileName_names (path : Path) {name : String} (no_slash : '/' ∉ name.toList) :
    ∃ front, (path.withFileName name).segments.names = front ++ [name.toList] := by
  rw [withFileName]
  split
  · exact ⟨_, congrArg Segments.names (join_name_segments no_slash)⟩
  · exact ⟨_, congrArg Segments.names (join_name_segments no_slash)⟩

/-! ## The last name -/

/-- A file or a directory can have the name. -/
def IsName (name : String) : Prop :=
  IsPlain name.toList ∧ '/' ∉ name.toList

instance (name : String) : Decidable (IsName name) :=
  inferInstanceAs (Decidable (_ ∧ _))

/-- A name is its stem alone, or its stem and its extension with a dot between them. -/
theorem splitName_spec (name : List Char) :
    splitName name = (name, none) ∨
      ∃ stem extension, name = stem ++ '.' :: extension ∧ stem ≠ [] ∧ '.' ∉ extension ∧
        splitName name = (stem, some extension) := by
  by_cases dotted : '.' ∈ name
  · rcases List.eq_append_cons_of_mem (List.mem_reverse.mpr dotted) with
      ⟨extension, stem, reversed, noDot⟩
    have whole : name = stem.reverse ++ '.' :: extension.reverse := by
      simpa using congrArg List.reverse reversed
    have behind : name.reverse.takeWhile (· != '.') = extension := by
      have passed : ∀ c ∈ extension, (c != '.') = true := fun c inside =>
        bne_iff_ne.mpr fun isDot => noDot (isDot ▸ inside)
      rw [reversed, List.takeWhile_append_of_pos passed, List.takeWhile_cons_of_neg (by decide),
        List.append_nil]
    have length : name.length = stem.reverse.length + (extension.reverse.length + 1) := by
      rw [whole, List.length_append, List.length_cons]
    have shorter : (extension.reverse.length == name.length) = false :=
      beq_eq_false_iff_ne.mpr (by omega)
    have front : name.take (name.length - extension.reverse.length - 1) = stem.reverse := by
      rw [show name.length - extension.reverse.length - 1 = stem.reverse.length by omega, whole]
      exact List.take_left
    rw [splitName, behind, shorter, front, Bool.false_or]
    cases stem with
    | nil => exact Or.inl (if_pos rfl)
    | cons c stem =>
        refine Or.inr ⟨_, _, whole, by simp, by simpa using noDot, if_neg (by simp)⟩
  · left
    have passed : ∀ c ∈ name.reverse, (c != '.') = true := fun c inside =>
      bne_iff_ne.mpr fun isDot => dotted (List.mem_reverse.mp (isDot ▸ inside))
    have behind : name.reverse.takeWhile (· != '.') = name.reverse := by
      have whole : (name.reverse ++ []).takeWhile (· != '.') = name.reverse ++ [] :=
        List.takeWhile_append_of_pos passed
      rwa [List.append_nil] at whole
    rw [splitName, behind, List.reverse_reverse, if_pos (by simp)]

theorem mem_of_mem_stem {name : List Char} {c : Char} (inStem : c ∈ (splitName name).1) :
    c ∈ name := by
  rcases splitName_spec name with same | ⟨stem, extension, whole, -, -, same⟩
  · rwa [same] at inStem
  · rw [same] at inStem
    rw [whole]
    exact List.mem_append_left _ inStem

theorem stem_ne_nil {name : List Char} (some_name : name ≠ []) : (splitName name).1 ≠ [] := by
  rcases splitName_spec name with same | ⟨stem, extension, -, some_stem, -, same⟩
  · rwa [same]
  · rwa [same]

section LastName

variable {path : Path} {rooted : Bool} {before : List (List Char)} {last : List Char}

/-- The segments before the last name, without those at their end that do not count. -/
def trimmed (rooted : Bool) (before : List (List Char)) : List (List Char) :=
  (dropSilent rooted before.reverse).reverse

theorem dropSilent_suffix (rooted : Bool) (names : List (List Char)) :
    ∃ silent, names = silent ++ dropSilent rooted names ∧
      ∀ name ∈ silent, (name.isEmpty || name == ['.']) = true := by
  induction names with
  | nil => exact ⟨[], rfl, nofun⟩
  | cons name rest ih =>
      cases rest with
      | nil =>
          rw [dropSilent]
          by_cases silent : isSilent (! rooted) name = true
          · rw [if_pos silent]
            refine ⟨[name], rfl, List.forall_mem_singleton.mpr ?_⟩
            rw [isSilent, Bool.or_eq_true, Bool.and_eq_true] at silent
            rw [Bool.or_eq_true]
            exact silent.imp_right And.left
          · rw [if_neg silent]
            exact ⟨[], rfl, nofun⟩
      | cons next rest =>
          rw [dropSilent]
          by_cases silent : isSilent false name = true
          · rw [if_pos silent]
            rcases ih with ⟨names, split, allSilent⟩
            refine ⟨name :: names, congrArg (name :: ·) split,
              List.forall_mem_cons.mpr ⟨?_, allSilent⟩⟩
            simpa [isSilent] using silent
          · rw [if_neg silent]
            exact ⟨[], rfl, nofun⟩

theorem dropSilent_plain (rooted : Bool) {last : List Char} (plain : IsPlain last)
    (rest : List (List Char)) : dropSilent rooted (last :: rest) = last :: rest := by
  have counts : ∀ leading, ¬ isSilent leading last = true := by
    intro leading
    simp [isSilent, plain.1, plain.2.1]
  cases rest with
  | nil => exact if_neg (counts _)
  | cons next rest => exact if_neg (counts _)

theorem dropSilent_head?_ne_nil (rooted : Bool) (names : List (List Char)) :
    (dropSilent rooted names).head? ≠ some [] := by
  induction names with
  | nil => exact nofun
  | cons name rest ih =>
      cases rest with
      | nil =>
          rw [dropSilent]
          split
          · exact nofun
          · rename_i counts
            rintro ⟨⟩
            exact counts rfl
      | cons next rest =>
          rw [dropSilent]
          split
          · exact ih
          · rename_i counts
            rintro ⟨⟩
            exact counts rfl

/-- The name of a file is a proper one. -/
theorem isName_of_fileName? {path : Path} {name : String} (known : path.fileName? = some name) :
    IsName name := by
  rcases dropSilent_suffix path.segments.rooted path.segments.names.reverse with ⟨silent, split, -⟩
  have written := dropSilent_head?_ne_nil path.segments.rooted path.segments.names.reverse
  rw [fileName?, reversedNames] at known
  rcases names : dropSilent path.segments.rooted path.segments.names.reverse with _ | ⟨last, rest⟩
  · rw [names] at known
    cases known
  · rw [names] at known written split
    by_cases dots : (last == ['.'] || last == ['.', '.']) = true
    · simp only [dots, if_true] at known
      cases known
    · simp only [dots] at known
      cases known
      rw [Bool.or_eq_true, beq_iff_eq, beq_iff_eq, not_or] at dots
      have isLast : last ∈ path.segments.names := by
        rw [← List.mem_reverse, split]
        exact List.mem_append_right _ List.mem_cons_self
      rw [IsName, String.toList_ofList]
      exact ⟨⟨fun nothing => written (nothing ▸ rfl), dots⟩,
        (segments_sound path).no_slash last isLast⟩

theorem slash_not_mem_fileName (path : Path) : '/' ∉ (path.fileName?.getD "").toList := by
  cases known : path.fileName? with
  | none => exact List.not_mem_nil
  | some name => exact (isName_of_fileName? known).2

theorem trimmed_spec (rooted : Bool) (before : List (List Char)) :
    ∃ silent, before = trimmed rooted before ++ silent ∧
      ∀ name ∈ silent, (name.isEmpty || name == ['.']) = true := by
  rcases dropSilent_suffix rooted before.reverse with ⟨silent, split, allSilent⟩
  refine ⟨silent.reverse, ?_, fun name isName => allSilent name (List.mem_reverse.mp isName)⟩
  rw [trimmed, ← List.reverse_append, ← split, List.reverse_reverse]

theorem trimmed_getLast?_ne_nil (rooted : Bool) (before : List (List Char)) :
    (trimmed rooted before).getLast? ≠ some [] := by
  rw [trimmed, List.getLast?_reverse]
  exact dropSilent_head?_ne_nil rooted before.reverse

/-- A relative path that ends in a name can be followed from the working directory. -/
theorem known_of_segments (named : path.segments = ⟨false, before ++ [last]⟩)
    (written : last ≠ []) : (path.text.isEmpty || path.isAbsolute) = false := by
  rw [isAbsolute, named, Bool.or_false, Bool.eq_false_iff, ne_eq, String.isEmpty_iff]
  intro nothing
  rw [segments_relative (by rw [nothing]; exact nofun), nothing] at named
  have split := congrArg Segments.names named
  cases before with
  | nil => exact written (List.cons.inj split).1.symm
  | cons first before => simp at split

variable (named : path.segments = ⟨rooted, before ++ [last]⟩) (plain : IsPlain last)
include named plain

theorem reversedNames_eq : reversedNames path.segments = last :: before.reverse := by
  rw [named, reversedNames, List.reverse_append, List.reverse_singleton, List.singleton_append]
  exact dropSilent_plain rooted plain before.reverse

theorem fileName?_eq : path.fileName? = some (String.ofList last) := by
  rw [fileName?, reversedNames_eq named plain]
  exact if_neg (by simpa using ⟨plain.2.1, plain.2.2⟩)

theorem parent?_eq : path.parent? = some (Segments.path ⟨rooted, trimmed rooted before⟩) := by
  rw [parent?, reversedNames_eq named plain, named]
  rfl

theorem stem?_eq : path.stem? = some (String.ofList (splitName last).1) := by
  rw [stem?, fileName?_eq named plain, Option.map_some, String.toList_ofList]

theorem extension?_eq : path.extension? = (splitName last).2.map String.ofList := by
  rw [extension?, fileName?_eq named plain, Option.bind_some, String.toList_ofList]

omit plain in
theorem trimmed_sound (some_name : trimmed rooted before ≠ []) :
    (Segments.mk rooted (trimmed rooted before)).Sound := by
  have sound := segments_sound path
  rw [named] at sound
  rcases trimmed_spec rooted before with ⟨silent, split, -⟩
  have inside : trimmed rooted before ⊆ before ++ [last] := by
    intro name isName
    rw [split]
    exact List.mem_append_left _ (List.mem_append_left _ isName)
  refine ⟨some_name, fun name isName => sound.no_slash name (inside isName), ?_⟩
  intro notRooted next rest same
  refine sound.begins notRooted next (rest ++ silent ++ [last]) ?_
  have begins : trimmed rooted before = [] :: next :: rest := same
  show before ++ [last] = _
  rw [split, begins]
  rfl

omit plain in
/-- What stays of the directory of a path when a name is put into it. -/
theorem trimmed_front :
    (Segments.path ⟨rooted, trimmed rooted before⟩).segments.rooted = rooted ∧
      (Segments.path ⟨rooted, trimmed rooted before⟩).front = trimmed rooted before := by
  by_cases nothing : trimmed rooted before = []
  · rw [nothing]
    cases rooted <;> exact ⟨rfl, rfl⟩
  · have back := segments_path (trimmed_sound named nothing)
    rw [front, back]
    exact ⟨rfl, if_neg (trimmed_getLast?_ne_nil rooted before)⟩

theorem withFileName_segments {name : String} (no_slash : '/' ∉ name.toList) :
    (path.withFileName name).segments = ⟨rooted, trimmed rooted before ++ [name.toList]⟩ := by
  rw [withFileName, fileName?_eq named plain, parent?_eq named plain]
  dsimp only
  rw [join_name_segments no_slash, (trimmed_front named).1, (trimmed_front named).2]

/-- The name with another extension. -/
theorem withExtension_segments {extension : String} (no_slash : '/' ∉ extension.toList) :
    (path.withExtension extension).segments =
      ⟨rooted, before ++ [(splitName last).1 ++
        if extension.isEmpty then [] else '.' :: extension.toList]⟩ := by
  have sound := segments_sound path
  rw [named] at sound
  have written : (if extension.isEmpty then String.ofList (splitName last).1
      else String.ofList (splitName last).1 ++ "." ++ extension).toList =
        (splitName last).1 ++ if extension.isEmpty then [] else '.' :: extension.toList := by
    split
    · rw [String.toList_ofList, List.append_nil]
    · rw [String.toList_append, String.toList_append, String.toList_ofList, List.append_assoc]
      rfl
  rw [withExtension, stem?_eq named plain]
  dsimp only
  rw [reversedNames_eq named plain, written, named, List.tail_cons, List.reverse_reverse]
  refine segments_path ⟨by simp, ?_, ?_⟩
  · intro name isName
    rcases List.mem_append.mp isName with inside | isLast
    · exact sound.no_slash name (List.mem_append_left _ inside)
    · rw [List.mem_singleton.mp isLast]
      intro slash
      rcases List.mem_append.mp slash with inStem | inExtension
      · exact sound.no_slash last (List.mem_append_right _ (List.mem_singleton_self _))
          (mem_of_mem_stem inStem)
      · split at inExtension
        · exact List.not_mem_nil inExtension
        · rcases List.mem_cons.mp inExtension with isDot | inside
          · cases isDot
          · exact no_slash inside
  · intro notRooted next rest same
    rcases before with _ | ⟨first, _ | ⟨second, others⟩⟩
    · exact absurd (List.cons.inj same).2 (List.cons_ne_nil _ _).symm
    · refine sound.begins notRooted last [] ?_
      rw [(List.cons.inj same).1]
      rfl
    · refine sound.begins notRooted second (others ++ [last]) ?_
      rw [(List.cons.inj same).1]
      rfl

end LastName

end Path
end Hookify
