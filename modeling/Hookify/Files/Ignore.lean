import Hookify.Files.Glob
import Hookify.Text.Lines

namespace Hookify

/-!
# Ignore files

A directory may hold a file with rules about what to leave alone below it.
Each line is a pattern: a slash in it ties it to the directory, a slash at its
end restricts it to directories, and a mark of exclamation before it takes
things back that an earlier line ignores.  The last line that matches decides;
malformed lines are passed over.
-/

/-- The name of the file with the rules of a directory. -/
def ignoreFileName : String := ".ignore"

/-- A line of an ignore file. -/
structure IgnoreRule where
  glob : Glob
  ignores : Bool
  directoriesOnly : Bool
  deriving Repr, Inhabited

namespace IgnoreRule

/-! ## Patterns -/

/-- The ranges of a class and what follows it, read behind the opening bracket and the mark of
negation.  `ranges` are those so far, the last one first; `waiting` tells that a dash has been read
behind the last one. -/
def classFrom (first waiting : Bool) (ranges : List (Char × Char)) :
    List Char → Option (List (Char × Char) × List Char)
  | [] => none
  | c :: rest =>
      if c == ']' && ! first then
        some (if waiting then ('-', '-') :: ranges else ranges, rest)
      else if c == '-' && ! first && ! waiting then classFrom false true ranges rest
      else
        match waiting, ranges with
        | true, (start, _) :: others =>
            if c < start then none else classFrom false false ((start, c) :: others) rest
        | _, _ => classFrom false false ((c, c) :: ranges) rest

/-- A class and what follows it, read behind the opening bracket. -/
def class? : List Char → Option (GlobPart × List Char)
  | '!' :: rest | '^' :: rest =>
      (classFrom true false [] rest).map fun (ranges, behind) => (.one true ranges, behind)
  | chars => (classFrom true false [] chars).map fun (ranges, behind) => (.one false ranges, behind)

/-- What follows two stars that stand alone between slashes, if they do. -/
def afterStars? (nested : Bool) : List Char → Option (List Char)
  | [] => some []
  | c :: rest =>
      if c == '/' then some rest
      else if nested && (c == ',' || c == '\x7d') then some (c :: rest)
      else none

mutual

/-- A pattern, read behind a character and the parts before it, the last one first.  Within braces
it ends at a comma or a closing brace. `fuel` bounds the number of parts. -/
def globFrom : Nat → Bool → Option Char → Glob → List Char → Option (Glob × List Char)
  | 0, _, _, _, _ => none
  | _ + 1, nested, _, parts, [] => if nested then none else some (parts.reverse, [])
  | fuel + 1, nested, before, parts, c :: rest =>
      if c == '\\' then
        match rest with
        | escaped :: behind =>
            globFrom fuel nested (some escaped) (Glob.literal escaped :: parts) behind
        | [] => none
      else if c == '?' then globFrom fuel nested (some c) (.one true [('/', '/')] :: parts) rest
      else if c == '[' then
        match class? rest with
        | some (part, behind) => globFrom fuel nested (some ']') (part :: parts) behind
        | none => none
      else if c == '\x7b' then
        match branchesFrom fuel rest with
        | some (branches, behind) =>
            globFrom fuel nested (some '\x7d') (.either branches :: parts) behind
        | none => none
      else if c == '\x7d' then if nested then some (parts.reverse, c :: rest) else none
      else if c == ',' && nested then some (parts.reverse, c :: rest)
      else if c == '*' then
        match rest with
        | '*' :: behind =>
            let atStart := parts.isEmpty || before == some '/'
            match (if atStart then afterStars? nested behind else none) with
            | some after =>
                let reachesEnd := behind.head? != some '/'
                let part := if reachesEnd && ! parts.isEmpty then .run true else .directories
                globFrom fuel nested (some '/') (part :: parts) after
            | none => globFrom fuel nested (some c) (.run false :: parts) behind
        | _ => globFrom fuel nested (some c) (.run false :: parts) rest
      else globFrom fuel nested (some c) (Glob.literal c :: parts) rest

/-- The alternatives of a brace, read behind it or behind a comma. -/
def branchesFrom : Nat → List Char → Option (List Glob × List Char)
  | 0, _ => none
  | fuel + 1, chars =>
      match globFrom fuel true none [] chars with
      | some (branch, ',' :: behind) =>
          (branchesFrom fuel behind).map fun (branches, behind) => (branch :: branches, behind)
      | some (branch, _ :: behind) => some ([branch], behind)
      | _ => none

end

/-- The pattern of a line, unless it is malformed. -/
def glob? (chars : List Char) : Option Glob :=
  (globFrom (2 * chars.length + 1) false none [] chars).map (·.1)

/-! ## Lines -/

/-- A text without the character it ends in, if that is the given one. -/
def dropEnd? (c : Char) (chars : List Char) : Option (List Char) :=
  if chars.getLast? == some c then some chars.dropLast else none

/-- A text ends with another one. -/
def endsWith (ending chars : List Char) : Bool :=
  ending.reverse.isPrefixOf chars.reverse

/-- A line with the blanks at its end taken off, unless the last one is escaped. -/
def lineBody (line : List Char) : List Char :=
  if endsWith ['\\', ' '] line then line else Text.trimEndChars line

/-- The pattern as it has to match a path from the directory of the rules on. -/
def anchored (tied : Bool) (chars : List Char) : List Char :=
  let isFree := ! tied && ! chars.contains '/'
  let hasStars := "**/".toList.isPrefixOf chars || chars == "**".toList
  let pattern := if isFree && ! hasStars then "**/".toList ++ chars else chars
  if endsWith "/**".toList pattern then pattern ++ "/*".toList else pattern

/-- The rule of a line. Comments and blank lines have none. -/
def ofLine? (line : List Char) : Option IgnoreRule :=
  let body := lineBody line
  if line.head? == some '#' || body.isEmpty then none
  else
    let escaped := "\\!".toList.isPrefixOf body || "\\#".toList.isPrefixOf body
    let negated := ! escaped && body.head? == some '!'
    let pattern := if escaped || negated then body.drop 1 else body
    let tied := pattern.head? == some '/'
    let pattern := if tied then pattern.drop 1 else pattern
    let (pattern, directoriesOnly) :=
      match dropEnd? '/' pattern with
      | some shorter => ((dropEnd? '\\' shorter).getD shorter, true)
      | none => (pattern, false)
    (glob? (anchored tied pattern)).map fun glob => ⟨glob, ! negated, directoriesOnly⟩

/-- The rules of an ignore file. -/
def ofText (text : String) : List IgnoreRule :=
  let chars :=
    match text.toList with
    | '\ufeff' :: rest => rest
    | chars => chars
  (Text.lineChars chars).filterMap ofLine?

/-- A rule concerns a path, which is given from the directory of the rule on. -/
def concerns (rule : IgnoreRule) (path : List Char) (isDirectory : Bool) : Bool :=
  (! rule.directoriesOnly || isDirectory) && Glob.matchesChars rule.glob path

/-- What rules say about a path: that it is ignored, that it is not, or nothing. -/
def verdict? (rules : List IgnoreRule) (path : List Char) (isDirectory : Bool) : Option Bool :=
  (rules.reverse.find? (·.concerns path isDirectory)).map (·.ignores)

end IgnoreRule
end Hookify
