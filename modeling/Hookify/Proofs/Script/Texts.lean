import Hookify.Proofs.Script.Starts

namespace Hookify
namespace Script

/-!
# Texts that readers take

A reader sees the text behind what was taken last through the lexeme that comes
first in it.  So it can be said of a text what a reader makes of it, wherever
the text stands: with the cursor before the text, the reader succeeds, and the
cursor then stands behind the text.  What two readers take one after the other
is taken by both together.

The reader of a list of arguments does not know how many there are.  Where each
text between the commas is read as one element, it finds as many of them as
there are texts.
-/

/-! ## Texts at the cursor -/

/-- The space and the comments at the head of a text. -/
def gapOf (text : List Char) : Gap :=
  passGap .space [] false 0 text

/-- The same part of a gap, wherever it begins. -/
def GapMode.unplaced : GapMode → GapMode
  | .space => .space
  | .line _ => .line 0
  | .opening _ => .opening 0
  | .block _ afterStar => .block 0 afterStar

/-- What a gap leaves does not depend on its place, nor on the comments before it. -/
theorem passGap_congr {mode other : GapMode} (same : mode.unplaced = other.unplaced)
    (remarks others : List Remark) (hasNewline : Bool) (position place : Nat) (chars : List Char) :
    (passGap mode remarks hasNewline position chars).rest =
        (passGap other others hasNewline place chars).rest ∧
      (passGap mode remarks hasNewline position chars).hasNewline =
        (passGap other others hasNewline place chars).hasNewline := by
  induction chars generalizing mode other remarks others hasNewline position place with
  | nil => exact ⟨rfl, rfl⟩
  | cons c rest ih =>
      cases mode <;> cases other <;> cases same <;> simp only [passGap]
      case cons.space.space.refl =>
        split
        · exact ih (by rfl) ..
        · split
          · exact ih (by rfl) ..
          · split
            · exact ih (by rfl) ..
            · exact ⟨rfl, rfl⟩
      case cons.line.line.refl =>
        split
        · exact ih (by rfl) ..
        · exact ih (by rfl) ..
      case cons.opening.opening.refl => exact ih (by rfl) ..
      case cons.block.block.refl =>
        split
        · exact ih (by rfl) ..
        · exact ih (by rfl) ..

/-- The cursor stands at the first lexeme of what is left of a script. -/
structure Cursor.At (cursor : Cursor) (text : List Char) : Prop where
  behind : cursor.behind = text
  newline : cursor.newline = (gapOf text).hasNewline
  here : cursor.here = (gapOf text).rest
  lexeme : cursor.lexeme = (readLexeme (gapOf text).rest).1
  rest : cursor.rest = (gapOf text).rest.drop (readLexeme (gapOf text).rest).2

section At

variable {cursor : Cursor} {text rest : List Char} {lexeme : Lexeme}

theorem Cursor.resume_at (cursor : Cursor) : cursor.resume.At cursor.behind := by
  have same : GapMode.space.unplaced = GapMode.space.unplaced := rfl
  obtain ⟨left, newline⟩ :=
    passGap_congr same cursor.remarks [] false cursor.last 0 cursor.behind
  exact ⟨rfl, newline, left, by rw [gapOf, ← left]; rfl, by rw [gapOf, ← left]; rfl⟩

theorem Cursor.advance_at (cursor : Cursor) : cursor.advance.At cursor.rest :=
  Cursor.resume_at _

theorem Cursor.At.withNode (stands : cursor.At text) (node : Sketch) :
    (cursor.withNode node).At text :=
  ⟨stands.behind, stands.newline, stands.here, stands.lexeme, stands.rest⟩

theorem Cursor.At.withIn (stands : cursor.At text) (allowed : Bool) :
    ({ cursor with allowIn := allowed }).At text :=
  ⟨stands.behind, stands.newline, stands.here, stands.lexeme, stands.rest⟩

/-- Before what is left of a script, the text is a lexeme of certain characters, and space. -/
structure IsLexeme (lexeme : Lexeme) (chars text rest : List Char) : Prop where
  gap : (gapOf (text ++ rest)).rest = chars ++ rest
  reads : readLexeme (chars ++ rest) = (lexeme, chars.length)

/-- The lexeme at the cursor and what is behind it. -/
theorem Cursor.At.single {chars : List Char} (stands : cursor.At (text ++ rest))
    (isLexeme : IsLexeme lexeme chars text rest) :
    cursor.lexeme = lexeme ∧ cursor.advance.At rest := by
  have behind : cursor.rest = rest := by
    rw [stands.rest, isLexeme.gap, isLexeme.reads, List.drop_left]
  refine ⟨?_, behind ▸ cursor.advance_at⟩
  rw [stands.lexeme, isLexeme.gap, isLexeme.reads]

end At

/-! ## Running readers -/

section Lexemes

variable {cursor : Cursor} {chars : List Char}

theorem isSign_eq (stands : cursor.lexeme = .sign chars) (text : String) :
    cursor.isSign text = (chars == text.toList) := by
  rw [Cursor.isSign, stands]

theorem isWord_eq (stands : cursor.lexeme = .word chars) (text : String) :
    cursor.isWord text = (chars == text.toList) := by
  rw [Cursor.isWord, stands]

theorem isSign_eq_false (stands : cursor.lexeme = .word chars) (text : String) :
    cursor.isSign text = false := by
  rw [Cursor.isSign, stands]

theorem lexeme_of_isSign {text : String} (stands : cursor.isSign text = true) :
    cursor.lexeme = .sign text.toList := by
  rw [Cursor.isSign] at stands
  split at stands
  · rename_i lexeme
    rw [lexeme, eq_of_beq stands]
  · cases stands

end Lexemes

namespace Reader

/-- A certain lexeme as a node. -/
def leafOf (kind : Kind) (lexeme : Lexeme) : Reader Sketch := do
  if (← get).lexeme = lexeme then leaf kind else fail

section Runs

variable {cursor behind : Cursor} {found : Sketch} {First Result : Type}

theorem run_bind {first : Reader First} {next : First → Reader Result} {result : First}
    (reads : first cursor = .ok result behind) : (first >>= next) cursor = next result behind := by
  change EStateM.bind first next cursor = _
  rw [EStateM.bind, reads]

/-- Where two readers do the same, they also do the same with what follows. -/
theorem run_bind_congr {first other : Reader First} {next : First → Reader Result}
    (same : first cursor = other behind) : (first >>= next) cursor = (other >>= next) behind := by
  change EStateM.bind first next cursor = EStateM.bind other next behind
  rw [EStateM.bind, EStateM.bind, same]

theorem run_get (next : Cursor → Reader Result) : (get >>= next) cursor = next cursor cursor :=
  rfl

theorem run_advance (next : Unit → Reader Result) :
    (advance >>= next) cursor = next () cursor.advance :=
  rfl

theorem run_atSign (text : String) (next : Bool → Reader Result) :
    (atSign text >>= next) cursor = next (cursor.isSign text) cursor :=
  rfl

theorem run_atWord (text : String) (next : Bool → Reader Result) :
    (atWord text >>= next) cursor = next (cursor.isWord text) cursor :=
  rfl

theorem run_sign {text : String} (stands : cursor.lexeme = .sign text.toList) :
    sign text cursor = .ok () cursor.advance := by
  rw [sign, run_atSign, isSign_eq stands, beq_self_eq_true]
  rfl

theorem run_withIn {reader : Reader Result} {result : Result} {allowed : Bool}
    (reads : reader { cursor with allowIn := allowed } = .ok result behind) :
    withIn allowed reader cursor = .ok result { behind with allowIn := cursor.allowIn } := by
  rw [withIn, run_get]
  change (reader >>= _) { cursor with allowIn := allowed } = _
  rw [run_bind reads]
  rfl

theorem many_eq_nil {Item : Type} {item : Reader (Option Item)}
    (nothing : item cursor = .ok none cursor) (budget : Nat) :
    many item budget cursor = .ok [] cursor := by
  cases budget with
  | zero => rfl
  | succ budget => rw [many, run_bind nothing]; rfl

theorem lexeme_of_leafOf {kind : Kind} {lexeme : Lexeme}
    (reads : leafOf kind lexeme cursor = .ok found behind) :
    cursor.lexeme = lexeme ∧ leaf kind cursor = .ok found behind := by
  rw [leafOf, run_get] at reads
  split at reads
  · rename_i stands
    exact ⟨stands, reads⟩
  · cases reads

theorem lexeme_of_sign {text : String} {result : Unit}
    (reads : sign text cursor = .ok result behind) :
    cursor.lexeme = .sign text.toList ∧ behind = cursor.advance := by
  rw [sign, run_atSign] at reads
  split at reads
  · rename_i isSign
    cases reads
    exact ⟨lexeme_of_isSign isSign, rfl⟩
  · cases reads

end Runs
end Reader

/-! ## Texts that are taken -/

open Reader

/-- Before what is left of a script, the reader takes the whole text. -/
def Reads {Result : Type} (reader : Reader Result) (text rest : List Char) : Prop :=
  ∀ cursor : Cursor, cursor.At (text ++ rest) →
    ∃ found behind, reader cursor = .ok found behind ∧ behind.At rest

section Reads

variable {First Result : Type} {first : Reader First} {next : First → Reader Result}
  {text later rest : List Char}

theorem Reads.bind (reads : Reads first text (later ++ rest))
    (goesOn : ∀ found, Reads (next found) later rest) :
    Reads (first >>= next) (text ++ later) rest := by
  intro cursor stands
  rw [List.append_assoc] at stands
  obtain ⟨found, behind, readsFirst, standsBehind⟩ := reads cursor stands
  rw [run_bind readsFirst]
  exact goesOn found behind standsBehind

theorem Reads.bind_nil (reads : Reads first text rest)
    (goesOn : ∀ found, Reads (next found) [] rest) : Reads (first >>= next) text rest := by
  have both : Reads (first >>= next) (text ++ []) rest := Reads.bind reads goesOn
  rwa [List.append_nil] at both

theorem reads_finish (kind : Kind) (start : Nat) (children : List Sketch) (rest : List Char) :
    Reads (finish kind start children) [] rest :=
  fun _ stands => ⟨_, _, rfl, stands.withNode _⟩

theorem reads_leafOf {kind : Kind} {lexeme : Lexeme} {chars : List Char}
    (isLexeme : IsLexeme lexeme chars text rest) : Reads (leafOf kind lexeme) text rest := by
  intro cursor stands
  obtain ⟨same, behind⟩ := stands.single isLexeme
  rw [leafOf, run_get, if_pos same]
  exact ⟨_, _, rfl, behind.withNode _⟩

theorem reads_sign {sign : String} {chars : List Char}
    (isSign : IsLexeme (.sign sign.toList) chars text rest) :
    Reads (Reader.sign sign) text rest := by
  intro cursor stands
  obtain ⟨lexeme, behind⟩ := stands.single isSign
  exact ⟨(), cursor.advance, run_sign lexeme, behind⟩

end Reads

/-! ## Lists of arguments -/

namespace Grammar

/-- So many elements of a list with a comma between each two, and the closing parenthesis. -/
def elements (grammar : Grammar) : Nat → Reader (List Sketch)
  | 0 => do
      sign ")"
      return []
  | 1 => do
      let last ← listItem grammar
      sign ")"
      return [last]
  | count + 2 => do
      let first ← listItem grammar
      sign ","
      return first :: (← elements grammar (count + 1))

/-- So many arguments of a call. -/
def argumentsOf (grammar : Grammar) (count : Nat) : Reader Sketch := do
  let start := (← get).start
  sign "("
  let inputs ← withIn true (elements grammar count)
  finish .arguments start inputs

/-- What a list of arguments goes on with: an element and the comma behind it, or a comma alone. -/
def argument? (grammar : Grammar) : Reader (Option (List Sketch)) := do
  let cursor ← get
  if cursor.isSign ")" then
    return none
  else if cursor.isSign "," then
    advance
    return some []
  else
    let first ← listItem grammar
    unless (← atSign ")") do
      sign ","
    return some [first]

theorem commaItems_eq (grammar : Grammar) : commaItems grammar ")" (listItem grammar) = (do
    let groups ← many (argument? grammar) grammar.budget
    sign ")"
    return groups.flatten) := rfl

/-- The texts of elements with a comma between each two, and the closing parenthesis. -/
def closed : List (List Char) → List Char
  | [] => [')']
  | [last] => last ++ [')']
  | first :: second :: others => first ++ (',' :: closed (second :: others))

/-- The arguments of a call. -/
def enclosed (texts : List (List Char)) : List Char :=
  '(' :: closed texts

/-- The text is read as one element of a list, and it does not begin like the end of one. -/
structure IsElement (grammar : Grammar) (text rest : List Char) : Prop where
  reads : Reads (listItem grammar) text rest
  begins : ∀ sign ∈ [")", ",", ";"], (readLexeme (gapOf (text ++ rest)).rest).1 ≠ .sign sign.toList

/-- Each of the texts is an element where it stands in the list. -/
inductive AreElements (grammar : Grammar) (rest : List Char) : List (List Char) → Prop where
  | nil : AreElements grammar rest []
  | last {text : List Char} (isElement : IsElement grammar text (')' :: rest)) :
      AreElements grammar rest [text]
  | cons {first second : List Char} {others : List (List Char)}
      (isElement : IsElement grammar first (',' :: (closed (second :: others) ++ rest)))
      (areElements : AreElements grammar rest (second :: others)) :
      AreElements grammar rest (first :: second :: others)

/-- The texts are the arguments of a call, each of them one. -/
structure AreArguments (grammar : Grammar) (texts : List (List Char)) (rest : List Char) :
    Prop where
  enough : texts.length ≤ grammar.budget
  areElements : AreElements grammar rest texts

section Elements

variable {grammar : Grammar} {cursor behind : Cursor} {found : Sketch} {texts : List (List Char)}
  {text rest : List Char}

theorem lexeme_of_arguments (reads : arguments grammar cursor = .ok found behind) :
    cursor.lexeme = .sign "(".toList := by
  rw [arguments, run_get] at reads
  obtain ⟨result, first, takes, -⟩ := exists_of_bind reads
  exact (lexeme_of_sign takes).1

theorem single_sign {c : Char} (sign : String) (stands : cursor.At (c :: rest))
    (isSign : IsLexeme (.sign sign.toList) [c] [c] rest) :
    cursor.lexeme = .sign sign.toList ∧ cursor.advance.At rest := by
  change cursor.At ([c] ++ rest) at stands
  exact stands.single isSign

theorem IsElement.isSign_eq_false (isElement : IsElement grammar text rest)
    (stands : cursor.At (text ++ rest)) {sign : String} (among : sign ∈ [")", ",", ";"]) :
    cursor.isSign sign = false := by
  refine Bool.eq_false_iff.mpr fun isSign => isElement.begins sign among ?_
  rw [← stands.lexeme, lexeme_of_isSign isSign]

theorem argument?_eq_none (closing : cursor.lexeme = .sign ")".toList) :
    argument? grammar cursor = .ok none cursor := by
  rw [argument?, run_get, isSign_eq closing, if_pos (by decide)]
  rfl

/-- An element is the next argument, and the comma behind it is passed over. -/
theorem argument?_eq (isElement : IsElement grammar text rest) (stands : cursor.At (text ++ rest)) :
    argument? grammar cursor = (listItem grammar >>= fun first => do
      unless (← atSign ")") do
        sign ","
      return some [first]) cursor := by
  rw [argument?, run_get, isElement.isSign_eq_false stands (by decide),
    if_neg Bool.false_ne_true, isElement.isSign_eq_false stands (by decide),
    if_neg Bool.false_ne_true]

theorem AreElements.isSemicolon_eq_false (are : AreElements grammar rest texts)
    (stands : cursor.At (closed texts ++ rest)) : cursor.isSign ";" = false := by
  cases are with
  | nil =>
      have closing := single_sign ")" stands ⟨rfl, rfl⟩
      rw [isSign_eq closing.1]
      decide
  | last isElement | cons isElement _ =>
      rw [closed, List.append_assoc] at stands
      exact isElement.isSign_eq_false stands (by decide)

/-- Each of the texts becomes one argument, for the reader of so many and for that of any list. -/
theorem AreElements.reads (are : AreElements grammar rest texts) {budget : Nat}
    (enough : texts.length ≤ budget) (stands : cursor.At (closed texts ++ rest)) :
    ∃ inputs groups behind, elements grammar texts.length cursor = .ok inputs behind.advance ∧
      behind.lexeme = .sign ")".toList ∧ behind.advance.At rest ∧
      many (argument? grammar) budget cursor = .ok groups behind ∧ groups.flatten = inputs := by
  induction are generalizing budget cursor with
  | nil =>
      obtain ⟨closing, standsBehind⟩ := single_sign ")" stands ⟨rfl, rfl⟩
      exact ⟨[], [], cursor, run_bind (run_sign closing), closing, standsBehind,
        many_eq_nil (argument?_eq_none closing) budget, rfl⟩
  | @last text isElement =>
      obtain ⟨budget, rfl⟩ := Nat.exists_eq_add_of_le' enough
      rw [closed, List.append_assoc] at stands
      obtain ⟨input, next, reads, standsNext⟩ := isElement.reads cursor stands
      obtain ⟨closing, standsBehind⟩ := single_sign ")" standsNext ⟨rfl, rfl⟩
      have first : argument? grammar cursor = .ok (some [input]) next := by
        rw [argument?_eq isElement stands, run_bind reads, run_atSign, isSign_eq closing]
        rfl
      refine ⟨[input], [[input]], next, ?_, closing, standsBehind, ?_, rfl⟩
      · exact (run_bind reads).trans (run_bind (run_sign closing))
      · exact (run_bind first).trans (run_bind (many_eq_nil (argument?_eq_none closing) budget))
  | @cons first second others isElement _ ih =>
      obtain ⟨budget, rfl⟩ := Nat.exists_eq_add_of_le' enough
      rw [closed, List.append_assoc] at stands
      obtain ⟨input, next, reads, standsNext⟩ := isElement.reads cursor stands
      obtain ⟨comma, standsSecond⟩ := single_sign "," standsNext ⟨rfl, rfl⟩
      obtain ⟨inputs, groups, behind, readsOthers, closing, standsBehind, finds, rfl⟩ :=
        ih (Nat.le_add_left _ budget) standsSecond
      have item : argument? grammar cursor = .ok (some [input]) next.advance := by
        rw [argument?_eq isElement stands, run_bind reads, run_atSign, isSign_eq comma,
          if_neg (by decide), run_bind (run_sign comma)]
        rfl
      refine ⟨input :: groups.flatten, [input] :: groups, behind, ?_, closing, standsBehind, ?_,
        rfl⟩
      · exact (run_bind reads).trans ((run_bind (run_sign comma)).trans (run_bind readsOthers))
      · exact (run_bind item).trans (run_bind finds)

/-- The reader for any list of arguments finds as many of them as there are. -/
theorem AreArguments.arguments_eq (are : AreArguments grammar texts rest)
    (stands : cursor.At (enclosed texts ++ rest)) :
    arguments grammar cursor = argumentsOf grammar texts.length cursor := by
  obtain ⟨opening, standsInside⟩ := single_sign "(" stands ⟨rfl, rfl⟩
  obtain ⟨inputs, groups, behind, finds, closing, -, findsGroups, rfl⟩ :=
    are.areElements.reads are.enough (standsInside.withIn true)
  have all : commaItems grammar ")" (listItem grammar) { cursor.advance with allowIn := true } =
      .ok groups.flatten behind.advance := by
    rw [commaItems_eq, run_bind findsGroups, run_bind (run_sign closing)]
    rfl
  rw [arguments, argumentsOf, run_get, run_get, run_bind (run_sign opening),
    run_bind (run_sign opening), run_atSign, are.areElements.isSemicolon_eq_false standsInside,
    if_neg Bool.false_ne_true, run_bind (run_withIn all), run_bind (run_withIn finds)]

theorem AreArguments.reads (are : AreArguments grammar texts rest) :
    Reads (argumentsOf grammar texts.length) (enclosed texts) rest := by
  intro cursor stands
  obtain ⟨opening, standsInside⟩ := single_sign "(" stands ⟨rfl, rfl⟩
  obtain ⟨inputs, -, behind, finds, -, standsBehind, -⟩ :=
    are.areElements.reads are.enough (standsInside.withIn true)
  rw [argumentsOf, run_get, run_bind (run_sign opening), run_bind (run_withIn finds)]
  exact ⟨_, _, rfl, (standsBehind.withIn _).withNode _⟩

end Elements
end Grammar
end Script
end Hookify
