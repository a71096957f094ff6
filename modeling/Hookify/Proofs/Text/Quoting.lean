import Hookify.Proofs.Text.Ascii
import Hookify.Script.Lexeme
import Mathlib.Data.List.TakeWhile

namespace Hookify
namespace Text

open Script

/-!
# What literals mean

The text of a literal is read from its opening quote on.  A backslash begins an
escape sequence, every other character stands for itself.  Strings and
templates share most escape sequences, and differ in three points: the
characters that may not stand for themselves, the line ends, and the sequences
of digits that only strings have.

The value of a literal is a list of code units, of which a character beyond the
basic plane has two.  It is computed by `Quoting.read?`, and described by
`Quoting.Reads`, on which proofs go by induction.
-/

/-! ## Code units -/

/-- The code units of a code point. -/
def codeUnits (point : Nat) : List Nat :=
  if point < 0x10000 then [point]
  else [0xD800 + (point - 0x10000) / 0x400, 0xDC00 + (point - 0x10000) % 0x400]

/-- The code units of a character. -/
def unitsOf (c : Char) : List Nat :=
  codeUnits c.toNat

/-! ## Escape sequences -/

def hexDigit? (c : Char) : Option Nat :=
  if isAsciiDigit c then some (c.toNat - '0'.toNat)
  else if 'a' ≤ c && c ≤ 'f' then some (c.toNat - 'a'.toNat + 10)
  else if 'A' ≤ c && c ≤ 'F' then some (c.toNat - 'A'.toNat + 10)
  else none

/-- The number that hexadecimal digits stand for. -/
def hexValue? (digits : List Char) : Option Nat :=
  digits.foldlM (fun value c => (hexDigit? c).map (16 * value + ·)) 0

/-- A code unit in so many hexadecimal digits. -/
def coded? (count : Nat) (chars : List Char) : Option (List Nat × Nat) :=
  if chars.length < count then none
  else (hexValue? (chars.take count)).map fun unit => ([unit], count + 1)

/-- A code point in hexadecimal digits up to a brace. -/
def codedPoint? (chars : List Char) : Option (List Nat × Nat) :=
  let digits := chars.takeWhile (· != '\x7d')
  if ! digits.isEmpty && digits.length < chars.length then
    ((hexValue? digits).filter (· ≤ 0x10FFFF)).map fun point =>
      (codeUnits point, digits.length + 3)
  else
    none

/-- The code of a control character that has a letter. -/
def control? : Char → Option Nat
  | 'b' => some 0x8
  | 't' => some 0x9
  | 'n' => some 0xA
  | 'v' => some 0xB
  | 'f' => some 0xC
  | 'r' => some 0xD
  | _ => none

/-- What an escape sequence stands for, in strings as well as in templates, and the number of its
characters behind the backslash.  A line end stands for nothing. -/
def escape? : List Char → Option (List Nat × Nat)
  | [] => none
  | c :: rest =>
      if c == 'x' then coded? 2 rest
      else if c == 'u' then
        if rest.head? == some '\x7b' then codedPoint? rest.tail else coded? 4 rest
      else if isLineEnd c then
        some ([], if c == '\r' && rest.head? == some '\n' then 2 else 1)
      else if isAsciiDigit c then
        if c == '0' && ! rest.head?.any isAsciiDigit then some ([0], 1) else none
      else some (((control? c).map ([·])).getD (unitsOf c), 1)

/-! ## Forms of escape sequences -/

section Escapes

variable {c : Char} {chars digits taken rest others : List Char} {units : List Nat} {count : Nat}

theorem isAsciiAlphanumeric_of_hexDigit? {value : Nat} (found : hexDigit? c = some value) :
    isAsciiAlphanumeric c = true := by
  rw [hexDigit?] at found
  rw [isAsciiAlphanumeric, isAsciiLetter]
  split at found
  · rename_i digit
    rw [digit, Bool.or_true]
  split at found
  · rename_i small
    simp only [Bool.and_eq_true, decide_eq_true_eq] at small
    simp [small.1, Char.le_trans small.2 (by decide : 'f' ≤ 'z')]
  split at found
  · rename_i capital
    simp only [Bool.and_eq_true, decide_eq_true_eq] at capital
    simp [capital.1, Char.le_trans capital.2 (by decide : 'F' ≤ 'Z')]
  · cases found

theorem isAsciiAlphanumeric_of_hexValue? {value : Nat} (found : hexValue? digits = some value) :
    ∀ c ∈ digits, isAsciiAlphanumeric c = true := by
  rw [hexValue?] at found
  generalize 0 = start at found
  induction digits generalizing start with
  | nil => exact fun _ absent => absurd absent List.not_mem_nil
  | cons first others ih =>
      rw [List.foldlM_cons] at found
      obtain ⟨next, isNext, found⟩ := Option.bind_eq_some_iff.mp found
      obtain ⟨_, isDigit, _⟩ := Option.map_eq_some_iff.mp isNext
      intro c member
      rcases List.mem_cons.mp member with rfl | later
      · exact isAsciiAlphanumeric_of_hexDigit? isDigit
      · exact ih next found c later

theorem coded?_append (length : digits.length = count) (rest : List Char) :
    coded? count (digits ++ rest) = (hexValue? digits).map fun unit => ([unit], count + 1) := by
  have enough : ¬ (digits ++ rest).length < count := by
    rw [List.length_append]
    omega
  rw [coded?, if_neg enough, ← length, List.take_left]

theorem codedPoint?_append {value : Nat} (some : digits ≠ [])
    (isValue : hexValue? digits = .some value) (rest : List Char) : codedPoint? (digits ++ '\x7d' :: rest) =
      if value ≤ 0x10FFFF then .some (codeUnits value, digits.length + 3) else none := by
  have inside : ∀ c ∈ digits, (c != '\x7d') = true := by
    intro c member
    rw [bne_iff_ne]
    rintro rfl
    exact absurd (isAsciiAlphanumeric_of_hexValue? isValue _ member) (by decide)
  have same : (digits ++ '\x7d' :: rest).takeWhile (· != '\x7d') = digits := by
    rw [List.takeWhile_append_of_pos inside, List.takeWhile_cons_of_neg (by decide),
      List.append_nil]
  rw [codedPoint?, same, isValue]
  simp only [Option.filter_some]
  split <;> simp_all

/-- The forms of an escape sequence that strings and templates share: what it takes, what follows,
and what it stands for. -/
inductive IsEscape : List Char → List Char → List Nat → Prop where
  | pair {digits rest : List Char} {value : Nat} (length : digits.length = 2)
      (isValue : hexValue? digits = some value) : IsEscape ('x' :: digits) rest [value]
  | unit {digits rest : List Char} {value : Nat} (length : digits.length = 4)
      (isValue : hexValue? digits = some value) : IsEscape ('u' :: digits) rest [value]
  | point {digits rest : List Char} {value : Nat} (some : digits ≠ [])
      (isValue : hexValue? digits = .some value) (small : value ≤ 0x10FFFF) :
      IsEscape ('u' :: '\x7b' :: (digits ++ ['\x7d'])) rest (codeUnits value)
  | lineEnd {c : Char} {rest : List Char} (ends : isLineEnd c = true)
      (alone : c = '\r' → rest.head? ≠ some '\n') : IsEscape [c] rest []
  | lineEnds {rest : List Char} : IsEscape ['\r', '\n'] rest []
  | zero {rest : List Char} (apart : rest.head?.any isAsciiDigit = false) : IsEscape ['0'] rest [0]
  | single {c : Char} {rest : List Char} (inLine : isLineEnd c = false)
      (noDigit : isAsciiDigit c = false) (noX : c ≠ 'x') (noU : c ≠ 'u') :
      IsEscape [c] rest (((control? c).map ([·])).getD (unitsOf c))

theorem escape?_of_isEscape (isEscape : IsEscape taken rest units) :
    escape? (taken ++ rest) = some (units, taken.length) := by
  cases isEscape with
  | pair length isValue =>
      rw [List.cons_append, escape?, if_pos (by decide), coded?_append length, isValue,
        List.length_cons, length]
      rfl
  | @unit digits _ _ length isValue =>
      have noBrace : (digits ++ rest).head? ≠ some '\x7b' := by
        cases digits with
        | nil => cases length
        | cons c others =>
            rw [List.cons_append, List.head?_cons]
            rintro ⟨rfl⟩
            exact absurd (isAsciiAlphanumeric_of_hexValue? isValue _ List.mem_cons_self) (by decide)
      rw [List.cons_append, escape?, if_neg (by decide), if_pos (by decide),
        if_neg (mt beq_iff_eq.mp noBrace), coded?_append length, isValue, List.length_cons, length]
      rfl
  | point some isValue small =>
      rw [List.cons_append, escape?, if_neg (by decide), if_pos (by decide), List.cons_append,
        if_pos (by rw [List.head?_cons]; exact beq_self_eq_true _), List.tail_cons,
        List.append_assoc, List.singleton_append, codedPoint?_append some isValue, if_pos small]
      simp
  | @lineEnd c _ ends alone =>
      have noX : c ≠ 'x' := by rintro rfl; exact absurd ends (by decide)
      have noU : c ≠ 'u' := by rintro rfl; exact absurd ends (by decide)
      have single : (c == '\r' && rest.head? == some '\n') = false := by
        rw [Bool.and_eq_false_iff, beq_eq_false_iff_ne, beq_eq_false_iff_ne]
        exact imp_iff_not_or.mp alone
      simp [escape?, noX, noU, ends, single]
  | lineEnds => rfl
  | zero apart => simp [escape?, apart, isLineEnd, isAsciiDigit]
  | single inLine noDigit noX noU => simp [escape?, noX, noU, inLine, noDigit]

/-- Behind a letter, so many digits are taken. -/
theorem exists_digits_of_coded? (found : coded? count chars = some (units, taken.length)) :
    ∃ digits rest value, chars = digits ++ rest ∧ digits.length = count ∧
      hexValue? digits = some value ∧ units = [value] ∧ taken.length = count + 1 := by
  rw [coded?] at found
  split at found
  · cases found
  · rename_i enough
    obtain ⟨value, isValue, same⟩ := Option.map_eq_some_iff.mp found
    obtain ⟨rfl, length⟩ := Prod.mk.inj same
    refine ⟨chars.take count, chars.drop count, value, (List.take_append_drop _ _).symm, ?_,
      isValue, rfl, length.symm⟩
    rw [List.length_take]
    omega

/-- Behind a letter and a brace, digits are taken up to the other brace. -/
theorem exists_digits_of_codedPoint? (found : codedPoint? chars = some (units, taken.length)) :
    ∃ digits rest value, chars = digits ++ '\x7d' :: rest ∧ digits ≠ [] ∧
      hexValue? digits = some value ∧ value ≤ 0x10FFFF ∧ units = codeUnits value ∧
        taken.length = digits.length + 3 := by
  simp only [codedPoint?] at found
  split at found
  · rename_i closed
    rw [Bool.and_eq_true, Bool.not_eq_true', List.isEmpty_eq_false_iff, decide_eq_true_eq] at closed
    obtain ⟨value, isPoint, same⟩ := Option.map_eq_some_iff.mp found
    obtain ⟨isValue, small⟩ := Option.filter_eq_some_iff.mp isPoint
    obtain ⟨rfl, length⟩ := Prod.mk.inj same
    have split := List.takeWhile_append_dropWhile (p := (· != '\x7d')) (l := chars)
    cases behind : chars.dropWhile (· != '\x7d') with
    | nil =>
        rw [behind, List.append_nil] at split
        exact absurd closed.2 (by rw [split]; exact Nat.lt_irrefl _)
    | cons c rest =>
        obtain rfl : c = '\x7d' := by
          have stops := List.head_dropWhile_not (· != '\x7d') (l := chars) (by simp [behind])
          simpa [behind] using stops
        exact ⟨_, rest, value, by rw [← behind, split], closed.1, isValue,
          of_decide_eq_true small, rfl, length.symm⟩
  · cases found

theorem isEscape_of_escape? (found : escape? (taken ++ rest) = some (units, taken.length)) :
    IsEscape taken rest units := by
  generalize whole : taken ++ rest = chars at found
  cases chars with
  | nil => cases found
  | cons c chars =>
    -- What is taken is known by its length.
    have takes : ∀ front behind : List Char, c :: chars = front ++ behind →
        taken.length = front.length → taken = front ∧ rest = behind :=
      fun _ _ split length => List.append_inj (whole.trans split) length
    rw [escape?] at found
    split_ifs at found with isX isU isBrace ends isDouble isDigit isZero
    · obtain ⟨digits, behind, value, rfl, length, isValue, rfl, count⟩ :=
        exists_digits_of_coded? found
      obtain rfl := beq_iff_eq.mp isX
      obtain ⟨rfl, rfl⟩ := takes ('x' :: digits) _ rfl (by rw [count, List.length_cons, length])
      exact .pair length isValue
    · obtain ⟨digits, behind, value, split, some, isValue, small, rfl, count⟩ :=
        exists_digits_of_codedPoint? found
      obtain rfl := beq_iff_eq.mp isU
      obtain ⟨others, rfl⟩ := List.head?_eq_some_iff.mp (beq_iff_eq.mp isBrace)
      obtain rfl : others = _ := split
      obtain ⟨rfl, rfl⟩ := takes ('u' :: '\x7b' :: (digits ++ ['\x7d'])) behind
        (by simp) (by simp [count])
      exact .point some isValue small
    · obtain ⟨digits, behind, value, rfl, length, isValue, rfl, count⟩ :=
        exists_digits_of_coded? found
      obtain rfl := beq_iff_eq.mp isU
      obtain ⟨rfl, rfl⟩ := takes ('u' :: digits) _ rfl (by rw [count, List.length_cons, length])
      exact .unit length isValue
    · rw [Bool.and_eq_true, beq_iff_eq, beq_iff_eq] at isDouble
      obtain ⟨rfl, follows⟩ := isDouble
      obtain ⟨others, rfl⟩ := List.head?_eq_some_iff.mp follows
      obtain ⟨rfl, count⟩ := Prod.mk.inj (Option.some.inj found)
      obtain ⟨rfl, rfl⟩ := takes ['\r', '\n'] _ rfl count.symm
      exact .lineEnds
    · obtain ⟨rfl, count⟩ := Prod.mk.inj (Option.some.inj found)
      obtain ⟨rfl, rfl⟩ := takes [c] _ rfl count.symm
      refine .lineEnd ends fun isReturn follows => isDouble ?_
      rw [isReturn, follows]
      rfl
    · rw [Bool.and_eq_true, beq_iff_eq, Bool.not_eq_true'] at isZero
      obtain ⟨rfl, apart⟩ := isZero
      obtain ⟨rfl, count⟩ := Prod.mk.inj (Option.some.inj found)
      obtain ⟨rfl, rfl⟩ := takes ['0'] _ rfl count.symm
      exact .zero apart
    · obtain ⟨rfl, count⟩ := Prod.mk.inj (Option.some.inj found)
      obtain ⟨rfl, rfl⟩ := takes [c] _ rfl count.symm
      exact .single (Bool.not_eq_true _ ▸ ends) (Bool.not_eq_true _ ▸ isDigit)
        (mt beq_iff_eq.mpr isX) (mt beq_iff_eq.mpr isU)

/-- An escape sequence depends on what follows only where a digit or a line feed would belong to
it. -/
theorem IsEscape.before (isEscape : IsEscape taken rest units)
    (digit : rest.head?.any isAsciiDigit = false → others.head?.any isAsciiDigit = false)
    (line : others.head? = some '\n' → rest.head? = some '\n') : IsEscape taken others units := by
  cases isEscape with
  | pair length isValue => exact .pair length isValue
  | unit length isValue => exact .unit length isValue
  | point some isValue small => exact .point some isValue small
  | lineEnd ends alone => exact .lineEnd ends fun isReturn => mt line (alone isReturn)
  | lineEnds => exact .lineEnds
  | zero apart => exact .zero (digit apart)
  | single inLine noDigit noX noU => exact .single inLine noDigit noX noU

/-- An escape sequence of several characters has letters, digits and braces only, or is a line
end. -/
theorem IsEscape.forms (isEscape : IsEscape taken rest units) : (∃ c, taken = [c]) ∨
    taken = ['\r', '\n'] ∨ ∀ c ∈ taken, isAsciiAlphanumeric c = true ∨ c = '\x7b' ∨ c = '\x7d' := by
  cases isEscape with
  | pair _ isValue =>
      refine .inr (.inr (List.forall_mem_cons.mpr ⟨.inl (by decide), fun c member => .inl ?_⟩))
      exact isAsciiAlphanumeric_of_hexValue? isValue c member
  | unit _ isValue =>
      refine .inr (.inr (List.forall_mem_cons.mpr ⟨.inl (by decide), fun c member => .inl ?_⟩))
      exact isAsciiAlphanumeric_of_hexValue? isValue c member
  | point _ isValue _ =>
      refine .inr (.inr (List.forall_mem_cons.mpr ⟨.inl (by decide),
        List.forall_mem_cons.mpr ⟨.inr (.inl rfl), List.forall_mem_append.mpr
          ⟨fun c member => .inl ?_, List.forall_mem_singleton.mpr (.inr (.inr rfl))⟩⟩⟩))
      exact isAsciiAlphanumeric_of_hexValue? isValue c member
  | lineEnds => exact .inr (.inl rfl)
  | lineEnd _ _ | zero _ | single _ _ _ _ => exact .inl ⟨_, rfl⟩

end Escapes

/-! ## Digits -/

def isOctal (c : Char) : Bool :=
  '0' ≤ c && c ≤ '7'

/-- The sequences of digits that only strings have: up to three octal digits, of which a code unit
has at most eight bits, and the other two digits, which stand for themselves. -/
def digitEscape? : List Char → Option (List Nat × Nat)
  | [] => none
  | c :: rest =>
      if isOctal c then
        let digits := c :: (rest.take (if c ≤ '3' then 2 else 1)).takeWhile isOctal
        some ([digits.foldl (fun value digit => 8 * value + (digit.toNat - '0'.toNat)) 0],
          digits.length)
      else if isAsciiDigit c then some (unitsOf c, 1)
      else none

/-! ## Quotes -/

/-- How a text between quotes is read. -/
structure Quoting where
  /-- What a character stands for in front of others, if it may stand there without a backslash. -/
  char? : Char → List Char → Option (List Nat)
  /-- What an escape sequence stands for, and the number of its characters. -/
  escape? : List Char → Option (List Nat × Nat)

/-- A string between two marks. -/
def Quoting.string (mark : Char) : Quoting where
  char? c _ := if c == mark || c == '\n' || c == '\r' then none else some (unitsOf c)
  escape? chars := (Text.escape? chars).or (digitEscape? chars)

/-- A character ends a template, or opens a substitution in it, in front of others. -/
def isMarked (c : Char) (rest : List Char) : Bool :=
  c == '\x60' || (c == '$' && rest.head?.any (· == '\x7b'))

/-- The text of a template that holds no substitution.  All line ends stand for a line feed. -/
def Quoting.template : Quoting where
  char? c rest :=
    if isMarked c rest then none
    else if c == '\r' then some (if rest.head? == some '\n' then [] else [0xA])
    else some (unitsOf c)
  escape? := Text.escape?

namespace Quoting

/-- A character of a string stands for itself; the mark and the ends of lines may not stand
there. -/
theorem string_char?_eq_some_iff {mark c : Char} {rest : List Char} {units : List Nat} :
    (string mark).char? c rest = some units ↔
      (c ≠ mark ∧ c ≠ '\n' ∧ c ≠ '\r') ∧ unitsOf c = units := by
  simp [string, and_assoc]

theorem string_escape? (mark : Char) (chars : List Char) :
    (string mark).escape? chars = (Text.escape? chars).or (digitEscape? chars) :=
  rfl

theorem template_char? (c : Char) (rest : List Char) : template.char? c rest =
    if isMarked c rest then none
    else if c == '\r' then some (if rest.head? == some '\n' then [] else [0xA])
    else some (unitsOf c) :=
  rfl

theorem template_escape? (chars : List Char) : template.escape? chars = Text.escape? chars :=
  rfl

/-- The value of a text; `skip` characters belong to an escape sequence that has been read. -/
def read? (quoting : Quoting) : Nat → List Char → Option (List Nat)
  | 0, [] => some []
  | _ + 1, [] => none
  | skip + 1, _ :: rest => quoting.read? skip rest
  | 0, c :: rest =>
      if c == '\\' then
        (quoting.escape? rest).bind fun sequence =>
          (quoting.read? sequence.2 rest).map (sequence.1 ++ ·)
      else
        (quoting.char? c rest).bind fun units => (quoting.read? 0 rest).map (units ++ ·)

/-- What stands behind the backslashes that begin the escape sequences of a text. -/
def escapes (quoting : Quoting) : Nat → List Char → List (List Char)
  | _, [] => []
  | skip + 1, _ :: rest => quoting.escapes skip rest
  | 0, c :: rest =>
      if c == '\\' then
        rest :: quoting.escapes (((quoting.escape? rest).map (·.2)).getD 0) rest
      else quoting.escapes 0 rest

/-- A text has a value. -/
inductive Reads (quoting : Quoting) : List Char → List Nat → Prop where
  | nil : Reads quoting [] []
  | char {c : Char} {rest : List Char} {units value : List Nat} (plain : c ≠ '\\')
      (stands : quoting.char? c rest = some units) (reads : Reads quoting rest value) :
      Reads quoting (c :: rest) (units ++ value)
  | escape {taken rest : List Char} {units value : List Nat}
      (stands : quoting.escape? (taken ++ rest) = some (units, taken.length))
      (reads : Reads quoting rest value) :
      Reads quoting ('\\' :: (taken ++ rest)) (units ++ value)

variable {quoting : Quoting} {chars taken rest : List Char} {value : List Nat} {c : Char}

theorem read?_append (taken rest : List Char) :
    quoting.read? taken.length (taken ++ rest) = quoting.read? 0 rest := by
  induction taken with
  | nil => rfl
  | cons c others ih => exact ih

theorem escapes_append (taken rest : List Char) :
    quoting.escapes taken.length (taken ++ rest) = quoting.escapes 0 rest := by
  induction taken with
  | nil => rfl
  | cons c others ih => exact ih

/-- Whatever is skipped stands at the front. -/
theorem exists_of_read? {skip : Nat} (found : quoting.read? skip chars = some value) :
    ∃ taken rest, chars = taken ++ rest ∧ taken.length = skip ∧
      quoting.read? 0 rest = some value := by
  induction chars generalizing skip with
  | nil =>
      cases skip with
      | zero => exact ⟨[], [], rfl, rfl, found⟩
      | succ skip => cases found
  | cons c others ih =>
      cases skip with
      | zero => exact ⟨[], c :: others, rfl, rfl, found⟩
      | succ skip =>
          obtain ⟨taken, rest, rfl, length, found⟩ := ih found
          exact ⟨c :: taken, rest, rfl, congrArg Nat.succ length, found⟩

theorem read?_eq_some_iff : quoting.read? 0 chars = some value ↔ quoting.Reads chars value := by
  constructor
  · intro found
    induction size : chars.length using Nat.strongRecOn generalizing chars value with
    | ind bound ih =>
        cases chars with
        | nil =>
            cases found
            exact .nil
        | cons c others =>
            rw [read?] at found
            split at found
            · rename_i isBackslash
              obtain ⟨⟨units, count⟩, stands, later⟩ := Option.bind_eq_some_iff.mp found
              obtain ⟨behind, skipped, rfl⟩ := Option.map_eq_some_iff.mp later
              obtain ⟨taken, rest, rfl, length, reads⟩ := exists_of_read? skipped
              rw [show count = taken.length from length.symm] at stands
              rw [beq_iff_eq.mp isBackslash]
              exact .escape stands (ih rest.length (by simp at size; omega) reads rfl)
            · rename_i plain
              obtain ⟨units, stands, later⟩ := Option.bind_eq_some_iff.mp found
              obtain ⟨behind, reads, rfl⟩ := Option.map_eq_some_iff.mp later
              exact .char (mt beq_iff_eq.mpr plain) stands
                (ih others.length (by simp at size; omega) reads rfl)
  · intro reads
    induction reads with
    | nil => rfl
    | char plain stands _ ih => rw [read?, if_neg (mt beq_iff_eq.mp plain), stands, Option.bind_some,
        ih, Option.map_some]
    | escape stands _ ih => rw [read?, if_pos (beq_self_eq_true _), stands, Option.bind_some,
        read?_append, ih, Option.map_some]

/-! One step of reading -/

theorem read?_char (plain : c ≠ '\\') : quoting.read? 0 (c :: rest) =
    (quoting.char? c rest).bind fun units => (quoting.read? 0 rest).map (units ++ ·) := by
  rw [read?, if_neg (mt beq_iff_eq.mp plain)]

theorem read?_escape {units : List Nat}
    (stands : quoting.escape? (taken ++ rest) = some (units, taken.length)) :
    quoting.read? 0 ('\\' :: (taken ++ rest)) = (quoting.read? 0 rest).map (units ++ ·) := by
  rw [read?, if_pos (beq_self_eq_true _), stands, Option.bind_some, read?_append]

theorem read?_of_no_escape (none : quoting.escape? rest = .none) :
    quoting.read? 0 ('\\' :: rest) = .none := by
  rw [read?, if_pos (beq_self_eq_true _), none, Option.bind_none]

theorem escapes_char (plain : c ≠ '\\') :
    quoting.escapes 0 (c :: rest) = quoting.escapes 0 rest := by
  rw [escapes, if_neg (mt beq_iff_eq.mp plain)]

theorem escapes_escape {units : List Nat}
    (stands : quoting.escape? (taken ++ rest) = some (units, taken.length)) :
    quoting.escapes 0 ('\\' :: (taken ++ rest)) = (taken ++ rest) :: quoting.escapes 0 rest := by
  rw [escapes, if_pos (beq_self_eq_true _), stands, Option.map_some, Option.getD_some,
    escapes_append]

end Quoting
end Text
end Hookify
