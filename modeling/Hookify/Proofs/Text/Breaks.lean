import Hookify.Proofs.Text.Ascii
import Mathlib.Algebra.Ring.Nat
import Mathlib.Data.List.Forall2

namespace Hookify
namespace Text

/-!
# Where code breaks into statements

A statement ends at a semicolon, unless the semicolon stands in brackets, in a
quoted text or in a comment.  A scan of code counts these ends and knows which
brackets, quotes and comments are open.  It does not count the ends that are
left to a line break, and it does not know a regular expression from a division,
so that code may count as open because of a bracket in one.

Code is put together from pieces, some of which open a bracket that another one
closes.  A piece leads from one depth to another.  How deep the scan is before
does not matter, which is why code that is closed can stand anywhere.
-/

/-! ## Scanning -/

/-- What a character means in code. -/
inductive Sign where
  | opening
  | closing
  | semicolon
  | quote
  | slash
  | plain
  deriving Repr, DecidableEq

/-- The meaning of a character. -/
def signOf (c : Char) : Sign :=
  if ['(', '[', '\x7b'].contains c then .opening
  else if [')', ']', '\x7d'].contains c then .closing
  else if [';'].contains c then .semicolon
  else if ['\x22', '\x27', '\x60'].contains c then .quote
  else if ['/'].contains c then .slash
  else .plain

/-- What the next character belongs to. -/
inductive Mode where
  | code
  /-- Code behind a slash, which may begin a comment. -/
  | slash
  | quoted (mark : Char)
  /-- A quoted text behind a backslash. -/
  | escaped (mark : Char)
  | line
  | block
  /-- A block comment behind a star, which may end it. -/
  | star
  deriving Repr, DecidableEq

/-- What has been found in a text. -/
structure Scan where
  mode : Mode
  /-- How many brackets are open. -/
  depth : Nat
  /-- How many statements have ended outside of brackets. -/
  breaks : Nat
  deriving Repr, DecidableEq

namespace Scan

/-- Read a character of code.  A bracket can be closed only if one is open. -/
def code (scan : Scan) (c : Char) : Option Scan :=
  match signOf c with
  | .opening => some ⟨.code, scan.depth + 1, scan.breaks⟩
  | .closing =>
      match scan.depth with
      | 0 => none
      | depth + 1 => some ⟨.code, depth, scan.breaks⟩
  | .semicolon =>
      match scan.depth with
      | 0 => some ⟨.code, 0, scan.breaks + 1⟩
      | depth + 1 => some ⟨.code, depth + 1, scan.breaks⟩
  | .quote => some { scan with mode := .quoted c }
  | .slash => some { scan with mode := .slash }
  | .plain => some { scan with mode := .code }

/-- Read a character. -/
def next (scan : Scan) (c : Char) : Option Scan :=
  match scan.mode with
  | .code => scan.code c
  | .slash =>
      if c == '/' then some { scan with mode := .line }
      else if c == '*' then some { scan with mode := .block }
      else scan.code c
  | .quoted mark =>
      some { scan with
        mode := if c == mark then .code else if c == '\\' then .escaped mark else .quoted mark }
  | .escaped mark => some { scan with mode := .quoted mark }
  | .line => some { scan with mode := if c == '\n' then .code else .line }
  | .block => some { scan with mode := if c == '*' then .star else .block }
  | .star =>
      some { scan with mode := if c == '/' then .code else if c == '*' then .star else .block }

/-- Read a text. -/
def read (scan : Scan) (text : String) : Option Scan :=
  text.toList.foldlM next scan

theorem read_append (scan : Scan) (first second : String) :
    scan.read (first ++ second) = (scan.read first).bind (·.read second) := by
  rw [read, String.toList_append, List.foldlM_append]
  rfl

/-! ## Scanning in brackets, and behind other code -/

/-- A scan as it stands when another one has come before it.  No statement ends inside the brackets
that are open then. -/
def behind (scan before : Scan) : Scan where
  mode := scan.mode
  depth := before.depth + scan.depth
  breaks := if before.depth = 0 then before.breaks + scan.breaks else before.breaks

variable {scan later : Scan} {c : Char}

theorem code_behind (reads : scan.code c = some later) (before : Scan) :
    (scan.behind before).code c = some (later.behind before) := by
  rcases scan with ⟨mode, depth, breaks⟩
  rcases before with ⟨outerMode, outerDepth, outerBreaks⟩
  simp only [code] at reads ⊢
  split at reads
  · cases reads
    rfl
  · cases depth with
    | zero => cases reads
    | succ depth =>
        cases reads
        rfl
  · -- only without open brackets does the semicolon count
    cases depth with
    | zero =>
        cases reads
        cases outerDepth <;> rfl
    | succ depth =>
        cases reads
        rfl
  · cases reads
    rfl
  · cases reads
    rfl
  · cases reads
    rfl

theorem next_behind (reads : scan.next c = some later) (before : Scan) :
    (scan.behind before).next c = some (later.behind before) := by
  rcases scan with ⟨mode, depth, breaks⟩
  cases mode with
  | code => exact code_behind reads before
  | slash =>
      change (if c == '/' then _ else if c == '*' then _ else _) = _ at reads
      change (if c == '/' then _ else if c == '*' then _ else _) = _
      split at reads
      · rename_i line
        rw [if_pos line]
        cases reads
        rfl
      · rename_i noLine
        rw [if_neg noLine]
        split at reads
        · rename_i block
          rw [if_pos block]
          cases reads
          rfl
        · rename_i noBlock
          rw [if_neg noBlock]
          exact code_behind reads before
  | _ =>
      cases reads
      rfl

theorem read_behind {text : String} (reads : scan.read text = some later) (before : Scan) :
    (scan.behind before).read text = some (later.behind before) := by
  unfold read at reads ⊢
  generalize text.toList = chars at reads ⊢
  induction chars generalizing scan with
  | nil =>
      cases reads
      rfl
  | cons c rest ih =>
      rw [List.foldlM_cons, Option.bind_eq_bind] at reads ⊢
      rcases Option.bind_eq_some_iff.mp reads with ⟨middle, first, others⟩
      rw [next_behind first before, Option.bind_some]
      exact ih others

end Scan

/-! ## Pieces of code -/

/-- A piece of code that no statement ends in, and that leads from one depth to another. -/
def Leads (start : Nat) (text : String) (stop : Nat) : Prop :=
  (⟨.code, start, 0⟩ : Scan).read text = some ⟨.code, stop, 0⟩

/-- Code that closes what it opens, and in which so many statements end. -/
def Breaks (text : String) (count : Nat) : Prop :=
  (⟨.code, 0, 0⟩ : Scan).read text = some ⟨.code, 0, count⟩

/-- Code that closes what it opens, and in which no statement ends. -/
abbrev Closed (text : String) : Prop := Breaks text 0

/-- How many statements end in code that closes what it opens. -/
def breaksIn (text : String) : Nat :=
  (((⟨.code, 0, 0⟩ : Scan).read text).map (·.breaks)).getD 0

instance (start : Nat) (text : String) (stop : Nat) : Decidable (Leads start text stop) :=
  inferInstanceAs (Decidable (_ = _))

instance (text : String) (count : Nat) : Decidable (Breaks text count) :=
  inferInstanceAs (Decidable (_ = _))

variable {first second text : String}

theorem Breaks.unique {left right : Nat} (first : Breaks text left) (second : Breaks text right) :
    left = right := by
  have same := first.symm.trans second
  cases same
  rfl

theorem Leads.append {start middle stop : Nat} (left : Leads start first middle)
    (right : Leads middle second stop) : Leads start (first ++ second) stop := by
  rw [Leads, Scan.read_append, left]
  exact right

/-- Closed code can stand at any depth. -/
theorem Closed.leads (closed : Closed text) (depth : Nat) : Leads depth text depth := by
  have reads := Scan.read_behind closed ⟨.code, depth, 0⟩
  simpa [Leads, Scan.behind] using reads

/-- Inside of brackets it does not matter how many statements end. -/
theorem Breaks.leads {count : Nat} (breaks : Breaks text count) (depth : Nat) :
    Leads (depth + 1) text (depth + 1) := by
  have reads := Scan.read_behind breaks ⟨.code, depth + 1, 0⟩
  simpa [Leads, Scan.behind] using reads

theorem Breaks.append {left right : Nat} (before : Breaks first left) (after : Breaks second right) :
    Breaks (first ++ second) (left + right) := by
  rw [Breaks, Scan.read_append, before]
  have reads := Scan.read_behind after ⟨.code, 0, left⟩
  simpa [Scan.behind] using reads

theorem Closed.append (left : Closed first) (right : Closed second) : Closed (first ++ second) :=
  Breaks.append left right

/-- Closed code can stand in brackets. -/
theorem Closed.within (depth : Nat) {before after : String} (opening : Leads 0 before depth)
    (closed : Closed text) (closing : Leads depth after 0) : Closed (before ++ text ++ after) :=
  (opening.append (closed.leads depth)).append closing

theorem Closed.call {function argument : String} (left : Closed function)
    (right : Closed argument) : Closed (function ++ "(" ++ argument ++ ")") :=
  Closed.within 1 (Leads.append left (by decide)) right (by decide)

theorem closed_empty : Closed "" := rfl

/-- A text is closed if all its characters mean nothing to the scan. -/
theorem closed_of_plain (plain : ∀ c ∈ text.toList, signOf c = .plain) : Closed text := by
  rw [Closed, Breaks, Scan.read]
  generalize text.toList = chars at plain ⊢
  induction chars with
  | nil => rfl
  | cons c rest ih =>
      have stays : (⟨.code, 0, 0⟩ : Scan).next c = some ⟨.code, 0, 0⟩ := by
        rw [Scan.next, Scan.code, plain c List.mem_cons_self]
      rw [List.foldlM_cons, stays]
      exact ih fun other member => plain other (List.mem_cons_of_mem c member)

/-- Pieces of code with the same separator between any two. -/
theorem breaks_intercalate {separator : String} {between : Nat}
    (separates : Breaks separator between) {count : Nat} (head : Breaks first count)
    {rest : List String} {counts : List Nat} (tail : List.Forall₂ Breaks rest counts) :
    Breaks (String.intercalate separator (first :: rest))
      (count + rest.length * between + counts.sum) := by
  induction tail generalizing first count with
  | nil =>
      rw [String.intercalate_singleton]
      simpa using head
  | @cons second next later others breaks _ ih =>
      rw [String.intercalate_cons_of_ne_nil (List.cons_ne_nil _ _)]
      have joined := (head.append separates).append (ih breaks)
      have total : count + between + (next + later.length * between + others.sum) =
          count + (second :: later).length * between + (next :: others).sum := by
        rw [List.length_cons, List.sum_cons, Nat.succ_mul]
        omega
      exact total ▸ joined

end Text
end Hookify
