import Hookify.Text.Lines

namespace Hookify
namespace Text

/-!
# Lines one after the other

A text is read line by line.  The equations here cut a text at its first line
feed, which is how everything that is done to lines is proved: by induction on
the text behind it.
-/

/-- What has no line feed goes on with the line. -/
theorem linesFrom_append {line : List Char} (single : '\n' ∉ line) (rest : List Char) :
    ∀ current, linesFrom current (line ++ rest) = linesFrom (line.reverse ++ current) rest := by
  induction line with
  | nil =>
      intro current
      rfl
  | cons c others ih =>
      intro current
      have other : (c == '\n') = false := by
        rw [beq_eq_false_iff_ne]
        exact fun same => single (same ▸ List.mem_cons_self)
      rw [List.cons_append, linesFrom, other, if_neg Bool.false_ne_true,
        ih (fun member => single (List.mem_cons_of_mem c member)), List.reverse_cons,
        List.append_assoc, List.singleton_append]

theorem linesFrom_of_not_mem {line : List Char} (single : '\n' ∉ line) (current : List Char) :
    linesFrom current line =
      if (line.reverse ++ current).isEmpty then [] else [(line.reverse ++ current).reverse] := by
  have read := linesFrom_append single [] current
  rwa [List.append_nil, linesFrom] at read

theorem linesFrom_append_newline {line : List Char} (single : '\n' ∉ line)
    (rest current : List Char) : linesFrom current (line ++ '\n' :: rest) =
      (dropReturn (line.reverse ++ current)).reverse :: linesFrom [] rest := by
  rw [linesFrom_append single, linesFrom]
  rfl

/-- A text without a line feed is one line. -/
theorem lineChars_single {line : List Char} (single : '\n' ∉ line) (nonempty : line ≠ []) :
    lineChars line = [line] := by
  rw [lineChars, linesFrom_of_not_mem single, List.append_nil, List.reverse_reverse, if_neg]
  rw [List.isEmpty_iff, List.reverse_eq_nil_iff]
  exact nonempty

/-- The first line is taken off at the first line feed. -/
theorem lineChars_append_newline {line : List Char} (single : '\n' ∉ line) (rest : List Char) :
    lineChars (line ++ '\n' :: rest) = (dropReturn line.reverse).reverse :: lineChars rest := by
  rw [lineChars, linesFrom_append_newline single, List.append_nil, lineChars]

/-- A text is without a line feed, or it has a first line with more text behind it. -/
theorem firstLine_cases (chars : List Char) :
    '\n' ∉ chars ∨ ∃ line rest, chars = line ++ '\n' :: rest ∧ '\n' ∉ line := by
  by_cases single : '\n' ∈ chars
  · exact Or.inr (List.eq_append_cons_of_mem single)
  · exact Or.inl single

theorem joinLines_cons (line : List Char) {rest : List (List Char)} (more : rest ≠ []) :
    joinLines (line :: rest) = line ++ '\n' :: joinLines rest := by
  cases rest with
  | nil => exact absurd rfl more
  | cons next others => rfl

end Text
end Hookify
