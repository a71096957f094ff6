import Hookify.Text.Segments
import Mathlib.Data.List.Infix

namespace Hookify
namespace Text

/-!
# Occurrences

That a text occurs in another one is a question of infixes.  What occurs in a
part of a text occurs in the text, however the parts are joined.
-/

theorem occursChars_iff (pattern chars : List Char) :
    occursChars pattern chars = true ↔ pattern <:+: chars := by
  induction chars with
  | nil => simp [occursChars]
  | cons c rest ih =>
      rw [occursChars, Bool.or_eq_true, ih, List.isPrefixOf_iff_prefix, List.infix_cons_iff]

theorem occursIn_iff (pattern text : String) :
    occursIn pattern text = true ↔ pattern.toList <:+: text.toList := by
  rw [occursIn, occursChars_iff]

section Parts

variable {pattern part : String}

theorem occursIn_self (text : String) : occursIn text text = true :=
  (occursIn_iff text text).mpr List.infix_rfl

theorem occursIn_trans {text : String} (occurs : occursIn pattern part = true)
    (within : occursIn part text = true) : occursIn pattern text = true := by
  rw [occursIn_iff] at occurs within ⊢
  exact occurs.trans within

theorem occursIn_append_left (occurs : occursIn pattern part = true) (rest : String) :
    occursIn pattern (part ++ rest) = true := by
  rw [occursIn_iff] at occurs ⊢
  rw [String.toList_append]
  exact occurs.trans (List.prefix_append _ _).isInfix

theorem occursIn_append_right (occurs : occursIn pattern part = true) (before : String) :
    occursIn pattern (before ++ part) = true := by
  rw [occursIn_iff] at occurs ⊢
  rw [String.toList_append]
  exact occurs.trans (List.suffix_append _ _).isInfix

theorem occursIn_intercalate (occurs : occursIn pattern part = true) {parts : List String}
    (member : part ∈ parts) (separator : String) :
    occursIn pattern (String.intercalate separator parts) = true := by
  induction parts with
  | nil => exact absurd member List.not_mem_nil
  | cons first rest ih =>
      by_cases last : rest = []
      · rw [last, List.mem_singleton] at member
        rw [last, String.intercalate_singleton, ← member]
        exact occurs
      · rw [String.intercalate_cons_of_ne_nil last]
        rcases List.mem_cons.mp member with same | later
        · exact occursIn_append_left (occursIn_append_left (same ▸ occurs) _) _
        · exact occursIn_append_right (ih later) _

end Parts

end Text
end Hookify
