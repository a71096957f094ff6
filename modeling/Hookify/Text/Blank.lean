namespace Hookify
namespace Text

/-!
# Blanks and words

The blank characters are those with the White_Space property.  Zero-width
spaces and the byte order mark do not have it, so they count as part of a
word.  Functions work on lists of characters; the versions on texts carry
them over with `overChars`.
-/

/-- The characters with the White_Space property. -/
def isBlank (c : Char) : Bool :=
  let code := c.toNat
  (0x9 ≤ code && code ≤ 0xD) || code == 0x20 || code == 0x85 || code == 0xA0 ||
    code == 0x1680 || (0x2000 ≤ code && code ≤ 0x200A) || code == 0x2028 || code == 0x2029 ||
    code == 0x202F || code == 0x205F || code == 0x3000

/-- Apply a function on characters to a text. -/
def overChars (f : List Char → List Char) (text : String) : String :=
  String.ofList (f text.toList)

@[simp]
theorem toList_overChars (f : List Char → List Char) (text : String) :
    (overChars f text).toList = f text.toList := by
  simp [overChars]

/-- Drop the blanks at the start. -/
def trimStartChars (chars : List Char) : List Char :=
  chars.dropWhile isBlank

/-- Drop the blanks at the end. -/
def trimEndChars (chars : List Char) : List Char :=
  (chars.reverse.dropWhile isBlank).reverse

/-- Drop the blanks at both ends. -/
def trimChars (chars : List Char) : List Char :=
  trimEndChars (trimStartChars chars)

/-- Every character is blank; the empty text is blank too. -/
def isBlankChars (chars : List Char) : Bool :=
  chars.all isBlank

/-- Drop the blanks at both ends of a text. -/
def trim : String → String := overChars trimChars

/-- Drop the blanks at the end of a text. -/
def trimEnd : String → String := overChars trimEndChars

/-- A text without any character that is not blank. -/
def isBlankText (text : String) : Bool :=
  isBlankChars text.toList

end Text
end Hookify
