import Hookify.Script.Lexeme

namespace Hookify
namespace Script

/-!
# Automatic semicolons

A statement without a semicolon ends at a semicolon of no width, which is put
directly behind the last token if the rules below allow it there.  Otherwise
the next comment is taken into the statement and the question is asked again
behind it.  So a comment of the line style on the line of the last token
belongs to the statement before it, while comments on later lines do not.

After an expression the rules are stricter, because an operator could follow.
-/

/-- How a run of space and comments ends. -/
inductive GapEnd where
  /-- A slash that begins no comment. -/
  | rejected
  /-- Behind a block comment on one line. -/
  | sameLine
  | accepted
  deriving DecidableEq

/-- Skip a block comment behind its opening; tells whether it had a line end. -/
def skipBlock (hasNewline : Bool) : List Char → Option (Bool × List Char)
  | [] => none
  | '*' :: '/' :: rest => some (hasNewline, rest)
  | c :: rest =>
      skipBlock (hasNewline || c == '\n' || c.toNat == 0x2028 || c.toNat == 0x2029) rest

/-- Skip space and comments.  Unless `throughBlocks` is set, the way ends behind the first block
comment that no slash follows. -/
def skipGap (throughBlocks : Bool) (hasNewline : Bool) : Nat → List Char → GapEnd × List Char
  | 0, chars => (.accepted, chars)
  | fuel + 1, chars =>
      match chars.dropWhile isSpace with
      | '/' :: '/' :: rest =>
          skipGap throughBlocks hasNewline fuel
            (rest.dropWhile fun c => c != '\n' && c.toNat != 0x2028 && c.toNat != 0x2029)
      | '/' :: '*' :: rest =>
          match skipBlock hasNewline rest with
          | none => (.accepted, [])
          | some (newline, after) =>
              if ! throughBlocks && after.head? != some '/' then
                (if newline then .accepted else .sameLine, after)
              else
                skipGap throughBlocks newline fuel after
      | '/' :: rest => (.rejected, rest)
      | rest => (.accepted, rest)

/-- On a new line, these texts go on with the expression before them. -/
def continuesExpression : List Char → Bool
  | '.' :: c :: _ => ! Text.isAsciiDigit c
  | ['.'] => true
  | '+' :: rest => rest.head? != some '+'
  | '-' :: rest => rest.head? != some '-'
  | '!' :: rest => rest.head? == some '='
  | 'i' :: 'n' :: rest =>
      let ends := fun (tail : List Char) => ! (tail.head?.map Text.isLetter).getD false
      ends rest ||
        ("stanceof".toList.isPrefixOf rest && ends (rest.drop "stanceof".toList.length))
  | c :: _ => "\x60,:;*%><=[(?^|&/".toList.contains c
  | [] => false

/-- A semicolon of no width may stand before this text. -/
def allowsSemicolon (afterExpression : Bool) : Nat → List Char → Bool
  | 0, _ => false
  | _ + 1, [] => true
  | fuel + 1, c :: rest =>
      let (gap, chars) :=
        if c == '/' then
          let (gap, chars) := skipGap false false fuel (c :: rest)
          (some gap, chars)
        else
          (none, c :: rest)
      if gap == some .rejected then
        false
      else if gap == some .accepted && ! afterExpression && chars.head? != some ',' &&
          chars.head? != some '=' then
        true
      else
        match chars with
        | [] => false
        | next :: after =>
            if next == '\x7d' then
              true
            else if next == '\n' || next.toNat == 0x2028 || next.toNat == 0x2029 then
              match skipGap true false fuel after with
              | (.rejected, _) => false
              | (_, following) => ! continuesExpression following
            else
              isSpace next && allowsSemicolon afterExpression fuel after

/-- The length of the space and the one comment at the head of a text. -/
def commentLength? (chars : List Char) : Option Nat :=
  let space := (chars.takeWhile isSpace).length
  match chars.drop space with
  | '/' :: '/' :: rest => some (space + 2 + (rest.takeWhile (! isLineEnd ·)).length)
  | '/' :: '*' :: rest =>
      (skipBlock false rest).map fun (_, after) => space + 2 + (rest.length - after.length)
  | _ => none

/-- How far behind the last token of a statement its semicolon of no width stands: nothing if the
statement cannot end here, and otherwise behind the comments that belong to the statement. -/
def semicolonOffset? (afterExpression : Bool) : Nat → List Char → Option Nat
  | 0, _ => none
  | fuel + 1, chars =>
      if allowsSemicolon afterExpression (chars.length + 1) chars then
        some 0
      else
        match commentLength? chars with
        | none => none
        | some length =>
            (semicolonOffset? afterExpression fuel (chars.drop length)).map (· + length)

end Script
end Hookify
