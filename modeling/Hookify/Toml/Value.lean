import Hookify.Text.Letter
import Hookify.Text.Segments

namespace Hookify
namespace Toml

/-!
# Values and tables

A table can be written under a header, between braces, or piecemeal by keys
with dots in them.  Each way excludes the others, so a table remembers how it
came about, and an entry that would change a finished table is refused.
-/

/-- How a table came about. -/
inductive Origin where
  /-- Under a header of its own. -/
  | header
  /-- As a step on the way to the table of a header; it may still get one of its own. -/
  | step
  /-- By keys with dots in them. -/
  | dots
  /-- Between braces; nothing can be added to it. -/
  | braces
  deriving Repr, DecidableEq

/-- A value. Numbers with a fraction and dates have no use here, so they are not kept. -/
inductive Value where
  | text (text : String)
  | integer (number : Int)
  | fraction
  | truth (value : Bool)
  | date
  | array (values : List Value)
  | table (origin : Origin) (fields : List (String × Value))
  /-- Tables that share a header in double brackets. -/
  | tables (elements : List (List (String × Value)))
  deriving Repr, Inhabited

/-- The entries of a table in the order in which they were added. -/
abbrev Fields := List (String × Value)

/-- Change the value of a key, or add the key. A refusal is passed on. -/
def alter? (key : String) (change : Option Value → Option Value) : Fields → Option Fields
  | [] => (change none).map fun value => [(key, value)]
  | (name, value) :: rest =>
      if name == key then (change (some value)).map fun value => (name, value) :: rest
      else (alter? key change rest).map ((name, value) :: ·)

/-- Change the table at the end of a path, creating the tables on the way.  A path of tables with
one header leads to the last of them.  Keys with dots do not reach into a table that has a
header. -/
def within? (dotted : Bool) (change : Origin → Fields → Option Fields) :
    List String → Origin → Fields → Option Fields
  | [], origin, fields => change origin fields
  | key :: path, _, fields =>
      alter? key (fun
        | none =>
            let origin := if dotted then Origin.dots else .step
            (within? dotted change path origin []).map (.table origin)
        | some (.table origin inner) =>
            if origin == .braces || (dotted && origin == .header) then none
            else (within? dotted change path origin inner).map (.table origin)
        | some (.tables elements) =>
            match elements.reverse with
            | last :: others =>
                (within? dotted change path .header last).map fun changed =>
                  .tables (changed :: others).reverse
            | [] => none
        | some _ => none) fields

/-- Add an entry to a table. The key must be new. -/
def insert? (key : String) (value : Value) (fields : Fields) : Option Fields :=
  alter? key (fun
    | none => some value
    | some _ => none) fields

/-- Add an entry under a key that may have dots in it.  With dots, the entry goes to a table that
consists of such entries only. -/
def insertDotted? (path : List String) (key : String) (value : Value) (fields : Fields) :
    Option Fields :=
  within? true (fun origin inner =>
    if path.isEmpty || origin == .dots then insert? key value inner else none) path .header fields

/-- Begin the table of a header. -/
def openTable? (path : List String) (key : String) (fields : Fields) : Option Fields :=
  within? false (fun _ => alter? key fun
    | none => some (.table .header [])
    | some (.table .step inner) => some (.table .header inner)
    | some _ => none) path .header fields

/-- Begin another one of the tables of a header in double brackets. -/
def openElement? (path : List String) (key : String) (fields : Fields) : Option Fields :=
  within? false (fun _ => alter? key fun
    | none => some (.tables [[]])
    | some (.tables elements) => some (.tables (elements ++ [[]]))
    | some _ => none) path .header fields

/-!
## Numbers, truth values and dates

Each of them is a run of characters without quotes; the whole run has to be of
one of the forms below.
-/

/-! ## Numbers -/

/-- The value of a digit of any base up to sixteen. -/
def digit? (c : Char) : Option Nat :=
  if '0' ≤ c && c ≤ '9' then some (c.toNat - '0'.toNat)
  else if 'a' ≤ c && c ≤ 'f' then some (c.toNat - 'a'.toNat + 10)
  else if 'A' ≤ c && c ≤ 'F' then some (c.toNat - 'A'.toNat + 10)
  else none

/-- The number that some digits stand for, of which there is at least one. -/
def digits? (base : Nat) (chars : List Char) : Option Nat :=
  if chars.isEmpty then none
  else chars.foldlM (fun number c =>
    match digit? c with
    | some digit => if digit < base then some (number * base + digit) else none
    | none => none) 0

/-- The number that groups of digits stand for. An underscore stands between two groups. -/
def grouped? (base : Nat) (chars : List Char) : Option Nat :=
  let groups := Text.splitFrom '_' [] chars
  if groups.any List.isEmpty then none else digits? base groups.flatten

/-- A decimal number without sign. It begins with a zero only if it has no other digit. -/
def decimal? (chars : List Char) : Option Nat :=
  match chars with
  | '0' :: _ :: _ => none
  | _ => grouped? 10 chars

/-- The numbers that can be held. -/
def inRange (number : Int) : Bool :=
  -Int.ofNat (Nat.pow 2 127) ≤ number && number < Int.ofNat (Nat.pow 2 128)

/-- A whole number. Only decimal ones have a sign. -/
def integer? (chars : List Char) : Option Int :=
  let number : Option Int :=
    match chars with
    | '0' :: 'x' :: digits => (grouped? 16 digits).map Int.ofNat
    | '0' :: 'o' :: digits => (grouped? 8 digits).map Int.ofNat
    | '0' :: 'b' :: digits => (grouped? 2 digits).map Int.ofNat
    | '+' :: digits => (decimal? digits).map Int.ofNat
    | '-' :: digits => (decimal? digits).map fun number => - Int.ofNat number
    | digits => (decimal? digits).map Int.ofNat
  number.filter inRange

/-- A number without the sign it may begin with. -/
def withoutSign : List Char → List Char
  | '+' :: rest => rest
  | '-' :: rest => rest
  | chars => chars

/-- The exponent of a number is well formed. -/
def isExponent (chars : List Char) : Bool :=
  (grouped? 10 (withoutSign chars)).isSome

/-- A number with a fraction, an exponent, or both; or one of the two special ones. -/
def isFraction (chars : List Char) : Bool :=
  let number := withoutSign chars
  let isExponentMark := fun (c : Char) => c == 'e' || c == 'E'
  let (mantissa, exponent?) :=
    match Text.upTo? isExponentMark number with
    | some (mantissa, exponent) => (mantissa, some exponent)
    | none => (number, none)
  let exponentOk := (exponent?.map isExponent).getD true
  let mantissaOk :=
    match Text.upTo? (· == '.') mantissa with
    | some (whole, fraction) => (decimal? whole).isSome && (grouped? 10 fraction).isSome
    | none => exponent?.isSome && (decimal? mantissa).isSome
  number == "inf".toList || number == "nan".toList || (mantissaOk && exponentOk)

/-! ## Dates -/

/-- A number of exactly so many digits at the head of some characters, and what follows. -/
def fixed? (count : Nat) (chars : List Char) : Option (Nat × List Char) :=
  let taken := chars.take count
  if taken.length == count && taken.all Text.isAsciiDigit then
    (digits? 10 taken).map fun number => (number, chars.drop count)
  else none

/-- The same behind a mark. -/
def fixedAfter? (mark : Char) (count : Nat) : List Char → Option (Nat × List Char)
  | c :: rest => if c == mark then fixed? count rest else none
  | [] => none

/-- The number of days of a month. -/
def daysOf (year month : Nat) : Nat :=
  if month == 2 then
    if year % 4 == 0 && (year % 100 != 0 || year % 400 == 0) then 29 else 28
  else if [4, 6, 9, 11].contains month then 30
  else 31

/-- A day, and what follows it. -/
def afterDay? (chars : List Char) : Option (List Char) := do
  let (year, chars) <- fixed? 4 chars
  let (month, chars) <- fixedAfter? '-' 2 chars
  let (day, chars) <- fixedAfter? '-' 2 chars
  if 1 ≤ month && month ≤ 12 && 1 ≤ day && day ≤ daysOf year month then some chars else none

/-- What follows a part of a second. -/
def afterSplitSecond? : List Char → Option (List Char)
  | '.' :: rest =>
      match rest with
      | c :: _ => if Text.isAsciiDigit c then some (rest.dropWhile Text.isAsciiDigit) else none
      | [] => none
  | chars => some chars

/-- A time of day, and what follows it. The seconds may be left out, and one may be a leap one. -/
def afterTime? (chars : List Char) : Option (List Char) := do
  let (hour, chars) <- fixed? 2 chars
  let (minute, chars) <- fixedAfter? ':' 2 chars
  if hour < 24 && minute < 60 then
    match fixedAfter? ':' 2 chars with
    | some (second, rest) => if second ≤ 60 then afterSplitSecond? rest else none
    | none => some chars
  else none

/-- A distance from universal time, to the end. -/
def isOffset (chars : List Char) : Bool :=
  match chars with
  | [] => true
  | ['Z'] | ['z'] => true
  | '+' :: rest | '-' :: rest =>
      match fixed? 2 rest with
      | some (hour, rest) =>
          match fixedAfter? ':' 2 rest with
          | some (minute, []) => hour < 24 && minute < 60
          | _ => false
      | none => false
  | _ => false

/-- A character between a day and a time of it. -/
def isTimeMark (c : Char) : Bool :=
  c == 'T' || c == 't' || c == ' '

/-- A day, a time of day, or both. Only both together may have an offset. -/
def isDate (chars : List Char) : Bool :=
  match afterDay? chars with
  | some [] => true
  | some (mark :: rest) =>
      isTimeMark mark && ((afterTime? rest).map isOffset).getD false
  | none => afterTime? chars == some []

/-- A value without quotes or brackets. -/
def scalar? (chars : List Char) : Option Value :=
  if chars == "true".toList then some (.truth true)
  else if chars == "false".toList then some (.truth false)
  else if isDate chars then some .date
  else
    match integer? chars with
    | some number => some (.integer number)
    | none => if isFraction chars then some .fraction else none

end Toml
end Hookify
