import Hookify.Script.Grammar.Basic

namespace Hookify
namespace Script
namespace Grammar

open Reader

/-!
# Markup inside a script

Elements are read by lexemes inside their tags and by characters between them.
A reader of an element leaves the cursor behind its last character, so that
the text after an inner element is not taken for script.
-/

/-- The characters of the names of elements and attributes. -/
def markupNameLength (chars : List Char) : Nat :=
  (chars.takeWhile fun c => isNamePart c || c == '-').length

/-- One part of a name in markup. -/
def markupWord (kind : Kind) : Reader Sketch := do
  let cursor ← get
  if cursor.isAnyWord then leafHere kind (markupNameLength cursor.here) else fail

/-- The name of an attribute, or of an element without dots. -/
def markupName (kind : Kind) : Reader Sketch := do
  let first ← markupWord kind
  if ← optionalSign ":" then
    let second ← markupWord kind
    finish .jsxNamespaceName first.start [first, second]
  else
    return first

/-- The name of an element: a name, or a member of one. -/
def elementName (grammar : Grammar) : Reader Sketch := do
  let first ← markupName .identifier
  let others ← many (do
    if ← optionalSign "." then
      let property ← markupWord .propertyIdentifier
      return some property
    else
      return none) grammar.budget
  return others.foldl (fun object property =>
    ⟨.memberExpression, none, object.start, property.stop,
      [object.as .object, property.as .property]⟩) first

/-- An expression in braces, without the lexeme behind it. -/
def embedded (grammar : Grammar) : Reader Sketch := do
  let start := (← get).start
  sign "\x7b"
  let innerStart := (← get).start
  let inner ←
    if ← atSign "\x7d" then pure []
    else if ← optionalSign "..." then do
      let spread ← grammar.assignment
      pure [← finish .spreadElement innerStart [spread]]
    else
      pure [← withIn true grammar.expression]
  unless (← atSign "\x7d") do
    fail
  modify (·.takeHere 1)
  finish .jsxExpression start inner

/-- The value of an attribute. A quoted value may go over several lines. -/
def attributeValue (grammar : Grammar) : Reader Sketch := do
  let cursor ← get
  match cursor.here with
  | '\x7b' :: _ =>
      let value ← embedded grammar
      resume
      return value
  | '<' :: _ =>
      let value ← grammar.element
      resume
      return value
  | mark :: rest =>
      if mark == '\x22' || mark == '\x27' then
        leafHere .string ((rest.takeWhile (· != mark)).length + 2)
      else
        fail
  | [] => fail

/-- An attribute. -/
def markupAttribute (grammar : Grammar) : Reader Sketch := do
  if ← atSign "\x7b" then
    let value ← embedded grammar
    resume
    return value
  else
    let key ← markupName .propertyIdentifier
    if ← optionalSign "=" then
      let value ← attributeValue grammar
      finish .jsxAttribute key.start [key, value]
    else
      finish .jsxAttribute key.start [key]

/-- The characters of a text between elements. -/
def markupTextLength (chars : List Char) : Nat :=
  (chars.takeWhile (! "\x7b\x7d<>&".toList.contains ·)).length

/-- The characters of a character reference such as `&nbsp;`. -/
def referenceLength (chars : List Char) : Nat :=
  match chars with
  | '&' :: rest =>
      let body := (rest.takeWhile fun c => Text.isAsciiAlphanumeric c || c == '#').length
      if (rest.drop body).head? == some ';' then body + 2 else 1
  | _ => 1

/-- A text that is only a line end with its blanks is no node. -/
def markupText (behind : List Char) : Reader (List Sketch) := do
  let length := markupTextLength behind
  let text := behind.take length
  if text.all isSpace && text.any (· == '\n') then
    modify (·.take length)
    return []
  else
    return [← leafRaw .jsxText length]

/-- What stands between an opening and a closing tag. -/
def markupChildren (grammar : Grammar) : Reader (List Sketch) := do
  let children ← many (do
    match (← get).behind with
    | [] => fail
    | '<' :: '/' :: _ => return none
    | '<' :: _ =>
        resume
        return some [← grammar.element]
    | '\x7b' :: _ =>
        resume
        return some [← embedded grammar]
    | '&' :: rest =>
        return some [← leafRaw .htmlCharacterReference (referenceLength ('&' :: rest))]
    | '\x7d' :: _ => fail
    | '>' :: _ => fail
    | behind => return some (← markupText behind)) grammar.budget
  return children.flatten

/-- The end of a tag, without the lexeme behind it. -/
def tagEnd : Reader Unit := do
  match (← get).here with
  | '>' :: _ => modify (·.takeHere 1)
  | _ => fail

/-- An element. -/
def markup (grammar : Grammar) : Reader Sketch := do
  let start := (← get).start
  match (← get).here with
  | '<' :: _ => set ((← get).takeHere 1).resume
  | _ => fail
  let names ← if (← get).isAnyWord then pure [(← elementName grammar).as .name] else pure []
  let attributes ← many (do
    match (← get).here with
    | '>' :: _ => return none
    | '/' :: _ => return none
    | _ => return some (← markupAttribute grammar)) grammar.budget
  match (← get).here with
  | '/' :: _ =>
      set ((← get).takeHere 1).resume
      tagEnd
      finish .jsxSelfClosingElement start (names ++ attributes)
  | _ =>
      tagEnd
      let opening ← finish .jsxOpeningElement start (names ++ attributes)
      let children ← markupChildren grammar
      let closingStart := (← get).last
      modify (·.take 2)
      resume
      let closingNames ←
        if (← get).isAnyWord then pure [(← elementName grammar).as .name] else pure []
      tagEnd
      let closing ← finish .jsxClosingElement closingStart closingNames
      finish .jsxElement start ([opening.as .openTag] ++ children ++ [closing.as .closeTag])

end Grammar
end Script
end Hookify
