import Hookify.Script.Grammar.Expression

namespace Hookify
namespace Script

/-!
# Where expressions start

An expression starts at the lexeme at which its reader begins.  Most rules note
where they begin and finish their node there.  What stands behind an operand,
that is members, calls and operators, makes up a node that starts where the
operand does.  Nothing has to be known of the readers of the parts.
-/

namespace Reader

/-- What the reader finds at the cursor, if it finds anything, has the property. -/
def FindsAt {Result : Type} (cursor : Cursor) (property : Result → Prop)
    (reader : Reader Result) : Prop :=
  ∀ found behind, reader cursor = .ok found behind → property found

/-- What the reader finds, wherever it begins, has the property. -/
def Finds {Result : Type} (property : Result → Prop) (reader : Reader Result) : Prop :=
  ∀ cursor, FindsAt cursor property reader

/-- What the reader finds starts where the reader begins. -/
def StartsHere (reader : Reader Sketch) : Prop :=
  ∀ cursor : Cursor, FindsAt cursor (·.start = cursor.start) reader

/-- The reader looks at what comes, and reads none of it. -/
def Peeks {Result : Type} (reader : Reader Result) : Prop :=
  ∀ cursor found behind, reader cursor = .ok found behind → behind = cursor

section Choices

variable {Result First : Type} {property : Result → Prop} {cursor : Cursor} {start : Nat}

/-- A reader that succeeds has read its first part, and the rest from where that ends. -/
theorem exists_of_bind {first : Reader First} {next : First → Reader Result} {result : Result}
    {last : Cursor} (reads : (first >>= next) cursor = .ok result last) :
    ∃ found behind, first cursor = .ok found behind ∧ next found behind = .ok result last := by
  change EStateM.bind first next cursor = _ at reads
  rw [EStateM.bind] at reads
  split at reads
  · rename_i found behind readsFirst
    exact ⟨found, behind, readsFirst, reads⟩
  · cases reads

theorem findsAt_bind {first : Reader First} {next : First → Reader Result}
    (finds : ∀ found behind, first cursor = .ok found behind →
      FindsAt behind property (next found)) : FindsAt cursor property (first >>= next) := by
  intro result last reads
  obtain ⟨found, behind, readsFirst, readsNext⟩ := exists_of_bind reads
  exact finds found behind readsFirst result last readsNext

theorem findsAt_ite {condition : Prop} [Decidable condition] {reader other : Reader Result}
    (finds : FindsAt cursor property reader) (otherwise : FindsAt cursor property other) :
    FindsAt cursor property (if condition then reader else other) := by
  split
  · exact finds
  · exact otherwise

theorem finds_bind {first : Reader First} {next : First → Reader Result}
    (finds : ∀ found, Finds property (next found)) : Finds property (first >>= next) :=
  fun _ => findsAt_bind fun found behind _ => finds found behind

theorem finds_bind_of {first : Reader First} {next : First → Reader Result}
    {propertyFirst : First → Prop} (findsFirst : Finds propertyFirst first)
    (finds : ∀ found, propertyFirst found → Finds property (next found)) :
    Finds property (first >>= next) :=
  fun cursor => findsAt_bind fun found behind reads =>
    finds found (findsFirst cursor found behind reads) behind

theorem finds_ite {condition : Prop} [Decidable condition] {reader other : Reader Result}
    (finds : Finds property reader) (otherwise : Finds property other) :
    Finds property (if condition then reader else other) :=
  fun cursor => findsAt_ite (finds cursor) (otherwise cursor)

theorem finds_pure {result : Result} (holds : property result) : Finds property (pure result) := by
  rintro cursor found behind ⟨⟩
  exact holds

theorem finds_fail : Finds property (fail : Reader Result) := by
  rintro cursor found behind ⟨⟩

theorem finds_finish (kind : Kind) (start : Nat) (children : List Sketch) :
    Finds (·.start = start) (finish kind start children) := by
  rintro cursor found behind ⟨⟩
  rfl

theorem startsHere_leaf (kind : Kind) : StartsHere (leaf kind) := by
  rintro cursor found behind ⟨⟩
  rfl

theorem startsHere_leafHere (kind : Kind) (length : Nat) : StartsHere (leafHere kind length) := by
  rintro cursor found behind ⟨⟩
  rfl

/-- A rule notes where it begins, and starts its node there. -/
theorem startsHere_of_get {next : Cursor → Reader Sketch}
    (finds : ∀ cursor : Cursor, Finds (·.start = cursor.start) (next cursor)) :
    StartsHere (get >>= next) :=
  fun cursor => finds cursor cursor

/-- A rule chooses by what is at the cursor, and goes on there. -/
theorem startsHere_of_choice {next : Cursor → Reader Sketch}
    (finds : ∀ cursor : Cursor, FindsAt cursor (·.start = cursor.start) (next cursor)) :
    StartsHere (get >>= next) :=
  fun cursor => finds cursor

/-- What stands behind a node is put into a node that starts where it does. -/
theorem startsHere_bind {first : Reader Sketch} {next : Sketch → Reader Sketch}
    (starts : StartsHere first) (finds : ∀ found, Finds (·.start = found.start) (next found)) :
    StartsHere (first >>= next) := by
  intro cursor
  refine findsAt_bind fun found behind reads => ?_
  rw [← starts cursor found behind reads]
  exact finds found behind

theorem peeks_bind {first : Reader First} {next : First → Reader Result} (peeks : Peeks first)
    (peeksNext : ∀ found, Peeks (next found)) : Peeks (first >>= next) := by
  intro cursor result last reads
  obtain ⟨found, behind, readsFirst, readsNext⟩ := exists_of_bind reads
  obtain rfl := peeks cursor found behind readsFirst
  exact peeksNext found behind result last readsNext

theorem peeks_ite {condition : Prop} [Decidable condition] {reader other : Reader Result}
    (peeks : Peeks reader) (otherwise : Peeks other) :
    Peeks (if condition then reader else other) := by
  split
  · exact peeks
  · exact otherwise

theorem peeks_pure (result : Result) : Peeks (pure result) := by
  rintro cursor found behind ⟨⟩
  rfl

theorem peeks_atWord (text : String) : Peeks (atWord text) := by
  rintro cursor found behind ⟨⟩
  rfl

theorem peeks_following : Peeks following := by
  rintro cursor found behind ⟨⟩
  rfl

theorem startsHere_name : StartsHere name := fun cursor =>
  show FindsAt cursor _ (if cursor.isName then _ else _) from
    findsAt_ite (startsHere_leaf _ cursor) (finds_fail cursor)

end Choices
end Reader

namespace Grammar

open Reader

variable {grammar : Grammar}

/-! ## Operands -/

theorem startsAt_arrow (start : Nat) (before : List Sketch) :
    Finds (·.start = start) (arrow grammar start before) := by
  refine finds_bind fun _ => finds_bind fun _ => finds_ite ?_ ?_ <;>
    exact finds_bind fun _ => finds_finish _ _ _

theorem startsHere_function (isDeclaration : Bool) :
    StartsHere (function grammar isDeclaration) := by
  refine startsHere_of_get fun cursor => ?_
  repeat' first
    | exact finds_finish _ _ _
    | exact finds_fail
    | refine finds_bind fun _ => ?_
    | apply finds_ite

theorem startsHere_classOf (isDeclaration : Bool) :
    StartsHere (classOf grammar isDeclaration) := by
  refine startsHere_of_get fun cursor => ?_
  repeat' first
    | exact finds_finish _ _ _
    | refine finds_bind fun _ => ?_
    | apply finds_ite

theorem startsHere_parenthesized : StartsHere (parenthesized grammar) := by
  refine startsHere_of_get fun cursor => ?_
  repeat' first
    | exact finds_finish _ _ _
    | exact startsAt_arrow _ _
    | exact finds_fail
    | refine finds_bind fun _ => ?_
    | split

theorem startsHere_markup : StartsHere (markup grammar) := by
  refine startsHere_of_get fun cursor => ?_
  repeat' first
    | exact finds_finish _ _ _
    | refine finds_bind fun _ => ?_
    | split

theorem startsHere_template : StartsHere (template grammar) := by
  refine startsHere_of_get fun cursor => ?_
  refine finds_bind fun _ => finds_bind fun _ => finds_bind fun _ => ?_
  exact finds_bind_of (finds_finish _ _ _) fun _ same => finds_bind fun _ => finds_pure same

theorem startsHere_array : StartsHere (array grammar) :=
  startsHere_of_get fun _ => finds_bind fun _ => finds_bind fun _ => finds_finish _ _ _

theorem startsHere_object : StartsHere (object grammar) :=
  startsHere_of_get fun _ => finds_bind fun _ => finds_bind fun _ => finds_finish _ _ _

theorem startsHere_regex : StartsHere regex := by
  refine startsHere_of_choice fun cursor => ?_
  split
  · exact startsHere_leafHere _ _ cursor
  · exact finds_fail cursor

theorem startsHere_nameOperand : StartsHere (nameOperand grammar) :=
  startsHere_bind startsHere_name fun _ => finds_bind fun _ =>
    finds_ite (startsAt_arrow _ _) (finds_pure rfl)

theorem startsHere_importOperand : StartsHere importOperand := by
  intro cursor
  refine findsAt_bind fun _ _ here => ?_
  cases here
  refine findsAt_bind fun callee behind reads => ?_
  have same : callee.start = cursor.start := startsHere_leaf _ cursor callee behind reads
  refine finds_bind (fun _ => ?_) behind
  exact finds_ite (finds_bind fun _ => finds_finish _ _ _) (finds_pure same)

theorem startsHere_asyncOperand : StartsHere (asyncOperand grammar) := by
  intro cursor
  change FindsAt cursor _ (if _ then _ else if _ then _ else if _ then _ else _)
  refine findsAt_ite (startsHere_function false cursor) (findsAt_ite ?_ (findsAt_ite ?_ ?_))
  · exact finds_bind (fun _ => finds_bind fun _ => startsAt_arrow _ _) cursor
  · refine finds_bind (fun _ => finds_bind fun _ => finds_bind fun _ => ?_) cursor
    exact finds_ite (startsAt_arrow _ _) (finds_finish _ _ _)
  · exact startsHere_name cursor

theorem startsHere_signOperand : StartsHere (signOperand grammar) := by
  refine startsHere_of_choice fun cursor => ?_
  split
  · exact startsHere_parenthesized cursor
  · exact startsHere_array cursor
  · exact startsHere_object cursor
  · exact startsHere_template cursor
  · exact startsHere_regex cursor
  · exact startsHere_classOf false cursor
  · exact startsHere_bind startsHere_markup (fun _ => finds_bind fun _ => finds_pure rfl) cursor
  · exact finds_fail cursor

theorem startsHere_wordOperand : StartsHere (wordOperand grammar) := fun cursor =>
  show FindsAt cursor _ (if _ then _ else if _ then _ else if _ then _ else _) from
    findsAt_ite (startsHere_function false cursor) <|
    findsAt_ite (startsHere_asyncOperand cursor) <|
    findsAt_ite (startsHere_classOf false cursor) <|
    findsAt_ite (startsHere_leaf _ cursor) <|
    findsAt_ite (startsHere_leaf _ cursor) <|
    findsAt_ite (startsHere_leaf _ cursor) <|
    findsAt_ite (startsHere_leaf _ cursor) <|
    findsAt_ite (startsHere_leaf _ cursor) <|
    findsAt_ite (startsHere_importOperand cursor) (startsHere_nameOperand cursor)

theorem startsHere_operand : StartsHere (operand grammar) := by
  refine startsHere_of_choice fun cursor => ?_
  split
  · exact startsHere_wordOperand cursor
  · exact startsHere_leaf _ cursor
  · exact startsHere_leaf _ cursor
  · exact startsHere_leaf _ cursor
  · exact startsHere_signOperand cursor
  · exact finds_fail cursor

/-! ## Members and calls -/

theorem startsAt_subscript (object : Sketch) (chain : List Sketch) :
    Finds (·.start = object.start) (subscript grammar object chain) :=
  finds_bind fun _ => finds_bind fun _ => finds_bind fun _ => finds_finish _ _ _

theorem startsAt_optionalStep (object : Sketch) :
    Finds (·.start = object.start) (optionalStep grammar object) := by
  refine finds_bind fun _ => finds_bind fun _ => finds_ite ?_ (finds_bind fun _ => finds_ite ?_ ?_)
  · exact finds_bind fun _ => finds_finish _ _ _
  · exact startsAt_subscript _ _
  · exact finds_bind fun _ => finds_finish _ _ _

/-- A step behind an object starts where the object does. -/
theorem startsAt_step (calls : Bool) (object : Sketch) :
    Finds (∀ next ∈ ·, next.start = object.start) (step grammar calls object) := by
  have found : ∀ {reader : Reader Sketch}, Finds (·.start = object.start) reader →
      Finds (∀ next ∈ ·, next.start = object.start) (reader >>= fun next => pure (some next)) :=
    fun starts => finds_bind_of starts fun _ same => finds_pure (by simpa using same)
  refine finds_bind fun cursor => finds_ite ?_ (finds_ite ?_ (finds_ite ?_ (finds_ite ?_
    (finds_ite ?_ ?_))))
  · exact finds_bind fun _ => finds_bind fun _ => found (finds_finish _ _ _)
  · exact found (startsAt_subscript _ _)
  · exact finds_bind fun _ => found (finds_finish _ _ _)
  · exact found (startsAt_optionalStep _)
  · exact finds_bind fun _ => found (finds_finish _ _ _)
  · exact finds_pure (by simp)

theorem startsAt_steps (calls : Bool) (budget : Nat) (object : Sketch) :
    Finds (·.start = object.start) (steps grammar calls budget object) := by
  induction budget generalizing object with
  | zero => exact finds_pure rfl
  | succ budget ih =>
      refine finds_bind_of (startsAt_step calls object) fun found same => ?_
      cases found with
      | none => exact finds_pure rfl
      | some next =>
          rw [← same next rfl]
          exact ih next

theorem startsHere_newOperand (budget : Nat) : StartsHere (newOperand grammar budget) := by
  cases budget with
  | zero => exact fun cursor => finds_fail cursor
  | succ budget =>
      refine startsHere_of_get fun cursor => ?_
      repeat' first
        | exact finds_finish _ _ _
        | refine finds_bind fun _ => ?_
        | apply finds_ite

theorem startsHere_stepped : StartsHere (stepped grammar) := by
  intro cursor
  change FindsAt cursor _ (if _ then _ else _)
  refine findsAt_ite (startsHere_bind (startsHere_newOperand _) (fun first => ?_) cursor)
    (startsHere_bind startsHere_operand (fun first => ?_) cursor) <;>
  · refine finds_bind_of (startsAt_steps _ _ _) fun whole same => finds_bind fun _ =>
      finds_ite ?_ (finds_pure same)
    refine finds_bind fun _ => finds_bind_of (finds_finish _ _ _) fun updated also => ?_
    rw [← same, ← also]
    exact startsAt_steps _ _ _

/-! ## Operators -/

/-- Looking for an operand behind the word `await` does not move the cursor. -/
theorem peeks_awaits : Peeks awaits := by
  refine peeks_bind (peeks_atWord _) fun isAwait => peeks_ite ?_ (peeks_pure _)
  refine peeks_bind peeks_following fun next => ?_
  split <;> exact peeks_pure _

theorem startsHere_unaryOf : StartsHere (unaryOf grammar) := by
  intro cursor
  change FindsAt cursor _ (if _ then _ else if _ then _ else _)
  refine findsAt_ite ?_ (findsAt_ite ?_ (findsAt_bind fun found behind reads => ?_))
  · exact finds_bind (fun _ => finds_bind fun _ => finds_finish _ _ _) cursor
  · exact finds_bind (fun _ => finds_bind fun _ => finds_finish _ _ _) cursor
  · obtain rfl : behind = cursor := peeks_awaits cursor found behind reads
    exact findsAt_ite (finds_bind (fun _ => finds_bind fun _ => finds_finish _ _ _) behind)
      (startsHere_stepped behind)

theorem startsAt_binaryFrom (least budget : Nat) (left : Sketch) :
    Finds (·.start = left.start) (binaryFrom grammar least budget left) := by
  induction budget generalizing left with
  | zero => exact finds_pure rfl
  | succ budget ih =>
      refine finds_bind fun cursor => ?_
      split
      · exact finds_pure rfl
      · refine finds_ite (finds_pure rfl) (finds_bind fun _ => finds_bind fun _ => ?_)
        refine finds_bind_of (finds_finish _ _ _) fun whole same => ?_
        rw [← same]
        exact ih whole

theorem startsHere_binaryOf (least : Nat) : StartsHere (binaryOf grammar least) :=
  startsHere_bind startsHere_unaryOf fun left => startsAt_binaryFrom _ _ left

theorem startsHere_ternaryOf : StartsHere (ternaryOf grammar) := by
  refine startsHere_bind (startsHere_binaryOf 0) fun condition => finds_bind fun _ =>
    finds_ite ?_ (finds_pure rfl)
  exact finds_bind fun _ => finds_bind fun _ => finds_bind fun _ => finds_finish _ _ _

theorem startsHere_yielded : StartsHere (yielded grammar) := by
  refine startsHere_of_get fun cursor => ?_
  repeat' first
    | exact finds_finish _ _ _
    | refine finds_bind fun _ => ?_
    | apply finds_ite

theorem startsHere_assignmentOf : StartsHere (assignmentOf grammar) := by
  intro cursor
  change FindsAt cursor _ (if _ then _ else _)
  refine findsAt_ite (startsHere_yielded cursor) (startsHere_bind startsHere_ternaryOf
    (fun left => finds_bind fun behind => finds_ite ?_ ?_) cursor)
  · exact finds_bind fun _ => finds_bind fun _ => finds_finish _ _ _
  · split
    · refine finds_ite ?_ (finds_pure rfl)
      exact finds_bind fun _ => finds_bind fun _ => finds_finish _ _ _
    · exact finds_pure rfl

/-- An expression starts where its reader begins. -/
theorem startsHere_expressionOf : StartsHere (expressionOf grammar) :=
  startsHere_bind startsHere_assignmentOf fun _ => finds_bind fun _ =>
    finds_ite (finds_pure rfl) (finds_finish _ _ _)

end Grammar
end Script
end Hookify
