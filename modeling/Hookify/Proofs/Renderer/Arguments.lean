import Hookify.Proofs.Renderer.Carries

namespace Hookify

open Script Selection

/-!
# The arguments of a call

A step takes the arguments of its call by their numbers.  How many of them it
has room for depends on the method, on the target and on the number of
arguments.  The arguments that it has room for stand in the step, and the others
have no influence on it: the step is the same whatever is in their place.
-/

/-- Calls with the role become code that has the arguments of the call. -/
def Selection.Role.takesArguments : Role → Bool
  | .mutation _ | .read | .attributeWrite | .trigger => true
  | .binding | .animation | .traversal | .ready | .unknown => false

namespace Selection.MethodCall

/-- The number of arguments that the step of a call has room for.  An element of the component is
shown or hidden as an argument says; an object is always switched over. -/
def room (call : MethodCall) (target : Target) : Nat :=
  match call.role with
  | .mutation .visibility =>
      match target with
      | .selector _ => 1
      | .page _ | .this => 0
  | .mutation .style => if call.arguments.length == 2 then 2 else 1
  | .attributeWrite => if call.name == "removeAttr" || call.name == "removeProp" then 1 else 2
  | _ => 1

/-- The first argument of a call is the name of a property of the style, or a key of the data. -/
def hasKey (call : MethodCall) : Bool :=
  call.name == "data" || (call.name == "css" && decide (call.arguments.length ≤ 2))

/-- The call with another argument in the place of one. -/
def withArgument (call : MethodCall) (index : Nat) (other : Place) : MethodCall :=
  { call with arguments := call.arguments.set index other }

/-- Two calls of one method have equally many arguments, the first of which are the same. -/
structure AgreeUpTo (count : Nat) (call other : MethodCall) : Prop where
  name : other.name = call.name
  length : other.arguments.length = call.arguments.length
  argument : ∀ index < count, other.argument? index = call.argument? index

variable {call other : MethodCall} {count index : Nat} {target : Target}

theorem room_of_visibility (role : call.role = .mutation .visibility) : call.room target =
    match target with
    | .selector _ => 1
    | .page _ | .this => 0 := by
  rw [room.eq_def, role]

theorem room_of_style (role : call.role = .mutation .style) :
    call.room target = if call.arguments.length == 2 then 2 else 1 := by
  rw [room.eq_def, role]

theorem room_of_facet {facet : Facet} (role : call.role = .mutation facet)
    (noVisibility : facet ≠ .visibility) (noStyle : facet ≠ .style) : call.room target = 1 := by
  rw [room.eq_def, role]
  cases facet <;> first | rfl | contradiction

theorem room_of_attributeWrite (role : call.role = .attributeWrite) : call.room target =
    if call.name == "removeAttr" || call.name == "removeProp" then 1 else 2 := by
  rw [room.eq_def, role]

theorem room_of_read (role : call.role = .read) : call.room target = 1 := by
  rw [room.eq_def, role]

theorem room_of_trigger (role : call.role = .trigger) : call.room target = 1 := by
  rw [room.eq_def, role]

/-- Only the switching of an object has no room for an argument at all. -/
theorem role_of_room (none : call.room target = 0) : call.role = .mutation .visibility := by
  rw [room.eq_def] at none
  split at none
  · assumption
  · split at none <;> contradiction
  · split at none <;> contradiction
  · contradiction

namespace AgreeUpTo

theorem literal?_eq (agree : AgreeUpTo count call other) (small : index < count) :
    other.literal? index = call.literal? index := by
  rw [literal?, literal?, agree.argument index small]

theorem isEmpty_eq (agree : AgreeUpTo count call other) :
    other.arguments.isEmpty = call.arguments.isEmpty := by
  rw [Bool.eq_iff_iff, List.isEmpty_iff_length_eq_zero, List.isEmpty_iff_length_eq_zero,
    agree.length]

theorem withArgument {place : Place} (large : count ≤ index) :
    AgreeUpTo count call (call.withArgument index place) where
  name := rfl
  length := List.length_set
  argument _ small := List.getElem?_set_ne (Nat.ne_of_gt (Nat.lt_of_lt_of_le small large))

end AgreeUpTo

/-! ## Roles of calls with arguments -/

theorem filled_of_argument? {argument : Place} (found : call.argument? index = some argument) :
    call.arguments.length ≠ 0 := by
  intro empty
  rw [argument?, List.eq_nil_of_length_eq_zero empty] at found
  cases found

/-- With an argument, the methods that read are those that read by a name. -/
theorem name_of_filled_read (role : call.role = .read) (filled : call.arguments.length ≠ 0) :
    call.name ∈ ["css", "attr", "prop", "data"] := by
  unfold MethodCall.role roleOf at role
  simp only [List.length_map, beq_iff_eq, if_neg filled] at role
  split at role
  case h_10 name | h_11 name | h_12 name | h_13 name =>
    rw [name]
    decide
  case h_18 => exact absurd role (namedRole_ne _ _).1
  case h_6 => split at role <;> cases role
  all_goals cases role

/-- With an argument, no method that is named after an event triggers it. -/
theorem name_of_filled_trigger (role : call.role = .trigger) (filled : call.arguments.length ≠ 0) :
    call.name = "trigger" := by
  unfold MethodCall.role roleOf at role
  simp only [List.length_map, beq_iff_eq, if_neg filled] at role
  split at role
  case h_17 name => exact name
  case h_18 =>
    unfold namedRole at role
    simp only [beq_iff_eq, if_neg filled] at role
    repeat' split at role
    all_goals cases role
  case h_6 | h_10 | h_11 | h_12 | h_13 => split at role <;> cases role
  all_goals cases role

/-- The methods that change the visibility; with an argument it is one that switches it. -/
theorem name_of_visibility (role : call.role = .mutation .visibility) :
    call.name ∈ ["show", "hide", "toggle"] ∧
      (call.arguments.length ≠ 0 → call.name = "toggle") := by
  unfold MethodCall.role roleOf at role
  simp only [List.length_map, beq_iff_eq] at role
  split at role
  case h_4 name | h_5 name =>
    split at role
    · rename_i none
      exact ⟨by rw [name]; decide, absurd none⟩
    · cases role
  case h_6 name => exact ⟨by rw [name]; decide, fun _ => name⟩
  case h_18 => exact absurd role ((namedRole_ne _ _).2 _)
  case h_1 | h_2 | h_3 | h_10 | h_11 | h_12 | h_13 => split at role <;> cases role
  all_goals cases role

theorem name_of_style (role : call.role = .mutation .style) : call.name = "css" := by
  unfold MethodCall.role roleOf at role
  dsimp only at role
  split at role
  case h_10 name => exact name
  case h_18 => exact absurd role ((namedRole_ne _ _).2 _)
  case h_1 | h_2 | h_3 | h_4 | h_5 | h_6 | h_11 | h_12 | h_13 => split at role <;> cases role
  all_goals cases role

theorem name_of_attributeWrite (role : call.role = .attributeWrite) :
    call.name ∈ ["attr", "prop", "data", "removeAttr", "removeProp"] := by
  unfold MethodCall.role roleOf at role
  dsimp only at role
  split at role
  case h_11 name | h_12 name | h_13 name | h_14 name | h_15 name =>
    rw [name]
    decide
  case h_18 =>
    unfold namedRole at role
    repeat' split at role
    all_goals cases role
  case h_1 | h_2 | h_3 | h_4 | h_5 | h_6 | h_10 => split at role <;> cases role
  all_goals cases role

/-! ### Methods with keys -/

theorem role_of_css (name : call.name = "css") : call.role =
    if writes (call.arguments.map (·.kind)) then .mutation .style else .read := by
  rw [MethodCall.role, name]
  rfl

theorem role_of_data (name : call.name = "data") : call.role =
    if writes (call.arguments.map (·.kind)) then .attributeWrite else .read := by
  rw [MethodCall.role, name]
  rfl

theorem writes_of_style (role : call.role = .mutation .style) :
    writes (call.arguments.map (·.kind)) = true := by
  by_contra reads
  rw [role_of_css (name_of_style role), if_neg reads] at role
  cases role

theorem writes_of_data (role : call.role = .attributeWrite) (name : call.name = "data") :
    writes (call.arguments.map (·.kind)) = true := by
  by_contra reads
  rw [role_of_data name, if_neg reads] at role
  cases role

/-- What writes with a single argument has an object there, and no literal. -/
theorem literal?_eq_none_of_writes (single : call.arguments.length ≤ 1)
    (writing : writes (call.arguments.map (·.kind)) = true) : call.literal? 0 = none := by
  rw [literal?, argument?]
  cases arguments : call.arguments with
  | nil => rfl
  | cons only rest =>
      rw [arguments] at single writing
      obtain rfl : rest = [] := List.eq_nil_of_length_eq_zero (by simpa using single)
      have isObject : only.kind = .object := beq_iff_eq.mp writing
      simp [isObject]

/-- With two arguments or more the style is written. -/
theorem length_le_of_css (role : call.role = .read) (name : call.name = "css") :
    call.arguments.length ≤ 1 := by
  by_contra many
  have writing : writes (call.arguments.map (·.kind)) = true := by
    match same : call.arguments with
    | [] => exact absurd (same ▸ Nat.zero_le 1) many
    | [_] => exact absurd (same ▸ Nat.le_refl 1) many
    | _ :: _ :: _ => rfl
  rw [role_of_css name, if_pos writing] at role
  cases role

/-- Of the methods that write a facet, the one for the style has keys. -/
theorem hasKey_of_mutation {facet : Facet} (role : call.role = .mutation facet)
    (noStyle : facet ≠ .style) : call.hasKey = false := by
  rw [← Bool.not_eq_true, hasKey, Bool.or_eq_true, Bool.and_eq_true, beq_iff_eq, beq_iff_eq]
  rintro (name | ⟨name, _⟩)
  · rw [role_of_data name] at role
    split at role <;> cases role
  · rw [role_of_css name] at role
    split at role
    · exact noStyle (Role.mutation.inj role).symm
    · cases role

/-! ## Other arguments in the place of some -/

theorem writes_set {kinds : List Kind} (later : index ≠ 0) (kind : Kind) :
    writes (kinds.set index kind) = writes kinds := by
  obtain ⟨index, rfl⟩ := Nat.exists_eq_succ_of_ne_zero later
  match kinds, index with
  | [], _ | [_], _ | _ :: _ :: _, 0 | _ :: _ :: _, _ + 1 => rfl

/-- What a method does depends on the number of arguments and on whether they make it write. -/
theorem roleOf_congr {name : String} {kinds others : List Kind}
    (length : others.length = kinds.length) (writing : writes others = writes kinds) :
    roleOf name others = roleOf name kinds := by
  rw [roleOf.eq_def, roleOf.eq_def, length, writing]

theorem roleOf_visibility {name : String} (visibility : name ∈ ["show", "hide", "toggle"])
    {kinds others : List Kind} (length : others.length = kinds.length) :
    roleOf name others = roleOf name kinds := by
  simp only [List.mem_cons, List.not_mem_nil, or_false] at visibility
  rcases visibility with rfl | rfl | rfl <;> simp only [roleOf, length]

theorem role_withArgument (large : call.room target ≤ index) (other : Place) :
    (call.withArgument index other).role = call.role := by
  have length : ((call.withArgument index other).arguments.map (·.kind)).length =
      (call.arguments.map (·.kind)).length := by
    rw [List.length_map, List.length_map, withArgument, List.length_set]
  by_cases first : index = 0
  · have visibility := role_of_room (Nat.le_zero.mp (first ▸ large))
    exact roleOf_visibility (name_of_visibility visibility).1 length
  · refine roleOf_congr length ?_
    rw [withArgument, List.map_set]
    exact writes_set first other.kind

end Selection.MethodCall

/-! ## Arguments that are read -/

namespace Renderer

/-- The name of a property or an entry that a call has a key for. -/
def keyText (renderer : Renderer) (call : MethodCall) (argument : Place) : String :=
  ((call.literal? 0).map Identifier.cssProperty).getD (renderer.fragment argument)

/-- What a step has of an argument: of a key the name, and of any other argument the code. -/
def carried (renderer : Renderer) (call : MethodCall) (index : Nat) (argument : Place) : String :=
  if index == 0 && call.hasKey then renderer.keyText call argument else renderer.fragment argument

section Reads

variable {renderer : Renderer} {call : MethodCall} {index : Nat} {argument : Place}

theorem argument?_of_argument? (renderer : Renderer)
    (found : call.argument? index = some argument) :
    renderer.argument? call index = some (renderer.fragment argument) := by
  rw [argument?, found]
  rfl

theorem carried_eq_fragment (noKey : index ≠ 0 ∨ call.hasKey = false ∨ call.literal? 0 = none) :
    renderer.carried call index argument = renderer.fragment argument := by
  rw [carried]
  split
  · rename_i both
    rw [Bool.and_eq_true, beq_iff_eq] at both
    rcases noKey with other | none | none
    · exact absurd both.1 other
    · exact absurd both.2 (Bool.not_eq_true _ ▸ none)
    · rw [keyText, none]
      rfl
  · rfl

theorem carried_eq_keyText (hasKey : call.hasKey = true) :
    renderer.carried call 0 argument = renderer.keyText call argument := by
  rw [carried, hasKey]
  rfl

theorem occursIn_memberOf (found : call.argument? 0 = some argument) (part : String) :
    Text.occursIn (renderer.keyText call argument) (renderer.memberOf part call) = true := by
  rw [keyText, memberOf]
  cases call.literal? 0 with
  | some key => exact Text.occursIn_append_right (Text.occursIn_self _) _
  | none =>
      rw [argument_eq (argument?_of_argument? renderer found)]
      exact Text.occursIn_append_left (Text.occursIn_append_right (Text.occursIn_self _) _) _

theorem occursIn_styleMembers_key (found : call.argument? 0 = some argument)
    (two : (call.arguments.length == 2) = true) :
    Text.occursIn (renderer.keyText call argument) (renderer.styleMembers call) = true := by
  have value := argument_eq (argument?_of_argument? renderer found)
  rw [keyText, styleMembers, if_pos two, value]
  cases call.literal? 0 with
  | some key =>
      exact Text.occursIn_append_left (Text.occursIn_append_left
        (Text.occursIn_self (Identifier.cssProperty key)) _) _
  | none =>
      exact Text.occursIn_append_left (Text.occursIn_append_left
        (Text.occursIn_append_right (Text.occursIn_self (renderer.fragment argument)) _) _) _

theorem occursIn_styleMutation_key (found : call.argument? 0 = some argument)
    (two : (call.arguments.length == 2) = true) (code : String) :
    Text.occursIn (renderer.keyText call argument) (renderer.styleMutation code call) = true := by
  have value := argument_eq (argument?_of_argument? renderer found)
  rw [keyText, styleMutation, if_pos two, value]
  cases call.literal? 0 with
  | some key =>
      exact Text.occursIn_append_left (Text.occursIn_append_left
        (Text.occursIn_append_right (Text.occursIn_self (Identifier.cssProperty key)) _) _) _
  | none =>
      exact Text.occursIn_append_left (Text.occursIn_append_left
        (Text.occursIn_append_right (Text.occursIn_self (renderer.fragment argument)) _) _) _

section Steps

variable {target : Target} {element : Element} {isStatement : Bool} {step : String}

theorem occursIn_step_of_visibility (role : call.role = .mutation .visibility)
    (found : call.argument? index = some argument) (small : index < call.room target)
    (isStep : renderer.step? target element isStatement call = some step) :
    Text.occursIn (renderer.carried call index argument) step = true := by
  have name := (MethodCall.name_of_visibility role).2 (MethodCall.filled_of_argument? found)
  rw [MethodCall.room_of_visibility role] at small
  rw [step?, role] at isStep
  cases target with
  | page _ | this => exact absurd small (Nat.not_lt_zero _)
  | selector selector =>
      obtain rfl := Nat.lt_one_iff.mp small
      have value : renderer.stateValue .visibility call = renderer.fragment argument := by
        rw [stateValue.eq_def]
        dsimp only
        split
        case h_1 isShow => exact absurd (name.symm.trans isShow) (by decide)
        case h_2 isHide => exact absurd (name.symm.trans isHide) (by decide)
        case h_3 => rw [argument?_of_argument? renderer found, Option.getD_some]
      rw [carried_eq_fragment (.inr (.inl (MethodCall.hasKey_of_mutation role Facet.noConfusion))),
        ← Option.some.inj isStep, stateMutation, value]
      exact Text.occursIn_append_left (Text.occursIn_append_right (Text.occursIn_self _) _) _

theorem occursIn_step_of_style (role : call.role = .mutation .style)
    (found : call.argument? index = some argument) (small : index < call.room target)
    (isStep : renderer.step? target element isStatement call = some step) :
    Text.occursIn (renderer.carried call index argument) step = true := by
  have read := argument?_of_argument? renderer found
  rw [MethodCall.room_of_style role] at small
  by_cases two : (call.arguments.length == 2) = true
  · rw [if_pos two] at small
    rcases (by omega : index = 0 ∨ index = 1) with rfl | rfl
    · have hasKey : call.hasKey = true := by
        simp [MethodCall.hasKey, MethodCall.name_of_style role, beq_iff_eq.mp two]
      rw [carried_eq_keyText hasKey]
      rw [step?, role] at isStep
      cases target with
      | selector _ =>
          have inside : Text.occursIn (renderer.keyText call argument)
              (renderer.stateValue .style call) = true :=
            Text.occursIn_append_left (Text.occursIn_append_right
              (occursIn_styleMembers_key found two) _) _
          rw [← Option.some.inj isStep, stateMutation]
          exact Text.occursIn_append_left (Text.occursIn_append_right inside _) _
      | page _ | this =>
          rw [← Option.some.inj isStep]
          exact occursIn_styleMutation_key found two element.code
    · rw [carried_eq_fragment (.inl Nat.one_ne_zero)]
      refine occursIn_step_of_mutation role Facet.noConfusion ?_ isStep
      rw [valueIndex, two]
      exact read
  · rw [if_neg two] at small
    obtain rfl := Nat.lt_one_iff.mp small
    -- One argument is an object, and of more than two the first is taken as if it was one.
    have noKey : call.hasKey = false ∨ call.literal? 0 = none := by
      by_cases single : call.arguments.length ≤ 1
      · have writing := MethodCall.writes_of_style role
        exact .inr (MethodCall.literal?_eq_none_of_writes single writing)
      · have many : ¬ call.arguments.length ≤ 2 := by
          rw [beq_iff_eq] at two
          omega
        exact .inl (by simp [MethodCall.hasKey, MethodCall.name_of_style role, many])
    rw [carried_eq_fragment (.inr noKey)]
    refine occursIn_step_of_mutation role Facet.noConfusion ?_ isStep
    rw [valueIndex, eq_false_of_ne_true two, Bool.and_false]
    exact read

theorem occursIn_step_of_mutation_argument {facet : Facet} (role : call.role = .mutation facet)
    (found : call.argument? index = some argument) (small : index < call.room target)
    (isStep : renderer.step? target element isStatement call = some step) :
    Text.occursIn (renderer.carried call index argument) step = true := by
  by_cases visibility : facet = .visibility
  · subst visibility
    exact occursIn_step_of_visibility role found small isStep
  by_cases style : facet = .style
  · subst style
    exact occursIn_step_of_style role found small isStep
  rw [MethodCall.room_of_facet role visibility style] at small
  obtain rfl := Nat.lt_one_iff.mp small
  rw [carried_eq_fragment (.inr (.inl (MethodCall.hasKey_of_mutation role style)))]
  refine occursIn_step_of_mutation role visibility ?_ isStep
  rw [valueIndex, beq_eq_false_iff_ne.mpr style, Bool.false_and]
  exact argument?_of_argument? renderer found

theorem occursIn_read (role : call.role = .read) (found : call.argument? 0 = some argument) :
    Text.occursIn (renderer.carried call 0 argument) (renderer.read target element call) =
      true := by
  have own := Text.occursIn_self (renderer.fragment argument)
  have value := argument_eq (argument?_of_argument? renderer found)
  have filled := MethodCall.filled_of_argument? found
  have names := MethodCall.name_of_filled_read role filled
  simp only [List.mem_cons, List.not_mem_nil, or_false] at names
  have noState : renderer.ownedState? target call.name = none := by
    rcases names with name | name | name | name <;> rw [name] <;> cases target <;> rfl
  rw [Renderer.read, noState]
  dsimp only
  rcases names with name | name | name | name
  · have hasKey : call.hasKey = true := by
      have single := MethodCall.length_le_of_css role name
      simp [MethodCall.hasKey, name, Nat.le_succ_of_le single]
    rw [carried_eq_keyText hasKey, elementRead, name]
    exact occursIn_memberOf found _
  -- Attributes and properties are read by their names as they are written.
  iterate 2
    rw [carried_eq_fragment (.inr (.inl (by simp [MethodCall.hasKey, name]))), elementRead, name,
      value]
    exact Text.occursIn_append_left (Text.occursIn_append_right own _) _
  · rw [carried_eq_keyText (by simp [MethodCall.hasKey, name]), elementRead, name,
      if_neg (mt List.isEmpty_iff_length_eq_zero.mp filled)]
    exact occursIn_memberOf found _

/-- What names an attribute, a property or an entry is in the code that writes it. -/
theorem occursIn_attributeWrite_key (role : call.role = .attributeWrite)
    (found : call.argument? 0 = some argument) (element : Element) :
    Text.occursIn (renderer.carried call 0 argument) (renderer.attributeWrite element call) =
      true := by
  have own := Text.occursIn_self (renderer.fragment argument)
  have value := argument_eq (argument?_of_argument? renderer found)
  have plain (other : call.name ≠ "data") :
      renderer.carried call 0 argument = renderer.fragment argument := by
    have names := MethodCall.name_of_attributeWrite role
    refine carried_eq_fragment (.inr (.inl ?_))
    have noStyle : call.name ≠ "css" := fun name => by simp [name] at names
    simp [MethodCall.hasKey, other, noStyle]
  rw [attributeWrite, value]
  split
  case h_5 name same =>
    rw [carried_eq_keyText (by simp [MethodCall.hasKey, name])]
    exact Text.occursIn_append_left (Text.occursIn_append_left (occursIn_memberOf found _) _) _
  case h_6 name none =>
    have single : call.arguments.length ≤ 1 :=
      List.getElem?_eq_none_iff.mp (Option.map_eq_none_iff.mp none)
    have noLiteral :=
      MethodCall.literal?_eq_none_of_writes single (MethodCall.writes_of_data role name)
    rw [carried_eq_fragment (.inr (.inr noLiteral))]
    exact Text.occursIn_append_left (Text.occursIn_append_right own _) _
  case h_1 name | h_2 name =>
    rw [plain (by rw [name]; decide)]
    exact Text.occursIn_append_left (Text.occursIn_append_right own _) _
  case h_3 name _ | h_4 name _ =>
    rw [plain (by rw [name]; decide)]
    iterate 3 refine Text.occursIn_append_left ?_ _
    exact Text.occursIn_append_right own _
  case h_7 noData =>
    rw [plain noData]
    iterate 2 refine Text.occursIn_append_left ?_ _
    exact Text.occursIn_append_right own _
  case h_8 noData =>
    rw [plain noData]
    exact Text.occursIn_append_left (Text.occursIn_append_right own _) _

theorem occursIn_attributeWrite_argument (role : call.role = .attributeWrite)
    (found : call.argument? index = some argument) (small : index < call.room target)
    (element : Element) : Text.occursIn (renderer.carried call index argument)
      (renderer.attributeWrite element call) = true := by
  have read := argument?_of_argument? renderer found
  rw [MethodCall.room_of_attributeWrite role] at small
  by_cases first : index = 0
  · subst first
    exact occursIn_attributeWrite_key role found element
  · split at small
    · exact absurd (Nat.lt_one_iff.mp small) first
    · rename_i names
      rw [Bool.or_eq_true, beq_iff_eq, beq_iff_eq, not_or] at names
      obtain rfl : index = 1 := by omega
      rw [carried_eq_fragment (.inl first)]
      exact occursIn_attributeWrite element names.1 names.2 read

theorem occursIn_trigger (role : call.role = .trigger) (found : call.argument? 0 = some argument)
    (element : Element) :
    Text.occursIn (renderer.carried call 0 argument) (renderer.trigger element call) = true := by
  have name := MethodCall.name_of_filled_trigger role (MethodCall.filled_of_argument? found)
  have code : renderer.trigger element call =
      dispatch element.access (renderer.fragment argument) := by
    simp only [trigger, name, argument_eq (argument?_of_argument? renderer found)]
  rw [carried_eq_fragment (.inr (.inl (by simp [MethodCall.hasKey, name]))), code, dispatch]
  exact Text.occursIn_append_left (Text.occursIn_append_right (Text.occursIn_self _) _) _

/-- The arguments that a step has room for stand in it. -/
theorem occursIn_step (takes : call.role.takesArguments = true)
    (found : call.argument? index = some argument) (small : index < call.room target)
    (isStep : renderer.step? target element isStatement call = some step) :
    Text.occursIn (renderer.carried call index argument) step = true := by
  cases role : call.role with
  | mutation facet => exact occursIn_step_of_mutation_argument role found small isStep
  | read =>
      rw [MethodCall.room_of_read role] at small
      obtain rfl := Nat.lt_one_iff.mp small
      rw [step?, role] at isStep
      exact Option.some.inj isStep ▸ occursIn_read role found
  | attributeWrite =>
      rw [step?, role] at isStep
      exact Option.some.inj isStep ▸ occursIn_attributeWrite_argument role found small element
  | trigger =>
      rw [MethodCall.room_of_trigger role] at small
      obtain rfl := Nat.lt_one_iff.mp small
      rw [step?, role] at isStep
      exact Option.some.inj isStep ▸ occursIn_trigger role found element
  | binding | animation | traversal | ready | unknown => rw [role] at takes; cases takes

end Steps

end Reads

/-! ## Arguments that are not read -/

section Agree

variable {renderer : Renderer} {call other : MethodCall} {count index : Nat} {target : Target}
  {element : Element} {isStatement : Bool} {facet : Facet}

theorem argument?_eq_of_agree (agree : call.AgreeUpTo count other) (small : index < count) :
    renderer.argument? other index = renderer.argument? call index := by
  rw [argument?, argument?, agree.argument index small]

theorem argument_eq_of_agree (agree : call.AgreeUpTo count other) (small : index < count) :
    renderer.argument other index = renderer.argument call index := by
  rw [argument, argument, argument?_eq_of_agree agree small]

theorem memberOf_eq_of_agree (agree : call.AgreeUpTo count other) (some : 0 < count)
    (part : String) : renderer.memberOf part other = renderer.memberOf part call := by
  rw [memberOf, memberOf, agree.literal?_eq some, argument_eq_of_agree agree some]

theorem style_eq_of_agree
    (agree : call.AgreeUpTo (if call.arguments.length == 2 then 2 else 1) other) (code : String) :
    renderer.styleMembers other = renderer.styleMembers call ∧
      renderer.styleMutation code other = renderer.styleMutation code call := by
  rw [styleMembers, styleMembers, styleMutation, styleMutation, agree.length]
  by_cases two : (call.arguments.length == 2) = true
  · rw [if_pos two] at agree
    rw [if_pos two, if_pos two, if_pos two, if_pos two, agree.literal?_eq Nat.zero_lt_two,
      argument_eq_of_agree agree Nat.zero_lt_two, argument_eq_of_agree agree Nat.one_lt_two]
    exact ⟨rfl, rfl⟩
  · rw [if_neg two] at agree
    rw [if_neg two, if_neg two, if_neg two, if_neg two,
      argument_eq_of_agree agree Nat.zero_lt_one]
    exact ⟨rfl, rfl⟩

theorem class_eq_of_agree (agree : call.AgreeUpTo 1 other) (code : String) :
    renderer.classUpdate other = renderer.classUpdate call ∧
      renderer.classMutation code other = renderer.classMutation code call := by
  rw [classUpdate, classUpdate, classMutation, classMutation, agree.name, agree.isEmpty_eq,
    argument?_eq_of_agree agree Nat.zero_lt_one, argument_eq_of_agree agree Nat.zero_lt_one]
  exact ⟨rfl, rfl⟩

theorem stateValue_eq_of_agree {selector : String} (role : call.role = .mutation facet)
    (agree : call.AgreeUpTo (call.room (.selector selector)) other) :
    renderer.stateValue facet other = renderer.stateValue facet call := by
  rw [stateValue.eq_def, stateValue.eq_def]
  cases facet with
  | visibility =>
      rw [MethodCall.room_of_visibility role] at agree
      dsimp only
      rw [agree.name, argument?_eq_of_agree agree Nat.zero_lt_one]
  | style =>
      rw [MethodCall.room_of_style role] at agree
      dsimp only
      rw [(style_eq_of_agree agree "").1]
  | className =>
      rw [MethodCall.room_of_facet role Facet.noConfusion Facet.noConfusion] at agree
      exact (class_eq_of_agree agree "").1
  | content | text | value =>
      rw [MethodCall.room_of_facet role Facet.noConfusion Facet.noConfusion] at agree
      exact argument_eq_of_agree agree Nat.zero_lt_one

/-- The change of an object switches its visibility without a look at the arguments. -/
theorem objectMutation_eq_of_agree (role : call.role = .mutation facet)
    (agree : call.AgreeUpTo (call.room .this) other) (code : String) :
    renderer.objectMutation code facet other = renderer.objectMutation code facet call := by
  rw [objectMutation.eq_def, objectMutation.eq_def]
  cases facet with
  | visibility =>
      dsimp only
      rw [agree.name]
  | style =>
      rw [MethodCall.room_of_style role] at agree
      exact (style_eq_of_agree agree code).2
  | className =>
      rw [MethodCall.room_of_facet role Facet.noConfusion Facet.noConfusion] at agree
      exact (class_eq_of_agree agree code).2
  | content | text | value =>
      rw [MethodCall.room_of_facet role Facet.noConfusion Facet.noConfusion] at agree
      dsimp only
      rw [argument_eq_of_agree agree Nat.zero_lt_one]

theorem read_eq_of_agree (agree : call.AgreeUpTo 1 other) :
    renderer.read target element other = renderer.read target element call := by
  rw [Renderer.read, Renderer.read, elementRead, elementRead, agree.name, agree.isEmpty_eq,
    argument_eq_of_agree agree Nat.zero_lt_one]
  simp only [memberOf_eq_of_agree agree Nat.zero_lt_one]

theorem attributeWrite_eq_of_agree (role : call.role = .attributeWrite)
    (agree : call.AgreeUpTo (call.room target) other) :
    renderer.attributeWrite element other = renderer.attributeWrite element call := by
  rw [MethodCall.room_of_attributeWrite role] at agree
  split at agree
  · rename_i names
    rw [Bool.or_eq_true, beq_iff_eq, beq_iff_eq] at names
    have value : renderer.argument other 0 = renderer.argument call 0 :=
      argument_eq_of_agree agree Nat.zero_lt_one
    rw [attributeWrite.eq_def, attributeWrite.eq_def]
    dsimp only
    rw [agree.name, value]
    rcases names with name | name <;> simp only [name]
  · rw [attributeWrite, attributeWrite, agree.name,
      argument_eq_of_agree agree Nat.zero_lt_two, argument?_eq_of_agree agree Nat.one_lt_two,
      memberOf_eq_of_agree agree Nat.zero_lt_two]

theorem trigger_eq_of_agree (agree : call.AgreeUpTo 1 other) :
    renderer.trigger element other = renderer.trigger element call := by
  rw [trigger, trigger, agree.name, argument_eq_of_agree agree Nat.zero_lt_one]

/-- A step is made from the arguments that it has room for and from their number. -/
theorem step?_eq_of_agree (takes : call.role.takesArguments = true) (same : other.role = call.role)
    (agree : call.AgreeUpTo (call.room target) other) :
    renderer.step? target element isStatement other =
      renderer.step? target element isStatement call := by
  rw [step?, step?, same]
  cases role : call.role with
  | mutation facet =>
      cases target with
      | selector selector =>
          dsimp only
          rw [stateMutation, stateMutation, stateValue_eq_of_agree role agree]
      | page _ | this =>
          dsimp only
          rw [objectMutation_eq_of_agree role agree]
  | read =>
      rw [MethodCall.room_of_read role] at agree
      exact congrArg some (read_eq_of_agree agree)
  | attributeWrite => exact congrArg some (attributeWrite_eq_of_agree role agree)
  | trigger =>
      rw [MethodCall.room_of_trigger role] at agree
      exact congrArg some (trigger_eq_of_agree agree)
  | animation => rw [role] at takes; cases takes
  | binding | traversal | ready | unknown => rfl

/-- In place of an argument that a step has no room for there may be any other. -/
theorem step?_withArgument (takes : call.role.takesArguments = true)
    (large : call.room target ≤ index) (place : Place) :
    renderer.step? target element isStatement (call.withArgument index place) =
      renderer.step? target element isStatement call :=
  step?_eq_of_agree takes (MethodCall.role_withArgument large place) (.withArgument large)

end Agree

/-- An argument of a call stands in its step. -/
def KeepsArgument (renderer : Renderer) (call : MethodCall) (step : String) (index : Nat) : Prop :=
  ∀ argument, call.argument? index = some argument →
    Text.occursIn (renderer.carried call index argument) step = true

/-- For each call of a chain that is replaced there is a step in the code, in which the arguments
that it has room for stand and which is the same whatever the others are.  So no argument is lost
if the call has none beyond those. -/
theorem step_keeps_arguments (renderer : Renderer) {chain : Chain} {head : Place} {text : String}
    (replaced : renderer.chain? chain head = some text) {call : MethodCall}
    (member : call ∈ chain.calls) (takes : call.role.takesArguments = true) :
    let isStatement := (head.parent?.map (·.kind == .expressionStatement)).getD false
    let stepOf := renderer.step? chain.target (renderer.element chain.target) isStatement
    ∃ step, stepOf call = some step ∧ Text.occursIn step text = true ∧
      (∀ index < call.room chain.target, renderer.KeepsArgument call step index) ∧
      (∀ index, call.room chain.target ≤ index →
        ∀ other, stepOf (call.withArgument index other) = some step) ∧
      (call.arguments.length ≤ call.room chain.target →
        ∀ index, renderer.KeepsArgument call step index) := by
  intro isStatement stepOf
  obtain ⟨step, isStep, occurs⟩ := exists_step_of_chain? replaced member
  have keeps (index : Nat) (small : index < call.room chain.target) :
      renderer.KeepsArgument call step index :=
    fun _ found => occursIn_step takes found small isStep
  refine ⟨step, isStep, occurs, keeps, fun index large other => ?_, fun few index => ?_⟩
  · rw [← isStep]
    exact step?_withArgument takes large other
  · intro argument found
    have inside := (List.getElem?_eq_some_iff.mp found).1
    exact keeps index (Nat.lt_of_lt_of_le inside few) argument found

/-- A search for a chain that is replaced. -/
def findsReplaced (renderer : Renderer) (wanted : Place → Chain → String → Bool) : Bool :=
  (chainsIn renderer.facts.aliases renderer.facts.root).any fun (head, chain) =>
    (renderer.chain? chain head).any (wanted head chain)

theorem exists_of_findsReplaced {renderer : Renderer} {wanted : Place → Chain → String → Bool}
    (finds : renderer.findsReplaced wanted = true) :
    ∃ head chain, (head, chain) ∈ chainsIn renderer.facts.aliases renderer.facts.root ∧
      ∃ text, renderer.chain? chain head = some text ∧ wanted head chain text = true := by
  obtain ⟨⟨head, chain⟩, listed, found⟩ := List.any_eq_true.mp finds
  exact ⟨head, chain, listed, (Option.any_eq_true _ _).mp found⟩

/-- An element is shown as a flag says, and a property of its style gets its value. -/
theorem step_keeps_arguments_of_element :
    let facts := Facts.ofTree (parse "$('#menu').toggle(open).css('background-color', shade);")
    let renderer := Renderer.of facts none
    ∃ head chain, (head, chain) ∈ chainsIn facts.aliases facts.root ∧
      ∃ text, renderer.chain? chain head = some text ∧
        chain.calls.map (·.name) = ["toggle", "css"] ∧
        ∀ call ∈ chain.calls, ∃ step, Text.occursIn step text = true ∧
          ∀ index, renderer.KeepsArgument call step index := by
  intro facts renderer
  have run : renderer.findsReplaced (fun _ chain _ =>
      chain.calls.map (·.name) == ["toggle", "css"] && chain.calls.all fun call =>
        call.role.takesArguments && decide (call.arguments.length ≤ call.room chain.target)) =
      true := by
    decide +kernel
  obtain ⟨head, chain, listed, text, replaced, checks⟩ := exists_of_findsReplaced run
  rw [Bool.and_eq_true, beq_iff_eq, List.all_eq_true] at checks
  refine ⟨head, chain, listed, text, replaced, checks.1, fun call member => ?_⟩
  have fits := checks.2 call member
  rw [Bool.and_eq_true, decide_eq_true_eq] at fits
  obtain ⟨step, _, occurs, _, _, keeps⟩ :=
    step_keeps_arguments renderer replaced member fits.1
  exact ⟨step, occurs, keeps fits.2⟩

/-- The document is switched over whatever the flag says. -/
theorem not_keepsArgument_of_flag :
    let facts := Facts.ofTree (parse "$(document).toggle(open);")
    let renderer := Renderer.of facts none
    ∃ head chain, (head, chain) ∈ chainsIn facts.aliases facts.root ∧
      ∃ text, renderer.chain? chain head = some text ∧
        ∃ call ∈ chain.calls, call.role = .mutation .visibility ∧
          renderer.step? chain.target (renderer.element chain.target)
            ((head.parent?.map (·.kind == .expressionStatement)).getD false) call = some text ∧
          ¬ renderer.KeepsArgument call text 0 := by
  intro facts renderer
  have run : renderer.findsReplaced (fun head chain text => chain.calls.any fun call =>
      call.role == .mutation .visibility &&
      renderer.step? chain.target (renderer.element chain.target)
        ((head.parent?.map (·.kind == .expressionStatement)).getD false) call == some text &&
      (call.argument? 0).any fun argument =>
        ! Text.occursIn (renderer.carried call 0 argument) text) = true := by
    decide +kernel
  obtain ⟨head, chain, listed, text, replaced, found⟩ := exists_of_findsReplaced run
  obtain ⟨call, member, checks⟩ := List.any_eq_true.mp found
  rw [Bool.and_eq_true, Bool.and_eq_true, beq_iff_eq, beq_iff_eq, Option.any_eq_true] at checks
  obtain ⟨⟨role, isStep⟩, argument, isArgument, lost⟩ := checks
  refine ⟨head, chain, listed, text, replaced, call, member, role, isStep, fun keeps => ?_⟩
  rw [keeps argument isArgument] at lost
  cases lost


end Renderer
end Hookify
