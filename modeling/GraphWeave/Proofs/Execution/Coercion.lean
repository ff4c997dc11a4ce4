import GraphWeave.Execution.Input
import Mathlib

/-!
Coercion of input values, one lemma for each of its functions.
-/

namespace GraphWeave

/-- The built-in scalar names, which coercion checks before it looks a type up. -/
def builtinScalarNames : List String := ["Int", "Float", "String", "Boolean", "ID"]

theorem Except.map_eq_ok_iff {ε α β : Type} {f : α → β} {x : Except ε α} {b : β} :
    x.map f = .ok b ↔ ∃ a, x = .ok a ∧ f a = b := by
  cases x <;> simp [Except.map]

section Unfold

variable (s : Schema) (fuel : Nat)

@[simp] theorem coerceInput_nonNull_null (inner : TypeRef) :
    coerceInput s fuel .null (.nonNull inner) = .error .nullForNonNull := by
  rw [coerceInput.eq_def]

theorem coerceInput_nonNull (v : Value) (present : v ≠ .null) (inner : TypeRef) :
    coerceInput s fuel v (.nonNull inner) = coerceInput s fuel v inner := by
  rw [coerceInput.eq_def]
  dsimp only
  split
  · contradiction
  · rfl

@[simp] theorem coerceInput_list_null (inner : TypeRef) :
    coerceInput s fuel .null (.list inner) = .ok .null := by
  rw [coerceInput.eq_def]

theorem coerceInput_list_items (items : List Value) (inner : TypeRef) :
    coerceInput s fuel (.list items) (.list inner) = (coerceItems s fuel inner 0 items).map .list := by
  rw [coerceInput.eq_def]
  dsimp only
  cases coerceItems s fuel inner 0 items <;> rfl

theorem coerceInput_list_single (v : Value) (present : v ≠ .null) (single : ∀ items, v ≠ .list items)
    (inner : TypeRef) :
    coerceInput s fuel v (.list inner) = (coerceInput s fuel v inner).map fun x => .list [x] := by
  rw [coerceInput.eq_def]
  dsimp only
  split
  · contradiction
  · rename_i items
    exact absurd rfl (single items)
  · cases coerceInput s fuel v inner <;> rfl

@[simp] theorem coerceInput_named_null (name : String) :
    coerceInput s fuel .null (.named name) = .ok .null := by
  rw [coerceInput.eq_def]

theorem coerceInput_int (v : Value) (present : v ≠ .null) :
    coerceInput s fuel v (.named "Int") = Coerce.asInt v := by
  rw [coerceInput.eq_def]
  dsimp only
  split
  · contradiction
  · rfl

theorem coerceInput_float (v : Value) (present : v ≠ .null) :
    coerceInput s fuel v (.named "Float") = Coerce.asFloat v := by
  rw [coerceInput.eq_def]
  dsimp only
  split
  · contradiction
  · rfl

theorem coerceInput_string (v : Value) (present : v ≠ .null) :
    coerceInput s fuel v (.named "String") = Coerce.asString v := by
  rw [coerceInput.eq_def]
  dsimp only
  split
  · contradiction
  · rfl

theorem coerceInput_boolean (v : Value) (present : v ≠ .null) :
    coerceInput s fuel v (.named "Boolean") = Coerce.asBoolean v := by
  rw [coerceInput.eq_def]
  dsimp only
  split
  · contradiction
  · rfl

theorem coerceInput_id (v : Value) (present : v ≠ .null) :
    coerceInput s fuel v (.named "ID") = Coerce.asId v := by
  rw [coerceInput.eq_def]
  dsimp only
  split
  · contradiction
  · rfl

/-- A name other than a built-in scalar is looked up, and the value is checked against the
kind of the type found. -/
theorem coerceInput_defined (v : Value) (present : v ≠ .null) {name : String}
    (defined : name ∉ builtinScalarNames) :
    coerceInput s fuel v (.named name) =
      match s.type? name with
      | none => .error (.unknownType name)
      | some t =>
        match t.kind with
        | .enum => Coerce.asEnum t v
        | .inputObject => coerceObject s fuel t v
        | .scalar => .ok (Coerce.passThrough v)
        | _ => .error (.notInputType name) := by
  rw [coerceInput.eq_def]
  dsimp only
  split
  · contradiction
  · split
    any_goals simp [builtinScalarNames] at defined
    rfl

theorem coerceInput_inputObject (v : Value) (present : v ≠ .null) {name : String}
    (defined : name ∉ builtinScalarNames) {t : Schema.NamedType} (found : s.type? name = some t)
    (kind : t.kind = .inputObject) :
    coerceInput s fuel v (.named name) = coerceObject s fuel t v := by
  rw [coerceInput_defined s fuel v present defined, found]
  simp only [kind]

end Unfold

/-! ### Lists -/

theorem coerceItems_ok_iff (s : Schema) (fuel : Nat) (inner : TypeRef) (index : Nat)
    (items ws : List Value) :
    coerceItems s fuel inner index items = .ok ws ↔
      List.Forall₂ (fun v w => coerceInput s fuel v inner = .ok w) items ws := by
  induction items generalizing index ws with
  | nil =>
    rw [coerceItems]
    cases ws <;> simp
  | cons v rest ih =>
    rw [coerceItems]
    cases first : coerceInput s fuel v inner with
    | error e => cases ws <;> simp [first]
    | ok x =>
      cases ws with
      | nil => cases coerceItems s fuel inner (index + 1) rest <;> simp
      | cons w ws =>
        rw [List.forall₂_cons, ← ih (index + 1) ws, first]
        cases coerceItems s fuel inner (index + 1) rest <;> simp

/-! ### Input objects -/

/-- The fields of an input object coerced in order from the entries of a map, with the fuel
left for their values: a field from its entry, else from its default, and left out when it has
neither and may be null. -/
inductive FieldsCoerced (s : Schema) (fuel : Nat) (entries : List (String × Value)) :
    List Schema.InputValue → List (String × Value) → Prop
  | nil : FieldsCoerced s fuel entries [] []
  | given {g : Schema.InputValue} {rest : List Schema.InputValue} {out : List (String × Value)}
      {raw x : Value} :
      Value.lookup entries g.name = some raw → coerceInput s fuel raw g.type = .ok x →
      FieldsCoerced s fuel entries rest out →
      FieldsCoerced s fuel entries (g :: rest) ((g.name, x) :: out)
  | default {g : Schema.InputValue} {rest : List Schema.InputValue} {out : List (String × Value)}
      {d x : Value} :
      Value.lookup entries g.name = none → g.default = some d → coerceInput s fuel d g.type = .ok x →
      FieldsCoerced s fuel entries rest out →
      FieldsCoerced s fuel entries (g :: rest) ((g.name, x) :: out)
  | absent {g : Schema.InputValue} {rest : List Schema.InputValue} {out : List (String × Value)} :
      Value.lookup entries g.name = none → g.default = none → g.type.isNonNull = false →
      FieldsCoerced s fuel entries rest out → FieldsCoerced s fuel entries (g :: rest) out

theorem coerceFields_nil (s : Schema) (fuel : Nat) (type : String) (entries : List (String × Value)) :
    coerceFields s fuel type entries [] = .ok [] := by
  rw [coerceFields]

theorem coerceFields_zero_ok_iff (s : Schema) (type : String) (entries : List (String × Value))
    (fields : List Schema.InputValue) (out : List (String × Value)) :
    coerceFields s 0 type entries fields = .ok out ↔ fields = [] ∧ out = [] := by
  cases fields with
  | nil => rw [coerceFields_nil]; simp [eq_comm]
  | cons g rest => rw [coerceFields]; simp

theorem FieldsCoerced.coerceFields_ok {s : Schema} {fuel : Nat} {type : String}
    {entries : List (String × Value)} {fields : List Schema.InputValue} {out : List (String × Value)}
    (coerced : FieldsCoerced s fuel entries fields out) :
    coerceFields s (fuel + 1) type entries fields = .ok out := by
  induction coerced with
  | nil => exact coerceFields_nil s _ type entries
  | given found value _ ih => rw [coerceFields]; simp only [found, value, ih]
  | default found defaulted value _ ih => rw [coerceFields]; simp only [found, defaulted, value, ih]
  | absent found undefaulted nullable _ ih =>
    rw [coerceFields]
    simp only [found, undefaulted, nullable, ih, Bool.false_eq_true, if_false]

theorem coerceFields_succ_ok_iff (s : Schema) (fuel : Nat) (type : String)
    (entries : List (String × Value)) (fields : List Schema.InputValue) (out : List (String × Value)) :
    coerceFields s (fuel + 1) type entries fields = .ok out ↔ FieldsCoerced s fuel entries fields out := by
  refine ⟨fun coerced => ?_, FieldsCoerced.coerceFields_ok⟩
  induction fields generalizing out with
  | nil =>
    rw [coerceFields_nil] at coerced
    cases coerced
    exact .nil
  | cons g rest ih =>
    rw [coerceFields] at coerced
    cases later : coerceFields s (fuel + 1) type entries rest with
    | error e =>
      exfalso
      revert coerced
      split <;> simp [later]
    | ok others =>
    have rest := ih others later
    cases found : Value.lookup entries g.name with
    | some raw =>
      cases value : coerceInput s fuel raw g.type with
      | error e => simp [found, value] at coerced
      | ok x =>
        simp only [found, value, later, Except.ok.injEq] at coerced
        subst coerced
        exact .given found value rest
    | none =>
      cases defaulted : g.default with
      | some d =>
        cases value : coerceInput s fuel d g.type with
        | error e => simp [found, defaulted, value] at coerced
        | ok x =>
          simp only [found, defaulted, value, later, Except.ok.injEq] at coerced
          subst coerced
          exact .default found defaulted value rest
      | none =>
        cases nullable : g.type.isNonNull with
        | true => simp [found, defaulted, nullable] at coerced
        | false =>
          simp only [found, defaulted, nullable, later, Bool.false_eq_true, if_false,
            Except.ok.injEq] at coerced
          subst coerced
          exact .absent found defaulted nullable rest

/-- The one-field rule of a oneOf input object: one entry, not null. -/
def OneEntry (entries : List (String × Value)) : Prop :=
  ∃ k x, entries = [(k, x)] ∧ x.isNull = false

/-- An input object takes a map whose keys are its fields, with one non-null entry when it is a
oneOf object, and coerces its fields from it. -/
theorem coerceObject_ok_iff (s : Schema) (fuel : Nat) (t : Schema.NamedType) (v w : Value) :
    coerceObject s fuel t v = .ok w ↔
      ∃ entries out, v = .map entries ∧ (∀ p ∈ entries, (t.inputField? p.1).isSome) ∧
        (t.oneOf = true → OneEntry entries) ∧
        coerceFields s fuel t.name entries t.inputFields = .ok out ∧ w = .map out := by
  constructor
  · intro coerced
    unfold coerceObject at coerced
    split at coerced
    · rename_i entries
      split at coerced
      · cases coerced
      · rename_i undeclared
        have declared : ∀ p ∈ entries, (t.inputField? p.1).isSome := by
          intro p mem
          have := List.find?_eq_none.mp undeclared p mem
          exact Option.ne_none_iff_isSome.mp (by simpa using this)
        dsimp only at coerced
        split at coerced
        · cases coerced
        · rename_i single
          have one : t.oneOf = true → OneEntry entries := by
            intro oneOf
            rw [if_pos oneOf] at single
            split at single
            · rename_i k x
              refine ⟨k, x, rfl, ?_⟩
              cases null : x.isNull with
              | true => simp [null] at single
              | false => rfl
            · cases single
          split at coerced
          · rename_i out fields
            cases coerced
            exact ⟨entries, out, rfl, declared, one, fields, rfl⟩
          · cases coerced
    · cases coerced
  · rintro ⟨entries, out, rfl, declared, single, fields, rfl⟩
    unfold coerceObject
    split
    · rename_i k _ found
      have undefined := List.find?_some found
      have defined := declared _ (List.mem_of_find?_eq_some found)
      simp_all
    · dsimp only
      split
      · rename_i e check
        cases oneOf : t.oneOf with
        | false => simp [oneOf] at check
        | true =>
          obtain ⟨k, x, rfl, present⟩ := single oneOf
          simp [oneOf, present] at check
      · rw [fields]

/-- A oneOf input object refuses a map of its fields with other than one entry, by their
count. -/
theorem coerceObject_oneOf_count (s : Schema) (fuel : Nat) {t : Schema.NamedType}
    (oneOf : t.oneOf = true) {entries : List (String × Value)}
    (declared : ∀ p ∈ entries, (t.inputField? p.1).isSome) (count : entries.length ≠ 1) :
    coerceObject s fuel t (.map entries) = .error (.oneOfCount t.name entries.length) := by
  unfold coerceObject
  split
  · rename_i k _ found
    have undefined := List.find?_some found
    have defined := declared _ (List.mem_of_find?_eq_some found)
    simp_all
  · dsimp only
    rw [if_pos oneOf]
    rcases entries with _ | ⟨p, _ | ⟨q, more⟩⟩
    · rfl
    · exact absurd rfl count
    · rfl

end GraphWeave
