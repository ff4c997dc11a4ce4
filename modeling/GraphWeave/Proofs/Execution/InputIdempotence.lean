import GraphWeave.Proofs.Execution.NumericInput
import GraphWeave.Execution.Arguments
import GraphWeave.Proofs.Definition.Acceptance
import GraphWeave.Proofs.Definition.Reordering
import Mathlib

/-!
Coercing a coerced value again gives it back.
-/

namespace GraphWeave

/-! ### Leaves -/

/-- A leaf coercion whose results from present values are present values that it takes back
unchanged. -/
structure Coerce.Settled (f : Value → Except InputError Value) : Prop where
  present {v w : Value} : v ≠ .null → f v = .ok w → w ≠ .null
  again {v w : Value} : f v = .ok w → f w = .ok w

namespace Coerce

theorem Settled.of_shape {f : Value → Except InputError Value} (P : Value → Prop)
    (output : ∀ v w, f v = .ok w → P w) (present : ∀ w, P w → w ≠ .null) (fixes : ∀ w, P w → f w = .ok w) :
    Settled f where
  present _ coerced := present _ (output _ _ coerced)
  again coerced := fixes _ (output _ _ coerced)

theorem asInt_settled : Settled asInt := by
  refine .of_shape (fun w => ∃ n, w = .int .word n ∧ -Int.pow 2 31 ≤ n ∧ n < Int.pow 2 31)
    (fun v w coerced => ?_) ?_ ?_
  · obtain ⟨n, -, low, high, rfl⟩ := (asInt_ok_iff v w).mp coerced
    exact ⟨n, rfl, low, high⟩
  · rintro _ ⟨n, rfl, -⟩
    simp
  · rintro _ ⟨n, rfl, low, high⟩
    exact (asInt_ok_iff _ _).mpr ⟨n, rfl, low, high, rfl⟩

theorem asFloat_settled : Settled asFloat := by
  refine .of_shape (fun w => ∃ x, w = .double x) (fun v w coerced => ?_) ?_ ?_
  · unfold asFloat at coerced
    split at coerced
    case h_6 => cases coerced
    all_goals exact ⟨_, (Except.ok.inj coerced).symm⟩
  · rintro _ ⟨x, rfl⟩
    simp
  · rintro _ ⟨x, rfl⟩
    rfl

theorem asString_settled : Settled asString := by
  refine .of_shape (fun w => ∃ t, w = .str t) (fun v w coerced => ?_) ?_ ?_
  · unfold asString at coerced
    split at coerced
    · exact ⟨_, (Except.ok.inj coerced).symm⟩
    · cases coerced
  · rintro _ ⟨t, rfl⟩
    simp
  · rintro _ ⟨t, rfl⟩
    rfl

theorem asBoolean_settled : Settled asBoolean := by
  refine .of_shape (fun w => ∃ b, w = .bool b) (fun v w coerced => ?_) ?_ ?_
  · unfold asBoolean at coerced
    split at coerced
    · exact ⟨_, (Except.ok.inj coerced).symm⟩
    · cases coerced
  · rintro _ ⟨b, rfl⟩
    simp
  · rintro _ ⟨b, rfl⟩
    rfl

theorem asId_settled : Settled asId := by
  refine .of_shape (fun w => ∃ t, w = .str t) (fun v w coerced => ?_) ?_ ?_
  · unfold asId at coerced
    split at coerced
    case h_5 => exact ⟨_, (ite_eq_ok_iff.mp coerced).2⟩
    case h_6 => cases coerced
    all_goals exact ⟨_, (Except.ok.inj coerced).symm⟩
  · rintro _ ⟨t, rfl⟩
    simp
  · rintro _ ⟨t, rfl⟩
    rfl

/-- An enum gives the name of one of its values, as a string. -/
theorem asEnum_settled (t : Schema.NamedType) : Settled (asEnum t) := by
  refine .of_shape (fun w => ∃ name, t.hasEnumValue name = true ∧ w = .str name)
    (fun v w coerced => ?_) ?_ ?_
  · unfold asEnum at coerced
    split at coerced
    all_goals dsimp only at coerced
    · rename_i name
      exact ⟨name, ite_eq_ok_iff.mp coerced⟩
    · rename_i name
      exact ⟨name, ite_eq_ok_iff.mp coerced⟩
    · cases coerced
  · rintro _ ⟨name, -, rfl⟩
    simp
  · rintro _ ⟨name, known, rfl⟩
    simp only [asEnum, known, if_true]

/-- A custom scalar keeps what it is given, an enum literal as its name. -/
theorem passThrough_settled : Settled fun v => .ok (passThrough v) := by
  have kept : ∀ v, (∀ name, v ≠ .enumLiteral name) → passThrough v = v := by
    intro v notLiteral
    unfold passThrough
    split
    · rename_i name
      exact absurd rfl (notLiteral name)
    · rfl
  constructor
  · intro v w present coerced
    cases coerced
    by_cases literal : ∃ name, v = .enumLiteral name
    · obtain ⟨name, rfl⟩ := literal
      simp [passThrough]
    · simp only [not_exists] at literal
      rwa [kept v literal]
  · intro v w coerced
    cases coerced
    by_cases literal : ∃ name, v = .enumLiteral name
    · obtain ⟨name, rfl⟩ := literal
      rfl
    · simp only [not_exists] at literal
      rw [kept v literal, kept v literal]

end Coerce

/-! ### Nesting -/

theorem nesting_le_entriesNesting {p : String × Value} {entries : List (String × Value)}
    (mem : p ∈ entries) : p.2.nesting ≤ entriesNesting entries := by
  induction entries with
  | nil => cases mem
  | cons q rest ih =>
    obtain ⟨k, y⟩ := q
    rw [entriesNesting]
    rcases List.mem_cons.mp mem with rfl | later
    · exact le_max_left _ _
    · exact (ih later).trans (le_max_right _ _)

/-! ### Entries -/

namespace Value

theorem lookup_cons (k k' : String) (x : Value) (rest : List (String × Value)) :
    lookup ((k, x) :: rest) k' = if k = k' then some x else lookup rest k' := by
  by_cases same : k = k' <;> simp [lookup, same]

theorem lookup_eq_none_of_not_mem {entries : List (String × Value)} {k : String}
    (absent : k ∉ entries.map (·.1)) : lookup entries k = none := by
  rw [lookup, Option.map_eq_none_iff, List.find?_eq_none]
  intro e mem same
  exact absent (List.mem_map.mpr ⟨e, mem, beq_iff_eq.mp same⟩)

theorem lookup_map_replace_of_ne (entries : List (String × Value)) {k k' : String} (x : Value)
    (differs : k ≠ k') :
    lookup (entries.map fun e => if e.1 == k then (k, x) else e) k' = lookup entries k' := by
  induction entries with
  | nil => rfl
  | cons e rest ih =>
    obtain ⟨k₀, y⟩ := e
    by_cases replaced : k₀ = k
    · subst replaced
      simp only [List.map_cons, beq_self_eq_true, if_true, lookup_cons, if_neg differs]
      exact ih
    · simp only [List.map_cons, beq_iff_eq, replaced, if_false, lookup_cons]
      simp only [beq_iff_eq] at ih
      rw [ih]

theorem lookup_map_replace_self {entries : List (String × Value)} {k : String} (x : Value)
    (present : entries.any (·.1 == k) = true) :
    lookup (entries.map fun e => if e.1 == k then (k, x) else e) k = some x := by
  induction entries with
  | nil => cases present
  | cons e rest ih =>
    obtain ⟨k₀, y⟩ := e
    by_cases replaced : k₀ = k
    · subst replaced
      simp only [List.map_cons, beq_self_eq_true, if_true, lookup_cons]
    · simp only [List.any_cons, beq_eq_false_iff_ne.mpr replaced, Bool.false_or] at present
      simp only [List.map_cons, beq_iff_eq, replaced, if_false, lookup_cons]
      simp only [beq_iff_eq] at ih
      exact ih present

@[simp] theorem lookup_assign (entries : List (String × Value)) (k k' : String) (x : Value) :
    lookup (assign entries k x) k' = if k = k' then some x else lookup entries k' := by
  unfold assign
  split
  · rename_i present
    by_cases same : k = k'
    · subst same
      rw [if_pos rfl, lookup_map_replace_self x present]
    · rw [if_neg same, lookup_map_replace_of_ne entries x same]
  · rename_i absent
    have missing : entries.find? (·.1 == k) = none := by
      rw [List.find?_eq_none]
      intro e mem same
      exact absent (List.any_eq_true.mpr ⟨e, mem, same⟩)
    by_cases same : k = k'
    · subst same
      simp [lookup, List.find?_append, missing]
    · simp [lookup, List.find?_append, same]

theorem isNull_eq_false_iff (v : Value) : v.isNull = false ↔ v ≠ .null := by
  cases v <;> simp [isNull]

end Value

theorem Schema.NamedType.inputField?_isSome_iff (t : Schema.NamedType) (k : String) :
    (t.inputField? k).isSome ↔ k ∈ t.inputFields.map (·.name) := by
  simp [Schema.NamedType.inputField?, List.find?_isSome]

/-- The schemas on which coercion is idempotent: the fields of each input object have distinct
names, and no field of a oneOf object has a default. -/
structure Schema.PlainInputs (s : Schema) : Prop where
  distinct {name : String} {t : Schema.NamedType} :
    s.type? name = some t → (t.inputFields.map (·.name)).Nodup
  undefaulted {name : String} {t : Schema.NamedType} :
    s.type? name = some t → t.oneOf = true → ∀ g ∈ t.inputFields, g.default = none

/-! ### One step of coercion -/

section Step

variable {s : Schema} {fuel : Nat}

/-- What coercing a present value to a named type does: a settled leaf coercion, the same at
every fuel, or an input object. -/
theorem coerceInput_named_cases {v w : Value} (present : v ≠ .null) {name : String}
    (coerced : coerceInput s fuel v (.named name) = .ok w) :
    (∃ f, Coerce.Settled f ∧ f v = .ok w ∧
        ∀ fuel' u, u ≠ .null → coerceInput s fuel' u (.named name) = f u) ∨
      ∃ t, s.type? name = some t ∧ coerceObject s fuel t v = .ok w ∧
        ∀ fuel' u, u ≠ .null → coerceInput s fuel' u (.named name) = coerceObject s fuel' t u := by
  by_cases builtin : name ∈ builtinScalarNames
  · simp only [builtinScalarNames, List.mem_cons, List.not_mem_nil, or_false] at builtin
    rcases builtin with rfl | rfl | rfl | rfl | rfl
    · rw [coerceInput_int _ _ _ present] at coerced
      exact .inl ⟨_, Coerce.asInt_settled, coerced, coerceInput_int s⟩
    · rw [coerceInput_float _ _ _ present] at coerced
      exact .inl ⟨_, Coerce.asFloat_settled, coerced, coerceInput_float s⟩
    · rw [coerceInput_string _ _ _ present] at coerced
      exact .inl ⟨_, Coerce.asString_settled, coerced, coerceInput_string s⟩
    · rw [coerceInput_boolean _ _ _ present] at coerced
      exact .inl ⟨_, Coerce.asBoolean_settled, coerced, coerceInput_boolean s⟩
    · rw [coerceInput_id _ _ _ present] at coerced
      exact .inl ⟨_, Coerce.asId_settled, coerced, coerceInput_id s⟩
  · have dispatch := fun fuel' u (present' : u ≠ .null) => coerceInput_defined s fuel' u present' builtin
    rw [coerceInput_defined _ _ _ present builtin] at coerced
    cases found : s.type? name with
    | none => simp [found] at coerced
    | some t =>
      simp only [found] at coerced dispatch
      cases kind : t.kind with
      | enum =>
        simp only [kind] at coerced dispatch
        exact .inl ⟨_, Coerce.asEnum_settled t, coerced, dispatch⟩
      | inputObject =>
        simp only [kind] at coerced dispatch
        exact .inr ⟨t, rfl, coerced, dispatch⟩
      | scalar =>
        simp only [kind] at coerced dispatch
        exact .inl ⟨_, Coerce.passThrough_settled, coerced, dispatch⟩
      | object => simp [kind] at coerced
      | interface => simp [kind] at coerced
      | union => simp [kind] at coerced

/-- A present value never coerces to null. -/
theorem coerceInput_ne_null {t : TypeRef} {v w : Value} (present : v ≠ .null)
    (coerced : coerceInput s fuel v t = .ok w) : w ≠ .null := by
  induction t generalizing v w with
  | nonNull inner ih =>
    rw [coerceInput_nonNull s fuel v present] at coerced
    exact ih present coerced
  | list inner ih =>
    by_cases listed : ∃ items, v = .list items
    · obtain ⟨items, rfl⟩ := listed
      rw [coerceInput_list_items] at coerced
      obtain ⟨ws, -, rfl⟩ := Except.map_eq_ok_iff.mp coerced
      simp
    · simp only [not_exists] at listed
      rw [coerceInput_list_single s fuel v present listed] at coerced
      obtain ⟨x, -, rfl⟩ := Except.map_eq_ok_iff.mp coerced
      simp
  | named name =>
    rcases coerceInput_named_cases present coerced with ⟨f, settled, leaf, -⟩ | ⟨t, -, object, -⟩
    · exact settled.present present leaf
    · obtain ⟨entries, out, -, -, -, -, rfl⟩ := (coerceObject_ok_iff s fuel t v w).mp object
      simp

theorem coerceItems_again {inner : TypeRef} {items ws : List Value}
    (coerced : List.Forall₂ (fun v w => coerceInput s fuel v inner = .ok w) items ws) {fuel' : Nat}
    (again : ∀ v w, coerceInput s fuel v inner = .ok w → w.nesting < fuel' →
      coerceInput s fuel' w inner = .ok w)
    (bound : itemsNesting ws < fuel') :
    List.Forall₂ (fun w w' => coerceInput s fuel' w inner = .ok w') ws ws := by
  induction coerced with
  | nil => exact .nil
  | @cons v w items ws first _ ih =>
    rw [itemsNesting] at bound
    exact .cons (again v w first (by omega)) (ih (by omega))

/-! ### Input objects -/

theorem FieldsCoerced.keys_sublist {entries : List (String × Value)} {fields : List Schema.InputValue}
    {out : List (String × Value)} (coerced : FieldsCoerced s fuel entries fields out) :
    (out.map (·.1)).Sublist (fields.map (·.name)) := by
  induction coerced with
  | nil => exact .slnil
  | given _ _ _ ih => exact ih.cons_cons _
  | default _ _ _ _ ih => exact ih.cons_cons _
  | absent _ _ _ _ ih => exact ih.cons _

theorem FieldsCoerced.again_read {fuel' : Nat} {g : Schema.InputValue} {rest : List Schema.InputValue}
    {out final : List (String × Value)} {x : Value} (fresh : g.name ∉ rest.map (·.name))
    (agree : ∀ g' ∈ g :: rest, Value.lookup final g'.name = Value.lookup ((g.name, x) :: out) g'.name)
    (value : coerceInput s fuel' x g.type = .ok x)
    (later : (∀ g' ∈ rest, Value.lookup final g'.name = Value.lookup out g'.name) →
      FieldsCoerced s fuel' final rest out) :
    FieldsCoerced s fuel' final (g :: rest) ((g.name, x) :: out) := by
  have found : Value.lookup final g.name = some x := by
    rw [agree g List.mem_cons_self, Value.lookup_cons, if_pos rfl]
  refine .given found value (later fun g' mem => ?_)
  have differs : g.name ≠ g'.name := fun same => fresh (same ▸ List.mem_map_of_mem mem)
  rw [agree g' (List.mem_cons_of_mem _ mem), Value.lookup_cons, if_neg differs]

/-- Coercing the fields again from what they coerced to: each field is found, and coerces to
itself. The entries read may be any that agree with the result on the fields' names. -/
theorem FieldsCoerced.again {fuel' : Nat} {entries : List (String × Value)}
    {fields : List Schema.InputValue} {out : List (String × Value)}
    (coerced : FieldsCoerced s fuel entries fields out) (distinct : (fields.map (·.name)).Nodup)
    (recoerce : ∀ g ∈ fields, ∀ raw x, coerceInput s fuel raw g.type = .ok x → x.nesting < fuel' →
      coerceInput s fuel' x g.type = .ok x)
    (bound : ∀ p ∈ out, p.2.nesting < fuel') {final : List (String × Value)}
    (agree : ∀ g ∈ fields, Value.lookup final g.name = Value.lookup out g.name) :
    FieldsCoerced s fuel' final fields out := by
  induction coerced with
  | nil => exact .nil
  | @given g rest out raw x _ value later ih =>
    simp only [List.map_cons, List.nodup_cons] at distinct
    exact again_read distinct.1 agree (recoerce g List.mem_cons_self raw x value (bound _ List.mem_cons_self))
      (ih distinct.2 (fun g' mem => recoerce g' (List.mem_cons_of_mem _ mem))
        fun p mem => bound p (List.mem_cons_of_mem _ mem))
  | @default g rest out d x _ _ value later ih =>
    simp only [List.map_cons, List.nodup_cons] at distinct
    exact again_read distinct.1 agree (recoerce g List.mem_cons_self d x value (bound _ List.mem_cons_self))
      (ih distinct.2 (fun g' mem => recoerce g' (List.mem_cons_of_mem _ mem))
        fun p mem => bound p (List.mem_cons_of_mem _ mem))
  | @absent g rest out _ undefaulted nullable later ih =>
    simp only [List.map_cons, List.nodup_cons] at distinct
    have missing : Value.lookup final g.name = none := by
      rw [agree g List.mem_cons_self]
      exact Value.lookup_eq_none_of_not_mem fun mem => distinct.1 (later.keys_sublist.subset mem)
    exact .absent missing undefaulted nullable
      (ih distinct.2 (fun g' mem => recoerce g' (List.mem_cons_of_mem _ mem)) bound
        fun g' mem => agree g' (List.mem_cons_of_mem _ mem))

/-- Without defaults, a map of one present entry coerces to that entry alone when it names a
field, and to nothing otherwise. -/
theorem FieldsCoerced.of_single {k : String} {raw : Value} {fields : List Schema.InputValue}
    {out : List (String × Value)} (coerced : FieldsCoerced s fuel [(k, raw)] fields out)
    (distinct : (fields.map (·.name)).Nodup) (undefaulted : ∀ g ∈ fields, g.default = none)
    (present : raw ≠ .null) :
    (k ∈ fields.map (·.name) → ∃ x, out = [(k, x)] ∧ x ≠ .null) ∧
      (k ∉ fields.map (·.name) → out = []) := by
  have single : ∀ name, Value.lookup [(k, raw)] name = if k = name then some raw else none := by
    intro name
    rw [Value.lookup_cons]
    rfl
  induction coerced with
  | nil => exact ⟨fun mem => absurd mem List.not_mem_nil, fun _ => rfl⟩
  | @given g rest out raw' x found value later ih =>
    simp only [List.map_cons, List.nodup_cons] at distinct
    rw [single] at found
    by_cases same : k = g.name
    · rw [if_pos same, Option.some.injEq] at found
      subst found same
      have rest_empty := (ih distinct.2 fun g' mem => undefaulted g' (List.mem_cons_of_mem _ mem)).2 distinct.1
      refine ⟨fun _ => ⟨x, by rw [rest_empty], coerceInput_ne_null present value⟩, fun absent => ?_⟩
      exact absurd (List.mem_cons_self) absent
    · rw [if_neg same] at found
      cases found
  | @default g rest out d x _ defaulted _ _ _ =>
    rw [undefaulted g List.mem_cons_self] at defaulted
    cases defaulted
  | @absent g rest out found _ _ later ih =>
    simp only [List.map_cons, List.nodup_cons] at distinct
    rw [single] at found
    have differs : k ≠ g.name := by
      intro same
      rw [if_pos same] at found
      cases found
    have rest_cases := ih distinct.2 fun g' mem => undefaulted g' (List.mem_cons_of_mem _ mem)
    simp only [List.map_cons, List.mem_cons, differs, false_or]
    exact rest_cases

/-- Coercing an input object's result again gives it back, when its fields do: the result is
a map of every field coerced, and a oneOf object without defaults keeps its one entry. -/
theorem coerceObject_again {t : Schema.NamedType} (distinct : (t.inputFields.map (·.name)).Nodup)
    (undefaulted : t.oneOf = true → ∀ g ∈ t.inputFields, g.default = none) {v w : Value}
    (coerced : coerceObject s fuel t v = .ok w)
    (recoerce : ∀ m < fuel, ∀ g ∈ t.inputFields, ∀ raw x, coerceInput s m raw g.type = .ok x →
      ∀ fuel', x.nesting < fuel' → coerceInput s fuel' x g.type = .ok x)
    {fuel' : Nat} (bound : w.nesting < fuel') : coerceObject s fuel' t w = .ok w := by
  obtain ⟨entries, out, rfl, declared, oneEntry, fields, rfl⟩ := (coerceObject_ok_iff s fuel t v w).mp coerced
  have named : t.oneOf = true → ∃ k raw, entries = [(k, raw)] ∧ raw ≠ .null ∧
      k ∈ t.inputFields.map (·.name) := by
    intro oneOf
    obtain ⟨k, raw, rfl, notNull⟩ := oneEntry oneOf
    refine ⟨k, raw, rfl, (Value.isNull_eq_false_iff raw).mp notNull, ?_⟩
    exact (t.inputField?_isSome_iff k).mp (declared (k, raw) List.mem_cons_self)
  cases fuel with
  | zero =>
    obtain ⟨none, rfl⟩ := (coerceFields_zero_ok_iff s t.name entries t.inputFields out).mp fields
    refine (coerceObject_ok_iff s fuel' t (.map []) (.map [])).mpr
      ⟨[], [], rfl, fun p mem => absurd mem List.not_mem_nil, fun oneOf => ?_, by rw [none, coerceFields_nil], rfl⟩
    obtain ⟨k, raw, -, -, mem⟩ := named oneOf
    rw [none] at mem
    exact absurd mem List.not_mem_nil
  | succ f =>
    rw [coerceFields_succ_ok_iff] at fields
    rw [Value.nesting] at bound
    obtain ⟨f', rfl⟩ : ∃ f', fuel' = f' + 1 := ⟨fuel' - 1, by omega⟩
    refine (coerceObject_ok_iff s (f' + 1) t (.map out) (.map out)).mpr ⟨out, out, rfl, ?_, ?_, ?_, rfl⟩
    · intro p mem
      exact (t.inputField?_isSome_iff p.1).mpr (fields.keys_sublist.subset (List.mem_map.mpr ⟨p, mem, rfl⟩))
    · intro oneOf
      obtain ⟨k, raw, rfl, present, mem⟩ := named oneOf
      obtain ⟨x, rfl, notNull⟩ := (fields.of_single distinct (undefaulted oneOf) present).1 mem
      exact ⟨k, x, rfl, (Value.isNull_eq_false_iff x).mpr notNull⟩
    · rw [coerceFields_succ_ok_iff]
      refine fields.again distinct (fun g mem raw x value small => ?_) (fun p mem => ?_) fun _ _ => rfl
      · exact recoerce f (Nat.lt_succ_self f) g mem raw x value f' small
      · have := nesting_le_entriesNesting mem
        omega

/-! ### Coercing twice -/

/-- On a schema of plain inputs, coercing a coerced value again, with fuel for its nesting,
gives it back. The induction is on the fuel, which only input objects spend, and within it on
the type. -/
theorem coerceInput_again (plain : s.PlainInputs) (fuel : Nat) :
    ∀ v t w, coerceInput s fuel v t = .ok w → ∀ fuel', w.nesting < fuel' →
      coerceInput s fuel' w t = .ok w := by
  induction fuel using Nat.strong_induction_on with
  | _ fuel outer =>
  intro v t
  induction t generalizing v with
  | nonNull inner ih =>
    intro w coerced fuel' bound
    by_cases null : v = .null
    · subst null
      rw [coerceInput_nonNull_null] at coerced
      cases coerced
    · rw [coerceInput_nonNull s fuel v null] at coerced
      rw [coerceInput_nonNull s fuel' w (coerceInput_ne_null null coerced)]
      exact ih v w coerced fuel' bound
  | list inner ih =>
    intro w coerced fuel' bound
    by_cases null : v = .null
    · subst null
      rw [coerceInput_list_null] at coerced
      cases coerced
      exact coerceInput_list_null s fuel' inner
    by_cases listed : ∃ items, v = .list items
    · obtain ⟨items, rfl⟩ := listed
      rw [coerceInput_list_items] at coerced
      obtain ⟨ws, items_ok, rfl⟩ := Except.map_eq_ok_iff.mp coerced
      rw [Value.nesting] at bound
      have again := coerceItems_again ((coerceItems_ok_iff s fuel inner 0 items ws).mp items_ok)
        (fun v w value small => ih v w value fuel' small) (by omega)
      rw [coerceInput_list_items, (coerceItems_ok_iff s fuel' inner 0 ws ws).mpr again]
      rfl
    · simp only [not_exists] at listed
      rw [coerceInput_list_single s fuel v null listed] at coerced
      obtain ⟨x, value, rfl⟩ := Except.map_eq_ok_iff.mp coerced
      simp only [Value.nesting, itemsNesting] at bound
      have again : List.Forall₂ (fun w w' => coerceInput s fuel' w inner = .ok w') [x] [x] :=
        .cons (ih v x value fuel' (by omega)) .nil
      rw [coerceInput_list_items, (coerceItems_ok_iff s fuel' inner 0 [x] [x]).mpr again]
      rfl
  | named name =>
    intro w coerced fuel' bound
    by_cases null : v = .null
    · subst null
      rw [coerceInput_named_null] at coerced
      cases coerced
      exact coerceInput_named_null s fuel' name
    have present := coerceInput_ne_null null coerced
    rcases coerceInput_named_cases null coerced with
      ⟨f, settled, leaf, dispatch⟩ | ⟨t, found, object, dispatch⟩
    · rw [dispatch fuel' w present]
      exact settled.again leaf
    · rw [dispatch fuel' w present]
      exact coerceObject_again (plain.distinct found) (plain.undefaulted found) object
        (fun m smaller g _ raw x value => outer m smaller raw g.type x value) bound

theorem Schema.coerce_again (plain : s.PlainInputs) {v w : Value} {t : TypeRef}
    (coerced : s.coerce v t = .ok w) : s.coerce w t = .ok w := by
  unfold Schema.coerce at coerced ⊢
  exact coerceInput_again plain _ v t w coerced _ (by omega)

end Step

/-! ### Variables and arguments -/

/-- The value a variable takes: the one given, else its default. -/
def VariableDefinition.value? (d : VariableDefinition) (given : List (String × Value)) :
    Option Value :=
  (Value.lookup given d.name).or (d.default.map (·.toValue []))

namespace Schema

variable {s : Schema} {given : List (String × Value)}

/-- One variable's step: left out when it takes no value, else its value coerced to its type
is assigned. -/
theorem coerceVariables_go_cons {acc : List (String × Value)} {d : VariableDefinition}
    {rest : List VariableDefinition} {vars : List (String × Value)}
    (run : coerceVariables.go s given acc (d :: rest) = .ok vars) :
    (d.value? given = none ∧ coerceVariables.go s given acc rest = .ok vars) ∨
      ∃ v x, d.value? given = some v ∧ s.coerce v d.type = .ok x ∧
        coerceVariables.go s given (Value.assign acc d.name x) rest = .ok vars := by
  rw [coerceVariables.go] at run
  cases found : Value.lookup given d.name with
  | some v =>
    simp only [found] at run
    split at run
    · cases run
    · cases coerced : s.coerce v d.type with
      | error e => simp [coerced] at run
      | ok x =>
        simp only [coerced] at run
        exact .inr ⟨v, x, by simp [VariableDefinition.value?, found], coerced, run⟩
  | none =>
    cases defaulted : d.default with
    | some lit =>
      simp only [found, defaulted] at run
      split at run
      · cases run
      · cases coerced : s.coerce (lit.toValue []) d.type with
        | error e => simp [coerced] at run
        | ok x =>
          simp only [coerced] at run
          exact .inr ⟨_, x, by simp [VariableDefinition.value?, found, defaulted], coerced, run⟩
    | none =>
      cases nullable : d.type.isNonNull with
      | true => simp [found, defaulted, nullable] at run
      | false =>
        simp only [found, defaulted, nullable, Bool.false_eq_true, if_false] at run
        exact .inl ⟨by simp [VariableDefinition.value?, found, defaulted], run⟩

theorem coerceVariables_go_other {acc vars : List (String × Value)} {defs : List VariableDefinition}
    (run : coerceVariables.go s given acc defs = .ok vars) {k : String}
    (other : k ∉ defs.map (·.name)) : Value.lookup vars k = Value.lookup acc k := by
  induction defs generalizing acc with
  | nil =>
    rw [coerceVariables.go] at run
    cases run
    rfl
  | cons d rest ih =>
    simp only [List.map_cons, List.mem_cons, not_or] at other
    rcases coerceVariables_go_cons run with ⟨-, skipped⟩ | ⟨v, x, -, -, assigned⟩
    · exact ih skipped other.2
    · rw [ih assigned other.2, Value.lookup_assign, if_neg (Ne.symm other.1)]

/-- With distinct names, each variable that takes a value holds it coerced to its type. -/
theorem coerceVariables_go_holds {acc vars : List (String × Value)} {defs : List VariableDefinition}
    (run : coerceVariables.go s given acc defs = .ok vars) (distinct : (defs.map (·.name)).Nodup)
    {d : VariableDefinition} (mem : d ∈ defs) {v : Value} (value : d.value? given = some v) :
    ∃ x, s.coerce v d.type = .ok x ∧ Value.lookup vars d.name = some x := by
  induction defs generalizing acc with
  | nil => cases mem
  | cons d' rest ih =>
    simp only [List.map_cons, List.nodup_cons] at distinct
    rcases coerceVariables_go_cons run with ⟨none, skipped⟩ | ⟨v', x, value', coerced, assigned⟩
    · rcases List.mem_cons.mp mem with rfl | later
      · rw [value] at none
        cases none
      · exact ih skipped distinct.2 later
    · rcases List.mem_cons.mp mem with rfl | later
      · rw [value, Option.some.injEq] at value'
        subst value'
        refine ⟨x, coerced, ?_⟩
        rw [coerceVariables_go_other assigned distinct.1, Value.lookup_assign, if_pos rfl]
      · exact ih assigned distinct.2 later

theorem coerceArguments_given_variable (plain : s.PlainInputs) {vars : List (String × Value)}
    {field : Field} {acc : List (String × Value)} {name vname : String}
    {rest : List (String × Literal)} {arg : InputValue} {v x : Value}
    (declared : field.argument? name = some arg) (coerced : s.coerce v arg.type = .ok x)
    (held : Value.lookup vars vname = some x) :
    coerceArguments.given s vars field acc ((name, .variable vname) :: rest) =
      coerceArguments.given s vars field (Value.assign acc name x) rest := by
  rw [coerceArguments.given]
  simp only [declared, held, Option.isNone_some, Bool.false_eq_true, if_false, Literal.toValue,
    Option.getD_some, coerce_again plain coerced]

end Schema

/-! ### Built schemas -/

namespace SchemaBuilder

variable {σ : Type} {b : SchemaBuilder σ} {es : ExecutableSchema σ}

open Schema

/-- A build that succeeds had fresh names and definitions whose members raise nothing, and its
schema reads as the declared one. -/
theorem finish_ok_lookup (accepted : b.finish = .ok es) :
    b.FreshNames ∧ (∀ d ∈ b.definitions, d.added.1 = []) ∧ es.raw.lookup = b.declared.lookup := by
  rw [finish_eq] at accepted
  split at accepted
  · rename_i empty
    cases accepted
    have noViolations : b.checkedState.violations.toList = [] := by simpa using empty
    have fresh : b.FreshNames :=
      Classical.byContradiction fun stale => checkedState_of_stale stale noViolations
    refine ⟨fresh, fun d mem => ?_, ?_⟩
    · rw [checkedState_of_fresh fresh] at noViolations
      simp only [List.append_eq_nil_iff, List.flatMap_eq_nil_iff] at noViolations
      exact noViolations.1.1.1 d mem
    · have shaped : b.checkedState.raw.shape = b.declared.shape := by
        rw [checkedState_raw]
        exact (implementedState_of_fresh fresh).2
      have lookups := congrArg Schema.lookup shaped
      rw [lookup_shape, lookup_shape] at lookups
      exact lookups
  · cases accepted

theorem added_inputObject_oneOf (io : InputObjectDef) :
    (Definition.inputObject io : Definition σ).added.2.oneOf = io.oneOf := by
  simp only [Definition.added, inputFieldsAdded_oneOf]

/-- Each input object definition of a build that succeeds is a type of its schema, with its
name, fields and oneOf flag. -/
theorem inputObject_of_finish (accepted : b.finish = .ok es) {io : InputObjectDef}
    (mem : .inputObject io ∈ b.definitions) :
    ∃ t, es.raw.type? io.name = some t ∧ t.kind = .inputObject ∧ t.name = io.name ∧
      t.inputFields = io.fields ∧ t.oneOf = io.oneOf := by
  obtain ⟨fresh, clean, lookups⟩ := finish_ok_lookup accepted
  have declared : b.declared.type? io.name = some (Definition.inputObject io).added.2 :=
    type?_declared_of_mem fresh mem
  have same := congrFun lookups io.name
  rw [Schema.lookup, Schema.lookup, declared, Option.map_some] at same
  obtain ⟨t, found, shaped⟩ := Option.map_eq_some_iff.mp same
  obtain ⟨kind, -, -, fields⟩ := Definition.added_members (clean _ mem)
  refine ⟨t, found, ?_, ?_, ?_, ?_⟩
  · rw [← NamedType.shape_kind, shaped, NamedType.shape_kind, kind]
    rfl
  · rw [← NamedType.shape_name, shaped, NamedType.shape_name, Definition.added_name]
    rfl
  · rw [← NamedType.shape_inputFields, shaped, NamedType.shape_inputFields, fields]
    rfl
  · rw [← NamedType.shape_oneOf, shaped, NamedType.shape_oneOf, added_inputObject_oneOf]

theorem declared_inputFields (clean : ∀ d ∈ b.definitions, d.added.1 = []) {name : String}
    {t : NamedType} (found : b.declared.type? name = some t) :
    t.inputFields = [] ∨
      ∃ io, .inputObject io ∈ b.definitions ∧ t.inputFields = io.fields ∧ t.oneOf = io.oneOf := by
  rcases type?_declared_eq_some found with ⟨builtin, -⟩ | ⟨d, mem, -, rfl⟩
  · have scalars : ∀ t ∈ builtinTypes, t.inputFields = [] := by simp [builtinTypes]
    exact .inl (scalars t builtin)
  · have members := (Definition.added_members (clean d mem)).2.2.2
    cases d with
    | inputObject io =>
      exact .inr ⟨io, mem, members, added_inputObject_oneOf io⟩
    | _ => exact .inl members

/-- A built schema has plain inputs when no oneOf input object declares a default: the build
refuses input fields of one name. -/
theorem plainInputs_of_finish (accepted : b.finish = .ok es)
    (undefaulted : ∀ io, .inputObject io ∈ b.definitions → io.oneOf = true →
      ∀ g ∈ io.fields, g.default = none) :
    es.raw.PlainInputs := by
  obtain ⟨-, clean, lookups⟩ := finish_ok_lookup accepted
  have declaredType : ∀ {name t}, es.raw.type? name = some t →
      ∃ t', b.declared.type? name = some t' ∧ t.inputFields = t'.inputFields ∧ t.oneOf = t'.oneOf := by
    intro name t found
    have same := congrFun lookups name
    simp only [Schema.lookup, found, Option.map_some] at same
    obtain ⟨t', found', shaped⟩ := Option.map_eq_some_iff.mp same.symm
    refine ⟨t', found', ?_, ?_⟩
    · rw [← NamedType.shape_inputFields t, ← shaped, NamedType.shape_inputFields]
    · rw [← NamedType.shape_oneOf t, ← shaped, NamedType.shape_oneOf]
  constructor
  · intro name t found
    obtain ⟨t', found', fields, -⟩ := declaredType found
    rw [fields]
    rcases declared_inputFields clean found' with none | ⟨io, mem, fields', -⟩
    · rw [none]
      exact List.nodup_nil
    · rw [fields']
      exact ((Definition.added_clean_iff _).mp (clean _ mem)).2.1
  · intro name t found oneOf g mem
    obtain ⟨t', found', fields, sameOneOf⟩ := declaredType found
    rw [fields] at mem
    rw [sameOneOf] at oneOf
    rcases declared_inputFields clean found' with none | ⟨io, defined, fields', oneOf'⟩
    · rw [none] at mem
      cases mem
    · rw [fields'] at mem
      rw [oneOf'] at oneOf
      exact undefaulted io defined oneOf g mem

end SchemaBuilder

/-! ### Coercing arguments twice -/

/-- On a built schema in which no oneOf input object declares a default, coercing a coerced
value again gives it back; so an argument written as a variable of its own type, coerced once
with the variables and again with the arguments, takes the variable's value coerced once. -/
theorem coercion_idempotent {σ : Type} {b : SchemaBuilder σ} {es : ExecutableSchema σ}
    (accepted : b.finish = .ok es)
    (undefaulted : ∀ io, .inputObject io ∈ b.definitions → io.oneOf = true →
      ∀ g ∈ io.fields, g.default = none) :
    (∀ v t w, es.raw.coerce v t = .ok w → es.raw.coerce w t = .ok w) ∧
      ∀ given defs vars, es.raw.coerceVariables given defs = .ok vars → (defs.map (·.name)).Nodup →
        ∀ d ∈ defs, ∀ v x, d.value? given = some v → es.raw.coerce v d.type = .ok x →
          ∀ (field : Schema.Field) acc name arg rest, field.argument? name = some arg →
            arg.type = d.type →
            Schema.coerceArguments.given es.raw vars field acc ((name, .variable d.name) :: rest) =
              Schema.coerceArguments.given es.raw vars field (Value.assign acc name x) rest := by
  have plain := SchemaBuilder.plainInputs_of_finish accepted undefaulted
  refine ⟨fun v t w coerced => Schema.coerce_again plain coerced, ?_⟩
  intro given defs vars run distinct d mem v x value coerced field acc name arg rest declared typed
  obtain ⟨x', coerced', held⟩ := Schema.coerceVariables_go_holds run distinct mem value
  rw [coerced, Except.ok.injEq] at coerced'
  subst coerced'
  exact Schema.coerceArguments_given_variable plain declared (typed ▸ coerced) held

/-- A query taking a point whose `x` defaults to 0, and a oneOf choice of a number or a name. -/
def plainInputsBuilder : SchemaBuilder Unit where
  query := "Query"
  definitions := [
    .inputObject { name := "Point", fields := [
      { name := "x", type := .named "Int", default := some (.int .word 0) },
      { name := "y", type := .named "Int" }] },
    .inputObject { name := "Choice", oneOf := true, fields := [
      { name := "number", type := .named "Int" },
      { name := "name", type := .named "String" }] },
    .object { name := "Query", fields := [
      { name := "f", type := .named "String",
        resolver := some (Resolver.ofExcept fun _ => .ok FieldValue.none),
        arguments := [{ name := "p", type := .named "Point" }, { name := "c", type := .named "Choice" }] }] }]

theorem plain_inputs_coerce_idempotent :
    ∃ es : ExecutableSchema Unit, plainInputsBuilder.finish = .ok es ∧
      (∀ io, .inputObject io ∈ plainInputsBuilder.definitions → io.oneOf = true →
        ∀ g ∈ io.fields, g.default = none) ∧
      (∀ v t w, es.raw.coerce v t = .ok w → es.raw.coerce w t = .ok w) ∧
      ∀ given defs vars, es.raw.coerceVariables given defs = .ok vars → (defs.map (·.name)).Nodup →
        ∀ d ∈ defs, ∀ v x, d.value? given = some v → es.raw.coerce v d.type = .ok x →
          ∀ (field : Schema.Field) acc name arg rest, field.argument? name = some arg →
            arg.type = d.type →
            Schema.coerceArguments.given es.raw vars field acc ((name, .variable d.name) :: rest) =
              Schema.coerceArguments.given es.raw vars field (Value.assign acc name x) rest := by
  obtain ⟨es, accepted⟩ : ∃ es, plainInputsBuilder.finish = .ok es :=
    ⟨_, by rw [SchemaBuilder.finish_eq, if_pos (by decide +kernel)]⟩
  have undefaulted : ∀ io, .inputObject io ∈ plainInputsBuilder.definitions → io.oneOf = true →
      ∀ g ∈ io.fields, g.default = none := by
    intro io mem oneOf g field
    simp only [plainInputsBuilder, List.mem_cons, Definition.inputObject.injEq, reduceCtorEq,
      List.not_mem_nil, or_false] at mem
    rcases mem with rfl | rfl
    · cases oneOf
    · simp only [List.mem_cons, List.not_mem_nil, or_false] at field
      rcases field with rfl | rfl <;> rfl
  exact ⟨es, accepted, undefaulted, coercion_idempotent accepted undefaulted⟩

/-- A oneOf choice between `a` and `b`, where `b` defaults to 1. -/
def defaultedChoice : InputObjectDef where
  name := "Pick"
  oneOf := true
  fields := [
    { name := "a", type := .named "Int" },
    { name := "b", type := .named "Int", default := some (.int .word 1) }]

/-- A query taking a `defaultedChoice`. -/
def defaultedChoiceBuilder : SchemaBuilder Unit where
  query := "Query"
  definitions := [
    .inputObject defaultedChoice,
    .object { name := "Query", fields := [
      { name := "f", type := .named "String",
        resolver := some (Resolver.ofExcept fun _ => .ok FieldValue.none),
        arguments := [{ name := "x", type := .named "Pick" }] }] }]

/-- The default of a oneOf object's other field is filled in, so the second coercion sees two
fields where the first saw one, and refuses them. -/
theorem oneOf_default_coerced_twice :
    ∃ es : ExecutableSchema Unit, defaultedChoiceBuilder.finish = .ok es ∧
      es.raw.coerce (.map [("a", .int .word 1)]) (.named "Pick") =
        .ok (.map [("a", .int .word 1), ("b", .int .word 1)]) ∧
      es.raw.coerce (.map [("a", .int .word 1), ("b", .int .word 1)]) (.named "Pick") =
        .error (.oneOfCount "Pick" 2) := by
  obtain ⟨es, accepted⟩ : ∃ es, defaultedChoiceBuilder.finish = .ok es :=
    ⟨_, by rw [SchemaBuilder.finish_eq, if_pos (by decide +kernel)]⟩
  have mem : Definition.inputObject defaultedChoice ∈ defaultedChoiceBuilder.definitions :=
    List.mem_cons_self
  obtain ⟨t, found, kind, named, fields, oneOf⟩ := SchemaBuilder.inputObject_of_finish accepted mem
  have notBuiltin : "Pick" ∉ builtinScalarNames := by decide
  have one : ∀ fuel, coerceInput es.raw fuel (.int .word 1) (.named "Int") = .ok (.int .word 1) := by
    intro fuel
    rw [coerceInput_int _ _ _ (by simp)]
    exact (Coerce.asInt_ok_iff _ _).mpr ⟨1, rfl, by decide, by decide, rfl⟩
  have declared : ∀ p ∈ [("a", Value.int .word 1), ("b", .int .word 1)], (t.inputField? p.1).isSome := by
    intro p mem
    rw [t.inputField?_isSome_iff, fields]
    simp only [List.mem_cons, List.not_mem_nil, or_false] at mem
    rcases mem with rfl | rfl <;> simp [defaultedChoice]
  refine ⟨es, accepted, ?_, ?_⟩
  · rw [Schema.coerce, coerceInput_inputObject _ _ _ (by simp) notBuiltin found kind]
    refine (coerceObject_ok_iff _ _ t _ _).mpr ⟨_, _, rfl,
      fun p mem => declared p (List.mem_cons.mpr (.inl (List.mem_singleton.mp mem))),
      fun _ => ⟨"a", _, rfl, rfl⟩, ?_, rfl⟩
    rw [fields]
    exact FieldsCoerced.coerceFields_ok (.given rfl (one _) (.default rfl rfl (one _) .nil))
  · rw [Schema.coerce, coerceInput_inputObject _ _ _ (by simp) notBuiltin found kind,
      coerceObject_oneOf_count _ _ oneOf declared (by decide), named]
    rfl

end GraphWeave
