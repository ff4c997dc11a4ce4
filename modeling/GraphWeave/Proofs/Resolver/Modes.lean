import GraphWeave.Proofs.Execution.ItemErrors

/-! Consuming and referencing an output value. The two modes part only at field values: a
reference to one is refused, at every depth of contents held at their own type and at the first
open level of contents held as open values, below which everything is consumed. -/

namespace GraphWeave.Output

/-- Values built from options, results, lists, identifiers, boxes, field values and the
scalars that are copied. -/
inductive Built : Output → Prop
  | scalar {v : Value} : (scalar? v).isSome → Built (.host v)
  | some (held : Held) {x : Output} : Built x → Built (.some held x)
  | none : Built .none
  | ok (held : Held) {x : Output} : Built x → Built (.ok held x)
  | err (message : String) : Built (.err message)
  | list (held : Held) {items : List Output} : (∀ x ∈ items, Built x) → Built (.list held items)
  | id (s : String) : Built (.id s)
  | box (value : Value) (typeName : String) (borrowed : Bool) : Built (.box value typeName borrowed)
  | field (fv : FieldValue) : Built (.field fv)

/-- Values whose options, results and lists hold their contents at their own type, as a value
of a type built without open values has them. -/
inductive Exact : Output → Prop
  | host (v : Value) : Exact (.host v)
  | some {x : Output} : Exact x → Exact (.some .exact x)
  | none : Exact .none
  | ok {x : Output} : Exact x → Exact (.ok .exact x)
  | err (message : String) : Exact (.err message)
  | list {items : List Output} : (∀ x ∈ items, Exact x) → Exact (.list .exact items)
  | id (s : String) : Exact (.id s)
  | box (value : Value) (typeName : String) (borrowed : Bool) : Exact (.box value typeName borrowed)
  | field (fv : FieldValue) : Exact (.field fv)

def isField : Output → Bool
  | .field _ => true
  | _ => false

/-- The refusal of a reference to a field value held at its own type. -/
def refusedField : FieldError := { message := "*dynamic.FieldValue cannot be resolved as a reference" }

/-- The refusal of a reference to an open value that is a field value. -/
def refusedOpen : FieldError := { message := "*interface \x7b\x7d cannot be resolved as a reference" }

/-- What a reference to an open value sees of it: a field value is refused. -/
def refuseHeld (x : Output) : Output :=
  if x.isField then .err refusedOpen.message else x

/-- The value with every field value that referencing reaches by reference replaced by the
error refusing it. -/
def refuseFields : Output → Output
  | .field _ => .err refusedField.message
  | .some .any x => .some .any (refuseHeld x)
  | .some .exact x => .some .exact (refuseFields x)
  | .ok .any x => .ok .any (refuseHeld x)
  | .ok .exact x => .ok .exact (refuseFields x)
  | .list .any items => .list .any (items.map refuseHeld)
  | .list .exact items => .list .exact (refuseItems items)
  | x => x
where
  refuseItems : List Output → List Output
    | [] => []
    | x :: rest => refuseFields x :: refuseItems rest

/-- Whether referencing reaches a field value by reference. -/
def reachesField : Output → Bool
  | .field _ => true
  | .some .any x | .ok .any x => x.isField
  | .some .exact x | .ok .exact x => x.reachesField
  | .list .any items => items.any isField
  | .list .exact items => reachesItems items
  | _ => false
where
  reachesItems : List Output → Bool
    | [] => false
    | x :: rest => x.reachesField || reachesItems rest

/-- Whether a field value occurs anywhere in the value. -/
def holdsField : Output → Bool
  | .field _ => true
  | .some _ x | .ok _ x => x.holdsField
  | .list _ items => holdsItems items
  | _ => false
where
  holdsItems : List Output → Bool
    | [] => false
    | x :: rest => x.holdsField || holdsItems rest

theorem refuseHeld_of_not_field {x : Output} (plain : x.isField = false) : refuseHeld x = x := by
  simp [refuseHeld, plain]

theorem exactItems_eq (items : List Output) :
    referenced.exactItems items = items.map fun x => itemOf x.referenced := by
  induction items with
  | nil => rfl
  | cons x rest ih =>
    rw [referenced.exactItems, ih, List.map_cons]
    congr 1

theorem refuseItems_eq (items : List Output) :
    refuseFields.refuseItems items = items.map refuseFields := by
  induction items with
  | nil => rfl
  | cons x rest ih => rw [refuseFields.refuseItems, ih, List.map_cons]

theorem reachesItems_eq (items : List Output) :
    reachesField.reachesItems items = items.any reachesField := by
  induction items with
  | nil => rfl
  | cons x rest ih => rw [reachesField.reachesItems, ih, List.any_cons]

theorem holdsItems_eq (items : List Output) :
    holdsField.holdsItems items = items.any holdsField := by
  induction items with
  | nil => rfl
  | cons x rest ih => rw [holdsField.holdsItems, ih, List.any_cons]

theorem referencedAny_eq_owned {x : Output} (built : x.Built) (plain : x.isField = false) :
    referencedAny x = owned x := by
  cases built with
  | @scalar v copied =>
    obtain ⟨fv, copy⟩ := Option.isSome_iff_exists.mp copied
    simp [referencedAny, owned, copy]
  | field fv => simp [isField] at plain
  | _ => rfl

theorem referencedAny_eq_owned_refuseHeld {x : Output} (built : x.Built) :
    referencedAny x = owned (refuseHeld x) := by
  cases held : x.isField with
  | false => rw [refuseHeld_of_not_field held, referencedAny_eq_owned built held]
  | true =>
    cases x <;> simp_all [isField]
    rfl

theorem referencedAny_items {items : List Output} (each : ∀ x ∈ items, x.Built) :
    (items.map fun x => itemOf (referencedAny x)) = owned.ownedItems (items.map refuseHeld) := by
  rw [ownedItems_eq, List.map_map]
  apply List.map_congr_left
  intro y member
  simp only [Function.comp_apply, ← referencedAny_eq_owned_refuseHeld (each y member)]

/-- Referencing gives what consuming gives once the field values it reaches by reference are
refused. -/
theorem referenced_eq_owned_refuseFields {x : Output} (built : x.Built) :
    x.referenced = x.refuseFields.owned := by
  induction built with
  | @scalar v copied =>
    obtain ⟨fv, copy⟩ := Option.isSome_iff_exists.mp copied
    simp [referenced, refuseFields, owned, copy]
  | some held inner ih =>
    cases held with
    | any => exact referencedAny_eq_owned_refuseHeld inner
    | exact => exact ih
  | ok held inner ih =>
    cases held with
    | any => exact referencedAny_eq_owned_refuseHeld inner
    | exact => exact ih
  | @list held items each ih =>
    cases held with
    | any =>
      rw [referenced, refuseFields, owned, ← referencedAny_items each]
      rfl
    | exact =>
      rw [referenced, refuseFields, owned, exactItems_eq, refuseItems_eq, ownedItems_eq,
        List.map_map]
      congr 2
      exact List.map_congr_left fun y member => by simp [ih y member]
  | field fv => rfl
  | _ => rfl

/-- A value in which referencing reaches no field value is its own refused form. -/
theorem refuseFields_of_not_reachesField {x : Output} (built : x.Built)
    (none : x.reachesField = false) : x.refuseFields = x := by
  induction built with
  | some held _ ih | ok held _ ih =>
    cases held with
    | any => simp [refuseFields, refuseHeld_of_not_field (by simpa [reachesField] using none)]
    | exact => simp [refuseFields, ih (by simpa [reachesField] using none)]
  | @list held items _ ih =>
    cases held with
    | any =>
      simp only [reachesField, List.any_eq_false, Bool.not_eq_true] at none
      simp only [refuseFields,
        List.map_congr_left fun y member => refuseHeld_of_not_field (none y member), List.map_id']
    | exact =>
      simp only [reachesField, reachesItems_eq, List.any_eq_false, Bool.not_eq_true] at none
      simp only [refuseFields, refuseItems_eq,
        List.map_congr_left fun y member => ih y member (none y member), List.map_id']
  | field fv => simp [reachesField] at none
  | _ => rfl

theorem reachesField_of_exact {x : Output} (exact : x.Exact) : x.reachesField = x.holdsField := by
  induction exact with
  | some _ ih | ok _ ih => simpa [reachesField, holdsField] using ih
  | @list items _ ih =>
    simp only [reachesField, holdsField, reachesItems_eq, holdsItems_eq]
    rw [Bool.eq_iff_iff, List.any_eq_true, List.any_eq_true]
    exact exists_congr fun y => and_congr_right fun member => by rw [ih y member]
  | _ => rfl

/-- The two modes of resolution: for every value built from options, results, lists,
identifiers, boxes, field values and scalars, referencing gives what consuming gives after the
field values it reaches by reference are refused, so the two give the same error or the same
field value whenever it reaches none; where every container holds its contents at their own
type, it reaches every field value the value holds. -/
theorem resolution_modes {x : Output} (built : x.Built) :
    x.referenced = x.refuseFields.owned ∧ (x.reachesField = false → x.referenced = x.owned) ∧
      (x.Exact → x.reachesField = x.holdsField) := by
  refine ⟨referenced_eq_owned_refuseFields built, fun none => ?_, reachesField_of_exact⟩
  rw [referenced_eq_owned_refuseFields built, refuseFields_of_not_reachesField built none]

/-- A list of an option of a scalar, an error, an identifier and a box, each held at its own
type, resolves the same way in both modes. -/
theorem mixed_list_modes :
    (Output.list .exact [.some .exact (.host (.int .word 1)), .err "failed", .id "7",
        .box .null "Foo" true]).Built ∧
      (Output.list .exact [.some .exact (.host (.int .word 1)), .err "failed", .id "7",
          .box .null "Foo" true]).referenced =
        (Output.list .exact [.some .exact (.host (.int .word 1)), .err "failed", .id "7",
          .box .null "Foo" true]).owned := by
  have built : (Output.list .exact [.some .exact (.host (.int .word 1)), .err "failed", .id "7",
      .box .null "Foo" true]).Built := by
    refine .list .exact ?_
    simp only [List.mem_cons, List.not_mem_nil, or_false]
    rintro x (rfl | rfl | rfl | rfl)
    · exact .some .exact (.scalar rfl)
    · exact .err _
    · exact .id _
    · exact .box _ _ _
  exact ⟨built, (resolution_modes built).2.1 rfl⟩

/-- A field value is kept when consumed and refused when referenced. -/
theorem field_reference_refused :
    (Output.field (FieldValue.ofValue (.str "x"))).referenced ≠
      (Output.field (FieldValue.ofValue (.str "x"))).owned := by
  simp [referenced, owned]

end GraphWeave.Output
