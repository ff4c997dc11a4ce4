import GraphWeave.Proofs.Execution.ItemErrors
import GraphWeave.Proofs.Execution.Collection

/-!
Values of interfaces and unions complete as the object type they carry. A resolver's value for a
field of an interface or a union carries the name of an object type, which the runtime reads
(`ExecutableSchema.resolveType`).
-/

namespace GraphWeave

namespace Schema

/-- The ways a value that carries the type name `t` is refused at the abstract type `A`: no
name, a name that is not that of an object type, or an object type that `A` does not admit. -/
def Refuses (s : Schema) (A t : String) : Prop :=
  t = "" ∨ (∀ o, s.type? t = some o → o.kind ≠ .object) ∨ ¬ s.Possible A t

theorem type?_name_eq {s : Schema} {name : String} {t : NamedType}
    (found : s.type? name = some t) : t.name = name := by
  simpa using List.find?_some found

end Schema

namespace Exec

variable {σ : Type} {c : ExecContext σ} {A : String} {tA : Schema.NamedType} {fv : FieldValue}

/-! ### Completion of a value refused or dispatched -/

section Completion

variable {fields : List Field}

theorem single_present (fv : FieldValue) :
    (Resolved.single fv).isNull = false ∧ ∀ e, Resolved.single fv ≠ .itemError e :=
  ⟨rfl, by simp⟩

theorem completes_fail {fuel : Nat} {name message : String} {r : Resolved}
    (present : r.isNull = false) (clean : ∀ e, r ≠ .itemError e)
    (fails : completeNamed c name r = .fail message) (path boundary : Path) :
    Completes c (fuel + 1) (.named name) fields r path boundary .null
      [⟨message, locationsOf fields, path, []⟩] := by
  intro st
  rw [completeValue, settle_of_clean clean]
  simp [present, fails, addError]

theorem completes_raise {fuel : Nat} {name : String} {e : FieldError} {r : Resolved}
    (present : r.isNull = false) (clean : ∀ e, r ≠ .itemError e)
    (raises : completeNamed c name r = .raise e) (path boundary : Path) :
    Completes c (fuel + 1) (.named name) fields r path boundary .null
      [itemFailure fields path e] := by
  intro st
  rw [completeValue, settle_of_clean clean]
  simp [present, raises, addFieldError, itemFailure]

theorem run_completeObject {fuel : Nat} {o : Schema.NamedType} {r : Resolved}
    {path boundary : Path} (st : ExecState σ) :
    (completeObject c (fuel + 2) o fields r path boundary).run st =
      ((executeGroups c fuel o r path boundary
          ((collectContext c).collect o.name (mergeSelections fields)) []).run st).map
        fun out => (out.1.elim .null .object, out.2) := by
  rw [completeObject, executeSelections]
  simp only [StateT.run_bind]
  cases (executeGroups c fuel o r path boundary
    ((collectContext c).collect o.name (mergeSelections fields)) []).run st with
  | none => rfl
  | some out =>
    obtain ⟨groups, st'⟩ := out
    cases groups <;> rfl

theorem executeGroups_typename {fuel : Nat} {object : Schema.NamedType} {source : Resolved}
    {path boundary : Path} {g : FieldGroup} {rest : List FieldGroup}
    {acc : List (String × ResponseValue)} {first : Field} {others : List Field}
    (grouped : g.fields = first :: others) (typename : first.name = "__typename") :
    executeGroups c fuel object source path boundary (g :: rest) acc =
      executeGroups c fuel object source path boundary rest
        (acc ++ [(g.key, .leaf (.str object.name))]) := by
  rw [executeGroups]
  simp [grouped, typename]

/-- A field that may not be null and runs at once to null makes its enclosing object null, and
marks the object's path, adding nothing to the errors. -/
theorem executeGroups_nonNull_null {fuel : Nat} {object : Schema.NamedType} {source : Resolved}
    {path boundary : Path} {g : FieldGroup} {rest : List FieldGroup}
    {acc : List (String × ResponseValue)} {first : Field} {others : List Field}
    {fd : Schema.Field} (grouped : g.fields = first :: others)
    (other : first.name ≠ "__typename") (found : object.field? first.name = some fd)
    (nonNull : fd.type.isNonNull = true) {st st₁ : ExecState σ}
    (ran : (executeField c fuel object source fd g.fields (path ++ [.key g.key]) boundary).run st =
      some (.done .null, st₁)) :
    (executeGroups c fuel object source path boundary (g :: rest) acc).run st =
      some (none, if path.isEmpty then st₁ else { st₁ with nullified := st₁.nullified ++ [path] }) := by
  rw [grouped] at ran
  rw [executeGroups]
  simp only [grouped, other, found, nonNull, beq_iff_eq, if_false, if_true]
  refine run_bind_eq_some.mpr ⟨.done .null, st₁, ran, ?_⟩
  simp only [ResponseValue.isNull, if_true]
  by_cases root : path.isEmpty
  · simp [markNullified, root]
  · simp [markNullified, root]

/-- A field that may not be null and completes in a batch to null passes the null to its
boundary, marked, or makes the data null when the boundary is the root; the completion's errors
are the only ones added. -/
theorem completeAsync_nonNull_null {fuel : Nat} {t : AsyncTask} {r : Resolved}
    {E : List ResponseError} (nonNull : t.type.isNonNull = true) {st : ExecState σ}
    (live : isNullified st t.task.path = false)
    (completes : Completes c fuel t.type t.task.fields r t.task.path t.boundary .null E)
    (tree : ResponseValue) :
    (completeAsync c fuel t (.ok r) tree).run st =
      some (if t.boundary.isEmpty then
          (tree, { st with errors := st.errors ++ E.toArray, dataNull := true })
        else (tree.setAt t.boundary .null,
          { st with errors := st.errors ++ E.toArray, nullified := st.nullified ++ [t.boundary] })) := by
  rw [completeAsync]
  simp only [StateT.run_bind, StateT.run_get, pure_bind, live, Bool.false_eq_true, if_false,
    completeResult]
  rw [completes st]
  by_cases root : t.boundary.isEmpty
  · simp [placeAsync, nonNull, root, ResponseValue.isNull]
  · simp [placeAsync, nonNull, root, ResponseValue.isNull, markNullified]

theorem completeValue_named_congr {name name' : String} {r : Resolved}
    (clean : ∀ e, r ≠ .itemError e) (same : completeNamed c name r = completeNamed c name' r)
    (fuel : Nat) (path boundary : Path) :
    completeValue c fuel (.named name) fields r path boundary =
      completeValue c fuel (.named name') fields r path boundary := by
  cases fuel with
  | zero => rw [completeValue, completeValue]
  | succ fuel =>
    rw [completeValue, completeValue, settle_of_clean clean]
    simp only [pure_bind, same]

theorem completeValue_nonNull_named_congr {name name' : String} {r : Resolved}
    (present : r.isNull = false) (clean : ∀ e, r ≠ .itemError e)
    (same : completeNamed c name r = completeNamed c name' r) (fuel : Nat) (path boundary : Path)
    (st : ExecState σ) :
    (completeValue c fuel (.nonNull (.named name)) fields r path boundary).run st =
      (completeValue c fuel (.nonNull (.named name')) fields r path boundary).run st := by
  cases fuel with
  | zero => rw [completeValue, completeValue]
  | succ fuel =>
    rw [run_nonNull present clean, run_nonNull present clean,
      completeValue_named_congr clean same fuel path boundary]

end Completion

/-! ### How completion names the object type -/

section Named

variable (tags : c.runtime.resolveType = ExecutableSchema.resolveType)
  (declared : c.schema.type? A = some tA) (abstract : tA.kind = .interface ∨ tA.kind = .union)
include tags declared abstract

omit tags declared abstract in
theorem completeNamed_object {name : String} {o : Schema.NamedType}
    (found : c.schema.type? name = some o) (object : o.kind = .object) (r : Resolved) :
    completeNamed c name r = .object o := by
  simp [completeNamed, found, object]

theorem completeNamed_untagged (untagged : fv.typeName = "") :
    completeNamed c A (.single fv) =
      .raise { message := "value for abstract type " ++ A ++ " carries no type name" } := by
  have named := Schema.type?_name_eq declared
  rcases abstract with kind | kind <;>
    simp [completeNamed, declared, kind, tags, ExecutableSchema.resolveType, untagged, named]

theorem completeNamed_not_object (tagged : fv.typeName ≠ "")
    (other : ∀ o, c.schema.type? fv.typeName = some o → o.kind ≠ .object) :
    completeNamed c A (.single fv) =
      .fail ("Abstract type " ++ A ++ " must resolve to an Object type at runtime. Got: " ++
        fv.typeName) := by
  have named := Schema.type?_name_eq declared
  cases found : c.schema.type? fv.typeName with
  | none =>
    rcases abstract with kind | kind <;>
      simp [completeNamed, declared, kind, tags, ExecutableSchema.resolveType, tagged, named, found]
  | some o =>
    have notObject := other o found
    rcases abstract with kind | kind <;>
      simp [completeNamed, declared, kind, tags, ExecutableSchema.resolveType, tagged, named, found,
        notObject]

theorem completeNamed_impossible (tagged : fv.typeName ≠ "") {o : Schema.NamedType}
    (found : c.schema.type? fv.typeName = some o) (object : o.kind = .object)
    (impossible : ¬ c.schema.Possible A fv.typeName) :
    completeNamed c A (.single fv) =
      .fail ("Runtime Object type " ++ fv.typeName ++ " is not a possible type for " ++ A) := by
  have named := Schema.type?_name_eq declared
  have refused : c.schema.isPossibleType A fv.typeName = false := by
    simpa [← Schema.isPossibleType_iff] using impossible
  rcases abstract with kind | kind <;>
    simp [completeNamed, declared, kind, tags, ExecutableSchema.resolveType, tagged, named, found,
      object, refused]

theorem completeNamed_dispatched (tagged : fv.typeName ≠ "") {o : Schema.NamedType}
    (found : c.schema.type? fv.typeName = some o) (object : o.kind = .object)
    (possible : c.schema.Possible A fv.typeName) :
    completeNamed c A (.single fv) = .object o := by
  have named := Schema.type?_name_eq declared
  have admitted : c.schema.isPossibleType A fv.typeName = true :=
    Schema.isPossibleType_iff.mpr possible
  rcases abstract with kind | kind <;>
    simp [completeNamed, declared, kind, tags, ExecutableSchema.resolveType, tagged, named, found,
      object, admitted]

/-- A refused value completes to null with one error at its path. -/
theorem completes_refused {fields : List Field} (refused : c.schema.Refuses A fv.typeName)
    (path boundary : Path) :
    ∃ message, ∀ fuel, Completes c (fuel + 1) (.named A) fields (.single fv) path boundary .null
      [⟨message, locationsOf fields, path, []⟩] := by
  obtain ⟨present, clean⟩ := single_present fv
  by_cases untagged : fv.typeName = ""
  · exact ⟨_, fun fuel => completes_raise present clean
      (completeNamed_untagged tags declared abstract untagged) path boundary⟩
  by_cases object : ∃ o, c.schema.type? fv.typeName = some o ∧ o.kind = .object
  · obtain ⟨o, found, kind⟩ := object
    have impossible : ¬ c.schema.Possible A fv.typeName := by
      rcases refused with untagged' | other | impossible
      · exact absurd untagged' untagged
      · exact absurd kind (other o found)
      · exact impossible
    exact ⟨_, fun fuel => completes_fail present clean
      (completeNamed_impossible tags declared abstract untagged found kind impossible) path boundary⟩
  · have other : ∀ o, c.schema.type? fv.typeName = some o → o.kind ≠ .object :=
      fun o found kind => object ⟨o, found, kind⟩
    exact ⟨_, fun fuel => completes_fail present clean
      (completeNamed_not_object tags declared abstract untagged other) path boundary⟩

theorem completeValue_dispatched {fields : List Field} (tagged : fv.typeName ≠ "")
    {o : Schema.NamedType} (found : c.schema.type? fv.typeName = some o)
    (object : o.kind = .object) (possible : c.schema.Possible A fv.typeName) (fuel : Nat)
    (path boundary : Path) (st : ExecState σ) :
    (completeValue c (fuel + 3) (.named A) fields (.single fv) path boundary).run st =
      ((executeGroups c fuel o (.single fv) path boundary
          ((collectContext c).collect fv.typeName (mergeSelections fields)) []).run st).map
        fun out => (out.1.elim .null .object, out.2) := by
  obtain ⟨present, clean⟩ := single_present fv
  have named := Schema.type?_name_eq found
  rw [completeValue, settle_of_clean clean]
  simp only [pure_bind, present, Bool.false_eq_true, if_false,
    completeNamed_dispatched tags declared abstract tagged found object possible]
  rw [run_completeObject, named]

end Named

/-- Completing a value of an interface or a union `A`, for a runtime that reads the type name a
value carries.

A value refused at `A` completes to null with one error at its path, whether or not the field
may be null. A field of type `A!` then passes the null on without a second error: when it runs at
once, its enclosing object becomes null and its path is marked; when it runs in a batch, the
null goes to its boundary, or makes the data null when the boundary is the root.

A value that names an object type `A` admits completes as an object of that type, at `A` and at
`A!` alike: its selection set runs on the fields collected for the type, `__typename` gives the
type's name, and the collected fields are exactly those the selections reach through inline
fragments and fragment spreads whose type condition is absent, names the type, names an
interface it declares, or names a union with it among the members. -/
theorem abstract_dispatch {A : String} {tA : Schema.NamedType}
    (tags : c.runtime.resolveType = ExecutableSchema.resolveType)
    (declared : c.schema.type? A = some tA) (abstract : tA.kind = .interface ∨ tA.kind = .union)
    (fv : FieldValue) (fields : List Field) (path boundary : Path) :
    (c.schema.Refuses A fv.typeName →
      ∃ message : String,
        (∀ fuel, ∀ type ∈ [TypeRef.named A, .nonNull (.named A)],
          Completes c (fuel + 2) type fields (.single fv) path boundary .null
            [⟨message, locationsOf fields, path, []⟩]) ∧
        (∀ (object : Schema.NamedType) (source : Resolved) (parent : Path) (g : FieldGroup)
            (rest : List FieldGroup) (acc : List (String × ResponseValue)) (first : Field)
            (others : List Field) (fd : Schema.Field) (args : List (String × Value))
            (st : ExecState σ) (host : σ) (fuel : Nat),
          path = parent ++ [.key g.key] → g.fields = fields → fields = first :: others →
          first.name ≠ "__typename" → object.field? first.name = some fd →
          fd.type = .nonNull (.named A) →
          c.schema.coerceArguments c.variableValues fd (writtenArguments fields) = .ok args →
          (fd.async && !isSerial c path) = false →
          (c.runtime.resolve (fieldTask c object source fd args fields path)).run st.host =
            (.ok (.single fv), host) →
          (executeGroups c (fuel + 3) object source parent boundary (g :: rest) acc).run st =
            some (none,
              if parent.isEmpty then
                { st with host, errors := st.errors.push ⟨message, locationsOf fields, path, []⟩ }
              else
                { st with host, errors := st.errors.push ⟨message, locationsOf fields, path, []⟩,
                          nullified := st.nullified ++ [parent] })) ∧
        ∀ (task : ResolveTask) (st : ExecState σ) (fuel : Nat) (tree : ResponseValue),
          task.path = path → task.fields = fields → isNullified st path = false →
          (completeAsync c (fuel + 2) ⟨task, .nonNull (.named A), boundary⟩ (.ok (.single fv))
              tree).run st =
            some (if boundary.isEmpty then
                (tree, { st with errors := st.errors.push ⟨message, locationsOf fields, path, []⟩,
                                 dataNull := true })
              else (tree.setAt boundary .null,
                { st with errors := st.errors.push ⟨message, locationsOf fields, path, []⟩,
                          nullified := st.nullified ++ [boundary] }))) ∧
    ∀ o : Schema.NamedType, fv.typeName ≠ "" → c.schema.type? fv.typeName = some o →
      o.kind = .object → c.schema.Possible A fv.typeName →
      o.name = fv.typeName ∧
      (∀ fuel (st : ExecState σ),
        (completeValue c fuel (.named A) fields (.single fv) path boundary).run st =
          (completeValue c fuel (.named fv.typeName) fields (.single fv) path boundary).run st ∧
        (completeValue c fuel (.nonNull (.named A)) fields (.single fv) path boundary).run st =
          (completeValue c fuel (.nonNull (.named fv.typeName)) fields (.single fv) path
            boundary).run st) ∧
      (∀ fuel (st : ExecState σ),
        (completeValue c (fuel + 3) (.named A) fields (.single fv) path boundary).run st =
          ((executeGroups c fuel o (.single fv) path boundary
              ((collectContext c).collect fv.typeName (mergeSelections fields)) []).run st).map
            fun out => (out.1.elim .null .object, out.2)) ∧
      (∀ fuel source p b (g : FieldGroup) rest acc (first : Field) others,
        g.fields = first :: others → first.name = "__typename" →
        executeGroups c fuel o source p b (g :: rest) acc =
          executeGroups c fuel o source p b rest (acc ++ [(g.key, .leaf (.str fv.typeName))])) ∧
      ∀ f, f ∈ FieldGroup.members ((collectContext c).collect fv.typeName (mergeSelections fields)) ↔
        (collectContext c).Selects fv.typeName (mergeSelections fields) f := by
  obtain ⟨present, clean⟩ := single_present fv
  refine ⟨fun refused => ?refused, fun o tagged found object possible => ?dispatched⟩
  case refused =>
    obtain ⟨message, named⟩ := completes_refused tags declared abstract refused path boundary
    have nonNull : ∀ fuel, Completes c (fuel + 2) (.nonNull (.named A)) fields (.single fv) path
        boundary .null [⟨message, locationsOf fields, path, []⟩] :=
      fun fuel => completes_nonNull present clean (named fuel)
    refine ⟨message, fun fuel type member => ?_, ?_, ?_⟩
    · rcases List.mem_pair.mp member with rfl | rfl
      · exact named (fuel + 1)
      · exact nonNull fuel
    · intro object source parent g rest acc first others fd args st host fuel at_field grouped
        listed other found typed coerced now answered
      subst at_field grouped
      have ran := executeField_completes coerced now answered (typed ▸ nonNull fuel)
      rw [executeGroups_nonNull_null listed other found (by rw [typed]; rfl) ran]
      simp
    · intro task st fuel tree at_path listed live
      subst at_path listed
      rw [completeAsync_nonNull_null rfl live (nonNull fuel) tree]
      simp
  case dispatched =>
    have named := Schema.type?_name_eq found
    have same : completeNamed c A (.single fv) = completeNamed c fv.typeName (.single fv) := by
      rw [completeNamed_dispatched tags declared abstract tagged found object possible,
        completeNamed_object found object]
    refine ⟨named, fun fuel st => ⟨?_, ?_⟩, fun fuel st => completeValue_dispatched tags declared
      abstract tagged found object possible fuel path boundary st,
      fun fuel source p b g rest acc first others grouped typename => ?_,
      (collectContext c).mem_collect_iff fv.typeName (mergeSelections fields)⟩
    · rw [completeValue_named_congr clean same fuel path boundary]
    · exact completeValue_nonNull_named_congr present clean same fuel path boundary st
    · rw [executeGroups_typename grouped typename, named]

/-- A union `Pet` of the object types `Dog` and `Cat`, beside an object type `Bird`. -/
def petSchema : Schema where
  query := "Query"
  types := [{ name := "Pet", kind := .union, possibleTypes := ["Dog", "Cat"] },
    { name := "Dog", kind := .object }, { name := "Cat", kind := .object },
    { name := "Bird", kind := .object }]

/-- A context on `petSchema` whose runtime reads the type name a value carries. -/
def petContext : ExecContext Unit :=
  ⟨⟨fun _ => pure (.error { message := "unresolved" }),
      fun tasks => pure (tasks.map fun _ => .error { message := "unresolved" }),
      ExecutableSchema.resolveType, fun _ _ => .ok .null⟩,
    petSchema, ⟨[], []⟩, ⟨.query, "", [], [], []⟩, []⟩

/-- A `Bird` where a `Pet!` is expected is null with one error at its path; a `Dog` completes as
a `Dog`. -/
theorem bird_refused_dog_dispatched :
    (∃ message, Completes petContext 2 (.nonNull (.named "Pet")) [] (.single (.value .null "Bird"))
        [.key "pet"] [] .null [⟨message, [], [.key "pet"], []⟩]) ∧
      ∀ st, (completeValue petContext 3 (.named "Pet") [] (.single (.value .null "Dog"))
          [.key "pet"] []).run st =
        (completeValue petContext 3 (.named "Dog") [] (.single (.value .null "Dog"))
          [.key "pet"] []).run st := by
  have declared : petContext.schema.type? "Pet" =
      some { name := "Pet", kind := .union, possibleTypes := ["Dog", "Cat"] } := rfl
  have refused : petContext.schema.Refuses "Pet" "Bird" := by
    refine .inr (.inr ?_)
    rw [← Schema.isPossibleType_iff]
    decide
  obtain ⟨message, completes, -⟩ := (abstract_dispatch rfl declared (.inr rfl) (.value .null "Bird")
    [] [.key "pet"] []).1 refused
  refine ⟨⟨message, completes 0 _ (by simp)⟩, fun st => ?_⟩
  have dog : petContext.schema.type? "Dog" = some { name := "Dog", kind := .object } := rfl
  have member : petContext.schema.Possible "Pet" "Dog" := .inr (.inl ⟨_, declared, rfl, by simp⟩)
  exact (((abstract_dispatch rfl declared (.inr rfl) (.value .null "Dog") [] [.key "pet"] []).2 _
    (by decide) dog rfl member).2.1 3 st).1

end Exec

end GraphWeave
