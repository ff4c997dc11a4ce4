import GraphWeave.Proofs.Execution.Accounting

/-! Response values that conform to the types of the fields selected.

A value fits the type of its position: a non-null type holds no null, a list type holds a list
(or null) whose items fit the item type, a scalar or enum type holds a leaf, and an object,
interface or union type holds an object whose entries are those of the fields collected on an
object type that may stand for it. Each position also carries its boundary, the nearest
position above it that may hold null, computed as the executor computes it. While batches are
still to run, a placeholder fits where a field still to complete stands (`hole`).

The relation only cares about holes where placeholders stand (`Fits.restrict`), and a position
can be rewritten in place by anything that fits it there (`Fits.setAt`). -/

namespace GraphWeave

open Exec ResponseValue

/-- An object type that may stand where the named type is expected: the type itself when it is
an object type, or an object type of the schema that is a possible type of the interface or
union. -/
def Schema.ObjectFor (s : Schema) (name : String) (o : Schema.NamedType) : Prop :=
  ∃ t, s.type? name = some t ∧
    ((t.kind = .object ∧ o = t) ∨
      ((t.kind = .interface ∨ t.kind = .union) ∧ o.kind = .object ∧
        ∃ typeName, s.type? typeName = some o ∧ s.isPossibleType t.name typeName = true))

/-- The named type completes to leaves: a scalar or an enum. -/
def Schema.LeafType (s : Schema) (name : String) : Prop :=
  ∃ t, s.type? name = some t ∧ (t.kind = .scalar ∨ t.kind = .enum)

namespace Exec

variable {σ : Type}

/-- Where placeholders may stand: a predicate on a position, its boundary, its type and the
selections of its field. -/
abbrev Holes := Path → Path → TypeRef → List Field → Prop

mutual

/-- A value fits the type of the position `path`, whose boundary is `boundary`, under the
selections `fields`. -/
inductive Fits (c : ExecContext σ) (hole : Holes) :
    Path → Path → TypeRef → List Field → ResponseValue → Prop
  | pending {path boundary type fields} :
      hole path boundary type fields → Fits c hole path boundary type fields .pending
  | nonNull {path boundary type fields v} : v ≠ .null → v ≠ .pending →
      Fits c hole path boundary type fields v → Fits c hole path boundary (.nonNull type) fields v
  | null {path boundary type fields} :
      type.isNonNull = false → Fits c hole path boundary type fields .null
  | list {path boundary inner fields items} :
      (∀ i x, items[i]? = some x → Fits c hole (path ++ [.index i])
        (boundaryOf inner boundary (path ++ [.index i])) inner fields x) →
      Fits c hole path boundary (.list inner) fields (.list items)
  | leaf {path boundary name fields j} :
      c.schema.LeafType name → Fits c hole path boundary (.named name) fields (.leaf j)
  | object {path boundary name fields o entries} : c.schema.ObjectFor name o →
      (entries.map Prod.fst).Nodup →
      (∀ k w, (k, w) ∈ entries → Entry c hole path boundary o (mergeSelections fields) k w) →
      Fits c hole path boundary (.named name) fields (.object entries)

/-- An entry of an object fits the selections run on it at an object type: its key is that of a
collected field group, and it holds the type's name for `__typename`, otherwise a value that
fits the type of the group's field. -/
inductive Entry (c : ExecContext σ) (hole : Holes) :
    Path → Path → Schema.NamedType → List Selection → String → ResponseValue → Prop
  | typename {path boundary o selections g first others} :
      g ∈ (collectContext c).collect o.name selections → g.fields = first :: others →
      first.name = "__typename" →
      Entry c hole path boundary o selections g.key (.leaf (.str o.name))
  | field {path boundary o selections g first others fd w} :
      g ∈ (collectContext c).collect o.name selections → g.fields = first :: others →
      first.name ≠ "__typename" → o.field? first.name = some fd →
      Fits c hole (path ++ [.key g.key]) (boundaryOf fd.type boundary (path ++ [.key g.key]))
        fd.type g.fields w →
      Entry c hole path boundary o selections g.key w

end

/-- The entries of an object fit the selections run on it: distinct keys, each entry fitting. -/
def Entries (c : ExecContext σ) (hole : Holes) (path boundary : Path) (o : Schema.NamedType)
    (selections : List Selection) (entries : List (String × ResponseValue)) : Prop :=
  (entries.map Prod.fst).Nodup ∧ ∀ k w, (k, w) ∈ entries → Entry c hole path boundary o selections k w

/-- The placeholders of fields still to complete: one at each field's path, with the field's
boundary, type and selections. -/
def holesOf (tasks : List AsyncTask) : Holes := fun path boundary type fields =>
  ∃ t ∈ tasks, t.task.path = path ∧ t.boundary = boundary ∧ t.type = type ∧ t.task.fields = fields

theorem holesOf_mono {tasks tasks' : List AsyncTask} (sub : ∀ t ∈ tasks, t ∈ tasks') :
    ∀ path boundary type fields, holesOf tasks path boundary type fields →
      holesOf tasks' path boundary type fields := by
  rintro path boundary type fields ⟨t, member, same⟩
  exact ⟨t, sub t member, same⟩

section Restrict

variable {c : ExecContext σ} {hole hole' : Holes}

mutual

/-- Only the holes where placeholders stand matter. -/
theorem Fits.restrict {path boundary type fields v} (fit : Fits c hole path boundary type fields v)
    (keep : ∀ rel b t fs, v.at? rel = some .pending → hole (path ++ rel) b t fs →
      hole' (path ++ rel) b t fs) :
    Fits c hole' path boundary type fields v := by
  match fit with
  | .pending allowed => exact .pending (by simpa using keep [] _ _ _ (by simp) (by simpa using allowed))
  | .nonNull present placed inner => exact .nonNull present placed (inner.restrict keep)
  | .null nullable => exact .null nullable
  | .list items =>
    refine .list fun i x found => (items i x found).restrict fun rel b t fs pending allowed => ?_
    have kept := keep (.index i :: rel) b t fs (by simp [found, pending]) (by simpa using allowed)
    simpa using kept
  | .leaf leafType => exact .leaf leafType
  | .object standsFor distinct entries =>
    refine .object standsFor distinct fun k w member => (entries k w member).restrict ?_
    intro rel b t fs pending allowed
    have kept := keep (.key k :: rel) b t fs (by simp [lookup_of_mem distinct member, pending])
      (by simpa using allowed)
    simpa using kept
termination_by structural fit

theorem Entry.restrict {path boundary o selections k w}
    (entry : Entry c hole path boundary o selections k w)
    (keep : ∀ rel b t fs, w.at? rel = some .pending → hole (path ++ .key k :: rel) b t fs →
      hole' (path ++ .key k :: rel) b t fs) :
    Entry c hole' path boundary o selections k w := by
  match entry with
  | .typename collected named typename => exact .typename collected named typename
  | .field collected named other declared fit =>
    refine .field collected named other declared (fit.restrict fun rel b t fs pending allowed => ?_)
    simpa using keep rel b t fs pending (by simpa using allowed)
termination_by structural entry

end

theorem Fits.mono {path boundary type fields v} (fit : Fits c hole path boundary type fields v)
    (grows : ∀ p b t fs, hole p b t fs → hole' p b t fs) :
    Fits c hole' path boundary type fields v :=
  fit.restrict fun _ _ _ _ _ allowed => grows _ _ _ _ allowed

theorem Entry.mono {path boundary o selections k w}
    (entry : Entry c hole path boundary o selections k w)
    (grows : ∀ p b t fs, hole p b t fs → hole' p b t fs) :
    Entry c hole' path boundary o selections k w :=
  entry.restrict fun _ _ _ _ _ allowed => grows _ _ _ _ allowed

theorem Entries.restrict {path boundary o selections entries}
    (fit : Entries c hole path boundary o selections entries)
    (keep : ∀ rel b t fs, (ResponseValue.object entries).at? rel = some .pending →
      hole (path ++ rel) b t fs → hole' (path ++ rel) b t fs) :
    Entries c hole' path boundary o selections entries := by
  refine ⟨fit.1, fun k w member => (fit.2 k w member).restrict fun rel b t fs pending allowed => ?_⟩
  exact keep (.key k :: rel) b t fs (by simp [lookup_of_mem fit.1 member, pending]) allowed

theorem Entries.mono {path boundary o selections entries}
    (fit : Entries c hole path boundary o selections entries)
    (grows : ∀ p b t fs, hole p b t fs → hole' p b t fs) :
    Entries c hole' path boundary o selections entries :=
  fit.restrict fun _ _ _ _ _ allowed => grows _ _ _ _ allowed

end Restrict

/-! A position rewritten in place. -/

section Replace

variable {c : ExecContext σ} {hole hole' : Holes}

theorem boundaryOf_own {type : TypeRef} {boundary path : Path} (s : PathSegment)
    (bounded : boundary <+: path) (same : boundaryOf type boundary (path ++ [s]) = path ++ [s]) :
    type.isNonNull = false := by
  cases nonNull : type.isNonNull with
  | false => rfl
  | true => exact absurd same (boundaryOf_ne s bounded nonNull)

/-- Rewriting the entry of one key keeps the entries fitting when the new entry fits. -/
theorem Entries.update {path boundary o selections entries} {k : String} {w : ResponseValue}
    {f : ResponseValue → ResponseValue} (fit : Entries c hole path boundary o selections entries)
    (found : entries.lookup k = some w) (new : Entry c hole path boundary o selections k (f w)) :
    Entries c hole path boundary o selections
      (entries.map fun e => if e.1 == k then (k, f e.2) else e) := by
  obtain ⟨distinct, fits⟩ := fit
  have keys : (entries.map fun e => if e.1 == k then (k, f e.2) else e).map Prod.fst =
      entries.map Prod.fst := by
    rw [List.map_map]
    congr 1
    funext e
    by_cases hit : e.1 = k <;> simp [hit]
  refine ⟨keys ▸ distinct, fun k' w' member => ?_⟩
  obtain ⟨⟨key, value⟩, mem, same⟩ := List.mem_map.mp member
  by_cases hit : key = k
  · subst hit
    have : value = w := Option.some.inj ((lookup_of_mem distinct mem).symm.trans found)
    subst this
    simp only [BEq.rfl, if_true, Prod.mk.injEq] at same
    obtain ⟨rfl, rfl⟩ := same
    exact new
  · have differs : (key == k) = false := by simpa using hit
    simp only [differs, Bool.false_eq_true, if_false] at same
    obtain ⟨rfl, rfl⟩ := Prod.mk.inj same
    exact fits key value mem

/-- What may replace a value at a position: anything that fits wherever the value fits there,
given that the position's boundary lies on it and is the position itself only for a nullable
type. The holes of the rest of the tree may grow from `hole` to `hole'`. -/
def Replaces (c : ExecContext σ) (hole hole' : Holes) (path : Path) (u w : ResponseValue) : Prop :=
  ∀ boundary type fields, Fits c hole path boundary type fields u → boundary <+: path →
    (boundary = path → type.isNonNull = false) → Fits c hole' path boundary type fields w

mutual

/-- Rewriting a position below by anything that fits it there keeps a value fitting. -/
theorem Fits.replaceAt {path boundary type fields v} (fit : Fits c hole path boundary type fields v)
    (grows : ∀ p b t fs, hole p b t fs → hole' p b t fs) (bounded : boundary <+: path)
    (own : boundary = path → type.isNonNull = false) {rel : Path} {u w : ResponseValue}
    (present : v.at? rel = some u) (notLeaf : ∀ j, u ≠ .leaf j)
    (replace : Replaces c hole hole' (path ++ rel) u w) :
    Fits c hole' path boundary type fields (v.replaceAt rel w) := by
  cases rel with
  | nil =>
    obtain rfl : v = u := by simpa using present
    rw [List.append_nil] at replace
    exact replace boundary type fields fit bounded own
  | cons s rest =>
  match fit with
  | .pending _ => simp at present
  | .null _ => simp at present
  | .leaf _ => simp at present
  | .nonNull filled placed inner =>
    refine .nonNull (replaceAt_ne_null filled w) (replaceAt_ne_pending placed w) ?_
    exact inner.replaceAt grows bounded (fun same => absurd (own same) (by simp [TypeRef.isNonNull]))
      present notLeaf replace
  | .list items =>
    cases s with
    | key k => simp [at?] at present
    | index i =>
      obtain ⟨x, found, below⟩ := Option.bind_eq_some_iff.mp (by simpa using present)
      rw [replaceAt_list_index (List.getElem?_eq_some_iff.mp found).1]
      refine .list fun j y item => ?_
      rw [getElem?_mapIdx_replace _ i j (·.replaceAt rest w)] at item
      by_cases same : j = i
      · subst same
        simp only [if_true, found, Option.map_some, Option.some.injEq] at item
        subst item
        exact (items j x found).replaceAt grows (boundaryOf_above _ bounded)
          (boundaryOf_own _ bounded) below notLeaf (by simpa using replace)
      · simp only [same, if_false] at item
        exact (items j y item).mono grows
  | .object standsFor distinct entries =>
    cases s with
    | index i => simp [at?] at present
    | key k =>
      obtain ⟨e, found, below⟩ := Option.bind_eq_some_iff.mp (by simpa using present)
      rw [replaceAt_object_key found]
      have moved : Entries c hole' _ _ _ _ _ := Entries.mono ⟨distinct, entries⟩ grows
      have new := (entries k e (mem_of_lookup found)).replaceAt grows bounded below notLeaf replace
      obtain ⟨distinct', entries'⟩ := moved.update (f := fun x => x.replaceAt rest w) found new
      exact .object standsFor distinct' entries'
termination_by structural fit

theorem Entry.replaceAt {path boundary o selections k e}
    (entry : Entry c hole path boundary o selections k e)
    (grows : ∀ p b t fs, hole p b t fs → hole' p b t fs) (bounded : boundary <+: path)
    {rel : Path} {u w : ResponseValue} (present : e.at? rel = some u) (notLeaf : ∀ j, u ≠ .leaf j)
    (replace : Replaces c hole hole' (path ++ .key k :: rel) u w) :
    Entry c hole' path boundary o selections k (e.replaceAt rel w) := by
  match entry with
  | .typename collected named typename =>
    cases rel with
    | nil => exact absurd (by simpa using present.symm) (notLeaf _)
    | cons s rest => simp at present
  | .field collected named other declared fit =>
    exact .field collected named other declared (fit.replaceAt grows (boundaryOf_above _ bounded)
      (boundaryOf_own _ bounded) present notLeaf (by simpa using replace))
termination_by structural entry

end

theorem Fits.hole_of_placeholder {path boundary type fields}
    (fit : Fits c hole path boundary type fields .pending) : hole path boundary type fields := by
  cases fit with
  | pending allowed => exact allowed
  | nonNull _ placed _ => exact absurd rfl placed

theorem boundary_step {type : TypeRef} {boundary path b : Path} {s : PathSegment}
    (below : b = boundaryOf type boundary (path ++ [s]) ∨ ∃ s', path ++ [s] ++ [s'] <+: b) :
    b = boundary ∨ ∃ s, path ++ [s] <+: b := by
  rcases below with same | ⟨s', deeper⟩
  · unfold boundaryOf at same
    split at same
    · exact .inl same
    · exact .inr ⟨s, same ▸ List.prefix_refl _⟩
  · exact .inr ⟨s, (List.prefix_append _ _).trans deeper⟩

mutual

/-- The hole of a placeholder below a position has the position's boundary, or a boundary
strictly below the position: boundaries only pass down through non-null types. -/
theorem Fits.hole_of_pending {path boundary type fields v}
    (fit : Fits c hole path boundary type fields v) {rel : Path}
    (pending : v.at? rel = some .pending) :
    ∃ b t fs, hole (path ++ rel) b t fs ∧ (b = boundary ∨ ∃ s, path ++ [s] <+: b) := by
  match fit with
  | .pending allowed =>
    cases rel with
    | nil => exact ⟨_, _, _, by simpa using allowed, .inl rfl⟩
    | cons s rest => simp at pending
  | .nonNull _ _ inner => exact inner.hole_of_pending pending
  | .null _ => cases rel <;> simp at pending
  | .leaf _ => cases rel <;> simp at pending
  | .list items =>
    cases rel with
    | nil => simp at pending
    | cons s rest =>
      cases s with
      | key k => simp [at?] at pending
      | index i =>
        obtain ⟨x, found, below⟩ := Option.bind_eq_some_iff.mp (by simpa using pending)
        obtain ⟨b, t, fs, allowed, lies⟩ := (items i x found).hole_of_pending below
        exact ⟨b, t, fs, by simpa using allowed, boundary_step lies⟩
  | .object _ distinct entries =>
    cases rel with
    | nil => simp at pending
    | cons s rest =>
      cases s with
      | index i => simp [at?] at pending
      | key k =>
        obtain ⟨e, found, below⟩ := Option.bind_eq_some_iff.mp (by simpa using pending)
        exact (entries k e (mem_of_lookup found)).hole_of_pending below
termination_by structural fit

theorem Entry.hole_of_pending {path boundary o selections k e}
    (entry : Entry c hole path boundary o selections k e) {rel : Path}
    (pending : e.at? rel = some .pending) :
    ∃ b t fs, hole (path ++ .key k :: rel) b t fs ∧ (b = boundary ∨ ∃ s, path ++ [s] <+: b) := by
  match entry with
  | .typename .. => cases rel <;> simp at pending
  | .field _ _ _ _ fit =>
    obtain ⟨b, t, fs, allowed, lies⟩ := fit.hole_of_pending pending
    exact ⟨b, t, fs, by simpa using allowed, boundary_step lies⟩
termination_by structural entry

end

end Replace

/-! Completions give values that fit, with holes where they queued fields. -/

section Completions

variable {c : ExecContext σ}

theorem Added.queue_grows {st st' : ExecState σ} {E M T} (added : Added st st' E M T) :
    st.queue.toList <+: st'.queue.toList :=
  ⟨T, added.queue_eq.symm⟩

mutual

theorem SelectionsRun.queue_grows {path object selections source boundary st r st'}
    (run : SelectionsRun c object selections source path boundary st r st') :
    st.queue.toList <+: st'.queue.toList := by
  match run with
  | .collect groups => exact groups.queue_grows
termination_by structural run

theorem GroupsRun.queue_grows {path object source boundary groups acc st r st'}
    (run : GroupsRun c object source path boundary groups acc st r st') :
    st.queue.toList <+: st'.queue.toList := by
  match run with
  | .nil => exact List.prefix_refl _
  | .empty _ rest | .typename _ _ rest => exact rest.queue_grows
  | .unknown _ _ _ recorded rest =>
    obtain ⟨_, _, added⟩ := added_addError recorded
    exact added.queue_grows.trans rest.queue_grows
  | .pending _ _ _ field rest | .value _ _ _ field _ rest =>
    exact field.queue_grows.trans rest.queue_grows
  | .nulled _ _ _ field _ marked =>
    obtain ⟨_, _, _, added⟩ := added_markNullified marked
    exact field.queue_grows.trans added.queue_grows
termination_by structural run

theorem FieldRun.queue_grows {path object source fd fields boundary st outcome st'}
    (run : FieldRun c object source fd fields path boundary st outcome st') :
    st.queue.toList <+: st'.queue.toList := by
  match run with
  | .argumentError _ recorded =>
    obtain ⟨_, _, added⟩ := added_addError recorded
    exact added.queue_grows
  | .queued _ _ queued => exact (added_enqueue queued).queue_grows
  | .resolveError _ _ resolved recorded =>
    obtain ⟨_, _, added⟩ := added_addFieldError recorded
    exact (added_resolve resolved).queue_grows.trans added.queue_grows
  | .resolved _ _ resolved value => exact (added_resolve resolved).queue_grows.trans value.queue_grows
termination_by structural run

theorem ValueRun.queue_grows {path type fields result boundary st v st'}
    (run : ValueRun c type fields result path boundary st v st') :
    st.queue.toList <+: st'.queue.toList := by
  match run with
  | .nonNullNull settled _ reported =>
    obtain ⟨_, _, settledAdded⟩ := added_settle settled
    obtain ⟨_, _, added, -⟩ := added_reportNull reported
    exact settledAdded.queue_grows.trans added.queue_grows
  | .listNull settled _ | .namedNull settled _ | .leaf settled _ _ =>
    obtain ⟨_, _, added⟩ := added_settle settled
    exact added.queue_grows
  | .nonNull settled _ inner =>
    obtain ⟨_, _, added⟩ := added_settle settled
    exact added.queue_grows.trans inner.queue_grows
  | .list settled _ completed =>
    obtain ⟨_, _, added⟩ := added_settle settled
    exact added.queue_grows.trans completed.queue_grows
  | .fail settled _ _ recorded =>
    obtain ⟨_, _, settledAdded⟩ := added_settle settled
    obtain ⟨_, _, added⟩ := added_addError recorded
    exact settledAdded.queue_grows.trans added.queue_grows
  | .raise settled _ _ recorded =>
    obtain ⟨_, _, settledAdded⟩ := added_settle settled
    obtain ⟨_, _, added⟩ := added_addFieldError recorded
    exact settledAdded.queue_grows.trans added.queue_grows
  | .object settled _ _ completed =>
    obtain ⟨_, _, added⟩ := added_settle settled
    exact added.queue_grows.trans completed.queue_grows
termination_by structural run

theorem ListRun.queue_grows {path inner fields result boundary st v st'}
    (run : ListRun c inner fields result path boundary st v st') :
    st.queue.toList <+: st'.queue.toList := by
  match run with
  | .items items | .nulled items => exact items.queue_grows
  | .notList _ recorded =>
    obtain ⟨_, _, added⟩ := added_addError recorded
    exact added.queue_grows
termination_by structural run

theorem ItemsRun.queue_grows {path inner fields boundary index items acc st r st'}
    (run : ItemsRun c inner fields path boundary index items acc st r st') :
    st.queue.toList <+: st'.queue.toList := by
  match run with
  | .nil => exact List.prefix_refl _
  | .nulled item _ marked =>
    obtain ⟨_, _, _, added⟩ := added_markNullified marked
    exact item.queue_grows.trans added.queue_grows
  | .next item _ rest => exact item.queue_grows.trans rest.queue_grows
termination_by structural run

theorem ObjectRun.queue_grows {path object fields result boundary st v st'}
    (run : ObjectRun c object fields result path boundary st v st') :
    st.queue.toList <+: st'.queue.toList := by
  match run with
  | .fields selections | .nulled selections => exact selections.queue_grows
termination_by structural run

end


/-- A named type that completes to a finished value is a leaf type. -/
theorem completeNamed_leafType {name : String} {r : Resolved} {v : ResponseValue}
    (h : completeNamed c name r = .value v) : c.schema.LeafType name := by
  unfold completeNamed at h
  cases found : c.schema.type? name with
  | none => simp [found] at h
  | some t =>
    refine ⟨t, found, ?_⟩
    simp only [found] at h
    cases kind : t.kind with
    | scalar => exact .inl rfl
    | enum => exact .inr rfl
    | object | inputObject => simp [kind] at h
    | interface | union =>
      simp only [kind] at h
      repeat' split at h
      all_goals cases h

/-- The object type a named type completes as may stand for it. -/
theorem completeNamed_objectFor {name : String} {r : Resolved} {o : Schema.NamedType}
    (h : completeNamed c name r = .object o) : c.schema.ObjectFor name o := by
  unfold completeNamed at h
  cases found : c.schema.type? name with
  | none => simp [found] at h
  | some t =>
    refine ⟨t, found, ?_⟩
    simp only [found] at h
    cases kind : t.kind with
    | object =>
      simp only [kind, NamedCompletion.object.injEq] at h
      exact .inl ⟨rfl, h.symm⟩
    | scalar | enum =>
      simp only [kind] at h
      split at h <;> cases h
    | inputObject => simp [kind] at h
    | interface | union =>
      simp only [kind] at h
      split at h
      · cases h
      · rename_i typeName _
        split at h
        · rename_i o' found'
          split at h
          · cases h
          · rename_i isObject
            split at h
            · cases h
            · rename_i possible
              cases h
              exact .inr ⟨by simp, by simpa using isObject, typeName, found', by simpa using possible⟩
        · cases h


theorem holesOf_grows {tasks tasks' : List AsyncTask} (grows : tasks <+: tasks') :
    ∀ path boundary type fields, holesOf tasks path boundary type fields →
      holesOf tasks' path boundary type fields := fun path boundary type fields =>
  holesOf_mono (fun _ member => grows.subset member) path boundary type fields

theorem holesOf_enqueue {t : AsyncTask} {st st' : ExecState σ} {u : Unit}
    (queued : (enqueue t).run st = some (u, st')) :
    holesOf st'.queue.toList t.task.path t.boundary t.type t.task.fields :=
  ⟨t, by simp [(added_enqueue queued).queue_eq], rfl, rfl, rfl, rfl⟩

mutual

theorem SelectionsRun.fits {path object selections source boundary st r st'}
    (run : SelectionsRun c object selections source path boundary st r st') :
    ∀ fs, r = some fs →
      Entries c (holesOf st'.queue.toList) path boundary object selections fs := by
  match run with
  | .collect groups =>
    intro fs ran
    obtain ⟨more, same, keys, entries⟩ := groups.fits (fun _ member => member) fs ran
    rw [List.nil_append] at same
    subst same
    exact ⟨keys.nodup ((collectContext c).collect_nodup _ _), entries⟩
termination_by structural run

/-- Field groups add entries of their own keys, each fitting its group. -/
theorem GroupsRun.fits {path object source boundary groups acc st r st'}
    {selections : List Selection}
    (run : GroupsRun c object source path boundary groups acc st r st')
    (collected : ∀ g ∈ groups, g ∈ (collectContext c).collect object.name selections) :
    ∀ fs, r = some fs → ∃ more, fs = acc ++ more ∧
      (more.map Prod.fst).Sublist (groups.map (·.key)) ∧
      ∀ k w, (k, w) ∈ more → Entry c (holesOf st'.queue.toList) path boundary object selections k w := by
  match run with
  | .nil =>
    intro fs same
    exact ⟨[], by simpa [eq_comm] using same, by simp, by simp⟩
  | .empty _ rest =>
    intro fs ran
    obtain ⟨more, rfl, keys, entries⟩ :=
      rest.fits (fun g member => collected g (List.mem_cons_of_mem _ member)) fs ran
    exact ⟨more, rfl, keys.cons _, entries⟩
  | .unknown _ _ _ _ rest =>
    intro fs ran
    obtain ⟨more, rfl, keys, entries⟩ :=
      rest.fits (fun g member => collected g (List.mem_cons_of_mem _ member)) fs ran
    exact ⟨more, rfl, keys.cons _, entries⟩
  | .nulled .. => intro fs ran; cases ran
  | .typename (g := g) fieldsEq typename rest =>
    intro fs ran
    obtain ⟨more, rfl, keys, entries⟩ :=
      rest.fits (fun g member => collected g (List.mem_cons_of_mem _ member)) fs ran
    refine ⟨(g.key, .leaf (.str object.name)) :: more, by simp, keys.cons_cons _, ?_⟩
    intro k w member
    rcases List.mem_cons.mp member with same | member
    · obtain ⟨rfl, rfl⟩ := Prod.mk.inj same
      exact .typename (collected g List.mem_cons_self) fieldsEq typename
    · exact entries k w member
  | .pending (g := g) fieldsEq typename declared field rest =>
    have placed := field.fits.resolve_left (by simp [FieldOutcome.value])
    intro fs ran
    obtain ⟨more, rfl, keys, entries⟩ :=
      rest.fits (fun g member => collected g (List.mem_cons_of_mem _ member)) fs ran
    refine ⟨(g.key, .pending) :: more, by simp, keys.cons_cons _, ?_⟩
    intro k w member
    rcases List.mem_cons.mp member with same | member
    · obtain ⟨rfl, rfl⟩ := Prod.mk.inj same
      exact .field (collected g List.mem_cons_self) fieldsEq typename declared
        (placed.mono (holesOf_grows rest.queue_grows))
    · exact entries k w member
  | .value (g := g) (v := v) fieldsEq typename declared field nullable rest =>
    have completed := field.fits
    intro fs ran
    obtain ⟨more, rfl, keys, entries⟩ :=
      rest.fits (fun g member => collected g (List.mem_cons_of_mem _ member)) fs ran
    refine ⟨(g.key, v) :: more, by simp, keys.cons_cons _, ?_⟩
    intro k w member
    rcases List.mem_cons.mp member with same | member
    · obtain ⟨rfl, rfl⟩ := Prod.mk.inj same
      rcases completed with null | fit
      · have null : w = .null := null
        subst null
        exact .field (collected g List.mem_cons_self) fieldsEq typename declared (.null (nullable rfl))
      · exact .field (collected g List.mem_cons_self) fieldsEq typename declared
          (fit.mono (holesOf_grows rest.queue_grows))
    · exact entries k w member
termination_by structural run

theorem FieldRun.fits {path object source fd fields boundary st outcome st'}
    (run : FieldRun c object source fd fields path boundary st outcome st') :
    outcome.value = .null ∨
      Fits c (holesOf st'.queue.toList) path boundary fd.type fields outcome.value := by
  match run with
  | .argumentError .. | .resolveError .. => exact .inl rfl
  | .queued _ _ queued => exact .inr (.pending (holesOf_enqueue queued))
  | .resolved _ _ _ value => exact value.fits.2
termination_by structural run

/-- A completed value is no placeholder, and null or a value that fits the type. -/
theorem ValueRun.fits {path type fields result boundary st v st'}
    (run : ValueRun c type fields result path boundary st v st') :
    v ≠ .pending ∧ (v = .null ∨ Fits c (holesOf st'.queue.toList) path boundary type fields v) := by
  match run with
  | .nonNullNull .. | .listNull .. | .namedNull .. | .fail .. | .raise .. =>
    exact ⟨by simp, .inl rfl⟩
  | .nonNull _ _ inner =>
    obtain ⟨placed, fits⟩ := inner.fits
    refine ⟨placed, ?_⟩
    by_cases null : v = .null
    · exact .inl null
    · exact .inr (.nonNull null placed (fits.resolve_left null))
  | .list _ _ completed => exact completed.fits
  | .leaf _ _ named =>
    rcases completeNamed_eq_value named with ⟨-, rfl⟩ | ⟨j, -, rfl⟩
    · exact ⟨by simp, .inl rfl⟩
    · exact ⟨by simp, .inr (.leaf (completeNamed_leafType named))⟩
  | .object _ _ named completed =>
    obtain ⟨placed, fits⟩ := completed.fits
    refine ⟨placed, ?_⟩
    rcases fits with null | ⟨fs, rfl, entries⟩
    · exact .inl null
    · exact .inr (.object (completeNamed_objectFor named) entries.1 entries.2)
termination_by structural run

theorem ListRun.fits {path inner fields result boundary st v st'}
    (run : ListRun c inner fields result path boundary st v st') :
    v ≠ .pending ∧
      (v = .null ∨ Fits c (holesOf st'.queue.toList) path boundary (.list inner) fields v) := by
  match run with
  | .items items =>
    obtain ⟨more, same, fit⟩ := items.fits _ rfl
    rw [List.nil_append] at same
    subst same
    exact ⟨by simp, .inr (.list fun i x found => by simpa using fit i x found)⟩
  | .nulled _ | .notList .. => exact ⟨by simp, .inl rfl⟩
termination_by structural run

/-- Items completed from an index on each fit the item type at their own index. -/
theorem ItemsRun.fits {path inner fields boundary index items acc st r st'}
    (run : ItemsRun c inner fields path boundary index items acc st r st') :
    ∀ vs, r = some vs → ∃ more, vs = acc ++ more ∧ ∀ i x, more[i]? = some x →
      Fits c (holesOf st'.queue.toList) (path ++ [.index (index + i)])
        (boundaryOf inner boundary (path ++ [.index (index + i)])) inner fields x := by
  match run with
  | .nil =>
    intro vs same
    exact ⟨[], by simpa [eq_comm] using same, by simp⟩
  | .nulled .. => intro vs ran; cases ran
  | .next (v := v) item nullable rest =>
    intro vs ran
    obtain ⟨more, rfl, fit⟩ := rest.fits vs ran
    refine ⟨v :: more, by simp, fun i x found => ?_⟩
    cases i with
    | zero =>
      obtain rfl : v = x := by simpa using found
      rcases item.fits.2 with null | fit'
      · subst null
        exact .null (nullable rfl)
      · simpa using fit'.mono (holesOf_grows rest.queue_grows)
    | succ i =>
      have shifted := fit i x (by simpa using found)
      rwa [show index + 1 + i = index + (i + 1) by omega] at shifted
termination_by structural run

theorem ObjectRun.fits {path object fields result boundary st v st'}
    (run : ObjectRun c object fields result path boundary st v st') :
    v ≠ .pending ∧ (v = .null ∨ ∃ fs, v = .object fs ∧
      Entries c (holesOf st'.queue.toList) path boundary object (mergeSelections fields) fs) := by
  match run with
  | .fields selections => exact ⟨by simp, .inr ⟨_, rfl, selections.fits _ rfl⟩⟩
  | .nulled _ => exact ⟨by simp, .inl rfl⟩
termination_by structural run

end

end Completions

end Exec

end GraphWeave
