import GraphWeave.Proofs.Execution.Serial
import Mathlib

/-!
Where a completion asks and queues. A run of the executor asks the runtime for the fields it
resolves at once and queues the fields it defers to a batch.
-/

namespace GraphWeave

variable {σ : Type}

/-- A task of an asynchronous field of its object type that is not a root field of a mutation:
the executor queues it for a batch. -/
def ResolveTask.Deferred (c : ExecContext σ) (t : ResolveTask) : Prop :=
  ∃ object fd, c.schema.type? t.objectType = some object ∧ object.field? t.field = some fd ∧
    (fd.async && !Exec.isSerial c t.path) = true

theorem Schema.type?_name {s : Schema} {name : String} {t : Schema.NamedType}
    (found : s.type? name = some t) : s.type? t.name = some t := by
  have named : t.name = name := by simpa using List.find?_some found
  rw [named, found]

theorem Schema.NamedType.field?_name {object : Schema.NamedType} {name : String} {fd : Schema.Field}
    (found : object.field? name = some fd) : object.field? fd.name = some fd := by
  have named : fd.name = name := by simpa using List.find?_some found
  rw [named, found]

namespace Exec

/-- Neither path lies at or beneath the other. -/
def Apart (p q : Path) : Prop := ¬ p <+: q ∧ ¬ q <+: p

theorem Apart.symm {p q : Path} (apart : Apart p q) : Apart q p := ⟨apart.2, apart.1⟩

theorem Apart.ne {p q : Path} (apart : Apart p q) : p ≠ q := by
  rintro rfl
  exact apart.1 (List.prefix_refl p)

theorem Apart.extend {p q p' q' : Path} (apart : Apart p q) (here : p <+: p') (there : q <+: q') :
    Apart p' q' := by
  have clash : ∀ {r : Path}, p <+: r → q <+: r → False := by
    intro r first second
    rcases List.prefix_or_prefix_of_prefix first second with above | below
    · exact apart.1 above
    · exact apart.2 below
  exact ⟨fun below => clash (here.trans below) there, fun below => clash here (there.trans below)⟩

theorem apart_steps {p : Path} {s s' : PathSegment} (differs : s ≠ s') : Apart (p ++ [s]) (p ++ [s']) := by
  have unequal : p ++ [s] ≠ p ++ [s'] := by simpa using differs
  exact ⟨fun above => unequal (above.eq_of_length (by simp)),
    fun below => unequal (below.eq_of_length (by simp)).symm⟩

theorem apart_of_mem {Q : List AsyncTask} (apart : Q.Pairwise fun u u' => Apart u.task.path u'.task.path)
    {u u' : AsyncTask} (here : u ∈ Q) (there : u' ∈ Q) (differs : u.task.path ≠ u'.task.path) :
    Apart u.task.path u'.task.path := by
  have : Std.Symm fun u u' : AsyncTask => Apart u.task.path u'.task.path := ⟨fun _ _ h => h.symm⟩
  exact apart.forall here there fun same => differs (same ▸ rfl)

theorem not_prefix_of_beneath {Q : List AsyncTask}
    (apart : Q.Pairwise fun u u' => Apart u.task.path u'.task.path) {w u : AsyncTask} (here : w ∈ Q)
    (there : u ∈ Q) {p : Path} (below : Beneath w.task.path p) : ¬ p <+: u.task.path := by
  intro above
  have longer := above.length_le
  have differs : w.task.path ≠ u.task.path := fun same => by
    rw [same] at below
    have := below.2
    omega
  exact (apart_of_mem apart here there differs).1 (below.1.trans above)

/-- What a run asked of the runtime and queued, and where: the fields it asked for at once are
not deferred and lie at distinct paths, the fields it queued are deferred and lie apart, and
none of the calls lies at or beneath a queued field. -/
structure Layout (c : ExecContext σ) (inside : Path → Prop) (calls : List ResolveTask)
    (queued : List AsyncTask) : Prop where
  calls_inside : ∀ t ∈ calls, inside t.path
  queued_inside : ∀ u ∈ queued, inside u.task.path
  sync : ∀ t ∈ calls, ¬ t.Deferred c
  deferred : ∀ u ∈ queued, u.task.Deferred c
  distinct : (calls.map (·.path)).Nodup
  apart : queued.Pairwise fun u u' => Apart u.task.path u'.task.path
  outside : ∀ t ∈ calls, ∀ u ∈ queued, ¬ u.task.path <+: t.path

namespace Layout

variable {c : ExecContext σ} {P P' : Path → Prop} {C C₁ C₂ : List ResolveTask}
  {Q Q₁ Q₂ : List AsyncTask}

theorem nil : Layout c P [] [] :=
  ⟨by simp, by simp, by simp, by simp, .nil, .nil, by simp⟩

theorem mono (layout : Layout c P C Q) (weaker : ∀ p, P p → P' p) : Layout c P' C Q :=
  { layout with
    calls_inside := fun t member => weaker _ (layout.calls_inside t member)
    queued_inside := fun u member => weaker _ (layout.queued_inside u member) }

/-- Two runs whose positions lie apart lay out together. -/
theorem append (first : Layout c P C₁ Q₁) (second : Layout c P' C₂ Q₂)
    (separate : ∀ p q, P p → P' q → Apart p q) :
    Layout c (fun p => P p ∨ P' p) (C₁ ++ C₂) (Q₁ ++ Q₂) where
  calls_inside t member := by
    rcases List.mem_append.mp member with member | member
    · exact .inl (first.calls_inside t member)
    · exact .inr (second.calls_inside t member)
  queued_inside u member := by
    rcases List.mem_append.mp member with member | member
    · exact .inl (first.queued_inside u member)
    · exact .inr (second.queued_inside u member)
  sync t member := by
    rcases List.mem_append.mp member with member | member
    · exact first.sync t member
    · exact second.sync t member
  deferred u member := by
    rcases List.mem_append.mp member with member | member
    · exact first.deferred u member
    · exact second.deferred u member
  distinct := by
    rw [List.map_append, List.nodup_append]
    refine ⟨first.distinct, second.distinct, ?_⟩
    intro p here q there same
    obtain ⟨t, member, rfl⟩ := List.mem_map.mp here
    obtain ⟨t', member', rfl⟩ := List.mem_map.mp there
    exact (separate _ _ (first.calls_inside t member) (second.calls_inside t' member')).ne same
  apart := by
    rw [List.pairwise_append]
    exact ⟨first.apart, second.apart, fun u member u' member' =>
      separate _ _ (first.queued_inside u member) (second.queued_inside u' member')⟩
  outside t member u member' := by
    rcases List.mem_append.mp member with member | member <;>
      rcases List.mem_append.mp member' with member' | member'
    · exact first.outside t member u member'
    · exact (separate _ _ (first.calls_inside t member) (second.queued_inside u member')).2
    · exact (separate _ _ (first.queued_inside u member') (second.calls_inside t member)).1
    · exact second.outside t member u member'

theorem call {t : ResolveTask} (sync : ¬ t.Deferred c) (value : Layout c (Beneath t.path) C Q) :
    Layout c (t.path <+: ·) (t :: C) Q where
  calls_inside t' member := by
    rcases List.mem_cons.mp member with rfl | member
    · exact List.prefix_refl _
    · exact (value.calls_inside t' member).1
  queued_inside u member := (value.queued_inside u member).1
  sync t' member := by
    rcases List.mem_cons.mp member with rfl | member
    · exact sync
    · exact value.sync t' member
  deferred := value.deferred
  distinct := by
    refine List.nodup_cons.mpr ⟨fun here => ?_, value.distinct⟩
    obtain ⟨t', member, same⟩ := List.mem_map.mp here
    have longer := (value.calls_inside t' member).2
    rw [same] at longer
    exact lt_irrefl _ longer
  apart := value.apart
  outside t' member u member' := by
    rcases List.mem_cons.mp member with rfl | member
    · intro above
      have longer := (value.queued_inside u member').2
      have := above.length_le
      omega
    · exact value.outside t' member u member'

theorem queue {u : AsyncTask} (deferred : u.task.Deferred c) : Layout c (u.task.path <+: ·) [] [u] where
  calls_inside := by simp
  queued_inside u' member := by
    obtain rfl := List.mem_singleton.mp member
    exact List.prefix_refl _
  sync := by simp
  deferred u' member := by
    obtain rfl := List.mem_singleton.mp member
    exact deferred
  distinct := .nil
  apart := List.pairwise_singleton _ _
  outside := by simp

end Layout

/-- A run from `st` to `st'` asked the runtime and queued as `Layout` says, within `inside`. -/
def LaidOut (log : σ → List ResolveTask) (c : ExecContext σ) (inside : Path → Prop)
    (st st' : ExecState σ) : Prop :=
  ∃ calls queued, Traced log st st' calls queued ∧ Layout c inside calls queued

namespace LaidOut

variable {log : σ → List ResolveTask} {c : ExecContext σ} {P P' : Path → Prop}
  {st st₁ st₂ st₃ : ExecState σ}

theorem of_traced (traced : Traced log st st' [] []) : LaidOut log c P st st' :=
  ⟨[], [], traced, .nil⟩

theorem mono (laidOut : LaidOut log c P st st') (weaker : ∀ p, P p → P' p) :
    LaidOut log c P' st st' := by
  obtain ⟨calls, queued, traced, layout⟩ := laidOut
  exact ⟨calls, queued, traced, layout.mono weaker⟩

theorem trans (first : LaidOut log c P st₁ st₂) (second : LaidOut log c P' st₂ st₃)
    (separate : ∀ p q, P p → P' q → Apart p q) :
    LaidOut log c (fun p => P p ∨ P' p) st₁ st₃ := by
  obtain ⟨C₁, Q₁, traced₁, layout₁⟩ := first
  obtain ⟨C₂, Q₂, traced₂, layout₂⟩ := second
  exact ⟨C₁ ++ C₂, Q₁ ++ Q₂, traced₁.trans traced₂, layout₁.append layout₂ separate⟩

theorem after (first : Traced log st₁ st₂ [] []) (second : LaidOut log c P st₂ st₃) :
    LaidOut log c P st₁ st₃ := by
  obtain ⟨calls, queued, traced, layout⟩ := second
  exact ⟨calls, queued, by simpa using first.trans traced, layout⟩

theorem before (first : LaidOut log c P st₁ st₂) (second : Traced log st₂ st₃ [] []) :
    LaidOut log c P st₁ st₃ := by
  obtain ⟨calls, queued, traced, layout⟩ := first
  exact ⟨calls, queued, by simpa using traced.trans second, layout⟩

theorem call {t : ResolveTask} (sync : ¬ t.Deferred c) (resolved : Traced log st₁ st₂ [t] [])
    (value : LaidOut log c (Beneath t.path) st₂ st₃) : LaidOut log c (t.path <+: ·) st₁ st₃ := by
  obtain ⟨calls, queued, traced, layout⟩ := value
  exact ⟨t :: calls, queued, by simpa using resolved.trans traced, layout.call sync⟩

end LaidOut

/-! What each completion asks and queues. -/

section Completions

variable {c : ExecContext σ} {log : σ → List ResolveTask}

theorem completeNamed_known {name : String} {r : Resolved} {o : Schema.NamedType}
    (named : completeNamed c name r = .object o) : c.schema.type? o.name = some o := by
  unfold completeNamed at named
  split at named
  · cases named
  · rename_i t found
    split at named
    case h_1 | h_2 => split at named <;> cases named
    case h_3 =>
      cases named
      exact Schema.type?_name found
    case h_4 | h_5 =>
      split at named
      · cases named
      · split at named
        · rename_i o' found'
          split at named
          · cases named
          · split at named
            · cases named
            · cases named
              exact Schema.type?_name found'
        · cases named
    case h_6 => cases named

variable {object : Schema.NamedType} {source : Resolved} {fd : Schema.Field}
  {args : List (String × Value)} {fields : List Field} {path : Path}

theorem fieldTask_not_deferred (known : c.schema.type? object.name = some object)
    (named : object.field? fd.name = some fd) (sync : (fd.async && !isSerial c path) = false) :
    ¬ (fieldTask c object source fd args fields path).Deferred c := by
  rintro ⟨object', fd', found, found', deferred⟩
  change c.schema.type? object.name = some object' at found
  change object'.field? fd.name = some fd' at found'
  rw [known] at found
  cases found
  rw [named] at found'
  cases found'
  change (fd.async && !isSerial c path) = true at deferred
  rw [sync] at deferred
  cases deferred

theorem fieldTask_deferred (known : c.schema.type? object.name = some object)
    (named : object.field? fd.name = some fd) (queues : (fd.async && !isSerial c path) = true) :
    (fieldTask c object source fd args fields path).Deferred c :=
  ⟨object, fd, known, named, queues⟩

end Completions

section Runs

variable {c : ExecContext σ} {log : σ → List ResolveTask}

theorem apart_of_keys {path : Path} {g : FieldGroup} {rest : List FieldGroup}
    (distinct : ((g :: rest).map (·.key)).Nodup) {p q : Path} (here : path ++ [.key g.key] <+: p)
    (there : ∃ g' ∈ rest, path ++ [.key g'.key] <+: q) : Apart p q := by
  obtain ⟨g', member, there⟩ := there
  have fresh : g.key ∉ rest.map (·.key) := (List.nodup_cons.mp distinct).1
  have differs : PathSegment.key g.key ≠ .key g'.key := fun same =>
    fresh (List.mem_map.mpr ⟨g', member, (PathSegment.key.inj same).symm⟩)
  exact (apart_steps differs).extend here there

mutual

theorem SelectionsRun.laidOut (logs : c.runtime.Logs log)
    {path object selections source boundary st r st'}
    (known : c.schema.type? object.name = some object)
    (run : SelectionsRun c object selections source path boundary st r st') :
    LaidOut log c (Beneath path) st st' := by
  match run with
  | .collect groups =>
    exact (groups.laidOut logs known ((collectContext c).collect_nodup _ _)).mono
      (by rintro _ ⟨_, _, below⟩; exact beneath_of_prefix below)
termination_by structural run

/-- Field groups lie beneath their keys, which are distinct. -/
theorem GroupsRun.laidOut (logs : c.runtime.Logs log)
    {path object source boundary groups acc st r st'}
    (known : c.schema.type? object.name = some object) (distinct : (groups.map (·.key)).Nodup)
    (run : GroupsRun c object source path boundary groups acc st r st') :
    LaidOut log c (fun q => ∃ g ∈ groups, path ++ [.key g.key] <+: q) st st' := by
  match run, distinct with
  | .nil, _ => exact .of_traced (Traced.refl _)
  | .empty _ rest, distinct | .typename _ _ rest, distinct =>
    exact (rest.laidOut logs known (List.nodup_cons.mp distinct).2).mono
      fun _ later => List.exists_mem_cons_of_exists later
  | .unknown _ _ _ recorded rest, distinct =>
    exact LaidOut.after (traced_addError recorded)
      ((rest.laidOut logs known (List.nodup_cons.mp distinct).2).mono
        fun _ later => List.exists_mem_cons_of_exists later)
  | .pending _ _ found field rest, distinct | .value _ _ found field _ rest, distinct =>
    exact ((field.laidOut logs known (Schema.NamedType.field?_name found)).trans
      (rest.laidOut logs known (List.nodup_cons.mp distinct).2)
      fun _ _ here there => apart_of_keys distinct here there).mono
        fun _ placed => (List.exists_mem_cons_iff _ _ _).mpr placed
  | .nulled _ _ found field _ marked, _ =>
    exact ((field.laidOut logs known (Schema.NamedType.field?_name found)).before
      (traced_markNullified marked)).mono fun _ here => List.exists_mem_cons_of _ here
termination_by structural run

/-- A field asks for itself at once unless it is deferred, in which case it is queued and asks
nothing. -/
theorem FieldRun.laidOut (logs : c.runtime.Logs log)
    {path object source fd fields boundary st outcome st'}
    (known : c.schema.type? object.name = some object) (named : object.field? fd.name = some fd)
    (run : FieldRun c object source fd fields path boundary st outcome st') :
    LaidOut log c (path <+: ·) st st' := by
  match run with
  | .argumentError _ recorded => exact .of_traced (traced_addError recorded)
  | .queued _ queues queued =>
    exact ⟨[], [_], traced_enqueue queued,
      @Layout.queue σ c ⟨fieldTask c object source fd _ fields path, fd.type, boundary⟩
        (fieldTask_deferred known named queues)⟩
  | .resolveError _ sync resolved recorded =>
    exact .call (fieldTask_not_deferred known named sync) (traced_resolve logs resolved)
      (.of_traced (traced_addFieldError recorded))
  | .resolved _ sync resolved value =>
    exact .call (fieldTask_not_deferred known named sync) (traced_resolve logs resolved)
      (value.laidOut logs)
termination_by structural run

theorem ValueRun.laidOut (logs : c.runtime.Logs log)
    {path type fields result boundary st v st'}
    (run : ValueRun c type fields result path boundary st v st') :
    LaidOut log c (Beneath path) st st' := by
  match run with
  | .nonNullNull settled _ reported =>
    exact .of_traced ((traced_settle settled).trans (traced_reportNull reported))
  | .nonNull settled _ inner => exact .after (traced_settle settled) (inner.laidOut logs)
  | .listNull settled _ | .namedNull settled _ | .leaf settled _ _ =>
    exact .of_traced (traced_settle settled)
  | .list settled _ list => exact .after (traced_settle settled) (list.laidOut logs)
  | .fail settled _ _ recorded =>
    exact .of_traced ((traced_settle settled).trans (traced_addError recorded))
  | .raise settled _ _ recorded =>
    exact .of_traced ((traced_settle settled).trans (traced_addFieldError recorded))
  | .object settled _ named object =>
    exact .after (traced_settle settled) (object.laidOut logs (completeNamed_known named))
termination_by structural run

theorem ListRun.laidOut (logs : c.runtime.Logs log)
    {path inner fields result boundary st v st'}
    (run : ListRun c inner fields result path boundary st v st') :
    LaidOut log c (Beneath path) st st' := by
  match run with
  | .items items | .nulled items =>
    exact (items.laidOut logs).mono (by rintro _ ⟨_, _, below⟩; exact beneath_of_prefix below)
  | .notList _ recorded => exact .of_traced (traced_addError recorded)
termination_by structural run

/-- List items lie beneath their indices, from the item at hand on. -/
theorem ItemsRun.laidOut (logs : c.runtime.Logs log)
    {path inner fields boundary index items acc st r st'}
    (run : ItemsRun c inner fields path boundary index items acc st r st') :
    LaidOut log c (fun q => ∃ j, index ≤ j ∧ path ++ [.index j] <+: q) st st' := by
  match run with
  | .nil => exact .of_traced (Traced.refl _)
  | .nulled item _ marked =>
    exact ((item.laidOut logs).before (traced_markNullified marked)).mono
      fun _ below => ⟨index, le_refl _, below.1⟩
  | .next item _ rest =>
    have separate : ∀ p q, Beneath (path ++ [.index index]) p →
        (∃ j, index + 1 ≤ j ∧ path ++ [.index j] <+: q) → Apart p q := by
      rintro p q here ⟨j, later, there⟩
      have differs : PathSegment.index index ≠ .index j := fun same => by
        cases same
        omega
      exact (apart_steps differs).extend here.1 there
    have widen : ∀ q, (Beneath (path ++ [.index index]) q ∨
        ∃ j, index + 1 ≤ j ∧ path ++ [.index j] <+: q) → ∃ j, index ≤ j ∧ path ++ [.index j] <+: q := by
      rintro q (here | ⟨j, later, there⟩)
      · exact ⟨index, le_refl _, here.1⟩
      · exact ⟨j, by omega, there⟩
    exact ((item.laidOut logs).trans (rest.laidOut logs) separate).mono widen
termination_by structural run

theorem ObjectRun.laidOut (logs : c.runtime.Logs log)
    {path object fields result boundary st v st'}
    (known : c.schema.type? object.name = some object)
    (run : ObjectRun c object fields result path boundary st v st') :
    LaidOut log c (Beneath path) st st' := by
  match run with
  | .fields selections | .nulled selections => exact selections.laidOut logs known
termination_by structural run

end

end Runs

section Batches

variable {c : ExecContext σ} {log : σ → List ResolveTask} {fuel : Nat}

theorem laidOut_completeAsync (logs : c.runtime.Logs log) {t : AsyncTask}
    {result : Except FieldError Resolved} {tree tree' : ResponseValue} {st st' : ExecState σ}
    (h : (completeAsync c fuel t result tree).run st = some (tree', st')) :
    LaidOut log c (Beneath t.task.path) st st' := by
  rcases completeAsync_cases h with ⟨-, -, rfl⟩ | ⟨-, v, st₁, completed, placed⟩
  · exact .of_traced (Traced.refl _)
  · have finished : LaidOut log c (Beneath t.task.path) st st₁ := by
      cases result with
      | error e =>
        simp only [completeResult, run_bind_eq_some, run_pure_eq_some] at completed
        obtain ⟨⟨⟩, st₂, recorded, rfl, rfl⟩ := completed
        exact .of_traced (traced_addFieldError recorded)
      | ok r => exact ((sound c fuel).value _ _ _ _ _ _ _ _ completed).laidOut logs
    exact finished.before (traced_placeAsync placed)

/-- Completing the results of a batch of fields that lie apart asks and queues beneath the
batch. -/
theorem laidOut_completeBatch (logs : c.runtime.Logs log) :
    ∀ (pairs : List (AsyncTask × Except FieldError Resolved)) {tree tree' : ResponseValue}
      {st st' : ExecState σ},
      (pairs.map (·.1)).Pairwise (fun u u' => Apart u.task.path u'.task.path) →
      (completeBatch c fuel tree pairs).run st = some (tree', st') →
      LaidOut log c (fun p => ∃ x ∈ pairs, Beneath x.1.task.path p) st st'
  | [], tree, tree', st, st', _, h => by
    simp only [completeBatch, run_pure_eq_some] at h
    obtain ⟨rfl, rfl⟩ := h
    exact .of_traced (Traced.refl _)
  | (t, r) :: rest, tree, tree', st, st', apart, h => by
    simp only [completeBatch, run_bind_eq_some] at h
    obtain ⟨tree₁, st₁, step, st₂, st₃, got, h⟩ := h
    simp [get, getThe, MonadStateOf.get] at got
    obtain ⟨rfl, rfl⟩ := got
    rw [List.map_cons, List.pairwise_cons] at apart
    have first := laidOut_completeAsync logs step
    split at h
    · simp only [run_pure_eq_some] at h
      obtain ⟨rfl, rfl⟩ := h
      exact first.mono fun _ below => List.exists_mem_cons_of _ below
    · have separate : ∀ p q, Beneath t.task.path p → (∃ x ∈ rest, Beneath x.1.task.path q) →
          Apart p q := by
        rintro p q here ⟨x, member, there⟩
        exact (apart.1 x.1 (List.mem_map_of_mem member)).extend here.1 there.1
      exact (first.trans (laidOut_completeBatch logs rest apart.2 h) separate).mono
        fun _ placed => (List.exists_mem_cons_iff _ _ _).mpr placed

end Batches

end Exec

end GraphWeave
