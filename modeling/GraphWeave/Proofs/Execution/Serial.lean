import GraphWeave.Proofs.Execution.Batches
import Mathlib

/-!
The root fields of a mutation run one after another. The executor runs the root fields of a mutation
in the order their groups are collected, each resolved at once and never queued.
-/

namespace GraphWeave

variable {σ : Type}

/-- A runtime whose host state keeps the log of the tasks it was asked to resolve, each
appended as it is asked, a batch's in order. -/
structure Runtime.Logs (rt : Runtime σ) (log : σ → List ResolveTask) : Prop where
  resolve : ∀ task host, log ((rt.resolve task).run host).2 = log host ++ [task]
  resolveBatch : ∀ tasks host, log ((rt.resolveBatch tasks).run host).2 = log host ++ tasks

/-- Any runtime, with the log of the tasks it was asked to resolve kept beside its host state. -/
def Runtime.traced (rt : Runtime σ) : Runtime (σ × List ResolveTask) where
  resolve task := fun (host, log) =>
    let (result, host') := (rt.resolve task).run host
    (result, (host', log ++ [task]))
  resolveBatch tasks := fun (host, log) =>
    let (results, host') := (rt.resolveBatch tasks).run host
    (results, (host', log ++ tasks))
  resolveType := rt.resolveType
  serialize := rt.serialize

theorem Runtime.traced_logs (rt : Runtime σ) : rt.traced.Logs Prod.snd :=
  ⟨fun _ _ => rfl, fun _ _ => rfl⟩

namespace Exec

/-- `q` lies strictly beneath `p`. -/
def Beneath (p q : Path) : Prop := p <+: q ∧ p.length < q.length

theorem beneath_of_prefix {p q : Path} {s : PathSegment} (below : p ++ [s] <+: q) :
    Beneath p q := by
  have longer := below.length_le
  simp only [List.length_append, List.length_singleton] at longer
  exact ⟨(List.prefix_append p [s]).trans below, by omega⟩

theorem Beneath.of_append {p q : Path} {s : PathSegment} (below : Beneath (p ++ [s]) q) :
    Beneath p q :=
  beneath_of_prefix below.1

/-- A run from `st` to `st'` asked the runtime for `calls`, in this order, and queued `queued`. -/
structure Traced (log : σ → List ResolveTask) (st st' : ExecState σ) (calls : List ResolveTask)
    (queued : List AsyncTask) : Prop where
  calls_eq : log st'.host = log st.host ++ calls
  queue_eq : st'.queue.toList = st.queue.toList ++ queued

namespace Traced

variable {log : σ → List ResolveTask}

theorem refl (st : ExecState σ) : Traced log st st [] [] :=
  ⟨by simp, by simp⟩

theorem trans {st₁ st₂ st₃ : ExecState σ} {C₁ C₂ Q₁ Q₂} (first : Traced log st₁ st₂ C₁ Q₁)
    (second : Traced log st₂ st₃ C₂ Q₂) : Traced log st₁ st₃ (C₁ ++ C₂) (Q₁ ++ Q₂) :=
  ⟨by rw [second.calls_eq, first.calls_eq, List.append_assoc],
    by rw [second.queue_eq, first.queue_eq, List.append_assoc]⟩

end Traced

/-- What a run asked of the runtime and what it queued lie at paths where `P` holds. -/
def TracedWhere (log : σ → List ResolveTask) (P : Path → Prop) (st st' : ExecState σ) : Prop :=
  ∃ calls queued, Traced log st st' calls queued ∧ (∀ t ∈ calls, P t.path) ∧
    ∀ t ∈ queued, P t.task.path

namespace TracedWhere

variable {log : σ → List ResolveTask} {P Q : Path → Prop}

theorem of_traced {st st' : ExecState σ} (traced : Traced log st st' [] []) :
    TracedWhere log P st st' :=
  ⟨[], [], traced, by simp, by simp⟩

theorem trans {st₁ st₂ st₃ : ExecState σ} (first : TracedWhere log P st₁ st₂)
    (second : TracedWhere log P st₂ st₃) : TracedWhere log P st₁ st₃ := by
  obtain ⟨C₁, Q₁, traced₁, calls₁, queued₁⟩ := first
  obtain ⟨C₂, Q₂, traced₂, calls₂, queued₂⟩ := second
  refine ⟨C₁ ++ C₂, Q₁ ++ Q₂, traced₁.trans traced₂, ?_, ?_⟩
  · intro t member
    rcases List.mem_append.mp member with member | member
    · exact calls₁ t member
    · exact calls₂ t member
  · intro t member
    rcases List.mem_append.mp member with member | member
    · exact queued₁ t member
    · exact queued₂ t member

theorem mono {st st' : ExecState σ} (traced : TracedWhere log P st st') (weaker : ∀ p, P p → Q p) :
    TracedWhere log Q st st' := by
  obtain ⟨calls, queued, traced, atCalls, atQueued⟩ := traced
  exact ⟨calls, queued, traced, fun t member => weaker _ (atCalls t member),
    fun t member => weaker _ (atQueued t member)⟩

end TracedWhere

/-! What each step of the executor asks of the runtime: only `resolve` asks, and only
`enqueue` queues. -/

section Steps

variable {log : σ → List ResolveTask} {st st' : ExecState σ} {u : Unit} {path : Path}
  {fields : List Field}

theorem traced_addError {message : String}
    (h : (addError message path fields).run st = some (u, st')) : Traced log st st' [] [] := by
  have same : st' = { st with errors := st.errors.push ⟨message, locationsOf fields, path, []⟩ } := by
    simpa [addError, eq_comm] using h
  subst same
  exact ⟨by simp, by simp⟩

theorem traced_addFieldError {e : FieldError}
    (h : (addFieldError e path fields).run st = some (u, st')) : Traced log st st' [] [] := by
  have same : st' =
      { st with errors := st.errors.push ⟨e.message, locationsOf fields, path, e.extensions⟩ } := by
    simpa [addFieldError, eq_comm] using h
  subst same
  exact ⟨by simp, by simp⟩

theorem traced_markNullified (h : (markNullified path).run st = some (u, st')) :
    Traced log st st' [] [] := by
  cases path with
  | nil =>
    have same : st' = st := by simpa [markNullified, eq_comm] using h
    subst same
    exact Traced.refl _
  | cons s rest =>
    have same : st' = { st with nullified := st.nullified ++ [s :: rest] } := by
      simpa [markNullified, eq_comm] using h
    subst same
    exact ⟨by simp, by simp⟩

theorem traced_enqueue {t : AsyncTask} (h : (enqueue t).run st = some (u, st')) :
    Traced log st st' [] [t] := by
  have same : st' = { st with queue := st.queue.push t } := by simpa [enqueue, eq_comm] using h
  subst same
  exact ⟨by simp, by simp⟩

theorem traced_resolve {c : ExecContext σ} (logs : c.runtime.Logs log) {task : ResolveTask}
    {r : Except FieldError Resolved} (h : (resolve c task).run st = some (r, st')) :
    Traced log st st' [task] [] := by
  simp only [resolve, StateT.run] at h
  obtain ⟨-, rfl⟩ := h
  exact ⟨logs.resolve task st.host, by simp⟩

theorem traced_settle {result r : Resolved} (h : (settle path fields result).run st = some (r, st')) :
    Traced log st st' [] [] := by
  cases result with
  | itemError e =>
    simp only [settle, run_bind_eq_some, run_pure_eq_some] at h
    obtain ⟨⟨⟩, st₁, recorded, rfl, rfl⟩ := h
    exact traced_addFieldError recorded
  | null | single _ | list _ =>
    simp only [settle, run_pure_eq_some] at h
    obtain ⟨rfl, rfl⟩ := h
    exact Traced.refl _

theorem traced_reportNull (h : (reportNull path fields).run st = some (u, st')) :
    Traced log st st' [] [] := by
  unfold reportNull at h
  rw [run_bind_eq_some] at h
  obtain ⟨recorded, st₁, asked, h⟩ := h
  simp only [hasErrorAt, run_bind_eq_some, run_pure_eq_some] at asked
  obtain ⟨_, _, ⟨rfl, rfl⟩, rfl, rfl⟩ := asked
  cases found : st.errors.any fun e => e.path == path with
  | true =>
    simp only [found, Bool.not_true, Bool.false_eq_true, if_false, run_pure_eq_some] at h
    obtain ⟨-, rfl⟩ := h
    exact Traced.refl _
  | false =>
    simp only [found, Bool.not_false, if_true] at h
    exact traced_addError h

theorem traced_placeAsync {t : AsyncTask} {v tree tree' : ResponseValue}
    (h : (placeAsync t v tree).run st = some (tree', st')) : Traced log st st' [] [] := by
  rcases placeAsync_cases h with ⟨-, -, -, -, rfl⟩ | ⟨-, -, -, -, marked⟩ | ⟨-, -, rfl⟩
  · exact ⟨by simp, by simp⟩
  · exact traced_markNullified marked
  · exact Traced.refl _

end Steps

/-! What a completion at a path asks and queues lies beneath the path; what a field asks and
queues lies at its path or beneath it. -/

section Completions

variable {c : ExecContext σ} {log : σ → List ResolveTask}

mutual

theorem SelectionsRun.traced (logs : c.runtime.Logs log)
    {path object selections source boundary st r st'}
    (run : SelectionsRun c object selections source path boundary st r st') :
    TracedWhere log (Beneath path) st st' := by
  match run with
  | .collect groups => exact groups.traced logs
termination_by structural run

theorem GroupsRun.traced (logs : c.runtime.Logs log)
    {path object source boundary groups acc st r st'}
    (run : GroupsRun c object source path boundary groups acc st r st') :
    TracedWhere log (Beneath path) st st' := by
  match run with
  | .nil => exact .of_traced (Traced.refl _)
  | .empty _ rest | .typename _ _ rest => exact rest.traced logs
  | .unknown _ _ _ recorded rest =>
    exact (TracedWhere.of_traced (traced_addError recorded)).trans (rest.traced logs)
  | .pending _ _ _ field rest | .value _ _ _ field _ rest =>
    exact ((field.traced logs).mono fun _ => beneath_of_prefix).trans (rest.traced logs)
  | .nulled _ _ _ field _ marked =>
    exact ((field.traced logs).mono fun _ => beneath_of_prefix).trans
      (.of_traced (traced_markNullified marked))
termination_by structural run

theorem FieldRun.traced (logs : c.runtime.Logs log)
    {path object source fd fields boundary st outcome st'}
    (run : FieldRun c object source fd fields path boundary st outcome st') :
    TracedWhere log (path <+: ·) st st' := by
  match run with
  | .argumentError _ recorded => exact .of_traced (traced_addError recorded)
  | .queued _ _ queued =>
    exact ⟨[], [_], traced_enqueue queued, by simp, by simp [fieldTask]⟩
  | .resolveError _ _ resolved recorded =>
    exact ⟨[_], [], (traced_resolve logs resolved).trans (traced_addFieldError recorded),
      by simp [fieldTask], by simp⟩
  | .resolved _ _ resolved value =>
    have asked : TracedWhere log (path <+: ·) _ _ :=
      ⟨[_], [], traced_resolve logs resolved, by simp [fieldTask], by simp⟩
    exact asked.trans ((value.traced logs).mono fun _ below => below.1)
termination_by structural run

theorem ValueRun.traced (logs : c.runtime.Logs log)
    {path type fields result boundary st v st'}
    (run : ValueRun c type fields result path boundary st v st') :
    TracedWhere log (Beneath path) st st' := by
  match run with
  | .nonNullNull settled _ reported =>
    exact .of_traced ((traced_settle settled).trans (traced_reportNull reported))
  | .nonNull settled _ inner =>
    exact (TracedWhere.of_traced (traced_settle settled)).trans (inner.traced logs)
  | .listNull settled _ | .namedNull settled _ | .leaf settled _ _ =>
    exact .of_traced (traced_settle settled)
  | .list settled _ list =>
    exact (TracedWhere.of_traced (traced_settle settled)).trans (list.traced logs)
  | .fail settled _ _ recorded =>
    exact .of_traced ((traced_settle settled).trans (traced_addError recorded))
  | .raise settled _ _ recorded =>
    exact .of_traced ((traced_settle settled).trans (traced_addFieldError recorded))
  | .object settled _ _ object =>
    exact (TracedWhere.of_traced (traced_settle settled)).trans (object.traced logs)
termination_by structural run

theorem ListRun.traced (logs : c.runtime.Logs log)
    {path inner fields result boundary st v st'}
    (run : ListRun c inner fields result path boundary st v st') :
    TracedWhere log (Beneath path) st st' := by
  match run with
  | .items items | .nulled items => exact items.traced logs
  | .notList _ recorded => exact .of_traced (traced_addError recorded)
termination_by structural run

theorem ItemsRun.traced (logs : c.runtime.Logs log)
    {path inner fields boundary index items acc st r st'}
    (run : ItemsRun c inner fields path boundary index items acc st r st') :
    TracedWhere log (Beneath path) st st' := by
  match run with
  | .nil => exact .of_traced (Traced.refl _)
  | .nulled item _ marked =>
    exact ((item.traced logs).mono fun _ => Beneath.of_append).trans
      (.of_traced (traced_markNullified marked))
  | .next item _ rest =>
    exact ((item.traced logs).mono fun _ => Beneath.of_append).trans (rest.traced logs)
termination_by structural run

theorem ObjectRun.traced (logs : c.runtime.Logs log)
    {path object fields result boundary st v st'}
    (run : ObjectRun c object fields result path boundary st v st') :
    TracedWhere log (Beneath path) st st' := by
  match run with
  | .fields selections | .nulled selections => exact selections.traced logs
termination_by structural run

end

end Completions

/-! The turns of the root fields of a mutation. -/

section Turns

variable {c : ExecContext σ} {log : σ → List ResolveTask}

/-- The task a field group at `path` resolves: none for `__typename`, for a field the object
does not have, or for arguments that do not coerce. -/
def groupTask (c : ExecContext σ) (object : Schema.NamedType) (source : Resolved) (path : Path)
    (g : FieldGroup) : Option ResolveTask :=
  match g.fields with
  | [] => none
  | first :: _ =>
    if first.name = "__typename" then none
    else (object.field? first.name).bind fun fd =>
      (c.schema.coerceArguments c.variableValues fd (writtenArguments g.fields)).toOption.map
        fun args => fieldTask c object source fd args g.fields (path ++ [.key g.key])

theorem groupTask_of_field {object : Schema.NamedType} {source : Resolved} {path : Path}
    {g : FieldGroup} {first : Field} {others : List Field} {fd : Schema.Field}
    (fields : g.fields = first :: others) (named : first.name ≠ "__typename")
    (found : object.field? first.name = some fd) :
    groupTask c object source path g =
      (c.schema.coerceArguments c.variableValues fd (writtenArguments g.fields)).toOption.map
        fun args => fieldTask c object source fd args g.fields (path ++ [.key g.key]) := by
  simp [groupTask, fields, named, found]

/-- The calls of one field's turn: its task first, then only calls strictly beneath it; none
when there is no task. -/
def Turn (task? : Option ResolveTask) (path : Path) (calls : List ResolveTask) : Prop :=
  match task? with
  | none => calls = []
  | some task => ∃ rest, calls = task :: rest ∧ ∀ t ∈ rest, Beneath path t.path

/-- A group whose field the object has, at a non-null type. -/
def NonNullField (object : Schema.NamedType) (g : FieldGroup) : Prop :=
  ∃ first others fd, g.fields = first :: others ∧ object.field? first.name = some fd ∧
    fd.type.isNonNull = true

/-- A field at a path that runs serially is resolved at once: its turn asks for its own task,
then for tasks beneath it, and what it queues lies beneath it. -/
theorem FieldRun.turn (logs : c.runtime.Logs log) {path object source fd fields boundary st outcome st'}
    (run : FieldRun c object source fd fields path boundary st outcome st')
    (serial : isSerial c path = true) :
    ∃ calls queued, Traced log st st' calls queued ∧
      Turn ((c.schema.coerceArguments c.variableValues fd (writtenArguments fields)).toOption.map
        fun args => fieldTask c object source fd args fields path) path calls ∧
      ∀ t ∈ queued, Beneath path t.task.path := by
  match run with
  | .argumentError coerced recorded =>
    exact ⟨[], [], traced_addError recorded, by simp [Turn, coerced, Except.toOption], by simp⟩
  | .queued _ queues _ => simp [serial] at queues
  | .resolveError coerced _ answered recorded =>
    refine ⟨_, [], (traced_resolve logs answered).trans (traced_addFieldError recorded), ?_, by simp⟩
    simp only [coerced, Except.toOption, Option.map_some]
    exact ⟨[], rfl, by simp⟩
  | .resolved coerced _ answered value =>
    obtain ⟨calls, queued, traced, atCalls, atQueued⟩ := value.traced logs
    refine ⟨_, queued, (traced_resolve logs answered).trans traced, ?_, by simpa using atQueued⟩
    simp only [coerced, Except.toOption, Option.map_some]
    exact ⟨calls, rfl, atCalls⟩

theorem FieldRun.queues {path object source fd fields boundary st st'}
    (run : FieldRun c object source fd fields path boundary st .pending st') :
    (fd.async && !isSerial c path) = true := by
  match run with
  | .queued _ queues _ => exact queues

/-- The root groups of a mutation taking their turns one after another, from `st` to `st'`.
Each turn asks for its group's own task and then only beneath it, and queues only beneath it. A
group whose field completes to null at a non-null type takes the last turn and stops the run; a
group whose field completes to anything else, or that has no field to resolve, lets the next
group take its turn. -/
inductive Turns (c : ExecContext σ) (log : σ → List ResolveTask) (object : Schema.NamedType)
    (source : Resolved) :
    List FieldGroup → ExecState σ → List (List ResolveTask) → Bool → ExecState σ → Prop
  | finished {st} : Turns c log object source [] st [] false st
  | empty {g rest st turns stopped st'} :
      g.fields = [] → Turns c log object source rest st turns stopped st' →
      Turns c log object source (g :: rest) st ([] :: turns) stopped st'
  | typename {g rest st turns stopped st' first others} :
      g.fields = first :: others → first.name = "__typename" →
      Turns c log object source rest st turns stopped st' →
      Turns c log object source (g :: rest) st ([] :: turns) stopped st'
  | unknown {g rest st st₁ turns stopped st' first others} :
      g.fields = first :: others → first.name ≠ "__typename" → object.field? first.name = none →
      (addError ("Cannot query field '" ++ first.name ++ "' on type '" ++ object.name ++ "'")
        [.key g.key] g.fields).run st = some (⟨⟩, st₁) →
      Turns c log object source rest st₁ turns stopped st' →
      Turns c log object source (g :: rest) st ([] :: turns) stopped st'
  | halted {g rest st st₁ st' first others fd turn queued} :
      g.fields = first :: others → first.name ≠ "__typename" → object.field? first.name = some fd →
      FieldRun c object source fd g.fields [.key g.key] (boundaryOf fd.type [] [.key g.key]) st
        (.done .null) st₁ →
      fd.type.isNonNull = true → (markNullified []).run st₁ = some (⟨⟩, st') →
      Traced log st st' turn queued → Turn (groupTask c object source [] g) [.key g.key] turn →
      (∀ t ∈ queued, Beneath [.key g.key] t.task.path) →
      Turns c log object source (g :: rest) st [turn] true st'
  | passed {g rest st st₁ st' first others fd v turn queued turns stopped} :
      g.fields = first :: others → first.name ≠ "__typename" → object.field? first.name = some fd →
      FieldRun c object source fd g.fields [.key g.key] (boundaryOf fd.type [] [.key g.key]) st
        (.done v) st₁ →
      (v.isNull = true → fd.type.isNonNull = false) →
      Traced log st st₁ turn queued → Turn (groupTask c object source [] g) [.key g.key] turn →
      (∀ t ∈ queued, Beneath [.key g.key] t.task.path) →
      Turns c log object source rest st₁ turns stopped st' →
      Turns c log object source (g :: rest) st (turn :: turns) stopped st'

theorem deep_of_beneath {k : String} {p : Path} (below : Beneath [.key k] p) : 2 ≤ p.length := by
  have longer := below.2
  simp only [List.length_singleton] at longer
  omega

namespace Turns

variable {object : Schema.NamedType} {source : Resolved}

/-- What the turns ask for is their calls in order, and what they queue lies beneath a root
field. -/
theorem traced {groups st turns stopped st'}
    (run : Turns c log object source groups st turns stopped st') :
    ∃ queued, Traced log st st' turns.flatten queued ∧ ∀ t ∈ queued, 2 ≤ t.task.path.length := by
  induction run with
  | finished => exact ⟨[], by simpa using Traced.refl _, by simp⟩
  | empty _ _ ih | typename _ _ _ ih => simpa using ih
  | unknown _ _ _ recorded _ ih =>
    obtain ⟨queued, traced, deep⟩ := ih
    exact ⟨queued, by simpa using (traced_addError recorded).trans traced, deep⟩
  | halted _ _ _ _ _ _ traced _ beneath =>
    exact ⟨_, by simpa using traced, fun t member => deep_of_beneath (beneath t member)⟩
  | passed _ _ _ _ _ traced _ beneath _ ih =>
    obtain ⟨queued, traced', deep⟩ := ih
    refine ⟨_, by simpa using traced.trans traced', fun t member => ?_⟩
    rcases List.mem_append.mp member with member | member
    · exact deep_of_beneath (beneath t member)
    · exact deep t member

end Turns

/-- How the calls of a mutation's run from `host` lie: the turns of the root groups from the
state the run starts in, then the calls of the batches, each at least two steps down. Turns that
stopped are followed by no batch, and the data is null. -/
def SerialCalls (c : ExecContext σ) (log : σ → List ResolveTask) (object : Schema.NamedType)
    (source : Resolved) (groups : List FieldGroup) (host : σ) (calls : List ResolveTask)
    (data : Option ResponseValue) : Prop :=
  ∃ turns stopped st later, Turns c log object source groups { host } turns stopped st ∧
    calls = turns.flatten ++ later ∧ (∀ t ∈ later, 2 ≤ t.path.length) ∧
    (stopped = true → later = [] ∧ data = none)

/-- The root field groups of a mutation take their turns in order; the turns stop exactly when
the groups give nothing. -/
theorem GroupsRun.turns (logs : c.runtime.Logs log) (mutation : c.operation.kind = .mutation)
    {path object source boundary groups acc st r st'}
    (run : GroupsRun c object source path boundary groups acc st r st') (root : path = [])
    (rootBoundary : boundary = []) :
    ∃ turns stopped, Turns c log object source groups st turns stopped st' ∧
      (r = none ↔ stopped = true) := by
  have serial : ∀ k, isSerial c (path ++ [.key k]) = true := fun k => by
    simp [isSerial, mutation, root]
  match run with
  | .nil => exact ⟨[], false, .finished, by simp⟩
  | .empty noFields rest =>
    obtain ⟨turns, stopped, later, stops⟩ := rest.turns logs mutation root rootBoundary
    exact ⟨_, stopped, .empty noFields later, stops⟩
  | .typename fields named rest =>
    obtain ⟨turns, stopped, later, stops⟩ := rest.turns logs mutation root rootBoundary
    exact ⟨_, stopped, .typename fields named later, stops⟩
  | .unknown fields named missing recorded rest =>
    obtain ⟨turns, stopped, later, stops⟩ := rest.turns logs mutation root rootBoundary
    subst root
    exact ⟨_, stopped, .unknown fields named missing (by simpa using recorded) later, stops⟩
  | .pending _ _ _ field _ =>
    have queues := field.queues
    simp [serial] at queues
  | .nulled fields named found field nonNull marked =>
    obtain ⟨calls, queued, traced, own, beneath⟩ := field.turn logs (serial _)
    rw [← groupTask_of_field fields named found] at own
    subst root rootBoundary
    exact ⟨_, true, .halted fields named found (by simpa using field) nonNull marked
      (by simpa using traced.trans (traced_markNullified marked)) (by simpa using own)
      (by simpa using beneath), by simp⟩
  | .value fields named found field notNull rest =>
    obtain ⟨calls, queued, traced, own, beneath⟩ := field.turn logs (serial _)
    rw [← groupTask_of_field fields named found] at own
    obtain ⟨turns, stopped, later, stops⟩ := rest.turns logs mutation root rootBoundary
    subst root rootBoundary
    exact ⟨_, stopped, .passed fields named found (by simpa using field) notNull traced
      (by simpa using own) (by simpa using beneath) later, stops⟩
termination_by structural run

end Turns

/-! The batches after the root fields. -/

section Batches

variable {c : ExecContext σ} {log : σ → List ResolveTask}

theorem traced_resolveAll (logs : c.runtime.Logs log) {tasks : List AsyncTask}
    {st st' : ExecState σ} {rs : List (Except FieldError Resolved)}
    (h : (resolveAll c tasks).run st = some (rs, st')) : Traced log st st' (tasks.map (·.task)) [] := by
  unfold resolveAll at h
  split at h
  · rename_i empty
    simp only [run_pure_eq_some] at h
    obtain ⟨rfl, rfl⟩ := h
    simpa [List.isEmpty_iff.mp empty] using Traced.refl st
  · simp only [run_bind_eq_some, run_pure_eq_some] at h
    obtain ⟨results, st₁, resolved, rfl, rfl⟩ := h
    simp only [resolveBatch, StateT.run] at resolved
    obtain ⟨-, rfl⟩ := resolved
    exact ⟨logs.resolveBatch _ st.host, by simp⟩

theorem traced_completeAsync (logs : c.runtime.Logs log) {fuel : Nat} {t : AsyncTask}
    {result : Except FieldError Resolved} {tree tree' : ResponseValue} {st st' : ExecState σ}
    (h : (completeAsync c fuel t result tree).run st = some (tree', st')) :
    TracedWhere log (Beneath t.task.path) st st' := by
  rcases completeAsync_cases h with ⟨-, -, rfl⟩ | ⟨-, v, st₁, completed, placed⟩
  · exact .of_traced (Traced.refl _)
  · have finished : TracedWhere log (Beneath t.task.path) st st₁ := by
      cases result with
      | error e =>
        simp only [completeResult, run_bind_eq_some, run_pure_eq_some] at completed
        obtain ⟨⟨⟩, st₂, recorded, rfl, rfl⟩ := completed
        exact .of_traced (traced_addFieldError recorded)
      | ok r => exact ((sound c fuel).value _ _ _ _ _ _ _ _ completed).traced logs
    exact finished.trans (.of_traced (traced_placeAsync placed))

/-- A batch of fields at least two steps down asks and queues only at least two steps down. -/
theorem traced_completeBatch (logs : c.runtime.Logs log) {fuel : Nat} :
    ∀ (pairs : List (AsyncTask × Except FieldError Resolved)) {tree tree' : ResponseValue}
      {st st' : ExecState σ}, (∀ p ∈ pairs, 2 ≤ p.1.task.path.length) →
      (completeBatch c fuel tree pairs).run st = some (tree', st') →
      TracedWhere log (2 ≤ List.length ·) st st'
  | [], tree, tree', st, st', _, h => by
    simp only [Exec.completeBatch, run_pure_eq_some] at h
    obtain ⟨rfl, rfl⟩ := h
    exact .of_traced (Traced.refl _)
  | (t, r) :: rest, tree, tree', st, st', deep, h => by
    simp only [Exec.completeBatch, run_bind_eq_some] at h
    obtain ⟨tree₁, st₁, step, st₂, st₃, got, h⟩ := h
    simp [get, getThe, MonadStateOf.get] at got
    obtain ⟨rfl, rfl⟩ := got
    have first : TracedWhere log (2 ≤ List.length ·) st st₁ :=
      (traced_completeAsync logs step).mono fun _ below =>
        (deep (t, r) List.mem_cons_self).trans below.2.le
    split at h
    · simp only [run_pure_eq_some] at h
      obtain ⟨rfl, rfl⟩ := h
      exact first
    · exact first.trans
        (traced_completeBatch logs rest (fun p member => deep p (List.mem_cons_of_mem _ member)) h)

/-- Batches of fields at least two steps down ask only for tasks at least two steps down. -/
theorem traced_runBatches (logs : c.runtime.Logs log) {fuel : Nat} (rounds : Nat)
    {tree tree' : ResponseValue} {st st' : ExecState σ}
    (deep : ∀ t ∈ st.queue.toList, 2 ≤ t.task.path.length)
    (h : (runBatches c fuel rounds tree).run st = some (tree', st')) :
    ∃ later, log st'.host = log st.host ++ later ∧ ∀ t ∈ later, 2 ≤ t.path.length := by
  induction rounds generalizing tree st with
  | zero =>
    rcases runBatches_cases h with ⟨-, rfl, rfl⟩ | ⟨_, impossible, _⟩
    · exact ⟨[], by simp, by simp⟩
    · cases impossible
  | succ rounds ih =>
    rcases runBatches_cases h with ⟨-, rfl, rfl⟩ |
      ⟨_, same, -, results, st₁, tree₁, st₂, resolved, batch, rest⟩
    · exact ⟨[], by simp, by simp⟩
    · cases same
      have live : ∀ t ∈ st.queue.toList.filter (fun t => !isNullified st t.task.path),
          2 ≤ t.task.path.length := fun t member => deep t (List.mem_of_mem_filter member)
      have asked := traced_resolveAll logs resolved
      obtain ⟨calls, queued, completed, atCalls, atQueued⟩ :=
        traced_completeBatch logs _ (fun p member => live p.1 (List.of_mem_zip member).1) batch
      have both := asked.trans completed
      obtain ⟨later, logged, atLater⟩ := ih (by simpa [both.queue_eq] using atQueued) rest
      refine ⟨(st.queue.toList.filter fun t => !isNullified st t.task.path).map (·.task) ++ calls ++
        later, by rw [logged, both.calls_eq]; simp, ?_⟩
      intro t member
      simp only [List.mem_append, List.mem_map] at member
      rcases member with (⟨u, member, rfl⟩ | member) | member
      · exact live u member
      · exact atCalls t member
      · exact atLater t member

end Batches

theorem SelectionsRun.rootTurns {c : ExecContext σ} {log : σ → List ResolveTask}
    (logs : c.runtime.Logs log) (mutation : c.operation.kind = .mutation)
    {object selections source st r st'}
    (run : SelectionsRun c object selections source [] [] st r st') :
    ∃ turns stopped, Turns c log object source ((collectContext c).collect object.name selections)
      st turns stopped st' ∧ (r = none ↔ stopped = true) := by
  match run with
  | .collect groups => exact groups.turns logs mutation rfl rfl

end Exec

namespace Schema

open Exec

/-- A mutation run within a budget runs out of it and leaves the host as it was, or asks the
runtime for the turns of its root fields and then for tasks beneath root fields. -/
theorem runOperationWithin_serial (budget : Nat) (s : Schema) {rt : Runtime σ}
    {log : σ → List ResolveTask} (logs : rt.Logs log) (doc : Document) {op : Operation}
    (mutation : op.kind = .mutation) (rootType : NamedType) (vars : List (String × Value))
    (root : Resolved) (host : σ) :
    s.runOperationWithin budget rt doc op rootType vars root host = (none, host) ∨
      ∃ result host', s.runOperationWithin budget rt doc op rootType vars root host =
        (some result, host') ∧ ∃ calls, log host' = log host ++ calls ∧
        SerialCalls ⟨rt, s, doc, op, vars⟩ log rootType root
          ((collectContext ⟨rt, s, doc, op, vars⟩).collect rootType.name op.selections) host calls
          result.data := by
  rcases runOperationWithin_eq budget s rt doc op rootType vars root host with
    ran | ⟨st₁, selected, ran⟩ | ⟨fs, st₁, tree, st, selected, batches, ran⟩
  · exact .inl ran
  · refine .inr ⟨_, _, ran, ?_⟩
    obtain ⟨turns, stopped, inTurns, stops⟩ :=
      ((sound _ budget).selections _ _ _ _ _ _ _ _ selected).rootTurns logs mutation
    obtain ⟨queued, traced, -⟩ := inTurns.traced
    exact ⟨turns.flatten, by simpa using traced.calls_eq, turns, stopped, _, [], inTurns, by simp,
      by simp, fun _ => ⟨rfl, rfl⟩⟩
  · refine .inr ⟨_, _, ran, ?_⟩
    obtain ⟨turns, stopped, inTurns, stops⟩ :=
      ((sound _ budget).selections _ _ _ _ _ _ _ _ selected).rootTurns logs mutation
    obtain ⟨queued, traced, deep⟩ := inTurns.traced
    have queue : st₁.queue.toList = queued := by simpa using traced.queue_eq
    obtain ⟨later, logged, atLater⟩ := traced_runBatches logs budget (queue ▸ deep) batches
    refine ⟨turns.flatten ++ later, by rw [logged, traced.calls_eq]; simp, turns, stopped, _, later,
      inTurns, rfl, atLater, fun stopped => ?_⟩
    cases stops.mpr stopped

/-- The root fields of a mutation run one after another. The response keys of the root groups
are distinct. A run that does not run out of its budget takes the root groups in the order
collected, from the state it starts in: each group's turn asks the runtime for the group's own
task (unless it is __typename, a field the type does not have, or one whose arguments do not
coerce) and then only for tasks strictly beneath it, before the next group's turn. A non-null
root field that completes to null takes the last turn, and the data is null; any other group
lets the next one take its turn. After all turns, the batches ask only for tasks beneath root
fields. -/
theorem mutation_root_fields_serial {s : Schema} {rt : Runtime σ} {log : σ → List ResolveTask}
    (logs : rt.Logs log) {doc : Document} {op : Operation} (mutation : op.kind = .mutation)
    (rootType : NamedType) (vars : List (String × Value)) (root : Resolved) (host : σ) :
    let c : ExecContext σ := ⟨rt, s, doc, op, vars⟩
    let groups := (collectContext c).collect rootType.name op.selections
    (groups.map (·.key)).Nodup ∧
      ((s.runOperation rt doc op rootType vars root host) =
          (.failure { message := "execution did not finish within its budget" }, host) ∨
        ∃ calls, log (s.runOperation rt doc op rootType vars root host).2 = log host ++ calls ∧
          SerialCalls c log rootType root groups host calls
            (s.runOperation rt doc op rootType vars root host).1.data) := by
  intro c groups
  refine ⟨(collectContext c).collect_nodup _ _, ?_⟩
  rcases runOperationWithin_serial executionBudget s logs doc mutation rootType vars root host with
    ran | ⟨result, host', ran, calls, logged, serial⟩
  case inl =>
    left
    simp [runOperation, ran, bind, StateT.bind, pure, StateT.pure]
  case inr =>
    right
    have answered : s.runOperation rt doc op rootType vars root host = (result, host') := by
      simp [runOperation, ran, bind, StateT.bind, pure, StateT.pure]
    rw [answered]
    exact ⟨calls, logged, serial⟩

/-- The root type of a mutation whose first root field is an object with a field resolved in a
batch, and whose second root field is a leaf. -/
def firstThenSecondRoot : NamedType :=
  { name := "Mutation", kind := .object,
    fields := [{ name := "first", type := .named "Wrapper" }, { name := "second", type := .named "Leaf" }] }

/-- The schema of `firstThenSecondRoot`: `Wrapper.q` is resolved in a batch. -/
def firstThenSecondSchema : Schema where
  mutation := "Mutation"
  types := [firstThenSecondRoot,
    { name := "Wrapper", kind := .object, fields := [{ name := "q", type := .named "Leaf", async := true }] },
    { name := "Leaf", kind := .scalar }]

/-- The operation `mutation { first { q } second }`. -/
def firstThenSecond : Operation :=
  ⟨.mutation, "", [], [], [.field ⟨"first", "first", [], [], [.field ⟨"q", "q", [], [], [], ⟨1, 20⟩⟩], ⟨1, 12⟩⟩,
    .field ⟨"second", "second", [], [], [], ⟨1, 24⟩⟩]⟩

/-- A runtime that resolves every field to the string `x` and writes every leaf as `x`. -/
def constantRuntime : Runtime Unit where
  resolve _ := pure (.ok (.single (.value (.str "x") "")))
  resolveBatch tasks := pure (tasks.map fun _ => .ok (.single (.value (.str "x") "")))
  resolveType _ _ := .error { message := "no object type" }
  serialize _ _ := .ok (.str "x")

/-- The run of `mutation { first { q } second }`, with the calls it makes logged. -/
theorem first_then_second_serial :
    let c : ExecContext (Unit × List ResolveTask) :=
      ⟨constantRuntime.traced, firstThenSecondSchema, ⟨[firstThenSecond], []⟩, firstThenSecond, []⟩
    let groups := (collectContext c).collect firstThenSecondRoot.name firstThenSecond.selections
    (groups.map (·.key)).Nodup ∧
      ((firstThenSecondSchema.runOperation constantRuntime.traced ⟨[firstThenSecond], []⟩
          firstThenSecond firstThenSecondRoot [] .null ((), [])) =
          (.failure { message := "execution did not finish within its budget" }, ((), [])) ∨
        ∃ calls, (firstThenSecondSchema.runOperation constantRuntime.traced ⟨[firstThenSecond], []⟩
            firstThenSecond firstThenSecondRoot [] .null ((), [])).2.2 = calls ∧
          SerialCalls c Prod.snd firstThenSecondRoot .null groups ((), []) calls
            (firstThenSecondSchema.runOperation constantRuntime.traced ⟨[firstThenSecond], []⟩
              firstThenSecond firstThenSecondRoot [] .null ((), [])).1.data) :=
  mutation_root_fields_serial (Runtime.traced_logs _) rfl _ _ _ _

/-- A mutation's root fields do not wait for the batches beneath them: the field `q` beneath the
first root field is resolved in a batch, after the second root field. -/
theorem batch_field_after_next_root_field :
    ((firstThenSecondSchema.runOperation constantRuntime.traced ⟨[firstThenSecond], []⟩
        firstThenSecond firstThenSecondRoot [] .null ((), [])).2.2.map (·.path)) =
      [[.key "first"], [.key "second"], [.key "first", .key "q"]] := by
  cbv

end Schema

end GraphWeave
