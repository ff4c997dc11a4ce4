import GraphWeave.Proofs.Execution.Fill
import GraphWeave.Proofs.Execution.Synchronous

/-! A deferred field comes to what completing it at once comes to.

Take a runtime that answers each field from its task alone. A completion run with fields queued
and the completion of the same value run in the erased context, where every field is resolved at
once, agree once the placeholders are filled: each placeholder filled with what its field
completes to at once (`Fills`), the deferred completion fills to the value the immediate one
gives, or passes a null up to the boundary where the immediate one's null stops (`Agrees`). The
proof follows the deferred derivation, one case per rule (`ValueRun.agrees` and its siblings);
the immediate derivation is inverted alongside. In the erased context nothing is queued, so two
immediate completions of one value agree outright: completing at once is deterministic
(`ValueRun.deterministic`). -/

namespace GraphWeave

/-- The runtime answers each field from its task alone, whatever the state of the host, at once
and in a batch alike. -/
structure Runtime.Answers {σ : Type} (rt : Runtime σ)
    (answer : ResolveTask → Except FieldError Resolved) : Prop where
  resolve : ∀ task host, ((rt.resolve task).run host).1 = answer task
  resolveBatch : ∀ tasks host, ((rt.resolveBatch tasks).run host).1 = tasks.map answer

namespace Exec

open ResponseValue

variable {σ : Type} {c : ExecContext σ} {answer : ResolveTask → Except FieldError Resolved}
  {res : Path → Option Filled}

/-- What a queued field completes to in the erased context: null for an error, and otherwise
whatever completing its answer gives. -/
def Settles (c : ExecContext σ) (answer : ResolveTask → Except FieldError Resolved) (t : AsyncTask)
    (w : ResponseValue) : Prop :=
  match answer t.task with
  | .error _ => w = .null
  | .ok r => ∃ st st', ValueRun c.eraseAsync t.type t.task.fields r t.task.path t.boundary st w st'

/-- What a field that completed to `w` passes to its position: a null of a non-null field goes up
to its boundary. -/
def outcome (t : AsyncTask) (w : ResponseValue) : Filled :=
  if w.isNull && t.type.isNonNull then .escape t.boundary else .value w

/-- Each field of `tasks` is filled with what completing it at once passes to its position. -/
def Fills (c : ExecContext σ) (answer : ResolveTask → Except FieldError Resolved)
    (res : Path → Option Filled) (tasks : List AsyncTask) : Prop :=
  ∀ t ∈ tasks, ∀ w, Settles c answer t w → res t.task.path = some (outcome t w)

/-- The fields queued from `st` on, as of `st'`. -/
def queuedSince (st st' : ExecState σ) : List AsyncTask :=
  st'.queue.toList.drop st.queue.size

/-- A value completed with fields deferred, filled, agrees with the value completed at once at a
position with boundary `boundary`: it fills to that value, which is null only where the deferred
one is null or the position is its own boundary; or the value completed at once is null and the
filled one passes its null up to the boundary. -/
def Agrees (res : Path → Option Filled) (path boundary : Path) (v w : ResponseValue) : Prop :=
  (fill res v path = some (.value w) ∧ (w = .null → v = .null ∨ boundary = path)) ∨
    (fill res v path = some (.escape boundary) ∧ boundary ≠ path ∧ w = .null)

/-- The same for the entries or items of an object or list, where `none` stands for a non-null
field or item that came out null: filled, they give the entries completed at once, or both
completions lost the object or list to a null passing up to its boundary. -/
def PartsAgree {α : Type} (filled : α → Option (α ⊕ Path)) (boundary : Path) (r r₀ : Option α) :
    Prop :=
  (∃ a a₀, r = some a ∧ r₀ = some a₀ ∧ filled a = some (.inl a₀)) ∨
    (r₀ = none ∧ (r = none ∨ ∃ a, r = some a ∧ filled a = some (.inr boundary)))

section Queued

variable {st st₁ st' : ExecState σ}

theorem queuedSince_left (first : st.queue.toList <+: st₁.queue.toList)
    (second : st₁.queue.toList <+: st'.queue.toList) :
    ∀ t ∈ queuedSince st st₁, t ∈ queuedSince st st' := by
  intro t member
  obtain ⟨more, grown⟩ := second
  unfold queuedSince at member ⊢
  rw [← grown, List.drop_append_of_le_length (by simpa using first.length_le)]
  exact List.mem_append_left _ member

theorem queuedSince_right (first : st.queue.toList <+: st₁.queue.toList) :
    ∀ t ∈ queuedSince st₁ st', t ∈ queuedSince st st' := by
  intro t member
  have shorter : st.queue.size ≤ st₁.queue.size := by
    simpa using first.length_le
  obtain ⟨k, hk⟩ := Nat.exists_eq_add_of_le shorter
  simp only [queuedSince, hk, ← List.drop_drop] at member ⊢
  exact List.mem_of_mem_drop member

theorem Fills.mono {tasks tasks' : List AsyncTask} (fills : Fills c answer res tasks')
    (sub : ∀ t ∈ tasks, t ∈ tasks') : Fills c answer res tasks :=
  fun t member => fills t (sub t member)

end Queued

/-! Reading what the runtime answers. -/

theorem resolve_answer (answers : c.runtime.Answers answer) {task : ResolveTask}
    {st st' : ExecState σ} {r : Except FieldError Resolved}
    (resolved : (resolve c task).run st = some (r, st')) : r = answer task := by
  have answered := answers.resolve task st.host
  simp only [resolve, StateT.run] at resolved answered
  cases answer' : c.runtime.resolve task st.host with
  | mk r' host' =>
    rw [answer'] at resolved answered
    simp only [Option.some.injEq, Prod.mk.injEq] at resolved
    rw [← resolved.1]
    exact answered

theorem settle_same {path : Path} {fields : List Field} {result r r' : Resolved}
    {st st₁ sy sy₁ : ExecState σ} (settled : (settle path fields result).run st = some (r, st₁))
    (settled' : (settle path fields result).run sy = some (r', sy₁)) : r = r' := by
  rcases settle_cases settled with ⟨e, rfl, rfl, -⟩ | ⟨plain, rfl, -⟩
  · rcases settle_cases settled' with ⟨_, _, rfl, -⟩ | ⟨plain', -, -⟩
    · rfl
    · exact absurd rfl (plain' e)
  · rcases settle_cases settled' with ⟨e, same, -, -⟩ | ⟨-, rfl, -⟩
    · exact absurd same (plain e)
    · rfl

/-! What agreeing values pass to their positions. -/

section Agreement

variable {path boundary : Path} {v w : ResponseValue}

theorem agrees_null_null : Agrees res path boundary .null .null :=
  .inl ⟨fill_null res path, fun _ => .inl rfl⟩

theorem agrees_settled (settled : fill res v path = some (.value v)) (notNull : v ≠ .null) :
    Agrees res path boundary v v :=
  .inl ⟨settled, fun null => absurd null notNull⟩

theorem Agrees.null_right (agree : Agrees res path boundary .null w) : w = .null := by
  rcases agree with ⟨filled, -⟩ | ⟨-, -, rfl⟩
  · simpa using filled.symm
  · rfl

theorem Agrees.value {type : TypeRef} {s : PathSegment} {base : Path}
    (agree : Agrees res (base ++ [s]) (boundaryOf type boundary (base ++ [s])) v w)
    (nullable : w.isNull = true → type.isNonNull = false) :
    fill res v (base ++ [s]) = some (.value w) := by
  rcases agree with ⟨filled, -⟩ | ⟨-, away, rfl⟩
  · exact filled
  · exact absurd (nullable rfl) (by simp [(boundaryOf_of_ne away).2])

theorem Agrees.escape {type : TypeRef} {s : PathSegment} {base : Path} (bounded : boundary <+: base)
    (agree : Agrees res (base ++ [s]) (boundaryOf type boundary (base ++ [s])) v .null)
    (nonNull : type.isNonNull = true) (notNull : v.isNull = true → type.isNonNull = false) :
    fill res v (base ++ [s]) = some (.escape boundary) := by
  have onto : boundaryOf type boundary (base ++ [s]) = boundary := by simp [boundaryOf, nonNull]
  rcases agree with ⟨-, either⟩ | ⟨escaped, -, -⟩
  · rcases either rfl with rfl | own
    · exact absurd (notNull rfl) (by simp [nonNull])
    · exact absurd own (boundaryOf_ne s bounded nonNull)
  · rwa [onto] at escaped

theorem agrees_pending {t : AsyncTask} (placed : res path = some (outcome t w))
    (boundaryEq : t.boundary = boundary) (own : boundary = path ↔ t.type.isNonNull = false) :
    Agrees res path boundary .pending w := by
  have filled : fill res .pending path = absorb path (some (outcome t w)) := by
    rw [fill_pending, placed]
  unfold outcome at filled
  by_cases passes : (w.isNull && t.type.isNonNull) = true
  · have away : boundary ≠ path := fun same => by simp [own.mp same] at passes
    rw [if_pos passes, boundaryEq, absorb_ne away] at filled
    simp only [Bool.and_eq_true] at passes
    exact .inr ⟨filled, away, eq_null_of_isNull passes.1⟩
  · rw [if_neg passes, absorb_value] at filled
    refine .inl ⟨filled, fun null => .inr (own.mpr ?_)⟩
    simpa [null, ResponseValue.isNull] using passes

/-- Entries or items that agree make objects or lists that agree. -/
theorem agrees_of_parts {α : Type} {mk : α → ResponseValue} {filled : α → Option (α ⊕ Path)}
    {r r₀ : Option α}
    (fillMk : ∀ a, fill res (mk a) path = absorb path ((filled a).map (Filled.ofSum mk)))
    (notNull : ∀ a, mk a ≠ .null) (agree : PartsAgree filled boundary r r₀) :
    Agrees res path boundary (r.elim .null mk) (r₀.elim .null mk) := by
  rcases agree with ⟨a, a₀, rfl, rfl, found⟩ | ⟨rfl, rfl | ⟨a, rfl, found⟩⟩
  · refine .inl ⟨?_, fun null => absurd null (notNull a₀)⟩
    rw [Option.elim_some, fillMk, found]
    rfl
  · exact agrees_null_null
  · have filled : fill res (mk a) path = absorb path (some (.escape boundary)) := by
      rw [fillMk, found]
      rfl
    rcases absorb_escape boundary path with ⟨same, absorbed⟩ | ⟨away, absorbed⟩
    · exact .inl ⟨filled.trans absorbed, fun _ => .inr same⟩
    · exact .inr ⟨filled.trans absorbed, away, rfl⟩

end Agreement

/-! The queue between two states. -/

section Between

variable {st st₁ st' : ExecState σ}

theorem queuedSince_of_added {E M T} (added : Added st st' E M T) : queuedSince st st' = T := by
  unfold queuedSince
  rw [added.queue_eq, ← Array.length_toList, List.drop_left]

theorem Fills.before (fills : Fills c answer res (queuedSince st st'))
    (first : st.queue.toList <+: st₁.queue.toList) (second : st₁.queue.toList <+: st'.queue.toList) :
    Fills c answer res (queuedSince st st₁) :=
  fills.mono (queuedSince_left first second)

theorem Fills.after (fills : Fills c answer res (queuedSince st st'))
    (first : st.queue.toList <+: st₁.queue.toList) : Fills c answer res (queuedSince st₁ st') :=
  fills.mono (queuedSince_right first)

end Between

theorem boundaryOf_eq_self_iff {type : TypeRef} {boundary path : Path} (s : PathSegment)
    (bounded : boundary <+: path) :
    boundaryOf type boundary (path ++ [s]) = path ++ [s] ↔ type.isNonNull = false :=
  ⟨boundaryOf_own s bounded, fun nullable => by simp [boundaryOf, nullable]⟩

/-! Runs that end with an object or a list extend the entries or items they started from. -/

theorem GroupsRun.extends {object source path boundary groups acc st fs st'}
    (run : GroupsRun c object source path boundary groups acc st (some fs) st') :
    ∃ more, fs = acc ++ more := by
  match run with
  | .nil => exact ⟨[], by simp⟩
  | .empty _ rest | .unknown _ _ _ _ rest => exact rest.extends
  | .typename _ _ rest | .pending _ _ _ _ rest | .value _ _ _ _ _ rest =>
    obtain ⟨more, rfl⟩ := rest.extends
    exact ⟨_, (List.append_cons _ _ _).symm⟩

theorem ItemsRun.extends {inner fields path boundary index items acc st vs st'}
    (run : ItemsRun c inner fields path boundary index items acc st (some vs) st') :
    ∃ more, vs = acc ++ more := by
  match run with
  | .nil => exact ⟨[], by simp⟩
  | .next _ _ rest =>
    obtain ⟨more, rfl⟩ := rest.extends
    exact ⟨_, (List.append_cons _ _ _).symm⟩

theorem GroupsRun.escaped {object source path boundary groups acc acc₀ st r st'} {k : String}
    {v : ResponseValue}
    (run : GroupsRun c object source path boundary groups (acc ++ [(k, v)]) st r st')
    (filled : fillEntries res path acc = some (.inl acc₀))
    (escaped : fill res v (path ++ [.key k]) = some (.escape boundary)) :
    PartsAgree (fillEntries res path) boundary r none := by
  cases r with
  | none => exact .inr ⟨rfl, .inl rfl⟩
  | some fs =>
    obtain ⟨more, rfl⟩ := run.extends
    rw [List.append_assoc, List.singleton_append] 
    exact .inr ⟨rfl, .inr ⟨_, rfl, fillEntries_escape filled escaped⟩⟩

theorem ItemsRun.escaped {inner fields path boundary index items acc acc₀ st r st'}
    {v : ResponseValue}
    (run : ItemsRun c inner fields path boundary index items (acc ++ [v]) st r st')
    (filled : fillItems res path 0 acc = some (.inl acc₀))
    (escaped : fill res v (path ++ [.index acc.length]) = some (.escape boundary)) :
    PartsAgree (fillItems res path 0) boundary r none := by
  cases r with
  | none => exact .inr ⟨rfl, .inl rfl⟩
  | some vs =>
    obtain ⟨more, rfl⟩ := run.extends
    rw [List.append_assoc, List.singleton_append]
    exact .inr ⟨rfl, .inr ⟨_, rfl, fillItems_escape filled escaped⟩⟩

/-! Completions in the erased context, inverted where a deferred completion met the same
choices. -/

section Inversion

variable {o : Schema.NamedType} {source : Resolved} {path boundary : Path} {g : FieldGroup}
  {rest : List FieldGroup} {acc₀ : List (String × ResponseValue)} {sy sy' : ExecState σ}
  {r₀ : Option (List (String × ResponseValue))} {first : Field} {others : List Field}

theorem GroupsRun.erased_empty
    (now : GroupsRun c.eraseAsync o.eraseAsync source path boundary (g :: rest) acc₀ sy r₀ sy')
    (empty : g.fields = []) :
    GroupsRun c.eraseAsync o.eraseAsync source path boundary rest acc₀ sy r₀ sy' := by
  cases now with
  | empty _ rest => exact rest
  | typename fieldsEq | unknown fieldsEq | pending fieldsEq | nulled fieldsEq
  | value fieldsEq => simp [empty] at fieldsEq

theorem GroupsRun.erased_typename
    (now : GroupsRun c.eraseAsync o.eraseAsync source path boundary (g :: rest) acc₀ sy r₀ sy')
    (fieldsEq : g.fields = first :: others) (typename : first.name = "__typename") :
    GroupsRun c.eraseAsync o.eraseAsync source path boundary rest
      (acc₀ ++ [(g.key, .leaf (.str o.name))]) sy r₀ sy' := by
  cases now with
  | empty empty => simp [fieldsEq] at empty
  | typename _ _ rest => simpa using rest
  | unknown fieldsEq' other | pending fieldsEq' other | nulled fieldsEq' other
  | value fieldsEq' other =>
    obtain ⟨rfl, -⟩ := List.cons.inj (fieldsEq.symm.trans fieldsEq')
    exact absurd typename other

theorem GroupsRun.erased_unknown
    (now : GroupsRun c.eraseAsync o.eraseAsync source path boundary (g :: rest) acc₀ sy r₀ sy')
    (fieldsEq : g.fields = first :: others) (other : first.name ≠ "__typename")
    (absent : o.field? first.name = none) :
    ∃ sy₁, GroupsRun c.eraseAsync o.eraseAsync source path boundary rest acc₀ sy₁ r₀ sy' := by
  cases now with
  | empty empty => simp [fieldsEq] at empty
  | typename fieldsEq' typename _ =>
    obtain ⟨rfl, -⟩ := List.cons.inj (fieldsEq.symm.trans fieldsEq')
    exact absurd typename other
  | unknown _ _ _ _ rest => exact ⟨_, rest⟩
  | pending fieldsEq' _ declared | nulled fieldsEq' _ declared | value fieldsEq' _ declared =>
    obtain ⟨rfl, -⟩ := List.cons.inj (fieldsEq.symm.trans fieldsEq')
    simp [Schema.NamedType.field?_eraseAsync, absent] at declared

theorem FieldRun.erased_ne_pending {fd : Schema.Field} {fields : List Field}
    (now : FieldRun c.eraseAsync o source fd.eraseAsync fields path boundary sy .pending sy') :
    False := by
  cases now with
  | queued _ batched _ => simp at batched

theorem GroupsRun.erased_field
    (now : GroupsRun c.eraseAsync o.eraseAsync source path boundary (g :: rest) acc₀ sy r₀ sy')
    (fieldsEq : g.fields = first :: others) (other : first.name ≠ "__typename")
    {fd : Schema.Field} (declared : o.field? first.name = some fd) :
    ∃ w sy₁, FieldRun c.eraseAsync o.eraseAsync source fd.eraseAsync g.fields
        (path ++ [.key g.key]) (boundaryOf fd.type boundary (path ++ [.key g.key])) sy
        (.done w) sy₁ ∧
      ((w = .null ∧ fd.type.isNonNull = true ∧ r₀ = none) ∨
        ((w.isNull = true → fd.type.isNonNull = false) ∧
          GroupsRun c.eraseAsync o.eraseAsync source path boundary rest (acc₀ ++ [(g.key, w)])
            sy₁ r₀ sy')) := by
  cases now with
  | empty empty => simp [fieldsEq] at empty
  | typename fieldsEq' typename _ =>
    obtain ⟨rfl, -⟩ := List.cons.inj (fieldsEq.symm.trans fieldsEq')
    exact absurd typename other
  | unknown fieldsEq' _ absent =>
    obtain ⟨rfl, -⟩ := List.cons.inj (fieldsEq.symm.trans fieldsEq')
    simp [Schema.NamedType.field?_eraseAsync, declared] at absent
  | pending fieldsEq' _ declared' field _ =>
    obtain ⟨rfl, -⟩ := List.cons.inj (fieldsEq.symm.trans fieldsEq')
    rw [Schema.NamedType.field?_eraseAsync, declared] at declared'
    obtain rfl := Option.some.inj declared'
    exact (field.erased_ne_pending).elim
  | nulled fieldsEq' _ declared' field nonNull _ =>
    obtain ⟨rfl, -⟩ := List.cons.inj (fieldsEq.symm.trans fieldsEq')
    rw [Schema.NamedType.field?_eraseAsync, declared] at declared'
    obtain rfl := Option.some.inj declared'
    exact ⟨_, _, by simpa using field, .inl ⟨rfl, by simpa using nonNull, rfl⟩⟩
  | value fieldsEq' _ declared' field nullable rest =>
    obtain ⟨rfl, -⟩ := List.cons.inj (fieldsEq.symm.trans fieldsEq')
    rw [Schema.NamedType.field?_eraseAsync, declared] at declared'
    obtain rfl := Option.some.inj declared'
    exact ⟨_, _, by simpa using field, .inr ⟨by simpa using nullable, rest⟩⟩

variable {fd : Schema.Field} {fields : List Field} {w : ResponseValue}

theorem FieldRun.erased_argumentError {e : ArgumentError}
    (now : FieldRun c.eraseAsync o.eraseAsync source fd.eraseAsync fields path boundary sy
      (.done w) sy')
    (failed : c.schema.coerceArguments c.variableValues fd (writtenArguments fields) = .error e) :
    w = .null := by
  cases now with
  | argumentError | resolveError => rfl
  | resolved coerced =>
    simp [coerceArguments_eraseAsync, failed] at coerced

/-- A field whose arguments coerce completes at once to what its answer settles to. -/
theorem FieldRun.erased_settles (answers : c.runtime.Answers answer) {args : List (String × Value)}
    (now : FieldRun c.eraseAsync o.eraseAsync source fd.eraseAsync fields path boundary sy
      (.done w) sy')
    (coerced : c.schema.coerceArguments c.variableValues fd (writtenArguments fields) = .ok args) :
    Settles c answer ⟨fieldTask c o source fd args fields path, fd.type, boundary⟩ w := by
  cases now with
  | argumentError failed _ =>
    simp [coerceArguments_eraseAsync, coerced] at failed
  | resolveError coerced' _ resolved _ =>
    rw [eraseAsync_schema, eraseAsync_variableValues, coerceArguments_eraseAsync, coerced,
      Except.ok.injEq] at coerced'
    subst coerced'
    have answered := resolve_answer answers resolved
    rw [fieldTask_eraseAsync] at answered
    simp only [Settles, ← answered]
  | resolved coerced' _ resolved value =>
    rw [eraseAsync_schema, eraseAsync_variableValues, coerceArguments_eraseAsync, coerced,
      Except.ok.injEq] at coerced'
    subst coerced'
    have answered := resolve_answer answers resolved
    rw [fieldTask_eraseAsync] at answered
    simp only [Settles, ← answered]
    exact ⟨_, _, value⟩

variable {type : TypeRef} {result r : Resolved} {st st₁ : ExecState σ}

theorem ValueRun.erased_null
    (now : ValueRun c.eraseAsync type fields result path boundary sy w sy')
    (settled : (settle path fields result).run st = some (r, st₁)) (null : r.isNull = true) :
    w = .null := by
  cases now with
  | nonNullNull | listNull | namedNull | fail | raise => rfl
  | nonNull settled' present | list settled' present | leaf settled' present
  | object settled' present =>
    rw [← settle_same settled settled', null] at present
    cases present

theorem ValueRun.erased_nonNull {inner : TypeRef}
    (now : ValueRun c.eraseAsync (.nonNull inner) fields result path boundary sy w sy')
    (settled : (settle path fields result).run st = some (r, st₁)) (present : r.isNull = false) :
    ∃ sy₁, ValueRun c.eraseAsync inner fields r path boundary sy₁ w sy' := by
  cases now with
  | nonNullNull settled' null _ =>
    rw [← settle_same settled settled', present] at null
    cases null
  | nonNull settled' _ inner =>
    obtain rfl := settle_same settled settled'
    exact ⟨_, inner⟩

theorem ValueRun.erased_list {inner : TypeRef}
    (now : ValueRun c.eraseAsync (.list inner) fields result path boundary sy w sy')
    (settled : (settle path fields result).run st = some (r, st₁)) (present : r.isNull = false) :
    ∃ sy₁, ListRun c.eraseAsync inner fields r path boundary sy₁ w sy' := by
  cases now with
  | listNull settled' null =>
    rw [← settle_same settled settled', present] at null
    cases null
  | list settled' _ list =>
    obtain rfl := settle_same settled settled'
    exact ⟨_, list⟩

theorem ValueRun.erased_failed {name : String}
    (now : ValueRun c.eraseAsync (.named name) fields result path boundary sy w sy')
    (settled : (settle path fields result).run st = some (r, st₁))
    (failed : ∀ v o, completeNamed c name r ≠ .value v ∧ completeNamed c name r ≠ .object o) :
    w = .null := by
  cases now with
  | namedNull | fail | raise => rfl
  | leaf settled' _ named | object settled' _ named _ =>
    obtain rfl := settle_same settled settled'
    rw [completeNamed_eraseAsync] at named
    cases completed : completeNamed c name r with
    | value v => exact absurd completed (failed v default).1
    | object o => exact absurd completed (failed .null o).2
    | fail _ | raise _ => rw [completed] at named; cases named

theorem ValueRun.erased_leaf {name : String} {v : ResponseValue}
    (now : ValueRun c.eraseAsync (.named name) fields result path boundary sy w sy')
    (settled : (settle path fields result).run st = some (r, st₁)) (present : r.isNull = false)
    (named : completeNamed c name r = .value v) : w = v := by
  cases now with
  | namedNull settled' null =>
    rw [← settle_same settled settled', present] at null
    cases null
  | fail settled' _ named' | raise settled' _ named' | object settled' _ named' =>
    obtain rfl := settle_same settled settled'
    rw [completeNamed_eraseAsync, named] at named'
    cases named'
  | leaf settled' _ named' =>
    obtain rfl := settle_same settled settled'
    rw [completeNamed_eraseAsync, named] at named'
    cases named'
    rfl

theorem ValueRun.erased_object {name : String}
    (now : ValueRun c.eraseAsync (.named name) fields result path boundary sy w sy')
    (settled : (settle path fields result).run st = some (r, st₁)) (present : r.isNull = false)
    (named : completeNamed c name r = .object o) :
    ∃ sy₁, ObjectRun c.eraseAsync o.eraseAsync fields r path boundary sy₁ w sy' := by
  cases now with
  | namedNull settled' null =>
    rw [← settle_same settled settled', present] at null
    cases null
  | fail settled' _ named' | raise settled' _ named' | leaf settled' _ named' =>
    obtain rfl := settle_same settled settled'
    rw [completeNamed_eraseAsync, named] at named'
    cases named'
  | object settled' _ named' object =>
    obtain rfl := settle_same settled settled'
    rw [completeNamed_eraseAsync, named] at named'
    cases named'
    exact ⟨_, object⟩

end Inversion

/-! Deferred and immediate completions agree. -/

section Agree

theorem queue_grows_of_settle {path : Path} {fields : List Field} {result r : Resolved}
    {st st₁ : ExecState σ} (settled : (settle path fields result).run st = some (r, st₁)) :
    st.queue.toList <+: st₁.queue.toList := by
  obtain ⟨_, _, added⟩ := added_settle settled
  exact added.queue_grows

mutual

theorem SelectionsRun.agrees (answers : c.runtime.Answers answer)
    {object selections source path boundary st r st' sy r₀ sy'}
    (run : SelectionsRun c object selections source path boundary st r st')
    (now : SelectionsRun c.eraseAsync object.eraseAsync selections source path boundary sy r₀ sy')
    (bounded : boundary <+: path) (fills : Fills c answer res (queuedSince st st')) :
    PartsAgree (fillEntries res path) boundary r r₀ := by
  match run with
  | .collect groups =>
    cases now with
    | collect groups' =>
      rw [collect_eraseAsync, Schema.NamedType.eraseAsync_name] at groups'
      exact groups.agrees answers groups' bounded fills rfl
termination_by structural run

theorem GroupsRun.agrees (answers : c.runtime.Answers answer)
    {object source path boundary groups acc acc₀ st r st' sy r₀ sy'}
    (run : GroupsRun c object source path boundary groups acc st r st')
    (now : GroupsRun c.eraseAsync object.eraseAsync source path boundary groups acc₀ sy r₀ sy')
    (bounded : boundary <+: path) (fills : Fills c answer res (queuedSince st st'))
    (filled : fillEntries res path acc = some (.inl acc₀)) :
    PartsAgree (fillEntries res path) boundary r r₀ := by
  match run with
  | .nil =>
    cases now with
    | nil => exact .inl ⟨_, _, rfl, rfl, filled⟩
  | .empty empty rest => exact rest.agrees answers (now.erased_empty empty) bounded fills filled
  | .typename fieldsEq typename rest =>
    exact rest.agrees answers (now.erased_typename fieldsEq typename) bounded fills
      (fillEntries_snoc filled (fill_leaf _ _ _))
  | .unknown fieldsEq other absent recorded rest =>
    obtain ⟨_, rest'⟩ := now.erased_unknown fieldsEq other absent
    obtain ⟨_, _, added⟩ := added_addError recorded
    exact rest.agrees answers rest' bounded (fills.after added.queue_grows) filled
  | .pending fieldsEq other declared field rest =>
    obtain ⟨w, _, field', next⟩ := now.erased_field fieldsEq other declared
    have agree := field.agrees answers field' (boundaryOf_above _ bounded)
      (boundaryOf_eq_self_iff _ bounded) (fills.before field.queue_grows rest.queue_grows)
    rcases next with ⟨rfl, nonNull, rfl⟩ | ⟨nullable, rest'⟩
    · exact rest.escaped filled (agree.escape bounded nonNull (by simp [ResponseValue.isNull]))
    · exact rest.agrees answers rest' bounded (fills.after field.queue_grows)
        (fillEntries_snoc filled (agree.value nullable))
  | .nulled fieldsEq other declared field nonNull marked =>
    obtain ⟨_, _, _, added⟩ := added_markNullified marked
    obtain ⟨w, _, field', next⟩ := now.erased_field fieldsEq other declared
    have agree := field.agrees answers field' (boundaryOf_above _ bounded)
      (boundaryOf_eq_self_iff _ bounded) (fills.before field.queue_grows added.queue_grows)
    rcases next with ⟨-, -, rfl⟩ | ⟨nullable, -⟩
    · exact .inr ⟨rfl, .inl rfl⟩
    · have null := agree.null_right
      subst null
      exact absurd (nullable rfl) (by simp [nonNull])
  | .value fieldsEq other declared field notNull rest =>
    obtain ⟨w, _, field', next⟩ := now.erased_field fieldsEq other declared
    have agree := field.agrees answers field' (boundaryOf_above _ bounded)
      (boundaryOf_eq_self_iff _ bounded) (fills.before field.queue_grows rest.queue_grows)
    rcases next with ⟨rfl, nonNull, rfl⟩ | ⟨nullable, rest'⟩
    · exact rest.escaped filled (agree.escape bounded nonNull notNull)
    · exact rest.agrees answers rest' bounded (fills.after field.queue_grows)
        (fillEntries_snoc filled (agree.value nullable))
termination_by structural run

/-- A field run with fields deferred agrees, filled, with the same field run at once: queued, its
placeholder is filled with what it completes to at once. -/
theorem FieldRun.agrees (answers : c.runtime.Answers answer)
    {object source fd fields path boundary st outcome st' sy w sy'}
    (run : FieldRun c object source fd fields path boundary st outcome st')
    (now : FieldRun c.eraseAsync object.eraseAsync source fd.eraseAsync fields path boundary sy
      (.done w) sy')
    (bounded : boundary <+: path) (own : boundary = path ↔ fd.type.isNonNull = false)
    (fills : Fills c answer res (queuedSince st st')) :
    Agrees res path boundary outcome.value w := by
  match run with
  | .argumentError failed _ =>
    rw [now.erased_argumentError failed]
    exact agrees_null_null
  | .queued coerced _ enqueued =>
    have placed := fills _ (by simp [queuedSince_of_added (added_enqueue enqueued)]) w
      (now.erased_settles answers coerced)
    exact agrees_pending placed rfl own
  | .resolveError coerced _ resolved _ =>
    have settles := now.erased_settles answers coerced
    rw [Settles, ← resolve_answer answers resolved] at settles
    rw [settles]
    exact agrees_null_null
  | .resolved coerced _ resolved value =>
    have settles := now.erased_settles answers coerced
    rw [Settles, ← resolve_answer answers resolved] at settles
    obtain ⟨_, _, value'⟩ := settles
    exact value.agrees answers value' bounded (fills.after (added_resolve resolved).queue_grows)
termination_by structural run

/-- A value completed with fields deferred agrees, filled, with the same value completed at
once. -/
theorem ValueRun.agrees (answers : c.runtime.Answers answer)
    {type fields result path boundary st v st' sy w sy'}
    (run : ValueRun c type fields result path boundary st v st')
    (now : ValueRun c.eraseAsync type fields result path boundary sy w sy')
    (bounded : boundary <+: path) (fills : Fills c answer res (queuedSince st st')) :
    Agrees res path boundary v w := by
  match run with
  | .nonNullNull settled isNull _ | .listNull settled isNull | .namedNull settled isNull =>
    rw [now.erased_null settled isNull]
    exact agrees_null_null
  | .nonNull settled present inner =>
    obtain ⟨_, inner'⟩ := now.erased_nonNull settled present
    exact inner.agrees answers inner' bounded (fills.after (queue_grows_of_settle settled))
  | .list settled present completed =>
    obtain ⟨_, completed'⟩ := now.erased_list settled present
    exact completed.agrees answers completed' bounded (fills.after (queue_grows_of_settle settled))
  | .fail settled _ named _ | .raise settled _ named _ =>
    rw [now.erased_failed settled (by simp [named])]
    exact agrees_null_null
  | .leaf settled present named =>
    rw [now.erased_leaf settled present named]
    rcases completeNamed_eq_value named with ⟨-, rfl⟩ | ⟨j, -, rfl⟩
    · exact agrees_null_null
    · exact agrees_settled (fill_leaf _ _ _) (by simp)
  | .object settled present named completed =>
    obtain ⟨_, completed'⟩ := now.erased_object settled present named
    exact completed.agrees answers completed' bounded (fills.after (queue_grows_of_settle settled))
termination_by structural run

theorem ListRun.agrees (answers : c.runtime.Answers answer)
    {inner fields result path boundary st v st' sy w sy'}
    (run : ListRun c inner fields result path boundary st v st')
    (now : ListRun c.eraseAsync inner fields result path boundary sy w sy')
    (bounded : boundary <+: path) (fills : Fills c answer res (queuedSince st st')) :
    Agrees res path boundary v w := by
  match run with
  | .items items =>
    cases now with
    | items items' | nulled items' =>
      exact agrees_of_parts (fill_list res path) (by simp)
        (items.agrees answers items' bounded fills rfl rfl)
    | notList notList _ => exact absurd rfl (notList _)
  | .nulled items =>
    cases now with
    | items items' | nulled items' =>
      exact agrees_of_parts (fill_list res path) (by simp)
        (items.agrees answers items' bounded fills rfl rfl)
    | notList notList _ => exact absurd rfl (notList _)
  | .notList notList _ =>
    cases now with
    | items _ | nulled _ => exact absurd rfl (notList _)
    | notList => exact agrees_null_null
termination_by structural run

theorem ItemsRun.agrees (answers : c.runtime.Answers answer)
    {inner fields path boundary index items acc acc₀ st r st' sy r₀ sy'}
    (run : ItemsRun c inner fields path boundary index items acc st r st')
    (now : ItemsRun c.eraseAsync inner fields path boundary index items acc₀ sy r₀ sy')
    (bounded : boundary <+: path) (fills : Fills c answer res (queuedSince st st'))
    (counted : acc.length = index) (filled : fillItems res path 0 acc = some (.inl acc₀)) :
    PartsAgree (fillItems res path 0) boundary r r₀ := by
  match run with
  | .nil =>
    cases now with
    | nil => exact .inl ⟨_, _, rfl, rfl, filled⟩
  | .nulled item nonNull marked =>
    obtain ⟨_, _, _, added⟩ := added_markNullified marked
    cases now with
    | nulled => exact .inr ⟨rfl, .inl rfl⟩
    | next item' nullable _ =>
      have null := (item.agrees answers item' (boundaryOf_above _ bounded)
        (fills.before item.queue_grows added.queue_grows)).null_right
      subst null
      exact absurd (nullable rfl) (by simp [nonNull])
  | .next item notNull rest =>
    have fillsItem := fills.before item.queue_grows rest.queue_grows
    cases now with
    | nulled item' nonNull _ =>
      have agree := item.agrees answers item' (boundaryOf_above _ bounded) fillsItem
      rw [← counted] at agree
      exact rest.escaped filled (agree.escape bounded nonNull notNull)
    | next item' nullable rest' =>
      have agree := item.agrees answers item' (boundaryOf_above _ bounded) fillsItem
      rw [← counted] at agree
      exact rest.agrees answers rest' bounded (fills.after item.queue_grows) (by simp [counted])
        (fillItems_snoc filled (agree.value nullable))
termination_by structural run

theorem ObjectRun.agrees (answers : c.runtime.Answers answer)
    {object fields result path boundary st v st' sy w sy'}
    (run : ObjectRun c object fields result path boundary st v st')
    (now : ObjectRun c.eraseAsync object.eraseAsync fields result path boundary sy w sy')
    (bounded : boundary <+: path) (fills : Fills c answer res (queuedSince st st')) :
    Agrees res path boundary v w := by
  match run with
  | .fields selections =>
    cases now with
    | fields selections' | nulled selections' =>
      exact agrees_of_parts (fill_object res path) (by simp)
        (selections.agrees answers selections' bounded fills)
  | .nulled selections =>
    cases now with
    | fields selections' | nulled selections' =>
      exact agrees_of_parts (fill_object res path) (by simp)
        (selections.agrees answers selections' bounded fills)
termination_by structural run

end

end Agree

/-- Completing a value at once is deterministic: what it gives does not depend on the state it
starts from. Nothing is queued, so no placeholder needs filling and agreement is equality. -/
theorem ValueRun.deterministic (answers : c.runtime.Answers answer)
    {type fields result path boundary st w st' sy w' sy'}
    (run : ValueRun c.eraseAsync type fields result path boundary st w st')
    (run' : ValueRun c.eraseAsync type fields result path boundary sy w' sy')
    (bounded : boundary <+: path) : w = w' := by
  have fills : Fills c.eraseAsync answer (fun _ => none) (queuedSince st st') := by
    intro t member
    rw [queuedSince, run.queue_eq, ← Array.length_toList, List.drop_length] at member
    cases member
  have answers' : c.eraseAsync.runtime.Answers answer := answers
  have now : ValueRun c.eraseAsync.eraseAsync type fields result path boundary sy w' sy' := by
    rwa [eraseAsync_eraseAsync]
  have agree : Agrees (fun _ => none) path boundary w w' := run.agrees answers' now bounded fills
  have settled : fill (fun _ => none) w path = some (.value w) := by
    obtain ⟨E, M, T, added, under⟩ := run.under bounded
    have nothing : T = [] := by simpa [run.queue_eq] using added.queue_eq
    subst nothing
    refine fill_settled w path ?_ fun x pending => ?_
    · rcases run.fits.2 with rfl | fit
      · intro x fs found
        cases x <;> simp at found
      · exact fit.keysDistinct
    · obtain ⟨t, member, -⟩ := under.placeholders x pending
      cases member
  rcases agree with ⟨filled, -⟩ | ⟨escaped, -, -⟩
  · rw [settled] at filled
    cases filled
    rfl
  · rw [settled] at escaped
    cases escaped

theorem Settles.deterministic (answers : c.runtime.Answers answer) {t : AsyncTask}
    {w w' : ResponseValue} (bounded : t.boundary <+: t.task.path) (settles : Settles c answer t w)
    (settles' : Settles c answer t w') : w = w' := by
  cases answered : answer t.task with
  | error e =>
    simp only [Settles, answered] at settles settles'
    rw [settles, settles']
  | ok r =>
    simp only [Settles, answered] at settles settles'
    obtain ⟨_, _, run⟩ := settles
    obtain ⟨_, _, run'⟩ := settles'
    exact run.deterministic answers run' bounded

end Exec

end GraphWeave
