import GraphWeave.Proofs.Execution.Layout
import Mathlib

/-!
Batches run breadth first. The batch loop runs in rounds.
-/

namespace GraphWeave.Exec

variable {σ : Type}

theorem Beneath.trans {p q r : Path} (first : Beneath p q) (second : Beneath q r) : Beneath p r :=
  ⟨first.1.trans second.1, first.2.trans second.2⟩

theorem Beneath.prefix_right {p q r : Path} (below : Beneath p q) (above : q <+: r) : Beneath p r :=
  ⟨below.1.trans above, lt_of_lt_of_le below.2 above.length_le⟩

theorem Apart.not_both {p q r : Path} (apart : Apart p q) (here : p <+: r) (there : q <+: r) : False :=
  (apart.extend here there).ne rfl

/-! ### Rounds of the batch loop -/

/-- The queued fields a round resolves: those outside every marked subtree. -/
def live (st : ExecState σ) : List AsyncTask :=
  st.queue.toList.filter fun t => !isNullified st t.task.path

/-- A round of the batch loop: the state it starts from, the fields it resolves as one batch, and
what completing their results asks of the runtime and queues. -/
structure Round (σ : Type) where
  start : ExecState σ
  batch : List AsyncTask
  calls : List ResolveTask
  queued : List AsyncTask

/-- What a round asks of the runtime: its batch, then what completing the batch asks. -/
def Round.asked (r : Round σ) : List ResolveTask := r.batch.map (·.task) ++ r.calls

/-- The rounds of the batch loop from a tree and a state. The loop stops when nothing is queued or
the data root is null, and makes no call when every queued field lies in a marked subtree;
otherwise a round resolves the live queued fields as one batch, completes their results in order,
and the loop goes on from what that queued. -/
inductive Rounds (c : ExecContext σ) (fuel : Nat) (log : σ → List ResolveTask) :
    ResponseValue → ExecState σ → List (Round σ) → ResponseValue → ExecState σ → Prop
  | stop {tree st} : (st.queue.isEmpty || st.dataNull) = true → Rounds c fuel log tree st [] tree st
  | skip {tree st} : (st.queue.isEmpty || st.dataNull) = false → live st = [] →
      Rounds c fuel log tree st [] tree { st with queue := #[] }
  | round {tree st results st₁ tree₁ st₂ calls queued rest tree' st'} :
      (st.queue.isEmpty || st.dataNull) = false → live st ≠ [] →
      (resolveAll c (live st)).run { st with queue := #[] } = some (results, st₁) →
      (completeBatch c fuel tree ((live st).zip results)).run st₁ = some (tree₁, st₂) →
      Traced log st₁ st₂ calls queued →
      Rounds c fuel log tree₁ st₂ rest tree' st' →
      Rounds c fuel log tree st (⟨st, live st, calls, queued⟩ :: rest) tree' st'

/-- Rounds that run breadth first from the fields `queued`: each round's batch is the fields of
`queued` outside the subtrees marked when it starts, and is not empty; what completing the batch
asks and queues lies beneath the batch as `Layout` says; the next round runs from what it
queued. -/
inductive Layered (c : ExecContext σ) : List AsyncTask → List (Round σ) → Prop
  | nil {queued} : Layered c queued []
  | cons {queued r rest} :
      r.batch = queued.filter (fun u => !isNullified r.start u.task.path) → r.batch ≠ [] →
      Layout c (fun p => ∃ b ∈ r.batch, Beneath b.task.path p) r.calls r.queued →
      Layered c r.queued rest → Layered c queued (r :: rest)

section Loop

variable {c : ExecContext σ} {log : σ → List ResolveTask} {fuel : Nat}

theorem Rounds.logged (logs : c.runtime.Logs log) {tree tree' : ResponseValue}
    {st st' : ExecState σ} {R : List (Round σ)} (rounds : Rounds c fuel log tree st R tree' st') :
    log st'.host = log st.host ++ R.flatMap Round.asked := by
  induction rounds with
  | stop => simp
  | skip => simp
  | round _ _ resolved _ traced _ ih =>
    have asked := traced_resolveAll logs resolved
    rw [ih, traced.calls_eq, asked.calls_eq]
    simp [Round.asked]

theorem runBatches_idle {rounds : Nat} {tree tree' : ResponseValue} {st st' : ExecState σ}
    {results : List (Except FieldError Resolved)} {st₁ st₂ : ExecState σ} {tree₁ : ResponseValue}
    (idle : live st = [])
    (resolved : (resolveAll c (live st)).run { st with queue := #[] } =
      some (results, st₁))
    (batch : (completeBatch c fuel tree ((live st).zip results)).run st₁ = some (tree₁, st₂))
    (rest : (runBatches c fuel rounds tree₁).run st₂ = some (tree', st')) :
    tree' = tree ∧ st' = { st with queue := #[] } := by
  rw [idle] at resolved batch
  simp only [resolveAll, List.isEmpty_nil, if_true, run_pure_eq_some] at resolved
  obtain ⟨rfl, rfl⟩ := resolved
  simp only [List.zip_nil_left, completeBatch, run_pure_eq_some] at batch
  obtain ⟨rfl, rfl⟩ := batch
  rcases runBatches_cases rest with ⟨-, rfl, rfl⟩ | ⟨_, -, running, -⟩
  · exact ⟨rfl, rfl⟩
  · simp at running

/-- The batch loop from a queue of fields that lie apart runs in layered rounds. -/
theorem runBatches_rounds (logs : c.runtime.Logs log) (rounds : Nat) {tree tree' : ResponseValue}
    {st st' : ExecState σ} (apart : st.queue.toList.Pairwise fun u u' => Apart u.task.path u'.task.path)
    (h : (runBatches c fuel rounds tree).run st = some (tree', st')) :
    ∃ R, Rounds c fuel log tree st R tree' st' ∧ Layered c st.queue.toList R := by
  induction rounds generalizing tree st with
  | zero =>
    rcases runBatches_cases h with ⟨stopped, rfl, rfl⟩ | ⟨_, impossible, _⟩
    · exact ⟨[], .stop stopped, .nil⟩
    · cases impossible
  | succ rounds ih =>
    rcases runBatches_cases h with ⟨stopped, rfl, rfl⟩ |
      ⟨_, same, running, results, st₁, tree₁, st₂, resolved, batch, rest⟩
    · exact ⟨[], .stop stopped, .nil⟩
    cases same
    change (resolveAll c (live st)).run _ = _ at resolved
    change (completeBatch c fuel tree ((live st).zip results)).run st₁ = _ at batch
    by_cases idle : live st = []
    · obtain ⟨rfl, rfl⟩ := runBatches_idle idle resolved batch rest
      exact ⟨[], .skip running idle, .nil⟩
    obtain ⟨length, -⟩ := resolveAll_run resolved
    have cleared : st₁.queue.toList = [] := by simpa using (traced_resolveAll logs resolved).queue_eq
    have firsts : ((live st).zip results).map (·.1) = live st := by
      rw [List.map_fst_zip]
      simp [length]
    have liveApart : (live st).Pairwise fun u u' => Apart u.task.path u'.task.path :=
      apart.sublist List.filter_sublist
    obtain ⟨calls, queued, traced, layout⟩ :=
      laidOut_completeBatch logs _ (by rw [firsts]; exact liveApart) batch
    have queue : st₂.queue.toList = queued := by simpa [cleared] using traced.queue_eq
    obtain ⟨R, later, layered⟩ := ih (queue ▸ layout.apart) rest
    refine ⟨_, .round running idle resolved batch traced later, .cons rfl idle ?_ (queue ▸ layered)⟩
    exact layout.mono (by rintro _ ⟨x, member, below⟩; exact ⟨x.1, (List.of_mem_zip member).1, below⟩)

end Loop

/-! ### Depth -/

/-- The number of queued fields at or above a path: the deferred fields on the way to it. -/
def deferredDepth (queued : List AsyncTask) (p : Path) : Nat :=
  queued.countP fun u => u.task.path <+: p

section Depth

variable {Q T : List AsyncTask}

/-- Of fields that lie apart, exactly one is at or above a path beneath one of them. -/
theorem deferredDepth_eq_one (apart : Q.Pairwise fun u u' => Apart u.task.path u'.task.path)
    {w : AsyncTask} (member : w ∈ Q) {p : Path} (above : w.task.path <+: p) :
    deferredDepth Q p = 1 := by
  induction Q with
  | nil => cases member
  | cons a Q ih =>
    rw [List.pairwise_cons] at apart
    unfold deferredDepth
    rw [List.countP_cons]
    rcases List.mem_cons.mp member with rfl | member
    · have none : Q.countP (fun u => u.task.path <+: p) = 0 := by
        rw [List.countP_eq_zero]
        intro u there above'
        exact (apart.1 u there).not_both above (of_decide_eq_true above')
      simp [none, above]
    · have outside : ¬ a.task.path <+: p := fun above' =>
        (apart.1 w member).not_both above' above
      have rest := ih apart.2 member
      unfold deferredDepth at rest
      simp [rest, outside]

theorem deferredDepth_pos {v : AsyncTask} (member : v ∈ T) : 0 < deferredDepth T v.task.path :=
  List.countP_pos_iff.mpr ⟨v, member, by simp⟩

variable (apart : Q.Pairwise fun u u' => Apart u.task.path u'.task.path)
  (beneath : ∀ v ∈ T, ∃ w ∈ Q, Beneath w.task.path v.task.path)
include apart beneath

theorem deferredDepth_left {u : AsyncTask} (member : u ∈ Q) :
    deferredDepth (Q ++ T) u.task.path = 1 := by
  have none : deferredDepth T u.task.path = 0 := by
    rw [deferredDepth, List.countP_eq_zero]
    intro v there above
    obtain ⟨w, chosen, below⟩ := beneath v there
    exact not_prefix_of_beneath apart chosen member below (of_decide_eq_true above)
  rw [deferredDepth, List.countP_append]
  rw [deferredDepth] at none
  rw [none, ← deferredDepth, deferredDepth_eq_one apart member (List.prefix_refl _)]

theorem deferredDepth_right {v : AsyncTask} (member : v ∈ T) :
    deferredDepth (Q ++ T) v.task.path = deferredDepth T v.task.path + 1 := by
  obtain ⟨w, chosen, below⟩ := beneath v member
  rw [deferredDepth, List.countP_append, ← deferredDepth, ← deferredDepth,
    deferredDepth_eq_one apart chosen below.1, Nat.add_comm]

end Depth

section Layers

variable {c : ExecContext σ}

theorem Layered.mem_of_batch {Q : List AsyncTask} {r : Round σ}
    (batch : r.batch = Q.filter fun u => !isNullified r.start u.task.path) {b : AsyncTask}
    (member : b ∈ r.batch) : b ∈ Q := by
  rw [batch] at member
  exact List.mem_of_mem_filter member

theorem Layered.beneath {Q : List AsyncTask} {R : List (Round σ)} (layered : Layered c Q R) :
    ∀ v ∈ R.flatMap (·.queued), ∃ w ∈ Q, Beneath w.task.path v.task.path := by
  induction layered with
  | nil => simp
  | cons batch _ layout _ ih =>
    intro v member
    rw [List.flatMap_cons, List.mem_append] at member
    rcases member with here | later
    · obtain ⟨b, chosen, below⟩ := layout.queued_inside v here
      exact ⟨b, Layered.mem_of_batch batch chosen, below⟩
    · obtain ⟨w, queued, below⟩ := ih v later
      obtain ⟨b, chosen, above⟩ := layout.queued_inside w queued
      exact ⟨b, Layered.mem_of_batch batch chosen, above.trans below⟩

theorem Layered.asked_below {Q : List AsyncTask} {R : List (Round σ)} (layered : Layered c Q R) :
    ∀ t ∈ R.flatMap Round.asked, ∃ w ∈ Q, w.task.path <+: t.path := by
  induction layered with
  | nil => simp
  | cons batch _ layout _ ih =>
    intro t member
    simp only [List.flatMap_cons, Round.asked, List.mem_append, List.mem_map] at member
    rcases member with (⟨b, chosen, rfl⟩ | here) | later
    · exact ⟨b, Layered.mem_of_batch batch chosen, List.prefix_refl _⟩
    · obtain ⟨b, chosen, below⟩ := layout.calls_inside t here
      exact ⟨b, Layered.mem_of_batch batch chosen, below.1⟩
    · obtain ⟨w, queued, above⟩ := ih t later
      obtain ⟨b, chosen, below⟩ := layout.queued_inside w queued
      exact ⟨b, Layered.mem_of_batch batch chosen, below.1.trans above⟩

/-- The `k`-th batch is exactly the fields queued over the whole run that have `k + 1` queued
fields at or above them, less those in a subtree marked before the round, in the order queued. -/
theorem Layered.batches {Q : List AsyncTask} {R : List (Round σ)}
    (apart : Q.Pairwise fun u u' => Apart u.task.path u'.task.path) (layered : Layered c Q R) :
    ∀ k (h : k < R.length), R[k].batch = (Q ++ R.flatMap (·.queued)).filter fun u =>
      deferredDepth (Q ++ R.flatMap (·.queued)) u.task.path == k + 1 &&
        !isNullified R[k].start u.task.path := by
  induction layered with
  | nil => simp
  | @cons Q r rest batch _ layout later ih =>
    have beneath := (Layered.cons batch ‹_› layout later).beneath
    rw [List.flatMap_cons] at beneath
    intro k h
    rw [List.flatMap_cons, List.filter_append]
    cases k with
    | zero =>
      rw [List.getElem_cons_zero]
      have deeper : (r.queued ++ rest.flatMap (·.queued)).filter (fun u =>
          deferredDepth (Q ++ (r.queued ++ rest.flatMap (·.queued))) u.task.path == 0 + 1 &&
            !isNullified r.start u.task.path) = [] := by
        rw [List.filter_eq_nil_iff]
        intro v member
        have pos := deferredDepth_pos member
        simp [deferredDepth_right apart beneath member, pos.ne']
      rw [deeper, List.append_nil, batch]
      refine List.filter_congr fun u member => ?_
      simp [deferredDepth_left apart beneath member]
    | succ k =>
      rw [List.getElem_cons_succ]
      have within : k < rest.length := by simpa using h
      have shallow : Q.filter (fun u =>
          deferredDepth (Q ++ (r.queued ++ rest.flatMap (·.queued))) u.task.path == k + 1 + 1 &&
            !isNullified rest[k].start u.task.path) = [] := by
        rw [List.filter_eq_nil_iff]
        intro u member
        simp [deferredDepth_left apart beneath member]
      rw [shallow, List.nil_append, ih layout.apart k within]
      refine List.filter_congr fun v member => ?_
      simp [deferredDepth_right apart beneath member]

theorem Layered.batch_apart {Q : List AsyncTask} {r : Round σ}
    (apart : Q.Pairwise fun u u' => Apart u.task.path u'.task.path)
    (batch : r.batch = Q.filter fun u => !isNullified r.start u.task.path) :
    r.batch.Pairwise fun u u' => Apart u.task.path u'.task.path := by
  rw [batch]
  exact apart.sublist List.filter_sublist

theorem nodup_of_apart {B : List AsyncTask} (apart : B.Pairwise fun u u' => Apart u.task.path u'.task.path) :
    ((B.map (·.task)).map (·.path)).Nodup := by
  rw [List.map_map, List.Nodup, List.pairwise_map]
  exact apart.imp fun separate => separate.ne

/-- No two calls of layered rounds are for the same position. -/
theorem Layered.distinct {Q : List AsyncTask} {R : List (Round σ)}
    (apart : Q.Pairwise fun u u' => Apart u.task.path u'.task.path) (layered : Layered c Q R) :
    ((R.flatMap Round.asked).map (·.path)).Nodup := by
  induction layered with
  | nil => simp
  | @cons Q r rest batch _ layout later ih =>
    have batchApart := Layered.batch_apart apart batch
    have calledOnce : (r.asked.map (·.path)).Nodup := by
      rw [Round.asked, List.map_append, List.nodup_append]
      refine ⟨nodup_of_apart batchApart, layout.distinct, ?_⟩
      intro p here q there same
      obtain ⟨t, call, rfl⟩ := List.mem_map.mp there
      obtain ⟨x, member, rfl⟩ := List.mem_map.mp here
      obtain ⟨u, field, rfl⟩ := List.mem_map.mp member
      obtain ⟨b, chosen, below⟩ := layout.calls_inside t call
      exact not_prefix_of_beneath batchApart chosen field below (same ▸ List.prefix_refl _)
    rw [List.flatMap_cons, List.map_append, List.nodup_append]
    refine ⟨calledOnce, ih layout.apart, ?_⟩
    intro p here q there same
    obtain ⟨t, call, rfl⟩ := List.mem_map.mp here
    obtain ⟨t', asked, rfl⟩ := List.mem_map.mp there
    obtain ⟨w, queued, above⟩ := later.asked_below t' asked
    simp only [Round.asked, List.mem_append, List.mem_map] at call
    rcases call with ⟨u, field, rfl⟩ | call
    · obtain ⟨b, chosen, below⟩ := layout.queued_inside w queued
      exact not_prefix_of_beneath batchApart chosen field (below.prefix_right above)
        (same ▸ List.prefix_refl _)
    · exact layout.outside t call w queued (same ▸ above)

theorem Layered.round {Q : List AsyncTask} {R : List (Round σ)} (layered : Layered c Q R) :
    ∀ r ∈ R, r.batch ≠ [] ∧ Layout c (fun p => ∃ b ∈ r.batch, Beneath b.task.path p) r.calls r.queued := by
  induction layered with
  | nil => simp
  | cons _ nonempty layout _ ih =>
    intro r member
    rcases List.mem_cons.mp member with rfl | later
    · exact ⟨nonempty, layout⟩
    · exact ih r later

theorem Layered.sync {Q : List AsyncTask} {R : List (Round σ)} (layered : Layered c Q R) :
    ∀ t ∈ R.flatMap (·.calls), ¬ t.Deferred c := by
  intro t member
  obtain ⟨r, member, call⟩ := List.mem_flatMap.mp member
  exact (layered.round r member).2.sync t call

theorem Layered.deferred {Q : List AsyncTask} {R : List (Round σ)} (layered : Layered c Q R) :
    ∀ u ∈ R.flatMap (·.queued), u.task.Deferred c := by
  intro u member
  obtain ⟨r, member, queued⟩ := List.mem_flatMap.mp member
  exact (layered.round r member).2.deferred u queued

theorem Layered.distinct_after {P : Path → Prop} {calls : List ResolveTask} {Q : List AsyncTask}
    {R : List (Round σ)} (layout : Layout c P calls Q) (layered : Layered c Q R) :
    ((calls ++ R.flatMap Round.asked).map (·.path)).Nodup := by
  rw [List.map_append, List.nodup_append]
  refine ⟨layout.distinct, layered.distinct layout.apart, ?_⟩
  intro p here q there same
  obtain ⟨t, call, rfl⟩ := List.mem_map.mp here
  obtain ⟨t', asked, rfl⟩ := List.mem_map.mp there
  obtain ⟨w, queued, above⟩ := layered.asked_below t' asked
  exact layout.outside t call w queued (same ▸ above)

end Layers

/-! ### Runs of an operation -/

/-- A run of an operation in rounds: its root selections, run from the host with nothing recorded,
asked the runtime for `calls` and queued `queued`; unless a non-null root field came out null, the
batch loop then went through `rounds`; the run ends at the host `host'`. -/
def RanInRounds (c : ExecContext σ) (log : σ → List ResolveTask) (fuel : Nat)
    (rootType : Schema.NamedType) (root : Resolved) (host host' : σ) (calls : List ResolveTask)
    (queued : List AsyncTask) (rounds : List (Round σ)) : Prop :=
  ∃ r st, (executeSelections c fuel rootType c.operation.selections root [] []).run { host } =
      some (r, st) ∧ Traced log { host } st calls queued ∧
    match r with
    | none => rounds = [] ∧ host' = st.host
    | some fs => ∃ tree st', Rounds c fuel log (.object fs) st rounds tree st' ∧ host' = st'.host

theorem RanInRounds.logged {c : ExecContext σ} {log : σ → List ResolveTask} {fuel : Nat}
    {rootType : Schema.NamedType} {root : Resolved} {host host' : σ} {calls : List ResolveTask}
    {queued : List AsyncTask} {R : List (Round σ)} (logs : c.runtime.Logs log)
    (ran : RanInRounds c log fuel rootType root host host' calls queued R) :
    log host' = log host ++ calls ++ R.flatMap Round.asked := by
  obtain ⟨r, st, -, traced, rest⟩ := ran
  have asked : log st.host = log host ++ calls := traced.calls_eq
  cases r with
  | none =>
    obtain ⟨rfl, rfl⟩ := rest
    simpa using asked
  | some fs =>
    obtain ⟨tree, st', rounds, rfl⟩ := rest
    rw [rounds.logged logs, asked]

end GraphWeave.Exec

namespace GraphWeave.Schema

open Exec

variable {σ : Type}

theorem RootTypeOf.known {s : Schema} {kind : OperationKind} {t : NamedType}
    (rooted : s.RootTypeOf kind t) : s.type? t.name = some t := by
  cases kind with
  | query => exact Schema.type?_name rooted
  | mutation => exact Schema.type?_name rooted
  | subscription => exact rooted.elim

/-- A run of an operation within a budget runs out of it and leaves the host as it was, or runs in
rounds: its root selections lay out their calls and queued fields, and the batch loop runs in
layered rounds from those fields. -/
theorem runOperationWithin_rounds (budget : Nat) {s : Schema} {rt : Runtime σ}
    {log : σ → List ResolveTask} (logs : rt.Logs log) (doc : Document) (op : Operation)
    {rootType : NamedType} (known : s.type? rootType.name = some rootType)
    (vars : List (String × Value)) (root : Resolved) (host : σ) :
    s.runOperationWithin budget rt doc op rootType vars root host = (none, host) ∨
      ∃ result host', s.runOperationWithin budget rt doc op rootType vars root host =
        (some result, host') ∧ ∃ calls queued R,
        RanInRounds ⟨rt, s, doc, op, vars⟩ log budget rootType root host host' calls queued R ∧
        Layout ⟨rt, s, doc, op, vars⟩ (Beneath []) calls queued ∧
        Layered ⟨rt, s, doc, op, vars⟩ queued R := by
  rcases runOperationWithin_eq budget s rt doc op rootType vars root host with
    ran | ⟨st₁, selected, ran⟩ | ⟨fs, st₁, tree, st, selected, batches, ran⟩
  · exact .inl ran
  all_goals
    refine .inr ⟨_, _, ran, ?_⟩
    obtain ⟨calls, queued, traced, layout⟩ :=
      ((sound _ budget).selections _ _ _ _ _ _ _ _ selected).laidOut logs known
  · exact ⟨calls, queued, [], ⟨none, st₁, selected, traced, rfl, rfl⟩, layout, .nil⟩
  · have queue : st₁.queue.toList = queued := by simpa using traced.queue_eq
    obtain ⟨R, rounds, layered⟩ := runBatches_rounds logs budget (queue ▸ layout.apart) batches
    exact ⟨calls, queued, R, ⟨some fs, st₁, selected, traced, tree, st, rounds, rfl⟩, layout,
      queue ▸ layered⟩

/-- Batches run breadth first. A run of an operation on the root type of its kind runs out of its
budget and leaves the host as it was, or it runs in rounds after its root selections. Then the
runtime is asked for the calls of the root selections and, round by round, for each batch and
what completing it asks. No field asked for at once is deferred (an asynchronous field other than
a root field of a mutation), and every queued field is. The `k`-th batch is never empty, and is
exactly the fields queued over the whole run that have `k` queued fields at or above them, itself
included, less those in a subtree marked before the batch, in the order they were queued. No two
calls are for the same position, so no queued field is resolved, or completed, twice. -/
theorem runOperation_breadth_first {s : Schema} {rt : Runtime σ} {log : σ → List ResolveTask}
    (logs : rt.Logs log) {doc : Document} {op : Operation} {rootType : NamedType}
    (rooted : s.RootTypeOf op.kind rootType) (vars : List (String × Value)) (root : Resolved)
    (host : σ) :
    let c : ExecContext σ := ⟨rt, s, doc, op, vars⟩
    s.runOperation rt doc op rootType vars root host =
        (.failure { message := "execution did not finish within its budget" }, host) ∨
      ∃ calls queued rounds, RanInRounds c log executionBudget rootType root host
          (s.runOperation rt doc op rootType vars root host).2 calls queued rounds ∧
        log (s.runOperation rt doc op rootType vars root host).2 =
          log host ++ calls ++ rounds.flatMap Round.asked ∧
        (∀ t ∈ calls ++ rounds.flatMap (·.calls), ¬ t.Deferred c) ∧
        (∀ u ∈ queued ++ rounds.flatMap (·.queued), u.task.Deferred c) ∧
        (∀ k (h : k < rounds.length), rounds[k].batch ≠ [] ∧
          rounds[k].batch = (queued ++ rounds.flatMap (·.queued)).filter fun u =>
            deferredDepth (queued ++ rounds.flatMap (·.queued)) u.task.path == k + 1 &&
              !isNullified rounds[k].start u.task.path) ∧
        ((calls ++ rounds.flatMap Round.asked).map (·.path)).Nodup := by
  intro c
  rcases runOperationWithin_rounds executionBudget logs doc op rooted.known vars root host with
    ran | ⟨result, host', ran, calls, queued, R, rounds, layout, layered⟩
  case inl =>
    left
    simp [runOperation, ran, bind, StateT.bind, pure, StateT.pure]
  case inr =>
    right
    have answered : s.runOperation rt doc op rootType vars root host = (result, host') := by
      simp [runOperation, ran, bind, StateT.bind, pure, StateT.pure]
    rw [answered]
    refine ⟨calls, queued, R, rounds, rounds.logged logs, ?_, ?_, ?_, layered.distinct_after layout⟩
    · intro t member
      rcases List.mem_append.mp member with here | later
      · exact layout.sync t here
      · exact layered.sync t later
    · intro u member
      rcases List.mem_append.mp member with here | later
      · exact layout.deferred u here
      · exact layered.deferred u later
    · intro k h
      exact ⟨(layered.round _ (List.getElem_mem h)).1, layered.batches layout.apart k h⟩

end GraphWeave.Schema

namespace GraphWeave.Schema

open Exec

/-- The query root of a batch by depth: `objs`, a list of objects resolved in a batch. -/
def depthWiseRoot : NamedType :=
  { name := "Query", kind := .object,
    fields := [{ name := "objs", type := .list (.named "Obj"), async := true }] }

/-- The schema of `depthWiseRoot`: an object's `id` is resolved at once and its `name` in a batch. -/
def depthWiseSchema : Schema where
  query := "Query"
  types := [depthWiseRoot,
    { name := "Obj", kind := .object,
      fields := [{ name := "id", type := .named "Leaf" },
        { name := "name", type := .named "Leaf", async := true }] },
    { name := "Leaf", kind := .scalar }]

/-- The operation `{ objs { id name } }`. -/
def depthWise : Operation :=
  ⟨.query, "", [], [], [.field ⟨"objs", "objs", [], [],
    [.field ⟨"id", "id", [], [], [], ⟨1, 10⟩⟩, .field ⟨"name", "name", [], [], [], ⟨1, 13⟩⟩], ⟨1, 3⟩⟩]⟩

/-- What `depthWiseRuntime` answers: two objects for `objs`, the string `x` for any other field. -/
def depthWiseAnswer (t : ResolveTask) : Except FieldError Resolved :=
  .ok (if t.field = "objs" then
      .list [.single (.value (.str "x") "Obj"), .single (.value (.str "y") "Obj")]
    else .single (.value (.str "x") ""))

/-- A runtime that answers every field, at once or in a batch, as `depthWiseAnswer` does. -/
def depthWiseRuntime : Runtime Unit where
  resolve t := pure (depthWiseAnswer t)
  resolveBatch ts := pure (ts.map depthWiseAnswer)
  resolveType _ _ := .error { message := "no object type" }
  serialize _ _ := .ok (.str "x")

/-- The run of `{ objs { id name } }`, with the calls it makes logged, runs breadth first. -/
theorem depth_wise_breadth_first :
    let c : ExecContext (Unit × List ResolveTask) :=
      ⟨depthWiseRuntime.traced, depthWiseSchema, ⟨[depthWise], []⟩, depthWise, []⟩
    depthWiseSchema.RootTypeOf depthWise.kind depthWiseRoot ∧
    (depthWiseSchema.runOperation depthWiseRuntime.traced ⟨[depthWise], []⟩ depthWise depthWiseRoot
        [] .null ((), []) =
        (.failure { message := "execution did not finish within its budget" }, ((), [])) ∨
      ∃ calls queued rounds, RanInRounds c Prod.snd executionBudget depthWiseRoot .null ((), [])
          (depthWiseSchema.runOperation depthWiseRuntime.traced ⟨[depthWise], []⟩ depthWise
            depthWiseRoot [] .null ((), [])).2 calls queued rounds ∧
        (depthWiseSchema.runOperation depthWiseRuntime.traced ⟨[depthWise], []⟩ depthWise
            depthWiseRoot [] .null ((), [])).2.2 =
          ((), ([] : List ResolveTask)).2 ++ calls ++ rounds.flatMap Round.asked ∧
        (∀ t ∈ calls ++ rounds.flatMap (·.calls), ¬ t.Deferred c) ∧
        (∀ u ∈ queued ++ rounds.flatMap (·.queued), u.task.Deferred c) ∧
        (∀ k (h : k < rounds.length), rounds[k].batch ≠ [] ∧
          rounds[k].batch = (queued ++ rounds.flatMap (·.queued)).filter fun u =>
            deferredDepth (queued ++ rounds.flatMap (·.queued)) u.task.path == k + 1 &&
              !isNullified rounds[k].start u.task.path) ∧
        ((calls ++ rounds.flatMap Round.asked).map (·.path)).Nodup) := by
  have rooted : depthWiseSchema.RootTypeOf depthWise.kind depthWiseRoot := rfl
  exact ⟨rooted, runOperation_breadth_first (Runtime.traced_logs _) rooted [] .null ((), [])⟩

example :
    (depthWiseSchema.runOperation depthWiseRuntime.traced ⟨[depthWise], []⟩ depthWise depthWiseRoot
        [] .null ((), [])).2.2.map (·.path) =
      [[.key "objs"], [.key "objs", .index 0, .key "id"], [.key "objs", .index 1, .key "id"],
        [.key "objs", .index 0, .key "name"], [.key "objs", .index 1, .key "name"]] := by
  cbv

end GraphWeave.Schema
