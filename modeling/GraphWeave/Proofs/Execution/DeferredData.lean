import GraphWeave.Proofs.Execution.Deferral
import GraphWeave.Proofs.Execution.BreadthFirst

/-! Deferring fields changes no data.

Run a request on a schema as it is, and again with every mark for batches erased, so that each
field is resolved where it is met. With a runtime that answers each field from its task alone, the
two runs answer with the same data.

The batch loop carries what the tree stands for (`Denotes`): filled with what each queued field
completes to at once, in any way the fields' holes allow, the tree fills to the data completed at
once. The root selections start it there (`SelectionsRun.agrees`), and each completed result keeps
it: a value written at its placeholder fills as the placeholder did, and a null passed to a
boundary takes the boundary's subtree with it, as the placeholder's null did. When no field is
left the tree holds no placeholder, so it is the data completed at once. -/

namespace GraphWeave.Exec

open ResponseValue

variable {σ : Type} {c : ExecContext σ} {answer : ResolveTask → Except FieldError Resolved}
  {res : Path → Option Filled}

/-! Fillings of the queued fields. -/

section Fillings

variable {t : AsyncTask} {old : List AsyncTask}

theorem outcome_null (nonNull : t.type.isNonNull = true) : outcome t .null = .escape t.boundary := by
  simp [outcome, ResponseValue.isNull, nonNull]

theorem outcome_eq_escape {w : ResponseValue} {b : Path} (escaped : outcome t w = .escape b) :
    b = t.boundary ∧ t.type.isNonNull = true := by
  unfold outcome at escaped
  split at escaped
  · rename_i passes
    simp only [Bool.and_eq_true] at passes
    cases escaped
    exact ⟨rfl, passes.2⟩
  · cases escaped

theorem Respects.mono {tasks tasks' : List AsyncTask} (respects : Respects (holesOf tasks') res)
    (sub : ∀ t ∈ tasks, t ∈ tasks') : Respects (holesOf tasks) res :=
  fun p b type fields allowed => respects p b type fields (holesOf_mono sub p b type fields allowed)

theorem Fills.put (fills : Fills c answer res old) (fresh : ∀ u ∈ old, u.task.path ≠ t.task.path)
    {f : Option Filled} (own : ∀ w, Settles c answer t w → f = some (outcome t w)) :
    Fills c answer (Function.update res t.task.path f) (t :: old) := by
  intro u member w settles
  rcases List.mem_cons.mp member with rfl | member
  · rw [Function.update_self]
    exact own w settles
  · rw [Function.update_of_ne (fresh u member)]
    exact fills u member w settles

theorem Respects.put (respects : Respects (holesOf old) res)
    (fresh : ∀ u ∈ old, u.task.path ≠ t.task.path) {f : Option Filled}
    (own : ∀ b, f = some (.escape b) → b = t.boundary ∧ t.type.isNonNull = true) :
    Respects (holesOf (t :: old)) (Function.update res t.task.path f) := by
  rintro p b type fields ⟨u, member, rfl, rfl, rfl, rfl⟩ b' escaped
  rcases List.mem_cons.mp member with rfl | member
  · rw [Function.update_self] at escaped
    exact own b' escaped
  · rw [Function.update_of_ne (fresh u member)] at escaped
    exact respects _ _ _ _ ⟨u, member, rfl, rfl, rfl, rfl⟩ b' escaped

theorem update_outside {P p : Path} (below : P <+: p) (f : Option Filled) :
    ∀ y, ¬ P <+: y → Function.update res p f y = res y := by
  intro y away
  refine Function.update_of_ne (fun onPath => away ?_) _ _
  rw [onPath]
  exact below

theorem Fills.queued {T : List AsyncTask} (fills : Fills c answer res (old ++ T))
    {st st₁ : ExecState σ} {E M} (added : Added st st₁ E M T) :
    Fills c answer res (queuedSince st st₁) := by
  rw [queuedSince_of_added added]
  exact fills.mono fun u member => List.mem_append_right _ member

/-- Fields at distinct paths can be filled: each with what it completes to at once, where it
completes, so that a null passes up only to its field's boundary. -/
theorem exists_fills (answers : c.runtime.Answers answer) :
    ∀ {tasks : List AsyncTask}, (tasks.map (·.task.path)).Nodup → (∀ t ∈ tasks, t.Bounded) →
      ∃ res, Fills c answer res tasks ∧ Respects (holesOf tasks) res
  | [], _, _ => by
    refine ⟨fun _ => none, fun _ member => (by cases member), ?_⟩
    rintro _ _ _ _ ⟨_, member, -⟩
    cases member
  | t :: rest, distinct, bounded => by
    rw [List.map_cons, List.nodup_cons] at distinct
    obtain ⟨res, fills, respects⟩ :=
      exists_fills answers distinct.2 fun u member => bounded u (List.mem_cons_of_mem _ member)
    have fresh : ∀ u ∈ rest, u.task.path ≠ t.task.path := fun u member same =>
      distinct.1 (same ▸ List.mem_map_of_mem member)
    by_cases settles : ∃ w, Settles c answer t w
    · obtain ⟨w, settled⟩ := settles
      refine ⟨Function.update res t.task.path (some (outcome t w)),
        fills.put fresh fun w' settled' => ?_, respects.put fresh fun b escaped => ?_⟩
      · rw [Settles.deterministic answers (bounded t List.mem_cons_self).1 settled settled']
      · exact outcome_eq_escape (Option.some.inj escaped)
    · refine ⟨Function.update res t.task.path none,
        fills.put fresh fun w settled => absurd ⟨w, settled⟩ settles,
        respects.put fresh fun b escaped => ?_⟩
      cases escaped

end Fillings

/-! Typed trees, filled. -/

section Typed

variable {root : Schema.NamedType} {hole : Holes} {tree : ResponseValue}

theorem Typed.keysDistinct (typed : Typed c root hole tree) : tree.KeysDistinct := by
  obtain ⟨entries, rfl, distinct, fit⟩ := typed
  exact keysDistinct_object distinct fun e member => (fit e.1 e.2 member).keysDistinct

theorem Typed.own_of_pending (typed : Typed c root hole tree) {p : Path}
    (pending : tree.at? p = some .pending) :
    ∃ b type fields, hole p b type fields ∧ (type.isNonNull = false → b = p) := by
  obtain ⟨k, x, e, rfl, entry, below⟩ := typed.entry_of_at? pending (typed.path_ne_nil pending)
  obtain ⟨b, type, fields, allowed, own⟩ := entry.own_of_pending below
  exact ⟨b, type, fields, by simpa using allowed, by simpa using own⟩

theorem Typed.fill_boundary (typed : Typed c root hole tree) (respects : Respects hole res)
    {b x : Path} {u : ResponseValue} (nonempty : b ≠ []) (found : tree.at? b = some u)
    (pending : u.at? x = some .pending) (escapes : res (b ++ x) = some (.escape b)) :
    ∀ o, fill res u b = some o → o = .value .null := by
  have notLeaf : ∀ j, u ≠ .leaf j := by
    rintro j rfl
    cases x <;> simp at pending
  obtain ⟨k, y, e, rfl, entry, below⟩ := typed.entry_of_at? found nonempty
  obtain ⟨B, type, fields, sub, -⟩ := entry.sub List.nil_prefix below notLeaf
  rw [List.nil_append] at sub
  have same := sub.boundary_eq_of_escape respects pending escapes (Nat.lt_succ_self _)
  intro o filled
  have toward := sub.fill_toward respects same (List.prefix_refl _) pending escapes o filled
  rwa [absorb_self, Option.some.injEq] at toward

/-- A null passing up from a placeholder to the data root takes the whole tree with it. -/
theorem Typed.fill_root (typed : Typed c root hole tree) (respects : Respects hole res) {x : Path}
    (pending : tree.at? x = some .pending) (escapes : res x = some (.escape [])) :
    ∀ o, fill res tree [] = some o → o = .value .null := by
  obtain ⟨entries, rfl, -, fit⟩ := typed
  cases x with
  | nil => simp at pending
  | cons s x =>
    cases s with
    | index i => simp [at?] at pending
    | key k =>
      obtain ⟨e, found, below⟩ := Option.bind_eq_some_iff.mp (by simpa using pending)
      have toward : ∀ r, fillEntries res [] entries = some r → r = .inr [] :=
        fillEntries_toward ⟨(k, e), mem_of_lookup found,
            (fit k e (mem_of_lookup found)).fill_toward respects List.nil_prefix below
              (by simpa using escapes)⟩
          fun e' member b' escaped => (fit e'.1 e'.2 member).escape respects escaped
      intro o filled
      rw [fill_object] at filled
      obtain ⟨r, entriesFilled, absorbed⟩ := absorb_map_eq_some filled
      rw [toward r entriesFilled] at absorbed
      simpa [Filled.ofSum] using absorbed.symm

end Typed

/-! What the tree stands for, and one completed result. -/

/-- The tree stands for `d`: filled with what its queued fields complete to at once, in any way
their holes allow, it fills to `d`. -/
def Denotes (c : ExecContext σ) (answer : ResolveTask → Except FieldError Resolved)
    (tree : ResponseValue) (tasks : List AsyncTask) (d : ResponseValue) : Prop :=
  ∀ res, Fills c answer res tasks → Respects (holesOf tasks) res → fill res tree [] = some (.value d)

section Step

variable {fuel : Nat} {root : Schema.NamedType} {t : AsyncTask} {old rest T : List AsyncTask}
  {tree d v : ResponseValue} {st st₁ : ExecState σ} {E : List ResponseError} {M : List Path}

/-- Fields without a placeholder can be dropped: they fill nothing. -/
theorem Denotes.narrow (answers : c.runtime.Answers answer) {tasks tasks' : List AsyncTask}
    (denotes : Denotes c answer tree tasks d) (distinct : tree.KeysDistinct)
    (nodup : (tasks.map (·.task.path)).Nodup) (bounded : ∀ t ∈ tasks, t.Bounded)
    (keep : ∀ t ∈ tasks, tree.at? t.task.path = some .pending → t ∈ tasks') :
    Denotes c answer tree tasks' d := by
  intro res fills respects
  obtain ⟨other, fillsAll, respectsAll⟩ := exists_fills answers nodup bounded
  classical
  let patched : Path → Option Filled := fun p =>
    if tree.at? p = some .pending then res p else other p
  have same : fill patched tree [] = fill res tree [] :=
    fill_congr tree [] distinct fun x pending => by simp [patched, pending]
  rw [← same]
  refine denotes patched (fun t member w settles => ?_) fun p b type fields allowed b' escaped => ?_
  · by_cases pending : tree.at? t.task.path = some .pending
    · simp only [patched, if_pos pending]
      exact fills t (keep t member pending) w settles
    · simp only [patched, if_neg pending]
      exact fillsAll t member w settles
  · by_cases pending : tree.at? p = some .pending
    · simp only [patched, if_pos pending] at escaped
      exact respects p b type fields (holesOf_keep keep p b type fields pending allowed) b' escaped
    · simp only [patched, if_neg pending] at escaped
      exact respectsAll p b type fields allowed b' escaped

/-- A field completed with its answer agrees with what it settles to. -/
theorem completeResult_agrees (answers : c.runtime.Answers answer)
    (completed : (completeResult c fuel t (answer t.task)).run st = some (v, st₁))
    (bounded : t.boundary <+: t.task.path) (fills : Fills c answer res (queuedSince st st₁))
    {w : ResponseValue} (settles : Settles c answer t w) : Agrees res t.task.path t.boundary v w := by
  cases answered : answer t.task with
  | error e =>
    rw [answered] at completed
    simp only [completeResult, run_bind_eq_some, run_pure_eq_some] at completed
    obtain ⟨⟨⟩, st₂, -, rfl, rfl⟩ := completed
    simp only [Settles, answered] at settles
    rw [settles]
    exact agrees_null_null
  | ok r =>
    rw [answered] at completed
    simp only [Settles, answered] at settles
    obtain ⟨sy, sy', now⟩ := settles
    exact ((sound c fuel).value _ _ _ _ _ _ _ _ completed).agrees answers now bounded fills

theorem settles_null (answers : c.runtime.Answers answer)
    (completed : (completeResult c fuel t (answer t.task)).run st = some (.null, st₁))
    (bounded : t.boundary <+: t.task.path) (fills : Fills c answer res (queuedSince st st₁))
    (nonNull : t.type.isNonNull = true) (w : ResponseValue) (settles : Settles c answer t w) :
    some (Filled.escape t.boundary) = some (outcome t w) := by
  rw [(completeResult_agrees answers completed bounded fills settles).null_right,
    outcome_null nonNull]

/-- A value that agrees with what its field settles to fills to what the field passes to its
position, unless it is a null that the field passes up. -/
theorem Agrees.fill_eq_outcome {w : ResponseValue} (agree : Agrees res t.task.path t.boundary v w)
    (bounded : t.Bounded) (own : t.type.isNonNull = false → t.boundary = t.task.path)
    (kept : (v.isNull && t.type.isNonNull) = false) :
    fill res v t.task.path = some (outcome t w) := by
  rcases agree with ⟨filled, onlyNull⟩ | ⟨escaped, away, rfl⟩
  · rw [filled, outcome]
    by_cases passes : (w.isNull && t.type.isNonNull) = true
    · simp only [Bool.and_eq_true] at passes
      rcases onlyNull (eq_null_of_isNull passes.1) with rfl | own'
      · simp [ResponseValue.isNull, passes.2] at kept
      · exact absurd own' (bounded.2 passes.2)
    · rw [if_neg passes]
  · have nonNull : t.type.isNonNull = true := by
      cases nullable : t.type.isNonNull with
      | true => rfl
      | false => exact absurd (own nullable) away
    rw [escaped, outcome_null nonNull]

/-- The completed field's position filled with what the field comes to, and the others as before:
the tree fills to what it stands for, and passes nulls up as its holes allow. -/
theorem Denotes.put (denotes : Denotes c answer tree (t :: old) d)
    (inv : Consistent tree st (t :: old)) (fills : Fills c answer res (old ++ T))
    (respects : Respects (holesOf (old ++ T)) res) {f : Option Filled}
    (own : ∀ w, Settles c answer t w → f = some (outcome t w))
    (ownHole : ∀ b, f = some (.escape b) → b = t.boundary ∧ t.type.isNonNull = true) :
    fill (Function.update res t.task.path f) tree [] = some (.value d) ∧
      Respects (holesOf (t :: old)) (Function.update res t.task.path f) := by
  have fresh : ∀ u ∈ old, u.task.path ≠ t.task.path := by
    intro u member same
    have nodup := inv.distinct
    rw [List.map_cons, List.nodup_cons] at nodup
    exact nodup.1 (same ▸ List.mem_map_of_mem member)
  have sub : ∀ u ∈ old, u ∈ old ++ T := fun u member => List.mem_append_left _ member
  have respects' := (respects.mono sub).put fresh ownHole
  exact ⟨denotes _ ((fills.mono sub).put fresh own) respects', respects'⟩

theorem Denotes.putNull (answers : c.runtime.Answers answer)
    (denotes : Denotes c answer tree (t :: old) d) (inv : Consistent tree st (t :: old))
    (fills : Fills c answer res (old ++ T)) (respects : Respects (holesOf (old ++ T)) res)
    (completed : (completeResult c fuel t (answer t.task)).run st = some (.null, st₁))
    (added : Added st st₁ E M T) (nonNull : t.type.isNonNull = true) :
    fill (Function.update res t.task.path (some (.escape t.boundary))) tree [] = some (.value d) ∧
      Respects (holesOf (t :: old)) (Function.update res t.task.path (some (.escape t.boundary))) :=
  denotes.put inv fills respects
    (settles_null answers completed (inv.bounded t List.mem_cons_self).1 (fills.queued added)
      nonNull)
    fun _ escaped => ⟨(Filled.escape.inj (Option.some.inj escaped)).symm, nonNull⟩

/-- A null of a non-null field whose boundary is the data root: the data completed at once is
null. -/
theorem Denotes.eq_null_of_root (answers : c.runtime.Answers answer)
    (inv : Consistent tree st (t :: old)) (typed : Typed c root (holesOf (t :: old)) tree)
    (denotes : Denotes c answer tree (t :: old) d) (placeholder : tree.at? t.task.path = some .pending)
    (completed : (completeResult c fuel t (answer t.task)).run st = some (.null, st₁))
    (added : Added st st₁ E M T) (under : Under t.task.path .null E M T)
    (nonNull : t.type.isNonNull = true) (rooted : t.boundary = []) : d = .null := by
  have below : ∀ u ∈ T, t.task.path <+: u.task.path := by
    intro u member
    obtain ⟨rel, at_path, -⟩ := under.tasks u member
    exact ⟨rel, at_path.symm⟩
  obtain ⟨res, fills, respects⟩ := exists_fills answers
    (inv.distinct_append placeholder below under.distinct) fun u member =>
      (List.mem_append.mp member).elim (fun member => inv.bounded u (List.mem_cons_of_mem _ member))
        (under.bounded u)
  obtain ⟨filled, respects'⟩ := denotes.putNull answers inv fills respects completed added nonNull
  exact Filled.value.inj (typed.fill_root respects' placeholder
    (by rw [Function.update_self, rooted]) _ filled)

/-- A null of a non-null field passed to a boundary below the data root: nulling the boundary's
subtree keeps what the tree stands for. -/
theorem Denotes.nullBoundary (answers : c.runtime.Answers answer)
    (inv : Consistent tree st (t :: old)) (typed : Typed c root (holesOf (t :: old)) tree)
    (denotes : Denotes c answer tree (t :: old) d) (placeholder : tree.at? t.task.path = some .pending)
    (completed : (completeResult c fuel t (answer t.task)).run st = some (.null, st₁))
    (added : Added st st₁ E M T) (nonNull : t.type.isNonNull = true) (nonempty : t.boundary ≠ []) :
    Denotes c answer (tree.setAt t.boundary .null) (old ++ T) d := by
  intro res fills respects
  obtain ⟨x, same⟩ := (inv.bounded t List.mem_cons_self).1
  obtain ⟨filled, respects'⟩ := denotes.putNull answers inv fills respects completed added nonNull
  have present : ∃ u, tree.at? t.boundary = some u ∧ u.at? x = some .pending := by
    rw [← same, at?_append] at placeholder
    cases above : tree.at? t.boundary with
    | none => simp [above] at placeholder
    | some u => exact ⟨u, rfl, by simpa [above] using placeholder⟩
  obtain ⟨u, found, below⟩ := present
  have within : ∀ o, fill (Function.update res t.task.path (some (.escape t.boundary))) u
      t.boundary = some o → fill res .null t.boundary = some o := by
    intro o filledAt
    rw [typed.fill_boundary respects' nonempty found below
      (by rw [same, Function.update_self]) o filledAt, fill_null]
  rw [setAt_eq_replaceAt _ nonempty]
  exact fill_replaceAt within (update_outside ⟨x, same⟩ _) t.boundary tree [] (List.nil_append _)
    typed.keysDistinct found _ filled

/-- A value written where its placeholder stands keeps what the tree stands for. -/
theorem Denotes.write (answers : c.runtime.Answers answer)
    (inv : Consistent tree st (t :: rest ++ st.queue.toList))
    (typed : Typed c root (holesOf (t :: rest ++ st.queue.toList)) tree)
    (denotes : Denotes c answer tree (t :: rest ++ st.queue.toList) d)
    (placeholder : tree.at? t.task.path = some .pending)
    (completed : (completeResult c fuel t (answer t.task)).run st = some (v, st₁))
    (added : Added st st₁ E M T) (kept : (v.isNull && t.type.isNonNull) = false) :
    Denotes c answer (tree.setAt t.task.path v) (rest ++ st.queue.toList ++ T) d := by
  intro res fills respects
  have bounded := inv.bounded t List.mem_cons_self
  have own : t.type.isNonNull = false → t.boundary = t.task.path := by
    obtain ⟨b, type, fields, ⟨u, member, at_path, rfl, rfl, -⟩, own⟩ :=
      typed.own_of_pending placeholder
    rwa [inv.eq_of_path member at_path] at own
  have ownHole : ∀ b, fill res v t.task.path = some (.escape b) →
      b = t.boundary ∧ t.type.isNonNull = true := by
    intro b escaped
    have queued : ∀ u ∈ st₁.queue.toList, u ∈ rest ++ st.queue.toList ++ T := by
      intro u member
      rw [added.queue_eq] at member
      rw [List.append_assoc]
      exact List.mem_append_right _ member
    rcases (completeResult_fits completed).2 with rfl | fit
    · simp at escaped
    · obtain ⟨rfl, away⟩ := fit.escape (respects.mono queued) escaped
      refine ⟨rfl, ?_⟩
      cases nullable : t.type.isNonNull with
      | true => rfl
      | false => exact absurd (own nullable) away
  obtain ⟨filled, -⟩ := denotes.put inv fills respects
    (fun w settles =>
      (completeResult_agrees answers completed bounded.1 (fills.queued added) settles).fill_eq_outcome
        bounded own kept)
    ownHole
  have within : ∀ o, fill (Function.update res t.task.path (fill res v t.task.path)) .pending
      t.task.path = some o → fill res v t.task.path = some o := by
    intro o filledAt
    rwa [fill_pending, Function.update_self, absorb_fill] at filledAt
  rw [setAt_eq_replaceAt _ (inv.path_ne_nil placeholder)]
  exact fill_replaceAt within (update_outside (List.prefix_refl _) _) t.task.path tree []
    (List.nil_append _) typed.keysDistinct placeholder _ filled

end Step

/-! The data root. -/

section Root

variable {object : Schema.NamedType} {selections : List Selection} {source : Resolved}
  {st st' sy sy' : ExecState σ} {r₀ : Option (List (String × ResponseValue))}

theorem SelectionsRun.root_none (answers : c.runtime.Answers answer)
    (run : SelectionsRun c object selections source [] [] st none st')
    (now : SelectionsRun c.eraseAsync object.eraseAsync selections source [] [] sy r₀ sy') :
    r₀ = none := by
  obtain ⟨E, M, T, added, under⟩ := run.under (List.prefix_refl _)
  obtain ⟨res, fills, -⟩ := exists_fills answers under.distinct under.bounded
  rcases run.agrees answers now (List.prefix_refl _) (by rwa [queuedSince_of_added added]) with
    ⟨_, _, impossible, -, -⟩ | ⟨rfl, -⟩
  · cases impossible
  · rfl

theorem SelectionsRun.denotes_root (answers : c.runtime.Answers answer)
    {fs : List (String × ResponseValue)}
    (run : SelectionsRun c object selections source [] [] st (some fs) st')
    (now : SelectionsRun c.eraseAsync object.eraseAsync selections source [] [] sy r₀ sy') :
    Denotes c answer (.object fs) (queuedSince st st') (r₀.elim .null .object) := by
  intro res fills _
  rcases agrees_of_parts (fill_object res []) (fun _ => by simp)
      (run.agrees answers now (List.prefix_refl _) fills) with
    ⟨filled, -⟩ | ⟨-, away, -⟩
  · exact filled
  · exact absurd rfl away

end Root

/-! The batch loop, with every field answered. -/

/-- What the batch loop keeps when every field is answered by `answer`: the data root is null and
so is `d`, the data completed at once; or the data root is live, and the tree conforms to the
operation and stands for `d`. -/
def Answered (c : ExecContext σ) (answer : ResolveTask → Except FieldError Resolved)
    (root : Schema.NamedType) (d tree : ResponseValue) (st : ExecState σ) (tasks : List AsyncTask) :
    Prop :=
  (st.dataNull = true ∧ d = .null) ∨
    (st.dataNull = false ∧ Conforms c root tree st tasks ∧ Denotes c answer tree tasks d)

section Loop

variable {fuel : Nat} {root : Schema.NamedType} {d : ResponseValue}

/-- Completing one result with its answer keeps the invariant. -/
theorem Answered.completeAsync (answers : c.runtime.Answers answer) {t : AsyncTask}
    {rest : List AsyncTask} {tree tree' : ResponseValue} {st st' : ExecState σ}
    (running : st.dataNull = false) (conforms : Conforms c root tree st (t :: rest ++ st.queue.toList))
    (denotes : Denotes c answer tree (t :: rest ++ st.queue.toList) d)
    (h : (completeAsync c fuel t (answer t.task) tree).run st = some (tree', st')) :
    Answered c answer root d tree' st' (rest ++ st'.queue.toList) := by
  have conforms' := Conforms.batchInvariant.step conforms h
  obtain ⟨inv, typed⟩ := conforms
  rcases completeAsync_cases h with ⟨nulled, rfl, rfl⟩ | ⟨live, v, st₁, completed, placed⟩
  · refine .inr ⟨running, conforms'.resolve_left (by simp [running]),
      denotes.narrow answers typed.keysDistinct inv.distinct inv.bounded fun u member pending => ?_⟩
    rcases List.mem_cons.mp member with rfl | member
    · rw [inv.live pending] at nulled
      cases nulled
    · exact member
  have placeholder : tree.at? t.task.path = some .pending :=
    (inv.queued t List.mem_cons_self).resolve_left (by simp [live])
  obtain ⟨E, M, T, added, under⟩ :=
    completeResult_under completed (inv.bounded t List.mem_cons_self).1
  rcases placeAsync_cases placed with
    ⟨null, nonNull, rooted, rfl, rfl⟩ | ⟨null, nonNull, nonempty, rfl, marked⟩ | ⟨kept, rfl, rfl⟩
  · obtain rfl := eq_null_of_isNull null
    exact .inl ⟨rfl, denotes.eq_null_of_root answers inv typed placeholder completed added under
      nonNull rooted⟩
  · obtain rfl := eq_null_of_isNull null
    obtain ⟨M₂, -, -, added₂⟩ := added_markNullified marked
    have same : st'.dataNull = false := by rw [added₂.dataNull_eq, added.dataNull_eq, running]
    refine .inr ⟨same, conforms'.resolve_left (by simp [same]), ?_⟩
    rw [added₂.queue_eq, added.queue_eq, List.append_nil, ← List.append_assoc]
    exact denotes.nullBoundary answers inv typed placeholder completed added nonNull nonempty
  · have same : st'.dataNull = false := by rw [added.dataNull_eq, running]
    refine .inr ⟨same, conforms'.resolve_left (by simp [same]), ?_⟩
    rw [added.queue_eq, ← List.append_assoc]
    exact denotes.write answers inv typed placeholder completed added kept

/-- Resolving a batch gives each field its answer. -/
theorem resolveAll_answers (answers : c.runtime.Answers answer) {tasks : List AsyncTask}
    {st st' : ExecState σ} {rs : List (Except FieldError Resolved)}
    (h : (resolveAll c tasks).run st = some (rs, st')) : rs = tasks.map fun t => answer t.task := by
  unfold resolveAll at h
  split at h
  · rename_i empty
    simp only [run_pure_eq_some] at h
    obtain ⟨rfl, rfl⟩ := h
    simp [List.isEmpty_iff.mp empty]
  · simp only [run_bind_eq_some, run_pure_eq_some] at h
    obtain ⟨results, st₁, resolved, rfl, rfl⟩ := h
    have answered := answers.resolveBatch (tasks.map (·.task)) st.host
    simp only [resolveBatch, StateT.run] at resolved answered
    cases batch : c.runtime.resolveBatch (tasks.map (·.task)) st.host with
    | mk rs' host' =>
      rw [batch] at resolved answered
      simp only [Option.some.injEq, Prod.mk.injEq] at resolved
      obtain ⟨rfl, -⟩ := resolved
      change rs' = _ at answered
      rw [answered, fitResults_of_length (by simp), List.map_map]
      rfl

/-- Completing a batch's answers in order keeps the invariant. -/
theorem Answered.completeBatch (answers : c.runtime.Answers answer) :
    ∀ (tasks : List AsyncTask) {tree tree' : ResponseValue} {st st' : ExecState σ},
      st.dataNull = false → Conforms c root tree st (tasks ++ st.queue.toList) →
      Denotes c answer tree (tasks ++ st.queue.toList) d →
      (Exec.completeBatch c fuel tree (tasks.zip (tasks.map fun t => answer t.task))).run st =
        some (tree', st') →
      Answered c answer root d tree' st' st'.queue.toList
  | [], tree, tree', st, st', running, conforms, denotes, h => by
    simp only [List.map_nil, List.zip_nil_left, Exec.completeBatch, run_pure_eq_some] at h
    obtain ⟨rfl, rfl⟩ := h
    exact .inr ⟨running, conforms, denotes⟩
  | t :: rest, tree, tree', st, st', running, conforms, denotes, h => by
    simp only [List.map_cons, List.zip_cons_cons, Exec.completeBatch, run_bind_eq_some] at h
    obtain ⟨tree₁, st₁, step, st₂, st₃, got, h⟩ := h
    simp [get, getThe, MonadStateOf.get] at got
    obtain ⟨rfl, rfl⟩ := got
    rcases Answered.completeAsync answers running conforms denotes step with
      ⟨null, nothing⟩ | ⟨live, conforms₁, denotes₁⟩
    · split at h
      · simp only [run_pure_eq_some] at h
        obtain ⟨rfl, rfl⟩ := h
        exact .inl ⟨null, nothing⟩
      · rename_i stillLive
        simp [null] at stillLive
    · split at h
      · rename_i null
        simp [live] at null
      · exact Answered.completeBatch answers rest live conforms₁ denotes₁ h

/-- One batch keeps the invariant. -/
theorem Answered.batch (answers : c.runtime.Answers answer) {tree tree₁ : ResponseValue}
    {st st₁ st₂ : ExecState σ} {results : List (Except FieldError Resolved)}
    (running : (st.queue.isEmpty || st.dataNull) = false)
    (conforms : Conforms c root tree st st.queue.toList)
    (denotes : Denotes c answer tree st.queue.toList d)
    (resolved : (resolveAll c (st.queue.toList.filter fun t => !isNullified st t.task.path)).run
      { st with queue := #[] } = some (results, st₁))
    (batch : (Exec.completeBatch c fuel tree
      ((st.queue.toList.filter fun t => !isNullified st t.task.path).zip results)).run st₁ =
      some (tree₁, st₂)) :
    Answered c answer root d tree₁ st₂ st₂.queue.toList := by
  simp only [Bool.or_eq_false_iff] at running
  obtain ⟨-, added⟩ := resolveAll_run resolved
  rw [resolveAll_answers answers resolved] at batch
  have errors : st₁.errors = st.errors := Array.toList_inj.mp (by simpa using added.errors_eq)
  have noQueue : st₁.queue.toList = [] := by simp [added.queue_eq]
  have live : Conforms c root tree st₁ (st.queue.toList.filter fun t => !isNullified st t.task.path) :=
    ⟨conforms.1.keepLive errors (by simpa using added.marks_eq), conforms.2.keepLive conforms.1⟩
  have narrowed : Denotes c answer tree
      (st.queue.toList.filter fun t => !isNullified st t.task.path) d :=
    denotes.narrow answers conforms.2.keysDistinct conforms.1.distinct conforms.1.bounded
      fun u member pending => List.mem_filter.mpr ⟨member, by simp [conforms.1.live pending]⟩
  refine Answered.completeBatch answers _ (by simp [added.dataNull_eq, running.2]) ?_ ?_ batch
  · rwa [noQueue, List.append_nil]
  · rwa [noQueue, List.append_nil]

theorem Denotes.settled {tree : ResponseValue} {st : ExecState σ}
    (denotes : Denotes c answer tree [] d) (conforms : Conforms c root tree st []) : tree = d := by
  have filled := denotes (fun _ => none) (fun _ member => by cases member) (by
    rintro _ _ _ _ ⟨_, member, -⟩
    cases member)
  rw [fill_settled tree [] conforms.2.keysDistinct conforms.2.no_pending] at filled
  exact Filled.value.inj (Option.some.inj filled)

theorem Answered.finished {tree : ResponseValue} {st : ExecState σ}
    (holds : Answered c answer root d tree st st.queue.toList)
    (stopped : (st.queue.isEmpty || st.dataNull) = true) :
    (st.dataNull = true ∧ d = .null) ∨ (st.dataNull = false ∧ tree = d) := by
  rcases holds with null | ⟨live, conforms, denotes⟩
  · exact .inl null
  · simp only [live, Bool.or_false, Array.isEmpty_iff] at stopped
    have empty : st.queue.toList = [] := by simp [stopped]
    rw [empty] at conforms denotes
    exact .inr ⟨live, denotes.settled conforms⟩

/-- The batch loop ends with the data completed at once, or with a null data root when that data
is null. -/
theorem Answered.runBatches (answers : c.runtime.Answers answer) (rounds : Nat)
    {tree tree' : ResponseValue} {st st' : ExecState σ}
    (holds : Answered c answer root d tree st st.queue.toList)
    (h : (Exec.runBatches c fuel rounds tree).run st = some (tree', st')) :
    (st'.dataNull = true ∧ d = .null) ∨ (st'.dataNull = false ∧ tree' = d) := by
  induction rounds generalizing tree st with
  | zero =>
    rcases runBatches_cases h with ⟨stopped, rfl, rfl⟩ | ⟨_, impossible, _⟩
    · exact holds.finished stopped
    · cases impossible
  | succ rounds ih =>
    rcases runBatches_cases h with ⟨stopped, rfl, rfl⟩ |
      ⟨_, same, running, results, st₁, tree₁, st₂, resolved, batch, next⟩
    · exact holds.finished stopped
    · cases same
      rcases holds with ⟨null, -⟩ | ⟨-, conforms, denotes⟩
      · simp [null] at running
      · exact ih (Answered.batch answers running conforms denotes resolved batch) next

end Loop

end GraphWeave.Exec

namespace GraphWeave.Schema

open Exec ResponseValue

variable {σ : Type} {answer : ResolveTask → Except FieldError Resolved} {budget : Nat} {s : Schema}
  {runtime : Runtime σ} {doc : Document} {op : Operation} {rootType : NamedType}
  {vars : List (String × Value)} {root : Resolved} {host host' : σ} {result : ExecutionResult}

theorem runOperationWithin_root
    (h : s.runOperationWithin budget runtime doc op rootType vars root host = (some result, host')) :
    ∃ r st', SelectionsRun ⟨runtime, s, doc, op, vars⟩ rootType op.selections root [] [] { host } r
      st' := by
  rcases runOperationWithin_eq budget s runtime doc op rootType vars root host with
    ran | ⟨st₁, selected, -⟩ | ⟨fs, st₁, tree, st, selected, -, -⟩
  · rw [ran] at h
    cases h
  · exact ⟨_, _, (sound _ budget).selections _ _ _ _ _ _ _ _ selected⟩
  · exact ⟨_, _, (sound _ budget).selections _ _ _ _ _ _ _ _ selected⟩

/-- A finished run of an operation answers with the data its root selections complete to at once.
-/
theorem runOperationWithin_data (answers : runtime.Answers answer)
    (h : s.runOperationWithin budget runtime doc op rootType vars root host = (some result, host'))
    {sy sy' : ExecState σ} {r₀ : Option (List (String × ResponseValue))}
    (now : SelectionsRun (⟨runtime, s, doc, op, vars⟩ : ExecContext σ).eraseAsync rootType.eraseAsync
      op.selections root [] [] sy r₀ sy') :
    result.data = r₀.map .object := by
  have answers' : (⟨runtime, s, doc, op, vars⟩ : ExecContext σ).runtime.Answers answer := answers
  rcases runOperationWithin_eq budget s runtime doc op rootType vars root host with
    ran | ⟨st₁, selected, ran⟩ | ⟨fs, st₁, tree, st, selected, batches, ran⟩
  · rw [ran] at h
    cases h
  · rw [ran] at h
    cases h
    rw [((sound _ budget).selections _ _ _ _ _ _ _ _ selected).root_none answers' now]
    rfl
  · have data : result.data = if st.dataNull then none else some tree := by
      rw [ran] at h
      cases h
      rfl
    have run := (sound _ budget).selections _ _ _ _ _ _ _ _ selected
    obtain ⟨E, M, T, added, under⟩ := run.under (List.prefix_refl _)
    have queue : st₁.queue.toList = T := by simpa using added.queue_eq
    have denotes := run.denotes_root answers' now
    rw [queuedSince_of_added added, ← queue] at denotes
    have conforms :
        Conforms ⟨runtime, s, doc, op, vars⟩ rootType (.object fs) st₁ st₁.queue.toList := by
      rw [queue]
      exact ⟨Consistent.start added under, fs, rfl, queue ▸ run.fits fs rfl⟩
    rcases Answered.runBatches answers' budget (.inr ⟨added.dataNull_eq, conforms, denotes⟩) batches
      with ⟨null, nothing⟩ | ⟨live, rfl⟩
    · cases r₀ with
      | none => simp [data, null]
      | some fs₀ => cases nothing
    · cases r₀ with
      | some fs₀ => simp [data, live]
      | none =>
        have nullData : result.data = some .null := by simp [data, live]
        obtain ⟨entries, impossible, -⟩ := runOperationWithin_typed h nullData
        cases impossible

theorem runOperationWithin_data_eq_eraseAsync (answers : runtime.Answers answer)
    (h : s.runOperationWithin budget runtime doc op rootType vars root host = (some result, host'))
    {host₀ : σ} {result₀ : ExecutionResult}
    (h₀ : s.eraseAsync.runOperationWithin budget runtime doc op rootType.eraseAsync vars root host =
      (some result₀, host₀)) :
    result.data = result₀.data := by
  obtain ⟨r₀, sy', now⟩ := runOperationWithin_root h₀
  have now' : SelectionsRun (⟨runtime, s, doc, op, vars⟩ : ExecContext σ).eraseAsync.eraseAsync
      rootType.eraseAsync.eraseAsync op.selections root [] [] { host } r₀ sy' := by
    rw [Exec.eraseAsync_eraseAsync, NamedType.eraseAsync_eraseAsync]
    exact now
  rw [runOperationWithin_data answers h now, runOperationWithin_data answers h₀ now']

theorem runOperationWithin_of_finished
    (finishes : (s.runOperation runtime doc op rootType vars root host).1 ≠
      .failure { message := "execution did not finish within its budget" }) :
    ∃ host', s.runOperationWithin executionBudget runtime doc op rootType vars root host =
      (some (s.runOperation runtime doc op rootType vars root host).1, host') := by
  unfold runOperation at finishes ⊢
  cases h : s.runOperationWithin executionBudget runtime doc op rootType vars root host with
  | mk r host' =>
  cases r with
  | none => simp [h, bind, StateT.bind, pure, StateT.pure] at finishes
  | some result =>
    simp only [h, bind, StateT.bind, pure, StateT.pure]
    exact ⟨host', rfl⟩

theorem runOperation_data_eq_eraseAsync (answers : runtime.Answers answer)
    (finishes : (s.runOperation runtime doc op rootType vars root host).1 ≠
      .failure { message := "execution did not finish within its budget" })
    (finishesAtOnce : (s.eraseAsync.runOperation runtime doc op rootType.eraseAsync vars root host).1 ≠
      .failure { message := "execution did not finish within its budget" }) :
    (s.runOperation runtime doc op rootType vars root host).1.data =
      (s.eraseAsync.runOperation runtime doc op rootType.eraseAsync vars root host).1.data := by
  obtain ⟨host', within⟩ := runOperationWithin_of_finished finishes
  obtain ⟨host₀, within₀⟩ := runOperationWithin_of_finished finishesAtOnce
  exact runOperationWithin_data_eq_eraseAsync answers within within₀

end GraphWeave.Schema

namespace GraphWeave

/-- Deferring fields changes no data. With a runtime that answers each field from its task alone,
a request run on a schema answers with the data of the same request run on the schema with every
mark for batches erased, where each field is resolved where it is met, as long as neither run
runs out of the execution budget. Every value and every null passed up to a boundary lands where
completing at once puts it; so any two markings of the same schema answer with the same data. -/
theorem execute_data_eq_eraseAsync {σ : Type} (s : Schema) (runtime : Runtime σ)
    {answer : ResolveTask → Except FieldError Resolved} (answers : runtime.Answers answer)
    (doc : Document) (operationName : String) (given : List (String × Value)) (root : Resolved)
    (host : σ)
    (finishes : (s.execute runtime doc operationName given root host).1 ≠
      .failure { message := "execution did not finish within its budget" })
    (finishesAtOnce : (s.eraseAsync.execute runtime doc operationName given root host).1 ≠
      .failure { message := "execution did not finish within its budget" }) :
    (s.execute runtime doc operationName given root host).1.data =
      (s.eraseAsync.execute runtime doc operationName given root host).1.data := by
  unfold Schema.execute at finishes finishesAtOnce ⊢
  cases found : doc.operation? operationName with
  | none => simp [pure, StateT.pure, ExecutionResult.failure]
  | some op =>
  simp only [coerceVariables_eraseAsync] at finishesAtOnce ⊢
  cases coerced : s.coerceVariables given op.variableDefinitions with
  | error e => simp [pure, StateT.pure, ExecutionResult.failure]
  | ok vars =>
  cases kind : op.kind with
  | subscription => simp [pure, StateT.pure, ExecutionResult.failure]
  | query =>
    simp only [Schema.queryType?_eraseAsync] at finishesAtOnce ⊢
    cases rooted : s.queryType? with
    | none => simp [pure, StateT.pure, ExecutionResult.failure]
    | some rootType =>
      simp only [found, coerced, kind, rooted, Option.map_some] at finishes finishesAtOnce ⊢
      exact Schema.runOperation_data_eq_eraseAsync answers finishes finishesAtOnce
  | mutation =>
    simp only [Schema.mutationType?_eraseAsync] at finishesAtOnce ⊢
    cases rooted : s.mutationType? with
    | none => simp [pure, StateT.pure, ExecutionResult.failure]
    | some rootType =>
      simp only [found, coerced, kind, rooted, Option.map_some] at finishes finishesAtOnce ⊢
      exact Schema.runOperation_data_eq_eraseAsync answers finishes finishesAtOnce

/-- `{ objs { id name } }` with `objs` and `name` batched answers as with nothing batched. -/
theorem execute_data_eq_eraseAsync_depthWise :
    let answer : ResolveTask → Except FieldError Resolved := fun t =>
      ((Schema.depthWiseRuntime.resolve t).run ()).1
    Schema.depthWiseRuntime.Answers answer ∧
      (Schema.depthWiseSchema.execute Schema.depthWiseRuntime ⟨[Schema.depthWise], []⟩ "" [] .null
        ()).1 ≠ .failure { message := "execution did not finish within its budget" } ∧
      (Schema.depthWiseSchema.eraseAsync.execute Schema.depthWiseRuntime ⟨[Schema.depthWise], []⟩ ""
        [] .null ()).1 ≠ .failure { message := "execution did not finish within its budget" } ∧
      (Schema.depthWiseSchema.execute Schema.depthWiseRuntime ⟨[Schema.depthWise], []⟩ "" [] .null
        ()).1.data =
      (Schema.depthWiseSchema.eraseAsync.execute Schema.depthWiseRuntime ⟨[Schema.depthWise], []⟩ ""
        [] .null ()).1.data := by
  intro answer
  have answers : Schema.depthWiseRuntime.Answers answer := ⟨fun _ _ => rfl, fun _ _ => rfl⟩
  have deferred : ((Schema.depthWiseSchema.execute Schema.depthWiseRuntime ⟨[Schema.depthWise], []⟩
      "" [] .null ()).1.data).isSome = true := by cbv
  have atOnce : ((Schema.depthWiseSchema.eraseAsync.execute Schema.depthWiseRuntime
      ⟨[Schema.depthWise], []⟩ "" [] .null ()).1.data).isSome = true := by cbv
  have finishes : (Schema.depthWiseSchema.execute Schema.depthWiseRuntime ⟨[Schema.depthWise], []⟩
      "" [] .null ()).1 ≠ .failure { message := "execution did not finish within its budget" } := by
    intro failed
    simp [failed, ExecutionResult.failure] at deferred
  have finishesAtOnce : (Schema.depthWiseSchema.eraseAsync.execute Schema.depthWiseRuntime
      ⟨[Schema.depthWise], []⟩ "" [] .null ()).1 ≠
      .failure { message := "execution did not finish within its budget" } := by
    intro failed
    simp [failed, ExecutionResult.failure] at atOnce
  exact ⟨answers, finishes, finishesAtOnce,
    execute_data_eq_eraseAsync _ _ answers _ _ _ _ _ finishes finishesAtOnce⟩

end GraphWeave
