import GraphWeave.Proofs.Registry.Calls

/-!
The life of a registry: open until finished, then finalized or failed for good; calls on a closed
registry change nothing, and a refused edit leaves the registry as it was.
-/

namespace GraphWeave

/-- One move of a registry's life. -/
inductive RegistryState.Move : RegistryState → RegistryState → Prop
  | close : Move .accumulating .finalizing
  | finalize : Move .finalizing .finalized
  | fail : Move .finalizing .failed

/-- The states a registry may pass to along the moves of its life. -/
def RegistryState.Reaches : RegistryState → RegistryState → Prop :=
  Relation.ReflTransGen RegistryState.Move

namespace RegistryState

theorem Reaches.refl (s : RegistryState) : s.Reaches s := Relation.ReflTransGen.refl

theorem Reaches.trans {s t u : RegistryState} (first : s.Reaches t) (second : t.Reaches u) :
    s.Reaches u :=
  Relation.ReflTransGen.trans first second

theorem reaches_of_accumulating (s : RegistryState) : RegistryState.accumulating.Reaches s := by
  have closing : RegistryState.accumulating.Reaches .finalizing := .single .close
  cases s with
  | accumulating => exact .refl _
  | finalizing => exact closing
  | finalized => exact closing.tail .finalize
  | failed => exact closing.tail .fail

theorem Move.ne_accumulating {s t : RegistryState} (move : s.Move t) : t ≠ .accumulating := by
  cases move <;> simp

theorem Reaches.closed {s t : RegistryState} (reaches : s.Reaches t) (closed : s ≠ .accumulating) :
    t ≠ .accumulating := by
  induction reaches with
  | refl => exact closed
  | tail _ move _ => exact move.ne_accumulating

end RegistryState

/-- The errors a call on a registry is refused with. -/
inductive RegistryError.CallRefusal : RegistryError → Prop
  | notAccumulating (operation : String) (state : RegistryState) :
      CallRefusal (.notAccumulating operation state)
  | duplicate (category name : String) : CallRefusal (.duplicate category name)
  | overrideMissing (name : String) : CallRefusal (.overrideMissing name)
  | nilTransform (target module : String) : CallRefusal (.nilTransform target module)
  | nilField (target module : String) : CallRefusal (.nilField target module)

namespace Registry

variable {σ : Type}

open RegistryState

/-! ### Every call moves the state along the registry's life -/

theorem Edit.exec_state (e : Edit σ) (r : Registry σ) : (exec e.run r).2.state = r.state := by
  rw [Edit.exec_run]
  unfold Edit.outcome
  split
  · split <;> simp
  · rfl

theorem exec_injectFields_state (target module : String) (fields : List (Option (FieldDef σ)))
    (r : Registry σ) : (exec (injectFields target module fields) r).2.state = r.state := by
  by_cases isOpen : r.state = .accumulating
  · rw [exec_injectFields_open _ _ _ isOpen]
  · rw [exec_injectFields_closed _ _ _ isOpen]

theorem exec_finish_reaches (query mutation subscription : String) (r : Registry σ) :
    r.state.Reaches (exec (finish query mutation subscription) r).2.state := by
  by_cases isOpen : r.state = .accumulating
  · rw [isOpen]
    exact reaches_of_accumulating _
  · rw [exec_finish_closed _ _ _ isOpen]
    exact .refl _

theorem Call.exec_reaches (c : Call σ) (r : Registry σ) : r.state.Reaches (exec c.run r).2.state := by
  cases c with
  | edit e => rw [Call.run, e.exec_state]; exact .refl _
  | injectFields target module fields =>
    rw [Call.run, exec_injectFields_state]; exact .refl _
  | finish query mutation subscription =>
    have reaches := exec_finish_reaches query mutation subscription r
    rw [Call.run, exec_seqRight]
    rcases ran : exec (Registry.finish query mutation subscription) r with ⟨_ | _, r'⟩ <;>
      rw [ran] at reaches <;> exact reaches

theorem Script.exec_reaches (s : Script σ) (r : Registry σ) : r.state.Reaches (exec s.run r).2.state := by
  induction s generalizing r with
  | done outcome => exact .refl _
  | call c next ih =>
    rw [exec_call]
    exact (c.exec_reaches r).trans (ih _ _)

theorem exec_register_reaches (modules : List (String × Script σ)) (r : Registry σ) :
    r.state.Reaches (exec (Action.register modules).run r).2.state := by
  induction modules generalizing r with
  | nil => exact .refl _
  | cons m rest ih =>
    have first := m.2.exec_reaches r
    simp only [Action.run, List.map_cons] at ih ⊢
    rcases ran : exec m.2.run r with ⟨e | _, r'⟩ <;> rw [ran] at first
    · rw [exec_register_cons_error ⟨m.1, m.2.run⟩ _ ran]
      exact first
    · rw [exec_register_cons_ok ⟨m.1, m.2.run⟩ _ ran]
      exact first.trans (ih (r'.withNote _))

theorem Action.exec_reaches (a : Action σ) (r : Registry σ) : r.state.Reaches (exec a.run r).2.state := by
  cases a with
  | call c => exact c.exec_reaches r
  | register modules => exact exec_register_reaches modules r

theorem afterActions_reaches (actions : List (Action σ)) (r : Registry σ) :
    r.state.Reaches (afterActions r actions).state := by
  induction actions generalizing r with
  | nil => exact .refl _
  | cons a rest ih => exact (a.exec_reaches r).trans (ih _)

/-! ### A closed registry is changed by nothing but its log -/

theorem Script.exec_closed (s : Script σ) {r : Registry σ} (closed : r.state ≠ .accumulating) :
    (exec s.run r).2 = r := by
  induction s with
  | done outcome => rfl
  | call c next ih => rw [exec_call, c.exec_closed closed, ih]

/-- The registry with its log forgotten. -/
def withoutLog (r : Registry σ) : Registry σ := { r with log := [] }

@[simp] theorem withoutLog_withNote (r : Registry σ) (record : Telemetry.LogRecord) :
    (r.withNote record).withoutLog = r.withoutLog := rfl

theorem exec_register_closed (modules : List (String × Script σ)) {r : Registry σ}
    (closed : r.state ≠ .accumulating) :
    (exec (Action.register modules).run r).2.withoutLog = r.withoutLog := by
  induction modules generalizing r with
  | nil => rfl
  | cons m rest ih =>
    have kept := m.2.exec_closed closed
    simp only [Action.run, List.map_cons] at ih ⊢
    rcases ran : exec m.2.run r with ⟨e | _, r'⟩ <;> rw [ran] at kept <;> dsimp only at kept <;>
      subst kept
    · rw [exec_register_cons_error ⟨m.1, m.2.run⟩ _ ran]
    · rw [exec_register_cons_ok ⟨m.1, m.2.run⟩ _ ran, ih (r := r'.withNote _) closed,
        withoutLog_withNote]

theorem Action.exec_closed (a : Action σ) {r : Registry σ} (closed : r.state ≠ .accumulating) :
    (exec a.run r).2.state = r.state := by
  cases a with
  | call c => rw [Action.run, c.exec_closed closed]
  | register modules =>
    have same := congrArg Registry.state (exec_register_closed modules closed)
    exact same

theorem afterActions_closed (actions : List (Action σ)) {r : Registry σ}
    (closed : r.state ≠ .accumulating) : (afterActions r actions).state = r.state := by
  induction actions generalizing r with
  | nil => rfl
  | cons a rest ih =>
    have same := a.exec_closed closed
    rw [afterActions_cons, ih (by rwa [same]), same]

/-! ### Refused calls -/

theorem Edit.refusal_callRefusal (e : Edit σ) (r : Registry σ) {err : RegistryError}
    (refused : e.refusal r = some err) : err.CallRefusal := by
  cases e with
  | expandObject target transform provenance =>
    cases transform <;> simp only [Edit.refusal, Option.some.injEq, reduceCtorEq] at refused
    subst refused
    exact .nilTransform _ _
  | _ =>
    simp only [Edit.refusal] at refused
    split at refused <;> simp only [Option.some.injEq, reduceCtorEq] at refused
    all_goals subst refused; constructor

/-- A refused edit leaves the registry as it was, and is refused for one of the reasons a call
can be. -/
theorem Edit.exec_refused (e : Edit σ) (r : Registry σ) {err : RegistryError}
    (refused : (exec e.run r).1 = .error err) : (exec e.run r).2 = r ∧ err.CallRefusal := by
  rw [Edit.exec_run] at refused ⊢
  unfold Edit.outcome at refused ⊢
  by_cases isOpen : r.state = .accumulating
  · simp only [isOpen, if_true] at refused ⊢
    cases found : e.refusal r with
    | none => simp [found] at refused
    | some err' =>
      simp only [found, Except.error.injEq] at refused ⊢
      subst refused
      exact ⟨trivial, e.refusal_callRefusal r found⟩
  · simp only [isOpen, if_false, Except.error.injEq] at refused ⊢
    subst refused
    exact ⟨trivial, .notAccumulating _ _⟩

/-- A refused injection of fields keeps, on an open registry, the fields queued before the
missing one. -/
theorem exec_injectFields_refused (target module : String) (fields : List (Option (FieldDef σ)))
    (r : Registry σ) {err : RegistryError}
    (refused : (exec (injectFields target module fields) r).1 = .error err) :
    (exec (injectFields target module fields) r).2 =
        (if r.state = .accumulating then
          { r with pending := r.pending ++ (leadingFields fields).map (fieldInjection target module) }
        else r) ∧
      err.CallRefusal := by
  by_cases isOpen : r.state = .accumulating
  · rw [exec_injectFields_open _ _ _ isOpen] at refused ⊢
    split at refused <;> simp only [Except.error.injEq, reduceCtorEq] at refused
    subst refused
    exact ⟨by simp [isOpen], .nilField _ _⟩
  · rw [exec_injectFields_closed _ _ _ isOpen] at refused ⊢
    rcases fields with _ | ⟨_ | f, rest⟩ <;>
      simp only [closedInjectOutcome, Except.error.injEq, reduceCtorEq] at refused <;> subst refused
    · exact ⟨by simp [isOpen], .nilField _ _⟩
    · exact ⟨by simp [isOpen], .notAccumulating _ _⟩

/-! ### The lifecycle -/

/-- The life of a registry over every session: its state moves only from open to finalizing to
finalized or failed; finishing an open registry ends it finalized with a schema or failed; once
closed it keeps its state, every call on it changes nothing and is refused as not accumulating,
except an injection of fields, which reports a missing first field instead and accepts an empty
list, and registering modules on it changes nothing but the log. A refused edit leaves the
registry as it was, while a refused injection of fields keeps the fields queued before the
missing one; every refusal is one of the refusals a call can give. -/
theorem registry_lifecycle_contract :
    (∀ (actions : List (Action σ)) (r : Registry σ), r.state.Reaches (afterActions r actions).state) ∧
    (∀ (query mutation subscription : String) (r : Registry σ), r.state = .accumulating →
      (∃ es, (exec (finish query mutation subscription) r).1 = .ok es ∧
          (exec (finish query mutation subscription) r).2.state = .finalized) ∨
        (∃ e, (exec (finish query mutation subscription) r).1 = .error e ∧
          (exec (finish query mutation subscription) r).2.state = .failed)) ∧
    (∀ (actions : List (Action σ)) (r : Registry σ), r.state ≠ .accumulating →
      (afterActions r actions).state = r.state) ∧
    (∀ (c : Call σ) (r : Registry σ), r.state ≠ .accumulating →
      exec c.run r = (c.closedOutcome r.state, r)) ∧
    (∀ (modules : List (String × Script σ)) (r : Registry σ), r.state ≠ .accumulating →
      (exec (Action.register modules).run r).2.withoutLog = r.withoutLog) ∧
    (∀ (e : Edit σ) (r : Registry σ) (err : RegistryError), (exec e.run r).1 = .error err →
      (exec e.run r).2 = r ∧ err.CallRefusal) ∧
    (∀ (target module : String) (fields : List (Option (FieldDef σ))) (r : Registry σ)
      (err : RegistryError), (exec (injectFields target module fields) r).1 = .error err →
      (exec (injectFields target module fields) r).2 =
          (if r.state = .accumulating then
            { r with pending := r.pending ++ (leadingFields fields).map (fieldInjection target module) }
          else r) ∧
        err.CallRefusal) :=
  ⟨afterActions_reaches, fun query mutation subscription _ isOpen =>
      exec_finish_open query mutation subscription isOpen,
    fun actions _ closed => afterActions_closed actions closed,
    fun c _ closed => c.exec_closed closed,
    fun modules _ closed => exec_register_closed modules closed,
    fun e r _ refused => e.exec_refused r refused,
    fun target module fields r _ refused => exec_injectFields_refused target module fields r refused⟩

/-- An injection of fields whose second field is missing is refused, yet leaves the first field
queued on the fresh registry; and a closed registry answers an injection whose first field is
missing with the missing field, not as not accumulating. -/
theorem injectFields_partial_refusal :
    (exec (injectFields "Query" "m" [some { name := "b", type := .named "String" }, none])
        ({} : Registry Unit)).1 = .error (.nilField "Query" "m") ∧
      (exec (injectFields "Query" "m" [some { name := "b", type := .named "String" }, none])
        ({} : Registry Unit)).2.pending.length = 1 ∧
      (exec (injectFields "Query" "m" [none]) ({ state := .failed } : Registry Unit)).1 =
        .error (.nilField "Query" "m") := by
  refine ⟨?_, ?_, ?_⟩
  · rw [exec_injectFields_open _ _ _ rfl]
    simp
  · rw [exec_injectFields_open _ _ _ rfl]
    simp [leadingFields]
  · rw [exec_injectFields_closed _ _ _ (by simp)]
    rfl

end Registry

end GraphWeave
