import GraphWeave.Registry.Finish
import Mathlib

/-!
Calls on a registry, and what each one does: edits of one table or of the queue, injections of
fields, finishing, and sessions of such calls and module registrations.
-/

namespace GraphWeave.Registry

variable {σ : Type}

/-! ### Steps read through their outcome -/

section Exec

variable {α β : Type}

/-- A step's outcome and the registry after it. -/
def exec (p : Registration σ α) (r : Registry σ) : Except RegistryError α × Registry σ := p.run.run r

/-- Goes on with a step after an outcome: an error stops the steps. -/
def andThen (f : α → Registration σ β) : Except RegistryError α × Registry σ →
    Except RegistryError β × Registry σ
  | (.ok a, r) => exec (f a) r
  | (.error e, r) => (.error e, r)

/-- Handles the error of an outcome. -/
def recover (handler : RegistryError → Registration σ α) : Except RegistryError α × Registry σ →
    Except RegistryError α × Registry σ
  | (.ok a, r) => (.ok a, r)
  | (.error e, r) => exec (handler e) r

@[simp] theorem andThen_ok (f : α → Registration σ β) (a : α) (r : Registry σ) :
    andThen f (.ok a, r) = exec (f a) r := rfl
@[simp] theorem andThen_error (f : α → Registration σ β) (e : RegistryError) (r : Registry σ) :
    andThen f (.error e, r) = (.error e, r) := rfl
@[simp] theorem recover_ok (handler : RegistryError → Registration σ α) (a : α) (r : Registry σ) :
    recover handler (.ok a, r) = (.ok a, r) := rfl
@[simp] theorem recover_error (handler : RegistryError → Registration σ α) (e : RegistryError)
    (r : Registry σ) : recover handler (.error e, r) = exec (handler e) r := rfl

@[simp] theorem exec_pure (a : α) (r : Registry σ) : exec (pure a : Registration σ α) r = (.ok a, r) :=
  rfl
@[simp] theorem exec_throw (e : RegistryError) (r : Registry σ) :
    exec (throw e : Registration σ α) r = (.error e, r) := rfl
@[simp] theorem exec_get (r : Registry σ) : exec (get : Registration σ (Registry σ)) r = (.ok r, r) :=
  rfl
@[simp] theorem exec_set (r r' : Registry σ) : exec (set r' : Registration σ Unit) r = (.ok (), r') :=
  rfl
@[simp] theorem exec_modify (f : Registry σ → Registry σ) (r : Registry σ) :
    exec (modify f : Registration σ Unit) r = (.ok (), f r) := rfl

theorem exec_bind (x : Registration σ α) (f : α → Registration σ β) (r : Registry σ) :
    exec (x >>= f) r = andThen f (exec x r) := by
  simp only [exec, ExceptT.run_bind, StateT.run_bind]
  rcases x.run.run r with ⟨_ | _, _⟩ <;> rfl

theorem exec_seqRight (x : Registration σ α) (y : Registration σ β) (r : Registry σ) :
    exec (x *> y) r = andThen (fun _ => y) (exec x r) := by
  rw [seqRight_eq_bind, exec_bind]

theorem exec_map (f : α → β) (x : Registration σ α) (r : Registry σ) :
    exec (f <$> x) r = ((exec x r).1.map f, (exec x r).2) := by
  rw [map_eq_pure_bind, exec_bind]
  rcases exec x r with ⟨_ | _, _⟩ <;> rfl

theorem exec_tryCatch (x : Registration σ α) (handler : RegistryError → Registration σ α)
    (r : Registry σ) : exec (tryCatch x handler) r = recover handler (exec x r) := by
  show (ExceptT.tryCatch x handler).run.run r =
    recover handler (StateT.run (x : StateT (Registry σ) Id (Except RegistryError α)) r)
  unfold ExceptT.tryCatch recover
  simp only [ExceptT.run_mk, StateT.run_bind]
  generalize StateT.run (x : StateT (Registry σ) Id (Except RegistryError α)) r = out
  rcases out with ⟨_ | _, _⟩ <;> rfl

end Exec

/-- The registry with an object stored and the counts it was registered with recorded. -/
def withObject (r : Registry σ) (o : ObjectDef σ) : Registry σ :=
  { r with
    objects := setNamed (·.name) r.objects o
    bases := setNamed (·.1) r.bases (o.name, o.fields.length, o.interfaces.length) }

/-- The registry with a record added to its log. -/
def withNote (r : Registry σ) (record : Telemetry.LogRecord) : Registry σ :=
  { r with log := r.log ++ [record] }

@[simp] theorem exec_note (record : Telemetry.LogRecord) (r : Registry σ) :
    exec (note record) r = (.ok (), r.withNote record) := rfl

@[simp] theorem exec_setObject (o : ObjectDef σ) (r : Registry σ) :
    exec (setObject o) r = (.ok (), r.withObject o) := rfl

theorem exec_checkAccumulating (operation : String) (r : Registry σ) :
    exec (checkAccumulating operation : Registration σ Unit) r =
      if r.state = .accumulating then (.ok (), r)
      else (.error (.notAccumulating operation r.state), r) := by
  by_cases isOpen : r.state = .accumulating <;>
    simp [checkAccumulating, exec_bind, isOpen]

/-! ### Edits: refused whole or applied whole -/

/-- An edit of one of the registry's tables or of its queue. -/
inductive Edit (σ : Type) where
  | registerObject (o : ObjectDef σ)
  | overrideObject (o : ObjectDef σ)
  | registerInputObject (d : InputObjectDef)
  | registerEnum (d : EnumDef)
  | registerUnion (d : UnionDef)
  | registerInterface (d : InterfaceDef σ)
  | registerScalar (d : ScalarDef)
  | expandObject (target : String) (transform : Option (Transform σ)) (provenance : Provenance)

namespace Edit

/-- The registry operation that makes the edit. -/
def run : Edit σ → Registration σ Unit
  | .registerObject o => Registry.registerObject o
  | .overrideObject o => Registry.overrideObject o
  | .registerInputObject d => Registry.registerInputObject d
  | .registerEnum d => Registry.registerEnum d
  | .registerUnion d => Registry.registerUnion d
  | .registerInterface d => Registry.registerInterface d
  | .registerScalar d => Registry.registerScalar d
  | .expandObject target transform provenance => Registry.expandObject target transform provenance

/-- The name a closed registry refuses the edit under. -/
def label : Edit σ → String
  | .registerObject _ => "register object"
  | .overrideObject _ => "override object"
  | .registerInputObject _ => "register input object"
  | .registerEnum _ => "register enum"
  | .registerUnion _ => "register union"
  | .registerInterface _ => "register interface"
  | .registerScalar _ => "register scalar"
  | .expandObject .. => "expand object"

/-- Why an open registry refuses the edit, if it does: a name its table already has, an override
of an object it does not have, or a missing transform. -/
def refusal : Edit σ → Registry σ → Option RegistryError
  | .registerObject o, r =>
    if r.objects.any (·.name == o.name) then some (.duplicate "object" o.name) else none
  | .overrideObject o, r =>
    if r.objects.any (·.name == o.name) then none else some (.overrideMissing o.name)
  | .registerInputObject d, r =>
    if r.inputs.any (·.name == d.name) then some (.duplicate "input object" d.name) else none
  | .registerEnum d, r => if r.enums.any (·.name == d.name) then some (.duplicate "enum" d.name) else none
  | .registerUnion d, r =>
    if r.unions.any (·.name == d.name) then some (.duplicate "union" d.name) else none
  | .registerInterface d, r =>
    if r.interfaces.any (·.name == d.name) then some (.duplicate "interface" d.name) else none
  | .registerScalar d, r =>
    if r.scalars.any (·.name == d.name) then some (.duplicate "scalar" d.name) else none
  | .expandObject target none provenance, _ => some (.nilTransform target provenance.module)
  | .expandObject _ (some _) _, _ => none

/-- The registry after an edit it accepts. -/
def apply : Edit σ → Registry σ → Registry σ
  | .registerObject o, r => r.withObject o
  | .overrideObject o, r => (r.withNote (.debug "object overridden" [("type", .text o.name)])).withObject o
  | .registerInputObject d, r => { r with inputs := r.inputs ++ [d] }
  | .registerEnum d, r => { r with enums := r.enums ++ [d] }
  | .registerUnion d, r => { r with unions := r.unions ++ [d] }
  | .registerInterface d, r => { r with interfaces := r.interfaces ++ [d] }
  | .registerScalar d, r => { r with scalars := r.scalars ++ [d] }
  | .expandObject target transform provenance, r =>
    { r with pending := r.pending ++ (transform.map fun t => ⟨target, t, provenance⟩).toList }

/-- What an open registry does with the edit, and what a closed one answers. -/
def outcome (e : Edit σ) (r : Registry σ) : Except RegistryError Unit × Registry σ :=
  if r.state = .accumulating then
    match e.refusal r with
    | some err => (.error err, r)
    | none => (.ok (), e.apply r)
  else (.error (.notAccumulating e.label r.state), r)

@[simp] theorem outcome_closed (e : Edit σ) {r : Registry σ} (closed : r.state ≠ .accumulating) :
    e.outcome r = (.error (.notAccumulating e.label r.state), r) := by
  simp [outcome, closed]

theorem outcome_refused (e : Edit σ) {r : Registry σ} {err : RegistryError}
    (isOpen : r.state = .accumulating) (refused : e.refusal r = some err) :
    e.outcome r = (.error err, r) := by
  simp [outcome, isOpen, refused]

theorem outcome_applied (e : Edit σ) {r : Registry σ} (isOpen : r.state = .accumulating)
    (accepted : e.refusal r = none) : e.outcome r = (.ok (), e.apply r) := by
  simp [outcome, isOpen, accepted]

/-- Every edit runs as its outcome says. -/
theorem exec_run (e : Edit σ) (r : Registry σ) : exec e.run r = e.outcome r := by
  by_cases isOpen : r.state = .accumulating
  · cases e with
    | registerObject o =>
      by_cases found : r.objects.any (·.name == o.name) = true <;>
        simp only [run, Registry.registerObject, exec_bind, exec_checkAccumulating, exec_get,
          exec_throw, exec_setObject, outcome, refusal, apply, isOpen, found, if_true, if_false,
          Bool.false_eq_true, andThen_ok, andThen_error]
    | overrideObject o =>
      by_cases found : r.objects.any (·.name == o.name) = true <;>
        simp only [run, Registry.overrideObject, exec_bind, exec_checkAccumulating, exec_get,
          exec_throw, exec_note, exec_setObject, outcome, refusal, apply, isOpen, found, if_true,
          if_false, Bool.not_true, Bool.not_false, Bool.false_eq_true, andThen_ok, andThen_error]
    | registerInputObject d =>
      by_cases found : r.inputs.any (·.name == d.name) = true <;>
        simp only [run, Registry.registerInputObject, exec_bind, exec_checkAccumulating, exec_get,
          exec_throw, exec_modify, outcome, refusal, apply, isOpen, found, if_true, if_false,
          Bool.false_eq_true, andThen_ok, andThen_error]
    | registerEnum d =>
      by_cases found : r.enums.any (·.name == d.name) = true <;>
        simp only [run, Registry.registerEnum, exec_bind, exec_checkAccumulating, exec_get,
          exec_throw, exec_modify, outcome, refusal, apply, isOpen, found, if_true, if_false, Bool.false_eq_true, andThen_ok,
          andThen_error]
    | registerUnion d =>
      by_cases found : r.unions.any (·.name == d.name) = true <;>
        simp only [run, Registry.registerUnion, exec_bind, exec_checkAccumulating, exec_get,
          exec_throw, exec_modify, outcome, refusal, apply, isOpen, found, if_true, if_false, Bool.false_eq_true, andThen_ok,
          andThen_error]
    | registerInterface d =>
      by_cases found : r.interfaces.any (·.name == d.name) = true <;>
        simp only [run, Registry.registerInterface, exec_bind, exec_checkAccumulating, exec_get,
          exec_throw, exec_modify, outcome, refusal, apply, isOpen, found, if_true, if_false,
          Bool.false_eq_true, andThen_ok, andThen_error]
    | registerScalar d =>
      by_cases found : r.scalars.any (·.name == d.name) = true <;>
        simp only [run, Registry.registerScalar, exec_bind, exec_checkAccumulating, exec_get,
          exec_throw, exec_modify, outcome, refusal, apply, isOpen, found, if_true, if_false, Bool.false_eq_true, andThen_ok,
          andThen_error]
    | expandObject target transform provenance =>
      cases transform <;>
        simp [run, outcome, refusal, apply, Registry.expandObject, exec_bind, exec_checkAccumulating,
          isOpen]
  · cases e <;> simp [run, outcome, label, Registry.registerObject, Registry.overrideObject,
      Registry.registerInputObject, Registry.registerEnum, Registry.registerUnion,
      Registry.registerInterface, Registry.registerScalar, Registry.expandObject, exec_bind,
      exec_checkAccumulating, isOpen]

@[simp] theorem apply_state (e : Edit σ) (r : Registry σ) : (e.apply r).state = r.state := by
  cases e <;> rfl

end Edit

/-! ### Injecting fields -/

/-- The change asked for by injecting a field: the object with the field appended. -/
def fieldInjection (target module : String) (f : FieldDef σ) : Injection σ :=
  ⟨target, fun o => some (o.field f), ⟨module, f.name⟩⟩

/-- The fields given before the first missing one. -/
def leadingFields : List (Option (FieldDef σ)) → List (FieldDef σ)
  | some f :: rest => f :: leadingFields rest
  | _ => []

/-- What a closed registry answers to an injection of fields: a missing first field is reported
before the state is looked at, and no field at all is no call. -/
def closedInjectOutcome (target module : String) (state : RegistryState) :
    List (Option (FieldDef σ)) → Except RegistryError Unit
  | [] => .ok ()
  | none :: _ => .error (.nilField target module)
  | some _ :: _ => .error (.notAccumulating "expand object" state)

/-- An open registry queues the fields given before the first missing one, and refuses the
injection if one is missing. -/
theorem exec_injectFields_open (target module : String) (fields : List (Option (FieldDef σ)))
    {r : Registry σ} (isOpen : r.state = .accumulating) :
    exec (injectFields target module fields) r =
      (if fields.all Option.isSome then .ok () else .error (.nilField target module),
        { r with pending := r.pending ++ (leadingFields fields).map (fieldInjection target module) }) := by
  induction fields generalizing r with
  | nil => simp [injectFields, leadingFields]
  | cons field rest ih =>
    cases field with
    | none => simp [injectFields, leadingFields]
    | some f =>
      have queued : exec (expandObject target (some fun o => some (o.field f)) ⟨module, f.name⟩) r =
          (.ok (), { r with pending := r.pending ++ [fieldInjection target module f] }) := by
        simp [Registry.expandObject, exec_bind, exec_checkAccumulating, isOpen, fieldInjection]
      have next := ih (r := { r with pending := r.pending ++ [fieldInjection target module f] }) isOpen
      simp only [injectFields, exec_bind, queued, andThen_ok, next]
      simp [leadingFields]

theorem exec_injectFields_closed (target module : String) (fields : List (Option (FieldDef σ)))
    {r : Registry σ} (closed : r.state ≠ .accumulating) :
    exec (injectFields target module fields) r = (closedInjectOutcome target module r.state fields, r) := by
  rcases fields with _ | ⟨_ | f, rest⟩ <;>
    simp [injectFields, closedInjectOutcome, Registry.expandObject, exec_bind, exec_checkAccumulating,
      closed]

/-! ### Finishing -/

/-- Applying the waiting changes keeps the state of the registry. -/
theorem applyPass_state (r : Registry σ) (queue : List (Injection σ)) :
    (r.applyPass queue).1.state = r.state := by
  unfold applyPass
  suffices keeps : ∀ (acc : Registry σ × List StuckInjection × List (Injection σ) × Bool),
      acc.1.state = r.state → (queue.foldl _ acc).1.state = r.state from keeps _ rfl
  induction queue with
  | nil => simp
  | cons inj rest ih =>
    rintro ⟨r', stuck, next, progress⟩ same
    simp only [List.foldl_cons]
    apply ih
    dsimp only at same ⊢
    split
    · exact same
    · split
      · exact same
      · split
        · exact same
        · exact same

theorem applyAll_state (fuel : Nat) (r : Registry σ) (queue : List (Injection σ))
    (stuck : List StuckInjection) : (applyAll fuel r queue stuck).1.state = r.state := by
  induction fuel generalizing r queue stuck with
  | zero => cases queue <;> rfl
  | succ fuel ih =>
    cases queue with
    | nil => rfl
    | cons inj rest =>
      simp only [applyAll]
      split
      · rw [ih, applyPass_state]
      · exact applyPass_state r _

theorem exec_forIn_note (records : List StuckInjection) (record : StuckInjection → Telemetry.LogRecord)
    (r : Registry σ) :
    exec (forIn records PUnit.unit fun s _ => do
        note (record s)
        pure (ForInStep.yield PUnit.unit)) r =
      (.ok PUnit.unit, { r with log := r.log ++ records.map record }) := by
  induction records generalizing r with
  | nil => simp
  | cons s rest ih =>
    simp only [List.forIn_cons, exec_bind, exec_note, andThen_ok, exec_pure]
    rw [ih]
    simp [withNote]

theorem resolveInjections_state (r : Registry σ) :
    (exec (resolveInjections : Registration σ Unit) r).2.state = r.state := by
  simp only [resolveInjections, exec_bind, exec_get, andThen_ok, exec_set, exec_forIn_note]
  split
  · simp [applyAll_state]
  · simp [applyAll_state]

theorem exec_finish_closed (query mutation subscription : String) {r : Registry σ}
    (closed : r.state ≠ .accumulating) :
    exec (finish query mutation subscription) r =
      (.error (.notAccumulating "finish" r.state), r) := by
  simp [finish, exec_bind, exec_checkAccumulating, closed]

/-- Finishing an open registry ends it finalized with a schema, or failed with an error. -/
theorem exec_finish_open (query mutation subscription : String) {r : Registry σ}
    (isOpen : r.state = .accumulating) :
    (∃ es, (exec (finish query mutation subscription) r).1 = .ok es ∧
        (exec (finish query mutation subscription) r).2.state = .finalized) ∨
      (∃ e, (exec (finish query mutation subscription) r).1 = .error e ∧
        (exec (finish query mutation subscription) r).2.state = .failed) := by
  simp only [finish, exec_bind, exec_checkAccumulating, isOpen, if_true, andThen_ok, exec_modify,
    exec_tryCatch]
  have closing := resolveInjections_state (σ := σ) { r with state := .finalizing }
  rcases resolved : exec resolveInjections { r with state := .finalizing } with ⟨_ | _, r'⟩ <;>
    rw [resolved] at closing
  · right
    simp [exec_bind]
  · simp only [recover_ok, andThen_ok, exec_bind, exec_get]
    split
    · right
      simp [exec_bind, withNote]
    · left
      simp [exec_bind, exec_map, Except.map, withNote]

/-! ### Calls, module code and sessions -/

/-- A call a host or a module makes on a registry, other than registering modules. -/
inductive Call (σ : Type) where
  | edit (e : Edit σ)
  | injectFields (target module : String) (fields : List (Option (FieldDef σ)))
  | finish (query mutation subscription : String)

/-- The registry operation of a call; finishing forgets the schema. -/
def Call.run : Call σ → Registration σ Unit
  | .edit e => e.run
  | .injectFields target module fields => Registry.injectFields target module fields
  | .finish query mutation subscription => Registry.finish query mutation subscription *> pure ()

/-- What a call answers on a closed registry: every call is refused as not accumulating, except
an injection of fields, which looks at its first field first. -/
def Call.closedOutcome : Call σ → RegistryState → Except RegistryError Unit
  | .edit e, state => .error (.notAccumulating e.label state)
  | .injectFields target module fields, state => closedInjectOutcome target module state fields
  | .finish .., state => .error (.notAccumulating "finish" state)

theorem Call.exec_closed (c : Call σ) {r : Registry σ} (closed : r.state ≠ .accumulating) :
    exec c.run r = (c.closedOutcome r.state, r) := by
  cases c with
  | edit e => simp [run, closedOutcome, Edit.exec_run, closed]
  | injectFields target module fields => simp [run, closedOutcome, exec_injectFields_closed, closed]
  | finish query mutation subscription =>
    simp [run, closedOutcome, exec_seqRight, exec_finish_closed, closed]

/-- What a module does with a registry: calls, each chosen from the outcomes of those before,
and the outcome it reports. -/
inductive Script (σ : Type) where
  | done (outcome : Except RegistryError Unit)
  | call (c : Call σ) (next : Except RegistryError Unit → Script σ)

/-- The registration of a script. -/
def Script.run : Script σ → Registration σ Unit
  | .done outcome => ExceptT.mk (pure outcome)
  | .call c next => ExceptT.mk fun r => exec (next (exec c.run r).1).run (exec c.run r).2

@[simp] theorem exec_done (outcome : Except RegistryError Unit) (r : Registry σ) :
    exec (Script.done outcome).run r = (outcome, r) := rfl

theorem exec_call (c : Call σ) (next : Except RegistryError Unit → Script σ) (r : Registry σ) :
    exec (Script.call c next).run r = exec (next (exec c.run r).1).run (exec c.run r).2 := rfl

/-- A session's step: a call, or the registration of modules given by their names and scripts. -/
inductive Action (σ : Type) where
  | call (c : Call σ)
  | register (modules : List (String × Script σ))

/-- The registry operation of an action. -/
def Action.run : Action σ → Registration σ Unit
  | .call c => c.run
  | .register modules => Registry.register (modules.map fun m => ⟨m.1, m.2.run⟩)

/-- The registry after actions taken one after another, each whatever the one before answered. -/
def afterActions (r : Registry σ) (actions : List (Action σ)) : Registry σ :=
  actions.foldl (fun r a => (exec a.run r).2) r

@[simp] theorem afterActions_nil (r : Registry σ) : afterActions r [] = r := rfl

@[simp] theorem afterActions_cons (r : Registry σ) (a : Action σ) (rest : List (Action σ)) :
    afterActions r (a :: rest) = afterActions (exec a.run r).2 rest := rfl

theorem exec_register_cons_error (m : Module σ) (rest : List (Module σ)) {r r' : Registry σ}
    {e : RegistryError} (failed : exec m.register r = (.error e, r')) :
    exec (register (m :: rest)) r = (.error (.inModule m.name e), r') := by
  simp [register, exec_bind, exec_tryCatch, failed]

theorem exec_register_cons_ok (m : Module σ) (rest : List (Module σ)) {r r' : Registry σ}
    (succeeded : exec m.register r = (.ok (), r')) :
    exec (register (m :: rest)) r =
      exec (register rest) (r'.withNote (.debug "module registered" [("module", .text m.name)])) := by
  simp [register, exec_bind, exec_tryCatch, succeeded]

end GraphWeave.Registry
