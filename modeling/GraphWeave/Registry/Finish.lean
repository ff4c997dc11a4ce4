import GraphWeave.Registry.Basic

/-!
Finishing a registry: applying the waiting changes and building the schema.
-/

namespace GraphWeave

namespace Registry

variable {σ : Type}

/-- Why a change to a name found no object. -/
def missingReason (r : Registry σ) (target : String) : String :=
  if r.interfaces.any (·.name == target) then "target is an interface, not an object"
  else if r.inputs.any (·.name == target) then "target is an input object, not an object"
  else if r.unions.any (·.name == target) then "target is a union, not an object"
  else if r.enums.any (·.name == target) then "target is an enum, not an object"
  else if r.scalars.any (·.name == target) then "target is a scalar, not an object"
  else "target type is not registered"

/-- One pass over the queue: applies what it can to the objects, and returns the stuck
changes, the changes left waiting, and whether anything had a target. -/
def applyPass (r : Registry σ) (queue : List (Injection σ)) :
    Registry σ × List StuckInjection × List (Injection σ) × Bool :=
  queue.foldl (fun (r, stuck, next, progress) inj =>
    match r.objects.find? (·.name == inj.target) with
    | none => (r, stuck, next ++ [inj], progress)
    | some o =>
      match inj.transform o with
      | none => (r, stuck ++ [⟨inj.target, inj.provenance, "transform returned nil"⟩], next, true)
      | some out =>
        if out.name != inj.target then
          (r, stuck ++ [⟨inj.target, inj.provenance,
            "transform renamed the object to " ++ Quoted.encode out.name⟩], next, true)
        else
          let applied := Telemetry.LogRecord.debug "field injected" [("type", .text inj.target),
            ("field", .text inj.provenance.field), ("module", .text inj.provenance.module)]
          ({ r with objects := setNamed (·.name) r.objects out, log := r.log ++ [applied] },
            stuck, next, true))
    (r, [], [], false)

/-- Applies passes until the queue is empty or a pass makes no progress; `fuel` bounds the
passes, and each pass that makes progress takes at least one change off the queue. -/
def applyAll (fuel : Nat) (r : Registry σ) (queue : List (Injection σ))
    (stuck : List StuckInjection) : Registry σ × List StuckInjection :=
  match fuel, queue with
  | _, [] => (r, stuck)
  | 0, _ => (r, stuck)
  | fuel + 1, queue =>
    let (r, stuckNow, next, progress) := r.applyPass queue
    let stuck := stuck ++ stuckNow
    if progress then applyAll fuel r next stuck
    else (r, stuck ++ next.map fun inj => ⟨inj.target, inj.provenance, r.missingReason inj.target⟩)

/-- Sorts what an object gained after its registration. -/
def sortAdded (r : Registry σ) (o : ObjectDef σ) : ObjectDef σ :=
  match r.bases.find? (·.1 == o.name) with
  | some base => o.sortFrom base.2.1 base.2.2
  | none => o

/-- Applies every waiting change, then sorts what each object gained. -/
def resolveInjections : Registration σ Unit := do
  let r ← get
  let (r, stuck) := applyAll (r.pending.length + 1) { r with pending := [] } r.pending []
  set r
  for s in stuck do
    note (.error "field injection stuck" [("type", .text s.target),
      ("field", .text s.provenance.field), ("module", .text s.provenance.module),
      ("reason", .text s.reason)])
  if !stuck.isEmpty then throw (.stuck stuck)
  modify fun r => { r with objects := r.objects.map r.sortAdded }

/-- The definitions to build from, kind by kind. -/
def definitions (r : Registry σ) : List (Definition σ) :=
  r.enums.map .enum ++ r.unions.map .union ++ r.interfaces.map .interface ++
    r.inputs.map .inputObject ++ r.scalars.map .scalar ++ r.objects.map .object

/-- Finishes the registry with the root type names: applies the changes and builds the schema.
The registry ends finalized, or failed with the first error. -/
def finish (query mutation subscription : String) : Registration σ (ExecutableSchema σ) := do
  checkAccumulating "finish"
  modify fun r => { r with state := .finalizing }
  tryCatch resolveInjections fun e => do
    modify fun r => { r with state := .failed }
    throw e
  let r ← get
  let builder : SchemaBuilder σ :=
    { query, mutation, subscription, definitions := r.definitions }
  match builder.finish with
  | .error e =>
    set { r with state := .failed }
    note (.error "schema assembly failed" [("error", .text e.message)])
    throw (.schema e)
  | .ok s =>
    set { r with state := .finalized, pending := [] }
    note (.debug "schema finished" [("types", .number r.definitions.length)])
    pure s

end Registry

end GraphWeave
