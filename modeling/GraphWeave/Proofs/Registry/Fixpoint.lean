import GraphWeave.Proofs.Registry.Injection
import Mathlib

/-!
What finishing a registry does with the changes waiting for it.
-/

namespace GraphWeave

variable {σ : Type}

/-! ### One run through the queue -/

namespace Injection

/-- What a change makes of the object it targets: the object it becomes, or why it is stuck
(it gives nothing, or an object of another name). -/
def outcome (inj : Injection σ) (o : ObjectDef σ) : Except String (ObjectDef σ) :=
  match inj.transform o with
  | none => .error "transform returned nil"
  | some out =>
    if out.name = inj.target then .ok out
    else .error ("transform renamed the object to " ++ Quoted.encode out.name)

/-- An object after a change: what the change makes of it, when the change targets it and is not
stuck. -/
def makeOn (inj : Injection σ) (o : ObjectDef σ) : ObjectDef σ :=
  if inj.target = o.name then
    match inj.outcome o with
    | .ok out => out
    | .error _ => o
  else o

theorem name_of_outcome {inj : Injection σ} {o out : ObjectDef σ}
    (made : inj.outcome o = .ok out) : out.name = inj.target := by
  unfold outcome at made
  cases given : inj.transform o with
  | none => simp [given] at made
  | some out' =>
    by_cases named : out'.name = inj.target
    · simp only [given, named, if_true, Except.ok.injEq] at made
      rw [← made, named]
    · simp [given, named] at made

@[simp] theorem name_makeOn (inj : Injection σ) (o : ObjectDef σ) :
    (inj.makeOn o).name = o.name := by
  unfold makeOn
  split
  · rename_i targets
    cases made : inj.outcome o with
    | ok out => rw [name_of_outcome made, targets]
    | error => rfl
  · rfl

end Injection

namespace Registry

/-- An object after the changes of a queue, made in queue order. -/
def changedBy (queue : List (Injection σ)) (o : ObjectDef σ) : ObjectDef σ :=
  queue.foldl (fun o inj => inj.makeOn o) o

@[simp] theorem changedBy_nil : changedBy ([] : List (Injection σ)) = id := rfl

@[simp] theorem changedBy_cons (inj : Injection σ) (rest : List (Injection σ)) :
    changedBy (inj :: rest) = changedBy rest ∘ inj.makeOn := rfl

/-- Whether an object of the name is among the objects. -/
def hasObject (objs : List (ObjectDef σ)) (name : String) : Bool := objs.any (·.name == name)

/-- The changes of a queue made one after the other, each to its target as the changes before
it left it: the objects they leave, and the changes refused on the way, in queue order. A change
whose target is no object is passed over. -/
def makeChanges (objs : List (ObjectDef σ)) :
    List (Injection σ) → List (ObjectDef σ) × List StuckInjection
  | [] => (objs, [])
  | inj :: rest =>
    match objs.find? (·.name == inj.target) with
    | none => makeChanges objs rest
    | some o =>
      match inj.outcome o with
      | .ok out => makeChanges (setNamed (·.name) objs out) rest
      | .error reason =>
        ((makeChanges objs rest).1,
          ⟨inj.target, inj.provenance, reason⟩ :: (makeChanges objs rest).2)

/-- How a change whose target is no object is reported stuck. -/
def missingEntry (r : Registry σ) (inj : Injection σ) : StuckInjection :=
  ⟨inj.target, inj.provenance, r.missingReason inj.target⟩

/-- The changes a registry's queue leaves stuck: those refused when made, then those whose
target is no object. -/
def stuckChanges (r : Registry σ) : List StuckInjection :=
  (makeChanges r.objects r.pending).2 ++
    (r.pending.filter fun inj => !hasObject r.objects inj.target).map (missingEntry r)

/-! ### Names are kept -/

@[simp] theorem name_changedBy (queue : List (Injection σ)) (o : ObjectDef σ) :
    (changedBy queue o).name = o.name := by
  induction queue generalizing o with
  | nil => rfl
  | cons inj rest ih =>
    show (changedBy rest (inj.makeOn o)).name = o.name
    rw [ih, Injection.name_makeOn]

theorem hasObject_eq_of_names {objs objs' : List (ObjectDef σ)}
    (same : objs.map (·.name) = objs'.map (·.name)) : hasObject objs = hasObject objs' := by
  funext name
  have viaNames : ∀ xs : List (ObjectDef σ), hasObject xs name = (xs.map (·.name)).any (· == name) :=
    fun xs => by simp [hasObject, List.any_map, Function.comp_def]
  rw [viaNames, viaNames, same]

theorem hasObject_of_find? {objs : List (ObjectDef σ)} {name : String} {o : ObjectDef σ}
    (found : objs.find? (·.name == name) = some o) : hasObject objs name = true := by
  unfold hasObject
  exact List.any_eq_true.mpr ⟨o, List.mem_of_find?_eq_some found, by simpa using List.find?_some found⟩

theorem find?_eq_none_of_hasObject {objs : List (ObjectDef σ)} {name : String}
    (absent : hasObject objs name = false) : objs.find? (·.name == name) = none := by
  rw [List.find?_eq_none]
  intro o mem named
  have present : hasObject objs name = true := by
    unfold hasObject
    exact List.any_eq_true.mpr ⟨o, mem, named⟩
  rw [absent] at present
  cases present

theorem names_setNamed_of_find? {objs : List (ObjectDef σ)} {name : String} {o out : ObjectDef σ}
    (found : objs.find? (·.name == name) = some o) (named : out.name = name) :
    (setNamed (·.name) objs out).map (·.name) = objs.map (·.name) := by
  rw [names_setNamed, if_pos]
  rw [named]
  exact hasObject_of_find? found

theorem names_makeChanges (objs : List (ObjectDef σ)) (queue : List (Injection σ)) :
    (makeChanges objs queue).1.map (·.name) = objs.map (·.name) := by
  induction queue generalizing objs with
  | nil => rfl
  | cons inj rest ih =>
    cases found : objs.find? (·.name == inj.target) with
    | none => simp only [makeChanges, found, ih]
    | some o =>
      cases made : inj.outcome o with
      | ok out =>
        simp only [makeChanges, found, made]
        rw [ih, names_setNamed_of_find? found (Injection.name_of_outcome made)]
      | error reason => simp only [makeChanges, found, made, ih]

theorem hasObject_makeChanges (objs : List (ObjectDef σ)) (queue : List (Injection σ)) :
    hasObject (makeChanges objs queue).1 = hasObject objs :=
  hasObject_eq_of_names (names_makeChanges objs queue)

theorem makeChanges_of_absent {objs : List (ObjectDef σ)} {queue : List (Injection σ)}
    (absent : ∀ inj ∈ queue, hasObject objs inj.target = false) :
    makeChanges objs queue = (objs, []) := by
  induction queue with
  | nil => rfl
  | cons inj rest ih =>
    have missing := find?_eq_none_of_hasObject (absent inj List.mem_cons_self)
    simp only [makeChanges, missing]
    exact ih fun inj' mem => absent inj' (List.mem_cons_of_mem _ mem)

/-! ### Each object takes its own changes -/

/-- The stuck entry of a change, when its target is one of the objects and the change is refused
as it is made. -/
def refusal (objs : List (ObjectDef σ)) (inj : Injection σ) : Option StuckInjection :=
  match objs.find? (·.name == inj.target) with
  | none => none
  | some o =>
    match inj.outcome o with
    | .ok _ => none
    | .error reason => some ⟨inj.target, inj.provenance, reason⟩

/-- The stuck entry of the change at a position of the queue, made to the objects as the changes
before it left them, when it is refused. -/
def refusalAt (objs : List (ObjectDef σ)) (queue : List (Injection σ)) (i : Fin queue.length) :
    Option StuckInjection :=
  refusal (objs.map (changedBy (queue.take i))) queue[i]

theorem names_map_makeOn (objs : List (ObjectDef σ)) (inj : Injection σ) :
    (objs.map inj.makeOn).map (·.name) = objs.map (·.name) := by
  simp [List.map_map, Function.comp_def]

/-- With one object of each name, a change made to the objects is made to each of them: the run
goes on with every object after the change. -/
theorem makeChanges_cons {objs : List (ObjectDef σ)} (distinct : (objs.map (·.name)).Nodup)
    (inj : Injection σ) (rest : List (Injection σ)) :
    makeChanges objs (inj :: rest) =
      ((makeChanges (objs.map inj.makeOn) rest).1,
        (refusal objs inj).toList ++ (makeChanges (objs.map inj.makeOn) rest).2) := by
  cases found : objs.find? (·.name == inj.target) with
  | none =>
    have untouched : objs.map inj.makeOn = objs.map id := by
      refine List.map_congr_left fun o mem => ?_
      have apart : inj.target ≠ o.name := fun same => by
        rw [List.find?_eq_none] at found
        exact found o mem (by simp [same])
      simp [Injection.makeOn, apart]
    rw [List.map_id] at untouched
    simp [makeChanges, refusal, found, untouched]
  | some o =>
    have mem := List.mem_of_find?_eq_some found
    have named : o.name = inj.target := by simpa using List.find?_some found
    have others : ∀ y ∈ objs, y.name = inj.target → y = o := fun y member same =>
      List.inj_on_of_nodup_map distinct member mem (same.trans named.symm)
    have apart : ∀ y, y.name ≠ inj.target → inj.makeOn y = y := fun y differs => by
      simp [Injection.makeOn, Ne.symm differs]
    cases made : inj.outcome o with
    | ok out =>
      have renamed := Injection.name_of_outcome made
      have stored : setNamed (·.name) objs out = objs.map inj.makeOn := by
        unfold setNamed
        rw [if_pos (by simp only [renamed]; exact hasObject_of_find? found)]
        refine List.map_congr_left fun y member => ?_
        by_cases same : y.name = inj.target
        · obtain rfl := others y member same
          simp [Injection.makeOn, named, made, renamed]
        · simp [apart y same, renamed, same]
      simp [makeChanges, refusal, found, made, stored]
    | error reason =>
      have untouched : objs.map inj.makeOn = objs.map id := by
        refine List.map_congr_left fun y member => ?_
        by_cases same : y.name = inj.target
        · obtain rfl := others y member same
          simp [Injection.makeOn, named, made]
        · exact apart y same
      rw [List.map_id] at untouched
      simp [makeChanges, refusal, found, made, untouched]

theorem makeChanges_objects {objs : List (ObjectDef σ)} (distinct : (objs.map (·.name)).Nodup)
    (queue : List (Injection σ)) : (makeChanges objs queue).1 = objs.map (changedBy queue) := by
  induction queue generalizing objs with
  | nil => exact (List.map_id objs).symm
  | cons inj rest ih =>
    rw [makeChanges_cons distinct, ih ((names_map_makeOn objs inj).symm ▸ distinct), List.map_map]
    rfl

/-- With one object of each name, the changes a run through the queue refuses are, in queue
order, those refused as they are made to their target as the changes before them left it. -/
theorem makeChanges_refused {objs : List (ObjectDef σ)} (distinct : (objs.map (·.name)).Nodup)
    (queue : List (Injection σ)) :
    (makeChanges objs queue).2 = (List.finRange queue.length).filterMap (refusalAt objs queue) := by
  induction queue generalizing objs with
  | nil => rfl
  | cons inj rest ih =>
    have first : refusalAt objs (inj :: rest) 0 = refusal objs inj := by
      simp [refusalAt]
    have later : refusalAt objs (inj :: rest) ∘ Fin.succ = refusalAt (objs.map inj.makeOn) rest := by
      funext i
      simp [refusalAt, List.map_map]
    rw [makeChanges_cons distinct, ih ((names_map_makeOn objs inj).symm ▸ distinct)]
    simp only [List.length_cons, List.finRange_succ, List.filterMap_cons, first, List.filterMap_map,
      later]
    cases refusal objs inj <;> rfl

/-! ### The passes -/

/-- A pass makes the changes whose target is an object as one run through the queue does, and
leaves the others waiting, in order; it has made progress when some change had a target. -/
theorem applyPass_eq (r : Registry σ) (queue : List (Injection σ)) :
    ∃ log, r.applyPass queue =
      ({ r with objects := (makeChanges r.objects queue).1, log }, (makeChanges r.objects queue).2,
        queue.filter (fun inj => !hasObject r.objects inj.target),
        queue.any fun inj => hasObject r.objects inj.target) := by
  unfold applyPass
  suffices pass : ∀ (rest : List (Injection σ)) (objs : List (ObjectDef σ))
      (log : List Telemetry.LogRecord) (stuck : List StuckInjection) (next : List (Injection σ))
      (progress : Bool),
      ∃ log', rest.foldl _ ({ r with objects := objs, log }, stuck, next, progress) =
        ({ r with objects := (makeChanges objs rest).1, log := log' },
          stuck ++ (makeChanges objs rest).2,
          next ++ rest.filter (fun inj => !hasObject objs inj.target),
          progress || rest.any fun inj => hasObject objs inj.target)
    from by simpa using pass queue r.objects r.log [] [] false
  intro rest
  induction rest with
  | nil =>
    intro objs log stuck next progress
    exact ⟨log, by simp [makeChanges]⟩
  | cons inj rest ih =>
    intro objs log stuck next progress
    simp only [List.foldl_cons]
    cases found : objs.find? (·.name == inj.target) with
    | none =>
      have absent : hasObject objs inj.target = false := by
        rw [List.find?_eq_none] at found
        simpa [hasObject] using found
      obtain ⟨log', ran⟩ := ih objs log stuck (next ++ [inj]) progress
      refine ⟨log', ?_⟩
      simp only [found, makeChanges, List.filter_cons, absent, List.any_cons] at ran ⊢
      simpa using ran
    | some o =>
      have present := hasObject_of_find? found
      cases given : inj.transform o with
      | none =>
        have made : inj.outcome o = .error "transform returned nil" := by
          simp [Injection.outcome, given]
        obtain ⟨log', ran⟩ := ih objs log (stuck ++ [⟨inj.target, inj.provenance,
          "transform returned nil"⟩]) next true
        refine ⟨log', ?_⟩
        simp only [found, given, makeChanges, made, List.filter_cons, present, List.any_cons] at ran ⊢
        simpa using ran
      | some out =>
        by_cases named : out.name = inj.target
        · have made : inj.outcome o = .ok out := by simp [Injection.outcome, given, named]
          have kept := hasObject_eq_of_names (names_setNamed_of_find? found named)
          obtain ⟨log', ran⟩ := ih (setNamed (·.name) objs out) (log ++ [Telemetry.LogRecord.debug
            "field injected" [("type", .text inj.target), ("field", .text inj.provenance.field),
              ("module", .text inj.provenance.module)]]) stuck next true
          refine ⟨log', ?_⟩
          rw [kept] at ran
          simp only [found, given, named, makeChanges, made, List.filter_cons,
            present, List.any_cons] at ran ⊢
          simpa using ran
        · have made : inj.outcome o =
              .error ("transform renamed the object to " ++ Quoted.encode out.name) := by
            simp [Injection.outcome, given, named]
          obtain ⟨log', ran⟩ := ih objs log (stuck ++ [⟨inj.target, inj.provenance,
            "transform renamed the object to " ++ Quoted.encode out.name⟩]) next true
          refine ⟨log', ?_⟩
          simp only [found, given, makeChanges, made, List.filter_cons, present,
            List.any_cons] at ran ⊢
          simpa [named] using ran

theorem applyPass_of_absent (r : Registry σ) {queue : List (Injection σ)}
    (absent : ∀ inj ∈ queue, hasObject r.objects inj.target = false) :
    ∃ log, r.applyPass queue = ({ r with log }, [], queue, false) := by
  obtain ⟨log, pass⟩ := applyPass_eq r queue
  refine ⟨log, ?_⟩
  have waiting : queue.filter (fun inj => !hasObject r.objects inj.target) = queue :=
    List.filter_eq_self.mpr fun inj mem => by simp [absent inj mem]
  have noProgress : (queue.any fun inj => hasObject r.objects inj.target) = false :=
    List.any_eq_false.mpr fun inj mem => by simp [absent inj mem]
  rw [pass, makeChanges_of_absent absent, waiting, noProgress]

theorem applyAll_nil (fuel : Nat) (r : Registry σ) (stuck : List StuckInjection) :
    applyAll fuel r [] stuck = (r, stuck) := by
  cases fuel <;> rfl

@[simp] theorem missingEntry_withObjects (r : Registry σ) (objs : List (ObjectDef σ))
    (log : List Telemetry.LogRecord) : missingEntry { r with objects := objs, log } = missingEntry r :=
  rfl

/-- The passes end after at most two: the first makes every change whose target is an object, and
the changes left find no target in a second, so they are stuck as missing. -/
theorem applyAll_eq (fuel : Nat) (r : Registry σ) (queue : List (Injection σ))
    (stuck : List StuckInjection) (enough : queue ≠ [] → 2 ≤ fuel) :
    ∃ log, applyAll fuel r queue stuck =
      ({ r with objects := (makeChanges r.objects queue).1, log },
        stuck ++ (makeChanges r.objects queue).2 ++
          (queue.filter fun inj => !hasObject r.objects inj.target).map (missingEntry r)) := by
  cases queue with
  | nil =>
    refine ⟨r.log, ?_⟩
    cases fuel <;> simp [applyAll, makeChanges]
  | cons inj rest =>
    obtain ⟨fuel, rfl⟩ : ∃ n, fuel = n + 2 :=
      ⟨fuel - 2, by have := enough (List.cons_ne_nil inj rest); omega⟩
    obtain ⟨log, first⟩ := applyPass_eq r (inj :: rest)
    have absent : ∀ w ∈ (inj :: rest).filter (fun inj => !hasObject r.objects inj.target),
        hasObject (makeChanges r.objects (inj :: rest)).1 w.target = false := by
      intro w mem
      rw [hasObject_makeChanges]
      simpa using (List.mem_filter.mp mem).2
    by_cases progress : ((inj :: rest).any fun inj => hasObject r.objects inj.target) = true
    · cases waiting : (inj :: rest).filter (fun inj => !hasObject r.objects inj.target) with
      | nil =>
        refine ⟨log, ?_⟩
        rw [applyAll.eq_3 _ _ _ _ (List.cons_ne_nil _ _), first, waiting]
        dsimp only
        rw [if_pos progress, applyAll_nil]
        simp
      | cons w more =>
        rw [waiting] at absent
        obtain ⟨log', second⟩ := applyPass_of_absent
          { r with objects := (makeChanges r.objects (inj :: rest)).1, log } absent
        refine ⟨log', ?_⟩
        rw [applyAll.eq_3 _ _ _ _ (List.cons_ne_nil _ _), first, waiting]
        dsimp only
        rw [if_pos progress, applyAll.eq_3 _ _ _ _ (List.cons_ne_nil _ _), second]
        simp only [Bool.false_eq_true, if_false, List.append_nil]
        rfl
    · have none : ∀ w ∈ inj :: rest, hasObject r.objects w.target = false := by
        simpa using progress
      refine ⟨log, ?_⟩
      rw [applyAll.eq_3 _ _ _ _ (List.cons_ne_nil _ _), first]
      dsimp only
      have waiting : (inj :: rest).filter (fun inj => !hasObject r.objects inj.target) =
          inj :: rest :=
        List.filter_eq_self.mpr fun w mem => by simp [none w mem]
      rw [if_neg progress, waiting, makeChanges_of_absent none]
      rfl

/-- Applying the waiting changes of a registry: each object takes the changes made to it in queue
order. When some change is stuck the registry fails with every stuck change; otherwise what each
object gained after its registered counts is sorted. -/
theorem exec_resolveInjections (r : Registry σ) :
    ∃ log, exec resolveInjections r =
      if stuckChanges r = [] then
        (.ok (),
          { r with pending := [], objects := (makeChanges r.objects r.pending).1.map r.sortAdded, log })
      else
        (.error (.stuck (stuckChanges r)),
          { r with pending := [], objects := (makeChanges r.objects r.pending).1, log }) := by
  obtain ⟨log, applied⟩ := applyAll_eq (r.pending.length + 1) { r with pending := [] } r.pending []
    fun waiting => by
      have := List.length_pos_of_ne_nil waiting
      omega
  have listed : (makeChanges r.objects r.pending).2 ++
      (r.pending.filter fun inj => !hasObject r.objects inj.target).map
        (missingEntry { r with pending := [] }) = stuckChanges r := rfl
  simp only [resolveInjections, exec_bind, exec_get, andThen_ok]
  rw [applied]
  simp only [exec_set, andThen_ok, exec_bind, exec_forIn_note, List.nil_append, listed]
  by_cases clean : stuckChanges r = []
  · simp only [clean, List.isEmpty_nil, Bool.not_true, Bool.false_eq_true, if_false, if_true,
      exec_modify]
    exact ⟨_, rfl⟩
  · have reported : (stuckChanges r).isEmpty = false := by simpa using clean
    simp only [clean, reported, Bool.not_false, if_true, if_false]
    exact ⟨_, rfl⟩

/-! ### Sorting what the objects gained -/

/-- What an object gained after the counts it was registered with, fields and interfaces, is
sorted by name. -/
def SortedAfter (counts : Nat × Nat) (o : ObjectDef σ) : Prop :=
  ((o.fields.drop counts.1).map (·.name)).Pairwise (· ≤ ·) ∧
    (o.interfaces.drop counts.2).Pairwise (· ≤ ·)

theorem drop_take_append_mergeSort {α : Type} (l : List α) (n : Nat) (le : α → α → Bool) :
    (l.take n ++ (l.drop n).mergeSort le).drop n = (l.drop n).mergeSort le := by
  rw [List.drop_append, List.drop_eq_nil_of_le (by simp), List.nil_append,
    List.length_take]
  by_cases short : n ≤ l.length
  · rw [Nat.min_eq_left short, Nat.sub_self, List.drop_zero]
  · rw [List.drop_eq_nil_of_le (Nat.le_of_lt (Nat.lt_of_not_le short))]
    simp

theorem sortedAfter_sortFrom (o : ObjectDef σ) (fieldStart interfaceStart : Nat) :
    SortedAfter (fieldStart, interfaceStart) (o.sortFrom fieldStart interfaceStart) := by
  constructor
  · show ((((o.fields.take fieldStart ++ (o.fields.drop fieldStart).mergeSort
        fun a b => decide (a.name ≤ b.name)).drop fieldStart)).map (·.name)).Pairwise (· ≤ ·)
    rw [drop_take_append_mergeSort, List.pairwise_map]
    have trans : ∀ a b c : FieldDef σ, decide (a.name ≤ b.name) = true →
        decide (b.name ≤ c.name) = true → decide (a.name ≤ c.name) = true := by
      intro a b c first second
      simp only [decide_eq_true_eq] at first second ⊢
      exact le_trans first second
    have total : ∀ a b : FieldDef σ, (decide (a.name ≤ b.name) || decide (b.name ≤ a.name)) = true :=
      fun a b => by simpa using le_total a.name b.name
    simpa using List.pairwise_mergeSort trans total (o.fields.drop fieldStart)
  · show ((o.interfaces.take interfaceStart ++ (o.interfaces.drop interfaceStart).mergeSort
        fun a b => decide (a ≤ b)).drop interfaceStart).Pairwise (· ≤ ·)
    rw [drop_take_append_mergeSort]
    simpa using List.pairwise_mergeSort' (· ≤ ·) (o.interfaces.drop interfaceStart)

theorem Recorded.find?_bases {r : Registry σ} (recorded : Recorded r) {o : ObjectDef σ}
    (mem : o ∈ r.objects) : r.bases.find? (·.1 == o.name) = some (registeredCounts o) := by
  have keys : (r.bases.map Prod.fst).Nodup := by
    rw [recorded.counts, List.map_map]
    exact recorded.distinct
  refine (find?_key_eq_some_iff Prod.fst keys o.name _).mpr ⟨?_, rfl⟩
  rw [recorded.counts]
  exact List.mem_map_of_mem mem

/-! ### Finishing -/

/-- Injection fixpoint outcome. When a registry left open by any session is finished, applying
its waiting changes ends, and its outcome is this: each object takes, in queue order and each
once, the changes that target it and are not refused; the stuck changes are those refused as they
are made (they give nothing, or rename the object), in queue order, followed by those whose
target is no object, in queue order, each with the reason its target is not an object; the
registry fails with them exactly when there is one; and otherwise each object's fields and
interfaces after the counts it was registered with are sorted by name. -/
theorem injection_fixpoint_outcome (actions : List (Action σ))
    (isOpen : (afterActions {} actions).state = .accumulating) :
    let r : Registry σ := { afterActions {} actions with state := .finalizing }
    let stuck := (List.finRange r.pending.length).filterMap (refusalAt r.objects r.pending) ++
      (r.pending.filter fun inj => !hasObject r.objects inj.target).map (missingEntry r)
    (∃ log, exec resolveInjections r =
      if stuck = [] then
        (.ok (), { r with
          pending := [], objects := (r.objects.map (changedBy r.pending)).map r.sortAdded, log })
      else
        (.error (.stuck stuck),
          { r with pending := [], objects := r.objects.map (changedBy r.pending), log })) ∧
    (stuck = [] → ∀ o ∈ (exec resolveInjections r).2.objects,
      ∃ counts, r.bases.find? (·.1 == o.name) = some (o.name, counts) ∧ SortedAfter counts o) := by
  intro r stuck
  have kept := afterActions_recorded actions Recorded.empty isOpen
  have recorded : Recorded r := ⟨kept.distinct, kept.counts⟩
  have listed : stuck = stuckChanges r := by
    simp only [stuck, stuckChanges, makeChanges_refused recorded.distinct]
  obtain ⟨log, resolved⟩ := exec_resolveInjections r
  rw [makeChanges_objects recorded.distinct, ← listed] at resolved
  refine ⟨⟨log, resolved⟩, fun clean o mem => ?_⟩
  rw [resolved, if_pos clean] at mem
  obtain ⟨o₀, mem₀, rfl⟩ := List.mem_map.mp (List.map_map ▸ mem :
    o ∈ r.objects.map (r.sortAdded ∘ changedBy r.pending))
  have found := recorded.find?_bases mem₀
  have sorted : r.sortAdded (changedBy r.pending o₀) =
      (changedBy r.pending o₀).sortFrom o₀.fields.length o₀.interfaces.length := by
    simp [sortAdded, found, registeredCounts]
  refine ⟨(o₀.fields.length, o₀.interfaces.length), ?_, ?_⟩
  · simp only [Function.comp_apply, sorted, ObjectDef.sortFrom, name_changedBy, found]
    rfl
  · simp only [Function.comp_apply, sorted]
    exact sortedAfter_sortFrom _ _ _

/-- A session that asks for a field on a registered object, and for changes to an unregistered
name, to an interface and, with a change that gives nothing, to the object: it leaves the registry
open, and finishing it has the outcome above. -/
theorem stuck_injections_outcome :
    let user : ObjectDef Unit := { name := "User", fields := [{ name := "id", type := .named "ID" }] }
    let aged : InterfaceDef Unit :=
      { name := "Aged", fields := [{ name := "age", type := .named "Int" }] }
    let avatar : FieldDef Unit := { name := "avatar", type := .named "String" }
    let actions : List (Action Unit) :=
      [.call (.edit (.registerObject user)), .call (.edit (.registerInterface aged)),
        .call (.edit (.expandObject "Ghost" (some fun o => some o) ⟨"haunt", "boo"⟩)),
        .call (.injectFields "User" "avatars" [some avatar]),
        .call (.edit (.expandObject "Aged" (some fun o => some o) ⟨"profiles", "years"⟩)),
        .call (.edit (.expandObject "User" (some fun _ => none) ⟨"a", "x"⟩))]
    let r : Registry Unit := { afterActions {} actions with state := .finalizing }
    let stuck := (List.finRange r.pending.length).filterMap (refusalAt r.objects r.pending) ++
      (r.pending.filter fun inj => !hasObject r.objects inj.target).map (missingEntry r)
    (afterActions {} actions).state = .accumulating ∧
      (∃ log, exec resolveInjections r =
        if stuck = [] then
          (.ok (), { r with
            pending := [], objects := (r.objects.map (changedBy r.pending)).map r.sortAdded, log })
        else
          (.error (.stuck stuck),
            { r with pending := [], objects := r.objects.map (changedBy r.pending), log })) ∧
      (stuck = [] → ∀ o ∈ (exec resolveInjections r).2.objects,
        ∃ counts, r.bases.find? (·.1 == o.name) = some (o.name, counts) ∧ SortedAfter counts o) :=
  ⟨rfl, injection_fixpoint_outcome _ rfl⟩

end Registry

end GraphWeave
