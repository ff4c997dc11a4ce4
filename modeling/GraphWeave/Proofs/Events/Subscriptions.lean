import GraphWeave.Proofs.Events.Slices

/-!
The subscriptions of a bus, under any interleaving of calls. Callers subscribe, run the
cancellations their tickets hold, and emit.
-/

namespace GraphWeave

/-- A call on a bus: subscribing a handler to a kind, running the cancellation that the
subscription numbered `n` returned, beginning an emit to a kind, or letting the `n`-th emit
begun call its next subscription. -/
inductive Call (κ α : Type) where
  | on (kind : κ) (handler : α)
  | off (n : Nat)
  | emit (kind : κ)
  | next (n : Nat)

namespace Call

variable {κ α : Type}

/-- Whether a call cancels the subscription numbered `n`. -/
def cancels : Call κ α → Nat → Bool
  | .off m, n => m == n
  | _, _ => false

@[simp] theorem cancels_on (kind : κ) (handler : α) (n : Nat) :
    (Call.on kind handler).cancels n = false := rfl

@[simp] theorem cancels_off (m n : Nat) : (Call.off m : Call κ α).cancels n = (m == n) := rfl

@[simp] theorem cancels_emit (kind : κ) (n : Nat) : (Call.emit kind : Call κ α).cancels n = false :=
  rfl

@[simp] theorem cancels_next (m n : Nat) : (Call.next m : Call κ α).cancels n = false := rfl

/-- Whether a call begins an emit. -/
def begins : Call κ α → Bool
  | .emit _ => true
  | _ => false

end Call

/-- The subscriptions that calls make, numbered from `n` in the order made, each with its kind
and the calls after it. -/
def made {κ α : Type} (n : Nat) : List (Call κ α) → List (κ × Subscription α × List (Call κ α))
  | [] => []
  | .on kind handler :: rest => (kind, ⟨n, handler⟩, rest) :: made (n + 1) rest
  | _ :: rest => made n rest

/-- The subscriptions of a kind that calls leave in place: made, numbered from one, and not
cancelled by a later call. -/
def live {κ α : Type} [DecidableEq κ] (calls : List (Call κ α)) (kind : κ) :
    List (Subscription α) :=
  (made 1 calls).filterMap fun (k, s, later) =>
    if k = kind ∧ later.all (fun c => !c.cancels s.id) then some s else none

/-- An emit in progress: its kind, the slice it took when it began, and the subscriptions it
has called. -/
structure Emit (κ α : Type) where
  kind : κ
  slice : Slice
  called : List (Subscription α)

/-- A bus among its callers: the tickets its subscriptions returned, and the emits begun. -/
structure Traffic (κ α : Type) where
  bus : Bus κ α
  tickets : List (Ticket κ) := []
  emits : List (Emit κ α) := []

namespace Traffic

variable {κ α : Type} [DecidableEq κ]

/-- One call. A cancellation runs through the ticket its subscription returned, once that
subscription is made; an emit's next step calls the subscription at the next index of its slice,
if the slice reaches that far. -/
def step (tr : Traffic κ α) : Call κ α → Traffic κ α
  | .on kind handler =>
    let (bus, t) := tr.bus.on kind handler
    { tr with bus, tickets := tr.tickets ++ [t] }
  | .off n =>
    match tr.tickets.find? (·.id == n) with
    | some t => { tr with bus := tr.bus.off t }
    | none => tr
  | .emit kind => { tr with emits := tr.emits ++ [⟨kind, tr.bus.slice kind, []⟩] }
  | .next n =>
    match tr.emits[n]? with
    | some e =>
      match tr.bus.at? e.slice e.called.length with
      | some sub => { tr with emits := tr.emits.set n { e with called := e.called ++ [sub] } }
      | none => tr
    | none => tr

/-- Calls in order. -/
def run (tr : Traffic κ α) (calls : List (Call κ α)) : Traffic κ α := calls.foldl step tr

end Traffic

section Made

variable {κ α : Type}

/-- A made subscription with one more call after it. -/
def extendMade (c : Call κ α) (m : κ × Subscription α × List (Call κ α)) :
    κ × Subscription α × List (Call κ α) :=
  (m.1, m.2.1, m.2.2 ++ [c])

theorem made_append_on (n : Nat) (calls : List (Call κ α)) (kind : κ) (handler : α) :
    made n (calls ++ [.on kind handler]) =
      (made n calls).map (extendMade (.on kind handler)) ++
        [(kind, ⟨n + (made n calls).length, handler⟩, [])] := by
  induction calls generalizing n with
  | nil => simp [made]
  | cons c rest ih =>
    cases c with
    | on k h =>
      simp only [List.cons_append, made, ih, List.map_cons, List.length_cons, extendMade,
        List.cons.injEq, true_and]
      rw [show n + 1 + (made (n + 1) rest).length = n + ((made (n + 1) rest).length + 1) by omega]
    | _ => simp [made, ih]

theorem made_append_other (n : Nat) (calls : List (Call κ α)) {c : Call κ α}
    (other : ∀ kind handler, c ≠ .on kind handler) :
    made n (calls ++ [c]) = (made n calls).map (extendMade c) := by
  induction calls generalizing n with
  | nil => cases c <;> simp_all [made]
  | cons c' rest ih => cases c' <;> simp [made, ih, extendMade]

/-- Made subscriptions are numbered upwards from where the count starts. -/
theorem made_numbered (n : Nat) (calls : List (Call κ α)) :
    (∀ m ∈ made n calls, n ≤ m.2.1.id) ∧ (made n calls).Pairwise (·.2.1.id < ·.2.1.id) := by
  induction calls generalizing n with
  | nil => simp [made]
  | cons c rest ih =>
    cases c with
    | on kind handler =>
      obtain ⟨above, increasing⟩ := ih (n + 1)
      refine ⟨?_, List.pairwise_cons.mpr ⟨fun m member => ?_, increasing⟩⟩
      · intro m member
        rcases List.mem_cons.mp member with rfl | member
        · exact le_rfl
        · exact Nat.le_of_succ_le (above m member)
      · exact above m member
    | _ => exact ih n

theorem made_eq_of_id {calls : List (Call κ α)} {m m' : κ × Subscription α × List (Call κ α)}
    (member : m ∈ made 1 calls) (member' : m' ∈ made 1 calls) (same : m.2.1.id = m'.2.1.id) :
    m = m' := by
  have increasing := (made_numbered 1 calls).2
  by_contra differ
  rcases List.mem_iff_getElem.mp member with ⟨i, hi, rfl⟩
  rcases List.mem_iff_getElem.mp member' with ⟨j, hj, rfl⟩
  rcases Nat.lt_trichotomy i j with lt | rfl | gt
  · exact absurd same (List.pairwise_iff_getElem.mp increasing i j hi hj lt).ne
  · exact differ rfl
  · exact absurd same.symm (List.pairwise_iff_getElem.mp increasing j i hj hi gt).ne

theorem tickets_append_other (calls : List (Call κ α)) {c : Call κ α}
    (other : ∀ kind handler, c ≠ .on kind handler) :
    ((made 1 (calls ++ [c])).map fun m => (⟨m.1, m.2.1.id⟩ : Ticket κ)) =
      (made 1 calls).map fun m => ⟨m.1, m.2.1.id⟩ := by
  rw [made_append_other _ _ other, List.map_map]
  rfl

theorem length_made_append_other (calls : List (Call κ α)) {c : Call κ α}
    (other : ∀ kind handler, c ≠ .on kind handler) :
    (made 1 (calls ++ [c])).length = (made 1 calls).length := by
  rw [made_append_other _ _ other, List.length_map]

/-- Which made subscriptions a cancellation of number `n` has reached. -/
def CancelledIn (calls : List (Call κ α)) (n : Nat) : Prop :=
  ∃ m ∈ made 1 calls, m.2.1.id = n ∧ m.2.2.any (·.cancels n)

theorem cancelledIn_append_on {calls : List (Call κ α)} {kind : κ} {handler : α} {n : Nat} :
    CancelledIn (calls ++ [.on kind handler]) n ↔ CancelledIn calls n := by
  simp [CancelledIn, made_append_on, extendMade]

theorem cancelledIn_append_quiet {calls : List (Call κ α)} {c : Call κ α}
    (other : ∀ kind handler, c ≠ .on kind handler) (quiet : ∀ n, c.cancels n = false) {n : Nat} :
    CancelledIn (calls ++ [c]) n ↔ CancelledIn calls n := by
  simp [CancelledIn, made_append_other _ _ other, extendMade, quiet]

theorem cancelledIn_append_off {calls : List (Call κ α)} {n' n : Nat} :
    CancelledIn (calls ++ [.off n']) n ↔
      CancelledIn calls n ∨ (n' = n ∧ ∃ m ∈ made 1 calls, m.2.1.id = n) := by
  have extended : made 1 (calls ++ [.off n']) = (made 1 calls).map (extendMade (.off n')) :=
    made_append_other 1 calls (by simp)
  unfold CancelledIn
  rw [extended]
  constructor
  · rintro ⟨_, member, number, hit⟩
    obtain ⟨m, made_m, rfl⟩ := List.mem_map.mp member
    simp only [extendMade, List.any_append, List.any_cons, List.any_nil, Bool.or_false,
      Bool.or_eq_true, Call.cancels_off, beq_iff_eq] at number hit
    rcases hit with cancelled | hit
    · exact .inl ⟨m, made_m, number, cancelled⟩
    · exact .inr ⟨hit, m, made_m, number⟩
  · rintro (⟨m, member, number, cancelled⟩ | ⟨hit, m, member, number⟩)
    · exact ⟨extendMade (.off n') m, List.mem_map_of_mem member, number,
        by simp [extendMade, cancelled]⟩
    · exact ⟨extendMade (.off n') m, List.mem_map_of_mem member, number,
        by simp [extendMade, hit]⟩

end Made

section Live

variable {κ α : Type} [DecidableEq κ]

/-- Which made subscriptions are live. -/
def liveIn (kind : κ) (m : κ × Subscription α × List (Call κ α)) : Option (Subscription α) :=
  if m.1 = kind ∧ m.2.2.all (fun c => !c.cancels m.2.1.id) then some m.2.1 else none

theorem live_eq (calls : List (Call κ α)) (kind : κ) :
    live calls kind = (made 1 calls).filterMap (liveIn kind) := rfl

theorem mem_live {calls : List (Call κ α)} {kind : κ} {s : Subscription α} :
    s ∈ live calls kind ↔
      ∃ later, (kind, s, later) ∈ made 1 calls ∧ later.all (fun c => !c.cancels s.id) := by
  simp only [live_eq, List.mem_filterMap, liveIn]
  constructor
  · rintro ⟨⟨k, s', later⟩, member, chosen⟩
    split at chosen
    case isTrue kept =>
      cases chosen
      obtain ⟨rfl, clean⟩ := kept
      exact ⟨later, member, clean⟩
    case isFalse => cases chosen
  · rintro ⟨later, member, clean⟩
    exact ⟨(kind, s, later), member, by simp [clean]⟩

theorem live_increasing (calls : List (Call κ α)) (kind : κ) :
    (live calls kind).Pairwise (·.id < ·.id) := by
  rw [live_eq]
  apply (made_numbered 1 calls).2.filterMap
  intro m m' lt s chosen s' chosen'
  simp only [liveIn] at chosen chosen'
  split at chosen <;> split at chosen' <;> simp_all

theorem live_append_on (calls : List (Call κ α)) (kind k : κ) (handler : α) :
    live (calls ++ [.on k handler]) kind =
      live calls kind ++ if k = kind then [⟨(made 1 calls).length + 1, handler⟩] else [] := by
  rw [live_eq, made_append_on, List.filterMap_append, List.filterMap_map, live_eq]
  congr 1
  · apply List.filterMap_congr
    intro m _
    simp [liveIn, extendMade]
  · by_cases same : k = kind <;> simp [liveIn, same, Nat.add_comm]

theorem live_append_off (calls : List (Call κ α)) (kind : κ) (n : Nat) :
    live (calls ++ [.off n]) kind = (live calls kind).filter (·.id != n) := by
  rw [live_eq, made_append_other _ _ (by simp), List.filterMap_map, live_eq, List.filter_filterMap]
  apply List.filterMap_congr
  intro m _
  by_cases kept : m.1 = kind ∧ m.2.2.all (fun c => !c.cancels m.2.1.id)
  · by_cases hit : m.2.1.id = n
    · have gone : ¬ ((extendMade (.off n) m).1 = kind ∧
          (extendMade (.off n) m).2.2.all (fun c => !c.cancels (extendMade (.off n) m).2.1.id)) := by
        simp [extendMade, hit]
      rw [Function.comp_apply]
      unfold liveIn
      rw [if_neg gone, if_pos kept]
      simp [Option.filter, hit]
    · simp [liveIn, extendMade, kept, Option.filter, Ne.symm hit, hit]
  · simp only [liveIn, extendMade, Function.comp_apply, List.all_append, List.all_cons,
      List.all_nil, Bool.and_true]
    rw [if_neg (by simp_all), if_neg kept]
    rfl

theorem live_append_quiet (calls : List (Call κ α)) (kind : κ) {c : Call κ α}
    (other : ∀ kind handler, c ≠ .on kind handler) (quiet : ∀ n, c.cancels n = false) :
    live (calls ++ [c]) kind = live calls kind := by
  rw [live_eq, made_append_other _ _ other, List.filterMap_map, live_eq]
  apply List.filterMap_congr
  intro m _
  simp [liveIn, extendMade, quiet]

/-- Cutting out the one subscription with a number from subscriptions numbered upwards leaves
the others. -/
theorem cut_eq_filter {subs : List (Subscription α)} (increasing : subs.Pairwise (·.id < ·.id))
    {i : Nat} (within : i < subs.length) {n : Nat} (hit : subs[i].id = n) :
    subs.take i ++ subs.drop (i + 1) = subs.filter (·.id != n) := by
  have parts : (subs.take i ++ subs[i] :: subs.drop (i + 1)).Pairwise (·.id < ·.id) := by
    rwa [← List.drop_eq_getElem_cons within, List.take_append_drop]
  rw [List.pairwise_append] at parts
  obtain ⟨-, after, across⟩ := parts
  have below : ∀ s ∈ subs.take i, (s.id != n) = true := by
    intro s member
    have lt := across s member subs[i] List.mem_cons_self
    simpa [← hit] using lt.ne
  have above : ∀ s ∈ subs.drop (i + 1), (s.id != n) = true := by
    intro s member
    have lt := (List.pairwise_cons.mp after).1 s member
    simpa [← hit] using lt.ne'
  have split : subs.filter (·.id != n) =
      (subs.take i).filter (·.id != n) ++ (subs.drop i).filter (·.id != n) := by
    rw [← List.filter_append, List.take_append_drop]
  rw [split, List.drop_eq_getElem_cons within, List.filter_cons_of_neg (by simp [hit]),
    List.filter_eq_self.mpr below, List.filter_eq_self.mpr above]

theorem not_live_of_cancelledIn {calls : List (Call κ α)} {kind : κ} {s : Subscription α}
    (member : s ∈ live calls kind) (cancelled : CancelledIn calls s.id) : False := by
  obtain ⟨later, made_s, clean⟩ := mem_live.mp member
  obtain ⟨m, made_m, number, hit⟩ := cancelled
  have same := made_eq_of_id made_s made_m number.symm
  subst same
  obtain ⟨c, later_c, cancels⟩ := List.any_eq_true.mp hit
  have kept := List.all_eq_true.mp clean c later_c
  simp_all

end Live

namespace Bus

variable {κ α : Type} [DecidableEq κ] {b : Bus κ α}

theorem setSlice_self (b : Bus κ α) (kind : κ) (o : Option Slice) : b.setSlice kind o kind = o :=
  if_pos rfl

theorem setSlice_other (b : Bus κ α) {kind k : κ} (o : Option Slice) (other : k ≠ kind) :
    b.setSlice kind o k = b.slices k :=
  if_neg other

theorem on_eq (b : Bus κ α) (kind : κ) (handler : α) :
    b.on kind handler =
      ({ b with
          lastId := b.lastId + 1
          arrays := (Slice.append b.growth b.arrays (b.slice kind) [⟨b.lastId + 1, handler⟩]).1
          slices := b.setSlice kind
            (some (Slice.append b.growth b.arrays (b.slice kind) [⟨b.lastId + 1, handler⟩]).2) },
        ⟨kind, b.lastId + 1⟩) := rfl

theorem off_of_cancelled {t : Ticket κ} (done : t.id ∈ b.cancelled) : b.off t = b := by
  unfold off
  rw [if_pos (List.contains_iff_mem.mpr done)]

theorem off_of_missing {t : Ticket κ} (fresh : t.id ∉ b.cancelled)
    (missing : (b.subscriptions t.kind).findIdx? (·.id == t.id) = none) :
    b.off t = { b with cancelled := b.cancelled ++ [t.id] } := by
  unfold off
  rw [if_neg (by simpa using fresh)]
  simp only [missing]

theorem off_of_found {t : Ticket κ} (fresh : t.id ∉ b.cancelled) {i : Nat}
    (found : (b.subscriptions t.kind).findIdx? (·.id == t.id) = some i) :
    b.off t =
      { b with
        cancelled := b.cancelled ++ [t.id]
        arrays := (Slice.append b.growth b.arrays ⟨(b.slice t.kind).array, i, i⟩
          ((b.subscriptions t.kind).drop (i + 1))).1
        slices := b.setSlice t.kind
          (if (Slice.append b.growth b.arrays ⟨(b.slice t.kind).array, i, i⟩
              ((b.subscriptions t.kind).drop (i + 1))).2.len = 0 then none
            else some (Slice.append b.growth b.arrays ⟨(b.slice t.kind).array, i, i⟩
              ((b.subscriptions t.kind).drop (i + 1))).2) } := by
  unfold off
  rw [if_neg (by simpa using fresh)]
  simp only [found]
  rfl

theorem mem_cancelled_off (b : Bus κ α) (t : Ticket κ) : t.id ∈ (b.off t).cancelled := by
  by_cases done : t.id ∈ b.cancelled
  · rwa [off_of_cancelled done]
  · cases found : (b.subscriptions t.kind).findIdx? (·.id == t.id) with
    | none => simp [off_of_missing done found]
    | some i => simp [off_of_found done found]

theorem off_off (b : Bus κ α) (t : Ticket κ) : (b.off t).off t = b.off t :=
  off_of_cancelled (mem_cancelled_off b t)

end Bus

namespace Traffic

variable {κ α : Type} [DecidableEq κ] (tr : Traffic κ α)

theorem step_on (kind : κ) (handler : α) :
    tr.step (.on kind handler) =
      { tr with bus := (tr.bus.on kind handler).1,
                tickets := tr.tickets ++ [(tr.bus.on kind handler).2] } := rfl

theorem step_off_missing {n : Nat} (missing : tr.tickets.find? (·.id == n) = none) :
    tr.step (.off n) = tr := by
  simp [step, missing]

theorem step_off_found {n : Nat} {t : Ticket κ} (found : tr.tickets.find? (·.id == n) = some t) :
    tr.step (.off n) = { tr with bus := tr.bus.off t } := by
  simp [step, found]

theorem step_off_off (n : Nat) : (tr.step (.off n)).step (.off n) = tr.step (.off n) := by
  cases found : tr.tickets.find? (·.id == n) with
  | none => rw [tr.step_off_missing found, tr.step_off_missing found]
  | some t =>
    rw [tr.step_off_found found, Traffic.step_off_found { tr with bus := tr.bus.off t } found,
      Bus.off_off]

theorem step_off_emits (n : Nat) : (tr.step (.off n)).emits = tr.emits := by
  cases found : tr.tickets.find? (·.id == n) with
  | none => rw [tr.step_off_missing found]
  | some t => rw [tr.step_off_found found]

theorem step_emit (kind : κ) :
    tr.step (.emit kind) = { tr with emits := tr.emits ++ [⟨kind, tr.bus.slice kind, []⟩] } := rfl

theorem step_next_cases (n : Nat) :
    tr.step (.next n) = tr ∨
      ∃ e sub, tr.emits[n]? = some e ∧ tr.bus.at? e.slice e.called.length = some sub ∧
        tr.step (.next n) =
          { tr with emits := tr.emits.set n { e with called := e.called ++ [sub] } } := by
  simp only [step]
  split
  case h_1 e found =>
    split
    case h_1 sub calls => exact .inr ⟨e, sub, found, calls, rfl⟩
    case h_2 => exact .inl rfl
  case h_2 => exact .inl rfl

theorem step_next_stop {n : Nat} {e : Emit κ α} (found : tr.emits[n]? = some e)
    (stop : tr.bus.at? e.slice e.called.length = none) : tr.step (.next n) = tr := by
  simp [step, found, stop]

theorem step_next_call {n : Nat} {e : Emit κ α} (found : tr.emits[n]? = some e)
    {sub : Subscription α} (call : tr.bus.at? e.slice e.called.length = some sub) :
    tr.step (.next n) = { tr with emits := tr.emits.set n { e with called := e.called ++ [sub] } } := by
  simp [step, found, call]

theorem run_append (calls more : List (Call κ α)) : tr.run (calls ++ more) = (tr.run calls).run more :=
  List.foldl_append

theorem run_cons (c : Call κ α) (more : List (Call κ α)) : tr.run (c :: more) = (tr.step c).run more :=
  rfl

end Traffic

section Tracks

variable {κ α : Type} [DecidableEq κ]

/-- What the entry of a kind shows: no slice shows nothing, and a slice shows what it holds, at
least one subscription. -/
def Shows (arrays : Arrays α) : Option Slice → List (Subscription α) → Prop
  | none, subs => subs = []
  | some s, subs => 0 < s.len ∧ s.Holds arrays subs

theorem Shows.read_eq {arrays : Arrays α} {o : Option Slice} {subs : List (Subscription α)}
    (shows : Shows arrays o subs) : Slice.read arrays (o.getD .nil) = subs := by
  cases o with
  | none => exact (Slice.read_nil arrays).trans shows.symm
  | some s => exact shows.2.read_eq

theorem Shows.len_eq {arrays : Arrays α} {o : Option Slice} {subs : List (Subscription α)}
    (shows : Shows arrays o subs) : (o.getD .nil).len = subs.length := by
  cases o with
  | none =>
    have empty : subs = [] := shows
    simp [empty, Slice.nil]
  | some s => exact shows.2.len_eq

/-- The bus of a traffic agrees with the calls made: its tickets are those of the subscriptions
made, in order; the cancellations that ran are those that reached a made subscription; its
emits are those begun; each kind shows its live subscriptions; and the slices of distinct kinds
view distinct arrays. -/
structure Tracks (calls : List (Call κ α)) (tr : Traffic κ α) : Prop where
  tickets : tr.tickets = (made 1 calls).map fun m => ⟨m.1, m.2.1.id⟩
  lastId : tr.bus.lastId = (made 1 calls).length
  cancelled : ∀ n, n ∈ tr.bus.cancelled ↔ CancelledIn calls n
  emits : tr.emits.length = calls.countP Call.begins
  shows : ∀ kind, Shows tr.bus.arrays (tr.bus.slices kind) (live calls kind)
  apart : ∀ k k' s s', k ≠ k' → tr.bus.slices k = some s → tr.bus.slices k' = some s' →
    s.array ≠ s'.array

namespace Tracks

variable {calls : List (Call κ α)} {tr : Traffic κ α}

theorem subscriptions_eq (tracks : Tracks calls tr) (kind : κ) :
    tr.bus.subscriptions kind = live calls kind :=
  (tracks.shows kind).read_eq

theorem count_eq (tracks : Tracks calls tr) (kind : κ) :
    tr.bus.count kind = (live calls kind).length :=
  (tracks.shows kind).len_eq

theorem init (g : Growth) : Tracks [] ({ bus := { growth := g } } : Traffic κ α) where
  tickets := rfl
  lastId := rfl
  cancelled n := by simp [CancelledIn, made]
  emits := rfl
  shows _ := rfl
  apart _ _ _ _ _ none := by simp at none

theorem slice_cases (tracks : Tracks calls tr) (kind : κ) :
    (tr.bus.slices kind = none ∧ tr.bus.slice kind = .nil ∧ live calls kind = []) ∨
      ∃ s, tr.bus.slices kind = some s ∧ tr.bus.slice kind = s ∧ 0 < s.len ∧
        s.Holds tr.bus.arrays (live calls kind) := by
  have shows := tracks.shows kind
  cases found : tr.bus.slices kind with
  | none =>
    rw [found] at shows
    exact .inl ⟨rfl, by simp [Bus.slice, found], shows⟩
  | some s =>
    rw [found] at shows
    exact .inr ⟨s, rfl, by simp [Bus.slice, found], shows⟩

theorem keeps_append (tracks : Tracks calls tr) {kind : κ} {v : Slice}
    {subs xs : List (Subscription α)}
    (ok : v.Holds tr.bus.arrays subs ∨ v.cap < v.len + xs.length)
    (own : v.len + xs.length ≤ v.cap → ∃ s, tr.bus.slices kind = some s ∧ s.array = v.array) :
    ∀ k s', k ≠ kind → tr.bus.slices k = some s' →
      Slice.Keeps tr.bus.arrays (Slice.append tr.bus.growth tr.bus.arrays v xs).1 s' := by
  intro k s' other found
  apply Slice.append_keeps ok s'
  intro fits
  obtain ⟨s, mine, array⟩ := own fits
  exact .inl (array ▸ tracks.apart k kind s' s other found mine)

theorem apart_append (tracks : Tracks calls tr) {kind : κ} {v : Slice}
    {xs : List (Subscription α)}
    (own : v.len + xs.length ≤ v.cap → ∃ s, tr.bus.slices kind = some s ∧ s.array = v.array) :
    ∀ k s', k ≠ kind → tr.bus.slices k = some s' →
      (Slice.append tr.bus.growth tr.bus.arrays v xs).2.array ≠ s'.array := by
  intro k s' other found
  rcases Slice.append_array tr.bus.growth tr.bus.arrays v xs with ⟨same, fits⟩ | ⟨fresh, -⟩
  · obtain ⟨s, mine, array⟩ := own fits
    rw [same, ← array]
    exact tracks.apart kind k s s' (Ne.symm other) mine found
  · have shows := tracks.shows k
    rw [found] at shows
    rw [fresh]
    exact shows.2.array_lt.ne'

/-- Replacing the slice of one kind keeps the other kinds showing what they showed, when the new
arrays keep their slices. -/
theorem shows_replace (tracks : Tracks calls tr) {calls' : List (Call κ α)} {kind : κ}
    {arrays' : Arrays α} {o : Option Slice} (own : Shows arrays' o (live calls' kind))
    (others : ∀ k, k ≠ kind → live calls' k = live calls k)
    (keeps : ∀ k s, k ≠ kind → tr.bus.slices k = some s → Slice.Keeps tr.bus.arrays arrays' s) :
    ∀ k, Shows arrays' (tr.bus.setSlice kind o k) (live calls' k) := by
  intro k
  by_cases same : k = kind
  · subst same
    rwa [Bus.setSlice_self]
  · rw [Bus.setSlice_other _ _ same, others k same]
    have shows := tracks.shows k
    cases found : tr.bus.slices k with
    | none =>
      rw [found] at shows
      exact shows
    | some s =>
      rw [found] at shows
      exact ⟨shows.1, shows.2.keep (keeps k s same found)⟩

/-- Replacing the slice of one kind by one apart from the others keeps the slices apart. -/
theorem apart_replace (tracks : Tracks calls tr) {kind : κ} {o : Option Slice}
    (fresh : ∀ s ∈ o, ∀ k s', k ≠ kind → tr.bus.slices k = some s' → s.array ≠ s'.array) :
    ∀ k k' s s', k ≠ k' → tr.bus.setSlice kind o k = some s →
      tr.bus.setSlice kind o k' = some s' → s.array ≠ s'.array := by
  intro k k' s s' differ found found'
  by_cases first : k = kind
  · subst first
    rw [Bus.setSlice_self] at found
    rw [Bus.setSlice_other _ _ (Ne.symm differ)] at found'
    exact fresh s found k' s' (Ne.symm differ) found'
  · rw [Bus.setSlice_other _ _ first] at found
    by_cases second : k' = kind
    · subst second
      rw [Bus.setSlice_self] at found'
      exact (fresh s' found' k s first found).symm
    · rw [Bus.setSlice_other _ _ second] at found'
      exact tracks.apart k k' s s' differ found found'

theorem appendable (tracks : Tracks calls tr) (kind : κ) (x : Subscription α) :
    ((tr.bus.slice kind).Holds tr.bus.arrays (live calls kind) ∨
        (tr.bus.slice kind).cap < (tr.bus.slice kind).len + [x].length) ∧
      ((tr.bus.slice kind).len + [x].length ≤ (tr.bus.slice kind).cap →
        tr.bus.slices kind = some (tr.bus.slice kind)) ∧
      (Slice.append tr.bus.growth tr.bus.arrays (tr.bus.slice kind) [x]).2.Holds
        (Slice.append tr.bus.growth tr.bus.arrays (tr.bus.slice kind) [x]).1
        (live calls kind ++ [x]) := by
  rcases tracks.slice_cases kind with ⟨-, nil, empty⟩ | ⟨s, found, slice, -, holds⟩
  · rw [nil, empty, List.nil_append]
    refine ⟨.inr (by simp [Slice.nil]), fun fits => ?_, Slice.holds_append_nil (by simp)⟩
    simp [Slice.nil] at fits
  · rw [slice]
    exact ⟨.inl holds, fun _ => found, holds.append⟩

theorem found_slice (tracks : Tracks calls tr) {kind : κ} {p : Subscription α → Bool} {i : Nat}
    (found : (tr.bus.subscriptions kind).findIdx? p = some i) :
    ∃ v, tr.bus.slices kind = some v ∧ tr.bus.slice kind = v ∧ i < v.len ∧
      v.Holds tr.bus.arrays (live calls kind) := by
  obtain ⟨within, -⟩ := List.findIdx?_eq_some_iff_getElem.mp found
  rw [tracks.subscriptions_eq] at within
  rcases tracks.slice_cases kind with ⟨-, -, empty⟩ | ⟨v, mine, slice, -, holds⟩
  · simp [empty] at within
  · exact ⟨v, mine, slice, holds.len_eq ▸ within, holds⟩

theorem on (tracks : Tracks calls tr) (kind : κ) (handler : α) :
    Tracks (calls ++ [.on kind handler]) (tr.step (.on kind handler)) := by
  obtain ⟨ok, fits, holds⟩ := tracks.appendable kind ⟨tr.bus.lastId + 1, handler⟩
  have own := fun room => (⟨_, fits room, rfl⟩ : ∃ s, tr.bus.slices kind = some s ∧
    s.array = (tr.bus.slice kind).array)
  have live_on : ∀ k, live (calls ++ [.on kind handler]) k =
      live calls k ++ if kind = k then [⟨tr.bus.lastId + 1, handler⟩] else [] := by
    intro k
    rw [live_append_on, tracks.lastId]
  rw [Traffic.step_on, Bus.on_eq]
  refine
    { tickets := ?_
      lastId := ?_
      cancelled := fun n => (tracks.cancelled n).trans cancelledIn_append_on.symm
      emits := ?_
      shows := tracks.shows_replace ?_ ?_ (tracks.keeps_append ok own)
      apart := tracks.apart_replace fun s mem => ?_ }
  · simp [made_append_on, tracks.tickets, tracks.lastId, extendMade, Function.comp_def,
      Nat.add_comm]
  · simp [made_append_on, tracks.lastId]
  · simp [List.countP_append, Call.begins, tracks.emits]
  · rw [live_on, if_pos rfl]
    exact ⟨by rw [holds.len_eq]; simp, holds⟩
  · intro k other
    rw [live_on, if_neg (Ne.symm other), List.append_nil]
  · obtain rfl := Option.mem_some_iff.mp mem
    exact tracks.apart_append own

theorem quiet (tracks : Tracks calls tr) {c : Call κ α}
    (other : ∀ kind handler, c ≠ .on kind handler) (silent : ∀ n, c.cancels n = false)
    {tr' : Traffic κ α} (bus : tr'.bus = tr.bus) (tickets : tr'.tickets = tr.tickets)
    (emits : tr'.emits.length = tr.emits.length + if c.begins then 1 else 0) :
    Tracks (calls ++ [c]) tr' where
  tickets := by rw [tickets, tracks.tickets, tickets_append_other _ other]
  lastId := by rw [bus, tracks.lastId, length_made_append_other _ other]
  cancelled n := by rw [bus, cancelledIn_append_quiet other silent]; exact tracks.cancelled n
  emits := by rw [emits, tracks.emits, List.countP_append, List.countP_singleton]
  shows kind := by rw [bus, live_append_quiet _ _ other silent]; exact tracks.shows kind
  apart := bus ▸ tracks.apart

theorem emit (tracks : Tracks calls tr) (kind : κ) :
    Tracks (calls ++ [.emit kind]) (tr.step (.emit kind)) :=
  tracks.quiet (by simp) (by simp) rfl rfl (by simp [Traffic.step_emit, Call.begins])

theorem next (tracks : Tracks calls tr) (n : Nat) :
    Tracks (calls ++ [.next n]) (tr.step (.next n)) := by
  rcases tr.step_next_cases n with same | ⟨e, sub, -, -, stepped⟩
  · rw [same]
    exact tracks.quiet (by simp) (by simp) rfl rfl (by simp [Call.begins])
  · rw [stepped]
    exact tracks.quiet (by simp) (by simp) rfl rfl (by simp [Call.begins])

/-- A cancellation that reaches no live subscription keeps the tracking with the bus as it is,
as long as it reaches a made subscription only when that one is already cancelled. -/
theorem off_idle (tracks : Tracks calls tr) {n : Nat}
    (unlive : ∀ kind, ∀ s ∈ live calls kind, s.id ≠ n)
    (reached : (∃ m ∈ made 1 calls, m.2.1.id = n) → CancelledIn calls n) :
    Tracks (calls ++ [.off n]) tr where
  tickets := by rw [tracks.tickets, tickets_append_other _ (by simp)]
  lastId := by rw [tracks.lastId, length_made_append_other _ (by simp)]
  cancelled n' := by
    rw [tracks.cancelled, cancelledIn_append_off]
    refine ⟨.inl, ?_⟩
    rintro (done | ⟨rfl, made_n⟩)
    · exact done
    · exact reached made_n
  emits := by simp [tracks.emits, List.countP_append, Call.begins]
  shows kind := by
    rw [live_append_off, List.filter_eq_self.mpr (by simpa using unlive kind)]
    exact tracks.shows kind
  apart := tracks.apart

/-- Cancelling a live subscription cuts it out of the slice of its kind. -/
theorem off_live (tracks : Tracks calls tr) {t : Ticket κ} {s : Subscription α}
    {later : List (Call κ α)} (made_s : (t.kind, s, later) ∈ made 1 calls) (number : s.id = t.id)
    (fresh : t.id ∉ tr.bus.cancelled) :
    Tracks (calls ++ [.off t.id]) { tr with bus := tr.bus.off t } := by
  have clean : later.all (fun c => !c.cancels s.id) := by
    by_contra dirty
    apply fresh
    rw [tracks.cancelled]
    exact ⟨_, made_s, number, by simpa [number] using dirty⟩
  have member : s ∈ live calls t.kind := mem_live.mpr ⟨later, made_s, clean⟩
  have some_index : ((tr.bus.subscriptions t.kind).findIdx? (·.id == t.id)).isSome := by
    rw [List.findIdx?_isSome, tracks.subscriptions_eq, List.any_eq_true]
    exact ⟨s, member, by simp [number]⟩
  obtain ⟨i, index⟩ := Option.isSome_iff_exists.mp some_index
  obtain ⟨v, mine, slice, within, holds⟩ := tracks.found_slice index
  have within' : i < (live calls t.kind).length := holds.len_eq ▸ within
  have hit : (live calls t.kind)[i].id = t.id := by
    obtain ⟨_, hit, -⟩ := List.findIdx?_eq_some_iff_getElem.mp index
    simpa [tracks.subscriptions_eq] using hit
  have remaining := cut_eq_filter (live_increasing calls t.kind) within' hit
  have cut := holds.cut (g := tr.bus.growth) within
  rw [Bus.off_of_found fresh index, tracks.subscriptions_eq, slice]
  refine
    { tickets := tracks.tickets.trans (tickets_append_other _ (by simp)).symm
      lastId := tracks.lastId.trans (length_made_append_other _ (by simp)).symm
      cancelled := fun n => ?_
      emits := ?_
      shows := tracks.shows_replace ?_ ?_ fun k s' _ _ => holds.cut_keeps within s'
      apart := tracks.apart_replace fun s' mem => ?_ }
  · show n ∈ tr.bus.cancelled ++ [t.id] ↔ _
    rw [List.mem_append, List.mem_singleton, tracks.cancelled, cancelledIn_append_off]
    exact or_congr_right ⟨fun same => ⟨same.symm, _, made_s, number.trans same.symm⟩,
      fun ⟨same, _⟩ => same.symm⟩
  · simp [List.countP_append, Call.begins, tracks.emits]
  · rw [live_append_off, ← remaining]
    split
    case isTrue empty =>
      exact List.eq_nil_of_length_eq_zero (cut.len_eq ▸ empty)
    case isFalse nonempty => exact ⟨Nat.pos_of_ne_zero nonempty, cut⟩
  · intro k other
    rw [live_append_off, List.filter_eq_self]
    intro s' member' 
    obtain ⟨later', made', -⟩ := mem_live.mp member'
    have differ : (k, s', later') ≠ (t.kind, s, later) := by simp [other]
    simpa [← number] using fun same => differ (made_eq_of_id made' made_s same)
  · split at mem
    case isTrue => cases mem
    case isFalse =>
      obtain rfl := Option.mem_some_iff.mp mem
      exact tracks.apart_append fun _ => ⟨v, mine, rfl⟩

theorem off (tracks : Tracks calls tr) (n : Nat) :
    Tracks (calls ++ [.off n]) (tr.step (.off n)) := by
  cases found : tr.tickets.find? (·.id == n) with
  | none =>
    rw [tr.step_off_missing found]
    have unmade : ∀ m ∈ made 1 calls, m.2.1.id ≠ n := by
      intro m member number
      have ticket : (⟨m.1, m.2.1.id⟩ : Ticket κ) ∈ tr.tickets := by
        rw [tracks.tickets]
        exact List.mem_map_of_mem member
      simpa [number] using List.find?_eq_none.mp found _ ticket
    refine tracks.off_idle (fun kind s member number => ?_) fun ⟨m, member, number⟩ => ?_
    · obtain ⟨later, made_s, -⟩ := mem_live.mp member
      exact unmade _ made_s number
    · exact absurd number (unmade m member)
  | some t =>
    rw [tr.step_off_found found]
    have number : t.id = n := by simpa using List.find?_some found
    have ticket := List.mem_of_find?_eq_some found
    rw [tracks.tickets] at ticket
    obtain ⟨⟨k, s, later⟩, made_s, rfl⟩ := List.mem_map.mp ticket
    subst number
    by_cases done : s.id ∈ tr.bus.cancelled
    · rw [Bus.off_of_cancelled done]
      have cancelled := (tracks.cancelled s.id).mp done
      exact tracks.off_idle (fun kind s' member number => not_live_of_cancelledIn member
        (number ▸ cancelled)) fun _ => cancelled
    · exact tracks.off_live made_s rfl done

theorem step (tracks : Tracks calls tr) : ∀ c, Tracks (calls ++ [c]) (tr.step c)
  | .on kind handler => tracks.on kind handler
  | .off n => tracks.off n
  | .emit kind => tracks.emit kind
  | .next n => tracks.next n

theorem run (tracks : Tracks calls tr) (more : List (Call κ α)) :
    Tracks (calls ++ more) (tr.run more) := by
  induction more generalizing calls tr with
  | nil => simpa [Traffic.run] using tracks
  | cons c more ih =>
    rw [Traffic.run_cons, List.append_cons]
    exact ih (tracks.step c)

end Tracks

end Tracks

theorem prefix_append_next {β : Type} {xs ys : List β} (pre : xs <+: ys) :
    xs ++ ys[xs.length]?.toList <+: ys := by
  have taken := List.prefix_iff_eq_take.mp pre
  have extended : xs ++ ys[xs.length]?.toList = ys.take (xs.length + 1) := by
    rw [List.take_add_one, ← taken]
  rw [extended]
  exact List.take_prefix _ _

section Steady

variable {κ α : Type}

/-- An emit in progress as it began: its slice shows the subscriptions live when it began, or it
began with none; it has called a prefix of them; and every slice of its array is at least as long
as its own or has no room left, so no append writes into the cells it reads. -/
structure Emit.Steady (b : Bus κ α) (e : Emit κ α) (expected : List (Subscription α)) : Prop where
  shows : (e.slice.len = 0 ∧ expected = []) ∨ e.slice.Holds b.arrays expected
  called : e.called <+: expected
  room : ∀ k s, b.slices k = some s → s.array = e.slice.array →
    e.slice.len ≤ s.len ∨ s.len = s.cap

namespace Emit.Steady

variable {b : Bus κ α} {e : Emit κ α} {expected : List (Subscription α)}
  {calls : List (Call κ α)} {tr : Traffic κ α}

theorem at_eq (steady : Steady b e expected) (i : Nat) : b.at? e.slice i = expected[i]? := by
  rcases steady.shows with ⟨empty, rfl⟩ | holds
  · simp [Bus.at?, Slice.cell, empty]
  · exact holds.cell_eq i

theorem room_of_fresh (steady : Steady b e expected) {s : Slice} (fresh : s.array = b.arrays.length)
    (same : s.array = e.slice.array) : e.slice.len ≤ s.len := by
  rcases steady.shows with ⟨empty, -⟩ | holds
  · omega
  · have inside := holds.array_lt
    omega

theorem keep (steady : Steady b e expected) {b' : Bus κ α}
    (keeps : Slice.Keeps b.arrays b'.arrays e.slice)
    (room : ∀ k s, b'.slices k = some s → s.array = e.slice.array →
      e.slice.len ≤ s.len ∨ s.len = s.cap) :
    Steady b' e expected where
  shows := steady.shows.imp_right fun holds => holds.keep keeps
  called := steady.called
  room := room

variable [DecidableEq κ]

/-- The emit begun on a bus that shows what is live. -/
theorem begin (tracks : Tracks calls tr) (kind : κ) :
    Steady tr.bus ⟨kind, tr.bus.slice kind, []⟩ (live calls kind) where
  shows := by
    rcases tracks.slice_cases kind with ⟨-, nil, empty⟩ | ⟨s, -, slice, -, holds⟩
    · exact .inl ⟨by simp [nil, Slice.nil], empty⟩
    · exact .inr (slice ▸ holds)
  called := List.nil_prefix
  room k s found same := by
    rcases tracks.slice_cases kind with ⟨-, nil, -⟩ | ⟨v, mine, slice, -, -⟩
    · exact .inl (by simp [nil, Slice.nil])
    · by_cases kind_eq : k = kind
      · subst kind_eq
        rw [mine] at found
        cases found
        exact .inl (by rw [slice])
      · exact absurd (same.trans (by rw [slice])) (tracks.apart k kind s v kind_eq found mine)

/-- A subscription appends past the cells the emit reads. -/
theorem on (tracks : Tracks calls tr) (steady : Steady tr.bus e expected) (kind : κ)
    (handler : α) : Steady (tr.step (.on kind handler)).bus e expected := by
  obtain ⟨ok, fits, -⟩ := tracks.appendable kind ⟨tr.bus.lastId + 1, handler⟩
  have past : (tr.bus.slice kind).len + [(⟨tr.bus.lastId + 1, handler⟩ : Subscription α)].length ≤
      (tr.bus.slice kind).cap →
      e.slice.array ≠ (tr.bus.slice kind).array ∨ e.slice.len ≤ (tr.bus.slice kind).len := by
    intro room
    by_cases same : (tr.bus.slice kind).array = e.slice.array
    · rcases steady.room kind _ (fits room) same with longer | full
      · exact .inr longer
      · simp only [List.length_singleton] at room
        omega
    · exact .inl (Ne.symm same)
  rw [Traffic.step_on, Bus.on_eq]
  refine steady.keep (Slice.append_keeps ok e.slice past) fun k s found same => ?_
  change tr.bus.setSlice kind _ k = some s at found
  by_cases kind_eq : k = kind
  · subst kind_eq
    rw [Bus.setSlice_self] at found
    cases found
    rcases Slice.append_array tr.bus.growth tr.bus.arrays (tr.bus.slice k)
        [⟨tr.bus.lastId + 1, handler⟩] with ⟨grown, room⟩ | ⟨fresh, -⟩
    · rw [grown] at same ⊢
      rcases steady.room k _ (fits room) same with longer | full
      · exact .inl (by simp only; omega)
      · simp only [List.length_singleton] at room
        omega
    · exact .inl (steady.room_of_fresh fresh same)
  · rw [Bus.setSlice_other _ _ kind_eq] at found
    exact steady.room k s found same

/-- A cancellation writes into no array, and the slice it leaves has no room or a new array. -/
theorem off (tracks : Tracks calls tr) (steady : Steady tr.bus e expected) (n : Nat) :
    Steady (tr.step (.off n)).bus e expected := by
  cases found : tr.tickets.find? (·.id == n) with
  | none => rwa [tr.step_off_missing found]
  | some t =>
    rw [tr.step_off_found found]
    by_cases done : t.id ∈ tr.bus.cancelled
    · rwa [Bus.off_of_cancelled done]
    cases index : (tr.bus.subscriptions t.kind).findIdx? (·.id == t.id) with
    | none =>
      rw [Bus.off_of_missing done index]
      exact steady.keep (Slice.Keeps.refl _ _) steady.room
    | some i =>
      obtain ⟨v, mine, slice, within, holds⟩ := tracks.found_slice index
      rw [Bus.off_of_found done index, tracks.subscriptions_eq, slice]
      refine steady.keep (holds.cut_keeps within e.slice) fun k s found same => ?_
      change tr.bus.setSlice t.kind _ k = some s at found
      by_cases kind_eq : k = t.kind
      · subst kind_eq
        rw [Bus.setSlice_self] at found
        split at found
        case isTrue => cases found
        case isFalse =>
          cases found
          rcases holds.cut_full_or_fresh within with full | fresh
          · exact .inr full
          · exact .inl (steady.room_of_fresh fresh same)
      · rw [Bus.setSlice_other _ _ kind_eq] at found
        exact steady.room k s found same

/-- The emit's next step calls the next subscription live when it began, if any is left. -/
theorem next_self (steady : Steady tr.bus e expected) {n : Nat} (found : tr.emits[n]? = some e) :
    (tr.step (.next n)).emits[n]? =
        some { e with called := e.called ++ expected[e.called.length]?.toList } ∧
      Steady (tr.step (.next n)).bus
        { e with called := e.called ++ expected[e.called.length]?.toList } expected := by
  have call := steady.at_eq e.called.length
  have extended := prefix_append_next steady.called
  cases next : expected[e.called.length]? with
  | none =>
    rw [next] at call extended
    rw [tr.step_next_stop found call]
    simp only [Option.toList_none, List.append_nil] at extended ⊢
    exact ⟨found, steady⟩
  | some sub =>
    rw [next] at call extended
    rw [tr.step_next_call found call]
    have inside : n < tr.emits.length := (List.getElem?_eq_some_iff.mp found).1
    exact ⟨by simp [inside], ⟨steady.shows, extended, steady.room⟩⟩

/-- Every call keeps the emit as it began, and the next step of the emit calls the next
subscription. -/
theorem step (tracks : Tracks calls tr) (steady : Steady tr.bus e expected) {i : Nat}
    (found : tr.emits[i]? = some e) (c : Call κ α) :
    ∃ e', (tr.step c).emits[i]? = some e' ∧ e'.kind = e.kind ∧
      Steady (tr.step c).bus e' expected := by
  cases c with
  | on kind handler => exact ⟨e, found, rfl, steady.on tracks kind handler⟩
  | off n => exact ⟨e, by rw [tr.step_off_emits]; exact found, rfl, steady.off tracks n⟩
  | emit kind =>
    have inside : i < tr.emits.length := (List.getElem?_eq_some_iff.mp found).1
    exact ⟨e, by rw [tr.step_emit, List.getElem?_append_left inside, found], rfl, steady⟩
  | next n =>
    by_cases self : n = i
    · subst self
      exact ⟨_, (steady.next_self found).1, rfl, (steady.next_self found).2⟩
    · rcases tr.step_next_cases n with same | ⟨e', sub, -, -, stepped⟩
      · exact ⟨e, by rw [same]; exact found, rfl, by rw [same]; exact steady⟩
      · rw [stepped]
        exact ⟨e, by rw [List.getElem?_set_ne self, found], rfl, steady⟩

theorem run (tracks : Tracks calls tr) (steady : Steady tr.bus e expected) {i : Nat}
    (found : tr.emits[i]? = some e) (more : List (Call κ α)) :
    ∃ e', (tr.run more).emits[i]? = some e' ∧ e'.kind = e.kind ∧
      Steady (tr.run more).bus e' expected := by
  induction more generalizing calls tr e with
  | nil => exact ⟨e, found, rfl, steady⟩
  | cons c more ih =>
    obtain ⟨e', found', kind_eq, steady'⟩ := steady.step tracks found c
    obtain ⟨e'', found'', kind_eq', steady''⟩ := ih (tracks.step c) steady' found'
    exact ⟨e'', found'', kind_eq'.trans kind_eq, steady''⟩

end Emit.Steady

variable [DecidableEq κ]

theorem Emit.steady_begun (g : Growth) (pre : List (Call κ α)) (kind : κ)
    (post : List (Call κ α)) :
    ∃ e, (Traffic.run { bus := { growth := g } } (pre ++ .emit kind :: post)).emits[pre.countP
        Call.begins]? = some e ∧ e.kind = kind ∧
      Emit.Steady (Traffic.run { bus := { growth := g } } (pre ++ .emit kind :: post)).bus e
        (live pre kind) := by
  have tracks : Tracks pre (Traffic.run { bus := { growth := g } } pre) := by
    simpa using (Tracks.init g).run pre
  rw [Traffic.run_append, Traffic.run_cons]
  have begun : (Traffic.step (Traffic.run { bus := { growth := g } } pre) (.emit kind)).emits[
      pre.countP Call.begins]? = some ⟨kind, (Traffic.run { bus := { growth := g } } pre).bus.slice kind, []⟩ := by
    rw [Traffic.step_emit, ← tracks.emits, List.getElem?_concat_length]
  exact (Emit.Steady.begin tracks kind).run (tracks.emit kind) begun post

end Steady

/-- The contract of the bus, for every growth policy and every sequence of calls. The bus shows
exactly the live subscriptions of each kind, in the order they subscribed, and counts them. A
cancellation cuts out the subscription with its number and no other, and running it again
changes nothing. Every emit has called a prefix of the subscriptions of its kind live when it
began, numbered upwards so each appears once, and its next step calls the next of them, or
nothing once all are called, whatever was subscribed or cancelled since it began. -/
theorem bus_calls_contract {κ α : Type} [DecidableEq κ] (g : Growth) (calls : List (Call κ α)) :
    let tr := Traffic.run { bus := { growth := g } } calls
    (∀ kind, tr.bus.subscriptions kind = live calls kind ∧
      tr.bus.count kind = (live calls kind).length) ∧
    (∀ n kind, (tr.step (.off n)).bus.subscriptions kind =
        (tr.bus.subscriptions kind).filter (·.id != n) ∧
      (tr.step (.off n)).step (.off n) = tr.step (.off n)) ∧
    (∀ pre kind post, calls = pre ++ .emit kind :: post →
      ∃ e, tr.emits[pre.countP Call.begins]? = some e ∧ e.kind = kind ∧
        (live pre kind).Pairwise (·.id < ·.id) ∧ e.called <+: live pre kind ∧
        (tr.step (.next (pre.countP Call.begins))).emits[pre.countP Call.begins]? =
          some { e with called := e.called ++ (live pre kind)[e.called.length]?.toList }) := by
  intro tr
  have tracks : Tracks calls tr := by simpa using (Tracks.init g).run calls
  refine ⟨fun kind => ⟨tracks.subscriptions_eq kind, tracks.count_eq kind⟩,
    fun n kind => ⟨?_, tr.step_off_off n⟩, ?_⟩
  · rw [(tracks.off n).subscriptions_eq, tracks.subscriptions_eq, live_append_off]
  · rintro pre kind post rfl
    obtain ⟨e, found, kind_eq, steady⟩ := Emit.steady_begun g pre kind post
    exact ⟨e, found, kind_eq, live_increasing pre kind, steady.called,
      (steady.next_self found).1⟩

-- An emit that began with two subscriptions calls both, though the first is cancelled between
-- its steps; the bus then shows the second alone.
example :
    let tr := Traffic.run ({ bus := {} } : Traffic Nat String)
      [.on 0 "a", .on 0 "b", .emit 0, .next 0, .off 1, .next 0, .next 0]
    (tr.emits.map fun e => e.called.map (·.id)) = [[1, 2]] ∧
      (tr.bus.subscriptions 0).map (·.id) = [2] := by
  decide

end GraphWeave
