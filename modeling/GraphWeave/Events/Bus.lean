import GraphWeave.Events.Event

/-!
An event bus: handlers subscribe to a kind of event, and an event goes to every handler of its kind
in the order they subscribed.
-/

namespace GraphWeave

/-- How an append that does not fit picks the capacity of its new backing array, from the old
capacity and the length the array must hold: never less than that length. -/
structure Growth where
  capacity : Nat → Nat → Nat
  fits : ∀ old needed, needed ≤ capacity old needed

/-- Twice the old capacity, or the length needed when that is more. -/
def Growth.doubling : Growth where
  capacity old needed := max needed (2 * old)
  fits _ _ := Nat.le_max_left _ _

/-- A subscription: its number and its handler. -/
structure Subscription (α : Type) where
  id : Nat
  handler : α

/-- A slice: the first `len` of the `cap` cells of a backing array. -/
structure Slice where
  array : Nat
  len : Nat
  cap : Nat

/-- Backing arrays by address; a cell that was never written holds nothing. -/
abbrev Arrays (α : Type) := List (List (Option (Subscription α)))

namespace Slice

variable {α : Type}

/-- The slice of nothing, with no room. -/
def nil : Slice := ⟨0, 0, 0⟩

/-- The subscriptions a slice shows: the written cells among its first `len`. -/
def read (arrays : Arrays α) (s : Slice) : List (Subscription α) :=
  (((arrays[s.array]?).getD []).take s.len).filterMap id

/-- The cell of a slice at an index within its length. -/
def cell (arrays : Arrays α) (s : Slice) (i : Nat) : Option (Subscription α) :=
  if i < s.len then ((arrays[s.array]?).bind (·[i]?)).join else none

/-- Cells with values written from an index on. -/
def writeFrom (cells : List (Option (Subscription α))) (i : Nat) (xs : List (Subscription α)) :
    List (Option (Subscription α)) :=
  cells.take i ++ xs.map some ++ cells.drop (i + xs.length)

/-- Appends values to a slice: into its own array when its capacity has room for them, else
into a new array that holds a copy of the slice and the values, with the capacity the growth
policy picks. -/
def append (g : Growth) (arrays : Arrays α) (s : Slice) (xs : List (Subscription α)) :
    Arrays α × Slice :=
  let len := s.len + xs.length
  if len ≤ s.cap then
    (arrays.set s.array (writeFrom ((arrays[s.array]?).getD []) s.len xs), { s with len })
  else
    let cap := g.capacity s.cap len
    (arrays ++ [(read arrays s ++ xs).map some ++ List.replicate (cap - len) none],
      ⟨arrays.length, len, cap⟩)

end Slice

/-- What subscribing returns: the kind and the number of the subscription, which its
cancellation looks for. -/
structure Ticket (κ : Type) where
  kind : κ
  id : Nat

/-- A bus over kinds `κ`: the growth policy of its arrays, the number of the last subscription,
the arrays, the slice of each kind that has subscriptions, and the numbers of the tickets whose
cancellation has run. -/
structure Bus (κ α : Type) where
  growth : Growth := .doubling
  lastId : Nat := 0
  arrays : Arrays α := []
  slices : κ → Option Slice := fun _ => none
  cancelled : List Nat := []

namespace Bus

variable {κ α : Type} [DecidableEq κ]

/-- The slice of a kind; a kind without subscriptions has the empty one. -/
def slice (b : Bus κ α) (kind : κ) : Slice := (b.slices kind).getD .nil

/-- The slices with the one of a kind replaced; `none` drops it. -/
def setSlice (b : Bus κ α) (kind : κ) (s : Option Slice) : κ → Option Slice :=
  fun k => if k = kind then s else b.slices k

/-- The subscriptions of a kind, in the order they subscribed. -/
def subscriptions (b : Bus κ α) (kind : κ) : List (Subscription α) :=
  Slice.read b.arrays (b.slice kind)

/-- Subscribes a handler to a kind; returns the bus and the subscription's ticket. -/
def on (b : Bus κ α) (kind : κ) (handler : α) : Bus κ α × Ticket κ :=
  let id := b.lastId + 1
  let (arrays, s) := Slice.append b.growth b.arrays (b.slice kind) [⟨id, handler⟩]
  ({ b with lastId := id, arrays, slices := b.setSlice kind (some s) }, ⟨kind, id⟩)

/-- Runs a ticket's cancellation, once: the first subscription of its kind with its number is
cut out, and a kind left without subscriptions loses its slice. -/
def off (b : Bus κ α) (t : Ticket κ) : Bus κ α :=
  if b.cancelled.contains t.id then b
  else
    let subs := b.subscriptions t.kind
    let b := { b with cancelled := b.cancelled ++ [t.id] }
    match subs.findIdx? (·.id == t.id) with
    | none => b
    | some i =>
      let cut : Slice := ⟨(b.slice t.kind).array, i, i⟩
      let (arrays, s) := Slice.append b.growth b.arrays cut (subs.drop (i + 1))
      { b with arrays, slices := b.setSlice t.kind (if s.len = 0 then none else some s) }

/-- The subscription an emit that began with a slice calls at an index, if the slice reaches
that far. -/
def at? (b : Bus κ α) (s : Slice) (i : Nat) : Option (Subscription α) := Slice.cell b.arrays s i

/-- The handlers of a kind, in the order they subscribed. -/
def handlers (b : Bus κ α) (kind : κ) : List α := (b.subscriptions kind).map (·.handler)

/-- The number of handlers of a kind: the length of its slice. -/
def count (b : Bus κ α) (kind : κ) : Nat := (b.slice kind).len

end Bus

/-- The buses of a program by address, and the global slot: the address of the bus that
subscribing and publishing go through, or none while publishing is off. -/
structure Buses (κ α : Type) where
  buses : List (Bus κ α) := []
  global : Option Nat := none

namespace Buses

variable {κ α : Type} [DecidableEq κ]

/-- Puts the bus at an address in the global slot, or empties the slot. -/
def use (bs : Buses κ α) (address : Option Nat) : Buses κ α := { bs with global := address }

/-- Subscribes a handler on the bus at an address; the ticket keeps the address. -/
def on (bs : Buses κ α) (address : Nat) (kind : κ) (handler : α) :
    Buses κ α × Option (Nat × Ticket κ) :=
  match bs.buses[address]? with
  | none => (bs, none)
  | some b =>
    let (b, ticket) := b.on kind handler
    ({ bs with buses := bs.buses.set address b }, some (address, ticket))

/-- Runs a ticket's cancellation on the bus it was made on. -/
def off (bs : Buses κ α) : Nat × Ticket κ → Buses κ α
  | (address, ticket) => { bs with buses := bs.buses.modify address (·.off ticket) }

/-- Subscribes a handler through the global slot; with the slot empty nothing is subscribed and
there is nothing to cancel. -/
def subscribe (bs : Buses κ α) (kind : κ) (handler : α) : Buses κ α × Option (Nat × Ticket κ) :=
  match bs.global with
  | none => (bs, none)
  | some address => bs.on address kind handler

/-- The handlers of a kind on the bus at an address, none at an address without a bus. -/
def handlers (bs : Buses κ α) (address : Option Nat) (kind : κ) : List α :=
  match address.bind (bs.buses[·]?) with
  | none => []
  | some b => b.handlers kind

/-- The handlers an event published through the global slot goes to. -/
def published (bs : Buses κ α) (kind : κ) : List α := bs.handlers bs.global kind

end Buses

end GraphWeave
