import GraphWeave.Events.Bus
import GraphWeave.Telemetry.Metrics
import GraphWeave.Telemetry.Spans

/-!
Telemetry attached to a bus: the metrics and the tracer subscribe to the kinds of events they
consume, and an emitted event updates each consumer subscribed to its kind, in the order they
subscribed. Cancelling a consumer's subscriptions stops its updates and leaves what it recorded.
-/

namespace GraphWeave.Telemetry

/-- A consumer of events. -/
inductive Consumer where
  | metrics
  | tracer
deriving DecidableEq, Repr, Inhabited

/-- A bus with the state of its consumers. -/
structure Hub where
  bus : Bus EventKind Consumer := {}
  metrics : Metrics := {}
  tracer : Tracer := {}

namespace Hub

/-- Subscribes a consumer to each of some kinds; returns the subscriptions' tickets. -/
def subscribe (h : Hub) (c : Consumer) (kinds : List EventKind) : Hub × List (Ticket EventKind) :=
  let (bus, tickets) := kinds.foldl (fun (bus, tickets) k =>
    let (bus, t) := bus.on k c
    (bus, tickets ++ [t])) (h.bus, [])
  ({ h with bus }, tickets)

/-- Subscribes the metrics. -/
def subscribeMetrics (h : Hub) : Hub × List (Ticket EventKind) := h.subscribe .metrics Metrics.kinds

/-- Subscribes the tracer. -/
def subscribeTracer (h : Hub) : Hub × List (Ticket EventKind) := h.subscribe .tracer Tracer.kinds

/-- Cancels subscriptions. -/
def unsubscribe (h : Hub) (tickets : List (Ticket EventKind)) : Hub :=
  { h with bus := tickets.foldl Bus.off h.bus }

/-- Emits an event to the consumers of its kind. -/
def emit (h : Hub) (p : Published) : Hub :=
  (h.bus.handlers p.event.kind).foldl (fun h c =>
    match c with
    | .metrics => { h with metrics := h.metrics.record p.event }
    | .tracer => { h with tracer := h.tracer.record p.requestId p.event }) h

/-- Emits events in order. -/
def emitAll (h : Hub) (ps : List Published) : Hub := ps.foldl emit h

end Hub

end GraphWeave.Telemetry
