import LinkTelemetry.Config.Error
import LinkTelemetry.NameMap
import LinkTelemetry.Snapshot

/-!
# The store

The latest snapshot of every endpoint, and a history of bounded length that
all endpoints share: a new snapshot pushes out the oldest one, whoever it
belongs to. The snapshots of one cycle are published together and count as
one update; an empty cycle is no update.
-/

namespace LinkTelemetry

structure Store where
  current : NameMap Snapshot
  /-- Oldest first. -/
  history : List Snapshot
  capacity : Nat
  /-- Updates so far. -/
  cycles : Nat

namespace Store

/-- A store without snapshots. Every capacity but zero is accepted here. A ring
of more than `2 ^ 63 - 1` bytes, eight for each snapshot, cannot be allocated,
and there the program stops. -/
def new (capacity : Nat) : Except ConfigError Store :=
  if capacity = 0 then .error .zeroCapacity
  else .ok ⟨.empty, [], capacity, 0⟩

/-- Appends a snapshot to a history of bounded length. -/
def push (capacity : Nat) (history : List Snapshot) (s : Snapshot) : List Snapshot :=
  (if history.length = capacity then history.drop 1 else history) ++ [s]

/-- Takes a snapshot in, without counting an update. -/
def accept (store : Store) (s : Snapshot) : Store :=
  { store with
    current := store.current.insert s.endpoint s
    history := push store.capacity store.history s }

/-- Publishes one snapshot. -/
def publish (store : Store) (s : Snapshot) : Store :=
  { store.accept s with cycles := store.cycles + 1 }

/-- Publishes the snapshots of one cycle as one update. -/
def publishCycle (store : Store) (snapshots : List Snapshot) : Store :=
  if snapshots.isEmpty then store
  else { snapshots.foldl accept store with cycles := store.cycles + 1 }

/-- The latest snapshot of an endpoint. -/
def current? (store : Store) (e : EndpointName) : Option Snapshot := store.current.get? e

/-- The endpoints that published, in order. -/
def endpoints (store : Store) : List EndpointName := store.current.keys

/-- What readers see: the store at one instant. -/
structure View where
  current : NameMap Snapshot
  history : List Snapshot
  cycles : Nat

def view (store : Store) : View := ⟨store.current, store.history, store.cycles⟩

/-- The retained snapshots of one endpoint, oldest first. -/
def View.historyFor (view : View) (e : EndpointName) : List Snapshot :=
  view.history.filter (·.endpoint = e)

/-- The retained snapshots of one endpoint, oldest first. -/
def historyFor (store : Store) (e : EndpointName) : List Snapshot :=
  store.history.filter (·.endpoint = e)

/-- The view with the newest `limit` snapshots of its history. -/
def View.newest (view : View) (limit : Nat) : View :=
  { view with history := view.history.drop (view.history.length - limit) }

/-- The state of a store in one line. -/
def summary (store : Store) : String :=
  s!"TelemetryStore \x7b endpoints: {store.current.size}, history: {store.history.length}, " ++
    s!"capacity: {store.capacity}, cycles: {store.cycles} \x7d"

end Store

end LinkTelemetry
