import LinkTelemetry.Store
import Mathlib.Data.List.DropRight

/-!
# What a store retains

A store keeps two structures that forget at different speeds: the current
snapshots, of which one per endpoint stays for ever, and the history, which
lets go of the oldest snapshot whoever it belongs to. Both are functions of
one list, the snapshots published so far in their order, and that is the
whole argument here: `Holds` names the two functions, every single snapshot
that is taken in keeps `Holds` for a list that is longer by one, and a call
of a writer is nothing but a run of such snapshots.

How the snapshots were cut into calls is therefore invisible to a reader,
except in the count of updates. `reads_published` collects what follows for
each question a store answers.
-/

namespace LinkTelemetry.Store

/-- A call of a writer. -/
inductive Write where
  | publish (s : Snapshot)
  | publishCycle (ss : List Snapshot)

/-- The snapshots that a call publishes. -/
def Write.snapshots : Write → List Snapshot
  | publish s => [s]
  | publishCycle ss => ss

/-- Whether a call is an update. Only an empty cycle is none. -/
def Write.isUpdate : Write → Bool
  | publish _ => true
  | publishCycle ss => !ss.isEmpty

/-- A store after a call of a writer. -/
def write (store : Store) : Write → Store
  | .publish s => store.publish s
  | .publishCycle ss => store.publishCycle ss

/-- A store after the calls of a writer. -/
def afterWrites (store : Store) (writes : List Write) : Store := writes.foldl write store

/-- All the snapshots of a list of calls, oldest first. -/
def published (writes : List Write) : List Snapshot := writes.flatMap Write.snapshots

/-- The snapshots of one endpoint. -/
def ofEndpoint (e : EndpointName) (snapshots : List Snapshot) : List Snapshot :=
  snapshots.filter (·.endpoint = e)

theorem ofEndpoint_cons_self (s : Snapshot) (rest : List Snapshot) :
    ofEndpoint s.endpoint (s :: rest) = s :: ofEndpoint s.endpoint rest :=
  List.filter_cons_of_pos (by simp)

theorem ofEndpoint_cons_of_ne {e : EndpointName} {s : Snapshot} (h : s.endpoint ≠ e)
    (rest : List Snapshot) : ofEndpoint e (s :: rest) = ofEndpoint e rest :=
  List.filter_cons_of_neg (by simpa using h)

/-! ## The ring

The capacity is compared with the length before the new snapshot comes in, so
a full history loses exactly one. -/

theorem length_rtake {α : Type} (l : List α) (n : Nat) : (l.rtake n).length = min n l.length := by
  rw [List.rtake, List.length_drop]
  omega

theorem drop_one_rtake {α : Type} {l : List α} {n : Nat} (h : n + 1 ≤ l.length) :
    (l.rtake (n + 1)).drop 1 = l.rtake n := by
  rw [List.rtake, List.rtake, List.drop_drop]
  congr 1
  omega

theorem rtake_of_length_le {α : Type} {l : List α} {n : Nat} (h : l.length ≤ n) :
    l.rtake n = l := by
  rw [List.rtake, Nat.sub_eq_zero_of_le h, List.drop_zero]

theorem push_rtake {capacity : Nat} (hc : 0 < capacity) (P : List Snapshot) (s : Snapshot) :
    push capacity (P.rtake capacity) s = (P ++ [s]).rtake capacity := by
  obtain ⟨n, rfl⟩ : ∃ n, capacity = n + 1 := ⟨capacity - 1, by omega⟩
  rw [List.rtake_concat_succ, push, length_rtake]
  split
  · next hfull => rw [drop_one_rtake (by omega)]
  · next hroom =>
      have hle : P.length ≤ n := by omega
      rw [rtake_of_length_le hle, rtake_of_length_le (by omega)]

/-! ## One list behind both structures -/

theorem current?_accept (store : Store) (s : Snapshot) (e : EndpointName) :
    (store.accept s).current? e = if e = s.endpoint then some s else store.current? e :=
  NameMap.get?_insert ..

/-- A store that took in exactly the snapshots `P`, in this order. -/
structure Holds (capacity : Nat) (P : List Snapshot) (store : Store) : Prop where
  capacity_eq : store.capacity = capacity
  history_eq : store.history = P.rtake capacity
  current_eq : ∀ e, store.current? e = (ofEndpoint e P).getLast?

namespace Holds

variable {capacity : Nat} {P : List Snapshot} {store : Store}

theorem new (capacity : Nat) : Holds capacity [] ⟨.empty, [], capacity, 0⟩ :=
  ⟨rfl, (List.rtake_nil capacity).symm, fun _ => rfl⟩

theorem accept (hc : 0 < capacity) (h : Holds capacity P store) (s : Snapshot) :
    Holds capacity (P ++ [s]) (store.accept s) where
  capacity_eq := h.capacity_eq
  history_eq := by
    rw [Store.accept, h.capacity_eq, h.history_eq]
    exact push_rtake hc P s
  current_eq e := by
    rw [current?_accept, h.current_eq e]
    by_cases he : s.endpoint = e
    · simp [ofEndpoint, he]
    · simp [ofEndpoint, he, Ne.symm he]

/-- The count of updates is no part of what is held. -/
theorem withCycles (h : Holds capacity P store) (n : Nat) :
    Holds capacity P { store with cycles := n } :=
  ⟨h.capacity_eq, h.history_eq, h.current_eq⟩

theorem foldl_accept (hc : 0 < capacity) (ss : List Snapshot) (h : Holds capacity P store) :
    Holds capacity (P ++ ss) (ss.foldl Store.accept store) := by
  induction ss generalizing P store with
  | nil => simpa using h
  | cons s rest ih =>
      have := ih (h.accept hc s)
      rwa [List.append_assoc, List.singleton_append] at this

theorem write (hc : 0 < capacity) (h : Holds capacity P store) (w : Write) :
    Holds capacity (P ++ w.snapshots) (store.write w) := by
  cases w with
  | publish s => exact (h.accept hc s).withCycles _
  | publishCycle ss =>
      rw [Store.write, publishCycle]
      split
      · next hempty =>
          rw [List.isEmpty_iff] at hempty
          subst hempty
          rw [Write.snapshots, List.append_nil]
          exact h
      · exact (h.foldl_accept hc ss).withCycles _

theorem afterWrites (hc : 0 < capacity) (writes : List Write) (h : Holds capacity P store) :
    Holds capacity (P ++ published writes) (store.afterWrites writes) := by
  induction writes generalizing P store with
  | nil =>
      rw [published, List.flatMap_nil, List.append_nil]
      exact h
  | cons w rest ih =>
      have := ih (h.write hc w)
      rwa [List.append_assoc] at this

end Holds

/-- A new store holds what is published into it, and nothing else. -/
theorem exists_holds {capacity : Nat} (hc : 0 < capacity) :
    ∃ start, Store.new capacity = .ok start ∧
      ∀ writes, Holds capacity (published writes) (start.afterWrites writes) :=
  ⟨⟨.empty, [], capacity, 0⟩, if_neg hc.ne', (Holds.new capacity).afterWrites hc⟩

theorem current?_foldl_accept (ss : List Snapshot) (store : Store) (e : EndpointName) :
    (ss.foldl accept store).current? e = (ofEndpoint e ss).getLast?.or (store.current? e) := by
  induction ss generalizing store with
  | nil => rfl
  | cons s rest ih =>
      rw [List.foldl_cons, ih, current?_accept]
      by_cases he : s.endpoint = e
      · subst he
        rw [ofEndpoint_cons_self, List.getLast?_cons, if_pos rfl]
        cases (ofEndpoint s.endpoint rest).getLast? <;> rfl
      · rw [ofEndpoint_cons_of_ne he, if_neg (Ne.symm he)]

theorem current?_publishCycle (store : Store) (ss : List Snapshot) (e : EndpointName) :
    (store.publishCycle ss).current? e = (ofEndpoint e ss).getLast?.or (store.current? e) := by
  rw [publishCycle]
  split
  · next hempty =>
      rw [List.isEmpty_iff] at hempty
      subst hempty
      rfl
  · exact current?_foldl_accept ss store e

theorem cycles_write (store : Store) (w : Write) :
    (store.write w).cycles = store.cycles + if w.isUpdate then 1 else 0 := by
  cases w with
  | publish s => rfl
  | publishCycle ss =>
      rw [write, publishCycle, Write.isUpdate]
      cases ss with
      | nil => rfl
      | cons s rest => rfl

theorem cycles_afterWrites (store : Store) (writes : List Write) :
    (store.afterWrites writes).cycles = store.cycles + writes.countP Write.isUpdate := by
  induction writes generalizing store with
  | nil => rfl
  | cons w rest ih =>
      rw [List.countP_cons, ← Nat.add_assoc, Nat.add_right_comm, ← cycles_write]
      exact ih _

/-! ## What a reader sees -/

/-- The answers of a store to every question, given the calls of its writer. -/
structure Answers (capacity : Nat) (writes : List Write) (store : Store) : Prop where
  history : store.history = (published writes).rtake capacity
  length : store.history.length = min capacity (published writes).length
  /-- The latest snapshot stays, also when the history has let go of it. -/
  current : ∀ e, store.current? e = (ofEndpoint e (published writes)).getLast?
  historyFor : ∀ e, store.historyFor e = ofEndpoint e store.history
  getLast?_historyFor : ∀ e, store.historyFor e ≠ [] →
    (store.historyFor e).getLast? = store.current? e
  endpoints_nodup : store.endpoints.Nodup
  mem_endpoints : ∀ e, e ∈ store.endpoints ↔ ∃ s ∈ published writes, s.endpoint = e
  cycles : store.cycles = writes.countP Write.isUpdate
  cycles_eq_zero : store.cycles = 0 ↔ store.history = []
  current_isEmpty : store.current.isEmpty ↔ store.history = []
  view : store.view = ⟨store.current, store.history, store.cycles⟩

theorem getLast?_ofEndpoint_rtake {e : EndpointName} {P : List Snapshot} {n : Nat}
    (h : ofEndpoint e (P.rtake n) ≠ []) :
    (ofEndpoint e (P.rtake n)).getLast? = (ofEndpoint e P).getLast? := by
  have hsplit : ofEndpoint e P =
      ofEndpoint e (P.take (P.length - n)) ++ ofEndpoint e (P.rtake n) := by
    rw [ofEndpoint, ofEndpoint, ofEndpoint, ← List.filter_append, List.rtake,
      List.take_append_drop]
  rw [hsplit, List.getLast?_append_of_ne_nil _ h]

theorem mem_endpoints_iff (store : Store) (e : EndpointName) :
    e ∈ store.endpoints ↔ (store.current? e).isSome :=
  NameMap.mem_keys ..

theorem Holds.mem_endpoints {capacity : Nat} {P : List Snapshot} {store : Store}
    (h : Holds capacity P store) (e : EndpointName) :
    e ∈ store.endpoints ↔ ∃ s ∈ P, s.endpoint = e := by
  rw [mem_endpoints_iff, h.current_eq, List.getLast?_isSome, ofEndpoint]
  simp

theorem Holds.current_isEmpty {capacity : Nat} {P : List Snapshot} {store : Store}
    (h : Holds capacity P store) : store.current.isEmpty ↔ P = [] := by
  have hkeys : store.current.isEmpty ↔ store.endpoints = [] := by
    rw [NameMap.isEmpty, List.isEmpty_iff, endpoints, NameMap.keys, List.map_eq_nil_iff]
  rw [hkeys, List.eq_nil_iff_forall_not_mem, List.eq_nil_iff_forall_not_mem]
  constructor
  · intro hnone s hs
    exact hnone s.endpoint ((h.mem_endpoints _).mpr ⟨s, hs, rfl⟩)
  · intro hnone e he
    obtain ⟨s, hs, -⟩ := (h.mem_endpoints e).mp he
    exact hnone s hs

theorem Holds.history_eq_nil {capacity : Nat} (hc : 0 < capacity) {P : List Snapshot}
    {store : Store} (h : Holds capacity P store) : store.history = [] ↔ P = [] := by
  rw [← List.length_eq_zero_iff, h.history_eq, length_rtake, ← List.length_eq_zero_iff]
  omega

/-- A call is an update when it publishes something. -/
theorem isUpdate_iff (w : Write) : w.isUpdate ↔ w.snapshots ≠ [] := by
  cases w with
  | publish s => simp [Write.isUpdate, Write.snapshots]
  | publishCycle ss => simp [Write.isUpdate, Write.snapshots]

theorem countP_isUpdate_eq_zero (writes : List Write) :
    writes.countP Write.isUpdate = 0 ↔ published writes = [] := by
  rw [List.countP_eq_zero, published, List.flatMap_eq_nil_iff]
  refine forall₂_congr fun w _ => ?_
  rw [isUpdate_iff, not_not]

/-- A store of any capacity answers every question from the plain list of
what was published into it. -/
theorem reads_published (capacity : Nat) (hc : 0 < capacity) (writes : List Write) :
    ∃ store, Store.new capacity = .ok store ∧
      Answers capacity writes (store.afterWrites writes) := by
  refine ⟨⟨.empty, [], capacity, 0⟩, if_neg hc.ne', ?_⟩
  have hholds := (Holds.new capacity).afterWrites hc writes
  rw [List.nil_append] at hholds
  have hcycles := cycles_afterWrites ⟨.empty, [], capacity, 0⟩ writes
  rw [Nat.zero_add] at hcycles
  generalize (Store.afterWrites ⟨.empty, [], capacity, 0⟩ writes) = store at hholds hcycles ⊢
  have hnil := hholds.history_eq_nil hc
  exact {
    history := hholds.history_eq
    length := by rw [hholds.history_eq, length_rtake]
    current := hholds.current_eq
    historyFor := fun _ => rfl
    getLast?_historyFor := by
      intro e hne
      have hfor : store.historyFor e = ofEndpoint e ((published writes).rtake capacity) := by
        rw [← hholds.history_eq]
        rfl
      rw [hfor] at hne ⊢
      rw [getLast?_ofEndpoint_rtake hne, hholds.current_eq]
    endpoints_nodup := store.current.keys_sorted.imp String.ne_of_lt
    mem_endpoints := hholds.mem_endpoints
    cycles := hcycles
    cycles_eq_zero := by rw [hcycles, countP_isUpdate_eq_zero, hnil]
    current_isEmpty := by rw [hholds.current_isEmpty, hnil]
    view := rfl }

/-- A ring of two, which the first cycle overruns and cuts. One endpoint
occurs twice in that cycle and is then evicted for good. -/
theorem reads_published_overrun :
    0 < 2 ∧ ∃ store, Store.new 2 = .ok store ∧
      let writes := [.publishCycle [.start "a" 1, .start "a" 2, .start "b" 2], .publishCycle [],
        .publish (.start "b" 3)]
      Answers 2 writes (store.afterWrites writes) :=
  ⟨by decide, reads_published 2 (by decide) _⟩

end LinkTelemetry.Store
