import LinkTelemetry.Proofs.Addresses
import LinkTelemetry.Proofs.Documents
import LinkTelemetry.Proofs.Fairness

/-!
# What a limit takes away

Two cuts shorten the history that a client sees: the store has let go of all
but the newest snapshots, and the exporter shows of these the newest that the
limit allows. Both cuts are made at the oldest end, so together they are one
cut of the list of all that was published (`rtake_rtake`). The latest
snapshots of the endpoints are kept apart from the history, and neither cut
reaches them.

The limit has to fit the word that it is read into. A larger number, although
it asks for no less than everything, is refused like any other bad query.
-/

namespace LinkTelemetry

theorem rtake_rtake {α : Type} (l : List α) (n m : Nat) :
    (l.rtake m).rtake n = l.rtake (min n m) := by
  simp only [List.rtake_eq_reverse_take_reverse, List.reverse_reverse, List.take_take]

theorem rtake_suffix_rtake {α : Type} (l : List α) {n m : Nat} (h : n ≤ m) :
    l.rtake n <:+ l.rtake m := by
  have hcut : l.rtake n = (l.rtake m).rtake n := by rw [rtake_rtake, Nat.min_eq_left h]
  rw [hcut]
  exact List.drop_suffix ..

theorem Store.View.history_newest (view : Store.View) (n : Nat) :
    (view.newest n).history = view.history.rtake n := rfl

namespace Export

/-- How many of the published snapshots a client sees in the history. -/
def shownCount (capacity : Nat) (P : List Snapshot) : Option Nat → Nat
  | none => min capacity P.length
  | some n => min n (min capacity P.length)

theorem shownCount_mono (capacity : Nat) (P : List Snapshot) {n m : Nat} (h : n ≤ m) :
    shownCount capacity P (some n) ≤ shownCount capacity P (some m) := by
  rw [shownCount, shownCount]
  omega

/-- A document with the newest of the published snapshots and the latest one
of every endpoint, each written out in full. -/
structure ShowsNewest (capacity : Nat) (P : List Snapshot) (limit : Option Nat) (doc : Tree) :
    Prop where
  history : doc.at? ["history"] =
    some (.list ((P.rtake (shownCount capacity P limit)).map Snapshot.toTree))
  current : ∀ e, doc.at? ["current", e] = (Store.ofEndpoint e P).getLast?.map Snapshot.toTree
  written : ∀ s ∈ P, s.WrittenAs s.toTree

namespace Exporter

theorem current_trimmed (view : Store.View) (limit : Option Nat) :
    (trimmed view limit).current = view.current := by
  cases limit <;> rfl

theorem showsNewest_of_holds {capacity : Nat} {P : List Snapshot} {store : Store}
    (h : Store.Holds capacity P store) (limit : Option Nat) :
    ShowsNewest capacity P limit (trimmed store.view limit).toTree where
  history := by
    have hhistory : (trimmed store.view limit).history =
        P.rtake (shownCount capacity P limit) := by
      have hall : store.view.history = P.rtake (min capacity P.length) := by
        rw [rtake_min_length]
        exact h.history_eq
      cases limit with
      | none => exact hall
      | some n => rw [trimmed, Store.View.history_newest, hall, rtake_rtake, shownCount]
    rw [Store.View.at?_history, hhistory]
  current e := by
    rw [Store.View.at?_current, current_trimmed, ← h.current_eq e]
    cases hs : store.view.current.get? e with
    | none => exact (congrArg (Option.map Snapshot.toTree) hs).symm
    | some s => exact (congrArg (Option.map Snapshot.toTree) hs).symm
  written s _ := s.writtenAs_toTree

theorem respond_metrics (x : Exporter) (store : Store) {query : List Char} {limit : Option Nat}
    (h : limit? query = some limit) :
    x.respond store ⟨"GET", "/metrics".toList, query⟩ =
      ⟨200, .document (trimmed store.view limit).toTree⟩ := by
  have hanswer : x.answer store query .metrics =
      ⟨200, .document (trimmed store.view limit).toTree⟩ := by
    rw [answer, h]
  exact hanswer

theorem respond_limitAddress (x : Exporter) (store : Store) (n : Nat) :
    x.respond store (.ofUri "GET" (limitAddress n)) =
      if n < 2 ^ 64 then ⟨200, .document (trimmed store.view (some n)).toTree⟩
      else ⟨400, .absent⟩ := by
  have hlimit := limit?_limitQuery n
  rw [ofUri_limitAddress]
  split
  · next hn =>
      rw [if_pos hn] at hlimit
      exact x.respond_metrics store hlimit
  · next hn =>
      rw [if_neg hn] at hlimit
      have hanswer : x.answer store (limitQuery n) .metrics = ⟨400, .absent⟩ := by
        rw [answer, hlimit]
      exact hanswer

end Exporter

/-- Of all that was published into a store a client sees the newest, as many
as the store retains and the limit allows, and always the latest snapshot of
every endpoint. -/
theorem limit_trims_history_only {capacity : Nat} (hcapacity : 0 < capacity) (x : Exporter) :
    ∃ start, Store.new capacity = .ok start ∧ ∀ writes : List Store.Write,
      let store := start.afterWrites writes
      ∃ answer : Option Nat → Tree,
        (∀ query limit, limit? query = some limit →
          x.respond store ⟨"GET", "/metrics".toList, query⟩ = ⟨200, .document (answer limit)⟩) ∧
        x.respond store (.ofUri "GET" "/metrics") = ⟨200, .document (answer none)⟩ ∧
        (∀ n, x.respond store (.ofUri "GET" (limitAddress n)) =
          if n < 2 ^ 64 then ⟨200, .document (answer (some n))⟩ else ⟨400, .absent⟩) ∧
        (∀ limit, ShowsNewest capacity (Store.published writes) limit (answer limit)) ∧
        (∀ n m, n ≤ m → ∃ shorter longer,
          (answer (some n)).at? ["history"] = some (.list shorter) ∧
            (answer (some m)).at? ["history"] = some (.list longer) ∧ shorter <:+ longer) ∧
        ∀ limit, (answer limit).at? ["current"] = (answer none).at? ["current"] := by
  obtain ⟨start, hstart, hholds⟩ := Store.exists_holds hcapacity
  refine ⟨start, hstart, fun writes => ?_⟩
  intro store
  have hshows := Exporter.showsNewest_of_holds (hholds writes)
  refine ⟨fun limit => (Exporter.trimmed store.view limit).toTree,
    fun query limit h => x.respond_metrics store h, x.respond_metrics store rfl,
    x.respond_limitAddress store, hshows, ?_, ?_⟩
  · intro n m hnm
    refine ⟨_, _, (hshows (some n)).history, (hshows (some m)).history, ?_⟩
    exact (rtake_suffix_rtake _ (shownCount_mono capacity _ hnm)).map Snapshot.toTree
  · intro limit
    cases limit <;> rfl

/-- A ring of two has let go of the only snapshot of one endpoint, and a
limit of one shows a single snapshot of the other. Both are current. -/
theorem limit_trims_history_only_of_evicted :
    0 < 2 ∧ ∀ x : Exporter, ∃ start, Store.new 2 = .ok start ∧
      let store := start.afterWrites
        [.publishCycle [.start "a" 1, .start "b" 1], .publish (.start "b" 2),
          .publish (.start "b" 3)]
      ∃ doc, x.respond store (.ofUri "GET" "/metrics?limit=1") = ⟨200, .document doc⟩ ∧
        doc.at? ["history"] = some (.list [(Snapshot.start "b" 3).toTree]) ∧
        doc.at? ["current", "a"] = some (Snapshot.start "a" 1).toTree ∧
        doc.at? ["current", "b"] = some (Snapshot.start "b" 3).toTree := by
  refine ⟨by decide, fun x => ?_⟩
  obtain ⟨start, hstart, h⟩ := limit_trims_history_only (show 0 < 2 by decide) x
  obtain ⟨answer, -, -, hlimit, hshows, -, -⟩ := h _
  refine ⟨start, hstart, answer (some 1), hlimit 1, (hshows (some 1)).history,
    (hshows (some 1)).current "a", (hshows (some 1)).current "b"⟩

/-- No document is shown for a limit that has more than 64 bits, although it
would be the whole history. -/
theorem limit_beyond_word_refused :
    ∃ start, Store.new 1 = .ok start ∧
      let store := start.afterWrites [.publish (.start "server" 1)]
      let response := Exporter.respond ⟨.empty, ["server"], 0⟩ store
        (.ofUri "GET" (limitAddress (2 ^ 64)))
      response = ⟨400, .absent⟩ ∧
        ¬ ∃ doc, response = ⟨200, .document doc⟩ ∧
          ShowsNewest 1 [.start "server" 1] (some (2 ^ 64)) doc := by
  refine ⟨_, rfl, ?_⟩
  intro store response
  have hrefused : response = ⟨400, .absent⟩ :=
    (Exporter.respond_limitAddress _ store _).trans (if_neg (Nat.lt_irrefl _))
  refine ⟨hrefused, ?_⟩
  rintro ⟨doc, hdoc, -⟩
  rw [hrefused] at hdoc
  cases hdoc

end Export

end LinkTelemetry
