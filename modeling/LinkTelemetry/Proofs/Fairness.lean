import LinkTelemetry.Proofs.Published

/-!
# The shared history is fair

A history throws out single snapshots, while a cycle brings one for every
endpoint. What is left may therefore begin in the middle of a cycle, and it
is only there that endpoints are treated differently: those late in the order
of the endpoints still have their snapshot of that cycle, the others do not.
All later cycles are retained whole.

With `n` endpoints and `kept` snapshots the whole cycles are `kept / n`, and
the oldest one has `kept % n` snapshots left (`rtake_flatten`). Everything
else is counting.
-/

namespace LinkTelemetry

section

variable {α : Type}

theorem rtake_append_of_le (a : List α) {b : List α} {n : Nat} (h : n ≤ b.length) :
    (a ++ b).rtake n = b.rtake n := by
  have hdrop : (a ++ b).length - n = a.length + (b.length - n) := by
    rw [List.length_append]
    omega
  rw [List.rtake, List.rtake, hdrop, List.drop_length_add_append]

theorem rtake_append_add (a b : List α) (n : Nat) :
    (a ++ b).rtake (n + b.length) = a.rtake n ++ b := by
  have hdrop : (a ++ b).length - (n + b.length) = a.length - n := by
    rw [List.length_append]
    omega
  rw [List.rtake, List.rtake, hdrop, List.drop_append_of_le_length (by omega)]

theorem rtake_min_length (l : List α) (n : Nat) : l.rtake (min n l.length) = l.rtake n := by
  rw [List.rtake, List.rtake]
  congr 1
  omega

/-- The end of a sequence of batches: a part of one batch, and then the
batches behind it. -/
theorem rtake_flatten {n r : Nat} (hr : r < n) (q : Nat) (batches : List (List α))
    (hlength : ∀ b ∈ batches, b.length = n) (hle : q * n + r ≤ batches.length * n) :
    ∃ oldest, (r = 0 ∨ batches.rtake (q + 1) = oldest :: batches.rtake q) ∧
      batches.flatten.rtake (q * n + r) = oldest.rtake r ++ (batches.rtake q).flatten := by
  induction batches using List.reverseRecOn generalizing q with
  | nil =>
      rw [List.length_nil, Nat.zero_mul] at hle
      refine ⟨[], .inl (by omega), ?_⟩
      rw [List.rtake_nil, List.flatten_nil, List.rtake_nil, List.rtake_nil]
      rfl
  | append_singleton batches b ih =>
      have hb : b.length = n := hlength b (List.mem_append_right _ List.mem_cons_self)
      rw [List.flatten_append, List.flatten_singleton]
      cases q with
      | zero =>
          refine ⟨b, .inr ?_, ?_⟩
          · rw [List.rtake_concat_succ, List.rtake_zero, List.rtake_zero]
            rfl
          · rw [Nat.zero_mul, Nat.zero_add, rtake_append_of_le _ (by omega), List.rtake_zero,
              List.flatten_nil, List.append_nil]
      | succ q =>
          rw [List.length_append, List.length_singleton, Nat.add_mul, Nat.one_mul,
            Nat.add_mul, Nat.one_mul] at hle
          obtain ⟨oldest, holdest, hrest⟩ := ih q
            (fun b' hb' => hlength b' (List.mem_append_left _ hb')) (by omega)
          have hsum : (q + 1) * n + r = q * n + r + b.length := by
            rw [Nat.add_mul, Nat.one_mul, hb]
            omega
          refine ⟨oldest, ?_, ?_⟩
          · rw [List.rtake_concat_succ, List.rtake_concat_succ]
            exact holdest.imp_right fun h => by rw [h]; rfl
          · rw [hsum, rtake_append_add, hrest, List.rtake_concat_succ, List.flatten_append,
              List.flatten_singleton, List.append_assoc]

theorem rtake_flatten_div_mod {n kept : Nat} (hn : 0 < n) (batches : List (List α))
    (hlength : ∀ b ∈ batches, b.length = n) (hkept : kept ≤ batches.length * n) :
    ∃ oldest, (kept % n = 0 ∨ batches.rtake (kept / n + 1) = oldest :: batches.rtake (kept / n)) ∧
      batches.flatten.rtake kept =
        oldest.rtake (kept % n) ++ (batches.rtake (kept / n)).flatten := by
  have hsum : kept / n * n + kept % n = kept := Nat.div_add_mod' ..
  have h := rtake_flatten (Nat.mod_lt kept hn) (kept / n) batches hlength (by rwa [hsum])
  rwa [hsum] at h

end

namespace Store

theorem length_ofEndpoint (e : EndpointName) (snapshots : List Snapshot) :
    (ofEndpoint e snapshots).length = (snapshots.map (·.endpoint)).count e := by
  rw [ofEndpoint, ← List.countP_eq_length_filter, List.count, List.countP_map]
  exact List.countP_congr fun s _ => by simp

theorem ofEndpoint_append (e : EndpointName) (a b : List Snapshot) :
    ofEndpoint e (a ++ b) = ofEndpoint e a ++ ofEndpoint e b := List.filter_append ..

/-- What the end of a list has of an endpoint is the end of what the list has
of it. -/
theorem ofEndpoint_rtake (e : EndpointName) (snapshots : List Snapshot) (n : Nat) :
    ofEndpoint e (snapshots.rtake n) =
      (ofEndpoint e snapshots).rtake (ofEndpoint e (snapshots.rtake n)).length := by
  have hsplit : ofEndpoint e snapshots =
      ofEndpoint e (snapshots.take (snapshots.length - n)) ++ ofEndpoint e (snapshots.rtake n) := by
    rw [← ofEndpoint_append, List.rtake, List.take_append_drop]
  have hrtake := rtake_append_add (ofEndpoint e (snapshots.take (snapshots.length - n)))
    (ofEndpoint e (snapshots.rtake n)) 0
  rw [Nat.zero_add, List.rtake_zero, List.nil_append, ← hsplit] at hrtake
  exact hrtake.symm

end Store

/-- The snapshots that are left of the endpoint at a position when `kept` are
left of all the `n` endpoints. -/
def share (n kept i : Nat) : Nat := kept / n + if n - kept % n ≤ i then 1 else 0

theorem share_le_share_add_one (n kept i j : Nat) : share n kept i ≤ share n kept j + 1 := by
  rw [share, share]
  split <;> split <;> omega

section

variable {endpoints : List EndpointName} {e : EndpointName}

theorem length_ofEndpoint_batch (hnodup : endpoints.Nodup) (he : e ∈ endpoints)
    {batch : List Snapshot} (hbatch : batch.map (·.endpoint) = endpoints) :
    (Store.ofEndpoint e batch).length = 1 := by
  rw [Store.length_ofEndpoint, hbatch]
  exact List.count_eq_one_of_mem hnodup he

theorem length_ofEndpoint_rtake (hnodup : endpoints.Nodup) {batch : List Snapshot}
    (hbatch : batch.map (·.endpoint) = endpoints) {i : Nat} (hi : i < endpoints.length) (r : Nat) :
    (Store.ofEndpoint endpoints[i] (batch.rtake r)).length =
      if endpoints.length - r ≤ i then 1 else 0 := by
  have hmem : endpoints[i] ∈ endpoints.drop (endpoints.length - r) ↔ endpoints.length - r ≤ i := by
    rw [List.mem_drop_iff_getElem]
    constructor
    · rintro ⟨j, hj, heq⟩
      have := hnodup.getElem_inj_iff.mp heq
      omega
    · intro hle
      refine ⟨i - (endpoints.length - r), by omega, ?_⟩
      congr 1
      omega
  have hmap : (batch.rtake r).map (·.endpoint) = endpoints.drop (endpoints.length - r) := by
    rw [List.rtake, List.map_drop, hbatch, ← hbatch, List.length_map]
  rw [Store.length_ofEndpoint, hmap]
  split
  · next hle =>
      exact List.count_eq_one_of_mem (hnodup.sublist (List.drop_sublist ..)) (hmem.mpr hle)
  · next hlt => exact List.count_eq_zero_of_not_mem fun h => hlt (hmem.mp h)

theorem length_ofEndpoint_flatten (hnodup : endpoints.Nodup) (he : e ∈ endpoints)
    {batches : List (List Snapshot)}
    (hbatches : ∀ b ∈ batches, b.map (·.endpoint) = endpoints) :
    (Store.ofEndpoint e batches.flatten).length = batches.length := by
  induction batches with
  | nil => rfl
  | cons b rest ih =>
      have hone := length_ofEndpoint_batch hnodup he (hbatches b List.mem_cons_self)
      rw [List.flatten_cons, Store.ofEndpoint_append, List.length_append, hone,
        ih fun b' hb' => hbatches b' (List.mem_cons_of_mem _ hb'), List.length_cons, Nat.add_comm]

theorem length_ofEndpoint_end (hnodup : endpoints.Nodup) {oldest : List Snapshot}
    {rest : List (List Snapshot)} {r : Nat} (holdest : r = 0 ∨ oldest.map (·.endpoint) = endpoints)
    (hrest : ∀ b ∈ rest, b.map (·.endpoint) = endpoints) {i : Nat} (hi : i < endpoints.length) :
    (Store.ofEndpoint endpoints[i] (oldest.rtake r ++ rest.flatten)).length =
      rest.length + if endpoints.length - r ≤ i then 1 else 0 := by
  rw [Store.ofEndpoint_append, List.length_append, Nat.add_comm,
    length_ofEndpoint_flatten hnodup (List.getElem_mem hi) hrest]
  congr 1
  rcases holdest with rfl | holdest
  · rw [List.rtake_zero, if_neg (by omega)]
    rfl
  · exact length_ofEndpoint_rtake hnodup holdest hi r

theorem length_ofEndpoint_rtake_flatten (hnodup : endpoints.Nodup)
    {batches : List (List Snapshot)}
    (hbatches : ∀ b ∈ batches, b.map (·.endpoint) = endpoints) {kept : Nat}
    (hkept : kept ≤ batches.length * endpoints.length) {i : Nat} (hi : i < endpoints.length) :
    (Store.ofEndpoint endpoints[i] (batches.flatten.rtake kept)).length =
      share endpoints.length kept i := by
  have hpos : 0 < endpoints.length := Nat.zero_lt_of_lt hi
  have hlength : ∀ b ∈ batches, b.length = endpoints.length := by
    intro b hb
    rw [← hbatches b hb, List.length_map]
  obtain ⟨oldest, holdest, hsplit⟩ := rtake_flatten_div_mod hpos batches hlength hkept
  have hmem : ∀ {k b}, b ∈ batches.rtake k → b ∈ batches := List.mem_of_mem_drop
  have hpart : kept % endpoints.length = 0 ∨ oldest.map (·.endpoint) = endpoints :=
    holdest.imp_right fun h => hbatches oldest (hmem (h ▸ List.mem_cons_self))
  have hrest : ∀ b ∈ batches.rtake (kept / endpoints.length), b.map (·.endpoint) = endpoints :=
    fun b hb => hbatches b (hmem hb)
  have hwhole : (batches.rtake (kept / endpoints.length)).length = kept / endpoints.length := by
    rw [Store.length_rtake]
    exact Nat.min_eq_left (Nat.div_le_of_le_mul (Nat.mul_comm .. ▸ hkept))
  rw [hsplit, length_ofEndpoint_end hnodup hpart hrest hi, hwhole, share]

end

namespace Monitor

theorem timestamp_batches (m : Monitor) (cycles : List Cycle) {e : EndpointName}
    (he : e ∈ m.collector.endpoints) :
    (Store.ofEndpoint e (m.batches cycles).flatten).map (·.timestamp) = cycles.map (·.stamp) := by
  induction cycles generalizing m with
  | nil => rfl
  | cons cycle rest ih =>
      obtain ⟨s, hs⟩ := List.length_eq_one_iff.mp
        (length_ofEndpoint_batch m.collector.endpoints_nodup he
          (m.collector.endpoint_snapshots cycle.stamp cycle.outcomes))
      have hmem : s ∈ m.collector.snapshots cycle.stamp cycle.outcomes := by
        refine List.mem_of_mem_filter (p := (·.endpoint = e)) ?_
        rw [← Store.ofEndpoint, hs]
        exact List.mem_cons_self
      rw [batches, List.flatten_cons, Store.ofEndpoint_append, hs, List.map_append,
        List.map_singleton, Collector.timestamp_of_mem hmem]
      exact congrArg (_ :: ·) (ih _ he)

theorem length_flatten_batches (m : Monitor) (cycles : List Cycle) :
    (m.batches cycles).flatten.length = cycles.length * m.collector.endpoints.length := by
  rw [List.length_flatten, List.map_congr_left fun b hb => length_of_mem_batches hb,
    List.map_const', List.sum_replicate_nat, length_batches]

end Monitor

/-- The endpoints of a collector share the history of its store evenly, each
with the snapshots of the latest cycles, and only the oldest cycle in the
history may be there in part. -/
theorem history_shared_evenly (c : Collector) {capacity : Nat} (hcapacity : 0 < capacity) :
    ∃ start, Monitor.new capacity (.ok c) = .ok start ∧ ∀ cycles : List Cycle,
      let n := c.endpoints.length
      let kept := min capacity (cycles.length * n)
      let batches := start.batches cycles
      let store := (start.after cycles).store
      (∀ i, (hi : i < n) →
        let own := Store.ofEndpoint c.endpoints[i] batches.flatten
        own.map (·.timestamp) = cycles.map (·.stamp) ∧
          store.historyFor c.endpoints[i] = own.rtake (share n kept i) ∧
          (store.historyFor c.endpoints[i]).length = share n kept i) ∧
      (∀ e ∈ c.endpoints, ∀ f ∈ c.endpoints,
        (store.historyFor e).length ≤ (store.historyFor f).length + 1) ∧
      (∀ batch ∈ batches, batch.map (·.endpoint) = c.endpoints) ∧
      ∃ oldest, (kept % n = 0 ∨
          batches.rtake (kept / n + 1) = oldest :: batches.rtake (kept / n)) ∧
        store.history = oldest.rtake (kept % n) ++ (batches.rtake (kept / n)).flatten := by
  refine ⟨_, Monitor.new_eq hcapacity c, fun cycles => ?_⟩
  intro n kept batches store
  have hpos : 0 < n := List.length_pos_of_ne_nil c.endpoints_ne_nil
  have hwhole : ∀ batch ∈ batches, batch.map (·.endpoint) = c.endpoints := by
    intro batch hbatch
    exact Monitor.endpoint_of_mem_batches hbatch
  have hlength : batches.flatten.length = cycles.length * n := Monitor.length_flatten_batches ..
  have hhistory : store.history = batches.flatten.rtake kept := by
    have hafter : store.history = batches.flatten.rtake capacity :=
      Monitor.history_after hcapacity (Store.Holds.new capacity) cycles
    rw [hafter, ← rtake_min_length, hlength]
  have hkept : kept ≤ batches.length * n := by
    rw [Monitor.length_batches]
    exact Nat.min_le_right ..
  have hshare : ∀ i, (hi : i < n) →
      (store.historyFor c.endpoints[i]).length = share n kept i := by
    intro i hi
    have hcount := length_ofEndpoint_rtake_flatten c.endpoints_nodup hwhole hkept hi
    rw [← hhistory] at hcount
    exact hcount
  obtain ⟨oldest, holdest, hsplit⟩ := rtake_flatten_div_mod hpos batches
    (fun batch hbatch => Monitor.length_of_mem_batches hbatch) hkept
  rw [← hhistory] at hsplit
  refine ⟨?_, ?_, hwhole, oldest, holdest, hsplit⟩
  · intro i hi own
    refine ⟨Monitor.timestamp_batches _ cycles (List.getElem_mem hi), ?_, hshare i hi⟩
    have hown := Store.ofEndpoint_rtake c.endpoints[i] batches.flatten kept
    rw [← hhistory] at hown
    exact hown.trans (congrArg own.rtake (hshare i hi))
  · intro e he f hf
    obtain ⟨i, hi, rfl⟩ := List.getElem_of_mem he
    obtain ⟨j, hj, rfl⟩ := List.getElem_of_mem hf
    rw [hshare i hi, hshare j hj]
    exact share_le_share_add_one ..

/-- Three cycles of three endpoints in a history of five. The first endpoint
has lost its snapshot of the second cycle. -/
theorem history_shared_evenly_cut :
    ∃ c, Collector.timed ["a", "b", "c"] [.bytesIn] none none = .ok c ∧ 0 < 5 ∧
      ∃ start, Monitor.new 5 (.ok c) = .ok start ∧
        let cycles : List Cycle := [⟨1, fun _ _ => .ok (.counter 1)⟩,
          ⟨2, fun _ _ => .error .timeout⟩, ⟨3, fun _ _ => .ok (.counter 3)⟩]
        let store := (start.after cycles).store
        (store.historyFor "a").length = 1 ∧ (store.historyFor "b").length = 2 ∧
          (store.historyFor "c").length = 2 := by
  obtain ⟨c, hc, hendpoints⟩ : ∃ c, Collector.timed ["a", "b", "c"] [.bytesIn] none none = .ok c ∧
      c.endpoints = ["a", "b", "c"] := ⟨_, rfl, rfl⟩
  obtain ⟨start, hstart, h⟩ := history_shared_evenly c (show 0 < 5 by decide)
  refine ⟨c, hc, by decide, start, hstart, ?_⟩
  simp only [hendpoints] at h
  obtain ⟨hshare, -, -, -⟩ := h _
  exact ⟨(hshare 0 (by decide)).2.2, (hshare 1 (by decide)).2.2, (hshare 2 (by decide)).2.2⟩

end LinkTelemetry
