import LinkTelemetry.Dashboard
import LinkTelemetry.Proofs.Retention
import Mathlib.Algebra.Ring.Parity
import Mathlib.Dynamics.PeriodicPts.Defs

/-!
# What keys do over a session

A dashboard has four pieces of state, and every key acts on one of them at
most: quitting, pausing, the mode of the chart and the endpoint in it. So
after any events each piece is a count of keys. What is published goes to the
store and to nothing else, and no key reaches the store.

The view is the one place where keys and publishing meet. While it is frozen
it is that of the store at one moment of the past, and the press that froze it
is the latest press of its kind (`HeldSince`).

`Tracks` says all this of one session. One event more keeps it, whether it is
published (`Tracks.publish`) or a key (`Tracks.press`), and so does a session
of any length (`Tracks.after`).
-/

namespace LinkTelemetry.Dashboard

/-- What keys can do. -/
inductive Action where
  | quit
  | pause
  | mode
  | forward
  | backward
  | nothing
  deriving DecidableEq, Repr

/-- What a key does. -/
def Key.action : Key → Action
  | .character 'q' | .escape => .quit
  | .character 'p' | .character ' ' => .pause
  | .character 'c' => .mode
  | .tab | .right => .forward
  | .backTab | .left => .backward
  | _ => .nothing

/-- A dashboard after an action. -/
def act (d : Dashboard) (store : Store) : Action → Dashboard
  | .quit => { d with running := false }
  | .pause => d.togglePause store
  | .mode => { d with mode := d.mode.next }
  | .forward => d.turn 1
  | .backward => d.turn (d.endpoints.length - 1)
  | .nothing => d

theorem press_eq_act (d : Dashboard) (store : Store) (k : Key) :
    d.press store k = d.act store k.action := by
  fun_cases press d store k
  case case10 => simp_all [Key.action, act]
  all_goals rfl

def Event.key? : Event → Option Key
  | .key k => some k
  | _ => none

def Event.write? : Event → Option Store.Write
  | .published s => some (.publish s)
  | .publishedCycle ss => some (.publishCycle ss)
  | .key _ => none

/-- How many of the keys pressed are for an action. -/
def presses (a : Action) (events : List Event) : Nat :=
  (events.filterMap Event.key?).countP (·.action = a)

/-- What was published, in order. -/
def writes (events : List Event) : List Store.Write := events.filterMap Event.write?

theorem presses_append (a : Action) (past later : List Event) :
    presses a (past ++ later) = presses a past + presses a later := by
  rw [presses, List.filterMap_append, List.countP_append]
  rfl

theorem presses_key (a : Action) (k : Key) :
    presses a [.key k] = if k.action = a then 1 else 0 := by
  simp [presses, Event.key?, List.countP_singleton]

theorem writes_append (past later : List Event) :
    writes (past ++ later) = writes past ++ writes later := List.filterMap_append

/-! ## The parts of a dashboard under one action -/

section

variable (d : Dashboard) (store : Store) (a : Action)

theorem endpoints_act : (d.act store a).endpoints = d.endpoints := by
  cases a <;> simp [act, togglePause, turn, apply_ite]

theorem running_act : (d.act store a).running = (d.running && a ≠ .quit) := by
  cases a <;> simp [act, togglePause, turn, apply_ite]

theorem frozen_act : (d.act store a).frozen =
    if a = .pause then if d.isPaused then none else some store.view else d.frozen := by
  cases a <;> simp [act, togglePause, turn, apply_ite]

theorem mode_act : (d.act store a).mode = if a = .mode then d.mode.next else d.mode := by
  cases a <;> simp [act, togglePause, turn, apply_ite]

/-- How far an action moves the selection. -/
def Action.shift : Action → Int
  | .forward => 1
  | .backward => -1
  | _ => 0

theorem selected_act (hd : d.endpoints ≠ []) {x : Int}
    (hx : (d.selected : Int) = x % d.endpoints.length) :
    ((d.act store a).selected : Int) = (x + a.shift) % d.endpoints.length := by
  have hlength : 0 < d.endpoints.length := List.length_pos_iff.mpr hd
  have hturn : ∀ step, (d.turn step).selected = (d.selected + step) % d.endpoints.length := by
    intro step
    rw [turn, if_neg (by simpa using hd)]
  cases a with
  | forward =>
      rw [act, hturn, Int.natCast_emod, Int.natCast_add, hx, Int.emod_add_emod]
      rfl
  | backward =>
      rw [act, hturn, Int.natCast_emod, Int.natCast_add, Int.natCast_pred_of_pos hlength, hx,
        Int.emod_add_emod, ← Int.add_sub_assoc, add_sub_right_comm, Int.add_emod_right]
      rfl
  | _ =>
      simp only [act, togglePause, Action.shift, Int.add_zero]
      exact hx

end

/-! ## Sessions -/

/-- Where the selection is among `n` endpoints. -/
def place (n : Nat) (events : List Event) : Nat :=
  (((presses .forward events : Int) - presses .backward events) % n).toNat

theorem cast_place {n : Nat} (hn : 0 < n) (events : List Event) :
    (place n events : Int) = ((presses .forward events : Int) - presses .backward events) % n :=
  Int.toNat_of_nonneg (Int.emod_nonneg _ (by omega))

theorem place_lt {n : Nat} (hn : 0 < n) (events : List Event) : place n events < n := by
  have hcast := cast_place hn events
  have hlt := Int.emod_lt_of_pos ((presses .forward events : Int) - presses .backward events)
    (Int.natCast_pos.mpr hn)
  omega

/-- A view is that of the store at the latest press of a pause key. -/
def HeldSince (store : Store) (events : List Event) (view : Store.View) : Prop :=
  ∃ past k later, events = past ++ .key k :: later ∧ k.action = .pause ∧
    presses .pause later = 0 ∧ view = (store.afterWrites (writes past)).view

theorem HeldSince.concat {store : Store} {events : List Event} {view : Store.View}
    (h : HeldSince store events view) {e : Event} (he : presses .pause [e] = 0) :
    HeldSince store (events ++ [e]) view := by
  obtain ⟨past, k, later, rfl, hk, hlater, rfl⟩ := h
  refine ⟨past, k, later ++ [e], by simp, hk, ?_, rfl⟩
  rw [presses_append, hlater, he]

/-- How a session stands to the one that it began as. -/
structure Tracks (start : Session) (events : List Event) (now : Session) : Prop where
  store_eq : now.store = start.store.afterWrites (writes events)
  endpoints_eq : now.dashboard.endpoints = start.dashboard.endpoints
  running_iff : now.dashboard.running ↔ start.dashboard.running ∧ presses .quit events = 0
  mode_eq : now.dashboard.mode =
    ChartMode.next^[presses .mode events] start.dashboard.mode
  selected_eq : start.dashboard.endpoints ≠ [] →
    now.dashboard.selected = place start.dashboard.endpoints.length events
  frozen_eq_none_iff : now.dashboard.frozen = none ↔ Even (presses .pause events)
  heldSince : ∀ view, now.dashboard.frozen = some view → HeldSince start.store events view

namespace Tracks

variable {start now : Session} {events : List Event}

/-- Publishing reaches the store alone. -/
theorem publish (h : Tracks start events now) {e : Event} (he : e.key? = none) :
    Tracks start (events ++ [e]) (now.step e) := by
  have hpresses : ∀ a, presses a (events ++ [e]) = presses a events := by
    intro a
    rw [presses_append]
    simp [presses, he]
  obtain ⟨hdashboard, hstore⟩ : (now.step e).dashboard = now.dashboard ∧
      (now.step e).store = now.store.afterWrites (writes [e]) := by
    cases e with
    | key k => cases he
    | published s => exact ⟨rfl, rfl⟩
    | publishedCycle ss => exact ⟨rfl, rfl⟩
  exact {
    store_eq := by
      rw [hstore, h.store_eq, writes_append]
      exact List.foldl_append.symm
    endpoints_eq := by rw [hdashboard, h.endpoints_eq]
    running_iff := by rw [hdashboard, hpresses, h.running_iff]
    mode_eq := by rw [hdashboard, hpresses, h.mode_eq]
    selected_eq := by
      rw [hdashboard, place, hpresses, hpresses]
      exact h.selected_eq
    frozen_eq_none_iff := by rw [hdashboard, hpresses, h.frozen_eq_none_iff]
    heldSince := by
      intro view hview
      rw [hdashboard] at hview
      exact (h.heldSince view hview).concat (by simp [presses, he]) }

/-- A key reaches the dashboard alone. -/
theorem press (h : Tracks start events now) (k : Key) :
    Tracks start (events ++ [.key k]) (now.step (.key k)) := by
  have hdashboard : (now.step (.key k)).dashboard = now.dashboard.act now.store k.action :=
    press_eq_act ..
  have hpresses : ∀ a, presses a (events ++ [.key k]) =
      presses a events + if k.action = a then 1 else 0 := by
    intro a
    rw [presses_append, presses_key]
  exact {
    store_eq := by
      rw [writes_append]
      exact h.store_eq.trans (congrArg start.store.afterWrites (List.append_nil _).symm)
    endpoints_eq := by rw [hdashboard, endpoints_act, h.endpoints_eq]
    running_iff := by
      rw [hdashboard, running_act, Bool.and_eq_true, h.running_iff, hpresses]
      split <;> simp_all
    mode_eq := by
      rw [hdashboard, mode_act, h.mode_eq, hpresses]
      split
      · exact (Function.iterate_succ_apply' ..).symm
      · rfl
    selected_eq := by
      intro hne
      have hlength := List.length_pos_iff.mpr hne
      have hx : (now.dashboard.selected : Int) =
          ((presses .forward events : Int) - presses .backward events) %
            now.dashboard.endpoints.length := by
        rw [h.selected_eq hne, cast_place hlength, h.endpoints_eq]
      rw [← Int.natCast_inj, cast_place hlength, hdashboard,
        selected_act _ _ _ (h.endpoints_eq ▸ hne) hx, h.endpoints_eq, hpresses, hpresses]
      congr 1
      cases k.action <;> simp [Action.shift] <;> omega
    frozen_eq_none_iff := by
      have hbefore := h.frozen_eq_none_iff
      rw [hdashboard, frozen_act, hpresses]
      split
      · rw [Nat.even_add_one, ← hbefore, isPaused]
        cases now.dashboard.frozen <;> simp
      · exact hbefore
    heldSince := by
      intro view hview
      rw [hdashboard, frozen_act] at hview
      split at hview
      · next hpause =>
          split at hview
          · cases hview
          · refine ⟨events, k, [], rfl, hpause, rfl, ?_⟩
            rw [← h.store_eq]
            exact (Option.some.inj hview).symm
      · next hother =>
          exact (h.heldSince view hview).concat ((presses_key ..).trans (if_neg hother)) }

/-- Where a session stands that began with nothing frozen. -/
theorem after (hfrozen : start.dashboard.frozen = none)
    (hselected : start.dashboard.selected = 0) (events : List Event) :
    Tracks start events (start.after events) := by
  induction events using List.reverseRecOn with
  | nil =>
      exact {
        store_eq := rfl
        endpoints_eq := rfl
        running_iff := by simp [presses]
        mode_eq := rfl
        selected_eq := fun _ => by simp [hselected, place, presses]
        frozen_eq_none_iff := by simp [hfrozen, presses]
        heldSince := by simp [hfrozen] }
  | append_singleton past e ih =>
      have hstep : start.after (past ++ [e]) = (start.after past).step e := List.foldl_append
      rw [hstep]
      cases e with
      | key k => exact ih.press k
      | published s => exact ih.publish rfl
      | publishedCycle ss => exact ih.publish rfl

end Tracks

theorem next_four (mode : ChartMode) : ChartMode.next^[4] mode = mode := by
  cases mode <;> rfl

/-- What a dashboard shows and remembers after any keys and any publishing, in
counts of its keys and in the store alone. -/
theorem session_follows_keys (store : Store) (endpoints : List EndpointName)
    (metrics : List Metric) (thresholds : ThresholdTable) (url : Option String) (mode : ChartMode)
    (events : List Event) :
    let start : Session := ⟨store, { endpoints, metrics, thresholds, url, mode }⟩
    let now := start.after events
    (now.dashboard.isPaused ↔ Odd (presses .pause events)) ∧
    (¬ now.dashboard.isPaused → now.shown = now.store.view) ∧
    (now.dashboard.isPaused → HeldSince store events now.shown) ∧
    (now.dashboard.chartEndpoint? = none ↔ endpoints = []) ∧
    (∀ h : 0 < endpoints.length, now.dashboard.chartEndpoint? =
      some (endpoints.get ⟨place endpoints.length events, place_lt h events⟩)) ∧
    now.dashboard.mode = ChartMode.next^[presses .mode events % 4] mode ∧
    (now.dashboard.running = false ↔ 0 < presses .quit events) ∧
    now.store = store.afterWrites (writes events) := by
  intro start now
  have h : Tracks start events now := Tracks.after rfl rfl events
  have hchart : ∀ hpos : 0 < endpoints.length, now.dashboard.chartEndpoint? =
      some (endpoints.get ⟨place endpoints.length events, place_lt hpos events⟩) := by
    intro hpos
    rw [chartEndpoint?, h.endpoints_eq, h.selected_eq (List.length_pos_iff.mp hpos)]
    exact List.getElem?_eq_getElem (place_lt hpos events)
  refine ⟨?_, ?_, ?_, ?_, hchart, ?_, ?_, h.store_eq⟩
  · rw [← Nat.not_even_iff_odd, ← h.frozen_eq_none_iff, isPaused, Option.isSome_iff_ne_none]
  · intro hrunning
    rw [isPaused, Option.not_isSome_iff_eq_none] at hrunning
    rw [Session.shown, Dashboard.shown, hrunning, Option.getD_none]
  · intro hpaused
    obtain ⟨view, hview⟩ := Option.isSome_iff_exists.mp hpaused
    rw [Session.shown, Dashboard.shown, hview, Option.getD_some]
    exact h.heldSince view hview
  · constructor
    · intro hnone
      by_contra hne
      rw [hchart (List.length_pos_iff.mpr hne)] at hnone
      cases hnone
    · rintro rfl
      rw [chartEndpoint?, h.endpoints_eq]
      rfl
  · rw [h.mode_eq]
    exact (Function.IsPeriodicPt.iterate_mod_apply (next_four mode) _).symm
  · rw [← Bool.not_eq_true, h.running_iff]
    simp [start, Nat.pos_iff_ne_zero]

/-- Back from the first of three endpoints, then a pause over which a cycle is
published and the keys go on working. -/
theorem session_follows_keys_past_pause :
    let start : Session := ⟨⟨.empty, [], 2, 0⟩,
      { endpoints := ["client", "relay", "server"], metrics := [.cpuPercent],
        thresholds := ThresholdTable.builtin }⟩
    let events : List Event := [.key .left, .key (.character ' '),
      .publishedCycle [.start "client" 1, .start "relay" 1], .key (.character 'c')]
    let now := start.after events
    now.dashboard.isPaused ∧ HeldSince start.store events now.shown ∧
      now.dashboard.chartEndpoint? = some "server" ∧ now.dashboard.mode = .resources ∧
      now.store.cycles = 1 ∧ now.shown.cycles = 0 := by
  intro start events now
  obtain ⟨hpause, -, hheld, -, hchart, hmode, -, hstore⟩ :=
    session_follows_keys start.store start.dashboard.endpoints start.dashboard.metrics
      start.dashboard.thresholds none .throughput events
  have hpaused : now.dashboard.isPaused := hpause.mpr (by decide)
  refine ⟨hpaused, hheld hpaused, ?_, ?_, ?_, rfl⟩
  · exact (hchart (by decide)).trans (congrArg some (by decide))
  · exact hmode
  · exact congrArg Store.cycles hstore

end LinkTelemetry.Dashboard
