import LinkTelemetry.Engine
import LinkTelemetry.Proofs.Dispatch

/-!
# Cycles of the engine

A cycle asks the router for every pair, each under the deadline of the
collector. Who is late has no answer and leaves the router as it was, so after
any cycles the router is the one that the engine began with, after some
questions (`Continues`), and every answer in time is that of such a router.

A cycle need not come to its end: the program may stop at one of the answers,
and nowhere else (`exists_answer_of_after`). If it does not, the cycle is one of
the monitor, with these answers for its samples (`exists_cycles_of_after`).
-/

namespace LinkTelemetry

/-- What a cycle meets, and its stamp. -/
abbrev Engine.Round := Conditions × Float

namespace Engine

/-- The engine after cycles, if the program does not stop in one of them. -/
def after (engine : Engine) (o : Overflow) (rounds : List Round) : Except Panic Engine :=
  rounds.foldlM (fun engine round => engine.cycle o round.1 round.2) engine

theorem after_cons (engine : Engine) (o : Overflow) (round : Round) (rest : List Round) :
    engine.after o (round :: rest) =
      engine.cycle o round.1 round.2 >>= fun next => next.after o rest := List.foldlM_cons

section

variable (o : Overflow) (timeoutMs : Nat) (conditions : Conditions)

theorem exists_router_ask (p : Polled) (q : Pair) :
    ∃ past, (Polled.ask o timeoutMs conditions p q).router = p.router.asked o past := by
  rw [Polled.ask]
  split
  · exact ⟨[], rfl⟩
  · exact ⟨[(conditions.host, q)], rfl⟩

theorem exists_router_foldl_ask (pairs : List Pair) (p : Polled) : ∃ past,
    (pairs.foldl (Polled.ask o timeoutMs conditions) p).router = p.router.asked o past := by
  induction pairs generalizing p with
  | nil => exact ⟨[], rfl⟩
  | cons q rest ih =>
      obtain ⟨first, hfirst⟩ := exists_router_ask o timeoutMs conditions p q
      obtain ⟨past, hpast⟩ := ih (Polled.ask o timeoutMs conditions p q)
      rw [hfirst, ← Router.asked_append] at hpast
      exact ⟨_, hpast⟩

/-- One more question: its answer is the router's, unless that is late. -/
theorem answers_ask (p : Polled) (q : Pair) :
    (Polled.ask o timeoutMs conditions p q).answers = p.answers ++ [(q,
      if isLate timeoutMs (conditions.delayMs q) then .ok (.error .timeout)
      else (p.router.ask o conditions.host q.1 q.2).attempt)] := by
  rw [Polled.ask]
  split <;> rfl

theorem map_answers_foldl_ask (pairs : List Pair) (p : Polled) :
    (pairs.foldl (Polled.ask o timeoutMs conditions) p).answers.map (·.1) =
      p.answers.map (·.1) ++ pairs := by
  induction pairs generalizing p with
  | nil => simp
  | cons q rest ih =>
      rw [List.foldl_cons, ih, answers_ask]
      simp

variable {o timeoutMs conditions} in
/-- Every answer in time is that of the router at its turn. -/
theorem mem_answers_foldl_ask {pairs : List Pair} {p : Polled} {answer : Pair × Attempt}
    (h : answer ∈ (pairs.foldl (Polled.ask o timeoutMs conditions) p).answers) :
    answer ∈ p.answers ∨ ∃ past, answer.2 =
      if isLate timeoutMs (conditions.delayMs answer.1) then .ok (.error .timeout)
      else ((p.router.asked o past).ask o conditions.host answer.1.1 answer.1.2).attempt := by
  induction pairs generalizing p with
  | nil => exact .inl h
  | cons q rest ih =>
      rcases ih h with h | ⟨past, hpast⟩
      · rw [answers_ask] at h
        rcases List.mem_append.mp h with h | h
        · exact .inl h
        · rw [List.mem_singleton.mp h]
          exact .inr ⟨[], rfl⟩
      · obtain ⟨first, hfirst⟩ := exists_router_ask o timeoutMs conditions p q
        rw [hfirst, ← Router.asked_append] at hpast
        exact .inr ⟨_, hpast⟩

end

/-- What cycles leave of an engine: what it polls, its deadline, and its routes
after some questions. -/
structure Continues (o : Overflow) (engine later : Engine) : Prop where
  pairs_eq : later.monitor.collector.pairs = engine.monitor.collector.pairs
  timeout_eq : later.monitor.collector.timeoutMs = engine.monitor.collector.timeoutMs
  router_eq : ∃ past, later.router = engine.router.asked o past

theorem continues_cycle {engine next : Engine} {o : Overflow} {conditions : Conditions}
    {stamp : Float} (h : engine.cycle o conditions stamp = .ok next) :
    engine.Continues o next := by
  obtain ⟨samples, -, h⟩ := bind_eq_ok.mp h
  cases h
  exact ⟨rfl, rfl, exists_router_foldl_ask ..⟩

theorem Continues.trans {engine next later : Engine} {o : Overflow}
    (hnext : engine.Continues o next) (hlater : next.Continues o later) :
    engine.Continues o later := by
  obtain ⟨first, hfirst⟩ := hnext.router_eq
  obtain ⟨past, hpast⟩ := hlater.router_eq
  rw [hfirst, ← Router.asked_append] at hpast
  exact ⟨hlater.pairs_eq.trans hnext.pairs_eq, hlater.timeout_eq.trans hnext.timeout_eq, _, hpast⟩

theorem continues_after {engine later : Engine} {o : Overflow} {rounds : List Round}
    (h : engine.after o rounds = .ok later) : engine.Continues o later := by
  induction rounds generalizing engine with
  | nil =>
      cases h
      exact ⟨rfl, rfl, [], rfl⟩
  | cons round rest ih =>
      rw [after_cons] at h
      obtain ⟨next, hnext, hrest⟩ := bind_eq_ok.mp h
      exact (continues_cycle hnext).trans (ih hrest)

/-- What an engine does is what its monitor does with the answers, apart from
the log. -/
theorem exists_cycles_of_after {engine later : Engine} {o : Overflow} {rounds : List Round}
    (h : engine.after o rounds = .ok later) :
    ∃ cycles : List Cycle, cycles.map (·.stamp) = rounds.map (·.2) ∧
      later.monitor.collector = (engine.monitor.after cycles).collector ∧
      later.monitor.store = (engine.monitor.after cycles).store := by
  induction rounds generalizing engine with
  | nil =>
      cases h
      exact ⟨[], rfl, rfl, rfl⟩
  | cons round rest ih =>
      rw [after_cons] at h
      obtain ⟨next, hnext, hrest⟩ := bind_eq_ok.mp h
      obtain ⟨samples, -, hnext⟩ := bind_eq_ok.mp hnext
      cases hnext
      obtain ⟨cycles, hstamps, hcollector, hstore⟩ := ih hrest
      let cycle : Cycle := ⟨round.2, .ofList samples⟩
      have hsame := @Monitor.agree_after (engine.monitor.say (engine.poll o round.1).log)
        engine.monitor rfl rfl (cycle :: cycles)
      exact ⟨cycle :: cycles, congrArg (round.2 :: ·) hstamps, hcollector.trans hsame.1,
        hstore.trans hsame.2⟩

/-- Whatever a cycle asks is answered in time by the router that the engine
began with, after some questions, or not at all. -/
theorem Continues.mem_answers_poll {engine later : Engine} {o : Overflow}
    (h : engine.Continues o later) {conditions : Conditions} {answer : Pair × Attempt}
    (hanswer : answer ∈ (later.poll o conditions).answers) :
    answer.1 ∈ engine.monitor.collector.pairs ∧ ∃ past, answer.2 =
      if isLate engine.monitor.collector.timeoutMs (conditions.delayMs answer.1) then
        .ok (.error .timeout)
      else ((engine.router.asked o past).ask o conditions.host answer.1.1 answer.1.2).attempt := by
  constructor
  · have hmem := List.mem_map_of_mem (f := (·.1)) hanswer
    rw [poll, map_answers_foldl_ask, h.pairs_eq] at hmem
    exact hmem
  · obtain ⟨before, hbefore⟩ := h.router_eq
    rcases mem_answers_foldl_ask hanswer with hanswer | ⟨past, hpast⟩
    · cases hanswer
    · rw [h.timeout_eq, hbefore, ← Router.asked_append] at hpast
      exact ⟨_, hpast⟩

/-- A program that stops does so at an answer of a cycle. -/
theorem exists_answer_of_after {engine : Engine} {o : Overflow} {rounds : List Round}
    {panic : Panic} (h : engine.after o rounds = .error panic) :
    ∃ later conditions, engine.Continues o later ∧
      ∃ answer ∈ (later.poll o conditions).answers, answer.2 = .error panic := by
  induction rounds generalizing engine with
  | nil => cases h
  | cons round rest ih =>
      rw [after_cons] at h
      rcases bind_eq_error.mp h with hcycle | ⟨next, hnext, hrest⟩
      · rcases bind_eq_error.mp hcycle with hsamples | ⟨samples, -, hlater⟩
        · obtain ⟨before, answer, after, hanswers, -, hanswer⟩ := mapM_eq_error.mp hsamples
          refine ⟨engine, round.1, ⟨rfl, rfl, [], rfl⟩, answer, ?_, ?_⟩
          · rw [hanswers]
            exact List.mem_append_right _ List.mem_cons_self
          · obtain ⟨q, attempt⟩ := answer
            cases attempt with
            | error other =>
                cases hanswer
                rfl
            | ok sample => cases hanswer
        · cases hlater
      · obtain ⟨later, conditions, hlater, hstopped⟩ := ih hrest
        exact ⟨later, conditions, (continues_cycle hnext).trans hlater, hstopped⟩

end Engine

end LinkTelemetry
