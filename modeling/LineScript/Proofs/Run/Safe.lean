import LineScript.Proofs.Expression.Stop
import LineScript.Proofs.Run.Effect

/-!
# Safe integers over whole runs

A session is reachable if some runs, in either dialect and under any rules, lead to it from an empty
one or pass it on their way, also runs that stop. Its names then have safe values only: whatever a
script computes, no integer of `2 ^ 53` or more is ever stored. `Event.Raises` says how an
exception can leave a statement whose values are safe: the clock has no whole milliseconds, the host
does not make a pause, or it cannot write the limit on pauses. A run is left in no other way
(`Execution.exception_iff`).
-/

namespace LineScript

/-- The whole part of a double has few digits: 342 are enough. -/
theorem Double.natAbs_truncate?_lt {d : Double} {n : Int} {k : Nat} (hk : ratioBits + 2 ≤ 3 * k)
    (h : d.truncate? = some n) : n.natAbs < 10 ^ k := by
  cases d with
  | nan | infinite => cases h
  | finite negative m =>
    have habs : n.natAbs = m.units / one := by
      cases h
      cases negative with
      | false => exact Int.natAbs_natCast _
      | true => exact (Int.natAbs_neg _).trans (Int.natAbs_natCast _)
    have hunits : m.units < one * (ratioBound * Nat.pow 2 2) := by
      have hlt := m.units_lt
      rwa [bound_eq, Nat.mul_assoc, Nat.mul_left_comm] at hlt
    calc n.natAbs = m.units / one := habs
      _ < ratioBound * Nat.pow 2 2 := Nat.div_lt_of_lt_mul hunits
      _ = 2 ^ (ratioBits + 2) := by
        unfold ratioBound
        simp only [Nat.pow_eq, ← Nat.pow_add]
      _ ≤ 2 ^ (3 * k) := Nat.pow_le_pow_right (by decide) hk
      _ = (2 ^ 3) ^ k := Nat.pow_mul 2 3 k
      _ ≤ 10 ^ k := Nat.pow_le_pow_left (by decide) k

theorem Session.milliseconds?_eq (s : Session) :
    s.milliseconds? = Exception.ofOption (.clock (s.clock.mul (.ofInt 1000)).isInfinite)
      (s.clock.mul (.ofInt 1000)).truncate? := rfl

theorem Session.natAbs_milliseconds?_lt (s : Session) {n : Int} (h : s.milliseconds? = .ok n) :
    ∃ k, k ≤ 640 ∧ n.natAbs < 10 ^ k := by
  rw [milliseconds?_eq] at h
  cases hms : (s.clock.mul (.ofInt 1000)).truncate? with
  | none =>
    rw [hms] at h
    cases h
  | some m =>
    rw [hms] at h
    cases h
    exact ⟨342, by decide, Double.natAbs_truncate?_lt (by decide) hms⟩

namespace Session

/-- The sessions that runs lead to or pass, from empty sessions on. -/
inductive Reachable [Host] : Session → Prop
  | start (clock : Double) : Reachable { clock := clock }
  | standard {s : Session} (rules : Rules) (lines : List Text) :
    Reachable s → Reachable (s.runStandard rules lines).session
  | fast {s : Session} (rules : Rules) (lines : List Text) : Reachable s →
    Reachable (s.runFast rules lines).session
  | withinStandard {s : Session} {rules : Rules} {lines : List Text} {e : Event} :
    Reachable s → e ∈ s.standardEvents rules lines → Reachable e.before
  | withinFast {s : Session} {rules : Rules} {lines : List Text} {e : Event} :
    Reachable s → e ∈ s.fastEvents rules lines → Reachable e.before

theorem safe_effect [Host] {rules : Rules} {s : Session} {statement : Statement} {o : Outcome}
    (hs : s.names.Safe) (h : statement.Effect rules s o) : o.session.names.Safe := by
  cases h with
  | skip | stop | log | wait => exact hs
  | assign name _ _ hv | declare _ name _ _ hv =>
    exact Namespace.safe_set hs name (Literal.safe_of_evalText hs hv)
  | assignList name _ _ hvs | declareList _ name _ _ hvs =>
    exact Namespace.safe_set hs name (.list _ (Literal.safe_of_evalItems hs hvs))

/-- A run keeps the values safe, where it ends and wherever it passes. -/
theorem safe_execution [Host] {rules : Rules} {s : Session} {events : List Event} {o : Outcome}
    (hs : s.names.Safe) (h : Execution rules s events o) :
    o.session.names.Safe ∧ ∀ e ∈ events, e.before.names.Safe :=
  h.invariant (P := fun s => s.names.Safe)
    (fun _ s hsimple hs => safe_effect hs (Statement.effect_run rules s hsimple))
    (fun _ hs => hs) hs

/-- What holds of empty sessions and is kept by every statement that is no loop and by every guard
line holds of all reachable sessions. -/
theorem Reachable.invariant [Host] {P : Session → Prop} (hstart : ∀ clock, P { clock := clock })
    (hstep : ∀ (rules : Rules) (statement : Statement) s, statement.isSimple = true → P s →
      P (statement.run rules s).session)
    (hguard : ∀ s, P s → P (s.write guardLine)) {s : Session} (h : s.Reachable) : P s := by
  induction h with
  | start clock => exact hstart clock
  | standard rules lines _ ih =>
    exact ((execution_standard rules lines _).invariant (hstep rules) hguard ih).1
  | fast rules lines _ ih =>
    exact ((execution_fast rules lines _).invariant (hstep rules) hguard ih).1
  | withinStandard _ he ih =>
    exact ((execution_standard _ _ _).invariant (hstep _) hguard ih).2 _ he
  | withinFast _ he ih => exact ((execution_fast _ _ _).invariant (hstep _) hguard ih).2 _ he

theorem safe_of_reachable [Host] {s : Session} (h : s.Reachable) : s.names.Safe :=
  h.invariant (P := fun s => s.names.Safe) (fun _ => Namespace.safe_empty)
    (fun rules _ s hsimple hs => safe_effect hs (Statement.effect_run rules s hsimple))
    (fun _ hs => hs)

end Session

/-! ## Exceptions -/

/-- How an exception leaves a statement whose values are safe. -/
inductive Event.Raises [Host] (rules : Rules) (e : Event) : Exception → Prop
  /-- The clock has no whole milliseconds. -/
  | clock {c : Double} : e.reading? rules = some c → (c.mul (.ofInt 1000)).truncate? = none →
    Raises rules e (.clock (c.mul (.ofInt 1000)).isInfinite)
  /-- The host does not make the pause. -/
  | pause {seconds : Double} {message : Text} : e.pause? rules = some seconds →
    Host.refusal? seconds = some message → Raises rules e (.pause message)
  /-- The pause is longer than the limit, which cannot be written. -/
  | limit {x : Exception} : e.isLongPause rules = true → Text.write? rules.limits.wait = .error x →
    Raises rules e x

namespace Statement

variable {rules : Rules} {s : Session} {e : Exception}

theorem exists_of_proceed {α : Type} {result : Except Stop α} {next : α → Outcome}
    (h : (s.proceed result next).stop = some (.exception e)) :
    result = .error (.exception e) ∨ ∃ a, result = .ok a ∧ (next a).stop = some (.exception e) := by
  cases result with
  | ok a => exact .inr ⟨a, rfl, h⟩
  | error reason =>
    cases h
    exact .inl rfl

theorem exists_of_attempt {α : Type} {result : Except Failure α} {next : α → Outcome}
    (h : (s.attempt result next).stop = some (.exception e)) :
    ∃ a, result = .ok a ∧ (next a).stop = some (.exception e) := by
  cases result with
  | ok a => exact ⟨a, rfl, h⟩
  | error f => cases h

/-- A safe value is written, or nested too deep. -/
theorem stop_emit_ne [Host] {v : Value} (hv : v.Safe) : (s.emit v).stop ≠ some (.exception e) := by
  intro h
  rw [Session.emit, Value.render?_of_safe hv] at h
  split at h <;> cases h

/-- The milliseconds of a clock are written. -/
theorem stop_emit_clock_ne [Host] {n : Int} (hn : s.milliseconds? = .ok n) :
    (s.emit (.number (.int n))).stop ≠ some (.exception e) := by
  intro h
  obtain ⟨k, hk, hlt⟩ := s.natAbs_milliseconds?_lt hn
  have hwrite : (Value.number (.int n)).render? = .ok (Text.ofInt n) := by
    rw [Value.render?, Value.renderWithin?, Number.write?, Text.write?_of_lt hk hlt]
    rfl
  rw [Session.emit, hwrite] at h
  cases h

theorem evalArgument_cases [Host] (hs : s.names.Safe) (argument : Text) :
    (∃ v, Session.evalArgument s.names argument = .ok v ∧ v.Safe) ∨
      ∃ f, Session.evalArgument s.names argument = .error (.failure f) := by
  rw [Session.evalArgument]
  obtain ⟨v, hv, hsafe⟩ | ⟨f, hf, -⟩ := Expression.evalText_safe hs argument
  · rw [hv]
    exact .inl ⟨v, rfl, hsafe⟩
  · rw [hf]
    cases f <;> exact .inr ⟨_, rfl⟩

theorem raises_log [Host] {argument line : Text} (hs : s.names.Safe)
    (h : (s.log rules argument).stop = some (.exception e)) :
    (Event.statement (.log argument line) s).Raises rules e := by
  unfold Session.log at h
  split at h
  · next hargument =>
    obtain ⟨_, hgate, h⟩ := exists_of_attempt h
    have hreading : (Event.statement (.log argument line) s).reading? rules = some s.clock :=
      if_pos ⟨hargument, allows_of_require hgate⟩
    rcases exists_of_proceed h with hnone | ⟨n, hn, h⟩
    · cases hms : (s.clock.mul (.ofInt 1000)).truncate? with
      | some n =>
        rw [s.milliseconds?_eq, hms] at hnone
        cases hnone
      | none =>
        rw [s.milliseconds?_eq, hms] at hnone
        cases hnone
        exact .clock hreading hms
    · exact absurd h (stop_emit_clock_ne (eq_ok_of_mapError hn))
  · split at h
    · next r _ =>
      obtain ⟨v, hv, h⟩ := exists_of_attempt h
      exact absurd h (stop_emit_ne (Reference.safe_of_read hs hv))
    · obtain ⟨v, hv, hsafe⟩ | ⟨f, hf⟩ := evalArgument_cases hs argument
      · rw [hv] at h
        exact absurd h (stop_emit_ne hsafe)
      · rw [hf] at h
        cases h

theorem raises_wait [Host] {ms : Double} {line : Text}
    (h : (s.wait rules ms).stop = some (.exception e)) :
    (Event.statement (.wait ms line) s).Raises rules e := by
  unfold Session.wait at h
  obtain ⟨_, hgate, h⟩ := exists_of_attempt h
  have htime : rules.features.time = true := allows_of_require hgate
  split at h
  · next hexceeds =>
    cases hwrite : Text.write? rules.limits.wait with
    | ok t =>
      rw [Stop.longPause, hwrite] at h
      cases h
    | error x =>
      rw [Stop.longPause, hwrite] at h
      cases h
      exact .limit (Bool.and_eq_true_iff.2 ⟨htime, hexceeds⟩) hwrite
  · next hle =>
    unfold Session.sleep at h
    split at h
    · next message hrefused =>
      cases h
      exact .pause (if_pos ⟨htime, Bool.eq_false_iff.2 hle⟩) hrefused
    · cases h

theorem stop_attempt_ne {α : Type} {result : Except Failure α} {next : α → Session} :
    (s.attempt result fun a => ⟨next a, none⟩).stop ≠ some (.exception e) := by
  intro h
  obtain ⟨a, -, h⟩ := exists_of_attempt h
  cases h

/-- The exceptions of a statement that is no loop. -/
theorem raises_of_run [Host] {statement : Statement} (hsimple : statement.isSimple = true)
    (hs : s.names.Safe) (h : (statement.run rules s).stop = some (.exception e)) :
    (Event.statement statement s).Raises rules e := by
  cases statement with
  | skip | invalid => cases h
  | assign | assignList => exact absurd h stop_attempt_ne
  | declare kind name value line =>
    rw [run, Session.declare] at h
    split at h
    · exact absurd h stop_attempt_ne
    · exact absurd h stop_attempt_ne
  | log argument line => exact raises_log hs h
  | wait ms line => exact raises_wait h
  | forLoop => cases hsimple

end Statement

/-- The event is a statement that an exception stops, and the time features are on. -/
theorem Event.Raises.exists_statement [Host] {rules : Rules} {e : Event} {x : Exception}
    (h : e.Raises rules x) :
    rules.features.time = true ∧ ∃ statement s, e = .statement statement s ∧
      statement.isSimple = true ∧ (statement.run rules s).stop = some (.exception x) := by
  cases h with
  | clock hreading hnone =>
    obtain ⟨line, s, rfl, htime, rfl⟩ := exists_of_reading? hreading
    refine ⟨htime, _, s, rfl, rfl, ?_⟩
    rw [Statement.run, Session.log, if_pos rfl, Statement.require_time htime, Session.logClock,
      s.milliseconds?_eq, hnone]
    rfl
  | pause hpause hrefused =>
    obtain ⟨ms, line, s, rfl, htime, hle, rfl⟩ := exists_of_pause? hpause
    refine ⟨htime, _, s, rfl, rfl, ?_⟩
    rw [Statement.run, Session.wait, Statement.require_time htime, hle, Session.sleep, hrefused]
    rfl
  | limit hlong hwrite =>
    obtain ⟨ms, line, s, rfl, htime, hexceeds⟩ := exists_of_isLongPause hlong
    refine ⟨htime, _, s, rfl, rfl, ?_⟩
    rw [Statement.run_wait_of_exceeds line htime hexceeds, Stop.longPause, hwrite]

/-- A run over safe values is left by an exception just where a statement raises it. -/
theorem Execution.exception_iff [Host] {rules : Rules} {s : Session} {events : List Event}
    {o : Outcome} {x : Exception} (h : Execution rules s events o) (hs : s.names.Safe) :
    o.stop = some (.exception x) ↔ ∃ e ∈ events, e.Raises rules x := by
  constructor
  · intro ho
    induction h with
    | done => cases ho
    | refuse hfails =>
      obtain ⟨f, rfl⟩ := hfails hs
      cases ho
    | @step statement s t events o hsimple hrun _ ih =>
      have ht := Session.safe_effect hs (Statement.effect_run rules s hsimple)
      rw [hrun] at ht
      obtain ⟨e, he, hraises⟩ := ih ht ho
      exact ⟨e, List.mem_cons_of_mem _ he, hraises⟩
    | loop _ _ _ _ ih | guard _ ih =>
      obtain ⟨e, he, hraises⟩ := ih hs ho
      exact ⟨e, List.mem_cons_of_mem _ he, hraises⟩
    | @stop statement s t reason hsimple hrun =>
      refine ⟨_, List.mem_cons_self, Statement.raises_of_run hsimple hs ?_⟩
      rw [hrun]
      exact ho
  · rintro ⟨e, he, hraises⟩
    obtain ⟨-, statement, t, rfl, hsimple, hstop⟩ := hraises.exists_statement
    rw [h.eq_of_stop hsimple he (by simp [hstop]), hstop]

/-- All integers of reachable sessions are safe, and literals and expressions over safe values
denote safe values. No exception is raised inside an expression over them, and none leaves it: each
failure of its own is at a column. -/
theorem safe_integers [Host] :
    (∀ s : Session, s.Reachable → s.names.Safe) ∧
      ∀ ns : Namespace, ns.Safe → ∀ text : Text,
        (∀ v, Literal.evalText ns text = .ok v → v.Safe) ∧
        (∀ v, Expression.evalText ns text = .ok v → v.Safe) ∧
        (∀ e, Expression.evalTrimmed ns (Text.trim text) ≠ .error (.exception e)) ∧
        (∀ e, Expression.evalText ns text ≠ .error (.exception e)) ∧
        ∀ argument problem column,
          Expression.evalText ns text = .error (.failure (.expression argument problem column)) →
            (∃ c, column = some c) ∧ ∀ e h, problem ≠ .exception e h := by
  refine ⟨fun s => Session.safe_of_reachable, fun ns hs text => ?_⟩
  refine ⟨fun v hv => Literal.safe_of_evalText hs hv, ?_⟩
  rw [Expression.evalText_eq hs]
  obtain ⟨v, hv, hsafe⟩ | ⟨f, hf, hlocated⟩ := Expression.evalTrimmed_safe hs (Text.trim text)
  · rw [hv]
    refine ⟨?_, nofun, nofun, nofun⟩
    rintro _ ⟨⟩
    exact hsafe
  · rw [hf]
    refine ⟨nofun, nofun, nofun, ?_⟩
    rintro argument problem column ⟨⟩
    exact ⟨Option.isSome_iff_exists.1 hlocated.1, hlocated.2⟩

/-- A run that stores a list of a number that is no longer an integer and of the least safe integer,
and then stops. -/
def Session.afterStop : Session :=
  (({} : Session).runStandard {}
    ["/y/ = #9007199254740993, -9007199254740991#".toList, "log([z])".toList]).session

theorem safe_integers_afterStop :
    (match Session.afterStop.names.get? "y".toList with
      | some (.list _ [.number (.real _), .number (.int n)]) => n == -9007199254740991
      | _ => false) = true ∧
      Session.afterStop.Reachable ∧ Session.afterStop.names.Safe ∧
        (∀ v, Expression.evalText Session.afterStop.names "/y/<1> * /y/<1>".toList =
          .ok v → v.Safe) ∧
        ∀ e, Expression.evalTrimmed Session.afterStop.names
          (Text.trim "/y/<0> / 0 % Infinity".toList) ≠
          .error (.exception e) := by
  have hr : Session.afterStop.Reachable := .standard {} _ (.start _)
  have hs := safe_integers.1 _ hr
  exact ⟨by decide +kernel, hr, hs, (safe_integers.2 _ hs _).2.1, (safe_integers.2 _ hs _).2.2.1⟩

end LineScript
