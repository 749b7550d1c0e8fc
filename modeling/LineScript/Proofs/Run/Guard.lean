import LineScript.Proofs.Run.Ending

/-!
# Loops and their guard

A loop makes rounds, each after a test that holds, until its test fails or does not hold, a round
stops the run, or it has made as many rounds as its limit allows. `Rounds` says which rounds a loop
completes, `Ending` how it can end after them. `Session.repeatUpTo_ending` says that every loop
completes rounds and ends so, and `Session.repeatUpTo_of_rounds` that a loop which completes all
rounds allowed writes the guard line whatever its test would say then. `Node.run_loop` is what
follows for the loops of a tree: the loop itself writes the guard line exactly if its rounds are all
that the limit allows, as the last thing it does.
-/

namespace LineScript

/-- A loop as a run meets it: what it sets before its first test, its test, its body, and its
limit. -/
structure Loop where
  start : Session → Except Failure Session
  test : Session → Except Stop Bool
  body : Session → Outcome
  limit : Int

/-- The loop that a node is. A loop with a counter first gives it the start value. -/
def Node.loop? [Host] (rules : Rules) : Node → Option Loop
  | .during condition body _ =>
    some ⟨.ok, Session.test condition, Node.runAll rules body, rules.limits.during⟩
  | .statement (.forLoop counter body _) =>
    some ⟨fun s => (Literal.evalText s.names counter.start).map (s.assign counter.name),
      Session.testCounter counter, body.run rules, rules.limits.loop⟩
  | _ => none

namespace Session

variable {test : Session → Except Stop Bool} {body : Session → Outcome}

theorem write_ne (s : Session) (line : Text) : s.write line ≠ s := by
  intro h
  have hsize := congrArg (fun t : Session => t.output.size) h
  simp [write] at hsize

/-- From the session `s` a loop completes one round in each of the sessions `starts`, one after the
other, and is in the session `last` then. Its test holds where a round starts. -/
inductive Rounds (test : Session → Except Stop Bool) (body : Session → Outcome) :
    (s : Session) → (starts : List Session) → (last : Session) → Prop
  | none (s : Session) : Rounds test body s [] s
  | round {s t last : Session} {starts : List Session} :
    test s = .ok true → body s = ⟨t, .none⟩ → Rounds test body t starts last →
      Rounds test body s (s :: starts) last

/-- How a loop that may make `allowed` rounds ends in the session `last`, after `made` rounds. -/
inductive Ending (test : Session → Except Stop Bool) (body : Session → Outcome) (allowed made : Nat)
    (last : Session) : Outcome → Prop
  | guard : made = allowed → Ending test body allowed made last ⟨last.write guardLine, none⟩
  | finished : made < allowed → test last = .ok false →
    Ending test body allowed made last ⟨last, none⟩
  | untested {reason : Stop} :
    made < allowed → test last = .error reason →
      Ending test body allowed made last ⟨last, some reason⟩
  | broken {t : Session} {reason : Stop} :
    made < allowed → test last = .ok true → body last = ⟨t, some reason⟩ →
      Ending test body allowed made last ⟨t, some reason⟩

namespace Ending

variable {allowed made : Nat} {last : Session} {o : Outcome}

theorem succ (h : Ending test body allowed made last o) :
    Ending test body (allowed + 1) (made + 1) last o := by
  cases h with
  | guard hmade => exact .guard (congrArg (· + 1) hmade)
  | finished hmade htest => exact .finished (Nat.succ_lt_succ hmade) htest
  | untested hmade htest => exact .untested (Nat.succ_lt_succ hmade) htest
  | broken hmade htest hbody => exact .broken (Nat.succ_lt_succ hmade) htest hbody

theorem made_le (h : Ending test body allowed made last o) : made ≤ allowed := by
  cases h with
  | guard hmade => exact Nat.le_of_eq hmade
  | finished hmade _ => exact Nat.le_of_lt hmade
  | untested hmade _ => exact Nat.le_of_lt hmade
  | broken hmade _ _ => exact Nat.le_of_lt hmade

/-- The guard line is written after all rounds that are allowed, and only then. -/
theorem eq_guard_iff (h : Ending test body allowed made last o) :
    o = ⟨last.write guardLine, none⟩ ↔ made = allowed := by
  cases h with
  | guard hmade => exact iff_of_true rfl hmade
  | finished hmade _ =>
    refine iff_of_false (fun heq => ?_) (Nat.ne_of_lt hmade)
    exact last.write_ne guardLine (congrArg Outcome.session heq).symm
  | untested hmade _ =>
    exact iff_of_false (fun heq => Option.some_ne_none _ (congrArg Outcome.stop heq))
      (Nat.ne_of_lt hmade)
  | broken hmade _ _ =>
    exact iff_of_false (fun heq => Option.some_ne_none _ (congrArg Outcome.stop heq))
      (Nat.ne_of_lt hmade)

theorem test_of_stop_eq_none (h : Ending test body allowed made last o) (hstop : o.stop = none)
    (hmade : made < allowed) : o.session = last ∧ test last = .ok false := by
  cases h with
  | guard hguard => exact absurd hguard (Nat.ne_of_lt hmade)
  | finished _ htest => exact ⟨rfl, htest⟩
  | untested => cases hstop
  | broken => cases hstop

theorem cases_of_stop_eq_some (h : Ending test body allowed made last o) {reason : Stop}
    (hstop : o.stop = some reason) :
    made < allowed ∧
      (test last = .ok true ∧ o = body last ∨ test last = .error reason ∧
        o = ⟨last, some reason⟩) := by
  cases h with
  | guard => cases hstop
  | finished => cases hstop
  | untested hmade htest =>
    cases hstop
    exact ⟨hmade, .inr ⟨htest, rfl⟩⟩
  | broken hmade htest hbody => exact ⟨hmade, .inl ⟨htest, hbody.symm⟩⟩

end Ending

/-- Every loop completes some rounds and then ends. -/
theorem repeatUpTo_ending (test : Session → Except Stop Bool) (body : Session → Outcome)
    (allowed : Nat) (s : Session) : ∃ starts last, Rounds test body s starts last ∧
      Ending test body allowed starts.length last (repeatUpTo test body allowed s) := by
  induction allowed generalizing s with
  | zero => exact ⟨[], s, .none s, .guard rfl⟩
  | succ allowed ih =>
    rw [repeatUpTo]
    cases htest : test s with
    | error f => exact ⟨[], s, .none s, .untested (Nat.zero_lt_succ _) htest⟩
    | ok holds =>
      cases holds with
      | false => exact ⟨[], s, .none s, .finished (Nat.zero_lt_succ _) htest⟩
      | true =>
        cases hbody : body s with
        | mk t stop =>
          cases stop with
          | some reason => exact ⟨[], s, .none s, .broken (Nat.zero_lt_succ _) htest hbody⟩
          | none =>
            obtain ⟨starts, last, hrounds, hending⟩ := ih t
            exact ⟨s :: starts, last, .round htest hbody hrounds, hending.succ⟩

theorem Rounds.test_eq {s last : Session} {starts : List Session}
    (h : Rounds test body s starts last) :
    ∀ t ∈ starts, test t = .ok true := by
  induction h with
  | none => simp
  | round htest _ _ ih => exact List.forall_mem_cons.2 ⟨htest, ih⟩

/-- Rounds are the same under any test that holds where they start. -/
theorem Rounds.congr {other : Session → Except Stop Bool} {s last : Session} {starts : List Session}
    (h : Rounds test body s starts last) (hother : ∀ t ∈ starts, other t = .ok true) :
    Rounds other body s starts last := by
  induction h with
  | none s => exact .none s
  | round _ hbody _ ih =>
    rw [List.forall_mem_cons] at hother
    exact .round hother.1 hbody (ih hother.2)

/-- After the last round allowed there is no further test: whatever it would say, the guard line is
written. -/
theorem repeatUpTo_of_rounds {s last : Session} {starts : List Session}
    (h : Rounds test body s starts last) :
    repeatUpTo test body starts.length s = ⟨last.write guardLine, none⟩ := by
  induction h with
  | none => rfl
  | round htest hbody _ ih =>
    rw [List.length_cons, repeatUpTo, htest, hbody]
    exact ih

theorem rounds_eq_max (limit : Int) : (rounds limit : Int) = max 1 limit := by
  unfold rounds
  omega

end Session

/-- A loop whose gate is open sets what it sets first, and makes its rounds. -/
theorem Node.run_of_loop? [Host] {rules : Rules} {node : Node} {loop : Loop}
    (h : node.loop? rules = some loop) (hgate : rules.features.allows .looping = true)
    (s : Session) :
    node.run rules s =
      s.attempt (loop.start s)
        (Session.repeatUpTo loop.test loop.body (Session.rounds loop.limit)) := by
  cases node with
  | during condition body line =>
    cases h
    rw [run, Session.attempt_open hgate]
    rfl
  | statement statement =>
    cases statement with
    | forLoop counter body line =>
      cases h
      rw [run, Statement.run, Session.attempt_open hgate, Session.assignText]
      dsimp only
      cases Literal.evalText s.names counter.start with
      | error f => rfl
      | ok v => rfl
    | skip | assign | assignList | declare | log | wait | invalid => cases h
  | conditional | dangling => cases h

/-- A loop whose gate is open either cannot evaluate its start value and does nothing, or makes
rounds from the session that it starts in. It completes at most as many as its limit allows, and one
if that is below one. It writes the guard line itself, once and after all else, if and only if it
completes all of them. Then its test held before each, and any other test that holds there leads to
the same end, since there is no test afterwards. If it ends without that line, its test does not
hold in the session in which it ends. If it stops the run, it does so as the round after the
completed ones does, or since its test fails after these. -/
theorem Node.run_loop [Host] {rules : Rules} {node : Node} {loop : Loop}
    (h : node.loop? rules = some loop) (hgate : rules.features.allows .looping = true)
    (s : Session) :
    (∃ f, loop.start s = .error f ∧ node.run rules s = ⟨s, some (.failure f)⟩) ∨
      ∃ first starts last, loop.start s = .ok first ∧
        Session.Rounds loop.test loop.body first starts last ∧
        (starts.length : Int) ≤ max 1 loop.limit ∧
        (node.run rules s = ⟨last.write Session.guardLine, none⟩ ↔
          (starts.length : Int) = max 1 loop.limit) ∧
        ((starts.length : Int) = max 1 loop.limit →
          (∀ t ∈ starts, loop.test t = .ok true) ∧
            ∀ other : Session → Except Stop Bool, (∀ t ∈ starts, other t = .ok true) →
              Session.repeatUpTo other loop.body (Session.rounds loop.limit) first =
                node.run rules s) ∧
        ((node.run rules s).stop = none → (starts.length : Int) < max 1 loop.limit →
          (node.run rules s).session = last ∧ loop.test last = .ok false) ∧
        ∀ reason, (node.run rules s).stop = some reason →
          (starts.length : Int) < max 1 loop.limit ∧
            (loop.test last = .ok true ∧ node.run rules s = loop.body last ∨
              loop.test last = .error reason ∧ node.run rules s = ⟨last, some reason⟩) := by
  rw [run_of_loop? h hgate]
  cases hstart : loop.start s with
  | error f => exact .inl ⟨f, rfl, rfl⟩
  | ok first =>
    obtain ⟨starts, last, hrounds, hending⟩ :=
      Session.repeatUpTo_ending loop.test loop.body (Session.rounds loop.limit) first
    have hmax := Session.rounds_eq_max loop.limit
    rw [Session.attempt, Failure.lift, Except.mapError, Session.proceed]
    refine .inr ⟨first, starts, last, rfl, hrounds, ?_⟩
    refine ⟨by have := hending.made_le; omega, ?_, ?_, ?_, ?_⟩
    · rw [← hmax, Int.natCast_inj]
      exact hending.eq_guard_iff
    · intro hall
      refine ⟨hrounds.test_eq, fun other hother => ?_⟩
      have hlength : starts.length = Session.rounds loop.limit := by omega
      rw [hending.eq_guard_iff.2 hlength, ← hlength]
      exact Session.repeatUpTo_of_rounds (hrounds.congr hother)
    · intro hstop hlt
      exact hending.test_of_stop_eq_none hstop (by omega)
    · intro reason hstop
      obtain ⟨hlt, hcause⟩ := hending.cases_of_stop_eq_some hstop
      exact ⟨by omega, hcause⟩

/-- A loop that does not end by itself, with another in it. -/
def Node.nestedLoop : Node :=
  .during ⟨"1".toList, "1".toList⟩
    [.statement (.forLoop ⟨"i".toList, "0".toList, "i".toList, "0".toList⟩
      (.log "[i]".toList "log([i])".toList)
      "For [i] = 0, [i] =? 0, log([i])".toList)] "During <1> =? <1> \x7b".toList

theorem Node.run_loop_nested :
    let rules : Rules := ⟨{ looping := true }, ⟨2, -1, 0⟩⟩
    rules.features.allows .looping = true ∧
      (nestedLoop.run rules {}).session.output.toList =
        ["0".toList, Session.guardLine, "0".toList, Session.guardLine, Session.guardLine] ∧
      ∃ loop, nestedLoop.loop? rules = some loop ∧
        ∃ starts last, Session.Rounds loop.test loop.body {} starts last ∧
        starts.length = 2 ∧ nestedLoop.run rules {} = ⟨last.write Session.guardLine, none⟩ := by
  intro rules
  have hstop : (nestedLoop.run rules {}).stop = none := by decide +kernel
  have htest : (Session.test ⟨"1".toList, "1".toList⟩ (nestedLoop.run rules {}).session).toOption =
      some true := by
    decide +kernel
  have hgate : rules.features.allows .looping = true := rfl
  refine ⟨hgate, by decide +kernel, _, rfl, ?_⟩
  have hloop : nestedLoop.loop? rules = some _ := rfl
  obtain ⟨f, hstart, -⟩ | ⟨first, starts, last, hstart, hrounds, hle, hguard, -, hend, -⟩ :=
    run_loop hloop hgate {}
  · cases hstart
  · cases hstart
    have hall : (starts.length : Int) = max 1 rules.limits.during := by
      refine Int.le_antisymm hle (Int.not_lt.1 fun hlt => ?_)
      obtain ⟨hsession, hfalse⟩ := hend hstop hlt
      have hfalse : Session.test ⟨"1".toList, "1".toList⟩ last = .ok false := hfalse
      rw [hsession, hfalse] at htest
      cases htest
    exact ⟨starts, last, hrounds, Int.natCast_inj.1 hall, hguard.2 hall⟩

end LineScript
