import LineScript.Proofs.Double.Value
import LineScript.Proofs.Run.Containment
import LineScript.Proofs.Run.Timeless

/-!
# Time

A run touches time in two ways only: it reads the clock for a `log` of the time, and it pauses. Both
are behind the gate of the time features, and a pause is compared with its limit first.
`Execution.sleeps` lists the pauses of a run. One that is too long ends the run where it stands
(`Execution.eq_of_stop`), and no line asks for a negative one (`Line.isForward_of_ofTrimmed`).
`Script.clock_gated` is what follows for scripts.
-/

namespace LineScript

/-! ## Pauses -/

namespace Double

/-- Whether the double is a number that is not below zero, an infinite one included. -/
def isForward : Double → Bool
  | .nan => false
  | .infinite negative => !negative
  | .finite negative _ => !negative

theorem isForward_ofUnits (num den : Nat) : (ofUnits false num den).isForward = true := by
  unfold ofUnits
  split <;> rfl

theorem isForward_ofDecimal (d : Decimal) : (ofDecimal false d).isForward = true := by
  unfold ofDecimal
  split
  · rfl
  · split
    · split
      · rfl
      · exact isForward_ofUnits _ _
    · split
      · rfl
      · exact isForward_ofUnits _ _

end Double

/-- A pause is allowed if and only if it is finite and not longer than the limit. -/
theorem Session.exceeds_eq_false_iff {ms : Double} (hms : ms.isForward = true) {limit : Int} :
    exceeds ms limit = false ↔ ∃ q : Rat, ms.value? = some q ∧ 0 ≤ q ∧ q ≤ limit := by
  have hone : (0 : Rat) < (Double.one : Rat) := by exact_mod_cast Double.one_pos
  cases ms with
  | nan => cases hms
  | infinite negative =>
    cases negative with
    | true => cases hms
    | false => simp [exceeds, Double.value?, Double.units?]
  | finite negative m =>
    cases negative with
    | true => cases hms
    | false =>
      have hle : exceeds (.finite false m) limit = false ↔
          (m.units : Int) ≤ limit * Double.one := by
        simp [exceeds, Double.signedUnits]
      rw [hle, Double.value?_positive]
      constructor
      · intro h
        refine ⟨_, rfl, div_nonneg (Nat.cast_nonneg _) hone.le, ?_⟩
        rw [div_le_iff₀ hone]
        exact_mod_cast h
      · rintro ⟨q, hq, -, hlimit⟩
        cases hq
        rw [div_le_iff₀ hone] at hlimit
        exact_mod_cast hlimit

namespace Session

variable {rules : Rules} {ms : Double} {s : Session}

theorem wait_of_closed [Host] (h : rules.features.time = false) :
    s.wait rules ms = ⟨s, some (.failure (.disabled .time))⟩ :=
  attempt_closed h

end Session

/-- Whether no pause of the statement, or in its loops, is negative. -/
def Statement.isForward : Statement → Bool
  | .wait ms _ => ms.isForward
  | .forLoop _ body _ => body.isForward
  | _ => true

theorem Statement.inherited_isForward :
    Statement.Inherited fun statement => statement.isForward = true :=
  fun _ _ _ h => ⟨h, rfl⟩

namespace Line

theorem isForward_of_wait? {s : Text} {ms : Double} (h : wait? s = some ms) :
    ms.isForward = true := by
  obtain ⟨r, -, h⟩ := Option.bind_eq_some_iff.1 h
  dsimp only at h
  split at h
  · cases h
  · cases h
    exact Double.isForward_ofDecimal _

theorem isForward_of_simple? {s : Text} {statement : Statement} (h : simple? s = some statement) :
    statement.isForward = true := by
  simp only [simple?, Option.orElse_eq_orElse, Option.orElse_eq_or, Option.or_eq_some_iff,
    Option.map_eq_some_iff] at h
  rcases h with ⟨_, -, rfl⟩ | ⟨-, ⟨ms, hms, rfl⟩ | ⟨-, ⟨_, -, rfl⟩ | ⟨-, ⟨_, -, rfl⟩⟩⟩⟩
  · rfl
  · exact isForward_of_wait? hms
  · rfl
  · rfl

/-- No line of the standard dialect asks for a negative pause. -/
theorem isForward_of_ofTrimmed {s : Text} {statement : Statement}
    (h : ofTrimmed s = .statement statement) :
    statement.isForward = true := by
  refine statement_induction (P := fun _ statement => statement.isForward = true) ?_ ?_ ?_ ?_ ?_ h
  · exact fun _ => rfl
  · exact fun _ => rfl
  · exact fun _ => rfl
  · exact fun _ _ hs => isForward_of_simple? hs
  · exact fun _ _ _ _ _ hbody => hbody

end Line

/-- No line of the fast dialect asks for a negative pause. -/
theorem Statement.isForward_ofFastText (line : Text) : (ofFastText line).isForward = true := by
  refine fastText_cases (P := fun _ statement => statement.isForward = true) ?_ ?_ ?_ ?_ line
  · exact fun _ => rfl
  · exact fun _ => rfl
  · exact fun _ _ _ _ _ => rfl
  · exact fun _ _ hs => Line.isForward_of_simple? hs

/-- The pause that a `wait` asks for. -/
def Event.wait? : Event → Option Double
  | .statement (.wait ms _) _ => some ms
  | _ => none

theorem Event.exists_of_wait? {e : Event} {ms : Double} (h : e.wait? = some ms) :
    ∃ line s, e = .statement (.wait ms line) s := by
  unfold Event.wait? at h
  split at h
  · cases h
    exact ⟨_, _, rfl⟩
  · cases h

/-- The pauses that an event makes, in milliseconds. -/
def Event.pauses [Host] (rules : Rules) : Event → List Double
  | .statement (.wait ms _) s => if (s.wait rules ms).stop.isNone then [ms] else []
  | _ => []

namespace Execution

variable {rules : Rules} {s : Session} {events : List Event} {o : Outcome}

/-- A statement that is no loop makes a pause if it is a `wait` that does not stop the run. -/
theorem sleeps_run [Host] (rules : Rules) {statement : Statement}
    (hsimple : statement.isSimple = true) (s : Session) :
    (statement.run rules s).session.sleeps.toList =
      s.sleeps.toList ++ ((Event.statement statement s).pauses rules).map
        (·.div (.ofInt 1000)) := by
  have heffect := Statement.effect_run rules s hsimple
  generalize ho : statement.run rules s = o at heffect
  cases heffect with
  | skip | assign | assignList | declare | declareList | log =>
    simp [Event.pauses, Session.assign, Session.assignList, Session.write]
  | wait ms line _ _ _ =>
    rw [Statement.run] at ho
    simp [Event.pauses, ho, Session.afterPause]
  | stop _ reason =>
    cases statement with
    | wait ms line =>
      rw [Statement.run] at ho
      simp [Event.pauses, ho]
    | skip | assign | assignList | declare | log | invalid | forLoop => simp [Event.pauses]

/-- A run keeps the pauses made before and adds those of its events. -/
theorem sleeps [Host] (h : Execution rules s events o) :
    o.session.sleeps.toList =
      s.sleeps.toList ++ (events.flatMap (Event.pauses rules)).map (·.div (.ofInt 1000)) := by
  induction h with
  | done | refuse => simp
  | @step statement s t events o hsimple hrun _ ih =>
    have ht := sleeps_run rules hsimple s
    rw [hrun] at ht
    rw [ih, ht, List.flatMap_cons, List.map_append, List.append_assoc]
  | @stop statement s t reason hsimple hrun =>
    have ht := sleeps_run rules hsimple s
    rw [hrun] at ht
    rw [ht, List.flatMap_cons, List.flatMap_nil, List.append_nil]
  | loop counter body line _ ih => simp [ih, Event.pauses]
  | guard _ ih => simp [ih, Session.write, Event.pauses]

end Execution

/-! ## Scripts -/

namespace Script

/-- Whether a statement of the script reads the clock, at any depth. -/
def readsClock [Host] (code : Text) : Bool :=
  if (Features.ofLines (lines code)).fast then
    (lines code).any fun line => (Statement.ofFastText line).readsClock
  else (Node.parse (lines code)).any Node.anyReadsClock

/-- The pauses that a run makes, in milliseconds and in order. -/
def pauses [Host] (limits : Limits) (clock : Double) (code : Text) : List Double :=
  (events limits clock code).flatMap (Event.pauses (rules limits code))

variable {limits : Limits} {code : Text}

theorem timeless [Host] (limits : Limits)
    (h : (Features.ofLines (lines code)).time = false ∨ readsClock code = false) :
    Timeless fun s =>
      if (rules limits code).features.fast then s.runFast (rules limits code) (lines code)
      else s.runStandard (rules limits code) (lines code) := by
  unfold readsClock at h
  by_cases hfast : (Features.ofLines (lines code)).fast = true
  · have hrules : (rules limits code).features.fast = true := hfast
    simp only [hrules, if_true]
    refine timeless_fast (h.imp_right fun hnone => ?_)
    rw [if_pos hfast, List.any_eq_false] at hnone
    simpa using hnone
  · have hrules : ¬(rules limits code).features.fast = true := hfast
    simp only [hrules]
    refine timeless_standard (h.imp_right fun hnone => ?_)
    rwa [if_neg hfast] at hnone

/-- A script that does not read the clock runs alike, at whatever time it is run. -/
theorem run_eq_of_timeless [Host] (limits : Limits)
    (h : (Features.ofLines (lines code)).time = false ∨ readsClock code = false)
    (clock clock' : Double) :
    run limits clock code = run limits clock' code := by
  obtain ⟨after, hrun⟩ := timeless limits h { clock := clock' } clock
  have houtcome : outcome limits clock code = (outcome limits clock' code).setClock after := hrun
  rw [run_eq, run_eq, houtcome]
  rfl

/-- Without the time features no exception leaves a run. -/
theorem exists_report_of_untimed [Host] (limits : Limits)
    (h : (Features.ofLines (lines code)).time = false) (clock : Double) :
    ∃ report, run limits clock code = .ok report := by
  refine exists_report limits clock code fun x hstop => ?_
  obtain ⟨e, -, hraises⟩ :=
    ((execution limits clock code).exception_iff Namespace.safe_empty).1 hstop
  have htime : (Features.ofLines (lines code)).time = true := hraises.exists_statement.1
  rw [h] at htime
  cases htime

theorem sleeps_eq [Host] (limits : Limits) (clock : Double) (code : Text) :
    (outcome limits clock code).session.sleeps.toList =
      (pauses limits clock code).map (·.div (.ofInt 1000)) := by
  rw [(execution limits clock code).sleeps]
  rfl

theorem isForward_of_events [Host] (limits : Limits) (clock : Double) (code : Text) :
    ∀ e ∈ events limits clock code, e.Every fun statement => statement.isForward = true := by
  unfold events
  dsimp only
  split
  · exact Session.every_fastEvents Statement.inherited_isForward _
      (fun line _ => Statement.isForward_ofFastText line) _
  · exact Session.every_standardEvents Statement.inherited_isForward
      (fun _ _ => Line.isForward_of_ofTrimmed)
      (fun _ _ => rfl) _ _ _

/-- Each pause is one of a `wait` that a run executes and that does not stop it. -/
theorem exists_of_mem_pauses [Host] {clock ms : Double} (h : ms ∈ pauses limits clock code) :
    ∃ line s, .statement (.wait ms line) s ∈ events limits clock code ∧
      (s.wait (rules limits code) ms).stop = none := by
  obtain ⟨e, he, hms⟩ := List.mem_flatMap.1 h
  unfold Event.pauses at hms
  split at hms
  · next ms' line s =>
    split at hms
    · next hstop =>
      cases List.mem_singleton.1 hms
      exact ⟨line, s, he, Option.isNone_iff_eq_none.1 hstop⟩
    · cases hms
  · cases hms

theorem pauses_eq_nil [Host] (h : (Features.ofLines (lines code)).time = false) (limits : Limits)
    (clock : Double) :
    pauses limits clock code = [] := by
  refine List.eq_nil_iff_forall_not_mem.2 fun ms hms => ?_
  obtain ⟨line, s, -, hstop⟩ := exists_of_mem_pauses hms
  have htime : (rules limits code).features.time = false := h
  rw [Session.wait_of_closed htime] at hstop
  cases hstop

theorem exists_value_of_mem_pauses [Host] (h : (Features.ofLines (lines code)).time = true)
    {clock ms : Double} (hms : ms ∈ pauses limits clock code) :
    ∃ q : Rat, ms.value? = some q ∧ 0 ≤ q ∧ q ≤ limits.wait := by
  obtain ⟨line, s, he, hstop⟩ := exists_of_mem_pauses hms
  rw [← Session.exceeds_eq_false_iff (isForward_of_events limits clock code _ he)]
  cases hexceeds : Session.exceeds ms limits.wait with
  | false => rfl
  | true =>
    have hrun : (s.wait (rules limits code) ms) = ⟨s, some (.longPause ⟨ms, limits.wait⟩)⟩ :=
      Statement.run_wait_of_exceeds line h hexceeds
    rw [hrun] at hstop
    cases hstop

/-- A pause that is too long ends the run before it is made. -/
theorem outcome_of_exceeds [Host] (h : (Features.ofLines (lines code)).time = true)
    {clock ms : Double} {line : Text} {s : Session}
    (he : .statement (.wait ms line) s ∈ events limits clock code)
    (hms : ¬∃ q : Rat, ms.value? = some q ∧ q ≤ limits.wait) :
    outcome limits clock code = ⟨s, some (.longPause ⟨ms, limits.wait⟩)⟩ := by
  have hexceeds : Session.exceeds ms limits.wait = true := by
    rw [← Bool.not_eq_false,
      Session.exceeds_eq_false_iff (isForward_of_events limits clock code _ he)]
    rintro ⟨q, hq, -, hle⟩
    exact hms ⟨q, hq, hle⟩
  have hrun : Statement.run (rules limits code) (.wait ms line) s =
      ⟨s, some (.longPause ⟨ms, limits.wait⟩)⟩ :=
    Statement.run_wait_of_exceeds line h hexceeds
  rw [(execution limits clock code).eq_of_stop rfl he (by simp [hrun]), hrun]

theorem sleeps_of_run [Host] {clock : Double} {report : Report}
    (h : run limits clock code = .ok report) :
    report.sleeps = (outcome limits clock code).session.sleeps.toList := by
  rw [run_eq, Report.ofOutcome] at h
  split at h <;> cases h <;> rfl

/-- Without the time features a script has one report at whatever time it is run, and makes no
pause. With them each pause is that of a `wait`, and not longer than the limit; a longer one ends
the run and is not made. The report then depends on the time at most if the script reads the
clock. -/
theorem clock_gated [Host] (limits : Limits) (code : Text) :
    ((Features.ofLines (lines code)).time = false →
      ∃ report, report.sleeps = [] ∧ ∀ clock, run limits clock code = .ok report) ∧
    ((Features.ofLines (lines code)).time = true →
      (∀ clock,
        (outcome limits clock code).session.sleeps.toList =
          (pauses limits clock code).map (·.div (.ofInt 1000)) ∧
        (∀ ms ∈ pauses limits clock code, ∃ q : Rat, ms.value? = some q ∧ 0 ≤ q ∧ q ≤ limits.wait) ∧
        (limits.wait < 0 → (outcome limits clock code).session.sleeps.toList = []) ∧
        ∀ ms line s, .statement (.wait ms line) s ∈ events limits clock code →
          (¬∃ q : Rat, ms.value? = some q ∧ q ≤ limits.wait) →
            outcome limits clock code = ⟨s, some (.longPause ⟨ms, limits.wait⟩)⟩) ∧
      (readsClock code = false →
        (∀ clock clock', run limits clock code = run limits clock' code) ∧
        ∀ clock, Served limits clock code →
          ∃ report, ∀ clock', run limits clock' code = .ok report)) := by
  refine ⟨fun htime => ?_,
    fun htime => ⟨fun clock => ⟨sleeps_eq limits clock code, ?_, ?_, ?_⟩, fun hnone => ?_⟩⟩
  · obtain ⟨report, hreport⟩ := exists_report_of_untimed limits htime (.zero false)
    refine ⟨report, ?_, fun clock => (run_eq_of_timeless limits (.inl htime) _ _).trans hreport⟩
    rw [sleeps_of_run hreport, sleeps_eq, pauses_eq_nil htime, List.map_nil]
  · exact fun ms hms => exists_value_of_mem_pauses htime hms
  · intro hnegative
    have hnil : pauses limits clock code = [] := by
      refine List.eq_nil_iff_forall_not_mem.2 fun ms hms => ?_
      obtain ⟨q, -, hzero, hle⟩ := exists_value_of_mem_pauses htime hms
      have : (0 : Rat) ≤ limits.wait := hzero.trans hle
      exact absurd (by exact_mod_cast this) (Int.not_le.2 hnegative)
    rw [sleeps_eq, hnil, List.map_nil]
  · exact fun ms line s he hms => outcome_of_exceeds htime he hms
  · have halike := run_eq_of_timeless limits (.inr hnone)
    refine ⟨halike, fun clock hserved => ?_⟩
    obtain ⟨report, hreport⟩ := hserved.exists_report
    exact ⟨report, fun clock' => (halike clock' clock).trans hreport⟩

/-- A loop of short pauses, and then a longer one. -/
def patient : Text :=
  ("!implement time\n!implement condition looping\n" ++
    "For [i] = 0, [i] =? 0, wait(5)\nlog([i])\nwait(20)\nlog(1)").toList

/-- A `log` of the time behind a closed gate. -/
def untimed : Text := "log(1)\nlog(time.now)".toList

theorem clock_gated_patient :
    let limits : Limits := ⟨1, 2, 10⟩
    (Features.ofLines (lines untimed)).time = false ∧
      (∃ report, report.sleeps = [] ∧ ∀ clock, run limits clock untimed = .ok report) ∧
      (Features.ofLines (lines patient)).time = true ∧ readsClock patient = false ∧
      pauses limits (.ofInt 7) patient = [.ofInt 5, .ofInt 5] ∧
      (∀ ms ∈ pauses limits (.ofInt 7) patient, ∃ q : Rat, ms.value? = some q ∧ 0 ≤ q ∧
        q ≤ limits.wait) ∧
      (∃ line s, .statement (.wait (.ofInt 20) line) s ∈ events limits (.ofInt 7) patient ∧
        outcome limits (.ofInt 7) patient = ⟨s, some (.longPause ⟨.ofInt 20, 10⟩)⟩) ∧
      ∃ report, ∀ clock, run limits clock patient = .ok report := by
  intro limits
  have hclosed : (Features.ofLines (lines untimed)).time = false := by decide +kernel
  have hopen : (Features.ofLines (lines patient)).time = true := by decide +kernel
  have hnone : readsClock patient = false := by decide +kernel
  have hlast : (events limits (.ofInt 7) patient).getLast?.bind Event.wait? = some (.ofInt 20) := by
    decide +kernel
  have hvalue : (Double.ofInt 20).value? = some 20 := by decide +kernel
  have hserved : Served limits (.ofInt 7) patient :=
    ⟨by decide +kernel, by decide +kernel,
      fun _ => Host.lt_pow_digits (by decide : 2 ≤ 640) (by decide)⟩
  obtain ⟨hpauses, htimeless⟩ := (clock_gated limits patient).2 hopen
  obtain ⟨-, hbounds, -, hlong⟩ := hpauses (.ofInt 7)
  refine ⟨hclosed, (clock_gated limits untimed).1 hclosed, hopen, hnone, by decide +kernel,
    hbounds, ?_, (htimeless hnone).2 (.ofInt 7) hserved⟩
  obtain ⟨e, he, hwait⟩ := Option.bind_eq_some_iff.1 hlast
  obtain ⟨line, s, rfl⟩ := Event.exists_of_wait? hwait
  have hmem := List.mem_of_getLast? he
  refine ⟨line, s, hmem, hlong _ line s hmem ?_⟩
  rintro ⟨q, hq, hle⟩
  rw [hvalue] at hq
  cases hq
  exact absurd hle (by decide)

end Script

end LineScript
