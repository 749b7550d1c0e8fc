import LineScript.Proofs.Run.Containment

/-!
# Limits only restrict

Two runs of one script that differ in their limits only do the same until the one with the stricter
limits meets one of them: a loop writes its guard line, or a pause is refused. `Restricts` says so
of a part of a run, in terms of its events. It is kept by what one statement does
(`restricts_statement`), by going on after a step (`Restricts.andThen`) and by loops, whose rounds
are at least as many under the wider limits (`Restricts.ofLoop`), and so holds of trees and of whole
scripts. `Script.run_of_le` is what follows for the reports.
-/

namespace LineScript

/-- One set of limits allows no more than another. -/
instance : LE Limits := ⟨fun a b => a.during ≤ b.during ∧ a.loop ≤ b.loop ∧ a.wait ≤ b.wait⟩

instance (a b : Limits) : Decidable (a ≤ b) :=
  inferInstanceAs (Decidable (a.during ≤ b.during ∧ a.loop ≤ b.loop ∧ a.wait ≤ b.wait))

namespace Session

theorem rounds_le_rounds {a b : Int} (h : a ≤ b) : rounds a ≤ rounds b := by
  unfold rounds
  omega

/-- A pause that a wider limit refuses is refused by a stricter one. -/
theorem exceeds_of_le {ms : Double} {a b : Int} (h : a ≤ b) (hb : exceeds ms b = true) :
    exceeds ms a = true := by
  cases ms with
  | nan | infinite => exact hb
  | finite negative m =>
    simp only [exceeds, decide_eq_true_eq] at hb ⊢
    have : a * (Double.one : Int) ≤ b * (Double.one : Int) :=
      Int.mul_le_mul_of_nonneg_right h (Int.natCast_nonneg _)
    omega

/-! ## Runs only add -/

/-- All lines and pauses of one session are those of another, which may have more after them. -/
structure Precedes (s t : Session) : Prop where
  output : s.output.toList <+: t.output.toList
  sleeps : s.sleeps.toList <+: t.sleeps.toList

theorem Precedes.refl (s : Session) : s.Precedes s := ⟨List.prefix_rfl, List.prefix_rfl⟩

theorem Precedes.trans {s t u : Session} (h : s.Precedes t) (h' : t.Precedes u) : s.Precedes u :=
  ⟨h.output.trans h'.output, h.sleeps.trans h'.sleeps⟩

theorem precedes_write (s : Session) (line : Text) : s.Precedes (s.write line) :=
  ⟨by simp [write], List.prefix_rfl⟩

theorem precedes_afterPause (s : Session) (seconds : Double) : s.Precedes (s.afterPause seconds) :=
  ⟨List.prefix_rfl, by simp [afterPause]⟩

theorem precedes_effect [Host] {rules : Rules} {s : Session} {statement : Statement} {o : Outcome}
    (h : statement.Effect rules s o) : s.Precedes o.session := by
  cases h with
  | skip | stop => exact .refl s
  | assign | assignList | declare | declareList => exact ⟨List.prefix_rfl, List.prefix_rfl⟩
  | log argument line written => exact s.precedes_write written
  | wait => exact s.precedes_afterPause _

end Session

/-- A run keeps the lines and the pauses that it finds. -/
theorem Execution.precedes [Host] {rules : Rules} {s : Session} {events : List Event} {o : Outcome}
    (h : Execution rules s events o) : s.Precedes o.session :=
  (h.invariant (P := s.Precedes)
    (fun _ t hsimple ht =>
      ht.trans (Session.precedes_effect (Statement.effect_run rules t hsimple)))
    (fun t ht => ht.trans (t.precedes_write _)) (.refl s)).1

/-! ## Events that meet a limit -/

namespace Event

/-- Whether a loop reaches its limit. -/
def isGuard : Event → Bool
  | .guard _ => true
  | .statement _ _ => false

/-- Whether a loop reaches its limit, or a pause is refused since it is too long. -/
def meetsLimit (rules : Rules) (e : Event) : Bool := e.isGuard || e.isLongPause rules

end Event

/-- A run meets a limit only where a loop writes its guard line or where it stops at a pause. -/
theorem Execution.isGuard_of_meetsLimit [Host] {rules : Rules} {s : Session} {events : List Event}
    {o : Outcome} (h : Execution rules s events o)
    (ho : ∀ pause, o.stop ≠ some (.longPause pause)) :
    ∀ e ∈ events, e.meetsLimit rules = true → e.isGuard = true := by
  intro e he hlimit
  rcases Bool.or_eq_true_iff.1 hlimit with hguard | hlong
  · exact hguard
  · obtain ⟨ms, line, t, rfl, htime, hexceeds⟩ := Event.exists_of_isLongPause hlong
    have hrun := Statement.run_wait_of_exceeds (s := t) line htime hexceeds
    have hlast := h.eq_of_stop rfl he (by simp [hrun])
    exact absurd (congrArg Outcome.stop (hlast.trans hrun)) (ho _)

/-! ## Two runs under different limits -/

/-- What a run with the events `events` and the outcome `o` says about the outcome of the same run
under wider limits: it is the same if no event meets a limit; else what was done before the first
that does is done there too. -/
def Restricts (rules : Rules) (events : List Event) (o wider : Outcome) : Prop :=
  match events.find? (Event.meetsLimit rules) with
  | none => wider = o
  | some e => e.before.Precedes wider.session

namespace Restricts

variable {rules rules' : Rules} {events : List Event} {o o' : Outcome}

theorem refl (o : Outcome) : Restricts rules [] o o := rfl

theorem cons {e : Event} (he : e.meetsLimit rules = false) (h : Restricts rules events o o') :
    Restricts rules (e :: events) o o' := by
  rw [Restricts, List.find?_cons_of_neg (by simp [he])]
  exact h

theorem attempt {α : Type} {s : Session} (result : Except Failure α) {events : α → List Event}
    {next next' : α → Outcome} (h : ∀ a, Restricts rules (events a) (next a) (next' a)) :
    Restricts rules (Event.afterResult result events) (s.attempt result next)
      (s.attempt result next') := by
  cases result with
  | ok a => exact h a
  | error f => exact .refl _

theorem proceed {α : Type} {s : Session} (result : Except Stop α) {events : α → List Event}
    {next next' : α → Outcome} (h : ∀ a, Restricts rules (events a) (next a) (next' a)) :
    Restricts rules (Event.afterResult result events) (s.proceed result next)
      (s.proceed result next') := by
  cases result with
  | ok a => exact h a
  | error reason => exact .refl _

theorem andThen [Host] {more more' : Session → List Event} {next next' : Session → Outcome}
    (h : Restricts rules events o o') (hnext : ∀ t, Restricts rules (more t) (next t) (next' t))
    (hmore : ∀ t, Execution rules' t (more' t) (next' t)) :
    Restricts rules (events ++ Event.afterStep o more) (Session.andThen o next)
      (Session.andThen o' next') := by
  rw [Restricts, List.find?_append]
  rw [Restricts] at h
  split at h
  · next hfree =>
    subst h
    rw [hfree, Option.none_or]
    obtain ⟨t, stop⟩ := o'
    cases stop with
    | none => exact hnext t
    | some reason => exact .refl _
  · next e hlimit =>
    rw [hlimit, Option.some_or]
    obtain ⟨t, stop⟩ := o'
    cases stop with
    | none => exact h.trans (hmore t).precedes
    | some reason => exact h

/-- A loop whose rounds are restricted is restricted if it makes no more of them. -/
theorem ofLoop [Host] {test : Session → Except Stop Bool} {body body' : Session → Outcome}
    {events events' : Session → List Event} (htest : Session.FailsOnly test)
    (h : ∀ s, Restricts rules (events s) (body s) (body' s))
    (hbody : ∀ s, Execution rules' s (events' s) (body' s)) {n m : Nat} (hnm : n ≤ m)
    (s : Session) :
    Restricts rules (Event.ofLoop test body events n s) (Session.repeatUpTo test body n s)
      (Session.repeatUpTo test body' m s) := by
  induction n generalizing m s with
  | zero => exact (Execution.ofLoop htest hbody m s).precedes
  | succ n ih =>
    obtain ⟨m, rfl⟩ : ∃ k, m = k + 1 := ⟨m - 1, by omega⟩
    rw [Event.ofLoop, Session.repeatUpTo, Session.repeatUpTo]
    cases test s with
    | error f => exact .refl _
    | ok holds =>
      cases holds with
      | false => exact .refl _
      | true =>
        exact (h s).andThen (ih (Nat.le_of_succ_le_succ hnm)) (Execution.ofLoop htest hbody m)

end Restricts

/-! ## Trees and scripts -/

section Trees

variable {features : Features} {limits limits' : Limits}

theorem restricts_wait [Host] (h : limits ≤ limits') (ms : Double) (line : Text) (s : Session) :
    Restricts ⟨features, limits⟩ [.statement (.wait ms line) s] (s.wait ⟨features, limits⟩ ms)
      (s.wait ⟨features, limits'⟩ ms) := by
  cases hlimit : (Event.statement (.wait ms line) s).meetsLimit ⟨features, limits⟩ with
  | true =>
    rw [Restricts, List.find?_cons_of_pos hlimit]
    have hwait : Execution ⟨features, limits'⟩ s [.statement (.wait ms line) s]
        (s.wait ⟨features, limits'⟩ ms) :=
      Execution.ofSimple rfl s
    exact hwait.precedes
  | false =>
    refine .cons hlimit (Eq.symm ?_)
    -- Either no pause is allowed at all, or this one is allowed by the stricter limit and hence by
    -- the wider one.
    have hpause := (Bool.or_eq_false_iff.1 hlimit).2
    rcases Bool.and_eq_false_iff.1 hpause with htime | hwait
    · have hgate : features.require .time = .error (.disabled .time) :=
        if_neg (Bool.eq_false_iff.1 htime)
      rw [Session.wait, Session.wait, hgate]
      rfl
    · have hwait' : Session.exceeds ms limits'.wait = false := by
        rw [Bool.eq_false_iff] at hwait ⊢
        exact fun hwider => hwait (Session.exceeds_of_le h.2.2 hwider)
      simp [Session.wait, hwait, hwait']

theorem restricts_statement [Host] (h : limits ≤ limits') (statement : Statement) (s : Session) :
    Restricts ⟨features, limits⟩ (statement.events ⟨features, limits⟩ s)
      (statement.run ⟨features, limits⟩ s)
      (statement.run ⟨features, limits'⟩ s) := by
  induction statement generalizing s with
  | wait ms line => exact restricts_wait h ms line s
  | forLoop counter body line ih =>
    rw [Statement.events, Statement.run, Statement.run]
    refine .cons rfl (.attempt _ fun _ => .cons rfl ?_)
    have htest := Session.failsOnly_testCounter counter
    exact (Restricts.refl _).andThen
      (fun t => .ofLoop htest ih (.ofStatement body) (Session.rounds_le_rounds h.2.1) t)
      fun t => .ofLoop htest (.ofStatement body) _ t
  | skip | assign | assignList | declare | log | invalid => exact .cons rfl (.refl _)

mutual

theorem restricts_node [Host] (h : limits ≤ limits') (node : Node) (s : Session) :
    Restricts ⟨features, limits⟩ (node.events ⟨features, limits⟩ s) (node.run ⟨features, limits⟩ s)
      (node.run ⟨features, limits'⟩ s) := by
  cases node with
  | statement statement =>
    rw [Node.events, Node.run, Node.run]
    exact restricts_statement h statement s
  | conditional condition body rest line =>
    rw [Node.events, Node.run, Node.run]
    refine .attempt _ fun _ => .proceed _ fun holds => ?_
    cases holds with
    | true => exact restricts_nodes h body s
    | false => exact restricts_alternative h rest s
  | during condition body line =>
    rw [Node.events, Node.run, Node.run]
    exact .attempt _ fun _ =>
      .ofLoop (Session.failsOnly_test condition) (restricts_nodes h body) (.ofNodes body)
      (Session.rounds_le_rounds h.1) s
  | dangling line elseIf =>
    rw [Node.events, Node.run, Node.run]
    exact .refl _

theorem restricts_alternative [Host] (h : limits ≤ limits') (a : Alternative) (s : Session) :
    Restricts ⟨features, limits⟩ (a.events ⟨features, limits⟩ s) (a.run ⟨features, limits⟩ s)
      (a.run ⟨features, limits'⟩ s) := by
  cases a with
  | none =>
    rw [Alternative.events, Alternative.run, Alternative.run]
    exact .refl _
  | otherwise body =>
    rw [Alternative.events, Alternative.run, Alternative.run]
    exact restricts_nodes h body s
  | elseIf condition body rest =>
    rw [Alternative.events, Alternative.run, Alternative.run]
    refine .proceed _ fun holds => ?_
    cases holds with
    | true => exact restricts_nodes h body s
    | false => exact restricts_alternative h rest s

theorem restricts_nodes [Host] (h : limits ≤ limits') (nodes : List Node) (s : Session) :
    Restricts ⟨features, limits⟩ (Node.eventsAll ⟨features, limits⟩ nodes s)
      (Node.runAll ⟨features, limits⟩ nodes s)
      (Node.runAll ⟨features, limits'⟩ nodes s) := by
  cases nodes with
  | nil =>
    rw [Node.eventsAll, Node.runAll, Node.runAll]
    exact .refl _
  | cons node nodes =>
    rw [Node.eventsAll, Node.runAll, Node.runAll]
    exact (restricts_node h node s).andThen (restricts_nodes h nodes) (.ofNodes nodes)

end

theorem restricts_standard [Host] (h : limits ≤ limits') (lines : List Text) (s : Session) :
    Restricts ⟨features, limits⟩ (s.standardEvents ⟨features, limits⟩ lines)
      (s.runStandard ⟨features, limits⟩ lines)
      (s.runStandard ⟨features, limits'⟩ lines) := by
  unfold Session.standardEvents Session.runStandard
  cases Node.parse lines with
  | none => exact .refl _
  | some nodes => exact restricts_nodes h nodes s

theorem restricts_fast [Host] (h : limits ≤ limits') (lines : List Text) (s : Session) :
    Restricts ⟨features, limits⟩ (s.fastEvents ⟨features, limits⟩ lines)
      (s.runFast ⟨features, limits⟩ lines)
      (s.runFast ⟨features, limits'⟩ lines) := by
  induction lines generalizing s with
  | nil => exact .refl _
  | cons line lines ih =>
    exact (restricts_statement h (Statement.ofFastText line) s).andThen ih (execution_fast _ lines)

end Trees

namespace Script

/-- The session in which a run first meets a limit, or the one in which it ends if it meets none. -/
def beforeLimit [Host] (limits : Limits) (clock : Double) (code : Text) : Session :=
  match (events limits clock code).find? (Event.meetsLimit (rules limits code)) with
  | some e => e.before
  | none => (outcome limits clock code).session

variable {limits limits' : Limits}

theorem restricts [Host] (h : limits ≤ limits') (clock : Double) (code : Text) :
    Restricts (rules limits code) (events limits clock code) (outcome limits clock code)
      (outcome limits' clock code) := by
  by_cases hfast : (rules limits code).features.fast = true
  · have hfast' : (rules limits' code).features.fast = true := hfast
    simp only [events, outcome, if_pos hfast, if_pos hfast']
    exact restricts_fast h _ _
  · have hfast' : ¬(rules limits' code).features.fast = true := hfast
    simp only [events, outcome, if_neg hfast, if_neg hfast']
    exact restricts_standard h _ _

/-- Wider limits give the same report if a run under the stricter ones lets no loop reach its limit
and does not stop at a pause; in any case they give, first of all, what that run writes and waits
before it meets a limit. -/
theorem run_of_le [Host] (h : limits ≤ limits') (clock : Double) (code : Text) :
    ((∀ e ∈ events limits clock code, e.isGuard = false) →
      (∀ pause, (outcome limits clock code).stop ≠ some (.longPause pause)) →
        run limits' clock code = run limits clock code) ∧
      (beforeLimit limits clock code).output.toList <+:
        (outcome limits' clock code).session.output.toList ∧
        (beforeLimit limits clock code).sleeps.toList <+:
          (outcome limits' clock code).session.sleeps.toList := by
  have hrestricts := restricts h clock code
  refine ⟨fun hguard hpause => ?_, ?_⟩
  · have hfree : (events limits clock code).find? (Event.meetsLimit (rules limits code)) =
        none := by
      refine List.find?_eq_none.2 fun e he hlimit => ?_
      have := (execution limits clock code).isGuard_of_meetsLimit hpause e he hlimit
      rw [hguard e he] at this
      cases this
    rw [Restricts, hfree] at hrestricts
    rw [run_eq, run_eq, hrestricts]
    rfl
  · have hprecedes : (beforeLimit limits clock code).Precedes
        (outcome limits' clock code).session := by
      unfold beforeLimit
      rw [Restricts] at hrestricts
      split at hrestricts
      · next hfree =>
        rw [hfree, hrestricts]
        exact .refl _
      · next e hlimit =>
        rw [hlimit]
        exact hrestricts
    exact ⟨hprecedes.output, hprecedes.sleeps⟩

/-- A pause, and a loop that ends after one round. -/
def ending : Text :=
  ("!implement time\n!implement condition looping\n" ++
    "wait(5)\n[x] = 1\nDuring <[x]> =? <1> \x7b [x] = 2 \x7d\nlog([x])").toList

/-- The same, and then a loop that does not end by itself. -/
def endless : Text := ending ++ "\nFor [i] = 0, [i] =? 0, log([i])".toList

theorem run_of_le_endless :
    let strict : Limits := ⟨2, 2, 5⟩
    let wide : Limits := ⟨3, 4, 5⟩
    strict ≤ wide ∧
      (outcome strict (.ofInt 0) ending).session.output.toList = ["2".toList] ∧
      (outcome strict (.ofInt 0) ending).session.sleeps.size = 1 ∧
      run wide (.ofInt 0) ending = run strict (.ofInt 0) ending ∧
      (beforeLimit strict (.ofInt 0) endless).output.toList = ["2".toList, "0".toList, "0".toList] ∧
      (outcome wide (.ofInt 0) endless).session.output.size = 6 ∧
      (beforeLimit strict (.ofInt 0) endless).output.toList <+:
        (outcome wide (.ofInt 0) endless).session.output.toList := by
  intro strict wide
  have h : strict ≤ wide := by decide
  have hguard : ∀ e ∈ events strict (.ofInt 0) ending, e.isGuard = false := by decide +kernel
  have hstop : (outcome strict (.ofInt 0) ending).stop = none := by decide +kernel
  refine ⟨h, by decide +kernel, by decide +kernel,
    (run_of_le h (.ofInt 0) ending).1 hguard fun pause => ?_,
    by decide +kernel, by decide +kernel, (run_of_le h (.ofInt 0) endless).2.1⟩
  rw [hstop]
  simp

end Script

end LineScript
