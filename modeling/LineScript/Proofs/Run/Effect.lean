import LineScript.Proofs.Run.Event

/-!
# What one statement does

`Statement.Effect` says once what a statement that is no loop can do to a session: nothing, or one
line written, one pause made or one name set; if it stops the run, it has done nothing. Along an
execution this gives what holds in every session that a run passes (`Execution.invariant`), and
which lines it writes (`Execution.output`).
-/

namespace LineScript

/-- What a statement that is no loop does in the session `s`. -/
inductive Statement.Effect [Host] (rules : Rules) (s : Session) : Statement → Outcome → Prop
  | skip (line : Text) : Effect rules s (.skip line) ⟨s, none⟩
  | stop (statement : Statement) (reason : Stop) : Effect rules s statement ⟨s, some reason⟩
  | assign (name value line : Text) {v : Value} :
    Literal.evalText s.names value = .ok v →
      Effect rules s (.assign name value line) ⟨s.assign name v, none⟩
  | assignList (name : Text) (items : List Text) (line : Text) {vs : List Value} :
    Literal.evalItems s.names items = .ok vs →
      Effect rules s (.assignList name items line) ⟨s.assignList name vs, none⟩
  | declare (kind name value line : Text) {v : Value} :
    Literal.evalText s.names value = .ok v →
      Effect rules s (.declare kind name value line) ⟨s.assign name v, none⟩
  | declareList (kind name value line : Text) {items : List Text} {vs : List Value} :
    Literal.evalItems s.names items = .ok vs →
      Effect rules s (.declare kind name value line) ⟨s.assignList name vs, none⟩
  | log (argument line written : Text) : Effect rules s (.log argument line) ⟨s.write written, none⟩
  | wait (ms : Double) (line : Text) :
    rules.features.time = true → Session.exceeds ms rules.limits.wait = false →
      Host.refusal? (ms.div (.ofInt 1000)) = none →
        Effect rules s (.wait ms line) ⟨s.afterPause (ms.div (.ofInt 1000)), none⟩

namespace Statement

variable {rules : Rules} {s : Session}

theorem effect_proceed [Host] {statement : Statement} {α : Type} {result : Except Stop α}
    {next : α → Outcome} (h : ∀ a, result = .ok a → Effect rules s statement (next a)) :
    Effect rules s statement (s.proceed result next) := by
  cases hr : result with
  | ok a => exact h a hr
  | error reason => exact .stop statement reason

theorem effect_attempt [Host] {statement : Statement} {α : Type} {result : Except Failure α}
    {next : α → Outcome} (h : ∀ a, result = .ok a → Effect rules s statement (next a)) :
    Effect rules s statement (s.attempt result next) :=
  effect_proceed fun a ha => h a (eq_ok_of_mapError ha)

theorem effect_emit [Host] (argument line : Text) (v : Value) :
    Effect rules s (.log argument line) (s.emit v) :=
  effect_proceed fun written _ => .log argument line written

theorem allows_of_require {f : Features} {gate : Gate} {u : Unit} (h : f.require gate = .ok u) :
    f.allows gate = true := by
  unfold Features.require at h
  split at h
  · assumption
  · cases h

theorem require_time (h : rules.features.time = true) :
    rules.features.require .time = .ok () := if_pos h

/-- A pause longer than the limit stops the run. -/
theorem run_wait_of_exceeds [Host] {ms : Double} (line : Text) (htime : rules.features.time = true)
    (hexceeds : Session.exceeds ms rules.limits.wait = true) :
    run rules (.wait ms line) s = ⟨s, some (.longPause ⟨ms, rules.limits.wait⟩)⟩ := by
  rw [run, Session.wait, require_time htime, hexceeds]
  rfl

theorem effect_log [Host] (argument line : Text) :
    Effect rules s (.log argument line) (s.log rules argument) := by
  unfold Session.log
  split
  · exact effect_attempt fun _ _ => effect_proceed fun _ _ => effect_emit argument line _
  · split
    · exact effect_attempt fun v _ => effect_emit argument line v
    · exact effect_proceed fun v _ => effect_emit argument line v

theorem effect_wait [Host] (ms : Double) (line : Text) :
    Effect rules s (.wait ms line) (s.wait rules ms) := by
  unfold Session.wait
  refine effect_attempt fun _ hgate => ?_
  split
  · exact .stop _ _
  · next hle =>
    unfold Session.sleep
    split
    · exact .stop _ _
    · next hmade => exact .wait ms line (allows_of_require hgate) (by simpa using hle) hmade

theorem effect_declare [Host] (kind name value line : Text) :
    Effect rules s (.declare kind name value line) (s.declare name value) := by
  unfold Session.declare
  split
  · next items _ => exact effect_attempt fun vs hvs => .declareList kind name value line hvs
  · exact effect_attempt fun v hv => .declare kind name value line hv

/-- What a statement that is no loop can do. -/
theorem effect_run [Host] (rules : Rules) (s : Session) {statement : Statement}
    (h : statement.isSimple = true) :
    Effect rules s statement (statement.run rules s) := by
  cases statement with
  | skip line => exact .skip line
  | assign name value line => exact effect_attempt fun v hv => .assign name value line hv
  | assignList name items line => exact effect_attempt fun vs hvs => .assignList name items line hvs
  | declare kind name value line => exact effect_declare kind name value line
  | log argument line => exact effect_log argument line
  | wait ms line => exact effect_wait ms line
  | invalid line problem => exact .stop _ _
  | forLoop => cases h

end Statement

namespace Event

/-- The lines that an event adds to the output. -/
def lines [Host] (rules : Rules) : Event → List Text
  | .statement (.log argument _) s =>
    (s.log rules argument).session.output.toList.drop s.output.size
  | .guard _ => [Session.guardLine]
  | _ => []

theorem lines_log [Host] {rules : Rules} {argument line : Text} {s : Session} {o : Outcome}
    (h : Statement.run rules (.log argument line) s = o) :
    (Event.statement (.log argument line) s).lines rules =
      o.session.output.toList.drop s.output.size := by
  rw [← h]
  rfl

/-- What the clock shows when an event reads it, which only a `log` of the time does. -/
def reading? (rules : Rules) : Event → Option Double
  | .statement (.log argument _) s =>
    if argument = "time.now".toList ∧ rules.features.time = true then some s.clock else none
  | _ => none

/-- The seconds that an event asks the host to pause. -/
def pause? (rules : Rules) : Event → Option Double
  | .statement (.wait ms _) _ =>
    if rules.features.time = true ∧ Session.exceeds ms rules.limits.wait = false then
      some (ms.div (.ofInt 1000))
    else none
  | _ => none

/-- Whether an event asks for a pause that is longer than the limit. -/
def isLongPause (rules : Rules) : Event → Bool
  | .statement (.wait ms _) _ => rules.features.time && Session.exceeds ms rules.limits.wait
  | _ => false

variable {rules : Rules} {e : Event}

theorem exists_of_reading? {c : Double} (h : e.reading? rules = some c) :
    ∃ line s, e = .statement (.log "time.now".toList line) s ∧ rules.features.time = true ∧
      c = s.clock := by
  unfold reading? at h
  split at h
  · next argument line s =>
    rw [Option.ite_none_right_eq_some, Option.some.injEq] at h
    obtain ⟨⟨rfl, htime⟩, rfl⟩ := h
    exact ⟨line, s, rfl, htime, rfl⟩
  · cases h

theorem exists_of_pause? {seconds : Double} (h : e.pause? rules = some seconds) :
    ∃ ms line s, e = .statement (.wait ms line) s ∧ rules.features.time = true ∧
      Session.exceeds ms rules.limits.wait = false ∧ seconds = ms.div (.ofInt 1000) := by
  unfold pause? at h
  split at h
  · next ms line s =>
    rw [Option.ite_none_right_eq_some, Option.some.injEq] at h
    obtain ⟨⟨htime, hle⟩, rfl⟩ := h
    exact ⟨ms, line, s, rfl, htime, hle, rfl⟩
  · cases h

theorem exists_of_isLongPause (h : e.isLongPause rules = true) :
    ∃ ms line s, e = .statement (.wait ms line) s ∧ rules.features.time = true ∧
      Session.exceeds ms rules.limits.wait = true := by
  unfold isLongPause at h
  split at h
  · next ms line s => exact ⟨ms, line, s, rfl, Bool.and_eq_true_iff.1 h⟩
  · cases h

end Event

namespace Execution

variable {rules : Rules} {s : Session} {events : List Event} {o : Outcome}

/-- What every statement that is no loop and every guard line keep holds in all sessions that a run
passes. -/
theorem invariant [Host] {P : Session → Prop}
    (hstep : ∀ (statement : Statement) s, statement.isSimple = true → P s →
      P (statement.run rules s).session) (hguard : ∀ s, P s → P (s.write Session.guardLine))
    (h : Execution rules s events o) (hs : P s) :
    P o.session ∧ ∀ e ∈ events, P e.before := by
  induction h with
  | done | refuse => exact ⟨hs, by simp⟩
  | step hsimple hrun _ ih =>
    have ht := hstep _ _ hsimple hs
    rw [hrun] at ht
    obtain ⟨ho, he⟩ := ih ht
    exact ⟨ho, List.forall_mem_cons.2 ⟨hs, he⟩⟩
  | stop hsimple hrun =>
    have ht := hstep _ _ hsimple hs
    rw [hrun] at ht
    exact ⟨ht, List.forall_mem_cons.2 ⟨hs, by simp⟩⟩
  | loop counter body line _ ih =>
    obtain ⟨ho, he⟩ := ih hs
    exact ⟨ho, List.forall_mem_cons.2 ⟨hs, he⟩⟩
  | guard _ ih =>
    obtain ⟨ho, he⟩ := ih (hguard _ hs)
    exact ⟨ho, List.forall_mem_cons.2 ⟨hs, he⟩⟩

/-- A statement that is no loop keeps the lines written before and adds its own. -/
theorem output_run [Host] (rules : Rules) {statement : Statement}
    (hsimple : statement.isSimple = true) (s : Session) :
    (statement.run rules s).session.output.toList =
      s.output.toList ++ (Event.statement statement s).lines rules := by
  have h := Statement.effect_run rules s hsimple
  generalize ho : statement.run rules s = o at h
  cases h with
  | skip | assign | assignList | declare | declareList | wait =>
    simp [Event.lines, Session.assign, Session.assignList, Session.afterPause]
  | log argument line written =>
    rw [Event.lines_log ho]
    simp [Session.write]
  | stop =>
    cases statement with
    | log argument line =>
      rw [Event.lines_log ho]
      simp
    | skip | assign | assignList | declare | wait | invalid | forLoop => simp [Event.lines]

/-- A run keeps the lines written before and adds those of its events. -/
theorem output [Host] (h : Execution rules s events o) :
    o.session.output.toList = s.output.toList ++ events.flatMap (Event.lines rules) := by
  induction h with
  | done | refuse => simp
  | @step statement s t events o hsimple hrun _ ih =>
    have ht := output_run rules hsimple s
    rw [hrun] at ht
    rw [ih, ht, List.flatMap_cons, List.append_assoc]
  | @stop statement s t reason hsimple hrun =>
    have ht := output_run rules hsimple s
    rw [hrun] at ht
    rw [ht, List.flatMap_cons, List.flatMap_nil, List.append_nil]
  | loop counter body line _ ih => simp [ih, Event.lines]
  | guard _ ih => simp [ih, Session.write, Event.lines]

/-- A statement that stops is the last thing that a run does. -/
theorem eq_of_stop [Host] {statement : Statement} {before : Session}
    (h : Execution rules s events o) (hsimple : statement.isSimple = true)
    (he : .statement statement before ∈ events) (hstop : (statement.run rules before).stop ≠ none) :
    o = statement.run rules before := by
  induction h with
  | done | refuse => cases he
  | step _ hrun _ ih =>
    rcases List.mem_cons.1 he with heq | he
    · cases heq
      rw [hrun] at hstop
      exact absurd rfl hstop
    · exact ih he
  | stop _ hrun =>
    cases List.mem_singleton.1 he
    exact hrun.symm
  | loop counter body line _ ih =>
    rcases List.mem_cons.1 he with heq | he
    · cases heq
      cases hsimple
    · exact ih he
  | guard _ ih =>
    rcases List.mem_cons.1 he with heq | he
    · cases heq
    · exact ih he

end Execution

end LineScript
