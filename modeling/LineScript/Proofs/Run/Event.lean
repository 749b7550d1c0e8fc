import LineScript.Proofs.Value.Safe
import LineScript.Script

/-!
# The events of a run

A run executes statements one after the other, some of them again and again in loops.
`Node.eventsAll`, `Session.standardEvents` and `Session.fastEvents` list what a run does, each event
with the session that it finds. An `Execution` is such a list read as a chain of steps:
`execution_standard` and `execution_fast` say that every run is one, so that a property of runs
follows from a property of single steps by induction along the chain, without another look at loops
and trees. The first of these are `Execution.invariant` and `Execution.output`.
-/

namespace LineScript

/-- What a run does: it executes a statement, or a loop reaches its limit. -/
inductive Event
  | statement (statement : Statement) (before : Session)
  | guard (before : Session)

namespace Event

/-- The session that an event finds. -/
def before : Event → Session
  | .statement _ s => s
  | .guard s => s

/-- The events after a result. -/
def afterResult {ε α : Type} (result : Except ε α) (next : α → List Event) : List Event :=
  match result with
  | .ok a => next a
  | .error _ => []

/-- The events after a step. -/
def afterStep (o : Outcome) (next : Session → List Event) : List Event :=
  match o with
  | ⟨s, none⟩ => next s
  | ⟨_, some _⟩ => []

/-- The events of a loop, from those of a round. -/
def ofLoop (test : Session → Except Stop Bool) (body : Session → Outcome)
    (events : Session → List Event) :
    (rounds : Nat) → Session → List Event
  | 0, s => [.guard s]
  | rounds + 1, s =>
    afterResult (test s) fun
      | true => events s ++ afterStep (body s) (ofLoop test body events rounds)
      | false => []

end Event

namespace Statement

/-- Whether the statement is complete in one step. -/
def isSimple : Statement → Bool
  | .forLoop _ _ _ => false
  | _ => true

/-- The events of a statement. A loop with a counter begins with an assignment. -/
def events [Host] (rules : Rules) : Statement → Session → List Event
  | .forLoop counter body line, s =>
    .statement (.forLoop counter body line) s ::
      Event.afterResult (rules.features.require .looping) fun _ =>
        .statement (.assign counter.name counter.start line) s ::
          Event.afterStep (s.assignText counter.name counter.start)
            (Event.ofLoop (Session.testCounter counter) (body.run rules) (body.events rules)
              (Session.rounds rules.limits.loop))
  | statement, s => [.statement statement s]

end Statement

mutual

/-- The events of a node. -/
def Node.events [Host] (rules : Rules) : Node → Session → List Event
  | .statement statement, s => statement.events rules s
  | .conditional condition body rest _, s =>
    Event.afterResult (rules.features.require .conditions) fun _ =>
      Event.afterResult (s.test condition) fun
        | true => Node.eventsAll rules body s
        | false => rest.events rules s
  | .during condition body _, s =>
    Event.afterResult (rules.features.require .looping) fun _ =>
      Event.ofLoop (Session.test condition) (Node.runAll rules body) (Node.eventsAll rules body)
        (Session.rounds rules.limits.during) s
  | .dangling _ _, _ => []

/-- The events of the alternatives of a conditional. -/
def Alternative.events [Host] (rules : Rules) : Alternative → Session → List Event
  | .none, _ => []
  | .otherwise body, s => Node.eventsAll rules body s
  | .elseIf condition body rest, s =>
    Event.afterResult (s.test condition) fun
      | true => Node.eventsAll rules body s
      | false => rest.events rules s

/-- The events of nodes one after the other. -/
def Node.eventsAll [Host] (rules : Rules) : List Node → Session → List Event
  | [], _ => []
  | node :: nodes, s =>
    node.events rules s ++ Event.afterStep (node.run rules s) (Node.eventsAll rules nodes)

end

namespace Session

/-- The events of lines of the standard dialect. -/
def standardEvents [Host] (rules : Rules) (lines : List Text) (s : Session) : List Event :=
  match Node.parse lines with
  | some nodes => Node.eventsAll rules nodes s
  | none => []

/-- The events of lines of the fast dialect. -/
def fastEvents [Host] (rules : Rules) : (lines : List Text) → Session → List Event
  | [], _ => []
  | line :: lines, s =>
    (Statement.ofFastText line).events rules s ++
      Event.afterStep ((Statement.ofFastText line).run rules s) (fastEvents rules lines)

end Session

/-! ## Tests -/

/-- Over safe values, what stops a run here is a failure. -/
def Session.Fails (s : Session) (reason : Stop) : Prop := s.names.Safe → ∃ f, reason = .failure f

theorem Session.fails_failure (s : Session) (f : Failure) :
    s.Fails (.failure f) := fun _ => ⟨f, rfl⟩

/-- Whatever stops the test, over safe values it is a failure. -/
def Session.FailsOnly (test : Session → Except Stop Bool) : Prop :=
  ∀ s reason, test s = .error reason → s.Fails reason

/-- The comparison of two values that were read stops by a failure only. -/
theorem Session.fails_of_compare [Host] {s : Session} {left right : Except Failure Value}
    {reason : Stop} (hleft : ∀ v, s.names.Safe → left = .ok v → v.Safe)
    (hright : ∀ v, s.names.Safe → right = .ok v → v.Safe)
    (h : (do
      let v ← Failure.lift left
      let w ← Failure.lift right
      Fault.lift (v.looselyEquals? w)) = .error reason) : s.Fails reason := by
  intro hs
  cases left with
  | error f =>
    cases h
    exact ⟨f, rfl⟩
  | ok v =>
    cases right with
    | error f =>
      cases h
      exact ⟨f, rfl⟩
    | ok w =>
      replace h : Fault.lift (v.looselyEquals? w) = .error reason := h
      rcases Value.looselyEquals?_of_safe (hleft v hs rfl) (hright w hs rfl) with ⟨b, hb⟩ | hdeep
      · rw [hb] at h
        cases h
      · rw [hdeep] at h
        cases h
        exact ⟨.tooDeep, rfl⟩

theorem Session.failsOnly_test [Host] (c : Condition) : FailsOnly (test c) := fun _ _ h =>
  fails_of_compare (fun _ hs => Literal.safe_of_evalText hs)
    (fun _ hs => Literal.safe_of_evalText hs) h

theorem Session.failsOnly_testCounter [Host] (c : Counter) :
    FailsOnly (testCounter c) := fun _ _ h =>
  fails_of_compare (fun _ hs => Reference.safe_of_read hs (r := .value c.check))
    (fun _ hs => Literal.safe_of_evalText hs) h

/-! ## Executions -/

/-- A run as a chain of steps, from a session to an outcome. -/
inductive Execution [Host] (rules : Rules) : Session → List Event → Outcome → Prop
  | done (s : Session) : Execution rules s [] ⟨s, none⟩
  /-- A gate is closed, a condition cannot be tested, or a line makes no sense where it stands. -/
  | refuse {s : Session} {reason : Stop} : s.Fails reason → Execution rules s [] ⟨s, some reason⟩
  | step {statement : Statement} {s t : Session} {events : List Event} {o : Outcome} :
    statement.isSimple = true → statement.run rules s = ⟨t, none⟩ → Execution rules t events o →
      Execution rules s (.statement statement s :: events) o
  | stop {statement : Statement} {s t : Session} {reason : Stop} :
    statement.isSimple = true → statement.run rules s = ⟨t, some reason⟩ →
      Execution rules s [.statement statement s] ⟨t, some reason⟩
  | loop (counter : Counter) (body : Statement) (line : Text) {s : Session} {events : List Event}
    {o : Outcome} :
    Execution rules s events o →
      Execution rules s (.statement (.forLoop counter body line) s :: events) o
  | guard {s : Session} {events : List Event} {o : Outcome} :
    Execution rules (s.write Session.guardLine) events o → Execution rules s (.guard s :: events) o

namespace Execution

variable {rules : Rules}

/-- A run that goes on after a step that does not stop. -/
theorem append [Host] {s t : Session} {events more : List Event} {o : Outcome}
    (h : Execution rules s events ⟨t, none⟩) (hm : Execution rules t more o) :
    Execution rules s (events ++ more) o := by
  generalize ho : (⟨t, none⟩ : Outcome) = first at h
  induction h with
  | done s =>
    cases ho
    exact hm
  | refuse => cases ho
  | step hsimple hrun _ ih => exact .step hsimple hrun (ih ho)
  | stop hsimple hrun => cases ho
  | loop counter body line _ ih => exact .loop counter body line (ih ho)
  | guard _ ih => exact .guard (ih ho)

/-- A run, and another from where it ends unless it stops. -/
theorem andThen [Host] {s : Session} {events : List Event} {o : Outcome}
    {next : Session → Outcome} {more : Session → List Event} (h : Execution rules s events o)
    (hm : ∀ t, Execution rules t (more t) (next t)) :
    Execution rules s (events ++ Event.afterStep o more) (Session.andThen o next) := by
  obtain ⟨t, stop⟩ := o
  cases stop with
  | none => exact h.append (hm t)
  | some reason =>
    rw [Event.afterStep, List.append_nil]
    exact h

theorem attempt [Host] {α : Type} {s : Session} (result : Except Failure α) {next : α → Outcome}
    {events : α → List Event} (h : ∀ a, Execution rules s (events a) (next a)) :
    Execution rules s (Event.afterResult result events) (s.attempt result next) := by
  cases result with
  | ok a => exact h a
  | error f => exact .refuse (s.fails_failure f)

/-- A run after a test. -/
theorem proceed [Host] {s : Session} {test : Session → Except Stop Bool}
    (htest : Session.FailsOnly test) {next : Bool → Outcome} {events : Bool → List Event}
    (h : ∀ holds, Execution rules s (events holds) (next holds)) :
    Execution rules s (Event.afterResult (test s) events) (s.proceed (test s) next) := by
  cases hresult : test s with
  | ok holds => exact h holds
  | error reason => exact .refuse (htest s reason hresult)

theorem ofSimple [Host] {statement : Statement} (hsimple : statement.isSimple = true)
    (s : Session) :
    Execution rules s [.statement statement s] (statement.run rules s) := by
  cases ho : statement.run rules s with
  | mk t stop =>
    cases stop with
    | none => exact .step hsimple ho (.done t)
    | some reason => exact .stop hsimple ho

theorem ofLoop [Host] {test : Session → Except Stop Bool} {body : Session → Outcome}
    {events : Session → List Event} (htest : Session.FailsOnly test)
    (h : ∀ s, Execution rules s (events s) (body s)) (rounds : Nat) (s : Session) :
    Execution rules s (Event.ofLoop test body events rounds s)
      (Session.repeatUpTo test body rounds s) := by
  induction rounds generalizing s with
  | zero => exact .guard (.done _)
  | succ rounds ih =>
    rw [Event.ofLoop, Session.repeatUpTo]
    cases hresult : test s with
    | error reason => exact .refuse (htest s reason hresult)
    | ok holds =>
      cases holds with
      | false => exact .done s
      | true => exact (h s).andThen ih

theorem ofStatement [Host] (statement : Statement) (s : Session) :
    Execution rules s (statement.events rules s) (statement.run rules s) := by
  induction statement generalizing s with
  | forLoop counter body line ih =>
    rw [Statement.events, Statement.run]
    refine .loop counter body line (.attempt _ fun _ => ?_)
    have hstart : Execution rules s [.statement (.assign counter.name counter.start line) s]
        (s.assignText counter.name counter.start) := ofSimple rfl s
    exact hstart.andThen fun t => ofLoop (Session.failsOnly_testCounter counter) ih _ t
  | skip | assign | assignList | declare | log | wait | invalid => exact ofSimple rfl s

mutual

theorem ofNode [Host] (node : Node) (s : Session) :
    Execution rules s (node.events rules s) (node.run rules s) := by
  cases node with
  | statement statement =>
    rw [Node.events, Node.run]
    exact ofStatement statement s
  | conditional condition body rest line =>
    rw [Node.events, Node.run]
    refine .attempt _ fun _ => .proceed (Session.failsOnly_test condition) fun holds => ?_
    cases holds with
    | true => exact ofNodes body s
    | false => exact ofAlternative rest s
  | during condition body line =>
    rw [Node.events, Node.run]
    exact .attempt _ fun _ => ofLoop (Session.failsOnly_test condition) (ofNodes body) _ s
  | dangling line elseIf =>
    rw [Node.events, Node.run]
    exact .refuse (s.fails_failure _)

theorem ofAlternative [Host] (a : Alternative) (s : Session) :
    Execution rules s (a.events rules s) (a.run rules s) := by
  cases a with
  | none =>
    rw [Alternative.events, Alternative.run]
    exact .done s
  | otherwise body =>
    rw [Alternative.events, Alternative.run]
    exact ofNodes body s
  | elseIf condition body rest =>
    rw [Alternative.events, Alternative.run]
    refine .proceed (Session.failsOnly_test condition) fun holds => ?_
    cases holds with
    | true => exact ofNodes body s
    | false => exact ofAlternative rest s

theorem ofNodes [Host] (nodes : List Node) (s : Session) :
    Execution rules s (Node.eventsAll rules nodes s) (Node.runAll rules nodes s) := by
  cases nodes with
  | nil =>
    rw [Node.eventsAll, Node.runAll]
    exact .done s
  | cons node nodes =>
    rw [Node.eventsAll, Node.runAll]
    exact (ofNode node s).andThen (ofNodes nodes)

end

end Execution

/-- Every run of lines of the standard dialect is a chain of steps. -/
theorem execution_standard [Host] (rules : Rules) (lines : List Text) (s : Session) :
    Execution rules s (s.standardEvents rules lines) (s.runStandard rules lines) := by
  unfold Session.standardEvents Session.runStandard
  cases Node.parse lines with
  | none => exact .refuse (s.fails_failure _)
  | some nodes => exact .ofNodes nodes s

/-- Every run of lines of the fast dialect is a chain of steps. -/
theorem execution_fast [Host] (rules : Rules) (lines : List Text) (s : Session) :
    Execution rules s (s.fastEvents rules lines) (s.runFast rules lines) := by
  induction lines generalizing s with
  | nil => exact .done s
  | cons line lines ih => exact (Execution.ofStatement (Statement.ofFastText line) s).andThen ih

end LineScript
