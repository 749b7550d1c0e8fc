import LineScript.Block.Node
import LineScript.Expression.Parser
import LineScript.Session.Loop

/-!
# Running statements and trees

The effect of each statement and node on a session. A statement behind a closed gate fails before it
does anything else. A statement other than a loop leaves the session as it was if it fails; a loop
keeps what its rounds have done.
-/

namespace LineScript

variable [Host]

namespace Session

/-- The failure of an expression, as that of the argument it is. -/
def ofArgument (argument : Text) : Stop → Stop
  | .failure (.expression _ problem column) => .failure (.expression (some argument) problem column)
  | stop => stop

/-- The value of an argument that is no reference. -/
def evalArgument (names : Namespace) (argument : Text) : Except Stop Value :=
  (Expression.evalText names argument).mapError (ofArgument argument)

/-- Writes the clock, in whole milliseconds. -/
def logClock (s : Session) : Outcome :=
  s.proceed (s.milliseconds?.mapError .exception) fun n => s.emit (.number (.int n))

/-- Writes what the argument of a `log` denotes: the clock, a reference, or the value of an
expression. -/
def log (rules : Rules) (argument : Text) (s : Session) : Outcome :=
  if argument = "time.now".toList then
    s.attempt (rules.features.require .time) fun _ => s.logClock
  else
    match Reference.ofText? argument with
    | some r => s.attempt (r.read s.names) s.emit
    | none => s.proceed (evalArgument s.names argument) s.emit

/-- Whether a pause of `ms` milliseconds is longer than `limit`. -/
def exceeds (ms : Double) (limit : Int) : Bool :=
  match ms with
  | .nan => false
  | .infinite negative => !negative
  | .finite negative m => limit * Double.one < Double.signedUnits negative m

/-- Pauses. -/
def wait (rules : Rules) (ms : Double) (s : Session) : Outcome :=
  s.attempt (rules.features.require .time) fun _ =>
    if exceeds ms rules.limits.wait then ⟨s, some (.longPause ⟨ms, rules.limits.wait⟩)⟩
    else s.sleep (ms.div (.ofInt 1000))

/-- Gives a name the value of a literal. -/
def assignText (name value : Text) (s : Session) : Outcome :=
  s.attempt (Literal.evalText s.names value) fun v => ⟨s.assign name v, none⟩

/-- Gives a name a new list of the values of literals. -/
def assignItems (name : Text) (items : List Text) (s : Session) : Outcome :=
  s.attempt (Literal.evalItems s.names items) fun vs => ⟨s.assignList name vs, none⟩

/-- Gives a name the value of a literal, or a new list if the value is written as one. -/
def declare (name value : Text) (s : Session) : Outcome :=
  match Text.enclosedLine? '#' value with
  | some items => s.assignItems name (Literal.listItems items)
  | none => s.assignText name value

/-- Whether a condition holds. -/
def test (c : Condition) (s : Session) : Except Stop Bool := do
  let left ← Failure.lift (Literal.evalText s.names c.left)
  let right ← Failure.lift (Literal.evalText s.names c.right)
  Fault.lift (left.looselyEquals? right)

/-- Whether the counter of a loop allows another round. -/
def testCounter (c : Counter) (s : Session) : Except Stop Bool := do
  let left ← Failure.lift (s.names.valueOf c.check)
  let right ← Failure.lift (Literal.evalText s.names c.stop)
  Fault.lift (left.looselyEquals? right)

/-- Runs `next` after a step that does not stop. -/
def andThen (o : Outcome) (next : Session → Outcome) : Outcome :=
  match o with
  | ⟨s, none⟩ => next s
  | ⟨s, some stop⟩ => ⟨s, some stop⟩

end Session

namespace Statement

/-- The effect of a statement. -/
def run (rules : Rules) : Statement → Session → Outcome
  | .skip _, s => ⟨s, none⟩
  | .assign name value _, s => s.assignText name value
  | .assignList name items _, s => s.assignItems name items
  | .declare _ name value _, s => s.declare name value
  | .log argument _, s => s.log rules argument
  | .wait ms _, s => s.wait rules ms
  | .invalid line problem, s => ⟨s, some (.failure (.invalid line problem))⟩
  | .forLoop counter body _, s =>
    s.attempt (rules.features.require .looping) fun _ =>
      Session.andThen (s.assignText counter.name counter.start) fun s =>
        Session.repeatUpTo (Session.testCounter counter) (body.run rules)
          (Session.rounds rules.limits.loop) s

end Statement

mutual

/-- The effect of a node. -/
def Node.run (rules : Rules) : Node → Session → Outcome
  | .statement statement, s => statement.run rules s
  | .conditional condition body rest _, s =>
    s.attempt (rules.features.require .conditions) fun _ =>
      s.proceed (s.test condition) fun
        | true => Node.runAll rules body s
        | false => rest.run rules s
  | .during condition body _, s =>
    s.attempt (rules.features.require .looping) fun _ =>
      Session.repeatUpTo (Session.test condition) (Node.runAll rules body)
        (Session.rounds rules.limits.during) s
  | .dangling line elseIf, s => ⟨s, some (.failure (.dangling line elseIf))⟩

/-- The effect of the alternatives of a conditional whose conditions so far do not hold. -/
def Alternative.run (rules : Rules) : Alternative → Session → Outcome
  | .none, s => ⟨s, none⟩
  | .otherwise body, s => Node.runAll rules body s
  | .elseIf condition body rest, s =>
    s.proceed (s.test condition) fun
      | true => Node.runAll rules body s
      | false => rest.run rules s

/-- The effect of nodes one after the other. -/
def Node.runAll (rules : Rules) : List Node → Session → Outcome
  | [], s => ⟨s, none⟩
  | node :: nodes, s =>
    match node.run rules s with
    | ⟨t, none⟩ => Node.runAll rules nodes t
    | ⟨t, some stop⟩ => ⟨t, some stop⟩

end

namespace Session

/-- Runs lines of the standard dialect. -/
def runStandard (rules : Rules) (lines : List Text) (s : Session) : Outcome :=
  match Node.parse lines with
  | some nodes => Node.runAll rules nodes s
  | none => ⟨s, some (.failure .tooDeep)⟩

/-- Runs lines of the fast dialect, each as it comes. -/
def runFast (rules : Rules) : (lines : List Text) → Session → Outcome
  | [], s => ⟨s, none⟩
  | line :: lines, s =>
    match (Statement.ofFastText line).run rules s with
    | ⟨t, none⟩ => runFast rules lines t
    | ⟨t, some stop⟩ => ⟨t, some stop⟩

end Session

end LineScript
