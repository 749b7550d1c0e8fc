import LineScript.Proofs.Run.Event

/-!
# Every run ends

`Runs` gives the meaning of trees by rules in which a loop has no bound of its own: it tests, makes
a round, counts it, and goes on unless the count has reached the limit. A derivation is finite, so
what has one is a run that ends. `Runs.nodes_iff` says that all nodes have exactly one, whatever the
limits are, and that it ends as `Node.runAll` says. For loops this rests on the limit alone: each
round brings the count nearer to it (`Session.rounds_sub`).
-/

namespace LineScript

/-- What can be run: a part of a tree, or a loop that has made some rounds. -/
inductive Task
  | statement (statement : Statement)
  | node (node : Node)
  | alternative (a : Alternative)
  | nodes (nodes : List Node)
  | loop (test : Session → Except Stop Bool) (body : Task) (limit : Int) (made : Nat)

/-- The session `s` and a task lead to an outcome. A loop makes a further round until its test
fails, something stops it, or its limit is reached. -/
inductive Runs [Host] (rules : Rules) : Task → Session → Outcome → Prop
  | simple {statement : Statement} {s : Session} :
    statement.isSimple = true → Runs rules (.statement statement) s (statement.run rules s)
  | forLoopClosed {counter : Counter} {body : Statement} {line : Text} {s : Session} :
    rules.features.allows .looping = false →
      Runs rules (.statement (.forLoop counter body line)) s
        ⟨s, some (.failure (.disabled .looping))⟩
  | forLoopStop {counter : Counter} {body : Statement} {line : Text} {s t : Session}
    {reason : Stop} :
    rules.features.allows .looping = true →
      s.assignText counter.name counter.start = ⟨t, some reason⟩ →
      Runs rules (.statement (.forLoop counter body line)) s ⟨t, some reason⟩
  | forLoop {counter : Counter} {body : Statement} {line : Text} {s t : Session} {o : Outcome} :
    rules.features.allows .looping = true → s.assignText counter.name counter.start = ⟨t, none⟩ →
      Runs rules (.loop (Session.testCounter counter) (.statement body) rules.limits.loop 0) t o →
        Runs rules (.statement (.forLoop counter body line)) s o
  | ofStatement {statement : Statement} {s : Session} {o : Outcome} :
    Runs rules (.statement statement) s o → Runs rules (.node (.statement statement)) s o
  | conditionalClosed {condition : Condition} {body : List Node} {rest : Alternative} {line : Text}
    {s : Session} :
    rules.features.allows .conditions = false →
      Runs rules (.node (.conditional condition body rest line)) s
        ⟨s, some (.failure (.disabled .conditions))⟩
  | conditional {condition : Condition} {body : List Node} {rest : Alternative} {line : Text}
    {s : Session} {o : Outcome} :
    rules.features.allows .conditions = true →
      Runs rules (.alternative (.elseIf condition body rest)) s o →
      Runs rules (.node (.conditional condition body rest line)) s o
  | duringClosed {condition : Condition} {body : List Node} {line : Text} {s : Session} :
    rules.features.allows .looping = false →
      Runs rules (.node (.during condition body line)) s ⟨s, some (.failure (.disabled .looping))⟩
  | during {condition : Condition} {body : List Node} {line : Text} {s : Session} {o : Outcome} :
    rules.features.allows .looping = true →
      Runs rules (.loop (Session.test condition) (.nodes body) rules.limits.during 0) s o →
        Runs rules (.node (.during condition body line)) s o
  | dangling {line : Text} {elseIf : Bool} {s : Session} :
    Runs rules (.node (.dangling line elseIf)) s ⟨s, some (.failure (.dangling line elseIf))⟩
  | none {s : Session} : Runs rules (.alternative .none) s ⟨s, .none⟩
  | otherwise {body : List Node} {s : Session} {o : Outcome} :
    Runs rules (.nodes body) s o → Runs rules (.alternative (.otherwise body)) s o
  | elseIfFail {condition : Condition} {body : List Node} {rest : Alternative} {s : Session}
    {reason : Stop} :
    s.test condition = .error reason →
      Runs rules (.alternative (.elseIf condition body rest)) s ⟨s, some reason⟩
  | elseIfTrue {condition : Condition} {body : List Node} {rest : Alternative} {s : Session}
    {o : Outcome} :
    s.test condition = .ok true → Runs rules (.nodes body) s o →
      Runs rules (.alternative (.elseIf condition body rest)) s o
  | elseIfFalse {condition : Condition} {body : List Node} {rest : Alternative} {s : Session}
    {o : Outcome} :
    s.test condition = .ok false → Runs rules (.alternative rest) s o →
      Runs rules (.alternative (.elseIf condition body rest)) s o
  | nil {s : Session} : Runs rules (.nodes []) s ⟨s, .none⟩
  | stop {node : Node} {nodes : List Node} {s t : Session} {reason : Stop} :
    Runs rules (.node node) s ⟨t, some reason⟩ →
      Runs rules (.nodes (node :: nodes)) s ⟨t, some reason⟩
  | cons {node : Node} {nodes : List Node} {s t : Session} {o : Outcome} :
    Runs rules (.node node) s ⟨t, .none⟩ → Runs rules (.nodes nodes) t o →
      Runs rules (.nodes (node :: nodes)) s o
  | loopFail {test : Session → Except Stop Bool} {body : Task} {limit : Int} {made : Nat}
    {s : Session} {reason : Stop} :
    test s = .error reason → Runs rules (.loop test body limit made) s ⟨s, some reason⟩
  | loopEnd {test : Session → Except Stop Bool} {body : Task} {limit : Int} {made : Nat}
    {s : Session} :
    test s = .ok false → Runs rules (.loop test body limit made) s ⟨s, .none⟩
  | loopStop {test : Session → Except Stop Bool} {body : Task} {limit : Int} {made : Nat}
    {s t : Session} {reason : Stop} :
    test s = .ok true → Runs rules body s ⟨t, some reason⟩ →
      Runs rules (.loop test body limit made) s ⟨t, some reason⟩
  /-- The round was the last that the limit allows, and there is no further test. -/
  | loopGuard {test : Session → Except Stop Bool} {body : Task} {limit : Int} {made : Nat}
    {s t : Session} :
    test s = .ok true → Runs rules body s ⟨t, .none⟩ → limit ≤ made + 1 →
      Runs rules (.loop test body limit made) s ⟨t.write Session.guardLine, .none⟩
  | loopAgain {test : Session → Except Stop Bool} {body : Task} {limit : Int} {made : Nat}
    {s t : Session} {o : Outcome} :
    test s = .ok true → Runs rules body s ⟨t, .none⟩ → made + 1 < limit →
      Runs rules (.loop test body limit (made + 1)) t o →
        Runs rules (.loop test body limit made) s o

namespace Session

variable {features : Features} {gate : Gate} {s : Session} {next : Unit → Outcome}

theorem attempt_closed (h : features.allows gate = false) :
    s.attempt (features.require gate) next = ⟨s, some (.failure (.disabled gate))⟩ := by
  rw [Features.require, h]
  rfl

theorem attempt_open (h : features.allows gate = true) :
    s.attempt (features.require gate) next = next () := by
  rw [Features.require, h]
  rfl

/-- A loop may make one round fewer than before it made one, unless that was the last. -/
theorem rounds_sub {limit : Int} {made : Nat} (h : made + 1 < limit) :
    rounds (limit - made) = rounds (limit - (made + 1 : Nat)) + 1 := by
  unfold rounds
  omega

theorem rounds_sub_last {limit : Int} {made : Nat} (h : limit ≤ made + 1) :
    rounds (limit - made) = 1 := by
  unfold rounds
  omega

theorem exists_rounds_eq (limit : Int) : ∃ n, rounds limit = n + 1 :=
  Nat.exists_eq_add_one.2 (Nat.le_max_left 1 _)

/-- A loop tests, and if the test holds it makes a round and goes on. -/
theorem repeatUpTo_succ (test : Session → Except Stop Bool) (body : Session → Outcome)
    (rounds : Nat) (s : Session) :
    repeatUpTo test body (rounds + 1) s =
      s.proceed (test s) fun
        | true => andThen (body s) (repeatUpTo test body rounds)
        | false => ⟨s, none⟩ := by
  rw [repeatUpTo]
  cases test s with
  | error f => rfl
  | ok holds => cases holds <;> rfl

end Session

theorem Node.runAll_cons [Host] (rules : Rules) (node : Node) (nodes : List Node) (s : Session) :
    Node.runAll rules (node :: nodes) s =
      Session.andThen (node.run rules s) (Node.runAll rules nodes) := by
  rw [Node.runAll]
  rfl

/-- How a task ends. A loop that has made some rounds may make those that its limit still allows. -/
def Task.outcome [Host] (rules : Rules) : Task → Session → Outcome
  | .statement action => action.run rules
  | .node part => part.run rules
  | .alternative rest => rest.run rules
  | .nodes parts => Node.runAll rules parts
  | .loop test body limit made =>
    Session.repeatUpTo test (body.outcome rules) (Session.rounds (limit - made))

theorem Task.outcome_loop [Host] (rules : Rules) (test : Session → Except Stop Bool) (body : Task)
    (limit : Int) :
    (Task.loop test body limit 0).outcome rules =
      Session.repeatUpTo test (body.outcome rules) (Session.rounds limit) := by
  simp [Task.outcome]

namespace Runs

variable {rules : Rules}

/-- What is derived for a task is how it ends. -/
theorem eq_outcome [Host] {task : Task} {s : Session} {o : Outcome} (h : Runs rules task s o) :
    o = task.outcome rules s := by
  induction h with
  | simple => rfl
  | forLoopClosed hgate => rw [Task.outcome, Statement.run, Session.attempt_closed hgate]
  | forLoopStop hgate hstart =>
    rw [Task.outcome, Statement.run, Session.attempt_open hgate, hstart, Session.andThen]
  | forLoop hgate hstart _ ih =>
    rw [Task.outcome, Statement.run, Session.attempt_open hgate, hstart, ih, Task.outcome_loop]
    rfl
  | ofStatement _ ih => rw [ih, Task.outcome, Task.outcome, Node.run]
  | conditionalClosed hgate => rw [Task.outcome, Node.run, Session.attempt_closed hgate]
  | conditional hgate _ ih =>
    rw [ih, Task.outcome, Task.outcome, Node.run, Session.attempt_open hgate, Alternative.run]
  | duringClosed hgate => rw [Task.outcome, Node.run, Session.attempt_closed hgate]
  | during hgate _ ih =>
    rw [ih, Task.outcome_loop, Task.outcome, Node.run, Session.attempt_open hgate]
    rfl
  | dangling => rw [Task.outcome, Node.run]
  | none => rw [Task.outcome, Alternative.run]
  | otherwise _ ih => rw [ih, Task.outcome, Task.outcome, Alternative.run]
  | elseIfFail htest => rw [Task.outcome, Alternative.run, htest, Session.proceed]
  | elseIfTrue htest _ ih | elseIfFalse htest _ ih =>
    rw [ih, Task.outcome, Task.outcome, Alternative.run, htest, Session.proceed]
  | nil => rw [Task.outcome, Node.runAll]
  | stop _ ih =>
    rw [Task.outcome] at ih
    rw [Task.outcome, Node.runAll, ← ih]
  | cons _ _ ih ihs =>
    rw [Task.outcome] at ih
    rw [Task.outcome, Node.runAll, ← ih, ihs, Task.outcome]
  | @loopFail test body limit made s f htest =>
    obtain ⟨n, hn⟩ := Session.exists_rounds_eq (limit - made)
    rw [Task.outcome, hn, Session.repeatUpTo, htest]
  | @loopEnd test body limit made s htest =>
    obtain ⟨n, hn⟩ := Session.exists_rounds_eq (limit - made)
    rw [Task.outcome, hn, Session.repeatUpTo, htest]
  | @loopStop test body limit made s t reason htest _ ih =>
    obtain ⟨n, hn⟩ := Session.exists_rounds_eq (limit - made)
    rw [Task.outcome, hn, Session.repeatUpTo, htest, ← ih]
  | loopGuard htest _ hlast ih =>
    rw [Task.outcome, Session.rounds_sub_last hlast, Session.repeatUpTo, htest, ← ih]
    rfl
  | loopAgain htest _ hmore _ ih ihs =>
    rw [Task.outcome] at ihs
    rw [Task.outcome, Session.rounds_sub hmore, Session.repeatUpTo, htest, ← ih]
    exact ihs

/-- A loop whose rounds end comes to its end. -/
theorem ofLoop [Host] (test : Session → Except Stop Bool) (body : Task)
    (h : ∀ s, Runs rules body s (body.outcome rules s)) (limit : Int) (made : Nat) (s : Session) :
    Runs rules (.loop test body limit made) s
      ((Task.loop test body limit made).outcome rules s) := by
  -- By induction on the rounds that are still allowed.
  generalize hleft : Session.rounds (limit - made) = left
  induction left generalizing made s with
  | zero =>
    unfold Session.rounds at hleft
    omega
  | succ left ih =>
    rw [Task.outcome, hleft, Session.repeatUpTo]
    cases htest : test s with
    | error f => exact .loopFail htest
    | ok holds =>
      cases holds with
      | false => exact .loopEnd htest
      | true =>
        have hround := h s
        cases ho : body.outcome rules s with
        | mk t reason =>
          rw [ho] at hround
          cases reason with
          | some reason => exact .loopStop htest hround
          | none =>
            by_cases hlast : limit ≤ made + 1
            · rw [Session.rounds_sub_last hlast] at hleft
              cases hleft
              exact .loopGuard htest hround hlast
            · rw [Int.not_le] at hlast
              rw [Session.rounds_sub hlast] at hleft
              have hrest := ih (made + 1) t (Nat.succ.inj hleft)
              rw [Task.outcome, Nat.succ.inj hleft] at hrest
              exact .loopAgain htest hround hlast hrest

theorem outcome_statement [Host] (statement : Statement) (s : Session) :
    Runs rules (.statement statement) s (statement.run rules s) := by
  induction statement generalizing s with
  | forLoop counter body line ih =>
    rw [Statement.run]
    cases hgate : rules.features.allows .looping with
    | false =>
      rw [Session.attempt_closed hgate]
      exact .forLoopClosed hgate
    | true =>
      rw [Session.attempt_open hgate]
      cases hstart : s.assignText counter.name counter.start with
      | mk t reason =>
        cases reason with
        | some reason => exact .forLoopStop hgate hstart
        | none =>
          refine .forLoop hgate hstart ?_
          have hloop := ofLoop (Session.testCounter counter) (.statement body) ih
            rules.limits.loop 0 t
          rw [Task.outcome_loop] at hloop
          exact hloop
  | skip | assign | assignList | declare | log | wait | invalid => exact .simple rfl

mutual

theorem outcome_node [Host] (node : Node) (s : Session) :
    Runs rules (.node node) s (node.run rules s) := by
  cases node with
  | statement statement =>
    rw [Node.run]
    exact .ofStatement (outcome_statement statement s)
  | conditional condition body rest line =>
    rw [Node.run]
    cases hgate : rules.features.allows .conditions with
    | false =>
      rw [Session.attempt_closed hgate]
      exact .conditionalClosed hgate
    | true =>
      rw [Session.attempt_open hgate]
      refine .conditional hgate ?_
      cases htest : s.test condition with
      | error f => exact .elseIfFail htest
      | ok holds =>
        cases holds with
        | true => exact .elseIfTrue htest (outcome_nodes body s)
        | false => exact .elseIfFalse htest (outcome_alternative rest s)
  | during condition body line =>
    rw [Node.run]
    cases hgate : rules.features.allows .looping with
    | false =>
      rw [Session.attempt_closed hgate]
      exact .duringClosed hgate
    | true =>
      rw [Session.attempt_open hgate]
      refine .during hgate ?_
      have hloop := ofLoop (Session.test condition) (.nodes body) (outcome_nodes body)
        rules.limits.during 0 s
      rw [Task.outcome_loop] at hloop
      exact hloop
  | dangling line elseIf =>
    rw [Node.run]
    exact .dangling

theorem outcome_alternative [Host] (a : Alternative) (s : Session) :
    Runs rules (.alternative a) s (a.run rules s) := by
  cases a with
  | none =>
    rw [Alternative.run]
    exact .none
  | otherwise body =>
    rw [Alternative.run]
    exact .otherwise (outcome_nodes body s)
  | elseIf condition body rest =>
    rw [Alternative.run]
    cases htest : s.test condition with
    | error f => exact .elseIfFail htest
    | ok holds =>
      cases holds with
      | true => exact .elseIfTrue htest (outcome_nodes body s)
      | false => exact .elseIfFalse htest (outcome_alternative rest s)

theorem outcome_nodes [Host] (nodes : List Node) (s : Session) :
    Runs rules (.nodes nodes) s (Node.runAll rules nodes s) := by
  cases nodes with
  | nil =>
    rw [Node.runAll]
    exact .nil
  | cons node nodes =>
    rw [Node.runAll]
    have hnode := outcome_node node s
    cases ho : node.run rules s with
    | mk t reason =>
      rw [ho] at hnode
      cases reason with
      | some reason => exact .stop hnode
      | none => exact .cons hnode (outcome_nodes nodes t)

end

/-- Nodes have one run from each session, and it ends. -/
theorem nodes_iff [Host] {nodes : List Node} {s : Session} {o : Outcome} :
    Runs rules (.nodes nodes) s o ↔ o = Node.runAll rules nodes s := by
  constructor
  · intro h
    exact h.eq_outcome
  · rintro rfl
    exact outcome_nodes nodes s

end Runs

end LineScript
