import LineScript.Proofs.Block.Part
import LineScript.Proofs.Expression.OneLine
import LineScript.Proofs.Run.Containment
import LineScript.Proofs.Run.Ending

/-!
# Output on one line each

A session is on one line if its values and all lines written are. Every statement whose texts are on
one line keeps it so (`Statement.oneLine_run`), and hence every run of a tree does (`Runs.oneLine`).
The lines of a script have no line feed and all texts of a run are parts of them, so no line of a
report has one, and the lines can be read back from the text of the report (`Script.splitOn_text`).
-/

namespace LineScript

open Text

/-- The values and the lines written are on one line each. -/
structure Session.OneLine (s : Session) : Prop where
  names : s.names.OneLine
  output : ∀ line ∈ s.output.toList, line.OneLine

/-- The session is on one line, and so is the message if a failure stops the run. -/
structure Outcome.OneLine (o : Outcome) : Prop where
  session : o.session.OneLine
  failure : ∀ f, o.stop = some (.failure f) → f.OneLine

namespace Session

variable {rules : Rules} {s : Session}

theorem oneLine_start (clock : Double) : OneLine { clock := clock } where
  names := Namespace.oneLine_empty
  output := by simp

theorem OneLine.write (hs : s.OneLine) {line : Text} (hline : line.OneLine) :
    (s.write line).OneLine where
  names := hs.names
  output := by
    have houtput : (s.write line).output.toList = s.output.toList ++ [line] := by
      simp [Session.write]
    rw [houtput, List.forall_mem_append]
    exact ⟨hs.output, List.forall_mem_singleton.2 hline⟩

theorem OneLine.guard (hs : s.OneLine) : (s.write guardLine).OneLine := hs.write (by decide)

theorem OneLine.assign (hs : s.OneLine) (name : Text) {v : Value} (hv : v.OneLine) :
    (s.assign name v).OneLine :=
  ⟨Namespace.oneLine_set hs.names name hv, hs.output⟩

theorem OneLine.assignList (hs : s.OneLine) (name : Text) {items : List Value}
    (h : ∀ v ∈ items, v.OneLine) :
    (s.assignList name items).OneLine :=
  ⟨Namespace.oneLine_set hs.names name (.list _ h), hs.output⟩

theorem OneLine.keep (hs : s.OneLine) : Outcome.OneLine ⟨s, none⟩ := ⟨hs, fun f h => by cases h⟩

theorem OneLine.fail (hs : s.OneLine) {f : Failure} (hf : f.OneLine) :
    Outcome.OneLine ⟨s, some (.failure f)⟩ where
  session := hs
  failure := fun g h => by
    cases h
    exact hf

theorem OneLine.except (hs : s.OneLine) (e : Exception) :
    Outcome.OneLine ⟨s, some (.exception e)⟩ where
  session := hs
  failure := fun f h => by cases h

theorem OneLine.halt {α : Type} {A : α → Prop} {reason : Stop} (hs : s.OneLine)
    (hreason : OneLined A (.error reason)) : Outcome.OneLine ⟨s, some reason⟩ := by
  cases reason with
  | failure f => exact hs.fail hreason
  | exception e => exact hs.except e

theorem OneLine.proceed {α : Type} {A : α → Prop} {result : Except Stop α} {next : α → Outcome}
    (hs : s.OneLine) (hresult : OneLined A result) (hnext : ∀ a, A a → (next a).OneLine) :
    (s.proceed result next).OneLine := by
  cases result with
  | ok a => exact hnext a hresult
  | error reason => exact hs.halt hresult

theorem OneLine.attempt {α : Type} {A : α → Prop} {result : Except Failure α} {next : α → Outcome}
    (hs : s.OneLine) (hresult : OneLined A (Failure.lift result))
    (hnext : ∀ a, A a → (next a).OneLine) :
    (s.attempt result next).OneLine :=
  hs.proceed hresult hnext

theorem oneLined_require (features : Features) (gate : Gate) :
    OneLined (fun _ => True) (Failure.lift (features.require gate)) := by
  unfold Features.require
  split
  · trivial
  · exact List.forall_mem_nil _

theorem oneLined_looselyEquals? [Host] (v w : Value) :
    OneLined (fun _ => True) (Fault.lift (v.looselyEquals? w)) :=
  oneLined_fault fun _ _ => trivial

/-- A condition on one line can be tested, or the failure is on one line. -/
theorem oneLined_test [Host] {c : Condition} (hc : ∀ t ∈ c.texts, t.OneLine)
    (hs : s.names.OneLine) :
    OneLined (fun _ => True) (s.test c) := by
  have hleft := Literal.oneLined_evalText hs (hc c.left (by simp [Condition.texts]))
  have hright := Literal.oneLined_evalText hs (hc c.right (by simp [Condition.texts]))
  exact hleft.bind fun v _ => hright.bind fun w _ => oneLined_looselyEquals? v w

theorem oneLined_testCounter [Host] {c : Counter} (hc : ∀ t ∈ c.texts, t.OneLine)
    (hs : s.names.OneLine) :
    OneLined (fun _ => True) (s.testCounter c) := by
  have hcheck : c.check.OneLine := hc c.check (by simp [Counter.texts])
  have hleft : OneLined Value.OneLine (Failure.lift (Reference.read s.names (.value c.check))) :=
    Reference.oneLined_read hs ((hcheck.append (by decide)).cons (by decide))
  have hright := Literal.oneLined_evalText hs (hc c.stop (by simp [Counter.texts]))
  exact hleft.bind fun v _ => hright.bind fun w _ => oneLined_looselyEquals? v w

/-! ## Statements -/

theorem OneLine.emit [Host] (hs : s.OneLine) {v : Value} (hv : v.OneLine) : (s.emit v).OneLine :=
  hs.proceed (oneLined_fault fun _ => Value.oneLine_of_render? hv) fun _ hline =>
    (hs.write hline).keep

theorem OneLine.assignText (hs : s.OneLine) (name : Text) {value : Text} (hvalue : value.OneLine) :
    (s.assignText name value).OneLine :=
  hs.attempt (Literal.oneLined_evalText hs.names hvalue) fun _ hv => (hs.assign name hv).keep

theorem OneLine.assignItems (hs : s.OneLine) (name : Text) {items : List Text}
    (h : ∀ item ∈ items, item.OneLine) :
    (s.assignItems name items).OneLine :=
  hs.attempt (Literal.oneLined_evalItems hs.names h) fun _ hvs => (hs.assignList name hvs).keep

theorem OneLine.declare (hs : s.OneLine) (name : Text) {value : Text} (hvalue : value.OneLine) :
    (s.declare name value).OneLine := by
  unfold Session.declare
  split
  · next items hitems =>
    have hinside : items.OneLine := hvalue.mono (partOf_of_enclosedLine? hitems)
    exact hs.assignItems name fun item hitem => hinside.mono (Line.partOf_of_listItems item hitem)
  · exact hs.assignText name hvalue

theorem oneLined_evalArgument [Host] (hs : s.names.OneLine) {argument : Text}
    (hargument : argument.OneLine) :
    OneLined Value.OneLine (evalArgument s.names argument) := by
  have heval := Expression.oneLined_evalText hs hargument
  unfold evalArgument
  cases hresult : Expression.evalText s.names argument with
  | ok v =>
    rw [hresult] at heval
    exact heval
  | error reason =>
    rw [hresult] at heval
    -- The argument is put into the failure of an expression, and other failures stay as they are.
    cases reason with
    | exception e => trivial
    | failure f =>
      cases f with
      | expression => exact List.forall_mem_singleton.2 hargument
      | _ => exact heval

theorem OneLine.log [Host] (hs : s.OneLine) (rules : Rules) {argument : Text}
    (hargument : argument.OneLine) :
    (s.log rules argument).OneLine := by
  unfold Session.log
  split
  · refine hs.attempt (oneLined_require _ _) fun _ _ => ?_
    unfold logClock
    cases s.milliseconds? with
    | ok n => exact hs.emit (.number _)
    | error e => exact hs.except e
  · split
    · next r hr =>
      have htext : r.text.OneLine := Reference.text_of_ofText? hr ▸ hargument
      exact hs.attempt (Reference.oneLined_read hs.names htext) fun _ => hs.emit
    · exact hs.proceed (oneLined_evalArgument hs.names hargument) fun _ => hs.emit

theorem OneLine.wait [Host] (hs : s.OneLine) (rules : Rules) (ms : Double) :
    (s.wait rules ms).OneLine := by
  refine hs.attempt (oneLined_require _ _) fun _ _ => ?_
  split
  · unfold Stop.longPause
    split
    · exact hs.fail (by simp [Failure.OneLine, Failure.texts])
    · exact hs.except _
  · unfold sleep
    split
    · exact hs.except _
    · exact OneLine.keep ⟨hs.names, hs.output⟩

end Session

/-- A statement that is no loop, with its texts on one line, keeps everything on one line. -/
theorem Statement.oneLine_run [Host] (rules : Rules) {statement : Statement}
    (hsimple : statement.isSimple = true) (h : ∀ t ∈ statement.texts, t.OneLine) {s : Session}
    (hs : s.OneLine) : (statement.run rules s).OneLine := by
  cases statement with
  | skip line => exact hs.keep
  | assign name value line => exact hs.assignText name (h value (by simp [texts]))
  | assignList name items line =>
    exact hs.assignItems name fun item hitem => h item (by simp [texts, hitem])
  | declare kind name value line => exact hs.declare name (h value (by simp [texts]))
  | log argument line => exact hs.log rules (h argument (by simp [texts]))
  | wait ms line => exact hs.wait rules ms
  | invalid line problem => exact hs.fail h
  | forLoop => cases hsimple

/-! ## Runs -/

/-- The texts of the task are on one line; a loop tests without a failure, or with one on one
line. -/
def Task.OneLine : Task → Prop
  | .statement action => ∀ t ∈ action.texts, t.OneLine
  | .node part => ∀ t ∈ part.texts, t.OneLine
  | .alternative rest => ∀ t ∈ rest.texts, t.OneLine
  | .nodes parts => ∀ t ∈ Node.textsAll parts, t.OneLine
  | .loop test body _ _ =>
    (∀ s : Session, s.names.OneLine → OneLined (fun _ => True) (test s)) ∧ body.OneLine

/-- Along every derivation everything stays on one line. -/
theorem Runs.oneLine [Host] {rules : Rules} {task : Task} {s : Session} {o : Outcome}
    (h : Runs rules task s o) (ht : task.OneLine) (hs : s.OneLine) : o.OneLine := by
  induction h with
  | simple hsimple => exact Statement.oneLine_run rules hsimple ht hs
  | forLoopClosed | conditionalClosed | duringClosed =>
    exact hs.fail (by simp [Failure.OneLine, Failure.texts])
  | @forLoopStop counter body line s t reason _ hstart =>
    simp only [Task.OneLine, Statement.texts, List.forall_mem_append, List.forall_mem_cons] at ht
    obtain ⟨⟨-, hcounter⟩, -⟩ := ht
    have hassign := hs.assignText counter.name (hcounter counter.start (by simp [Counter.texts]))
    rwa [hstart] at hassign
  | @forLoop counter body line s t o _ hstart _ ih =>
    simp only [Task.OneLine, Statement.texts, List.forall_mem_append, List.forall_mem_cons] at ht
    obtain ⟨⟨-, hcounter⟩, hbody⟩ := ht
    have hassign := hs.assignText counter.name (hcounter counter.start (by simp [Counter.texts]))
    rw [hstart] at hassign
    exact ih ⟨fun s => Session.oneLined_testCounter hcounter, hbody⟩ hassign.session
  | ofStatement _ ih =>
    rw [Task.OneLine, Node.texts] at ht
    exact ih ht hs
  | conditional _ _ ih =>
    simp only [Task.OneLine, Node.texts, List.forall_mem_append, List.forall_mem_cons] at ht
    obtain ⟨⟨⟨-, hcondition⟩, hbody⟩, hrest⟩ := ht
    refine ih ?_ hs
    rw [Task.OneLine, Alternative.texts, List.forall_mem_append, List.forall_mem_append]
    exact ⟨⟨hcondition, hbody⟩, hrest⟩
  | during _ _ ih =>
    simp only [Task.OneLine, Node.texts, List.forall_mem_append, List.forall_mem_cons] at ht
    obtain ⟨⟨-, hcondition⟩, hbody⟩ := ht
    exact ih ⟨fun s => Session.oneLined_test hcondition, hbody⟩ hs
  | dangling =>
    rw [Task.OneLine, Node.texts] at ht
    exact hs.fail ht
  | none | nil => exact hs.keep
  | otherwise _ ih =>
    rw [Task.OneLine, Alternative.texts] at ht
    exact ih ht hs
  | elseIfFail htest =>
    rw [Task.OneLine, Alternative.texts, List.forall_mem_append, List.forall_mem_append] at ht
    have hresult := Session.oneLined_test ht.1.1 hs.names
    rw [htest] at hresult
    exact hs.halt hresult
  | elseIfTrue _ _ ih =>
    rw [Task.OneLine, Alternative.texts, List.forall_mem_append, List.forall_mem_append] at ht
    exact ih ht.1.2 hs
  | elseIfFalse _ _ ih =>
    rw [Task.OneLine, Alternative.texts, List.forall_mem_append, List.forall_mem_append] at ht
    exact ih ht.2 hs
  | stop _ ih =>
    rw [Task.OneLine, Node.textsAll, List.forall_mem_append] at ht
    exact ih ht.1 hs
  | cons _ _ ihnode ihnodes =>
    rw [Task.OneLine, Node.textsAll, List.forall_mem_append] at ht
    exact ihnodes ht.2 (ihnode ht.1 hs).session
  | loopFail htest =>
    have hresult := ht.1 _ hs.names
    rw [htest] at hresult
    exact hs.halt hresult
  | loopEnd => exact hs.keep
  | loopStop _ _ ih => exact ih ht.2 hs
  | loopGuard _ _ _ ih => exact (ih ht.2 hs).session.guard.keep
  | loopAgain _ _ _ _ ihbody ihloop => exact ihloop ht (ihbody ht.2 hs).session

namespace Session

variable {lines : List Text} {s : Session}

theorem oneLine_runStandard [Host] (rules : Rules) (h : ∀ line ∈ lines, line.OneLine)
    (hs : s.OneLine) :
    (s.runStandard rules lines).OneLine := by
  unfold runStandard
  split
  · next nodes hnodes =>
    refine (Runs.outcome_nodes nodes s).oneLine (fun t ht => ?_) hs
    obtain ⟨line, hline, hsub⟩ := Node.partOf_of_parse hnodes t ht
    exact (h line hline).mono hsub
  · exact hs.fail (by simp [Failure.OneLine, Failure.texts])

theorem oneLine_runFast [Host] (rules : Rules) (h : ∀ line ∈ lines, line.OneLine) (hs : s.OneLine) :
    (s.runFast rules lines).OneLine := by
  induction lines generalizing s with
  | nil => exact hs.keep
  | cons line lines ih =>
    rw [List.forall_mem_cons] at h
    have hfirst : ((Statement.ofFastText line).run rules s).OneLine :=
      (Runs.outcome_statement (Statement.ofFastText line) s).oneLine
        (fun t ht => h.1.mono (Statement.partOf_of_ofFastText line t ht)) hs
    rw [runFast]
    split
    · next t hrun =>
      rw [hrun] at hfirst
      exact ih h.2 hfirst.session
    · next t stop hrun =>
      rw [hrun] at hfirst
      exact hfirst

end Session

/-! ## Scripts -/

namespace Script

variable (limits : Limits) (clock : Double) (code : Text)

/-- The lines of a script have no line feed. -/
theorem oneLine_lines : ∀ line ∈ lines code, line.OneLine :=
  fun _ hline => (not_mem_of_mem_splitOn hline).1

theorem oneLine_outcome [Host] : (outcome limits clock code).OneLine := by
  unfold outcome
  dsimp only
  split
  · exact Session.oneLine_runFast _ (oneLine_lines code) (Session.oneLine_start clock)
  · exact Session.oneLine_runStandard _ (oneLine_lines code) (Session.oneLine_start clock)

variable {limits clock code}

theorem oneLine_of_run [Host] {report : Report} (h : run limits clock code = .ok report) :
    ∀ line ∈ report.lines, line.OneLine := by
  have houtcome := oneLine_outcome limits clock code
  rw [run_eq, Report.ofOutcome] at h
  split at h
  · cases h
    exact houtcome.session.output
  · next f hstop =>
    cases h
    have hmessage : (Report.failureLine f).OneLine :=
      OneLine.append (by decide) (Failure.oneLine_message (houtcome.failure f hstop))
    exact (houtcome.session.write hmessage).output
  · cases h

variable (limits clock code)

/-- No line of a report has a line feed, the line about a failure included, so that the lines can be
read back from the text of the report. A report there is, if the run is served. -/
theorem splitOn_text [Host] :
    (∀ line ∈ emitted limits clock code, '\n' ∉ line) ∧
      (∀ report, run limits clock code = .ok report →
        (∀ line ∈ report.lines, '\n' ∉ line) ∧
          (report.lines ≠ [] → report.text.splitOn '\n' = report.lines)) ∧
      (Served limits clock code → ∃ report, run limits clock code = .ok report) := by
  refine ⟨?_, fun report hreport => ?_, fun hserved => hserved.exists_report⟩
  · rw [← output_eq_emitted]
    exact (oneLine_outcome limits clock code).session.output
  · have hlines := oneLine_of_run hreport
    exact ⟨hlines, List.splitOn_intercalate '\n' hlines⟩

/-- A list of texts with other characters that end lines, and then a character that no token begins
with. -/
def separators : Text :=
  "/t/ = #'a\rb', _maybe_, '\u2028'#\nlog([t] + \"\u0085.\")\nlog(\u000c+\u0007)".toList

theorem splitOn_text_separators :
    Served {} (.ofInt 7) separators ∧
      ∃ report, run {} (.ofInt 7) separators = .ok report ∧
        report.lines = ["a\rb,,\u2028\u0085.".toList,
          "Error: Error evaluating log argument: +\u0007: Unexpected character '\\x07'".toList] ∧
        (∀ line ∈ report.lines, '\n' ∉ line) ∧ report.text.splitOn '\n' = report.lines := by
  have hserved : Served {} (.ofInt 7) separators :=
    ⟨by decide +kernel, by decide +kernel, fun h => absurd h (by decide +kernel)⟩
  obtain ⟨-, hreports, hexists⟩ := splitOn_text {} (.ofInt 7) separators
  obtain ⟨report, hreport⟩ := hexists hserved
  obtain ⟨hlines, hsplit⟩ := hreports report hreport
  have hvalue : (run {} (.ofInt 7) separators).toOption.map Report.lines =
      some ["a\rb,,\u2028\u0085.".toList,
      "Error: Error evaluating log argument: +\u0007: Unexpected character '\\x07'".toList] := by
    decide +kernel
  rw [hreport] at hvalue
  have heq := Option.some.inj hvalue
  exact ⟨hserved, report, hreport, heq, hlines, hsplit (by simp [heq])⟩

end Script

end LineScript
