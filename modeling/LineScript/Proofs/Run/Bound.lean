import LineScript.Proofs.Run.Containment
import LineScript.Proofs.Run.Ending

/-!
# How much a run can write

The weight of a tree is the most lines that its run can write: one for each `log`, the heaviest
branch of a conditional, and for a loop that of its body in each round that the limit allows, and
the guard line. The bound holds along every derivation of a run (`Runs.adds`), so it holds of runs
that stop as well, and loops that reach their limit inside other loops are paid for by their own
weight. `Script.lines_bounded` is what follows for scripts.
-/

namespace LineScript

/-! ## Weights -/

/-- How many rounds a loop of that limit makes at most. -/
def Limits.most (limit : Int) : Nat := (max 1 limit).toNat

/-- The most lines that a statement writes. -/
def Statement.weight (limits : Limits) : Statement → Nat
  | .log _ _ => 1
  | .forLoop _ body _ => Limits.most limits.loop * body.weight limits + 1
  | _ => 0

mutual

/-- The most lines that a node writes. -/
def Node.weight (limits : Limits) : Node → Nat
  | .statement statement => statement.weight limits
  | .conditional _ body rest _ => max (Node.weightAll limits body) (rest.weight limits)
  | .during _ body _ => Limits.most limits.during * Node.weightAll limits body + 1
  | .dangling _ _ => 0

/-- The most lines that one of the alternatives writes. -/
def Alternative.weight (limits : Limits) : Alternative → Nat
  | .none => 0
  | .otherwise body => Node.weightAll limits body
  | .elseIf _ body rest => max (Node.weightAll limits body) (rest.weight limits)

/-- The most lines that nodes write one after the other. -/
def Node.weightAll (limits : Limits) : List Node → Nat
  | [] => 0
  | node :: nodes => node.weight limits + Node.weightAll limits nodes

end

/-- The most lines that a task writes. -/
def Task.weight (limits : Limits) : Task → Nat
  | .statement action => action.weight limits
  | .node part => part.weight limits
  | .alternative rest => rest.weight limits
  | .nodes parts => Node.weightAll limits parts
  | .loop _ body limit made => Limits.most (limit - made) * body.weight limits + 1

namespace Limits

theorem most_sub_last {limit : Int} {made : Nat} (h : limit ≤ made + 1) :
    most (limit - made) = 1 := by
  unfold most
  omega

theorem most_sub {limit : Int} {made : Nat} (h : made + 1 < limit) :
    most (limit - made) = most (limit - (made + 1 : Nat)) + 1 := by
  unfold most
  omega

theorem most_pos (limit : Int) : 0 < most limit := by
  unfold most
  omega

end Limits

/-! ## Lines added -/

namespace Session

/-- The output of `t` is that of `s` and at most `n` lines more. -/
def Adds (n : Nat) (s t : Session) : Prop :=
  ∃ written : List Text, t.output.toList = s.output.toList ++ written ∧ written.length ≤ n

namespace Adds

variable {m n : Nat} {s t u : Session}

theorem refl (n : Nat) (s : Session) : Adds n s s := ⟨[], by simp, Nat.zero_le n⟩

theorem mono (h : Adds m s t) (hmn : m ≤ n) : Adds n s t := by
  obtain ⟨written, houtput, hlength⟩ := h
  exact ⟨written, houtput, Nat.le_trans hlength hmn⟩

theorem trans (h : Adds m s t) (h' : Adds n t u) : Adds (m + n) s u := by
  obtain ⟨written, houtput, hlength⟩ := h
  obtain ⟨more, houtput', hlength'⟩ := h'
  refine ⟨written ++ more, ?_, ?_⟩
  · rw [houtput', houtput, List.append_assoc]
  · rw [List.length_append]
    omega

theorem write (s : Session) (line : Text) :
    Adds 1 s (s.write line) := ⟨[line], by simp [Session.write], by simp⟩

end Adds

/-- An assignment writes nothing. -/
theorem output_assignText (name value : Text) (s : Session) :
    (s.assignText name value).session.output = s.output := by
  rw [assignText]
  cases Literal.evalText s.names value with
  | ok v => rfl
  | error f => rfl

theorem adds_assignText {name value : Text} {s t : Session} {stop : Option Stop}
    (h : s.assignText name value = ⟨t, stop⟩) : Adds 0 s t := by
  have houtput : t.output = s.output := by
    rw [← output_assignText name value s, h]
  exact ⟨[], by simp [houtput], by simp⟩

end Session

open Session (Adds)

/-- A statement that is no loop writes one line if it is a `log`, and none otherwise. -/
theorem Statement.adds_run [Host] (rules : Rules) {statement : Statement}
    (hsimple : statement.isSimple = true) (s : Session) :
    Adds (statement.weight rules.limits) s (statement.run rules s).session := by
  have heffect := effect_run rules s hsimple
  generalize statement.run rules s = o at heffect
  cases heffect with
  | skip | stop => exact .refl _ s
  | assign | assignList | declare | declareList | wait => exact .refl _ s
  | log argument line written => exact .write s written

/-- Along every derivation the lines added are at most the weight of the task. -/
theorem Runs.adds [Host] {rules : Rules} {task : Task} {s : Session} {o : Outcome}
    (h : Runs rules task s o) :
    Adds (task.weight rules.limits) s o.session := by
  induction h with
  | simple hsimple => exact Statement.adds_run rules hsimple _
  | forLoopClosed | conditionalClosed | duringClosed | dangling | none | nil => exact .refl _ _
  | elseIfFail | loopFail | loopEnd => exact .refl _ _
  | forLoopStop _ hstart => exact (Session.adds_assignText hstart).mono (Nat.zero_le _)
  | @forLoop counter body line s t o _ hstart _ ih =>
    refine ((Session.adds_assignText hstart).trans ih).mono (Nat.le_of_eq ?_)
    simp [Task.weight, Statement.weight]
  | ofStatement _ ih =>
    rw [Task.weight, Node.weight]
    exact ih
  | conditional _ _ ih =>
    rw [Task.weight, Node.weight]
    rwa [Task.weight, Alternative.weight] at ih
  | during _ _ ih =>
    rw [Task.weight, Node.weight]
    simpa [Task.weight] using ih
  | otherwise _ ih =>
    rw [Task.weight, Alternative.weight]
    exact ih
  | elseIfTrue _ _ ih =>
    rw [Task.weight, Alternative.weight]
    exact ih.mono (Nat.le_max_left _ _)
  | elseIfFalse _ _ ih =>
    rw [Task.weight, Alternative.weight]
    exact ih.mono (Nat.le_max_right _ _)
  | stop _ ih =>
    rw [Task.weight, Node.weightAll]
    exact ih.mono (Nat.le_add_right _ _)
  | cons _ _ ih ihs =>
    rw [Task.weight, Node.weightAll]
    exact ih.trans ihs
  | @loopStop test body limit made s t reason _ _ ih =>
    -- The round that stops is one of those that the weight counts.
    exact ih.mono (Nat.le_succ_of_le (Nat.le_mul_of_pos_left _ (Limits.most_pos (limit - made))))
  | loopGuard _ _ hlast ih =>
    rw [Task.weight, Limits.most_sub_last hlast, Nat.one_mul]
    exact ih.trans (.write _ _)
  | loopAgain _ _ hmore _ ih ihs =>
    refine (ih.trans ihs).mono (Nat.le_of_eq ?_)
    rw [Task.weight, Task.weight, Limits.most_sub hmore, Nat.add_mul, Nat.one_mul]
    omega

/-! ## Scripts -/

namespace Script

/-- The most lines that the run of a script of the standard dialect writes; what is nested too deep
is not run. -/
def weight [Host] (limits : Limits) (code : Text) : Nat :=
  (Node.parse (lines code)).elim 0 (Node.weightAll limits)

theorem adds_outcome [Host] {code : Text} (hfast : (Features.ofLines (lines code)).fast = false)
    (limits : Limits) (clock : Double) :
    Adds (weight limits code) { clock := clock } (outcome limits clock code).session := by
  have hstandard : ¬(rules limits code).features.fast = true := by simp [rules, hfast]
  unfold outcome weight Session.runStandard
  dsimp only
  rw [if_neg hstandard]
  cases Node.parse (lines code) with
  | none => exact .refl _ _
  | some nodes => exact (Runs.outcome_nodes nodes _).adds

/-- A report has the lines that the run wrote, and at most one more about a failure. -/
theorem length_lines_le [Host] {limits : Limits} {clock : Double} {code : Text} {report : Report}
    (h : run limits clock code = .ok report) :
    report.lines.length ≤ (outcome limits clock code).session.output.size + 1 := by
  rw [run_eq, Report.ofOutcome] at h
  split at h
  · cases h
    simp
  · cases h
    simp [Session.write]
  · cases h

/-- Every tree has a run that ends, and one only; whether it stops or not, it keeps the lines
written before and adds at most as many as the tree weighs. So a script of the standard dialect has
at most as many lines in its report, and one more if it fails; and it has a report if its run is
served. -/
theorem lines_bounded [Host] :
    (∀ (rules : Rules) (nodes : List Node) (s : Session),
      (∀ o, Runs rules (.nodes nodes) s o ↔ o = Node.runAll rules nodes s) ∧
        ∃ written, (Node.runAll rules nodes s).session.output.toList = s.output.toList ++ written ∧
          written.length ≤ Node.weightAll rules.limits nodes) ∧
      ∀ (limits : Limits) (clock : Double) (code : Text),
        (Features.ofLines (lines code)).fast = false →
        (∀ report, run limits clock code = .ok report →
          report.lines.length ≤ weight limits code + 1) ∧
          (Served limits clock code → ∃ report, run limits clock code = .ok report) := by
  refine ⟨fun rules nodes s => ⟨fun o => Runs.nodes_iff, (Runs.outcome_nodes nodes s).adds⟩, ?_⟩
  intro limits clock code hfast
  refine ⟨fun report hreport => ?_, fun hserved => hserved.exists_report⟩
  obtain ⟨written, houtput, hlength⟩ := adds_outcome hfast limits clock
  have hsize : (outcome limits clock code).session.output.size = written.length := by
    rw [← Array.length_toList, houtput]
    simp
  have hlines := length_lines_le hreport
  omega

/-- A loop inside another, neither of which ends by itself, and then a line that makes no sense. -/
def guarded : Text :=
  ("!implement condition looping\nDuring <1> =? <1> \x7b\nlog(1)\n" ++
    "For [i] = 0, [i] =? 0, log([i])\n\x7d\nwhat").toList

theorem lines_bounded_guarded :
    let limits : Limits := ⟨2, -1, 0⟩
    (Features.ofLines (lines guarded)).fast = false ∧ weight limits guarded = 7 ∧
      Served limits (.ofInt 0) guarded ∧
      ∃ report, run limits (.ofInt 0) guarded = .ok report ∧ report.lines.length = 8 ∧
        report.lines.length ≤ weight limits guarded + 1 := by
  intro limits
  have hfast : (Features.ofLines (lines guarded)).fast = false := by decide +kernel
  have hserved : Served limits (.ofInt 0) guarded :=
    ⟨by decide +kernel, by decide +kernel, fun h => absurd h (by decide +kernel)⟩
  have hlength : (run limits (.ofInt 0) guarded).toOption.map (·.lines.length) = some 8 := by
    decide +kernel
  obtain ⟨hbound, hreport⟩ := lines_bounded.2 limits (.ofInt 0) guarded hfast
  obtain ⟨report, hrun⟩ := hreport hserved
  rw [hrun] at hlength
  exact ⟨hfast, by decide +kernel, hserved, report, hrun, Option.some.inj hlength,
    hbound report hrun⟩

end Script

end LineScript
