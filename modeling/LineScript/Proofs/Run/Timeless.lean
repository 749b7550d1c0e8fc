import LineScript.Proofs.Run.Ending

/-!
# Runs that do not depend on the time

`Timeless` says that a run does the same whatever the clock shows. It is kept by everything but a
`log` of the time behind an open gate, and so holds of all trees in which there is none
(`timeless_nodes`).
-/

namespace LineScript

/-! ## Sessions at another time -/

/-- The same session at another time. -/
def Session.setClock (s : Session) (clock : Double) : Session := { s with clock := clock }

def Outcome.setClock (o : Outcome) (clock : Double) : Outcome := ⟨o.session.setClock clock, o.stop⟩

/-- Whatever the clock shows, the run does the same but for the clock. -/
def Timeless (run : Session → Outcome) : Prop :=
  ∀ s clock, ∃ clock', run (s.setClock clock) = (run s).setClock clock'

namespace Timeless

variable {run : Session → Outcome}

/-- A step that leaves the clock alone. -/
theorem ofKeep {change : Session → Session}
    (h : ∀ s clock, change (s.setClock clock) = (change s).setClock clock) :
    Timeless fun s => ⟨change s, none⟩ :=
  fun s clock => ⟨clock, congrArg (Outcome.mk · none) (h s clock)⟩

theorem ofStop (reason : Stop) : Timeless fun s => ⟨s, some reason⟩ := fun _ clock => ⟨clock, rfl⟩

theorem proceed {α : Type} {result : Session → Except Stop α} {next : α → Session → Outcome}
    (hresult : ∀ s clock, result (s.setClock clock) = result s) (h : ∀ a, Timeless (next a)) :
    Timeless fun s => s.proceed (result s) fun a => next a s := by
  intro s clock
  dsimp only
  rw [hresult]
  cases result s with
  | ok a => exact h a s clock
  | error reason => exact ⟨clock, rfl⟩

theorem attempt {α : Type} {result : Session → Except Failure α} {next : α → Session → Outcome}
    (hresult : ∀ s clock, result (s.setClock clock) = result s) (h : ∀ a, Timeless (next a)) :
    Timeless fun s => s.attempt (result s) fun a => next a s :=
  proceed (fun s clock => congrArg Failure.lift (hresult s clock)) h

theorem andThen {next : Session → Outcome} (h : Timeless run) (hnext : Timeless next) :
    Timeless fun s => Session.andThen (run s) next := by
  intro s clock
  obtain ⟨clock', hrun⟩ := h s clock
  dsimp only
  rw [hrun]
  cases run s with
  | mk t stop =>
    cases stop with
    | none => exact hnext t clock'
    | some reason => exact ⟨clock', rfl⟩

theorem repeatUpTo {test : Session → Except Stop Bool} {body : Session → Outcome}
    (htest : ∀ s clock, test (s.setClock clock) = test s) (hbody : Timeless body) (rounds : Nat) :
    Timeless (Session.repeatUpTo test body rounds) := by
  induction rounds with
  | zero => exact ofKeep fun _ _ => rfl
  | succ rounds ih =>
    rw [funext (Session.repeatUpTo_succ test body rounds)]
    refine proceed htest fun holds => ?_
    cases holds with
    | true => exact hbody.andThen ih
    | false => exact ofKeep fun _ _ => rfl

end Timeless

/-! ## Trees that do not read the clock -/

/-- Whether the statement, or one in its loops, is a `log` of the time. -/
def Statement.readsClock : Statement → Bool
  | .log argument _ => argument = "time.now".toList
  | .forLoop _ body _ => body.readsClock
  | _ => false

mutual

/-- Whether a statement of the node reads the clock. -/
def Node.readsClock : Node → Bool
  | .statement statement => statement.readsClock
  | .conditional _ body rest _ => Node.anyReadsClock body || rest.readsClock
  | .during _ body _ => Node.anyReadsClock body
  | .dangling _ _ => false

/-- Whether a statement of the alternatives reads the clock. -/
def Alternative.readsClock : Alternative → Bool
  | .none => false
  | .otherwise body => Node.anyReadsClock body
  | .elseIf _ body rest => Node.anyReadsClock body || rest.readsClock

/-- Whether a statement of the nodes reads the clock. -/
def Node.anyReadsClock : List Node → Bool
  | [] => false
  | node :: nodes => node.readsClock || Node.anyReadsClock nodes

end

section Timeless

open Session

variable {rules : Rules}

theorem timeless_emit [Host] (v : Value) : Timeless fun s => s.emit v :=
  .proceed (fun _ _ => rfl) fun _ => .ofKeep fun _ _ => rfl

theorem timeless_assignText (name value : Text) : Timeless (assignText name value) :=
  .attempt (fun _ _ => rfl) fun _ => .ofKeep fun _ _ => rfl

theorem timeless_assignItems (name : Text) (items : List Text) :
    Timeless (assignItems name items) :=
  .attempt (fun _ _ => rfl) fun _ => .ofKeep fun _ _ => rfl

theorem timeless_declare (name value : Text) : Timeless (declare name value) := by
  unfold declare
  split
  · exact timeless_assignItems name _
  · exact timeless_assignText name value

theorem timeless_sleep [Host] (seconds : Double) : Timeless fun s => s.sleep seconds := by
  unfold sleep
  split
  · exact .ofStop _
  · exact fun _ clock => ⟨clock.add seconds, rfl⟩

theorem timeless_wait [Host] (ms : Double) : Timeless (wait rules ms) := by
  refine .attempt (fun _ _ => rfl) fun _ => ?_
  by_cases h : exceeds ms rules.limits.wait
  · simp only [h, if_true]
    exact .ofStop _
  · simp only [h]
    exact timeless_sleep _

theorem timeless_log [Host] {argument : Text}
    (h : rules.features.time = false ∨ argument ≠ "time.now".toList) :
    Timeless (Session.log rules argument) := by
  unfold Session.log
  split
  · next hclock =>
    have hgate : rules.features.allows .time = false := h.resolve_right (not_not_intro hclock)
    simp only [attempt_closed hgate]
    exact .ofStop _
  · split
    · exact .attempt (fun _ _ => rfl) timeless_emit
    · exact .proceed (fun _ _ => rfl) timeless_emit

theorem timeless_statement [Host] {statement : Statement}
    (h : rules.features.time = false ∨ statement.readsClock = false) :
    Timeless (statement.run rules) := by
  induction statement with
  | skip line => exact .ofKeep fun _ _ => rfl
  | assign name value line => exact timeless_assignText name value
  | assignList name items line => exact timeless_assignItems name items
  | declare kind name value line => exact timeless_declare name value
  | log argument line =>
    rw [Statement.readsClock, decide_eq_false_iff_not] at h
    exact timeless_log h
  | wait ms line => exact timeless_wait ms
  | invalid line problem => exact .ofStop _
  | forLoop counter body line ih =>
    refine .attempt (fun _ _ => rfl) fun _ => ?_
    exact (timeless_assignText counter.name counter.start).andThen
      (.repeatUpTo (fun _ _ => rfl) (ih h) _)

mutual

theorem timeless_node [Host] (node : Node)
    (h : rules.features.time = false ∨ node.readsClock = false) :
    Timeless (node.run rules) := by
  cases node with
  | statement statement =>
    rw [Node.readsClock] at h
    simp only [Node.run]
    exact timeless_statement h
  | conditional condition body rest line =>
    rw [Node.readsClock, Bool.or_eq_false_iff] at h
    simp only [Node.run]
    refine .attempt (fun _ _ => rfl) fun _ => .proceed (fun _ _ => rfl) fun holds => ?_
    cases holds with
    | true => exact timeless_nodes body (h.imp_right And.left)
    | false => exact timeless_alternative rest (h.imp_right And.right)
  | during condition body line =>
    rw [Node.readsClock] at h
    simp only [Node.run]
    exact .attempt (fun _ _ => rfl) fun _ => .repeatUpTo (fun _ _ => rfl) (timeless_nodes body h) _
  | dangling line elseIf =>
    simp only [Node.run]
    exact .ofStop _

theorem timeless_alternative [Host] (a : Alternative)
    (h : rules.features.time = false ∨ a.readsClock = false) :
    Timeless (a.run rules) := by
  cases a with
  | none =>
    simp only [Alternative.run]
    exact .ofKeep fun _ _ => rfl
  | otherwise body =>
    rw [Alternative.readsClock] at h
    simp only [Alternative.run]
    exact timeless_nodes body h
  | elseIf condition body rest =>
    rw [Alternative.readsClock, Bool.or_eq_false_iff] at h
    simp only [Alternative.run]
    refine .proceed (fun _ _ => rfl) fun holds => ?_
    cases holds with
    | true => exact timeless_nodes body (h.imp_right And.left)
    | false => exact timeless_alternative rest (h.imp_right And.right)

theorem timeless_nodes [Host] (nodes : List Node)
    (h : rules.features.time = false ∨ Node.anyReadsClock nodes = false) :
    Timeless (Node.runAll rules nodes) := by
  cases nodes with
  | nil =>
    simp only [Node.runAll]
    exact .ofKeep fun _ _ => rfl
  | cons node nodes =>
    rw [Node.anyReadsClock, Bool.or_eq_false_iff] at h
    rw [funext (Node.runAll_cons rules node nodes)]
    exact (timeless_node node (h.imp_right And.left)).andThen
      (timeless_nodes nodes (h.imp_right And.right))

end

theorem timeless_fast [Host] {lines : List Text}
    (h : rules.features.time = false ∨
      ∀ line ∈ lines, (Statement.ofFastText line).readsClock = false) :
    Timeless (runFast rules lines) := by
  induction lines with
  | nil => exact .ofKeep fun _ _ => rfl
  | cons line lines ih =>
    rw [List.forall_mem_cons] at h
    exact (timeless_statement (h.imp_right And.left)).andThen (ih (h.imp_right And.right))

theorem timeless_standard [Host] {lines : List Text}
    (h : rules.features.time = false ∨ (Node.parse lines).any Node.anyReadsClock = false) :
    Timeless (runStandard rules lines) := by
  unfold runStandard
  cases hparse : Node.parse lines with
  | none => exact .ofStop _
  | some nodes =>
    rw [hparse, Option.any_some] at h
    exact timeless_nodes nodes h

end Timeless

end LineScript
