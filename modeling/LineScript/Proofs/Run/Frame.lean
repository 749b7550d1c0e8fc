import LineScript.Proofs.Block.Every
import LineScript.Proofs.Run.Limit

/-!
# What a run leaves as it was

A run only adds to the output and to the pauses, it never takes a name away, and it changes no name
that is not the target of a statement of its tree (`Session.Frame`). A statement that is no loop
either does all that it does or, if it stops the run, nothing (`Statement.unchanged_of_stop`).
Together: `Session.frame_run`.

`Session.Leads P` is what all runs have in common: single statements that satisfy `P`, one after the
other, some of which may stop a run. A run of a tree leads on by statements of the tree
(`Execution.leads`), so that what a single statement keeps is kept by runs of any kind, at their end
and on their way.
-/

namespace LineScript

/-! ## Targets -/

/-- The names that a statement gives values to, also again and again in a loop. -/
def Statement.targets : Statement → List Text
  | .assign name _ _ => [name]
  | .assignList name _ _ => [name]
  | .declare _ name _ _ => [name]
  | .forLoop counter body _ => counter.name :: body.targets
  | _ => []

mutual

/-- The targets of the statements of a node. -/
def Node.targets : Node → List Text
  | .statement statement => statement.targets
  | .conditional _ body rest _ => Node.targetsAll body ++ rest.targets
  | .during _ body _ => Node.targetsAll body
  | .dangling _ _ => []

/-- The targets of the statements of alternatives. -/
def Alternative.targets : Alternative → List Text
  | .none => []
  | .otherwise body => Node.targetsAll body
  | .elseIf _ body rest => Node.targetsAll body ++ rest.targets

/-- The targets of the statements of nodes. -/
def Node.targetsAll : List Node → List Text
  | [] => []
  | node :: nodes => node.targets ++ Node.targetsAll nodes

end

/-- All targets of the statement are among the names given. -/
def Statement.Within (targets : List Text) (statement : Statement) : Prop :=
  ∀ name ∈ statement.targets, name ∈ targets

theorem Statement.inherited_within (targets : List Text) :
    Statement.Inherited (Statement.Within targets) := by
  intro counter body line h
  have hcounter := List.forall_mem_cons.1 h
  exact ⟨hcounter.2, List.forall_mem_singleton.2 hcounter.1⟩

section

variable {targets : List Text}

mutual

theorem Node.every_within (node : Node) (h : ∀ name ∈ node.targets, name ∈ targets) :
    node.Every (Statement.Within targets) := by
  cases node with
  | statement statement =>
    rw [Node.targets] at h
    exact .statement h
  | conditional condition body rest line =>
    rw [Node.targets, List.forall_mem_append] at h
    exact .conditional condition line (Node.every_within_all body h.1)
      (Alternative.every_within rest h.2)
  | during condition body line =>
    rw [Node.targets] at h
    exact .during condition line (Node.every_within_all body h)
  | dangling line elseIf => exact .dangling line elseIf

theorem Alternative.every_within (a : Alternative) (h : ∀ name ∈ a.targets, name ∈ targets) :
    a.Every (Statement.Within targets) := by
  cases a with
  | none => exact .none
  | otherwise body =>
    rw [Alternative.targets] at h
    exact .otherwise (Node.every_within_all body h)
  | elseIf condition body rest =>
    rw [Alternative.targets, List.forall_mem_append] at h
    exact .elseIf condition (Node.every_within_all body h.1) (Alternative.every_within rest h.2)

theorem Node.every_within_all (nodes : List Node)
    (h : ∀ name ∈ Node.targetsAll nodes, name ∈ targets) :
    ∀ node ∈ nodes, node.Every (Statement.Within targets) := by
  cases nodes with
  | nil => simp
  | cons node nodes =>
    rw [Node.targetsAll, List.forall_mem_append] at h
    exact List.forall_mem_cons.2 ⟨Node.every_within node h.1, Node.every_within_all nodes h.2⟩

end

end

/-! ## One statement after the other -/

namespace Session

/-- Statements that satisfy `P` and are no loops lead from `s` to another session, whether or not
they stop a run; in between, loops may reach their limits. -/
inductive Leads [Host] (P : Statement → Prop) (s : Session) : Session → Prop
  | refl : Leads P s s
  | step {t : Session} (rules : Rules) {statement : Statement} :
    Leads P s t → statement.isSimple = true → P statement →
      Leads P s (statement.run rules t).session
  | guard {t : Session} : Leads P s t → Leads P s (t.write guardLine)

theorem Leads.trans [Host] {P : Statement → Prop} {s t u : Session} (h : Leads P s t)
    (h' : Leads P t u) : Leads P s u := by
  induction h' with
  | refl => exact h
  | step rules _ hsimple hP ih => exact .step rules ih hsimple hP
  | guard _ ih => exact .guard ih

end Session

/-- A run that executes only statements that satisfy `P` leads to its end, and to all sessions that
it passes. -/
theorem Execution.leads [Host] {P : Statement → Prop} {rules : Rules} {s : Session}
    {events : List Event} {o : Outcome} (h : Execution rules s events o)
    (he : ∀ e ∈ events, e.Every P) :
    s.Leads P o.session ∧ ∀ e ∈ events, s.Leads P e.before := by
  induction h with
  | done | refuse => exact ⟨.refl, by simp⟩
  | @step statement s t events o hsimple hrun _ ih =>
    rw [List.forall_mem_cons] at he
    have ht : s.Leads P (statement.run rules s).session := .step rules .refl hsimple he.1
    rw [hrun] at ht
    obtain ⟨ho, hevents⟩ := ih he.2
    exact ⟨ht.trans ho, List.forall_mem_cons.2 ⟨.refl, fun e he => ht.trans (hevents e he)⟩⟩
  | @stop statement s t reason hsimple hrun =>
    have ht : s.Leads P (statement.run rules s).session :=
      .step rules .refl hsimple (he _ List.mem_cons_self)
    rw [hrun] at ht
    exact ⟨ht, List.forall_mem_singleton.2 .refl⟩
  | loop counter body line _ ih =>
    obtain ⟨ho, hevents⟩ := ih (List.forall_mem_cons.1 he).2
    exact ⟨ho, List.forall_mem_cons.2 ⟨.refl, hevents⟩⟩
  | @guard s events o _ ih =>
    have ht : s.Leads P (s.write Session.guardLine) := .guard .refl
    obtain ⟨ho, hevents⟩ := ih (List.forall_mem_cons.1 he).2
    exact ⟨ht.trans ho, List.forall_mem_cons.2 ⟨.refl, fun e he => ht.trans (hevents e he)⟩⟩

/-! ## Frames -/

namespace Session

/-- The session `t` has all that `s` has: the lines and the pauses, to which it may add, and the
names, of which it may have changed or added the targets. -/
structure Frame (targets : List Text) (s t : Session) : Prop extends Precedes s t where
  kept : ∀ name, (s.names.get? name).isSome = true → (t.names.get? name).isSome = true
  unchanged : ∀ name, name ∉ targets → t.names.get? name = s.names.get? name

variable {targets : List Text} {s t u : Session}

theorem Frame.refl (targets : List Text) (s : Session) : Frame targets s s :=
  ⟨.refl s, fun _ h => h, fun _ _ => rfl⟩

theorem Frame.trans (h : Frame targets s t) (h' : Frame targets t u) : Frame targets s u where
  toPrecedes := h.toPrecedes.trans h'.toPrecedes
  kept name hname := h'.kept name (h.kept name hname)
  unchanged name hname := (h'.unchanged name hname).trans (h.unchanged name hname)

/-- Lines and pauses do not concern the names. -/
theorem frame_of_names (h : Precedes s t) (hnames : t.names = s.names) : Frame targets s t := by
  refine ⟨h, fun name hname => ?_, fun name _ => ?_⟩ <;> rw [hnames]
  exact hname

theorem frame_set {name : Text} {v : Value} (hname : name ∈ targets) (h : Precedes s t)
    (hnames : t.names = s.names.set name v) : Frame targets s t := by
  refine ⟨h, fun other hother => ?_, fun other hother => ?_⟩
  · rw [hnames]
    by_cases heq : name = other
    · rw [heq, Namespace.get?_set_self]
      rfl
    · rwa [Namespace.get?_set_of_ne _ v heq]
  · rw [hnames, Namespace.get?_set_of_ne]
    rintro rfl
    exact hother hname

theorem frame_effect [Host] {rules : Rules} {statement : Statement} {o : Outcome}
    (h : statement.Effect rules s o) (hwithin : statement.Within targets) :
    Frame targets s o.session := by
  have hadds := precedes_effect h
  cases h with
  | skip | stop | log | wait => exact frame_of_names hadds rfl
  | assign | assignList | declare | declareList =>
    exact frame_set (hwithin _ List.mem_cons_self) hadds rfl

theorem frame_statement [Host] (rules : Rules) (s : Session) {statement : Statement}
    (hsimple : statement.isSimple = true) :
    Frame statement.targets s (statement.run rules s).session :=
  frame_effect (Statement.effect_run rules s hsimple) fun _ hname => hname

theorem Leads.frame [Host] (h : Leads (Statement.Within targets) s t) : Frame targets s t := by
  induction h with
  | refl => exact .refl targets s
  | @step t rules _ _ hsimple hwithin ih =>
    exact ih.trans (frame_effect (Statement.effect_run rules t hsimple) hwithin)
  | @guard t _ ih => exact ih.trans (frame_of_names (t.precedes_write _) rfl)

/-- The targets of lines of the standard dialect. -/
def standardTargets [Host] (lines : List Text) : List Text :=
  (Node.parse lines).elim [] Node.targetsAll

/-- The targets of lines of the fast dialect. -/
def fastTargets (lines : List Text) : List Text :=
  lines.flatMap fun line => (Statement.ofFastText line).targets

theorem frame_nodes [Host] (rules : Rules) (nodes : List Node) (s : Session) :
    Frame (Node.targetsAll nodes) s (Node.runAll rules nodes s).session := by
  have hevents := Node.every_eventsAll
    (Statement.inherited_within (Node.targetsAll nodes)) rules nodes
    (Node.every_within_all nodes fun _ h => h) s
  exact ((Execution.ofNodes nodes s).leads hevents).1.frame

theorem frame_standard [Host] (rules : Rules) (lines : List Text) (s : Session) :
    Frame (standardTargets lines) s (s.runStandard rules lines).session := by
  unfold standardTargets runStandard
  cases Node.parse lines with
  | none => exact .refl _ s
  | some nodes => exact frame_nodes rules nodes s

theorem frame_fast [Host] (rules : Rules) (lines : List Text) (s : Session) :
    Frame (fastTargets lines) s (s.runFast rules lines).session := by
  have hline : ∀ line ∈ lines, (Statement.ofFastText line).Within (fastTargets lines) :=
    fun line hline name hname => List.mem_flatMap.2 ⟨line, hline, hname⟩
  have hevents := every_fastEvents (Statement.inherited_within (fastTargets lines)) rules hline s
  exact ((execution_fast rules lines s).leads hevents).1.frame

end Session

/-- A statement that is no loop has done nothing if it stops the run. -/
theorem Statement.unchanged_of_stop [Host] {rules : Rules} {statement : Statement} {s t : Session}
    {reason : Stop} (hsimple : statement.isSimple = true)
    (h : statement.run rules s = ⟨t, some reason⟩) : t = s := by
  have heffect := effect_run rules s hsimple
  rw [h] at heffect
  cases heffect with
  | stop => rfl

/-- Runs, whether they stop or not, add lines and pauses, keep all names, and change only targets;
and a single statement that stops leaves the session as it was. -/
theorem Session.frame_run [Host] (rules : Rules) (s : Session) :
    (∀ nodes, Frame (Node.targetsAll nodes) s (Node.runAll rules nodes s).session) ∧
      (∀ lines, Frame (standardTargets lines) s (s.runStandard rules lines).session) ∧
      (∀ lines, Frame (fastTargets lines) s (s.runFast rules lines).session) ∧
      ∀ statement t reason, statement.isSimple = true →
        Statement.run rules statement s = ⟨t, some reason⟩ → t = s := by
  refine ⟨fun nodes => frame_nodes rules nodes s, fun lines => frame_standard rules lines s,
    fun lines => frame_fast rules lines s, ?_⟩
  intro statement t reason hsimple h
  exact Statement.unchanged_of_stop hsimple h

/-- A loop whose statement fails on the second item of a list, after the counter has been set and a
line written. -/
def Session.halfway : List Text :=
  ["[a] = 1".toList, "log([a])".toList, "For [i] = 0, [i] =? 0, /b/ = #[a], [c]#".toList,
    "[a] = 2".toList]

/-- Loops are allowed. -/
def Rules.looping : Rules := { features := { looping := true } }

theorem Session.frame_run_halfway :
    (({} : Session).runStandard .looping halfway).stop =
      some (.failure (.undefinedVariable "c".toList)) ∧
      (({} : Session).runStandard .looping halfway).session.output.toList = ["1".toList] ∧
      ((({} : Session).runStandard .looping halfway).session.names.get? "i".toList).isSome = true ∧
      standardTargets halfway = ["a".toList, "i".toList, "b".toList, "a".toList] ∧
      Frame (standardTargets halfway) {} (({} : Session).runStandard .looping halfway).session ∧
      (Statement.run .looping (.assignList "b".toList ["1".toList, "[c]".toList] []) {}).stop =
        some (.failure (.undefinedVariable "c".toList)) ∧
      (Statement.run .looping (.assignList "b".toList ["1".toList, "[c]".toList] []) {}).session =
        {} := by
  have h : (Statement.run .looping (.assignList "b".toList ["1".toList, "[c]".toList] []) {}).stop =
      some (.failure (.undefinedVariable "c".toList)) := by decide +kernel
  obtain ⟨-, hstandard, -, hstatement⟩ := frame_run .looping {}
  refine ⟨by decide +kernel, by decide +kernel, by decide +kernel, by decide +kernel,
    hstandard halfway, h, ?_⟩
  exact hstatement _ _ _ rfl (by rw [← h])

end LineScript
