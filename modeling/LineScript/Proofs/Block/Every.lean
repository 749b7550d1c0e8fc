import LineScript.Proofs.Run.Event

/-!
# What holds of every statement of a tree

`Node.Every P` says that all statements of a tree satisfy `P`, at any depth of blocks. A tree that
is read from lines has only statements that single lines are, and complaints about blocks that are
never closed (`Node.every_parse`); and a run executes only statements of its tree, the statements of
its loops, and their first assignments (`Node.every_events`). So what holds of the statements that
lines are holds of all that a run executes (`Session.every_standardEvents`,
`Session.every_fastEvents`).
-/

namespace LineScript

mutual

/-- All statements of the node satisfy `P`. -/
inductive Node.Every (P : Statement → Prop) : Node → Prop
  | statement {s : Statement} : P s → Node.Every P (.statement s)
  | conditional (condition : Condition) {body : List Node} {rest : Alternative} (line : Text) :
    (∀ node ∈ body, Node.Every P node) → Alternative.Every P rest →
      Node.Every P (.conditional condition body rest line)
  | during (condition : Condition) {body : List Node} (line : Text) :
    (∀ node ∈ body, Node.Every P node) → Node.Every P (.during condition body line)
  | dangling (line : Text) (elseIf : Bool) : Node.Every P (.dangling line elseIf)

/-- All statements of the alternatives satisfy `P`. -/
inductive Alternative.Every (P : Statement → Prop) : Alternative → Prop
  | none : Alternative.Every P .none
  | otherwise {body : List Node} : (∀ node ∈ body, Node.Every P node) →
    Alternative.Every P (.otherwise body)
  | elseIf (condition : Condition) {body : List Node} {rest : Alternative} :
    (∀ node ∈ body, Node.Every P node) → Alternative.Every P rest →
      Alternative.Every P (.elseIf condition body rest)

end

namespace Node

variable {P : Statement → Prop} {inner : List Text → Option (List Node)}

/-- Whatever `inner` reads satisfies `P` throughout. -/
def ReadsEvery (P : Statement → Prop) (inner : List Text → Option (List Node)) : Prop :=
  ∀ lines nodes, inner lines = some nodes → ∀ node ∈ nodes, Every P node

theorem every_of_body (hi : ReadsEvery P inner) {header : Header} {lines rest : List Text}
    {nodes : List Node} (h : body inner header lines = .ok (nodes, rest)) :
    ∀ node ∈ nodes, Every P node := by
  unfold body at h
  split at h
  · split at h
    · next hn =>
      cases h
      exact hi _ _ hn
    · cases h
  · split at h
    · cases h
    · split at h
      · next hn =>
        cases h
        exact hi _ _ hn
      · cases h

theorem every_of_alternatives (hi : ReadsEvery P inner) {lines rest : List Text} {a : Alternative}
    (h : alternatives inner lines = .ok (a, rest)) : Alternative.Every P a := by
  fun_induction alternatives inner lines generalizing a rest with
  | case1 | case7 | case8 =>
    cases h
    exact .none
  | case2 | case3 | case5 => cases h
  | case4 lines line tail hl hlt header hh condition hc nodes rest' hb this others rest'' ho ih =>
    cases h
    exact .elseIf condition (every_of_body hi hb) (ih ho)
  | case6 lines line tail hl hlt header hh ho nodes rest' hb =>
    cases h
    exact .otherwise (every_of_body hi hb)

theorem every_of_ofHeader (hi : ReadsEvery P inner) {header : Header} {lines rest : List Text}
    {node : Node} (h : ofHeader inner header lines = .ok (node, rest)) : Every P node := by
  unfold ofHeader at h
  split at h
  · split at h
    · cases h
    · next hb =>
      split at h
      · cases h
      · next ha =>
        cases h
        exact .conditional _ _ (every_of_body hi hb) (every_of_alternatives hi ha)
  · split at h
    · cases h
    · next hb =>
      cases h
      exact .during _ _ (every_of_body hi hb)
  · cases h
    exact .dangling _ _
  · cases h
    exact .dangling _ _

theorem readsEvery_ofLines [Host] (hline : ∀ line s, Line.ofTrimmed line = .statement s → P s)
    (hunclosed : ∀ line header, P (.invalid line (.unclosed header))) (hi : ReadsEvery P inner) :
    ReadsEvery P (ofLines inner) := by
  intro lines nodes h
  fun_induction ofLines inner lines generalizing nodes with
  | case1 =>
    cases h
    simp
  | case2 line rest skipped hs ih => exact ih nodes h
  | case3 => cases h
  | case4 line rest s hskip hs hdeep ih =>
    obtain ⟨more, hm, rfl⟩ := Option.map_eq_some_iff.1 h
    exact List.forall_mem_cons.2 ⟨.statement (hline line s hs), ih more hm⟩
  | case5 line rest header hh node rest' ho this ih =>
    obtain ⟨more, hm, rfl⟩ := Option.map_eq_some_iff.1 h
    exact List.forall_mem_cons.2 ⟨every_of_ofHeader hi ho, ih more hm⟩
  | case6 line rest header hh opener ho =>
    cases h
    exact List.forall_mem_cons.2 ⟨.statement (hunclosed _ _), by simp⟩
  | case7 => cases h

/-- All statements of a tree that is read from lines are such as lines are, or complaints about
blocks never closed. -/
theorem every_parse [Host] (hline : ∀ line s, Line.ofTrimmed line = .statement s → P s)
    (hunclosed : ∀ line header, P (.invalid line (.unclosed header))) {lines : List Text}
    {nodes : List Node} (h : parse lines = some nodes) : ∀ node ∈ nodes, Every P node := by
  have hdepth : ∀ depth, ReadsEvery P (ofLinesWithin depth) := by
    intro depth
    induction depth with
    | zero =>
      intro lines nodes h
      cases h
    | succ depth ih => exact readsEvery_ofLines hline hunclosed ih
  exact hdepth Host.blocks _ nodes h

end Node

/-! ## The statements of a run -/

namespace Event

/-- If the event executes a statement, it satisfies `P`. -/
def Every (P : Statement → Prop) : Event → Prop
  | .statement s _ => P s
  | .guard _ => True

variable {P : Statement → Prop}

theorem every_afterResult {ε α : Type} {result : Except ε α} {next : α → List Event}
    (h : ∀ a, ∀ e ∈ next a, e.Every P) : ∀ e ∈ afterResult result next, e.Every P := by
  cases result with
  | ok a => exact h a
  | error f => simp [afterResult]

theorem every_afterStep {o : Outcome} {next : Session → List Event}
    (h : ∀ s, ∀ e ∈ next s, e.Every P) :
    ∀ e ∈ afterStep o next, e.Every P := by
  unfold afterStep
  split
  · exact h _
  · simp

theorem every_ofLoop {test : Session → Except Stop Bool} {body : Session → Outcome}
    {events : Session → List Event} (h : ∀ s, ∀ e ∈ events s, e.Every P) (rounds : Nat)
    (s : Session) :
    ∀ e ∈ ofLoop test body events rounds s, e.Every P := by
  induction rounds generalizing s with
  | zero => exact List.forall_mem_cons.2 ⟨trivial, by simp⟩
  | succ rounds ih =>
    refine every_afterResult fun holds => ?_
    cases holds with
    | true => exact List.forall_mem_append.2 ⟨h s, every_afterStep ih⟩
    | false => simp

end Event

/-- With a loop, `P` holds of its statement and of its first assignment. -/
def Statement.Inherited (P : Statement → Prop) : Prop :=
  ∀ counter body line, P (.forLoop counter body line) →
    P body ∧ P (.assign counter.name counter.start line)

variable {P : Statement → Prop}

theorem Statement.every_events [Host] (hP : Statement.Inherited P) (rules : Rules)
    {statement : Statement} (h : P statement) (s : Session) :
    ∀ e ∈ statement.events rules s, e.Every P := by
  induction statement generalizing s with
  | forLoop counter body line ih =>
    obtain ⟨hbody, hstart⟩ := hP counter body line h
    refine List.forall_mem_cons.2 ⟨h, Event.every_afterResult fun _ => ?_⟩
    exact List.forall_mem_cons.2 ⟨hstart, Event.every_afterStep (Event.every_ofLoop (ih hbody) _)⟩
  | skip | assign | assignList | declare | log | wait | invalid =>
    exact List.forall_mem_cons.2 ⟨h, by simp⟩

mutual

theorem Node.every_events [Host] (hP : Statement.Inherited P) (rules : Rules) (node : Node)
    (h : node.Every P) (s : Session) :
    ∀ e ∈ node.events rules s, e.Every P := by
  cases h with
  | statement hs =>
    rw [Node.events]
    exact Statement.every_events hP rules hs s
  | conditional condition line hbody hrest =>
    rw [Node.events]
    refine Event.every_afterResult fun _ => Event.every_afterResult fun holds => ?_
    cases holds with
    | true => exact Node.every_eventsAll hP rules _ hbody s
    | false => exact Alternative.every_events hP rules _ hrest s
  | during condition line hbody =>
    rw [Node.events]
    exact Event.every_afterResult fun _ =>
      Event.every_ofLoop (Node.every_eventsAll hP rules _ hbody) _ s
  | dangling line elseIf =>
    rw [Node.events]
    simp

theorem Alternative.every_events [Host] (hP : Statement.Inherited P) (rules : Rules)
    (a : Alternative) (h : a.Every P) (s : Session) : ∀ e ∈ a.events rules s, e.Every P := by
  cases h with
  | none =>
    rw [Alternative.events]
    simp
  | otherwise hbody =>
    rw [Alternative.events]
    exact Node.every_eventsAll hP rules _ hbody s
  | elseIf condition hbody hrest =>
    rw [Alternative.events]
    refine Event.every_afterResult fun holds => ?_
    cases holds with
    | true => exact Node.every_eventsAll hP rules _ hbody s
    | false => exact Alternative.every_events hP rules _ hrest s

theorem Node.every_eventsAll [Host] (hP : Statement.Inherited P) (rules : Rules)
    (nodes : List Node) (h : ∀ node ∈ nodes, node.Every P) (s : Session) :
    ∀ e ∈ Node.eventsAll rules nodes s, e.Every P := by
  cases nodes with
  | nil =>
    rw [Node.eventsAll]
    simp
  | cons node nodes =>
    rw [Node.eventsAll]
    rw [List.forall_mem_cons] at h
    refine List.forall_mem_append.2 ⟨Node.every_events hP rules node h.1 s, ?_⟩
    exact Event.every_afterStep (Node.every_eventsAll hP rules nodes h.2)

end

/-- The events of lines of the standard dialect, from what single lines are. -/
theorem Session.every_standardEvents [Host] (hP : Statement.Inherited P)
    (hline : ∀ line s, Line.ofTrimmed line = .statement s → P s)
    (hunclosed : ∀ line header, P (.invalid line (.unclosed header))) (rules : Rules)
    (lines : List Text) (s : Session) : ∀ e ∈ s.standardEvents rules lines, e.Every P := by
  unfold standardEvents
  split
  · next nodes hn =>
      exact Node.every_eventsAll hP rules nodes (Node.every_parse hline hunclosed hn) s
  · simp

/-- The events of lines of the fast dialect, from what single lines are. -/
theorem Session.every_fastEvents [Host] (hP : Statement.Inherited P) (rules : Rules)
    {lines : List Text} (hline : ∀ line ∈ lines, P (Statement.ofFastText line)) (s : Session) :
    ∀ e ∈ s.fastEvents rules lines, e.Every P := by
  induction lines generalizing s with
  | nil => simp [fastEvents]
  | cons line lines ih =>
    rw [List.forall_mem_cons] at hline
    exact List.forall_mem_append.2
      ⟨Statement.every_events hP rules hline.1 s, Event.every_afterStep (ih hline.2)⟩

end LineScript
