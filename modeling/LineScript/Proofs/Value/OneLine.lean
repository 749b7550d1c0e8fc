import LineScript.Proofs.Line.Part
import LineScript.Proofs.Text.OneLine
import LineScript.Proofs.Value.Safe

/-!
# Values on one line

A value is on one line if its texts are, also those in lists at any depth; it is then rendered on
one line. Literals on one line denote such values, operators are closed on them, and a failure where
there is no value is one whose message is on one line: the parts of the script in it are
(`Failure.oneLine_message`). `OneLined` says both of a result.
-/

namespace LineScript

/-! ## Messages -/

/-- The parts of the script that a failure names. -/
def Failure.texts : Failure → List Text
  | .undefinedVariable name | .undefinedList name => [name]
  | .notAList name index | .outOfRange name index _ => [name, index]
  | .dangling line _ => [line]
  | .invalid line problem => line :: problem.texts
  | .expression argument _ _ => argument.toList
  | .disabled _ | .waitTooLong _ | .noBlock _ | .tooDeep => []

/-- The failure names only parts of the script that are on one line. -/
def Failure.OneLine (f : Failure) : Prop := ∀ t ∈ f.texts, t.OneLine

open Text

/-- What an expression reports of an exception is on one line. -/
theorem Exception.oneLine_message {e : Exception} (h : e.isReported = true) :
    e.message.OneLine := by
  cases e with
  | integer | quotient | domain => decide +kernel
  | digits limit =>
    exact (OneLine.append (by decide +kernel) (oneLine_ofNat limit)).append (by decide +kernel)
  | clock infinite => cases infinite <;> decide +kernel
  | zeroDivisor | pause => cases h

theorem Gate.oneLine_message (gate : Gate) :
    gate.message.OneLine := by cases gate <;> decide +kernel

theorem ExpressionProblem.oneLine_message (problem : ExpressionProblem) :
    problem.message.OneLine := by
  cases problem with
  | character c => exact OneLine.append (by decide +kernel) (oneLine_quote _)
  | unexpected token => exact OneLine.append (by decide +kernel) (oneLine_quote _)
  | empty | ended | bracket => decide +kernel
  | exception e h => exact e.oneLine_message h

theorem LineProblem.oneLine_message {line : Text} {problem : LineProblem} (hline : line.OneLine)
    (h : ∀ t ∈ problem.texts, t.OneLine) : (problem.message line).OneLine := by
  cases problem with
  | unknown | loopBody =>
    exact (OneLine.append (by decide +kernel) hline).append (by decide +kernel)
  | unclosed header =>
    exact OneLine.append (by decide +kernel) (h header (List.mem_singleton_self _))

/-- A message is on one line if the parts of the script in it are. -/
theorem Failure.oneLine_message {f : Failure} (h : f.OneLine) : f.message.OneLine := by
  cases f with
  | undefinedVariable name | undefinedList name =>
    have hname := h name (List.mem_singleton_self _)
    exact (OneLine.append (by decide +kernel) hname).append (by decide +kernel)
  | notAList name index =>
    have hname := h name (by simp [texts])
    have hindex := h index (by simp [texts])
    exact (((hname.cons (by decide +kernel)).append (by decide +kernel)).append hindex).append
      (by decide +kernel)
  | outOfRange name index length =>
    have hname := h name (by simp [texts])
    have hindex := h index (by simp [texts])
    refine OneLine.append
      (.append (.append (.append (.append (.append ?_ hindex) ?_) hname) ?_) ?_) ?_
    · decide +kernel
    · decide +kernel
    · decide +kernel
    · exact oneLine_ofNat length
    · decide +kernel
  | disabled gate => exact gate.oneLine_message
  | waitTooLong pause =>
    exact (OneLine.append (by decide +kernel) (oneLine_ofInt _)).append (by decide +kernel)
  | dangling line elseIf =>
    cases elseIf <;> exact OneLine.append (by decide +kernel) (by decide +kernel)
  | invalid line problem =>
    have hparts := List.forall_mem_cons.1 h
    exact LineProblem.oneLine_message hparts.1 hparts.2
  | noBlock start => exact OneLine.append (by decide +kernel) (oneLine_ofNat _)
  | expression argument problem column =>
    cases argument with
    | none => exact problem.oneLine_message
    | some argument =>
      have hargument := h argument (List.mem_singleton_self _)
      exact ((OneLine.append (by decide +kernel) hargument).append (by decide +kernel)).append
        problem.oneLine_message
  | tooDeep => decide +kernel

/-- The result satisfies `A`, or it stops the run, by a failure only if its message is on one
line. -/
def OneLined {α : Type} (A : α → Prop) : Except Stop α → Prop
  | .ok a => A a
  | .error (.failure f) => f.OneLine
  | .error (.exception _) => True

theorem OneLined.bind {α β : Type} {A : α → Prop} {B : β → Prop} {result : Except Stop α}
    {next : α → Except Stop β} (h : OneLined A result) (hnext : ∀ a, A a → OneLined B (next a)) :
    OneLined B (result >>= next) := by
  cases result with
  | ok a => exact hnext a h
  | error halt => cases halt <;> exact h

/-- A fault names no part of the script. -/
theorem oneLined_fault {α : Type} {A : α → Prop} {result : Except Fault α}
    (h : ∀ a, result = .ok a → A a) :
    OneLined A (Fault.lift result) := by
  cases result with
  | ok a => exact h a rfl
  | error fault =>
    cases fault with
    | tooDeep => exact List.forall_mem_nil _
    | exception e => trivial

theorem Failure.lift_bind {α β : Type} (result : Except Failure α) (next : α → Except Failure β) :
    lift (result >>= next) = lift result >>= fun a => lift (next a) := by
  cases result <;> rfl

/-! ## Values -/

/-- All texts in the value are on one line, at any depth. -/
inductive Value.OneLine : Value → Prop
  | null : OneLine .null
  | flag (b : Bool) : OneLine (.flag b)
  | number (n : Number) : OneLine (.number n)
  | text {s : Text} : s.OneLine → OneLine (.text s)
  | list (identity : Nat) {items : List Value} : (∀ v ∈ items, OneLine v) →
    OneLine (.list identity items)

namespace Value

theorem exists_of_mem_renderItems {items : List Value} {t : Text} (h : t ∈ renderItems items) :
    t = [] ∨ ∃ v ∈ items, t = v.render := by
  induction items with
  | nil => cases h
  | cons v items ih =>
    have hcons : t = [] ∨ t = v.render ∨ t ∈ renderItems items := by
      cases v with
      | null => exact (List.mem_cons.1 h).imp_right .inr
      | flag _ | number _ | text _ | list _ _ => exact .inr (List.mem_cons.1 h)
    rcases hcons with rfl | rfl | hmem
    · exact .inl rfl
    · exact .inr ⟨v, List.mem_cons_self, rfl⟩
    · exact (ih hmem).imp_right fun ⟨w, hw, ht⟩ => ⟨w, List.mem_cons_of_mem v hw, ht⟩

/-- A value on one line is rendered on one. -/
theorem oneLine_render {v : Value} (h : v.OneLine) : v.render.OneLine := by
  induction h with
  | null =>
    rw [render]
    decide
  | flag b =>
    rw [render]
    cases b <;> decide
  | number n =>
    rw [render]
    exact n.oneLine_text
  | text hs =>
    rw [render]
    exact hs
  | list identity _ ih =>
    rw [render]
    refine Text.OneLine.intercalate (by decide) fun t ht => ?_
    rcases exists_of_mem_renderItems ht with rfl | ⟨v, hv, rfl⟩
    · exact .nil
    · exact ih v hv

theorem eq_renderItems [Host] {depth : Nat} {items : List Value} {texts : List Text}
    (hitem : ∀ (v : Value) (s : Text), v.renderWithin? depth = .ok s → s = v.render)
    (h : renderItemsWithin? depth items = .ok texts) : texts = renderItems items := by
  induction items generalizing texts with
  | nil =>
    cases h
    rfl
  | cons v items ih =>
    cases v with
    | null =>
      obtain ⟨rest, hrest, h⟩ := bind_eq_ok h
      cases h
      rw [ih hrest, renderItems]
    | flag | number | text | list =>
      obtain ⟨s, hs, h⟩ := bind_eq_ok h
      obtain ⟨rest, hrest, h⟩ := bind_eq_ok h
      cases h
      rw [ih hrest, hitem _ s hs, renderItems]
      nofun

/-- What a host writes of a value is its rendering. -/
theorem eq_render_of_renderWithin? [Host] {depth : Nat} {v : Value} {s : Text}
    (h : v.renderWithin? depth = .ok s) :
    s = v.render := by
  induction depth generalizing v s with
  | zero =>
    cases v with
    | number n => exact n.eq_text_of_write? (eq_ok_of_mapError h)
    | list => cases h
    | null | flag | text =>
      cases h
      rfl
  | succ depth ih =>
    cases v with
    | number n => exact n.eq_text_of_write? (eq_ok_of_mapError h)
    | list identity items =>
      obtain ⟨texts, htexts, h⟩ := bind_eq_ok h
      cases h
      rw [eq_renderItems (fun v s => ih) htexts, render]
    | null | flag | text =>
      cases h
      rfl

theorem oneLine_of_render? [Host] {v : Value} {s : Text} (hv : v.OneLine) (h : v.render? = .ok s) :
    s.OneLine := by
  rw [eq_render_of_renderWithin? h]
  exact oneLine_render hv

theorem oneLine_of_numeric [Host] {op : Number → Number → Except Exception Number} {v w x : Value}
    (h : numeric op v w = .ok x) : x.OneLine := by
  obtain ⟨m, -, h⟩ := bind_eq_ok h
  obtain ⟨n, -, h⟩ := bind_eq_ok h
  obtain ⟨r, -, h⟩ := bind_eq_ok h
  cases h
  exact .number _

theorem oneLine_of_add [Host] {v w x : Value} (hv : v.OneLine) (hw : w.OneLine)
    (h : v.add w = .ok x) : x.OneLine := by
  unfold Value.add at h
  split at h
  · obtain ⟨s, hs, h⟩ := bind_eq_ok h
    obtain ⟨t, ht, h⟩ := bind_eq_ok h
    cases h
    exact .text ((oneLine_of_render? hv hs).append (oneLine_of_render? hw ht))
  · exact oneLine_of_numeric h

end Value

/-- An operator is closed on values on one line. -/
theorem Operator.oneLine_of_apply [Host] {op : Operator} {v w x : Value} (hv : v.OneLine)
    (hw : w.OneLine) (h : op.apply v w = .ok x) : x.OneLine := by
  cases op with
  | add => exact Value.oneLine_of_add hv hw h
  | sub | mul | div | rem => exact Value.oneLine_of_numeric h

/-- All names have values on one line. -/
def Namespace.OneLine (ns : Namespace) : Prop := ∀ name v, ns.get? name = some v → v.OneLine

namespace Namespace

theorem oneLine_empty : OneLine {} := forall_get?_empty

theorem oneLine_set {ns : Namespace} (h : ns.OneLine) (name : Text) {v : Value} (hv : v.OneLine) :
    (ns.set name v).OneLine :=
  forall_get?_set h name hv

end Namespace

/-! ## References and literals -/

variable {ns : Namespace}

namespace Reference

theorem oneLine_of_read (hns : ns.OneLine) {r : Reference} {v : Value} (h : r.read ns = .ok v) :
    v.OneLine := by
  obtain ⟨name, hv | ⟨identity, items, hl, hv⟩⟩ := get?_of_read h
  · exact hns name v hv
  · cases hns name _ hl with
    | list _ hitems => exact hitems v hv

theorem oneLine_failure_of_read {r : Reference} (hr : r.text.OneLine) {f : Failure}
    (h : r.read ns = .error f) :
    f.OneLine := by
  cases r with
  | value name =>
    have hname : name.OneLine := hr.mono fun c hc => by simp [text, hc]
    simp only [read, Namespace.valueOf] at h
    split at h
    · cases h
    · cases h
      exact List.forall_mem_singleton.2 hname
  | item name index =>
    have hname : name.OneLine := hr.mono fun c hc => by simp [text, hc]
    have hindex : index.OneLine := hr.mono fun c hc => by simp [text, hc]
    have hboth : ∀ t ∈ [name, index], t.OneLine := by simp [hname, hindex]
    simp only [read, Namespace.itemOf] at h
    split at h
    · cases h
      exact List.forall_mem_singleton.2 hname
    · split at h
      · cases h
        exact hboth
      · split at h
        · cases h
        · cases h
          exact hboth
    · cases h
      exact hboth

theorem oneLined_read (hns : ns.OneLine) {r : Reference} (hr : r.text.OneLine) :
    OneLined Value.OneLine (Failure.lift (r.read ns)) := by
  cases h : r.read ns with
  | ok v => exact oneLine_of_read hns h
  | error f => exact oneLine_failure_of_read hr h

theorem text_of_ofText? {s : Text} {r : Reference} (h : ofText? s = some r) : s = r.text := by
  unfold ofText? at h
  split at h
  · next hscan =>
    cases h
    simpa using (eq_append_of_scan? hscan).1
  · cases h

end Reference

namespace Literal

/-- The texts of a literal. -/
def texts : Literal → List Text
  | .reference r => [r.text]
  | .real s | .integer s | .quoted s | .bare s => [s]
  | .flag _ | .null | .nothing | .numeric _ => []

/-- A literal holds only parts of its text. -/
theorem partOf_of_ofTrimmed (s : Text) : ∀ t ∈ (ofTrimmed s).texts, t.PartOf s := by
  unfold ofTrimmed
  split
  · next r hr => simp [texts, ← Reference.text_of_ofText? hr]
  split
  · next inside hinside => simp [texts, partOf_of_enclosed? hinside]
  split
  · next inside hinside => simp [texts, partOf_of_enclosed? hinside]
  split
  · simp [texts]
  split
  · simp [texts]
  split
  · simp [texts]
  split
  · next inside hinside =>
    rw [Option.orElse_eq_orElse, Option.orElse_eq_or, Option.or_eq_some_iff] at hinside
    rcases hinside with hinside | ⟨-, hinside⟩ <;> simp [texts, partOf_of_enclosed? hinside]
  split
  · simp [texts]
  split <;> simp [texts]

theorem oneLined_eval (hns : ns.OneLine) {l : Literal} (h : ∀ t ∈ l.texts, t.OneLine) :
    OneLined Value.OneLine (Failure.lift (l.eval ns)) := by
  cases l with
  | reference r => exact Reference.oneLined_read hns (h _ (List.mem_singleton_self _))
  | real s | integer s | nothing | numeric n => exact .number _
  | flag b => exact .flag b
  | null => exact .null
  | quoted s | bare s => exact .text (h s (List.mem_singleton_self _))

/-- A literal on one line denotes a value on one line. -/
theorem oneLined_evalText (hns : ns.OneLine) {s : Text} (hs : s.OneLine) :
    OneLined Value.OneLine (Failure.lift (evalText ns s)) :=
  oneLined_eval hns fun t ht => hs.mono ((partOf_of_ofTrimmed _ t ht).trans (partOf_trim s))

theorem oneLined_evalItems (hns : ns.OneLine) {items : List Text}
    (h : ∀ item ∈ items, item.OneLine) :
    OneLined (fun vs => ∀ v ∈ vs, v.OneLine) (Failure.lift (evalItems ns items)) := by
  induction items with
  | nil => exact List.forall_mem_nil _
  | cons item items ih =>
    rw [List.forall_mem_cons] at h
    rw [evalItems, Failure.lift_bind]
    simp only [Failure.lift_bind]
    refine (oneLined_evalText hns h.1).bind fun v hv => (ih h.2).bind fun vs hvs => ?_
    exact List.forall_mem_cons.2 ⟨hv, hvs⟩

end Literal

end LineScript
