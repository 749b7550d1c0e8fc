import LineScript.Proofs.Expression.Notation
import LineScript.Proofs.Line.Print
import LineScript.Proofs.Run.Agreement
import LineScript.Proofs.Run.Shortcut

/-!
# Printing written numbers

A `log` of a written number reads it as an expression, an assignment of it as a literal.
`Numeric.notations_agree` says that the notations of a number do not differ, and so that a number is
printed alike whether it is given a name first or not.
-/

namespace LineScript

/-! ## Running sentences -/

/-- The lines run to their end and lead to `t`, also in the fast dialect if they are straight. -/
def Session.Yields [Host] (rules : Rules) (s : Session) (lines : List Text) (t : Session) : Prop :=
  s.runStandard rules lines = ⟨t, none⟩ ∧
    ((∀ line ∈ lines, Line.Straight line) → s.runFast rules lines = ⟨t, none⟩)

namespace Sentence

variable (sentences : List Sentence)

theorem parse_text [Host] (h : ∀ s ∈ sentences, s.statement.loopDepth ≤ Host.loops) :
    Node.parse (sentences.map text) = some (sentences.map fun s => .statement s.statement) := by
  rw [Node.parse_eq]
  induction sentences with
  | nil => rw [List.map_nil, List.map_nil, Node.ofLines, List.map_nil]
  | cons s sentences ih =>
    rw [List.forall_mem_cons] at h
    have hskip : ∀ t, s.statement ≠ .skip t := by cases s <;> simp [statement]
    rw [List.map_cons, List.map_cons, s.trim_text,
      Node.ofLines_statement s.ofTrimmed_text hskip h.1, ih h.2]
    rfl

theorem ofFastText_text {s : Sentence} (h : Line.Straight s.text) :
    Statement.ofFastText s.text = s.statement := by
  have hread := Statement.ofText_eq_ofFastText h
  rw [Line.ofText, s.trim_text, s.ofTrimmed_text] at hread
  exact (Line.statement.inj hread).symm

theorem runFast_text [Host] (h : ∀ s ∈ sentences, Line.Straight s.text) (rules : Rules)
    (s : Session) :
    s.runFast rules (sentences.map text) =
      Node.runAll rules (sentences.map fun s => .statement s.statement) s := by
  induction sentences generalizing s with
  | nil => rfl
  | cons sentence sentences ih =>
    rw [List.forall_mem_cons] at h
    rw [List.map_cons, List.map_cons, Session.runFast, Node.runAll, Node.run, ofFastText_text h.1]
    simp only [ih h.2]

/-- Sentences on lines of their own run as their statements. -/
theorem yields_text [Host] {rules : Rules} {s t : Session}
    (h : ∀ s ∈ sentences, s.statement.loopDepth ≤ Host.loops)
    (hrun : Node.runAll rules (sentences.map fun s => .statement s.statement) s = ⟨t, none⟩) :
    s.Yields rules (sentences.map text) t := by
  refine ⟨?_, fun hstraight => ?_⟩
  · rw [Session.runStandard, parse_text sentences h]
    exact hrun
  · rw [runFast_text sentences (List.forall_mem_map.1 hstraight)]
    exact hrun

end Sentence

theorem Reference.ofText?_value (name : Label '[' ']') :
    ofText? ('[' :: name.text ++ [']']) = some (.value name.text) := by
  have hproper : (value name.text).Proper :=
    ⟨name.ne_nil, fun hmem => (name.unmarked _ hmem).1 rfl,
      fun hmem => (name.unmarked _ hmem).2 rfl⟩
  exact ofText?_eq_some_iff.2 ⟨hproper, rfl⟩

/-- A reference to a name, as the argument of a `log`. -/
def Label.reference (name : Label '[' ']') : Phrase where
  text := '[' :: name.text ++ [']']
  trimmed := Text.trim_cons_append (by decide) name.text (by decide) (List.cons_ne_nil _ _)
  oneLine := by simp [name.oneLine]

namespace Session

variable (rules : Rules) (s : Session)

theorem emit_number [Host] {x : Number} (h : x.Safe) :
    s.emit (.number x) = ⟨s.write x.text, none⟩ := by
  rw [emit, (Value.Fit.number h).render?]
  rfl

theorem log_reference [Host] (name : Label '[' ']') {v : Value}
    (hv : s.names.get? name.text = some v) :
    s.log rules name.reference.text = s.emit v := by
  have hclock : name.reference.text ≠ "time.now".toList := by simp [Label.reference]
  have heval : evalArgument s.names name.reference.text =
      Failure.lift ((Reference.value name.text).read s.names) :=
    s.evalArgument_of_ofText? (Reference.ofText?_value name)
  have hread : (Reference.value name.text).read s.names = .ok v := by
    rw [Reference.read, Namespace.valueOf, hv]
  rw [s.log_eq_proceed rules hclock, heval, hread]
  rfl

theorem log_written [Host] {n : Numeric} (h : n.Proper) :
    s.log rules n.text = ⟨s.write n.toNumber.text, none⟩ := by
  -- The first character tells a number from the clock.
  obtain ⟨c, r, hcons, hc⟩ := Numeric.exists_text_eq_cons h
  have hclock : n.text ≠ "time.now".toList := by
    rw [hcons]
    intro heq
    exact Numeric.ne_of_isFirst hc (by decide) (List.cons.inj heq).1
  have heval : evalArgument s.names n.text = .ok (.number n.toNumber) := by
    rw [evalArgument, Numeric.expression_evalText s.names h (Numeric.trim_text h)]
    rfl
  rw [s.log_eq_proceed rules hclock, heval]
  exact s.emit_number (Number.safe_numeric n)

end Session

namespace Numeric

/-- A written number, as the value of an assignment or the argument of a `log`. -/
def operand (n : Numeric) (h : n.Proper) : Operand where
  text := n.text
  trimmed := trim_text h
  oneLine hmem := absurd (isBlank_of_mem h _ hmem) (by decide)
  ne_nil := text_ne_nil h

variable {n : Numeric} (rules : Rules) (s : Session)

theorem yields_log [Host] (h : n.Proper) :
    s.Yields rules [Line.logText n.text] (s.write n.toNumber.text) := by
  refine Sentence.yields_text [.log (n.operand h).toPhrase]
    (by simp [Sentence.statement, Statement.loopDepth]) ?_
  have hlog := s.log_written rules h
  simp only [List.map_cons, List.map_nil, Node.runAll, Node.run, Sentence.statement, Statement.run,
    operand, hlog]

theorem yields_assign_log [Host] (h : n.Proper) (name : Label '[' ']') :
    s.Yields rules [Line.assignText name.text n.text, Line.logText ('[' :: name.text ++ [']'])]
      ((s.assign name.text (.number n.toNumber)).write n.toNumber.text) := by
  refine Sentence.yields_text [.assign false name (n.operand h), .log name.reference]
    (by simp [Sentence.statement, Statement.loopDepth]) ?_
  have hassign : s.assignText name.text n.text =
      ⟨s.assign name.text (.number n.toNumber), none⟩ := by
    rw [Session.assignText, literal_evalText s.names h (trim_text h)]
    rfl
  have hlog := (s.assign name.text (.number n.toNumber)).log_reference rules name
    (Namespace.get?_set_self ..)
  rw [Session.emit_number _ (Number.safe_numeric n)] at hlog
  simp only [List.map_cons, List.map_nil, Node.runAll, Node.run, Sentence.statement, Statement.run,
    operand, hassign, hlog]

/-- The notations of a number agree. A written number is the same number as a literal and as an
expression, also in its kind. Between bars it is a double of the same value, and between stars, if
it is written in digits only, the same number. Hence a `log` of it prints what a `log` of a name
prints that it was assigned to. -/
theorem notations_agree [Host] {n : Numeric} (h : n.Proper) :
    ∃ x : Number,
      (∀ (ns : Namespace) (t : Text), Text.trim t = n.text →
        Literal.evalText ns t = .ok (.number x) ∧
        Expression.evalText ns t = .ok (.number x) ∧
        (∃ d : Double, Literal.evalText ns ('|' :: t ++ ['|']) = .ok (.number (.real d)) ∧
          (Number.real d).equal x = true) ∧
        ∀ digits, n.amount = .numeral ⟨digits, none, none⟩ →
          Literal.evalText ns ('*' :: t ++ ['*']) = .ok (.number x)) ∧
      ∀ (rules : Rules) (s : Session) (name : Label '[' ']'),
        s.Yields rules [Line.logText n.text] (s.write x.text) ∧
        s.Yields rules [Line.assignText name.text n.text, Line.logText ('[' :: name.text ++ [']'])]
          ((s.assign name.text (.number x)).write x.text) := by
  refine ⟨n.toNumber, fun ns t ht =>
    ⟨literal_evalText ns h ht, expression_evalText ns h ht, ?_, ?_⟩, ?_⟩
  · exact ⟨n.toDouble, literal_evalText_bars ns h ht, equal_toNumber n⟩
  · intro digits hdigits
    obtain ⟨sign, amount⟩ := n
    cases hdigits
    have hproper := h _ rfl
    have hne : digits ≠ [] := by simpa using hproper.ne_nil
    refine literal_evalText_stars ns hproper.whole hne ?_
    rw [ht]
    simp [text, Numeral.text]
  · exact fun rules s name => ⟨yields_log rules s h, yields_assign_log rules s h name⟩

/-- The greatest negative integer that is no double, also with a line feed after it. -/
theorem notations_agree_unsafe :
    ∃ x : Number,
      Literal.evalText {} "-9007199254740993\n".toList = .ok (.number x) ∧
      Expression.evalText {} "-9007199254740993\n".toList = .ok (.number x) ∧
      Literal.evalText {} "*-9007199254740993*".toList = .ok (.number x) ∧
      (∃ d : Double, Literal.evalText {} "|-9007199254740993|".toList = .ok (.number (.real d)) ∧
        (Number.real d).equal x = true) ∧
      Session.runFast {} ["[x] = -9007199254740993".toList, "log([x])".toList] {} =
        ⟨(Session.assign {} ['x'] (.number x)).write x.text, none⟩ ∧
      Session.runFast {} ["log(-9007199254740993)".toList] {} =
        ⟨Session.write {} x.text, none⟩ := by
  have hread : ofText? "-9007199254740993".toList =
      some ⟨some .minus, .numeral ⟨"9007199254740993".toList, none, none⟩⟩ := by decide +kernel
  obtain ⟨hproper, htext⟩ := ofText?_eq_some_iff.1 hread
  obtain ⟨x, heval, hrun⟩ := notations_agree hproper
  rw [htext] at heval hrun
  obtain ⟨hliteral, hexpression, -, -⟩ := heval {} "-9007199254740993\n".toList (by decide +kernel)
  obtain ⟨-, -, hbars, hstars⟩ := heval {} "-9007199254740993".toList (by decide +kernel)
  obtain ⟨hlog, hnamed⟩ := hrun {} {} ⟨['x'], by decide, by decide, by simp⟩
  exact ⟨x, hliteral, hexpression, hstars _ rfl, hbars, hnamed.2 (by decide +kernel),
    hlog.2 (by decide +kernel)⟩

end Numeric

end LineScript
