import LineScript.Proofs.Expression.Meaning
import LineScript.Proofs.Expression.Token
import LineScript.Session.Run

/-!
# References as arguments

A `log` looks for a reference before it evaluates its argument, and so does the evaluation of a
literal. Neither makes a difference: a text that is a reference is one token, so its value as an
expression is what it refers to (`Reference.expression_evalText`), and a reference that fails does
so with no failure of an expression. Hence every argument but the clock's gives what its evaluation
as an expression gives.
-/

namespace LineScript

/-! ## References as expressions -/

namespace Reference

variable {r : Reference}

theorem trim_text (h : r.Proper) : Text.trim r.text = r.text := by
  refine Text.trim_eq_self (Lexeme.isBlank_head? (l := .reference r) h) fun c hc => ?_
  cases r with
  | value name =>
    rw [text, List.getLast?_concat] at hc
    cases hc
    decide
  | item name index =>
    rw [text, List.getLast?_concat] at hc
    cases hc
    decide

theorem expression_evalText [Host] (ns : Namespace) (h : r.Proper) {t : Text}
    (ht : Text.trim t = r.text) :
    Expression.evalText ns t = Failure.lift (r.read ns) := by
  have hscan : Token.scan (Text.trim t) = .ok [⟨.reference r, 1⟩] := by
    rw [ht]
    exact Token.scan_text (l := .reference r) h
  have hdepth : (Grammar.Sum.product (.factor (.atom (.reference r) 1))).depth ≤ Host.brackets :=
    Nat.le_of_succ_le Host.two_le_brackets
  have htrimmed := Expression.evalTrimmed_tokens ns _ hdepth hscan
  cases hread : r.read ns with
  | ok v => exact Expression.evalText_of_ok (htrimmed.trans (Expression.eval_reference hread))
  | error f =>
    exact Expression.evalText_of_failure (htrimmed.trans (Expression.eval_reference_of_error hread))

theorem literal_evalText (ns : Namespace) (h : r.Proper) {t : Text} (ht : Text.trim t = r.text) :
    Literal.evalText ns t = r.read ns := by
  rw [Literal.evalText, Literal.ofText, ht, Literal.ofTrimmed, ofText?_eq_some_iff.2 ⟨h, rfl⟩]
  rfl

end Reference

/-! ## Failures of arguments -/

namespace Failure

/-- The argument that the failure is about, if it says so. -/
def argument? : Failure → Option Text
  | .expression argument _ _ => argument
  | _ => none

/-- The column of the failure of an expression. -/
def column? : Failure → Option Nat
  | .expression _ _ column => column
  | _ => none

variable (argument : Text) {f : Failure}

/-- The code of failures of expressions is theirs alone. -/
theorem code_eq_expression_iff :
    f.code = "EXPRESSION_ERROR".toList ↔
      ∃ given problem column, f = .expression given problem column := by
  cases f with
  | expression given problem column => exact iff_of_true rfl ⟨given, problem, column, rfl⟩
  | _ =>
    refine iff_of_false ?_ nofun
    dsimp only [code]
    decide

/-- The failure of an expression keeps its column, and names the argument in front of what it
says. -/
theorem ofArgument_of_code (h : f.argument? = none) (hcode : f.code = "EXPRESSION_ERROR".toList) :
    ∃ g, Session.ofArgument argument (.failure f) = .failure g ∧
      g.code = "EXPRESSION_ERROR".toList ∧ g.column? = f.column? ∧
      g.message = "Error evaluating log argument: ".toList ++ argument ++ ": ".toList ++
        f.message := by
  obtain ⟨given, problem, column, rfl⟩ := code_eq_expression_iff.1 hcode
  cases (h : given = none)
  exact ⟨_, rfl, rfl, rfl, rfl⟩

/-- Every other failure is left as it is. -/
theorem ofArgument_of_code_ne (h : f.code ≠ "EXPRESSION_ERROR".toList) :
    Session.ofArgument argument (.failure f) = .failure f := by
  cases f with
  | expression => exact absurd rfl h
  | _ => rfl

end Failure

namespace Expression

/-- What is reported of the stop does not say what argument the expression is. -/
def Unnamed (halt : Stop) : Prop := ∀ f, halt.ofExpression = .failure f → f.argument? = none

theorem unnamed_failure {f : Failure} (h : f.argument? = none) : Unnamed (.failure f) := by
  rintro _ ⟨⟩
  exact h

theorem unnamed_fault (fault : Fault) : Unnamed fault.stop := by
  cases fault with
  | tooDeep => exact unnamed_failure rfl
  | exception e =>
    intro f h
    rw [Fault.stop, Stop.ofExpression] at h
    split at h
    · cases h
      rfl
    · cases h

theorem unnamed_evalTrimmed [Host] {ns : Namespace} {s : Text} {halt : Stop}
    (h : evalTrimmed ns s = .error halt) :
    Unnamed halt := by
  rcases Token.scan_cases s with ⟨tokens, hscan, -⟩ | ⟨front, tokens, c, rest, -, -, -, hscan⟩
  · by_cases hne : tokens = []
    · subst hne
      rw [evalTrimmed_of_scan_nil ns hscan] at h
      cases h
      exact unnamed_failure rfl
    · rw [evalTrimmed_of_scan ns hscan hne] at h
      refine forall_stop_of_eval ?_ unnamed_fault ?_ h
      · intro r f hf
        cases f with
        | expression => exact absurd rfl (Reference.ne_expression_of_read hf _ _ _)
        | _ => exact unnamed_failure rfl
      · intro f hf
        exact unnamed_failure
          (stops_ofTokens (P := fun f => f.argument? = none) rfl (fun _ _ _ => rfl) _ tokens f hf)
  · rw [evalTrimmed_of_scan_error ns hscan] at h
    cases h
    exact unnamed_failure rfl

/-- The evaluation of an expression does not say what argument the expression is. -/
theorem argument?_of_evalText [Host] {ns : Namespace} {s : Text} {f : Failure}
    (h : evalText ns s = .error (.failure f)) : f.argument? = none := by
  rw [evalText] at h
  cases hresult : evalTrimmed ns (Text.trim s) with
  | ok v =>
    rw [hresult] at h
    cases h
  | error halt =>
    rw [hresult] at h
    exact unnamed_evalTrimmed hresult f (Except.error.inj h)

end Expression

/-! ## Arguments -/

namespace Session

variable (s : Session) (rules : Rules) {argument : Text}

/-- What a reference gives is what its evaluation as an argument gives. -/
theorem evalArgument_of_ofText? [Host] {r : Reference} (h : Reference.ofText? argument = some r) :
    evalArgument s.names argument = Failure.lift (r.read s.names) := by
  obtain ⟨hproper, rfl⟩ := Reference.ofText?_eq_some_iff.1 h
  rw [evalArgument, Reference.expression_evalText s.names hproper (Reference.trim_text hproper)]
  cases hread : r.read s.names with
  | ok v => rfl
  | error f =>
    cases f with
    | expression => exact absurd rfl (Reference.ne_expression_of_read hread _ _ _)
    | _ => rfl

/-- A `log` evaluates its argument, unless it is the clock's. -/
theorem log_eq_proceed [Host] (h : argument ≠ "time.now".toList) :
    s.log rules argument = s.proceed (evalArgument s.names argument) s.emit := by
  rw [log, if_neg h]
  split
  · next r hr => rw [s.evalArgument_of_ofText? hr, attempt]
  · rfl

end Session

/-- A `log` writes the value of its argument as an expression, unless it is the clock's. If the
evaluation fails as an expression, the `log` fails at the same column and names the argument, and if
it stops otherwise, the `log` stops in the same way. A literal that is a reference has the value
that it has as an expression. -/
theorem Statement.run_log_as_expression [Host] (rules : Rules) (s : Session) (argument line : Text)
    (h : argument ≠ "time.now".toList) :
    (∀ v, Expression.evalText s.names argument = .ok v →
      (Statement.log argument line).run rules s = s.emit v) ∧
    (∀ f, Expression.evalText s.names argument = .error (.failure f) →
      ∃ g, (Statement.log argument line).run rules s = ⟨s, some (.failure g)⟩ ∧
        (f.code = "EXPRESSION_ERROR".toList →
          g.code = "EXPRESSION_ERROR".toList ∧ g.column? = f.column? ∧
            g.message =
              "Error evaluating log argument: ".toList ++ argument ++ ": ".toList ++ f.message) ∧
        (f.code ≠ "EXPRESSION_ERROR".toList → g = f)) ∧
    (∀ e, Expression.evalText s.names argument = .error (.exception e) →
      (Statement.log argument line).run rules s = ⟨s, some (.exception e)⟩) ∧
    ∀ ns (r : Reference) t, r.Proper → Text.trim t = r.text →
      Failure.lift (Literal.evalText ns t) = Expression.evalText ns t := by
  have hrun : (Statement.log argument line).run rules s =
      s.proceed (Session.evalArgument s.names argument) s.emit := s.log_eq_proceed rules h
  rw [hrun, Session.evalArgument]
  refine ⟨fun v hv => ?_, fun f hf => ?_, fun e he => ?_, fun ns r t hr ht => ?_⟩
  · rw [hv]
    rfl
  · rw [hf]
    dsimp only [Except.mapError, Session.proceed]
    by_cases hcode : f.code = "EXPRESSION_ERROR".toList
    · obtain ⟨g, hg, hexpression⟩ :=
        Failure.ofArgument_of_code argument (Expression.argument?_of_evalText hf) hcode
      rw [hg]
      exact ⟨g, rfl, fun _ => hexpression, absurd hcode⟩
    · rw [Failure.ofArgument_of_code_ne argument hcode]
      exact ⟨f, rfl, fun h => absurd h hcode, fun _ => rfl⟩
  · rw [he]
    rfl
  · rw [Reference.literal_evalText ns hr ht, Reference.expression_evalText ns hr ht]

/-- A session in which `a "b` names a list of two items. -/
def Session.listed : Session where
  names := ({} : Namespace).set "a \"b".toList (.list 0 [.null, .number (.int 4)])

/-- `/a "b/<1>` is written, `/a "b/<2>` is out of range as anywhere else, and `1 +` fails at its
end. -/
theorem Statement.run_log_as_expression_listed :
    (Statement.log "/a \"b/<1>".toList []).run {} .listed = Session.listed.emit (.number (.int 4)) ∧
    (Statement.log "/a \"b/<2>".toList []).run {} .listed =
      ⟨.listed, some (.failure (.outOfRange "a \"b".toList ['2'] 2))⟩ ∧
    (∃ g, (Statement.log "1 +".toList []).run {} .listed = ⟨.listed, some (.failure g)⟩ ∧
      g.column? = some 4 ∧
      g.message = "Error evaluating log argument: 1 +: Unexpected end of expression".toList) ∧
    Failure.lift (Literal.evalText Session.listed.names " /a \"b/<1>".toList) =
      Expression.evalText Session.listed.names " /a \"b/<1>".toList := by
  have hitem (index : Text) (h : (Reference.item "a \"b".toList index).Proper) :=
    Reference.expression_evalText Session.listed.names h (Reference.trim_text h)
  have hsum : Expression.evalText Session.listed.names "1 +".toList =
      .error (.failure (.expression none .ended (some 4))) := by
    have hscan : Token.scan (Text.trim "1 +".toList) =
        .ok [⟨.number ⟨['1'], none, none⟩, 1⟩, ⟨.symbol .plus, 3⟩] := by
      decide +kernel
    have htree : Expression.ofTokens 4 [⟨.number ⟨['1'], none, none⟩, 1⟩, ⟨.symbol .plus, 3⟩] =
        .binary .add (.number ⟨['1'], none, none⟩) (.stop (.expression none .ended (some 4))) := by
      decide +kernel
    apply Expression.evalText_of_failure
    rw [Expression.evalTrimmed_of_scan _ hscan (by decide)]
    exact htree ▸ rfl
  have hfirst := Statement.run_log_as_expression {} .listed "/a \"b/<1>".toList [] (by decide)
  have hsecond := Statement.run_log_as_expression {} .listed "/a \"b/<2>".toList [] (by decide)
  have hthird := Statement.run_log_as_expression {} .listed "1 +".toList [] (by decide)
  refine ⟨hfirst.1 _ (hitem ['1'] (by decide)), ?_, ?_, ?_⟩
  · obtain ⟨g, hg, -, heq⟩ := hsecond.2.1 _ (hitem ['2'] (by decide))
    rw [hg, heq (by decide)]
    rfl
  · obtain ⟨g, hg, hexpression, -⟩ := hthird.2.1 _ hsum
    obtain ⟨-, hcolumn, hmessage⟩ := hexpression rfl
    refine ⟨g, hg, hcolumn, hmessage.trans ?_⟩
    decide
  · exact hfirst.2.2.2 _ (.item "a \"b".toList ['1']) _ (by decide) (by decide +kernel)

end LineScript
