import LineScript.Expression.Parser
import LineScript.Proofs.Value.Safe

/-!
# Where expressions fail

The tree of an expression stops where its tokens cannot be continued. Evaluation in a namespace of
safe values fails at such a stop, at a reference, or at a list that is nested too deep, and in no
other way: no exception is raised (`eval_eq_error`), and its results are safe. Every stop that the
reader leaves in a tree is at a column (`located_ofTokens`), so a failure of an expression without a
column would be an exception that it reports.
-/

namespace LineScript

/-- The failure is at a column if it is one of an expression, and it is no exception. -/
def Failure.Located : Failure → Prop
  | .expression _ problem column => column.isSome ∧ ∀ e h, problem ≠ .exception e h
  | _ => True

/-- A reference that fails is no expression that fails. -/
theorem Reference.ne_expression_of_read {ns : Namespace} {r : Reference} {f : Failure}
    (h : r.read ns = .error f) (argument : Option Text) (problem : ExpressionProblem)
    (column : Option Nat) :
    f ≠ .expression argument problem column := by
  rintro rfl
  cases r with
  | value name =>
    simp only [read, Namespace.valueOf] at h
    split at h <;> cases h
  | item name index =>
    simp only [read, Namespace.itemOf] at h
    split at h
    · cases h
    · split at h
      · cases h
      · split at h <;> cases h
    · cases h

theorem Reference.located_of_read {ns : Namespace} {r : Reference} {f : Failure}
    (h : r.read ns = .error f) :
    f.Located := by
  cases f with
  | expression => exact absurd rfl (ne_expression_of_read h _ _ _)
  | _ => trivial

namespace Expression

/-- The failures at the stops of the tree, from left to right. -/
def stops : Expression → List Failure
  | .signed _ operand => operand.stops
  | .binary _ left right => left.stops ++ right.stops
  | .stop f => [f]
  | .stopAfter e f => e.stops ++ [f]
  | _ => []

/-- The references of the tree, from left to right. -/
def references : Expression → List Reference
  | .reference r => [r]
  | .signed _ operand => operand.references
  | .binary _ left right => left.references ++ right.references
  | .stopAfter e _ => e.references
  | _ => []

variable {ns : Namespace} {operand left right : Expression} {v w : Value} {halt : Stop}
    {f : Failure}

theorem eval_reference [Host] {r : Reference} (h : r.read ns = .ok v) :
    (reference r).eval ns = .ok v := by
  show Failure.lift (r.read ns) = _
  rw [h]
  rfl

theorem eval_reference_of_error [Host] {r : Reference} (h : r.read ns = .error f) :
    (reference r).eval ns = .error (.failure f) := by
  show Failure.lift (r.read ns) = _
  rw [h]
  rfl

theorem eval_signed [Host] (h : operand.eval ns = .ok v) (sign : Sign) :
    (signed sign operand).eval ns = (Fault.lift v.number?).map fun n =>
      .number (applySign sign n) := by
  show (operand.eval ns >>= _) = _
  rw [h]
  rfl

theorem eval_signed_of_error [Host] (h : operand.eval ns = .error halt) (sign : Sign) :
    (signed sign operand).eval ns = .error halt := by
  show (operand.eval ns >>= _) = _
  rw [h]
  rfl

theorem eval_binary [Host] (hl : left.eval ns = .ok v) (hr : right.eval ns = .ok w)
    (op : Operator) :
    (binary op left right).eval ns = Fault.lift (op.apply v w) := by
  show (left.eval ns >>= fun v => right.eval ns >>= _) = _
  rw [hl, hr]
  rfl

theorem eval_binary_of_left [Host] (h : left.eval ns = .error halt) (op : Operator)
    (right : Expression) :
    (binary op left right).eval ns = .error halt := by
  show (left.eval ns >>= _) = _
  rw [h]
  rfl

theorem eval_binary_of_right [Host] (hl : left.eval ns = .ok v) (hr : right.eval ns = .error halt)
    (op : Operator) :
    (binary op left right).eval ns = .error halt := by
  show (left.eval ns >>= fun v => right.eval ns >>= _) = _
  rw [hl, hr]
  rfl

theorem eval_stopAfter [Host] (h : operand.eval ns = .ok v) (f : Failure) :
    (stopAfter operand f).eval ns = .error (.failure f) := by
  show (operand.eval ns >>= _) = _
  rw [h]
  rfl

theorem eval_stopAfter_of_error [Host] (h : operand.eval ns = .error halt) (g : Failure) :
    (stopAfter operand g).eval ns = .error halt := by
  show (operand.eval ns >>= _) = _
  rw [h]
  rfl

/-- A tree with a stop has no value. -/
theorem exists_error_of_stops [Host] (ns : Namespace) {e : Expression} (h : e.stops ≠ []) :
    ∃ halt, e.eval ns = .error halt := by
  induction e with
  | number | text | word | reference => exact absurd rfl h
  | signed sign operand ih =>
    obtain ⟨halt, hf⟩ := ih h
    exact ⟨halt, eval_signed_of_error hf sign⟩
  | binary op left right ihl ihr =>
    cases hl : left.eval ns with
    | error halt => exact ⟨halt, eval_binary_of_left hl op right⟩
    | ok v =>
      have hr : right.stops ≠ [] := by
        intro hr
        have hleft : left.stops ≠ [] := by simpa [stops, hr] using h
        obtain ⟨halt, hf⟩ := ihl hleft
        rw [hl] at hf
        cases hf
      obtain ⟨halt, hf⟩ := ihr hr
      exact ⟨halt, eval_binary_of_right hl hf op⟩
  | stop f => exact ⟨.failure f, rfl⟩
  | stopAfter e f ih =>
    cases he : e.eval ns with
    | error halt => exact ⟨halt, eval_stopAfter_of_error he f⟩
    | ok v => exact ⟨.failure f, eval_stopAfter he f⟩

/-- Over any values, evaluation stops at a stop, a reference or an operation. -/
theorem forall_stop_of_eval [Host] {P : Stop → Prop}
    (hread : ∀ r f, Reference.read ns r = .error f → P (.failure f))
    (hfault : ∀ fault : Fault, P fault.stop) {e : Expression}
    (hstops : ∀ f ∈ e.stops, P (.failure f)) (h : e.eval ns = .error halt) : P halt := by
  induction e generalizing halt with
  | number | text | word => cases h
  | reference r =>
    cases hr : r.read ns with
    | ok v =>
      rw [eval_reference hr] at h
      cases h
    | error f =>
      rw [eval_reference_of_error hr] at h
      cases h
      exact hread r f hr
  | signed sign operand ih =>
    cases ho : operand.eval ns with
    | error g =>
      rw [eval_signed_of_error ho] at h
      cases h
      exact ih hstops ho
    | ok v =>
      rw [eval_signed ho] at h
      cases hn : v.number? with
      | ok n =>
        rw [hn] at h
        cases h
      | error fault =>
        rw [hn] at h
        cases h
        exact hfault fault
  | binary op left right ihl ihr =>
    obtain ⟨hl, hr⟩ := List.forall_mem_append.1 hstops
    cases hleft : left.eval ns with
    | error g =>
      rw [eval_binary_of_left hleft] at h
      cases h
      exact ihl hl hleft
    | ok v =>
      cases hright : right.eval ns with
      | error g =>
        rw [eval_binary_of_right hleft hright] at h
        cases h
        exact ihr hr hright
      | ok w =>
        rw [eval_binary hleft hright] at h
        cases hop : op.apply v w with
        | ok x =>
          rw [hop] at h
          cases h
        | error fault =>
          rw [hop] at h
          cases h
          exact hfault fault
  | stop g =>
    cases h
    exact hstops g (List.mem_singleton_self g)
  | stopAfter e g ih =>
    obtain ⟨he, hg⟩ := List.forall_mem_append.1 hstops
    cases hfirst : e.eval ns with
    | error k =>
      rw [eval_stopAfter_of_error hfirst] at h
      cases h
      exact ih he hfirst
    | ok v =>
      rw [eval_stopAfter hfirst] at h
      cases h
      exact hg g (List.mem_singleton_self g)

/-! ## Evaluation over safe values -/

/-- A result is safe, a failure is that of a stop or of a reference, or the expression is too deep,
and no exception is raised. -/
def Accounts (ns : Namespace) (e : Expression) : Except Stop Value → Prop
  | .ok v => v.Safe
  | .error (.failure f) =>
    f ∈ e.stops ∨ (∃ r ∈ e.references, r.read ns = .error f) ∨ f = .tooDeep
  | .error (.exception _) => False

/-- A failure of a part is accounted for in the whole. -/
theorem Accounts.mono {e whole : Expression} (hs : e.stops ⊆ whole.stops)
    (hr : e.references ⊆ whole.references) (h : e.Accounts ns (.error halt)) :
    whole.Accounts ns (.error halt) := by
  cases halt with
  | exception => exact h
  | failure f =>
    rcases h with h | ⟨r, hmem, hread⟩ | h
    · exact .inl (hs h)
    · exact .inr (.inl ⟨r, hr hmem, hread⟩)
    · exact .inr (.inr h)

theorem accounts_eval [Host] (hs : ns.Safe) (e : Expression) : e.Accounts ns (e.eval ns) := by
  induction e with
  | number n => exact .number (Number.safe_numeral none n)
  | text s => exact .text s
  | word w => cases w <;> first | exact .flag _ | exact .null | exact .number (Number.safe_real _)
  | reference r =>
    cases hr : r.read ns with
    | ok v =>
      rw [eval_reference hr]
      exact Reference.safe_of_read hs hr
    | error f =>
      rw [eval_reference_of_error hr]
      exact .inr (.inl ⟨r, by simp [references], hr⟩)
  | signed sign operand ih =>
    cases ho : operand.eval ns with
    | error f =>
      rw [eval_signed_of_error ho]
      rwa [ho] at ih
    | ok v =>
      rw [ho] at ih
      rw [eval_signed ho]
      rw [Value.number?_of_safe ih]
      cases v.isTooDeep with
      | true => exact Or.inr (Or.inr rfl)
      | false =>
        cases sign with
        | plus => exact .number (Value.safe_toNumber ih)
        | minus => exact .number (Number.safe_neg (Value.safe_toNumber ih))
  | binary op left right ihl ihr =>
    cases hl : left.eval ns with
    | error f =>
      rw [hl] at ihl
      rw [eval_binary_of_left hl]
      exact ihl.mono (List.subset_append_left _ _) (List.subset_append_left _ _)
    | ok v =>
      cases hr : right.eval ns with
      | error f =>
        rw [hr] at ihr
        rw [eval_binary_of_right hl hr]
        exact ihr.mono (List.subset_append_right _ _) (List.subset_append_right _ _)
      | ok w =>
        rw [hl] at ihl
        rw [hr] at ihr
        rw [eval_binary hl hr]
        rcases op.apply_safe ihl ihr with ⟨x, hx, hsx⟩ | hd
        · rw [hx]
          exact hsx
        · rw [hd]
          exact Or.inr (Or.inr rfl)
  | stop f => exact .inl (by simp [stops])
  | stopAfter e f ih =>
    cases he : e.eval ns with
    | error g =>
      rw [he] at ih
      rw [eval_stopAfter_of_error he]
      exact ih.mono (List.subset_append_left _ _) (List.Subset.refl _)
    | ok v =>
      rw [eval_stopAfter he]
      exact .inl (by simp [stops])

theorem safe_of_eval [Host] (hs : ns.Safe) {e : Expression} (h : e.eval ns = .ok v) : v.Safe := by
  have haccounts := accounts_eval hs e
  rwa [h] at haccounts

theorem eval_eq_error [Host] (hs : ns.Safe) {e : Expression} (h : e.eval ns = .error halt) :
    ∃ f, halt = .failure f ∧
      (f ∈ e.stops ∨ (∃ r ∈ e.references, r.read ns = .error f) ∨ f = .tooDeep) := by
  have haccounts := accounts_eval hs e
  rw [h] at haccounts
  cases halt with
  | failure f => exact ⟨f, rfl, haccounts⟩
  | exception => exact haccounts.elim

/-! ## The stops that the reader leaves -/

/-- Every stop in what the reader returns satisfies `P`. -/
def Reader.Stops (P : Failure → Prop) (read : Reader) : Prop :=
  ∀ tokens, ∀ f ∈ (read tokens).1.stops, P f

variable {P : Failure → Prop}

theorem stops_chainFrom {operators : Symbol → Option Operator} {operand : Reader}
    (ho : operand.Stops P) {bound : Nat} {left : Expression} {tokens : List Token}
    (h : tokens.length ≤ bound) (hl : ∀ f ∈ left.stops, P f) :
    ∀ f ∈ (chainFrom operators operand left tokens h).1.stops, P f := by
  fun_induction chainFrom operators operand left tokens h with
  | case1 => exact hl
  | case2 left tokens h op rest hop right hr ih =>
    apply ih
    intro f hf
    rcases List.mem_append.1 hf with hf | hf
    · exact hl f hf
    · exact ho rest f hf

theorem stops_chain (operators : Symbol → Option Operator) {operand : Reader}
    (ho : operand.Stops P) :
    (chain operators operand).Stops P :=
  fun tokens => stops_chainFrom ho _ (ho tokens)

@[simp] theorem Reading.weaken_fst {m n : Nat} (h : m ≤ n) (r : Reading m) :
    (r.weaken h).1 = r.1 := rfl

theorem stops_closeBracket {endColumn bound : Nat} {inside : Reading bound}
    (hP : ∀ tokens, P (failureAt .bracket endColumn tokens)) (h : ∀ f ∈ inside.1.stops, P f) :
    ∀ f ∈ (closeBracket endColumn inside).1.stops, P f := by
  intro f hf
  unfold closeBracket at hf
  split at hf
  · exact h f hf
  · rcases List.mem_append.1 hf with hf | hf
    · exact h f hf
    · rw [List.mem_singleton.1 hf]
      exact hP _

/-- The stops that the reader leaves are failures at a column, or the expression is too deep. -/
theorem stops_factor (hdeep : P .tooDeep)
    (hP : ∀ problem column, (∀ e h, problem ≠ .exception e h) →
      P (.expression none problem (some column))) (endColumn depth : Nat) :
    (factor endColumn depth).Stops P := by
  induction depth with
  | zero =>
    intro tokens f hf
    rw [factor] at hf
    rw [List.mem_singleton.1 hf]
    exact hdeep
  | succ depth ih =>
    intro tokens f hf
    cases tokens with
    | nil =>
      rw [factor] at hf
      rw [List.mem_singleton.1 hf]
      exact hP _ _ (by simp)
    | cons token rest =>
      rw [factor] at hf
      split at hf
      · cases hf
      · cases hf
      · cases hf
      · cases hf
      · exact ih rest f hf
      · exact ih rest f hf
      · rw [Reading.weaken_fst] at hf
        refine stops_closeBracket (fun _ => hP _ _ (by simp)) ?_ f hf
        exact stops_chain _ (stops_chain _ ih) rest
      · rw [List.mem_singleton.1 hf]
        exact hP _ _ (by simp)

theorem stops_ofTokens [Host] (hdeep : P .tooDeep)
    (hP : ∀ problem column, (∀ e h, problem ≠ .exception e h) →
      P (.expression none problem (some column))) (endColumn : Nat) (tokens : List Token) :
    ∀ f ∈ (ofTokens endColumn tokens).stops, P f := by
  have hfactor : (factor endColumn Host.brackets).Stops P :=
    stops_factor hdeep hP endColumn Host.brackets
  have hs := stops_chain sumOperator? (stops_chain productOperator? hfactor) tokens
  unfold ofTokens
  split
  · next e h he =>
    rw [show (e : Expression) = _ from (congrArg Prod.fst he).symm]
    exact hs
  · next e token rest h he =>
    intro f hf
    rcases List.mem_append.1 hf with hf | hf
    · rw [show (e : Expression) = _ from (congrArg Prod.fst he).symm] at hf
      exact hs f hf
    · rw [List.mem_singleton.1 hf]
      exact hP _ _ (by simp)

theorem located_ofTokens [Host] (endColumn : Nat) (tokens : List Token) :
    ∀ f ∈ (ofTokens endColumn tokens).stops, f.Located :=
  stops_ofTokens trivial (fun _ _ h => ⟨rfl, h⟩) endColumn tokens

/-! ## Whole texts -/

theorem located_of_scanFrom {column : Nat} {s : Text} {f : Failure}
    (h : Token.scanFrom column s = .error f) :
    f.Located := by
  fun_induction Token.scanFrom column s with
  | case1 => cases h
  | case2 column c s hb ih => exact ih h
  | case3 column c s hb hs =>
    cases h
    exact ⟨rfl, by simp⟩
  | case4 column c s hb lexeme rest hs this ih =>
    cases hr : Token.scanFrom (column + lexeme.text.length) rest with
    | error g =>
      rw [hr] at h
      cases h
      exact ih hr
    | ok tokens =>
      rw [hr] at h
      cases h

theorem evalTrimmed_of_scan_error [Host] (ns : Namespace) {s : Text} {f : Failure}
    (h : Token.scan s = .error f) :
    evalTrimmed ns s = .error (.failure f) := by
  rw [evalTrimmed, h]
  rfl

/-- The value of a text is that of the tree of its tokens. -/
theorem evalTrimmed_of_scan [Host] (ns : Namespace) {s : Text} {tokens : List Token}
    (h : Token.scan s = .ok tokens) (hne : tokens ≠ []) :
    evalTrimmed ns s = (ofTokens (s.length + 1) tokens).eval ns := by
  rw [evalTrimmed, h]
  cases tokens with
  | nil => exact absurd rfl hne
  | cons token rest => rfl

theorem evalTrimmed_of_scan_nil [Host] (ns : Namespace) {s : Text} (h : Token.scan s = .ok []) :
    evalTrimmed ns s = .error (.failure (failureAt .empty (s.length + 1) [])) := by
  rw [evalTrimmed, h]
  rfl

theorem evalText_of_ok [Host] {ns : Namespace} {s : Text} {v : Value}
    (h : evalTrimmed ns (Text.trim s) = .ok v) :
    evalText ns s = .ok v := by
  rw [evalText, h]
  rfl

theorem evalText_of_failure [Host] {ns : Namespace} {s : Text} {f : Failure}
    (h : evalTrimmed ns (Text.trim s) = .error (.failure f)) :
    evalText ns s = .error (.failure f) := by
  rw [evalText, h]
  rfl

/-- What a text denotes is safe, what stops it is a failure at a column or none of an expression,
and no exception is raised. -/
theorem evalTrimmed_safe [Host] {ns : Namespace} (hs : ns.Safe) (s : Text) :
    (∃ v, evalTrimmed ns s = .ok v ∧ v.Safe) ∨
      ∃ f, evalTrimmed ns s = .error (.failure f) ∧ f.Located := by
  cases ht : Token.scan s with
  | error g => exact .inr ⟨g, evalTrimmed_of_scan_error ns ht, located_of_scanFrom ht⟩
  | ok tokens =>
    by_cases hne : tokens = []
    · subst hne
      exact .inr ⟨_, evalTrimmed_of_scan_nil ns ht, rfl, by simp⟩
    · rw [evalTrimmed_of_scan ns ht hne]
      cases h : (ofTokens (s.length + 1) tokens).eval ns with
      | ok v => exact .inl ⟨v, rfl, safe_of_eval hs h⟩
      | error halt =>
        obtain ⟨f, rfl, hf | ⟨r, -, hr⟩ | rfl⟩ := eval_eq_error hs h
        · exact .inr ⟨f, rfl, located_ofTokens _ _ f hf⟩
        · exact .inr ⟨f, rfl, Reference.located_of_read hr⟩
        · exact .inr ⟨.tooDeep, rfl, trivial⟩

/-- Over safe values there is no exception that the expression could report. -/
theorem evalText_eq [Host] {ns : Namespace} (hs : ns.Safe) (s : Text) :
    evalText ns s = evalTrimmed ns (Text.trim s) := by
  obtain ⟨v, h, -⟩ | ⟨f, h, -⟩ := evalTrimmed_safe hs (Text.trim s)
  · rw [h, evalText_of_ok h]
  · rw [h, evalText_of_failure h]

/-- No text is evaluated to an exception, or to a failure of an expression without a column. -/
theorem evalText_safe [Host] {ns : Namespace} (hs : ns.Safe) (s : Text) :
    (∃ v, evalText ns s = .ok v ∧ v.Safe) ∨ ∃ f, evalText ns s = .error (.failure f) ∧
      f.Located := by
  rw [evalText_eq hs]
  exact evalTrimmed_safe hs (Text.trim s)

end Expression

end LineScript
