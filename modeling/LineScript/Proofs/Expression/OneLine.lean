import LineScript.Proofs.Expression.Derivation
import LineScript.Proofs.Value.OneLine

/-!
# Expressions on one line

The tokens of a text are parts of it, and the tree of tokens on one line has only texts and
references on one line. What its stops say is on one line in any case, since tokens are quoted
there. So an expression on one line has a value on one line, or a failure whose message is
(`Expression.oneLined_evalText`).
-/

namespace LineScript

open Text

/-- The token is written on one line. -/
def Token.OneLine (token : Token) : Prop := token.lexeme.text.OneLine

/-- All tokens are parts of the text that they are read from. -/
theorem Token.oneLined_scanFrom (column : Nat) {s : Text} (hs : s.OneLine) :
    OneLined (fun tokens => ∀ token ∈ tokens, token.OneLine)
      (Failure.lift (scanFrom column s)) := by
  fun_induction scanFrom column s with
  | case1 => exact List.forall_mem_nil _
  | case2 column c s hb ih => exact ih (hs.mono (List.subset_cons_self _ _))
  | case3 column c s hb hscan => exact List.forall_mem_nil _
  | case4 column c s hb lexeme rest hscan this ih =>
    rw [(Lexeme.eq_append_of_scan? hscan).1] at hs
    have hlexeme : (⟨lexeme, column⟩ : Token).OneLine := hs.mono (List.subset_append_left _ _)
    have hrest := ih (hs.mono (List.subset_append_right _ _))
    cases hr : scanFrom (column + lexeme.text.length) rest with
    | error f =>
      rw [hr] at hrest
      exact hrest
    | ok tokens =>
      rw [hr] at hrest
      exact List.forall_mem_cons.2 ⟨hlexeme, hrest⟩

namespace Expression

/-- The texts and references of the expression, and what its stops say, are on one line. -/
def OneLine : Expression → Prop
  | .number _ | .word _ => True
  | .text s => s.OneLine
  | .reference r => r.text.OneLine
  | .signed _ operand => operand.OneLine
  | .binary _ left right => left.OneLine ∧ right.OneLine
  | .stop f => f.OneLine
  | .stopAfter e f => e.OneLine ∧ f.OneLine

theorem oneLined_eval [Host] {ns : Namespace} (hns : ns.OneLine) {e : Expression} (h : e.OneLine) :
    OneLined Value.OneLine (e.eval ns) := by
  induction e with
  | number n => exact .number _
  | text s => exact .text h
  | word w => cases w <;> constructor
  | reference r => exact Reference.oneLined_read hns h
  | signed sign operand ih =>
    refine (ih h).bind fun v _ =>
      (oneLined_fault (A := fun _ => True) fun _ _ => trivial).bind fun n _ => ?_
    exact .number _
  | binary op left right ihl ihr =>
    refine (ihl h.1).bind fun v hv => (ihr h.2).bind fun w hw => oneLined_fault fun x hx => ?_
    exact Operator.oneLine_of_apply hv hw hx
  | stop f => exact h
  | stopAfter e f ih => exact (ih h.1).bind fun _ _ => h.2

/-! ## Readers -/

/-- The tree and the tokens after it are on one line. -/
def Reading.OneLine {bound : Nat} (r : Reading bound) : Prop :=
  r.1.OneLine ∧ ∀ token ∈ r.2.1, token.OneLine

/-- From tokens on one line, the reader reads a tree on one line. -/
def Reader.OneLine (read : Reader) : Prop :=
  ∀ tokens, (∀ token ∈ tokens, token.OneLine) → (read tokens).OneLine

theorem oneLine_failureAt (problem : ExpressionProblem) (endColumn : Nat) (tokens : List Token) :
    (failureAt problem endColumn tokens).OneLine := by
  simp [failureAt, Failure.OneLine, Failure.texts]

theorem oneLine_unexpected (token : Token) : (unexpected token).OneLine := by
  simp [unexpected, Failure.OneLine, Failure.texts]

theorem oneLine_chainFrom {operators : Symbol → Option Operator} {operand : Reader}
    (ho : operand.OneLine) {bound : Nat} {left : Expression} {tokens : List Token}
    (h : tokens.length ≤ bound) (hl : left.OneLine) (ht : ∀ token ∈ tokens, token.OneLine) :
    (chainFrom operators operand left tokens h).OneLine := by
  fun_induction chainFrom operators operand left tokens h with
  | case1 => exact ⟨hl, ht⟩
  | case2 left tokens h op rest hop right hr ih =>
    obtain ⟨symbol, column, -, rfl⟩ := eq_cons_of_operator? hop
    have hright := ho rest (List.forall_mem_cons.1 ht).2
    exact ih ⟨hl, hright.1⟩ hright.2

theorem oneLine_chain (operators : Symbol → Option Operator) {operand : Reader}
    (ho : operand.OneLine) :
    (chain operators operand).OneLine :=
  fun tokens ht => oneLine_chainFrom ho _ (ho tokens ht).1 (ho tokens ht).2

theorem oneLine_closeBracket (endColumn : Nat) {bound : Nat} {inside : Reading bound}
    (h : inside.OneLine) :
    (closeBracket endColumn inside).OneLine := by
  unfold closeBracket
  split
  · next rest hrest =>
    obtain ⟨column, hinside⟩ := eq_cons_of_closing? hrest
    refine ⟨h.1, fun token htoken => h.2 token ?_⟩
    rw [hinside]
    exact List.mem_cons_of_mem _ htoken
  · exact ⟨⟨h.1, oneLine_failureAt _ _ _⟩, h.2⟩

theorem oneLine_factor (endColumn depth : Nat) : (factor endColumn depth).OneLine := by
  induction depth with
  | zero => exact fun tokens ht => ⟨by simp [factor, OneLine, Failure.OneLine, Failure.texts], ht⟩
  | succ depth ih =>
    intro tokens ht
    cases tokens with
    | nil => exact ⟨oneLine_failureAt _ _ _, ht⟩
    | cons token rest =>
      obtain ⟨htoken, hrest⟩ := List.forall_mem_cons.1 ht
      have hsum := oneLine_chain sumOperator? (oneLine_chain productOperator? ih) rest hrest
      unfold Token.OneLine at htoken
      rw [factor]
      split
      · exact ⟨trivial, hrest⟩
      · next hlexeme =>
        rw [hlexeme] at htoken
        exact ⟨htoken.mono fun c hc => by simp [Lexeme.text, hc], hrest⟩
      · next hlexeme =>
        rw [hlexeme] at htoken
        exact ⟨htoken, hrest⟩
      · exact ⟨trivial, hrest⟩
      · exact ih rest hrest
      · exact ih rest hrest
      · exact oneLine_closeBracket endColumn hsum
      · exact ⟨oneLine_unexpected token, hrest⟩

theorem oneLine_ofTokens [Host] (endColumn : Nat) {tokens : List Token}
    (ht : ∀ token ∈ tokens, token.OneLine) :
    (ofTokens endColumn tokens).OneLine := by
  have hfactor := oneLine_factor endColumn Host.brackets
  have hsum := oneLine_chain sumOperator? (oneLine_chain productOperator? hfactor) tokens ht
  unfold ofTokens
  split
  · next e h he =>
    rw [show (e : Expression) = _ from (congrArg Prod.fst he).symm]
    exact hsum.1
  · next e token rest h he =>
    refine ⟨?_, oneLine_unexpected token⟩
    rw [show (e : Expression) = _ from (congrArg Prod.fst he).symm]
    exact hsum.1

theorem oneLined_evalTrimmed [Host] {ns : Namespace} (hns : ns.OneLine) {s : Text}
    (hs : s.OneLine) :
    OneLined Value.OneLine (evalTrimmed ns s) := by
  refine OneLined.bind (Token.oneLined_scanFrom 1 hs) fun tokens htokens => ?_
  cases tokens with
  | nil => exact oneLine_failureAt _ _ _
  | cons token tokens => exact oneLined_eval hns (oneLine_ofTokens _ htokens)

/-- An expression on one line has a value on one line. -/
theorem oneLined_evalText [Host] {ns : Namespace} (hns : ns.OneLine) {s : Text} (hs : s.OneLine) :
    OneLined Value.OneLine (evalText ns s) := by
  have htrimmed := oneLined_evalTrimmed hns (hs.mono (partOf_trim s))
  rw [evalText]
  cases hresult : evalTrimmed ns (Text.trim s) with
  | ok v =>
    rw [hresult] at htrimmed
    exact htrimmed
  | error halt =>
    rw [hresult] at htrimmed
    cases halt with
    | failure f => exact htrimmed
    | exception e =>
      -- An exception that is reported is reported without a part of the script.
      rw [Except.mapError, Stop.ofExpression]
      split
      · exact List.forall_mem_nil _
      · trivial

end Expression

end LineScript
