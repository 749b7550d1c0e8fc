import LineScript.Proofs.Expression.Meaning
import LineScript.Proofs.Expression.Token

/-!
# Where an expression cannot go on

Tokens are viable if they begin a sentence of the grammar. A reading of tokens stands before or
after an operand, with some brackets open (`Grammar.Position`), and a position admits the tokens
that can come next. No sentence is refused by the positions (`Grammar.Sum.run?_tokens`), so tokens
that are refused are not viable. The reader of expressions stops at the first token that is refused,
and all that it has read before can be completed (`Expression.proceeds_factor`). Hence an expression
that is no sentence fails at the first token which no sentence has there, or at its end.
-/

namespace LineScript

namespace Grammar

/-- The tokens begin a sentence. -/
def Viable (tokens : List Token) : Prop := ∃ rest, Derivable (tokens ++ rest)

theorem Derivable.viable {tokens : List Token} (h : Derivable tokens) : Viable tokens :=
  ⟨[], (List.append_nil tokens).symm ▸ h⟩

theorem Viable.of_isPrefix {front tokens : List Token} (h : Viable tokens) (hp : front <+: tokens) :
    Viable front := by
  obtain ⟨more, rfl⟩ := hp
  obtain ⟨rest, hrest⟩ := h
  exact ⟨more ++ rest, List.append_assoc front more rest ▸ hrest⟩

theorem Viable.of_sum {front : List Token} {d : Sum} (h : front <+: d.tokens) : Viable front := by
  obtain ⟨rest, hrest⟩ := h
  exact ⟨rest, d, hrest.symm⟩

/-- What begins a sentence ends before the first token that begins none. -/
theorem Viable.isPrefix {tokens before front : List Token} {token : Token} (h : Viable front)
    (hp : front <+: tokens) (hb : before ++ [token] <+: tokens)
    (hnot : ¬Viable (before ++ [token])) : front <+: before := by
  rcases List.prefix_or_prefix_of_prefix hp hb with hle | hle
  · rcases List.prefix_concat_iff.1 hle with rfl | hle
    · exact absurd h hnot
    · exact hle
  · exact absurd (h.of_isPrefix hle) hnot

/-- What of the tokens begins a sentence begins one that is not too deep. -/
def Bounded [Host] (tokens : List Token) : Prop :=
  ∀ front, front <+: tokens → Viable front → ∃ d : Sum, front <+: d.tokens ∧ d.depth ≤ Host.brackets

/-! ## Positions -/

/-- Where a reading stands. `level` counts the signs and brackets whose operand is not complete,
`base` those of them before the first operand inside of the innermost open bracket, and `outer` has
the bases outside of each open bracket, the innermost first. -/
inductive Position
  | operand (level base : Nat) (outer : List Nat)
  | joint (base : Nat) (outer : List Nat)
deriving DecidableEq

namespace Position

/-- The position after a lexeme, if it can stand there. -/
def next? : Position → Lexeme → Option Position
  | .operand level base outer, .symbol .plus => some (.operand (level + 1) base outer)
  | .operand level base outer, .symbol .minus => some (.operand (level + 1) base outer)
  | .operand level base outer, .symbol .opening =>
    some (.operand (level + 1) (level + 1) (base :: outer))
  | .operand _ _ _, .symbol _ => none
  | .operand _ base outer, _ => some (.joint base outer)
  | .joint _ (base :: outer), .symbol .closing => some (.joint base outer)
  | .joint _ [], .symbol .closing => none
  | .joint _ _, .symbol .opening => none
  | .joint base outer, .symbol _ => some (.operand base base outer)
  | .joint _ _, _ => none

/-- The position after tokens, if they can stand there. -/
def run? (p : Position) : List Token → Option Position
  | [] => some p
  | token :: tokens => (p.next? token.lexeme).bind fun q => q.run? tokens

theorem run?_append (p : Position) (ts us : List Token) :
    p.run? (ts ++ us) = (p.run? ts).bind fun q => q.run? us := by
  induction ts generalizing p with
  | nil => rfl
  | cons token ts ih =>
    rw [List.cons_append, run?, run?]
    cases p.next? token.lexeme with
    | none => rfl
    | some q => exact ih q

theorem run?_append_of_some {p q : Position} {ts : List Token} (h : p.run? ts = some q)
    (us : List Token) :
    p.run? (ts ++ us) = q.run? us := by
  rw [run?_append, h]
  rfl

theorem run?_singleton (p : Position) (token : Token) : p.run? [token] = p.next? token.lexeme := by
  rw [run?]
  cases p.next? token.lexeme <;> rfl

theorem next?_operand_sign (level base : Nat) (outer : List Nat) (sign : Sign) :
    (operand level base outer).next? (.symbol sign.symbol) =
      some (.operand (level + 1) base outer) := by
  cases sign <;> rfl

theorem next?_operand_atom (level base : Nat) (outer : List Nat) (a : Atom) :
    (operand level base outer).next? a.lexeme = some (.joint base outer) := by
  cases a <;> rfl

theorem next?_joint_sign (base : Nat) (outer : List Nat) (sign : Sign) :
    (joint base outer).next? (.symbol sign.symbol) = some (.operand base base outer) := by
  cases outer <;> cases sign <;> rfl

theorem next?_joint_scale (base : Nat) (outer : List Nat) (scale : Scale) :
    (joint base outer).next? (.symbol scale.symbol) = some (.operand base base outer) := by
  cases outer <;> cases scale <;> rfl

end Position

open Position

mutual

/-- Before an operand a sum can stand, and after it the reading is where it was, behind the
operand. -/
theorem Sum.run?_tokens (d : Sum) (level base : Nat) (outer : List Nat) :
    (operand level base outer).run? d.tokens = some (.joint base outer) := by
  cases d with
  | product p => exact p.run?_tokens level base outer
  | join left sign column right =>
    show (operand level base outer).run? (left.tokens ++ _ :: right.tokens) = _
    rw [run?_append_of_some (left.run?_tokens level base outer), run?, next?_joint_sign]
    exact right.run?_tokens base base outer

theorem Product.run?_tokens (p : Product) (level base : Nat) (outer : List Nat) :
    (operand level base outer).run? p.tokens = some (.joint base outer) := by
  cases p with
  | factor f => exact f.run?_tokens level base outer
  | join left scale column right =>
    show (operand level base outer).run? (left.tokens ++ _ :: right.tokens) = _
    rw [run?_append_of_some (left.run?_tokens level base outer), run?, next?_joint_scale]
    exact right.run?_tokens base base outer

theorem Factor.run?_tokens (f : Factor) (level base : Nat) (outer : List Nat) :
    (operand level base outer).run? f.tokens = some (.joint base outer) := by
  cases f with
  | atom a column =>
    show (operand level base outer).run? [_] = _
    rw [run?_singleton, next?_operand_atom]
  | signed sign column operand =>
    show (Position.operand level base outer).run? (_ :: operand.tokens) = _
    rw [run?, next?_operand_sign]
    exact operand.run?_tokens (level + 1) base outer
  | bracketed opening inside closing =>
    show (operand (level + 1) (level + 1) (base :: outer)).run? (inside.tokens ++ [_]) = _
    rw [run?_append_of_some (inside.run?_tokens (level + 1) (level + 1) (base :: outer))]
    rfl

end

/-- Tokens that are refused begin no sentence. -/
theorem not_viable_of_run? {tokens : List Token} (h : (operand 0 0 []).run? tokens = none) :
    ¬Viable tokens := by
  rintro ⟨rest, d, hd⟩
  have hrun := d.run?_tokens 0 0 []
  rw [hd, run?_append, h] at hrun
  cases hrun

/-! ## Levels -/

namespace Position

def level : Position → Nat
  | .operand level _ _ => level
  | .joint base _ => base

/-- Along the tokens the level stays below the limit. -/
def Within (limit : Nat) (p : Position) : List Token → Prop
  | [] => p.level < limit
  | token :: tokens => p.level < limit ∧ ∀ q, p.next? token.lexeme = some q → q.Within limit tokens

variable {limit : Nat} {p q : Position}

theorem Within.level_lt {tokens : List Token} (h : p.Within limit tokens) : p.level < limit := by
  cases tokens with
  | nil => exact h
  | cons token tokens => exact h.1

theorem Within.mono {limit' : Nat} {tokens : List Token} (h : p.Within limit tokens)
    (hle : limit ≤ limit') :
    p.Within limit' tokens := by
  induction tokens generalizing p with
  | nil => exact Nat.lt_of_lt_of_le h hle
  | cons token tokens ih => exact ⟨Nat.lt_of_lt_of_le h.1 hle, fun q hq => ih (h.2 q hq)⟩

theorem Within.append {ts us : List Token} (h : p.Within limit ts)
    (hq : ∀ q, p.run? ts = some q → q.Within limit us) :
    p.Within limit (ts ++ us) := by
  induction ts generalizing p with
  | nil => exact hq p rfl
  | cons token ts ih =>
    refine ⟨h.1, fun q hnext => ih (h.2 q hnext) fun r hr => hq r ?_⟩
    rw [run?, hnext]
    exact hr

/-- The level is below the limit also where the tokens break off. -/
theorem Within.of_append {ts us : List Token} (h : p.Within limit (ts ++ us))
    (hq : p.run? ts = some q) :
    q.level < limit := by
  induction ts generalizing p with
  | nil =>
    cases hq
    exact h.level_lt
  | cons token ts ih =>
    obtain ⟨r, hnext, hr⟩ := Option.bind_eq_some_iff.1 hq
    exact ih (h.2 r hnext) hr

/-- Operands that are joined go as deep as the deeper of them. -/
theorem Within.join {level base m n : Nat} {outer : List Nat} {ts us : List Token} {token : Token}
    (h : base ≤ level) (hts : (operand level base outer).Within (level + m) ts)
    (hrun : (operand level base outer).run? ts = some (.joint base outer))
    (hnext : (joint base outer).next? token.lexeme = some (.operand base base outer))
    (hus : (operand base base outer).Within (base + n) us) :
    (operand level base outer).Within (level + max m n) (ts ++ token :: us) := by
  have hm : level < level + m := hts.level_lt
  refine (hts.mono (by omega)).append fun q hq => ?_
  rw [hrun] at hq
  cases hq
  refine ⟨show base < level + max m n by omega, fun q hq => ?_⟩
  rw [hnext] at hq
  cases hq
  exact hus.mono (by omega)

end Position

mutual

/-- A sum goes no deeper than its depth. -/
theorem Sum.within_tokens (d : Sum) {level base : Nat} (h : base ≤ level) (outer : List Nat) :
    (operand level base outer).Within (level + d.depth) d.tokens := by
  cases d with
  | product p => exact p.within_tokens h outer
  | join left sign column right =>
    exact .join h (left.within_tokens h outer) (left.run?_tokens level base outer)
      (next?_joint_sign base outer sign)
      (right.within_tokens (Nat.le_refl base) outer)

theorem Product.within_tokens (p : Product) {level base : Nat} (h : base ≤ level)
    (outer : List Nat) :
    (operand level base outer).Within (level + p.depth) p.tokens := by
  cases p with
  | factor f => exact f.within_tokens h outer
  | join left scale column right =>
    exact .join h (left.within_tokens h outer) (left.run?_tokens level base outer)
      (next?_joint_scale base outer scale)
      (right.within_tokens (Nat.le_refl base) outer)

theorem Factor.within_tokens (f : Factor) {level base : Nat} (h : base ≤ level) (outer : List Nat) :
    (operand level base outer).Within (level + f.depth) f.tokens := by
  cases f with
  | atom a column =>
    refine ⟨Nat.lt_succ_self level, fun q hq => ?_⟩
    rw [next?_operand_atom] at hq
    cases hq
    exact Nat.lt_succ_of_le h
  | signed sign column operand =>
    refine ⟨Nat.lt_add_of_pos_right (Nat.succ_pos _), fun q hq => ?_⟩
    rw [next?_operand_sign] at hq
    cases hq
    have hoperand : (Position.operand (level + 1) base outer).Within (level + 1 + operand.depth)
        operand.tokens :=
      operand.within_tokens (Nat.le_succ_of_le h) outer
    rw [Nat.add_right_comm] at hoperand
    exact hoperand
  | bracketed opening inside closing =>
    refine ⟨Nat.lt_add_of_pos_right (Nat.succ_pos _), ?_⟩
    rintro q ⟨⟩
    have hinside := inside.within_tokens (Nat.le_refl (level + 1)) (base :: outer)
    rw [Nat.add_right_comm] at hinside
    refine hinside.append fun q hq => ?_
    rw [inside.run?_tokens] at hq
    cases hq
    have hlt : level + 1 < level + inside.depth + 1 := hinside.level_lt
    refine ⟨hlt, ?_⟩
    rintro q ⟨⟩
    show base < level + (inside.depth + 1)
    omega

end

/-- A reading of tokens that begin a sentence stands on a level below the depth of the sentence. -/
theorem Sum.level_lt_depth (d : Sum) {front : List Token} {p : Position} (h : front <+: d.tokens)
    (hp : (operand 0 0 []).run? front = some p) : p.level < d.depth := by
  obtain ⟨rest, hd⟩ := h
  have hwithin := d.within_tokens (Nat.le_refl 0) []
  rw [← hd, Nat.zero_add] at hwithin
  exact hwithin.of_append hp

end Grammar

namespace Expression

open Grammar Position

/-! ## Where the reader stops -/

/-- The references among the tokens have values. -/
def Resolved (ns : Namespace) (tokens : List Token) : Prop :=
  ∀ r ∈ Grammar.references tokens, ∃ v, r.read ns = .ok v

theorem Resolved.of_append {ns : Namespace} {ts us : List Token} (h : Resolved ns (ts ++ us)) :
    Resolved ns ts ∧ Resolved ns us := by
  unfold Resolved at h ⊢
  rw [references_append, List.forall_mem_append] at h
  exact h

/-- Why a reading from `p` on stops after `front`, before `rest`: it stands on the level that is the
limit, or `rest` has ended or begins with a token that is refused. -/
inductive Halts (endColumn limit : Nat) (p : Position) (front rest : List Token) : Failure → Prop
  | tooDeep (base : Nat) (outer : List Nat) :
    p.run? front = some (.operand limit base outer) → Halts endColumn limit p front rest .tooDeep
  | refused (problem : ExpressionProblem) :
    (∀ token ∈ rest.head?, p.run? (front ++ [token]) = none) →
      Halts endColumn limit p front rest (failureAt problem endColumn rest)

variable {ns : Namespace} {endColumn limit : Nat} {p q : Position}

/-- A reading that gets from `p` to `q` stops where one from `q` on does. -/
theorem Halts.append {ts front rest : List Token} {f : Failure} (hrun : p.run? ts = some q)
    (h : Halts endColumn limit q front rest f) : Halts endColumn limit p (ts ++ front) rest f := by
  cases h with
  | tooDeep base outer hfront =>
    exact .tooDeep base outer ((run?_append_of_some hrun front).trans hfront)
  | refused problem hrefused =>
    refine .refused problem fun token htoken => ?_
    rw [List.append_assoc, run?_append_of_some hrun]
    exact hrefused token htoken

/-- The tokens are read to an expression of the language up to `rest`, which satisfies `follow`; or
the evaluation of what is read fails where a reading from `p` on stops, and what stands before can
be completed. -/
def Proceeds [Host] (ns : Namespace) (endColumn limit : Nat) (p : Position) (L : Language)
    (follow : List Token → Prop) (tokens : List Token) (e : Expression)
    (rest : List Token) : Prop :=
  (∃ ts, L ts e ∧ tokens = ts ++ rest ∧ follow rest) ∨
    ∃ front back f, tokens = front ++ back ∧ (∃ more e, L (front ++ more) e) ∧
      e.eval ns = .error (.failure f) ∧ Halts endColumn limit p front back f

/-- So the reader does with all tokens whose references have values. -/
def Reader.Proceeds [Host] (ns : Namespace) (endColumn limit : Nat) (p : Position) (L : Language)
    (follow : List Token → Prop) (read : Reader) : Prop :=
  ∀ tokens, Resolved ns tokens →
    Expression.Proceeds ns endColumn limit p L follow tokens (read tokens).1 (read tokens).2.1

theorem Reader.Proceeds.imp [Host] {L : Language} {follow follow' : List Token → Prop}
    {read : Reader} (h : read.Proceeds ns endColumn limit p L follow)
    (himp : ∀ rest, follow rest → follow' rest) :
    read.Proceeds ns endColumn limit p L follow' := by
  intro tokens hr
  rcases h tokens hr with ⟨ts, hts, heq, hfollow⟩ | hhalts
  · exact .inl ⟨ts, hts, heq, himp _ hfollow⟩
  · exact .inr hhalts

variable {operators : Symbol → Option Operator} {operand : Reader} {A B : Language}
    {follow : List Token → Prop}
  {level : Nat} {outer : List Nat}

theorem eval_chainFrom_of_error [Host] {bound : Nat} {left : Expression} {tokens : List Token}
    (h : tokens.length ≤ bound) {halt : Stop} (hl : left.eval ns = .error halt) :
    (chainFrom operators operand left tokens h).1.eval ns = .error halt := by
  fun_induction chainFrom operators operand left tokens h with
  | case1 => exact hl
  | case2 left tokens h op rest ho right hr ih => exact ih (eval_binary_of_left hl op right.1)

/-- An expression of the grammar has a value if its references have. -/
theorem exists_eval_of_sumLanguage [Host] (hs : ns.Safe) (hd : ns.Shallow) {ts : List Token}
    {e : Expression} (h : sumLanguage ts e) (hr : Resolved ns ts) : ∃ v, e.eval ns = .ok v := by
  obtain ⟨d, rfl, rfl⟩ := h
  exact exists_eval_tree hs hd d hr

theorem run?_of_sumLanguage {ts : List Token} {e : Expression} (h : sumLanguage ts e)
    (level base : Nat) (outer : List Nat) :
    (Position.operand level base outer).run? ts = some (.joint base outer) := by
  obtain ⟨d, rfl, -⟩ := h
  exact d.run?_tokens level base outer

/-- After an operand, the operators of a chain lead back to where its first operand began. -/
def Leads (operators : Symbol → Option Operator) : Prop :=
  ∀ symbol op, operators symbol = some op →
    ∀ base outer, (joint base outer).next? (.symbol symbol) = some (.operand base base outer)

theorem proceeds_chainFrom [Host] (hs : ns.Safe) (hd : ns.Shallow) (hops : Leads operators)
    (hjoin : Joins operators A B) (hB : ∀ ts e, B ts e → sumLanguage ts e)
    (hA : operand.Proceeds ns endColumn limit (.operand level level outer) A follow) {bound : Nat}
    {left : Expression} {tokens : List Token} (h : tokens.length ≤ bound) {ts : List Token}
    (hl : B ts left) (hr : Resolved ns (ts ++ tokens)) (hfollow : follow tokens) :
    Proceeds ns endColumn limit (.operand level level outer) B
      (fun rest => operator? operators rest = none ∧ follow rest)
      (ts ++ tokens) (chainFrom operators operand left tokens h).1
      (chainFrom operators operand left tokens h).2.1 := by
  -- `ts` are the tokens that were read so far; each round adds an operator and its right operand to
  -- them.
  fun_induction chainFrom operators operand left tokens h generalizing ts with
  | case1 left tokens h ho => exact .inl ⟨ts, hl, rfl, ho, hfollow⟩
  | case2 left tokens h op rest ho right hlt =>
    rename_i ih
    obtain ⟨symbol, column, hop, rfl⟩ := eq_cons_of_operator? ho
    obtain ⟨hts, hrest⟩ := hr.of_append
    rcases hA rest hrest with
      ⟨us, hus, heq, hfollow⟩ | ⟨front, back, f, heq, ⟨more, e, he⟩, heval, hhalts⟩
    · have hsplit : ts ++ ⟨.symbol symbol, column⟩ :: rest =
          (ts ++ ⟨.symbol symbol, column⟩ :: us) ++ right.2.1 := by
        rw [List.append_assoc, List.cons_append, ← heq]
      rw [hsplit] at hr ⊢
      exact ih (hjoin ts left symbol column us _ op hl hop hus) hr hfollow
    · obtain ⟨v, hv⟩ := exists_eval_of_sumLanguage hs hd (hB ts left hl) hts
      have hback : (Position.operand level level outer).run? (ts ++ [⟨.symbol symbol, column⟩]) =
          some (.operand level level outer) := by
        rw [run?_append_of_some (run?_of_sumLanguage (hB ts left hl) level level outer),
          run?_singleton]
        exact hops symbol op hop level outer
      have hhalts' := hhalts.append hback
      rw [List.append_assoc] at hhalts'
      refine .inr ⟨_, back, f, ?_, ⟨more, .binary op left e, ?_⟩, ?_, hhalts'⟩
      · rw [heq]
        simp
      · have := hjoin ts left symbol column (front ++ more) e op hl hop he
        simpa using this
      · exact eval_chainFrom_of_error _ (eval_binary_of_right hv heval op)

theorem proceeds_chain [Host] (hs : ns.Safe) (hd : ns.Shallow) (hops : Leads operators)
    (hsingle : ∀ ts e, A ts e → B ts e) (hjoin : Joins operators A B)
    (hB : ∀ ts e, B ts e → sumLanguage ts e)
    (hA : operand.Proceeds ns endColumn limit (.operand level level outer) A follow) :
    (chain operators operand).Proceeds ns endColumn limit (.operand level level outer) B
      fun rest => operator? operators rest = none ∧ follow rest := by
  intro tokens hr
  rcases hA tokens hr with
    ⟨ts, hts, heq, hfollow⟩ | ⟨front, back, f, heq, ⟨more, e, he⟩, heval, hhalts⟩
  · have hproceeds := proceeds_chainFrom hs hd hops hjoin hB hA (operand tokens).2.2
      (hsingle _ _ hts) (heq ▸ hr) hfollow
    rw [← heq] at hproceeds
    exact hproceeds
  · exact .inr ⟨front, back, f, heq, ⟨more, e, hsingle _ _ he⟩,
      eval_chainFrom_of_error _ heval, hhalts⟩

/-- The tokens begin with no operator. -/
def NoOperator (rest : List Token) : Prop :=
  operator? sumOperator? rest = none ∧ operator? productOperator? rest = none

theorem leads_sumOperator? : Leads sumOperator? := by
  intro symbol op hop base outer
  cases symbol <;> cases hop <;> cases outer <;> rfl

theorem leads_productOperator? : Leads productOperator? := by
  intro symbol op hop base outer
  cases symbol <;> cases hop <;> cases outer <;> rfl

theorem proceeds_sum [Host] (hs : ns.Safe) (hd : ns.Shallow) {read : Reader}
    (h : read.Proceeds ns endColumn limit (.operand level level outer) factorLanguage
      fun _ => True) :
    (sum read).Proceeds ns endColumn limit (.operand level level outer) sumLanguage NoOperator := by
  have hproduct :=
    proceeds_chain hs hd leads_productOperator? productLanguage_of_factor joins_product
      sumLanguage_of_product h
  have hsum :=
    proceeds_chain hs hd leads_sumOperator? sumLanguage_of_product joins_sum
      (fun _ _ hsum => hsum) hproduct
  exact hsum.imp fun rest hrest => ⟨hrest.1, hrest.2.1⟩

/-- After an operand nothing can stand but an operator, or the bracket that closes the innermost
one. -/
theorem next?_joint_eq_none {base : Nat} {token : Token} {rest : List Token}
    (h : NoOperator (token :: rest)) (hc : closing? (token :: rest) = none ∨ outer = []) :
    (joint base outer).next? token.lexeme = none := by
  obtain ⟨lexeme, column⟩ := token
  obtain ⟨hsum, hproduct⟩ := h
  cases lexeme with
  | symbol symbol =>
    cases symbol with
    | plus | minus => cases hsum
    | opening => cases outer <;> rfl
    | closing =>
      rcases hc with hc | rfl
      · cases hc
      · rfl
    | _ => cases hproduct
  | _ => cases outer <;> rfl

theorem eval_closeBracket_of_error [Host] {bound : Nat} {inside : Reading bound} {halt : Stop}
    (h : inside.1.eval ns = .error halt) :
    (closeBracket endColumn inside).1.eval ns = .error halt := by
  unfold closeBracket
  split
  · exact h
  · exact eval_stopAfter_of_error h _

theorem proceeds_closeBracket [Host] (hs : ns.Safe) (hd : ns.Shallow) {base : Nat}
    {tokens : List Token} (opening : Nat) {inside : Reading tokens.length} (hr : Resolved ns tokens)
    (h : Proceeds ns endColumn limit (.operand (level + 1) (level + 1) (base :: outer)) sumLanguage
      NoOperator tokens inside.1 inside.2.1) :
    Proceeds ns endColumn limit (.operand level base outer) factorLanguage (fun _ => True)
      (⟨.symbol .opening, opening⟩ :: tokens) (closeBracket endColumn inside).1
      (closeBracket endColumn inside).2.1 := by
  have hopen : (Position.operand level base outer).run? [⟨.symbol .opening, opening⟩] =
    some (.operand (level + 1) (level + 1) (base :: outer)) := rfl
  rcases h with ⟨ts, hts, heq, hno⟩ | ⟨front, back, f, heq, ⟨more, e, d, hmore, -⟩, heval, hhalts⟩
  · obtain ⟨d, rfl, htree⟩ := id hts
    unfold closeBracket
    split
    · next rest hc =>
      obtain ⟨closing, hclosing⟩ := eq_cons_of_closing? hc
      refine .inl ⟨_, ⟨.bracketed opening d closing, rfl, htree⟩, ?_, trivial⟩
      rw [hclosing] at heq
      refine (congrArg (List.cons _) heq).trans ?_
      simp [Factor.tokens]
    · next hc =>
      obtain ⟨v, hv⟩ := exists_eval_of_sumLanguage hs hd hts (heq ▸ hr).of_append.1
      refine .inr ⟨_ :: d.tokens, _, _, congrArg _ heq,
        ⟨[⟨.symbol .closing, 0⟩], _, .bracketed opening d 0, rfl, rfl⟩, eval_stopAfter hv _, ?_⟩
      refine .append hopen (.refused .bracket fun token htoken => ?_)
      obtain ⟨rest, hrest⟩ := List.head?_eq_some_iff.1 htoken
      rw [hrest] at hno hc
      rw [run?_append_of_some (run?_of_sumLanguage hts _ _ _), run?_singleton]
      exact next?_joint_eq_none hno (.inl hc)
  · refine .inr ⟨_ :: front, back, f, congrArg _ heq,
      ⟨more ++ [⟨.symbol .closing, 0⟩], _, .bracketed opening d 0, ?_, rfl⟩,
        eval_closeBracket_of_error heval,
      hhalts.append hopen⟩
    simp [Factor.tokens, hmore]

/-- An operand, where only the tokens before it are given. -/
def anyOperand : Factor := .atom (.word .plainNull) 0

/-- The reader of factors proceeds in every position, with the depth that the limit leaves there. -/
theorem proceeds_factor [Host] (hs : ns.Safe) (hd : ns.Shallow) {depth level : Nat}
    (h : level + depth = limit) (base : Nat) (outer : List Nat) :
    (factor endColumn depth).Proceeds ns endColumn limit (.operand level base outer) factorLanguage
      fun _ => True := by
  have hany : ∃ more e, factorLanguage ([] ++ more) e := ⟨_, _, anyOperand, rfl, rfl⟩
  induction depth generalizing level base outer with
  | zero =>
    intro tokens hr
    refine .inr ⟨[], tokens, .tooDeep, rfl, hany, rfl, .tooDeep base outer ?_⟩
    rw [← h]
    rfl
  | succ depth ih =>
    intro tokens hr
    -- A sign or a bracket takes one from the depth and adds one to the level.
    have hdeeper : level + 1 + depth = limit := by omega
    cases tokens with
    | nil =>
      exact .inr ⟨[], [], _, rfl, hany, rfl, .refused .ended fun token htoken => by cases htoken⟩
    | cons token rest =>
      obtain ⟨lexeme, column⟩ := token
      have hrest : Resolved ns rest := by
        rw [← List.singleton_append] at hr
        exact hr.of_append.2
      have hsigned (sign : Sign) :
          Proceeds ns endColumn limit (.operand level base outer) factorLanguage (fun _ => True)
          (⟨.symbol sign.symbol, column⟩ :: rest) (.signed sign (factor endColumn depth rest).1)
          (factor endColumn depth rest).2.1 := by
        rcases ih hdeeper base outer rest hrest with
          ⟨_, ⟨f, rfl, hf⟩, heq, -⟩ | ⟨front, back, f, heq, ⟨more, e, operand, hmore, -⟩,
            heval, hhalts⟩
        · exact .inl ⟨_, ⟨.signed sign column f, rfl, congrArg _ hf⟩, congrArg _ heq, trivial⟩
        · have hsign : (Position.operand level base outer).run? [⟨.symbol sign.symbol, column⟩] =
              some (.operand (level + 1) base outer) := by
            rw [run?_singleton, next?_operand_sign]
          exact .inr ⟨_ :: front, back, f, congrArg _ heq,
            ⟨more, _, .signed sign column operand, congrArg _ hmore, rfl⟩,
              eval_signed_of_error heval sign,
            hhalts.append hsign⟩
      cases lexeme with
      | number n => exact .inl ⟨_, ⟨.atom (.number n) column, rfl, rfl⟩, rfl, trivial⟩
      | quoted mark content =>
        exact .inl ⟨_, ⟨.atom (.quoted mark content) column, rfl, rfl⟩, rfl, trivial⟩
      | reference r => exact .inl ⟨_, ⟨.atom (.reference r) column, rfl, rfl⟩, rfl, trivial⟩
      | word w => exact .inl ⟨_, ⟨.atom (.word w) column, rfl, rfl⟩, rfl, trivial⟩
      | symbol symbol =>
        cases symbol with
        | plus => exact hsigned .plus
        | minus => exact hsigned .minus
        | opening =>
          have hinside := proceeds_sum hs hd (ih hdeeper (level + 1) (base :: outer))
          exact proceeds_closeBracket hs hd column hrest (hinside rest hrest)
        | _ =>
          refine .inr ⟨[], _, _, rfl, hany, rfl, .refused (.unexpected _) ?_⟩
          rintro token ⟨⟩
          rfl

/-- The evaluation of tokens that are no sentence fails where the reading of them stops. -/
theorem halts_ofTokens [Host] (hs : ns.Safe) (hd : ns.Shallow) {tokens : List Token}
    (hr : Resolved ns tokens) (hnot : ¬Derivable tokens) :
    ∃ front back f, tokens = front ++ back ∧ Viable front ∧
      (ofTokens endColumn tokens).eval ns = .error (.failure f) ∧
      Halts endColumn Host.brackets (.operand 0 0 []) front back f := by
  have hfactor :
      (factor endColumn Host.brackets).Proceeds ns endColumn Host.brackets (.operand 0 0 [])
        factorLanguage _ :=
    proceeds_factor hs hd (Nat.zero_add Host.brackets) 0 []
  have h := proceeds_sum hs hd hfactor tokens hr
  unfold ofTokens
  generalize sum (factor endColumn Host.brackets) tokens = r at h ⊢
  obtain ⟨e, rest, hb⟩ := r
  rcases h with ⟨ts, hts, heq, hno⟩ | ⟨front, back, f, heq, ⟨more, _, d, hmore, -⟩, heval, hhalts⟩
  · obtain ⟨d, rfl, -⟩ := id hts
    cases rest with
    | nil => exact absurd ⟨d, (heq.trans (List.append_nil _)).symm⟩ hnot
    | cons token rest =>
      obtain ⟨v, hv⟩ := exists_eval_of_sumLanguage hs hd hts (heq ▸ hr).of_append.1
      refine ⟨d.tokens, _, _, heq, Derivable.viable ⟨d, rfl⟩, eval_stopAfter hv _,
        .refused (.unexpected _) ?_⟩
      rintro _ ⟨⟩
      rw [run?_append_of_some (run?_of_sumLanguage hts _ _ _), run?_singleton]
      exact next?_joint_eq_none hno (.inr rfl)
  · refine ⟨front, back, f, heq, ⟨more, d, hmore⟩, ?_, hhalts⟩
    cases rest with
    | nil => exact heval
    | cons token rest => exact eval_stopAfter_of_error heval _

/-- An expression whose tokens are no sentence fails at the first token that makes what stands
before it the beginning of no sentence, or at its end if it begins one. A text that cannot be cut
into tokens fails where no token begins, whatever stands before. -/
theorem evalText_column [Host] (s : Text) :
    (∀ ns tokens, ns.Safe → ns.Shallow → Token.scan (Text.trim s) = .ok tokens → ¬Derivable tokens →
      Resolved ns tokens → Bounded tokens →
      ∃ problem column, evalText ns s = .error (.failure (.expression none problem (some column))) ∧
        ((∃ before token after, tokens = before ++ token :: after ∧ Viable before ∧
          ¬Viable (before ++ [token]) ∧
            column = token.column) ∨
          Viable tokens ∧ column = (Text.trim s).length + 1)) ∧
    ∀ ns f, Token.scan (Text.trim s) = .error f →
      ∃ front tokens c rest, Text.trim s = front ++ c :: rest ∧
        Token.Cuts (c :: rest) 1 front tokens ∧ Token.Stuck (c :: rest) ∧
        evalText ns s = .error
          (.failure (.expression none (.character c) (some (front.length + 1)))) := by
  refine ⟨fun ns tokens hs hd ht hnot hr hbounded => ?_, fun ns f hf => ?_⟩
  · by_cases hne : tokens = []
    · subst hne
      exact ⟨_, _, evalText_of_failure (evalTrimmed_of_scan_nil ns ht),
        .inr ⟨.of_sum (d := .product (.factor anyOperand)) List.nil_prefix, rfl⟩⟩
    rw [evalText_eq hs, evalTrimmed_of_scan ns ht hne]
    obtain ⟨front, back, f, rfl, hviable, heval, hhalts⟩ := halts_ofTokens hs hd hr hnot
    cases hhalts with
    | tooDeep base outer hrun =>
      -- The reading would stand on the level that is the limit, and no sentence within the limit
      -- gets there.
      obtain ⟨d, hfront, hdepth⟩ := hbounded front (List.prefix_append front back) hviable
      exact absurd (d.level_lt_depth hfront hrun) (Nat.not_lt.2 hdepth)
    | refused problem hrefused =>
      refine ⟨problem, _, heval, ?_⟩
      cases back with
      | nil => exact .inr ⟨(List.append_nil front).symm ▸ hviable, rfl⟩
      | cons token after =>
        exact .inl ⟨front, token, after, rfl, hviable, not_viable_of_run? (hrefused token rfl), rfl⟩
  · rw [evalText_of_failure (evalTrimmed_of_scan_error ns hf)]
    rcases Token.scan_cases (Text.trim s) with
      ⟨tokens, hscan, -⟩ | ⟨front, tokens, c, rest, heq, hcuts, hstuck, hscan⟩
    · rw [hscan] at hf
      cases hf
    · rw [hscan] at hf
      cases hf
      exact ⟨front, tokens, c, rest, heq, hcuts, hstuck, rfl⟩

/-- The derivation of `(1 + [x]) * null`. -/
def begun : Sum :=
  .product (.join (.factor
    (.bracketed 1 (.join (.product (.factor (.atom (.number ⟨['1'], none, none⟩) 2))) .plus 4
    (.factor (.atom (.reference (.value ['x'])) 6))) 9)) .times 11 anyOperand)

/-- `(1 + [x]) * )` fails at its second `)`, and `1 ) $` where no token begins, after a `)` that
cannot stand there. -/
theorem evalText_column_bracket :
    (∃ problem, evalText (({} : Namespace).set ['x'] (.number (.int 2))) "(1 + [x]) * )".toList =
      .error (.failure (.expression none problem (some 13)))) ∧
    ∃ front c rest, "1 ) $".toList = front ++ c :: rest ∧ Token.Stuck (c :: rest) ∧
      evalText {} "1 ) $".toList =
        .error (.failure (.expression none (.character c) (some (front.length + 1)))) := by
  constructor
  · have hs := Namespace.safe_set Namespace.safe_empty ['x'] (.number (n := .int 2) (by decide))
    have hd := Namespace.shallow_set Namespace.shallow_empty ['x'] (Value.isTooDeep_number (.int 2))
    have hbegun : begun.tokens.dropLast <+: begun.tokens := List.dropLast_prefix _
    have hrefused : ¬Viable (begun.tokens.dropLast ++ [⟨.symbol .closing, 13⟩]) :=
      not_viable_of_run? rfl
    have ht : Token.scan (Text.trim "(1 + [x]) * )".toList) =
        .ok (begun.tokens.dropLast ++ [⟨.symbol .closing, 13⟩]) := by decide +kernel
    have hnot : ¬Derivable (begun.tokens.dropLast ++ [⟨.symbol .closing, 13⟩]) :=
      fun h => hrefused h.viable
    have hbounded : Bounded (begun.tokens.dropLast ++ [⟨.symbol .closing, 13⟩]) := by
      intro front hp hfront
      have hle := hfront.isPrefix hp (List.prefix_refl _) hrefused
      exact ⟨begun, hle.trans hbegun, by decide⟩
    obtain ⟨problem, column, heval, ⟨before, token, after, heq, -, hnext, hcolumn⟩ |
        ⟨hviable, -⟩⟩ :=
      (evalText_column "(1 + [x]) * )".toList).1 _ _ hs hd ht hnot
        (List.forall_mem_singleton.2 ⟨_, rfl⟩) hbounded
    · have hp : before ++ [token] <+: begun.tokens.dropLast ++ [⟨.symbol .closing, 13⟩] :=
        ⟨after, by simp [heq]⟩
      rcases List.prefix_concat_iff.1 hp with hlast | hle
      · cases (List.append_inj' hlast rfl).2
        subst hcolumn
        exact ⟨problem, heval⟩
      · exact absurd (.of_sum (hle.trans hbegun)) hnext
    · exact absurd hviable hrefused
  · have hf : Token.scan (Text.trim "1 ) $".toList) =
        .error (.expression none (.character '$') (some 5)) := by
      decide +kernel
    obtain ⟨front, -, c, rest, heq, -, hstuck, heval⟩ := (evalText_column "1 ) $".toList).2 {} _ hf
    exact ⟨front, c, rest, heq, hstuck, heval⟩

end Expression

end LineScript
