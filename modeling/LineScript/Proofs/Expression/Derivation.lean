import LineScript.Proofs.Expression.Grammar
import LineScript.Proofs.Expression.Stop

/-!
# Reading derivations

The reader of expressions finds exactly the derivations of the grammar. Given the tokens of a
derivation it returns its tree (`ofTokens_tokens`): a factor is read whatever follows it, a product
up to what is no `*`, `/` or `%`, a sum up to what joins nothing. Conversely, tokens from which it
makes a tree without a stop are those of a derivation with that tree (`exists_of_ofTokens`).
-/

namespace LineScript

namespace Grammar

/-- The tree of an operand that is one token. -/
def Atom.tree : Atom → Expression
  | .number n => .number n
  | .quoted _ content => .text content
  | .word w => .word w
  | .reference r => .reference r

mutual

/-- The tree of a sum. -/
def Sum.tree : Sum → Expression
  | .product p => p.tree
  | .join left sign _ right => .binary sign.operator left.tree right.tree

def Product.tree : Product → Expression
  | .factor f => f.tree
  | .join left scale _ right => .binary scale.operator left.tree right.tree

def Factor.tree : Factor → Expression
  | .atom a _ => a.tree
  | .signed sign _ operand => .signed sign operand.tree
  | .bracketed _ inside _ => inside.tree

end

theorem Atom.stops_tree (a : Atom) : a.tree.stops = [] := by cases a <;> rfl

mutual

theorem Sum.stops_tree (d : Sum) : d.tree.stops = [] := by
  cases d with
  | product p => exact p.stops_tree
  | join left sign column right =>
    show left.tree.stops ++ right.tree.stops = []
    rw [left.stops_tree, right.stops_tree, List.append_nil]

theorem Product.stops_tree (p : Product) : p.tree.stops = [] := by
  cases p with
  | factor f => exact f.stops_tree
  | join left scale column right =>
    show left.tree.stops ++ right.tree.stops = []
    rw [left.stops_tree, right.stops_tree, List.append_nil]

theorem Factor.stops_tree (f : Factor) : f.tree.stops = [] := by
  cases f with
  | atom a column => exact a.stops_tree
  | signed sign column operand => exact operand.stops_tree
  | bracketed opening inside closing => exact inside.stops_tree

end

theorem references_append (ts us : List Token) :
    references (ts ++ us) = references ts ++ references us :=
  List.filterMap_append

theorem references_symbol (s : Symbol) (column : Nat) (ts : List Token) :
    references (⟨.symbol s, column⟩ :: ts) = references ts := rfl

mutual

/-- The references of the tree are those among the tokens. -/
theorem Sum.references_tree (d : Sum) : d.tree.references = references d.tokens := by
  cases d with
  | product p => exact p.references_tree
  | join left sign column right =>
    show left.tree.references ++ right.tree.references =
      references (left.tokens ++ _ :: right.tokens)
    rw [references_append, references_symbol, left.references_tree, right.references_tree]

theorem Product.references_tree (p : Product) : p.tree.references = references p.tokens := by
  cases p with
  | factor f => exact f.references_tree
  | join left scale column right =>
    show left.tree.references ++ right.tree.references =
      references (left.tokens ++ _ :: right.tokens)
    rw [references_append, references_symbol, left.references_tree, right.references_tree]

theorem Factor.references_tree (f : Factor) : f.tree.references = references f.tokens := by
  cases f with
  | atom a column => cases a <;> rfl
  | signed sign column operand => exact operand.references_tree
  | bracketed opening inside closing =>
    show inside.tree.references = references (_ :: (inside.tokens ++ [_]))
    rw [references_symbol, references_append, references_symbol, inside.references_tree]
    exact (List.append_nil _).symm

end

mutual

theorem Sum.tokens_ne_nil (d : Sum) : d.tokens ≠ [] := by
  cases d with
  | product p => exact p.tokens_ne_nil
  | join left sign column right => exact List.append_ne_nil_of_right_ne_nil _ (List.cons_ne_nil _ _)

theorem Product.tokens_ne_nil (p : Product) : p.tokens ≠ [] := by
  cases p with
  | factor f => exact f.tokens_ne_nil
  | join left scale column right =>
    exact List.append_ne_nil_of_right_ne_nil _ (List.cons_ne_nil _ _)

theorem Factor.tokens_ne_nil (f : Factor) : f.tokens ≠ [] := by
  cases f <;> exact List.cons_ne_nil _ _

end

end Grammar

namespace Expression

open Grammar

/-! ## Reading the tokens of a derivation -/

/-- What was read, without the bound. -/
def Reading.plain {bound : Nat} (r : Reading bound) : Expression × List Token := (r.1, r.2.1)

/-- The rest of a chain, without a bound: any bound will do. -/
def chainRest (operators : Symbol → Option Operator) (operand : Reader) (left : Expression)
    (tokens : List Token) :
    Expression × List Token :=
  (chainFrom operators operand left tokens (Nat.le_add_left _ 1)).plain

variable {operators : Symbol → Option Operator} {operand : Reader}

theorem plain_chainFrom_eq {m n : Nat} (left : Expression) (tokens : List Token)
    (hm : tokens.length ≤ m) (hn : tokens.length ≤ n) :
    (chainFrom operators operand left tokens hm).plain =
      (chainFrom operators operand left tokens hn).plain := by
  -- The bound is part of the type of a reading, so an induction on the function would fix it.
  obtain ⟨k, hk⟩ : ∃ k, tokens.length = k := ⟨_, rfl⟩
  induction k using Nat.strongRecOn generalizing left tokens with
  | ind k ih =>
    rw [chainFrom, chainFrom]
    split
    · rfl
    · next op rest ho =>
      have hlt : (operand rest).2.1.length < k :=
        hk ▸ Nat.lt_of_le_of_lt (operand rest).2.2 (length_lt_of_operator? ho)
      exact ih _ hlt _ _ _ _ rfl

theorem plain_chainFrom {bound : Nat} (left : Expression) (tokens : List Token)
    (h : tokens.length ≤ bound) :
    (chainFrom operators operand left tokens h).plain = chainRest operators operand left tokens :=
  plain_chainFrom_eq left tokens h _

theorem chainRest_none {left : Expression} {tokens : List Token}
    (h : operator? operators tokens = none) :
    chainRest operators operand left tokens = (left, tokens) := by
  unfold chainRest
  rw [chainFrom]
  split
  · rfl
  · next ho =>
    rw [h] at ho
    cases ho

theorem chainRest_some {left right : Expression} {tokens rest after : List Token} {op : Operator}
    (h : operator? operators tokens = some (op, rest))
    (hr : (operand rest).plain = (right, after)) :
    chainRest operators operand left tokens =
      chainRest operators operand (.binary op left right) after := by
  unfold chainRest
  rw [chainFrom]
  split
  · next ho =>
    rw [h] at ho
    cases ho
  · next op' rest' ho =>
    rw [h] at ho
    cases ho
    cases hr
    exact plain_chainFrom _ _ _

theorem plain_chain {tokens rest : List Token} {first : Expression}
    (h : (operand tokens).plain = (first, rest)) :
    (chain operators operand tokens).plain = chainRest operators operand first rest := by
  cases h
  exact plain_chainFrom _ _ _

theorem sumOperator?_sign (sign : Sign) :
    sumOperator? sign.symbol = some sign.operator := by cases sign <;> rfl

theorem productOperator?_sign (sign : Sign) :
    productOperator? sign.symbol = none := by cases sign <;> rfl

theorem productOperator?_scale (scale : Scale) :
    productOperator? scale.symbol = some scale.operator := by
  cases scale <;> rfl

theorem operator?_symbol (operators : Symbol → Option Operator) (s : Symbol) (column : Nat)
    (rest : List Token) :
    operator? operators (⟨.symbol s, column⟩ :: rest) = (operators s).map (·, rest) := rfl

variable {endColumn : Nat}

theorem factor_atom (a : Atom) (column depth : Nat) (rest : List Token) :
    (factor endColumn (depth + 1) (⟨a.lexeme, column⟩ :: rest)).plain = (a.tree, rest) := by
  cases a <;> rfl

theorem factor_signed (sign : Sign) (column : Nat) {depth : Nat} {tokens rest : List Token}
    {e : Expression} (h : (factor endColumn depth tokens).plain = (e, rest)) :
    (factor endColumn (depth + 1) (⟨.symbol sign.symbol, column⟩ :: tokens)).plain =
      (.signed sign e, rest) := by
  cases h
  cases sign <;> rfl

theorem factor_bracketed (opening closing : Nat) {depth : Nat} {tokens rest : List Token}
    {e : Expression}
    (h : (sum (factor endColumn depth) tokens).plain = (e, ⟨.symbol .closing, closing⟩ :: rest)) :
    (factor endColumn (depth + 1) (⟨.symbol .opening, opening⟩ :: tokens)).plain = (e, rest) := by
  rw [factor]
  show (closeBracket endColumn (sum (factor endColumn depth) tokens)).plain = (e, rest)
  generalize sum (factor endColumn depth) tokens = inside at h ⊢
  obtain ⟨e', after, hb⟩ := inside
  cases h
  rfl

mutual

/-- A factor is read whatever follows it. -/
theorem factor_tokens (f : Factor) {depth : Nat} (h : f.depth ≤ depth) (rest : List Token) :
    (factor endColumn depth (f.tokens ++ rest)).plain = (f.tree, rest) := by
  cases depth with
  | zero => cases f <;> simp [Factor.depth] at h
  | succ depth =>
    cases f with
    | atom a column => exact factor_atom a column depth rest
    | signed sign column operand =>
      exact factor_signed sign column (factor_tokens operand (Nat.le_of_succ_le_succ h) rest)
    | bracketed opening inside closing =>
      refine factor_bracketed opening closing ?_
      show (sum _ ((inside.tokens ++ [_]) ++ rest)).plain = _
      rw [List.append_assoc, sum_tokens inside (Nat.le_of_succ_le_succ h) rfl]
      exact chainRest_none rfl

/-- A product is read up to what does not continue it. -/
theorem product_tokens (p : Product) {depth : Nat} (h : p.depth ≤ depth) (rest : List Token) :
    (chain productOperator? (factor endColumn depth) (p.tokens ++ rest)).plain =
      chainRest productOperator? (factor endColumn depth) p.tree rest := by
  cases p with
  | factor f => exact plain_chain (factor_tokens f h rest)
  | join left scale column right =>
    have hl : left.depth ≤ depth := Nat.le_trans (Nat.le_max_left _ _) h
    have hr : right.depth ≤ depth := Nat.le_trans (Nat.le_max_right _ _) h
    show (chain _ _ ((left.tokens ++ _ :: right.tokens) ++ rest)).plain = _
    rw [List.append_assoc, List.cons_append, product_tokens left hl]
    refine chainRest_some ?_ (factor_tokens right hr rest)
    rw [operator?_symbol, productOperator?_scale]
    rfl

/-- A sum is read up to what does not continue it, if that does not continue its last product. -/
theorem sum_tokens (d : Sum) {depth : Nat} (h : d.depth ≤ depth) {rest : List Token}
    (hrest : operator? productOperator? rest = none) :
    (sum (factor endColumn depth) (d.tokens ++ rest)).plain =
      chainRest sumOperator? (chain productOperator? (factor endColumn depth)) d.tree rest := by
  cases d with
  | product p => exact plain_chain ((product_tokens p h rest).trans (chainRest_none hrest))
  | join left sign column right =>
    have hl : left.depth ≤ depth := Nat.le_trans (Nat.le_max_left _ _) h
    have hr : right.depth ≤ depth := Nat.le_trans (Nat.le_max_right _ _) h
    show (sum _ ((left.tokens ++ _ :: right.tokens) ++ rest)).plain = _
    rw [List.append_assoc, List.cons_append, sum_tokens left hl]
    · refine chainRest_some ?_ ((product_tokens right hr rest).trans (chainRest_none hrest))
      rw [operator?_symbol, sumOperator?_sign]
      rfl
    · rw [operator?_symbol, productOperator?_sign]
      rfl

end

/-- The tokens of a derivation that is not too deep are read as its tree. -/
theorem ofTokens_tokens [Host] (d : Sum) (h : d.depth ≤ Host.brackets) :
    ofTokens endColumn d.tokens = d.tree := by
  have hread : (sum (factor endColumn Host.brackets) (d.tokens ++ [])).plain = _ :=
    sum_tokens d h rfl
  rw [chainRest_none rfl, List.append_nil] at hread
  unfold ofTokens
  generalize sum (factor endColumn Host.brackets) d.tokens = r at hread ⊢
  obtain ⟨e, rest, hb⟩ := r
  cases hread
  rfl

/-! ## Finding a derivation -/

/-- The tokens of the derivations of a kind, with their trees. -/
abbrev Language := List Token → Expression → Prop

/-- Unless it leaves a stop in the tree, the reader has read the tokens of a derivation. -/
def Reader.Finds (L : Language) (read : Reader) : Prop :=
  ∀ tokens, (read tokens).1.stops ≠ [] ∨ ∃ ts, L ts (read tokens).1 ∧
    tokens = ts ++ (read tokens).2.1

/-- A derivation with one more operand at its end is a derivation. -/
def Joins (operators : Symbol → Option Operator) (operand whole : Language) : Prop :=
  ∀ ts e symbol column us f op, whole ts e → operators symbol = some op → operand us f →
    whole (ts ++ ⟨.symbol symbol, column⟩ :: us) (.binary op e f)

theorem eq_cons_of_operator? {tokens rest : List Token} {op : Operator}
    (h : operator? operators tokens = some (op, rest)) :
    ∃ symbol column, operators symbol = some op ∧ tokens = ⟨.symbol symbol, column⟩ :: rest := by
  unfold operator? at h
  split at h
  · next symbol column tail =>
    obtain ⟨op', hop, heq⟩ := Option.map_eq_some_iff.1 h
    cases heq
    exact ⟨symbol, column, hop, rfl⟩
  · cases h

theorem stops_chainFrom_ne_nil {bound : Nat} {left : Expression} {tokens : List Token}
    (h : tokens.length ≤ bound) (hl : left.stops ≠ []) :
    (chainFrom operators operand left tokens h).1.stops ≠ [] := by
  fun_induction chainFrom operators operand left tokens h with
  | case1 => exact hl
  | case2 left tokens h op rest ho right hr ih => exact ih (List.append_ne_nil_of_left_ne_nil hl _)

theorem finds_chainFrom {A B : Language} (hjoin : Joins operators A B) (hA : operand.Finds A)
    {bound : Nat} {left : Expression} {tokens : List Token} (h : tokens.length ≤ bound)
    {ts : List Token} (hl : B ts left) :
    (chainFrom operators operand left tokens h).1.stops ≠ [] ∨
      ∃ us, B us (chainFrom operators operand left tokens h).1 ∧
        ts ++ tokens = us ++ (chainFrom operators operand left tokens h).2.1 := by
  fun_induction chainFrom operators operand left tokens h generalizing ts with
  | case1 left tokens h ho => exact .inr ⟨ts, hl, rfl⟩
  | case2 left tokens h op rest ho right hr =>
    rename_i ih
    obtain ⟨symbol, column, hop, rfl⟩ := eq_cons_of_operator? ho
    rcases hA rest with hstop | ⟨us, hus, heq⟩
    · exact .inl (stops_chainFrom_ne_nil _ (List.append_ne_nil_of_right_ne_nil _ hstop))
    · have hB := hjoin ts left symbol column us _ op hl hop hus
      rcases ih hB with hstop | ⟨vs, hvs, heq'⟩
      · exact .inl hstop
      · refine .inr ⟨vs, hvs, ?_⟩
        calc ts ++ ⟨.symbol symbol, column⟩ :: rest
            = ts ++ ⟨.symbol symbol, column⟩ :: (us ++ (operand rest).2.1) := by rw [← heq]
          _ = (ts ++ ⟨.symbol symbol, column⟩ :: us) ++ (operand rest).2.1 := by simp
          _ = vs ++ _ := heq'

theorem finds_chain {A B : Language} (hsingle : ∀ ts e, A ts e → B ts e)
    (hjoin : Joins operators A B) (hA : operand.Finds A) : (chain operators operand).Finds B := by
  intro tokens
  rcases hA tokens with hstop | ⟨ts, hts, heq⟩
  · exact .inl (stops_chainFrom_ne_nil _ hstop)
  · rcases finds_chainFrom hjoin hA (operand tokens).2.2 (hsingle _ _ hts) with
      hstop | ⟨us, hus, heq'⟩
    · exact .inl hstop
    · exact .inr ⟨us, hus, heq.trans heq'⟩

/-- The tokens and trees of factors, of products and of sums. -/
def factorLanguage : Language := fun ts e => ∃ f : Factor, f.tokens = ts ∧ f.tree = e
def productLanguage : Language := fun ts e => ∃ p : Product, p.tokens = ts ∧ p.tree = e
def sumLanguage : Language := fun ts e => ∃ d : Sum, d.tokens = ts ∧ d.tree = e

theorem joins_product : Joins productOperator? factorLanguage productLanguage := by
  rintro _ _ symbol column _ _ op ⟨p, rfl, rfl⟩ hop ⟨f, rfl, rfl⟩
  obtain ⟨scale, rfl, rfl⟩ : ∃ scale : Scale, scale.symbol = symbol ∧ scale.operator = op := by
    cases symbol <;> cases hop
    · exact ⟨.times, rfl, rfl⟩
    · exact ⟨.over, rfl, rfl⟩
    · exact ⟨.modulo, rfl, rfl⟩
  exact ⟨.join p scale column f, rfl, rfl⟩

theorem joins_sum : Joins sumOperator? productLanguage sumLanguage := by
  rintro _ _ symbol column _ _ op ⟨d, rfl, rfl⟩ hop ⟨p, rfl, rfl⟩
  obtain ⟨sign, rfl, rfl⟩ : ∃ sign : Sign, sign.symbol = symbol ∧ sign.operator = op := by
    cases symbol <;> cases hop
    · exact ⟨.plus, rfl, rfl⟩
    · exact ⟨.minus, rfl, rfl⟩
  exact ⟨.join d sign column p, rfl, rfl⟩

theorem productLanguage_of_factor (ts : List Token) (e : Expression) (h : factorLanguage ts e) :
    productLanguage ts e := by
  obtain ⟨f, rfl, rfl⟩ := h
  exact ⟨.factor f, rfl, rfl⟩

theorem sumLanguage_of_product (ts : List Token) (e : Expression) (h : productLanguage ts e) :
    sumLanguage ts e := by
  obtain ⟨p, rfl, rfl⟩ := h
  exact ⟨.product p, rfl, rfl⟩

theorem finds_sum {read : Reader} (h : read.Finds factorLanguage) : (sum read).Finds sumLanguage :=
  finds_chain sumLanguage_of_product joins_sum
    (finds_chain productLanguage_of_factor joins_product h)

theorem eq_cons_of_closing? {tokens rest : List Token} (h : closing? tokens = some rest) :
    ∃ column, tokens = ⟨.symbol .closing, column⟩ :: rest := by
  unfold closing? at h
  split at h
  · next column tail =>
    cases h
    exact ⟨column, rfl⟩
  · cases h

/-- A sum that was found between brackets makes a factor. -/
theorem finds_closeBracket {tokens : List Token} (opening : Nat) {inside : Reading tokens.length}
    (h : inside.1.stops ≠ [] ∨ ∃ ts, sumLanguage ts inside.1 ∧ tokens = ts ++ inside.2.1) :
    (closeBracket endColumn inside).1.stops ≠ [] ∨
      ∃ ts, factorLanguage ts (closeBracket endColumn inside).1 ∧
        ⟨.symbol .opening, opening⟩ :: tokens = ts ++ (closeBracket endColumn inside).2.1 := by
  unfold closeBracket
  split
  · next rest hc =>
    rcases h with hstop | ⟨_, ⟨d, rfl, hd⟩, heq⟩
    · exact .inl hstop
    · obtain ⟨closing, hclosing⟩ := eq_cons_of_closing? hc
      rw [hclosing] at heq
      refine .inr ⟨_, ⟨.bracketed opening d closing, rfl, hd⟩, ?_⟩
      refine (congrArg (List.cons _) heq).trans ?_
      simp [Factor.tokens]
  · exact .inl (List.append_ne_nil_of_right_ne_nil _ (List.cons_ne_nil _ _))

theorem finds_factor (depth : Nat) : (factor endColumn depth).Finds factorLanguage := by
  induction depth with
  | zero =>
    intro tokens
    exact .inl (List.cons_ne_nil _ _)
  | succ depth ih =>
    intro tokens
    cases tokens with
    | nil => exact .inl (List.cons_ne_nil _ _)
    | cons token rest =>
      obtain ⟨lexeme, column⟩ := token
      have hatom (a : Atom) : ∃ ts, factorLanguage ts a.tree ∧
          (⟨a.lexeme, column⟩ :: rest : List Token) = ts ++ rest :=
        ⟨_, ⟨.atom a column, rfl, rfl⟩, rfl⟩
      have hsigned (sign : Sign) : (factor endColumn depth rest).1.stops ≠ [] ∨
          ∃ ts, factorLanguage ts (.signed sign (factor endColumn depth rest).1) ∧
            (⟨.symbol sign.symbol, column⟩ :: rest : List Token) =
              ts ++ (factor endColumn depth rest).2.1 := by
        refine (ih rest).imp id ?_
        rintro ⟨_, ⟨f, rfl, hf⟩, heq⟩
        exact ⟨_, ⟨.signed sign column f, rfl, congrArg _ hf⟩, congrArg _ heq⟩
      cases lexeme with
      | number n => exact .inr (hatom (.number n))
      | quoted mark content => exact .inr (hatom (.quoted mark content))
      | reference r => exact .inr (hatom (.reference r))
      | word w => exact .inr (hatom (.word w))
      | symbol s =>
        cases s with
        | plus => exact hsigned .plus
        | minus => exact hsigned .minus
        | opening => exact finds_closeBracket column (finds_sum ih rest)
        | _ => exact .inl (List.cons_ne_nil _ _)

/-- Tokens that are read as a tree without a stop have a derivation with that tree. -/
theorem exists_of_ofTokens [Host] {tokens : List Token}
    (h : (ofTokens endColumn tokens).stops = []) :
    ∃ d : Sum, d.tokens = tokens ∧ d.tree = ofTokens endColumn tokens := by
  have hfactor : (factor endColumn Host.brackets).Finds factorLanguage := finds_factor Host.brackets
  have hfinds := finds_sum hfactor tokens
  unfold ofTokens at h ⊢
  generalize sum (factor endColumn Host.brackets) tokens = r at hfinds h ⊢
  obtain ⟨e, rest, hb⟩ := r
  cases rest with
  | nil =>
    rcases hfinds with hstop | ⟨_, ⟨d, rfl, hd⟩, heq⟩
    · exact absurd h hstop
    · exact ⟨d, (heq.trans (List.append_nil _)).symm, hd⟩
  | cons token rest => exact absurd h (List.append_ne_nil_of_right_ne_nil _ (List.cons_ne_nil _ _))

end Expression

end LineScript
