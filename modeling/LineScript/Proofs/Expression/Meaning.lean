import LineScript.Proofs.Expression.Derivation

/-!
# The meaning of expressions

Over values that are safe and not nested too deep, an expression that is derivable means what its
derivation does: it has a value if and only if all its references have one, and otherwise it fails
as the first of them does that has none. Texts that are not derivable fail.
`Expression.evalText_iff_denote` puts this together for whole texts.
-/

namespace LineScript

namespace Value

theorem deeperThan_of_succ {limit : Nat} {v : Value} (h : v.deeperThan (limit + 1) = true) :
    v.deeperThan limit = true := by
  induction limit generalizing v with
  | zero =>
    cases v with
    | list identity items => rfl
    | null | flag _ | number _ | text _ => cases h
  | succ limit ih =>
    cases v with
    | list identity items =>
      rw [deeperThan, List.any_eq_true] at h ⊢
      obtain ⟨item, hitem, hdeep⟩ := h
      exact ⟨item, hitem, ih hdeep⟩
    | null | flag _ | number _ | text _ => cases h

theorem isTooDeep_of_mem [Host] {identity : Nat} {items : List Value} {v : Value} (hv : v ∈ items)
    (h : v.isTooDeep = true) :
    (list identity items).isTooDeep = true := by
  rw [isTooDeep] at h ⊢
  cases hlists : Host.lists with
  | zero => rfl
  | succ depth =>
    rw [hlists] at h
    exact List.any_eq_true.2 ⟨v, hv, deeperThan_of_succ h⟩

end Value

namespace Namespace

/-- No list in the namespace is nested too deep to be rendered. -/
def Shallow [Host] (ns : Namespace) : Prop := ∀ name v, ns.get? name = some v → v.isTooDeep = false

theorem shallow_empty [Host] : Shallow {} := forall_get?_empty

theorem shallow_set [Host] {ns : Namespace} (h : ns.Shallow) (name : Text) {v : Value}
    (hv : v.isTooDeep = false) :
    (ns.set name v).Shallow := forall_get?_set h name hv

end Namespace

namespace Reference

/-- The failure of a reference that has no value. -/
def failure? (ns : Namespace) (r : Reference) : Option Failure :=
  match r.read ns with
  | .ok _ => none
  | .error f => some f

theorem failure?_eq_none {ns : Namespace} {r : Reference} :
    r.failure? ns = none ↔ ∃ v, r.read ns = .ok v := by
  unfold failure?
  cases r.read ns with
  | ok v => simp
  | error f => simp

theorem failure?_eq_some {ns : Namespace} {r : Reference} {f : Failure} :
    r.failure? ns = some f ↔ r.read ns = .error f := by
  unfold failure?
  cases r.read ns with
  | ok v => simp
  | error g => simp

theorem isTooDeep_of_read [Host] {ns : Namespace} (hd : ns.Shallow) {r : Reference} {v : Value}
    (h : r.read ns = .ok v) :
    v.isTooDeep = false := by
  obtain ⟨name, hv | ⟨identity, items, hl, hv⟩⟩ := get?_of_read h
  · exact hd name v hv
  · rw [← Bool.not_eq_true]
    intro hdeep
    have hlist : (Value.list identity items).isTooDeep = false := hd name _ hl
    rw [Value.isTooDeep_of_mem hv hdeep] at hlist
    cases hlist

theorem fit_of_read [Host] {ns : Namespace} (hs : ns.Safe) (hd : ns.Shallow) {r : Reference}
    {v : Value} (h : r.read ns = .ok v) : v.Fit := ⟨safe_of_read hs h, isTooDeep_of_read hd h⟩

end Reference

namespace Expression

/-- How the evaluation ends: in the failure given, or with a fit value. -/
def Ends [Host] (ns : Namespace) (e : Expression) : Option Failure → Prop
  | some f => e.eval ns = .error (.failure f)
  | none => ∃ v, e.eval ns = .ok v ∧ v.Fit

/-- A tree without a stop fails as its first reference without a value does, and has a fit value if
there is none. -/
theorem ends_eval [Host] {ns : Namespace} (hs : ns.Safe) (hd : ns.Shallow) {e : Expression}
    (h : e.stops = []) :
    e.Ends ns (e.references.findSome? (Reference.failure? ns)) := by
  induction e with
  | number n => exact ⟨_, rfl, .number (Number.safe_numeral none n)⟩
  | text s => exact ⟨_, rfl, .text s⟩
  | word w =>
    refine ⟨w.value, rfl, safe_of_eval hs (e := .word w) rfl, ?_⟩
    cases w <;> exact Value.deeperThan_of_not_isList rfl _
  | reference r =>
    rw [references, List.findSome?_cons]
    cases hr : r.failure? ns with
    | some f => exact eval_reference_of_error (Reference.failure?_eq_some.1 hr)
    | none =>
      obtain ⟨v, hv⟩ := Reference.failure?_eq_none.1 hr
      exact ⟨v, eval_reference hv, Reference.fit_of_read hs hd hv⟩
  | signed sign operand ih =>
    rw [references]
    have ih := ih h
    cases hf : operand.references.findSome? (Reference.failure? ns) with
    | some f =>
      rw [hf] at ih
      exact eval_signed_of_error ih sign
    | none =>
      rw [hf] at ih
      obtain ⟨v, hv, hfit⟩ := ih
      refine ⟨.number (applySign sign v.toNumber), ?_, ?_⟩
      · rw [eval_signed hv, hfit.number?]
        rfl
      · cases sign with
        | plus => exact .number (Value.safe_toNumber hfit.1)
        | minus => exact .number (Number.safe_neg (Value.safe_toNumber hfit.1))
  | binary op left right ihl ihr =>
    obtain ⟨hl, hr⟩ := List.append_eq_nil_iff.1 h
    have ihl := ihl hl
    have ihr := ihr hr
    rw [references, List.findSome?_append]
    cases hfl : left.references.findSome? (Reference.failure? ns) with
    | some f =>
      rw [hfl] at ihl
      exact eval_binary_of_left ihl op right
    | none =>
      rw [hfl] at ihl
      obtain ⟨v, hv, hvfit⟩ := ihl
      cases hfr : right.references.findSome? (Reference.failure? ns) with
      | some f =>
        rw [hfr] at ihr
        exact eval_binary_of_right hv ihr op
      | none =>
        rw [hfr] at ihr
        obtain ⟨w, hw, hwfit⟩ := ihr
        obtain ⟨x, hx, hxfit⟩ := op.exists_apply hvfit hwfit
        refine ⟨x, ?_, hxfit⟩
        rw [eval_binary hv hw, hx]
        rfl
  | stop f => cases h
  | stopAfter e f _ => exact absurd h (List.append_ne_nil_of_right_ne_nil _ (List.cons_ne_nil _ _))

end Expression

namespace Grammar

open Expression

variable {ns : Namespace} {value : Reference → Value}

/-- The references have the values given. -/
def Gives (ns : Namespace) (value : Reference → Value) (rs : List Reference) : Prop :=
  ∀ r ∈ rs, r.read ns = .ok (value r)

mutual

/-- The tree of a sum is evaluated to what the sum means. -/
theorem Sum.eval_tree [Host] (d : Sum) (h : Gives ns value d.tree.references) :
    d.tree.eval ns = Fault.lift (d.denote value) := by
  cases d with
  | product p => exact p.eval_tree h
  | join left sign column right =>
    obtain ⟨hl, hr⟩ := List.forall_mem_append.1 h
    show (binary _ _ _).eval ns = _
    rw [eval, left.eval_tree hl, right.eval_tree hr, Sum.denote]
    cases left.denote value with
    | error f => rfl
    | ok v => cases right.denote value <;> rfl

theorem Product.eval_tree [Host] (p : Product) (h : Gives ns value p.tree.references) :
    p.tree.eval ns = Fault.lift (p.denote value) := by
  cases p with
  | factor f => exact f.eval_tree h
  | join left scale column right =>
    obtain ⟨hl, hr⟩ := List.forall_mem_append.1 h
    show (binary _ _ _).eval ns = _
    rw [eval, left.eval_tree hl, right.eval_tree hr, Product.denote]
    cases left.denote value with
    | error f => rfl
    | ok v => cases right.denote value <;> rfl

theorem Factor.eval_tree [Host] (f : Factor) (h : Gives ns value f.tree.references) :
    f.tree.eval ns = Fault.lift (f.denote value) := by
  cases f with
  | atom a column =>
    cases a with
    | reference r => exact eval_reference (h r List.mem_cons_self)
    | number | quoted | word => rfl
  | signed sign column operand =>
    show (Expression.signed _ _).eval ns = _
    rw [eval, operand.eval_tree h]
    cases sign <;>
    · rw [Factor.denote]
      cases operand.denote value with
      | error f => rfl
      | ok v =>
        show Fault.lift v.number? >>= _ = Fault.lift (v.number? >>= _)
        cases v.number? <;> rfl
  | bracketed opening inside closing => exact inside.eval_tree h

end

mutual

theorem Sum.depth_le_length (d : Sum) : d.depth ≤ d.tokens.length := by
  cases d with
  | product p => exact p.depth_le_length
  | join left sign column right =>
    have hl := left.depth_le_length
    have hr := right.depth_le_length
    rw [Sum.depth, Sum.tokens, List.length_append, List.length_cons]
    omega

theorem Product.depth_le_length (p : Product) : p.depth ≤ p.tokens.length := by
  cases p with
  | factor f => exact f.depth_le_length
  | join left scale column right =>
    have hl := left.depth_le_length
    have hr := right.depth_le_length
    rw [Product.depth, Product.tokens, List.length_append, List.length_cons]
    omega

theorem Factor.depth_le_length (f : Factor) : f.depth ≤ f.tokens.length := by
  cases f with
  | atom a column => exact Nat.le_refl 1
  | signed sign column operand => exact Nat.succ_le_succ operand.depth_le_length
  | bracketed opening inside closing =>
    have hi := inside.depth_le_length
    rw [Factor.depth, Factor.tokens, List.length_cons, List.length_append]
    omega

end

end Grammar

namespace Expression

open Grammar

variable {ns : Namespace} {s : Text} {tokens : List Token}

/-- The value of a reference, if it has one. -/
def valueIn (ns : Namespace) (r : Reference) : Value :=
  match r.read ns with
  | .ok v => v
  | .error _ => .null

theorem read_valueIn {r : Reference} (h : ∃ v, r.read ns = .ok v) :
    r.read ns = .ok (valueIn ns r) := by
  obtain ⟨v, hv⟩ := h
  rw [valueIn, hv]

theorem eq_ok_of_toOption {ε α : Type} {x : Except ε α} {a : α} (h : x.toOption = some a) :
    x = .ok a := by
  cases x with
  | error e => cases h
  | ok b => exact congrArg Except.ok (Option.some.inj h)

theorem eq_ok_of_lift {x : Except Fault Value} {v : Value} (h : Fault.lift x = .ok v) :
    x = .ok v := by
  cases x with
  | error f => cases h
  | ok w => exact congrArg Except.ok (Except.ok.inj h)

theorem evalTrimmed_tokens [Host] (ns : Namespace) (d : Sum) (hdepth : d.depth ≤ Host.brackets)
    (ht : Token.scan s = .ok d.tokens) : evalTrimmed ns s = d.tree.eval ns := by
  rw [evalTrimmed_of_scan ns ht d.tokens_ne_nil, ofTokens_tokens d hdepth]

theorem evalText_tokens [Host] (hs : ns.Safe) (d : Sum) (hdepth : d.depth ≤ Host.brackets)
    (ht : Token.scan (Text.trim s) = .ok d.tokens) : evalText ns s = d.tree.eval ns := by
  rw [evalText_eq hs, evalTrimmed_tokens ns d hdepth ht]

/-- A text that has a value is derivable, and the value is that of the tree of the derivation. -/
theorem exists_of_evalText [Host] (hs : ns.Safe) (ht : Token.scan (Text.trim s) = .ok tokens)
    {v : Value} (h : evalText ns s = .ok v) :
    ∃ d : Sum, d.tokens = tokens ∧ d.tree.eval ns = .ok v := by
  rw [evalText_eq hs] at h
  have hne : tokens ≠ [] := by
    rintro rfl
    rw [evalTrimmed_of_scan_nil ns ht] at h
    cases h
  rw [evalTrimmed_of_scan ns ht hne] at h
  have hstops : (ofTokens ((Text.trim s).length + 1) tokens).stops = [] := by
    refine Classical.byContradiction fun hstops => ?_
    obtain ⟨f, hf⟩ := exists_error_of_stops ns hstops
    rw [h] at hf
    cases hf
  obtain ⟨d, rfl, hd⟩ := exists_of_ofTokens hstops
  exact ⟨d, rfl, hd ▸ h⟩

/-- The tree of a derivation fails as the first reference among its tokens does that has no
value. -/
theorem ends_tree [Host] (hs : ns.Safe) (hd : ns.Shallow) (d : Sum) :
    d.tree.Ends ns ((Grammar.references d.tokens).findSome? (Reference.failure? ns)) := by
  rw [← d.references_tree]
  exact ends_eval hs hd d.stops_tree

theorem exists_eval_tree [Host] (hs : ns.Safe) (hd : ns.Shallow) (d : Sum)
    (h : ∀ r ∈ Grammar.references d.tokens, ∃ w, r.read ns = .ok w) :
    ∃ v, d.tree.eval ns = .ok v := by
  have hends := ends_tree hs hd d
  rw [List.findSome?_eq_none_iff.2 fun r hr => Reference.failure?_eq_none.2 (h r hr)] at hends
  obtain ⟨v, hv, -⟩ := hends
  exact ⟨v, hv⟩

theorem eval_tree_eq_error [Host] (hs : ns.Safe) (hd : ns.Shallow) (d : Sum)
    {before after : List Reference} {r : Reference} {f : Failure}
    (heq : Grammar.references d.tokens = before ++ r :: after)
    (hbefore : ∀ q ∈ before, ∃ w, q.read ns = .ok w) (hr : r.read ns = .error f) :
    d.tree.eval ns = .error (.failure f) := by
  have hends := ends_tree hs hd d
  have hfirst : (Grammar.references d.tokens).findSome? (Reference.failure? ns) = some f := by
    refine List.findSome?_eq_some_iff.2 ⟨before, r, after, heq, Reference.failure?_eq_some.2 hr, ?_⟩
    intro q hq
    exact Reference.failure?_eq_none.2 (hbefore q hq)
  rwa [hfirst] at hends

/-- A derivation whose tree has a value gives it as its meaning, from the values of its
references. -/
theorem denote_of_eval_tree [Host] (hs : ns.Safe) (hd : ns.Shallow) (d : Sum) {v : Value}
    (h : d.tree.eval ns = .ok v) :
    Gives ns (valueIn ns) (Grammar.references d.tokens) ∧ d.denote (valueIn ns) = .ok v := by
  have hends := ends_tree hs hd d
  cases hf : (Grammar.references d.tokens).findSome? (Reference.failure? ns) with
  | some f =>
    rw [hf] at hends
    rw [show d.tree.eval ns = .error (.failure f) from hends] at h
    cases h
  | none =>
    have hgives : Gives ns (valueIn ns) (Grammar.references d.tokens) := by
      intro r hr
      exact read_valueIn (Reference.failure?_eq_none.1 (List.findSome?_eq_none_iff.1 hf r hr))
    rw [d.eval_tree (d.references_tree ▸ hgives)] at h
    exact ⟨hgives, eq_ok_of_lift h⟩

/-- Expressions mean what the grammar says. A text has the value `v` if and only if its tokens are
derived, all its references have values, and `v` is the meaning of the derivation from them; there
is such a value as soon as the tokens are derived and the references have values. If a reference has
none, the failure is that of the first such reference. Tokens that are not derived make the text
fail. -/
theorem evalText_iff_denote [Host] (hs : ns.Safe) (hd : ns.Shallow)
    (ht : Token.scan (Text.trim s) = .ok tokens)
    (hdepth : ∀ d : Sum, d.tokens = tokens → d.depth ≤ Host.brackets) :
    (∀ v, evalText ns s = .ok v ↔ ∃ (d : Sum) (value : Reference → Value), d.tokens = tokens ∧
        Gives ns value (Grammar.references tokens) ∧ d.denote value = .ok v) ∧
      (Derivable tokens → (∀ r ∈ Grammar.references tokens, ∃ w, r.read ns = .ok w) →
        ∃ v, evalText ns s = .ok v) ∧
      (∀ before r after f, Derivable tokens → Grammar.references tokens = before ++ r :: after →
        (∀ q ∈ before, ∃ w, q.read ns = .ok w) → r.read ns = .error f →
        evalText ns s = .error (.failure f)) ∧
      (¬Derivable tokens → ∃ f, evalText ns s = .error (.failure f)) := by
  refine ⟨fun v => ⟨fun h => ?_, ?_⟩, ?_, ?_, fun hnot => ?_⟩
  · obtain ⟨d, rfl, hv⟩ := exists_of_evalText hs ht h
    obtain ⟨hgives, hdenote⟩ := denote_of_eval_tree hs hd d hv
    exact ⟨d, valueIn ns, rfl, hgives, hdenote⟩
  · rintro ⟨d, value, rfl, hgives, hv⟩
    rw [evalText_tokens hs d (hdepth d rfl) ht, d.eval_tree (d.references_tree ▸ hgives), hv]
    rfl
  · rintro ⟨d, rfl⟩ hread
    rw [evalText_tokens hs d (hdepth d rfl) ht]
    exact exists_eval_tree hs hd d hread
  · rintro before r after f ⟨d, rfl⟩ heq hbefore hr
    rw [evalText_tokens hs d (hdepth d rfl) ht]
    exact eval_tree_eq_error hs hd d heq hbefore hr
  · obtain ⟨v, hv, -⟩ | ⟨f, hf, -⟩ := evalText_safe hs s
    · obtain ⟨d, hd, -⟩ := exists_of_evalText hs ht hv
      exact absurd ⟨d, hd⟩ hnot
    · exact ⟨f, hf⟩

/-- The derivation of `-[x] * (2 + /xs/<1>)`. -/
def scaled : Sum :=
  .product (.join (.factor (.signed .minus 1 (.atom (.reference (.value ['x'])) 2))) .times 6
    (.bracketed 8 (.join (.product (.factor (.atom (.number ⟨['2'], none, none⟩) 9))) .plus 11
      (.factor (.atom (.reference (.item "xs".toList ['1'])) 13))) 20))

/-- Names under which `/xs/<1>` has a value and `[x]` has none. -/
def listed : Namespace := ({} : Namespace).set "xs".toList (.list 0 [.null, .number (.int 4)])

theorem evalText_iff_denote_scaled :
    evalText (listed.set ['x'] (.number (.int 5))) "-[x] * (2 + /xs/<1>)".toList =
      .ok (.number (.int (-30))) ∧
      evalText listed "-[x] * (2 + /xs/<1>)".toList =
        .error (.failure (.undefinedVariable ['x'])) := by
  have hs : listed.Safe := by
    refine Namespace.safe_set Namespace.safe_empty _ (.list 0 (List.forall_mem_cons.2 ⟨.null, ?_⟩))
    exact List.forall_mem_singleton.2 (.number (by decide))
  have hd : listed.Shallow := Namespace.shallow_set Namespace.shallow_empty _ (by decide)
  have ht : Token.scan (Text.trim "-[x] * (2 + /xs/<1>)".toList) = .ok scaled.tokens :=
    eq_ok_of_toOption (by decide +kernel)
  have hdepth : ∀ d : Sum, d.tokens = scaled.tokens → d.depth ≤ Host.brackets := by
    intro d h
    have hlength : d.depth ≤ scaled.tokens.length := h ▸ d.depth_le_length
    exact Nat.le_trans hlength (by decide)
  constructor
  · have hs := Namespace.safe_set hs ['x'] (.number (n := .int 5) (by decide))
    have hd := Namespace.shallow_set hd ['x'] (Value.isTooDeep_number (.int 5))
    refine ((evalText_iff_denote hs hd ht hdepth).1 _).2
      ⟨scaled, valueIn (listed.set ['x'] (.number (.int 5))), rfl, ?_, ?_⟩
    · exact List.forall_mem_cons.2 ⟨rfl, List.forall_mem_singleton.2 rfl⟩
    · have htwo : (⟨['2'], none, none⟩ : Numeral).toNumber none = .int 2 := by decide +kernel
      simp only [scaled, Sum.denote, Product.denote, Factor.denote, Atom.denote, htwo]
      rfl
  · exact (evalText_iff_denote hs hd ht hdepth).2.2.1 [] (.value ['x']) [.item "xs".toList ['1']] _
      ⟨scaled, rfl⟩ rfl
      (by simp) rfl

end Expression

end LineScript
