import LineScript.Proofs.Double.Value
import LineScript.Value.Operation

/-!
# Loose equality

Loose equality takes its operands as texts or as numbers, depending on what the other one is.
`Value.loose_equality` says what holds nevertheless: it does not matter which operand stands on
which side, every value but a NaN equals itself, null equals nothing else, a NaN equals nothing, and
a list equals what its text equals. The comparison of numbers underneath compares their exact values
(`Number.equal_of_value?`) and is symmetric as well (`Number.equal_comm`).
-/

namespace LineScript

theorem Double.equal_comm (d e : Double) : d.equal e = e.equal d := by
  cases d <;> cases e <;> first | rfl | exact Bool.beq_comm

theorem Double.equal_self_eq (d : Double) : d.equal d = !d.isNan := by
  cases d with
  | nan => rfl
  | infinite negative => exact beq_self_eq_true negative
  | finite negative m => exact beq_self_eq_true (signedUnits negative m)

theorem Double.exists_units?_of_value? {d : Double} {q : Rat} (h : d.value? = some q) :
    ∃ u, d.units? = some u ∧ q = (u : Rat) / (one : Rat) := by
  cases d with
  | nan | infinite => cases h
  | finite negative m =>
    refine ⟨signedUnits negative m, rfl, ?_⟩
    cases negative with
    | false => exact (Option.some.inj ((value?_positive m).symm.trans h)).symm
    | true =>
      rw [← Option.some.inj ((value?_negative m).symm.trans h), signedUnits, if_pos rfl,
        Int.cast_neg, neg_div]
      rfl

theorem Double.equal_of_units? {d e : Double} {u v : Int} (hd : d.units? = some u)
    (he : e.units? = some v) :
    d.equal e = (u == v) := by
  cases d with
  | nan | infinite => cases hd
  | finite =>
    cases e with
    | nan | infinite => cases he
    | finite =>
      cases hd
      cases he
      rfl

namespace Number

/-- Whether the number is a NaN. -/
def isNan : Number → Bool
  | .int _ => false
  | .real d => d.isNan

theorem equal_comm (x y : Number) : x.equal y = y.equal x := by
  cases x with
  | int a =>
    cases y with
    | int b => exact Bool.beq_comm
    | real e => rfl
  | real d =>
    cases y with
    | int b => rfl
    | real e => exact d.equal_comm e

theorem equal_self_eq (x : Number) : x.equal x = !x.isNan := by
  cases x with
  | int a => exact beq_self_eq_true a
  | real d => exact d.equal_self_eq

/-- The value of a finite number. -/
def value? : Number → Option Rat
  | .int n => some n
  | .real d => d.value?

/-- A finite number in units. -/
def units? : Number → Option Int
  | .int n => some (n * Double.one)
  | .real d => d.units?

theorem exists_units?_of_value? {x : Number} {q : Rat} (h : x.value? = some q) :
    ∃ u, x.units? = some u ∧ q = (u : Rat) / (Double.one : Rat) := by
  have hone : (Double.one : Rat) ≠ 0 := Nat.cast_ne_zero.2 (Nat.ne_of_gt Double.one_pos)
  cases x with
  | int n =>
    cases h
    refine ⟨_, rfl, ?_⟩
    push_cast
    exact (mul_div_cancel_right₀ _ hone).symm
  | real d => exact Double.exists_units?_of_value? h

theorem equal_of_units? {x y : Number} {u v : Int} (hx : x.units? = some u)
    (hy : y.units? = some v) :
    x.equal y = (u == v) := by
  have hone : (Double.one : Int) ≠ 0 := Int.natCast_ne_zero.2 (Nat.ne_of_gt Double.one_pos)
  cases x with
  | int a =>
    cases hx
    cases y with
    | int b =>
      cases hy
      rw [equal, Bool.eq_iff_iff, beq_iff_eq, beq_iff_eq, Int.mul_eq_mul_right_iff hone]
    | real e => rw [equal, show e.units? = some v from hy, Option.some_beq_some, Bool.beq_comm]
  | real d =>
    cases y with
    | int b =>
      cases hy
      rw [equal, show d.units? = some u from hx, Option.some_beq_some]
    | real e => exact Double.equal_of_units? hx hy

/-- Finite numbers are equal if their values are, whether they are integers or doubles. -/
theorem equal_of_value? {x y : Number} {p q : Rat} (hx : x.value? = some p)
    (hy : y.value? = some q) :
    x.equal y = decide (p = q) := by
  have hone : (Double.one : Rat) ≠ 0 := Nat.cast_ne_zero.2 (Nat.ne_of_gt Double.one_pos)
  obtain ⟨u, hu, rfl⟩ := exists_units?_of_value? hx
  obtain ⟨v, hv, rfl⟩ := exists_units?_of_value? hy
  rw [equal_of_units? hu hv, Bool.eq_iff_iff, beq_iff_eq, decide_eq_true_iff, div_left_inj' hone,
    Int.cast_inj]

/-- No number equals a NaN. -/
theorem equal_nan (x : Number) : x.equal nan = false := by
  cases x with
  | int a => rfl
  | real d => cases d <;> rfl

end Number

namespace Value

/-- Whether the value is a NaN. -/
def isNan : Value → Bool
  | .number n => n.isNan
  | _ => false

theorem plainEquals_eq {v w : Value} (h : (v.isText && w.isText) = false) :
    plainEquals v w = v.toNumber.equal w.toNumber := by
  cases v with
  | text s =>
    cases w with
    | text t => cases h
    | null | flag | number | list => rfl
  | null | flag | number | list => rfl

theorem plainEquals_comm (v w : Value) : plainEquals v w = plainEquals w v := by
  cases h : v.isText && w.isText with
  | true =>
    cases v with
    | text s =>
      cases w with
      | text t => exact Bool.beq_comm
      | null | flag | number | list => cases h
    | null | flag | number | list => cases h
  | false => rw [plainEquals_eq h, plainEquals_eq (Bool.and_comm _ _ ▸ h), Number.equal_comm]

/-- Only a list has to be rendered. -/
theorem exists_plain? [Host] {v : Value} (h : v.isList = false) : ∃ p, v.plain? = .ok p := by
  cases v with
  | list => cases h
  | null | flag | number | text => exact ⟨_, rfl⟩

theorem eq_null_of_isNull {v : Value} (h : v.isNull = true) : v = null := by
  cases v with
  | null => rfl
  | flag | number | text | list => cases h

theorem null_looselyEquals? [Host] (v : Value) : null.looselyEquals? v = .ok v.isNull := rfl

theorem looselyEquals?_null [Host] (v : Value) : v.looselyEquals? null = .ok v.isNull := by
  cases v <;> rfl

/-- Two lists are not rendered. -/
theorem looselyEquals?_list [Host] (a b : Nat) (items others : List Value) :
    (list a items).looselyEquals? (list b others) = .ok (a == b) := rfl

/-- Values that are not null are compared as plain values, unless both are lists. -/
theorem looselyEquals?_eq [Host] {v w : Value} (hv : v.isNull = false) (hw : w.isNull = false)
    (hlist : (v.isList && w.isList) = false) :
    v.looselyEquals? w = do return plainEquals (← v.plain?) (← w.plain?) := by
  cases v with
  | null => cases hv
  | list =>
    cases w with
    | null => cases hw
    | list => cases hlist
    | flag | number | text => rfl
  | flag | number | text =>
    cases w with
    | null => cases hw
    | flag | number | text | list => rfl

/-- Comparison as plain values is symmetric also where it fails: one of the two cannot fail. -/
theorem plain?_comm [Host] {v w : Value} (h : (v.isList && w.isList) = false) :
    (do return plainEquals (← v.plain?) (← w.plain?)) =
      (do return plainEquals (← w.plain?) (← v.plain?) : Except Fault Bool) := by
  rcases (Bool.and_eq_false_iff).1 h with hv | hw
  · obtain ⟨p, hp⟩ := exists_plain? hv
    rw [hp]
    cases w.plain? with
    | error => rfl
    | ok q => exact congrArg Except.ok (plainEquals_comm p q)
  · obtain ⟨q, hq⟩ := exists_plain? hw
    rw [hq]
    cases v.plain? with
    | error => rfl
    | ok p => exact congrArg Except.ok (plainEquals_comm p q)

theorem looselyEquals?_comm [Host] (v w : Value) : v.looselyEquals? w = w.looselyEquals? v := by
  cases hlist : v.isList && w.isList with
  | true =>
    cases v with
    | list a items =>
      cases w with
      | list b others => rw [looselyEquals?_list, looselyEquals?_list, Bool.beq_comm]
      | null | flag | number | text => cases hlist
    | null | flag | number | text => cases hlist
  | false =>
    cases hv : v.isNull with
    | true => rw [eq_null_of_isNull hv, null_looselyEquals?, looselyEquals?_null]
    | false =>
      cases hw : w.isNull with
      | true => rw [eq_null_of_isNull hw, null_looselyEquals?, looselyEquals?_null]
      | false =>
        rw [looselyEquals?_eq hv hw hlist, looselyEquals?_eq hw hv (Bool.and_comm _ _ ▸ hlist),
          plain?_comm hlist]

theorem looselyEquals?_self [Host] (v : Value) : v.looselyEquals? v = .ok (!v.isNan) := by
  cases v with
  | null => rfl
  | flag b => exact congrArg Except.ok (Number.equal_self_eq (flagNumber b))
  | number n => exact congrArg Except.ok n.equal_self_eq
  | text s => exact congrArg Except.ok (beq_self_eq_true s)
  | list identity items => exact congrArg Except.ok (beq_self_eq_true identity)

/-- A list equals what its text equals. -/
theorem looselyEquals?_of_isList [Host] {v w : Value} (hv : v.isList = true) (hw : w.isList = false)
    (hne : w.isNull = false) :
    v.looselyEquals? w = v.render?.bind fun s => (text s).looselyEquals? w := by
  cases v with
  | list identity items =>
    rw [looselyEquals?_eq rfl hne (by rw [hw, Bool.and_false]), plain?]
    cases (list identity items).render? with
    | error => rfl
    | ok s => exact (looselyEquals?_eq (v := text s) rfl hne rfl).symm
  | null | flag | number | text => cases hv

/-- A NaN equals nothing, once a list is rendered. -/
theorem nan_looselyEquals? [Host] (v : Value) :
    (number .nan).looselyEquals? v =
      if v.isList then v.render?.map fun _ => false else .ok false := by
  have hfalse (n : Number) : Number.nan.equal n = false := by
    rw [Number.equal_comm, Number.equal_nan]
  cases v with
  | null => rfl
  | flag b => exact congrArg Except.ok (hfalse (flagNumber b))
  | number n => exact congrArg Except.ok (hfalse n)
  | text s => exact congrArg Except.ok (hfalse (textNumber s))
  | list identity items =>
    rw [looselyEquals?_comm, looselyEquals?_of_isList rfl rfl rfl, if_pos (by rfl)]
    cases (list identity items).render? with
    | error => rfl
    | ok s => exact congrArg Except.ok (Number.equal_nan (textNumber s))

/-- The laws of loose equality. It is symmetric, also where it fails since a list cannot be
rendered. A value equals itself unless it is a NaN; for a list this means the very same list, which
is not rendered. Null equals null only, and a NaN equals nothing. Integers and doubles are compared
by their exact values. A list compared with what is no list and not null is compared as its text. -/
theorem loose_equality [Host] :
    (∀ v w : Value, v.looselyEquals? w = w.looselyEquals? v) ∧
      (∀ v : Value, v.looselyEquals? v = .ok (!v.isNan)) ∧
      (∀ v : Value, null.looselyEquals? v = .ok v.isNull) ∧
      (∀ v : Value, (number .nan).looselyEquals? v =
        if v.isList then v.render?.map fun _ => false else .ok false) ∧
      (∀ (x y : Number) (p q : Rat), x.value? = some p → y.value? = some q →
        (number x).looselyEquals? (number y) = .ok (decide (p = q))) ∧
      ∀ v w : Value, v.isList = true → w.isList = false → w.isNull = false →
        v.looselyEquals? w = v.render?.bind fun s => (text s).looselyEquals? w := by
  refine ⟨looselyEquals?_comm, looselyEquals?_self, null_looselyEquals?, nan_looselyEquals?, ?_, ?_⟩
  · intro x y p q hx hy
    rw [← Number.equal_of_value? hx hy]
    rfl
  · intro v w hv hw hne
    exact looselyEquals?_of_isList hv hw hne

/-- A list with null and another list in it. -/
def listed : Value := .list 0 [.number (.int 1), .null, .list 1 [.text "2".toList, .flag true]]

theorem loose_equality_listed :
    let joined : Value := .text "1,,2,true".toList
    listed.isList = true ∧ joined.isList = false ∧ joined.isNull = false ∧
      listed.render? = .ok "1,,2,true".toList ∧
      listed.looselyEquals? joined = .ok true ∧ joined.looselyEquals? listed = .ok true ∧
      listed.looselyEquals? listed = .ok true ∧ (number .nan).looselyEquals? listed = .ok false ∧
      (number (.int 1)).looselyEquals? (number (.real (.zero true))) = .ok false := by
  intro joined
  obtain ⟨hsymm, hself, -, hnan, hvalue, hlist⟩ := loose_equality
  have hrender : listed.render? = .ok "1,,2,true".toList := by rfl
  have hjoined : listed.looselyEquals? joined = .ok true := by
    rw [hlist listed joined rfl rfl rfl, hrender]
    rfl
  have hzero : (Number.real (.zero true)).value? = some 0 := by
    rw [Number.value?, Double.zero, Double.value?_negative]
    simp [Magnitude.zero]
  refine ⟨rfl, rfl, rfl, hrender, hjoined, ?_, hself listed, hnan listed,
    hvalue _ _ 1 0 (by simp [Number.value?]) hzero⟩
  rw [hsymm, hjoined]

end Value

end LineScript
