import LineScript.Expression.Tree
import LineScript.Literal
import LineScript.Proofs.Number.Safe

/-!
# Safe values

A value is safe if all its numbers are, also those in lists at any depth. In a namespace of safe
values every reference and every literal denotes a safe value. Every host can write a safe number,
so a safe value is rendered unless its lists are nested too deep (`Value.render?_of_safe`), and the
operators are closed on safe values but for that (`Operator.apply_safe`).
-/

namespace LineScript

theorem bind_eq_ok {ε α β : Type} {x : Except ε α} {f : α → Except ε β} {b : β}
    (h : x >>= f = .ok b) :
    ∃ a, x = .ok a ∧ f a = .ok b := by
  cases x with
  | error e => cases h
  | ok a => exact ⟨a, rfl, h⟩

theorem eq_ok_of_mapError {ε δ α : Type} {f : ε → δ} {x : Except ε α} {a : α}
    (h : x.mapError f = .ok a) :
    x = .ok a := by
  cases x with
  | error e => cases h
  | ok b =>
    cases h
    rfl

/-- A host writes every integer that has no more digits than it allows. -/
theorem Text.write?_eq_ok [Host] {n : Int} (h : ∀ bound ∈ Host.digits, n.natAbs < 10 ^ bound) :
    write? n = .ok (ofInt n) := by
  have hfits : Host.exceeded? (ofNat n.natAbs).length = none := by
    rw [Host.exceeded?, Option.filter_eq_none_iff]
    intro bound hbound
    have hpos : 0 < bound := Nat.lt_of_lt_of_le (by decide) (Host.le_digits bound hbound)
    rw [decide_eq_true_iff, Nat.not_lt]
    exact (Nat.length_toDigits_le_iff (by decide) hpos).2 (h bound hbound)
  rw [write?, hfits]

/-- A host writes no integer that has more. -/
theorem Text.write?_eq_error [Host] {n : Int} {bound : Nat} (hbound : bound ∈ Host.digits)
    (h : 10 ^ bound ≤ n.natAbs) : write? n = .error (.digits bound) := by
  have hexceeds : Host.exceeded? (ofNat n.natAbs).length = some bound := by
    have hpos : 0 < bound := Nat.lt_of_lt_of_le (by decide) (Host.le_digits bound hbound)
    rw [Host.exceeded?, Option.filter_eq_some_iff, decide_eq_true_iff, ← Nat.not_le]
    exact ⟨hbound, fun hle => Nat.not_lt.2 h ((Nat.length_toDigits_le_iff (by decide) hpos).1 hle)⟩
  rw [write?, hexceeds]

/-- A number of at most 640 digits has no more than any host allows. -/
theorem Host.lt_pow_digits [Host] {n k : Nat} (hk : k ≤ 640) (h : n < 10 ^ k) :
    ∀ bound ∈ Host.digits, n < 10 ^ bound :=
  fun bound hbound =>
    Nat.lt_of_lt_of_le h
      (Nat.pow_le_pow_right (by decide) (Nat.le_trans hk (Host.le_digits bound hbound)))

theorem Text.write?_of_lt [Host] {n : Int} {k : Nat} (hk : k ≤ 640) (h : n.natAbs < 10 ^ k) :
    write? n = .ok (ofInt n) :=
  write?_eq_ok (Host.lt_pow_digits hk h)

theorem Number.eq_text_of_write? [Host] {n : Number} {s : Text} (h : n.write? = .ok s) :
    s = n.text := by
  cases n with
  | int n =>
    rw [write?, Text.write?] at h
    split at h
    · cases h
    · cases h
      rfl
  | real d =>
    cases h
    rfl

theorem Number.write?_of_safe [Host] {n : Number} (h : n.Safe) : n.write? = .ok n.text := by
  cases n with
  | int n =>
    have hlt : n.natAbs < 10 ^ 16 := Nat.lt_of_lt_of_le h (by decide)
    exact Text.write?_of_lt (by decide) hlt
  | real d => rfl

/-- All numbers in the value are safe, at any depth. -/
inductive Value.Safe : Value → Prop
  | null : Safe .null
  | flag (b : Bool) : Safe (.flag b)
  | number {n : Number} : n.Safe → Safe (.number n)
  | text (s : Text) : Safe (.text s)
  | list (identity : Nat) {items : List Value} : (∀ v ∈ items, Safe v) → Safe (.list identity items)

/-- All names have safe values. -/
def Namespace.Safe (ns : Namespace) : Prop := ∀ name v, ns.get? name = some v → v.Safe

namespace Namespace

theorem forall_get?_empty {P : Value → Prop} : ∀ name v, get? {} name = some v → P v := by
  intro name v h
  simp [get?, lookup] at h

/-- What holds of all values before a name is set and of the new value holds of all values after
it. -/
theorem forall_get?_set {P : Value → Prop} {ns : Namespace}
    (h : ∀ name v, ns.get? name = some v → P v) (name : Text) {v : Value} (hv : P v) :
    ∀ other w, (ns.set name v).get? other = some w → P w := by
  intro other w hw
  by_cases heq : name = other
  · subst heq
    rw [get?_set_self, Option.some.injEq] at hw
    exact hw ▸ hv
  · rw [get?_set_of_ne ns v heq] at hw
    exact h other w hw

theorem safe_empty : Safe {} := forall_get?_empty

theorem safe_set {ns : Namespace} (h : ns.Safe) (name : Text) {v : Value} (hv : v.Safe) :
    (ns.set name v).Safe :=
  forall_get?_set h name hv

end Namespace

/-- What a reference reads is the value of a name, or an item of the list that a name has. -/
theorem Reference.get?_of_read {ns : Namespace} {r : Reference} {v : Value}
    (h : r.read ns = .ok v) :
    ∃ name, ns.get? name = some v ∨
      ∃ identity items, ns.get? name = some (.list identity items) ∧ v ∈ items := by
  cases r with
  | value name =>
    simp only [read, Namespace.valueOf] at h
    split at h
    · next w hw =>
      cases h
      exact ⟨name, .inl hw⟩
    · cases h
  | item name index =>
    simp only [read, Namespace.itemOf] at h
    split at h
    · cases h
    · next identity items hl =>
      split at h
      · cases h
      · split at h
        · next w hw =>
          cases h
          exact ⟨name, .inr ⟨identity, items, hl, List.mem_of_getElem? hw⟩⟩
        · cases h
    · cases h

theorem Reference.safe_of_read {ns : Namespace} {r : Reference} {v : Value} (hs : ns.Safe)
    (h : r.read ns = .ok v) :
    v.Safe := by
  obtain ⟨name, hv | ⟨identity, items, hl, hv⟩⟩ := get?_of_read h
  · exact hs name v hv
  · cases hs name _ hl with
    | list _ hitems => exact hitems v hv

namespace Value

/-- What a text is as a number was read from it. -/
theorem safe_textNumber (s : Text) : (textNumber s).Safe := by
  unfold textNumber
  dsimp only
  split
  · decide
  · split
    · exact Number.safe_numeric _
    · exact Number.safe_real _

theorem safe_toNumber {v : Value} (h : v.Safe) : v.toNumber.Safe := by
  cases h with
  | null => decide
  | flag b => cases b <;> decide
  | number hn => exact hn
  | text s => exact safe_textNumber s
  | list identity _ => exact safe_textNumber _

/-- Whether lists are nested more than `depth` deep in the value. -/
def deeperThan : (depth : Nat) → Value → Bool
  | 0, .list _ _ => true
  | depth + 1, .list _ items => items.any (deeperThan depth)
  | _, _ => false

/-- Whether lists are nested too deep in the value for the host to write it. -/
def isTooDeep [Host] (v : Value) : Bool := v.deeperThan Host.lists

theorem deeperThan_of_not_isList {v : Value} (h : v.isList = false) (depth : Nat) :
    v.deeperThan depth = false := by
  cases v with
  | list => cases h
  | null | flag | number | text => cases depth <;> rfl

theorem isList_of_isTooDeep [Host] {v : Value} (h : v.isTooDeep = true) : v.isList = true := by
  cases hv : v.isList with
  | true => rfl
  | false =>
    rw [isTooDeep, deeperThan_of_not_isList hv] at h
    cases h

theorem isTooDeep_number [Host] (n : Number) :
    (number n).isTooDeep = false := deeperThan_of_not_isList rfl _

theorem isTooDeep_text [Host] (s : Text) :
    (text s).isTooDeep = false := deeperThan_of_not_isList rfl _

theorem renderItemsWithin?_of_safe [Host] {depth : Nat} {items : List Value}
    (h : ∀ v ∈ items, v.renderWithin? depth =
      if v.deeperThan depth then .error .tooDeep else .ok v.render) :
    renderItemsWithin? depth items =
      if items.any (deeperThan depth) then .error .tooDeep else .ok (renderItems items) := by
  induction items with
  | nil => rfl
  | cons v items ih =>
    have hv := h v List.mem_cons_self
    specialize ih fun w hw => h w (List.mem_cons_of_mem v hw)
    rw [List.any_cons]
    cases v with
    | null =>
      rw [renderItemsWithin?, ih, deeperThan_of_not_isList rfl, Bool.false_or]
      split <;> rfl
    | flag | number | text | list =>
      rw [renderItemsWithin?, hv, ih] <;> [skip; nofun]
      cases deeperThan depth _ with
      | true => rfl
      | false => cases items.any (deeperThan depth) <;> rfl

theorem renderWithin?_of_safe [Host] {v : Value} (h : v.Safe) (depth : Nat) :
    v.renderWithin? depth = if v.deeperThan depth then .error .tooDeep else .ok v.render := by
  induction depth generalizing v with
  | zero =>
    cases h with
    | number hn => rw [renderWithin?, Number.write?_of_safe hn]; rfl
    | null | flag | text | list => rfl
  | succ depth ih =>
    cases h with
    | number hn => rw [renderWithin?, Number.write?_of_safe hn]; rfl
    | null | flag | text => rfl
    | list identity hitems =>
      rw [renderWithin?, renderItemsWithin?_of_safe fun v hv => ih (hitems v hv), deeperThan]
      split <;> rfl

/-- A safe value is rendered unless its lists are nested too deep. -/
theorem render?_of_safe [Host] {v : Value} (h : v.Safe) :
    v.render? = if v.isTooDeep then .error .tooDeep else .ok v.render :=
  renderWithin?_of_safe h Host.lists

theorem number?_of_safe [Host] {v : Value} (h : v.Safe) :
    v.number? = if v.isTooDeep then .error .tooDeep else .ok v.toNumber := by
  cases v with
  | list identity items =>
    rw [number?, render?_of_safe h]
    split <;> rfl
  | null | flag | number | text => rw [isTooDeep, deeperThan_of_not_isList rfl]; rfl

theorem plain?_of_safe [Host] {v : Value} (h : v.Safe) :
    (∃ p, v.plain? = .ok p) ∨ v.plain? = .error .tooDeep := by
  cases v with
  | list identity items =>
    rw [plain?, render?_of_safe h]
    split
    · exact .inr rfl
    · exact .inl ⟨_, rfl⟩
  | null | flag | number | text => exact .inl ⟨_, rfl⟩

/-- Safe values can be compared, unless a list is nested too deep. -/
theorem looselyEquals?_of_safe [Host] {v w : Value} (hv : v.Safe) (hw : w.Safe) :
    (∃ b, v.looselyEquals? w = .ok b) ∨ v.looselyEquals? w = .error .tooDeep := by
  unfold looselyEquals?
  split
  · exact .inl ⟨_, rfl⟩
  · split
    · exact .inl ⟨_, rfl⟩
    · rcases plain?_of_safe hv with ⟨p, hp⟩ | hp <;> rcases plain?_of_safe hw with ⟨q, hq⟩ | hq <;>
        rw [hp, hq]
      · exact .inl ⟨_, rfl⟩
      · exact .inr rfl
      · exact .inr rfl
      · exact .inr rfl

/-- A result that arithmetic can go on with. -/
def Fit [Host] (v : Value) : Prop := v.Safe ∧ v.isTooDeep = false

theorem Fit.number [Host] {n : Number} (h : n.Safe) :
    (Value.number n).Fit := ⟨.number h, isTooDeep_number n⟩

theorem Fit.text [Host] (s : Text) : (Value.text s).Fit := ⟨.text s, isTooDeep_text s⟩

theorem Fit.render? [Host] {v : Value} (h : v.Fit) : v.render? = .ok v.render := by
  rw [render?_of_safe h.1, h.2]
  rfl

theorem Fit.number? [Host] {v : Value} (h : v.Fit) : v.number? = .ok v.toNumber := by
  rw [number?_of_safe h.1, h.2]
  rfl

theorem numeric_fit [Host] {op : Number → Number → Except Exception Number}
    (hop : Number.Closed op) {v w : Value} (hv : v.Fit) (hw : w.Fit) :
    ∃ x, numeric op v w = .ok x ∧ x.Fit := by
  obtain ⟨n, hn, hs⟩ := hop _ _ (safe_toNumber hv.1) (safe_toNumber hw.1)
  refine ⟨.number n, ?_, .number hs⟩
  rw [numeric, hv.number?, hw.number?]
  simp only [bind, Except.bind, hn]
  rfl

theorem add_fit [Host] {v w : Value} (hv : v.Fit) (hw : w.Fit) : ∃ x, v.add w = .ok x ∧ x.Fit := by
  rw [Value.add]
  split
  · rw [hv.render?, hw.render?]
    exact ⟨_, rfl, .text _⟩
  · exact numeric_fit Number.closed_add hv hw

theorem numeric_tooDeep [Host] (op : Number → Number → Except Exception Number) {v w : Value}
    (hv : v.Safe) (hw : w.Safe) (h : v.isTooDeep = true ∨ w.isTooDeep = true) :
    numeric op v w = .error .tooDeep := by
  rw [numeric, number?_of_safe hv, number?_of_safe hw]
  cases hdeep : v.isTooDeep with
  | true => rfl
  | false =>
    rw [h.resolve_left (by simp [hdeep])]
    rfl

theorem add_tooDeep [Host] {v w : Value} (hv : v.Safe) (hw : w.Safe)
    (h : v.isTooDeep = true ∨ w.isTooDeep = true) : v.add w = .error .tooDeep := by
  have hl : (v.isText || v.isList || w.isText || w.isList) = true := by
    rcases h with h | h <;> simp [isList_of_isTooDeep h]
  rw [Value.add, if_pos hl, render?_of_safe hv, render?_of_safe hw]
  cases hdeep : v.isTooDeep with
  | true => rfl
  | false =>
    rw [h.resolve_left (by simp [hdeep])]
    rfl

end Value

namespace Operator

/-- On fit values an operator has a fit result. -/
theorem exists_apply [Host] (op : Operator) {v w : Value} (hv : v.Fit) (hw : w.Fit) :
    ∃ x, op.apply v w = .ok x ∧ x.Fit := by
  cases op with
  | add => exact Value.add_fit hv hw
  | sub => exact Value.numeric_fit Number.closed_sub hv hw
  | mul => exact Value.numeric_fit Number.closed_mul hv hw
  | div => exact Value.numeric_fit Number.closed_div hv hw
  | rem => exact Value.numeric_fit Number.closed_rem hv hw

theorem apply_tooDeep [Host] (op : Operator) {v w : Value} (hv : v.Safe) (hw : w.Safe)
    (h : v.isTooDeep = true ∨ w.isTooDeep = true) : op.apply v w = .error .tooDeep := by
  cases op with
  | add => exact Value.add_tooDeep hv hw h
  | sub | mul | div | rem => exact Value.numeric_tooDeep _ hv hw h

/-- On safe values an operator raises no exception. -/
theorem apply_safe [Host] (op : Operator) {v w : Value} (hv : v.Safe) (hw : w.Safe) :
    (∃ x, op.apply v w = .ok x ∧ x.Safe) ∨ op.apply v w = .error .tooDeep := by
  by_cases h : v.isTooDeep = true ∨ w.isTooDeep = true
  · exact .inr (op.apply_tooDeep hv hw h)
  · rw [not_or, Bool.not_eq_true, Bool.not_eq_true] at h
    obtain ⟨x, hx, hs, -⟩ := op.exists_apply ⟨hv, h.1⟩ ⟨hw, h.2⟩
    exact .inl ⟨x, hx, hs⟩

end Operator

namespace Literal

theorem safe_of_eval {ns : Namespace} (hs : ns.Safe) {l : Literal} {v : Value}
    (h : l.eval ns = .ok v) : v.Safe := by
  cases l with
  | reference r => exact Reference.safe_of_read hs h
  | real s =>
    cases h
    exact .number (Number.safe_real _)
  | integer s =>
    cases h
    exact .number (Number.safe_readInteger s)
  | flag b =>
    cases h
    exact .flag b
  | null =>
    cases h
    exact .null
  | quoted s | bare s =>
    cases h
    exact .text s
  | nothing =>
    cases h
    exact .number (by decide)
  | numeric n =>
    cases h
    exact .number (Number.safe_numeric n)

theorem safe_of_evalText {ns : Namespace} (hs : ns.Safe) {s : Text} {v : Value}
    (h : evalText ns s = .ok v) : v.Safe :=
  safe_of_eval hs h

theorem safe_of_evalItems {ns : Namespace} (hs : ns.Safe) {items : List Text} {vs : List Value}
    (h : evalItems ns items = .ok vs) : ∀ v ∈ vs, v.Safe := by
  induction items generalizing vs with
  | nil =>
    cases h
    simp
  | cons s items ih =>
    obtain ⟨v, hv, h⟩ := bind_eq_ok h
    obtain ⟨ws, hws, h⟩ := bind_eq_ok h
    cases h
    intro w hw
    rcases List.mem_cons.1 hw with rfl | hw
    · exact safe_of_evalText hs hv
    · exact ih hws w hw

end Literal

end LineScript
