import LineScript.Namespace
import LineScript.Proofs.Number.Numeral

/-!
# Items of lists

The item of a list is asked for by an index in digits. Before the digits are read as a number they
are counted: an index with more digits than the length of the list, leading zeros apart, is refused.
Digits that do not begin with a zero denote at least the power of ten with as many digits
(`Text.ten_pow_le_digitsValue`), so counting refuses only what is out of range
(`Text.lt_digitsValue_of_length`). `Namespace.itemOf_digits` says that the item is the one at the
number that the index denotes, and that there is none exactly if that number is not below the
length.
-/

namespace LineScript

namespace Text

/-- The digits of an index that count. -/
def significant (index : Text) : Text := index.dropWhile (· == '0')

theorem digitsValue_significant (index : Text) :
    digitsValue (significant index) = digitsValue index := by
  have hzero : digitsValue ['0'] = 0 := by decide
  induction index with
  | nil => rfl
  | cons c index ih =>
    by_cases hc : c = '0'
    · subst hc
      have happend := digitsValue_append ['0'] index
      rw [hzero, Nat.zero_mul, Nat.zero_add, List.singleton_append] at happend
      rw [happend, ← ih]
      rfl
    · rw [significant, List.dropWhile_cons_of_neg (by simpa using hc)]

theorem head?_significant_ne (index : Text) : ∀ c ∈ (significant index).head?, c ≠ '0' := by
  intro c hc
  have hfirst := List.head?_dropWhile_not (· == '0') index
  rw [← significant, hc] at hfirst
  simpa using hfirst

/-- Digits that do not begin with a zero denote at least the power of ten with as many digits. -/
theorem ten_pow_le_digitsValue {c : Char} {s : Text} (hc : c.isDigit = true) (hzero : c ≠ '0') :
    10 ^ s.length ≤ digitsValue (c :: s) := by
  have hvalue : digitsValue [c] = c.toNat - '0'.toNat := by
    rw [digitsValue_eq_ofDigitChars (List.forall_mem_singleton.2 hc)]
    simp [Nat.ofDigitChars_eq_foldl]
  have hpos : 1 ≤ digitsValue [c] := by
    have hle : '0'.toNat ≤ c.toNat := by
      rw [Char.isDigit, Bool.and_eq_true, decide_eq_true_eq] at hc
      exact hc.1
    have hne : c.toNat ≠ '0'.toNat := fun h => hzero (Char.toNat_inj.1 h)
    omega
  calc 10 ^ s.length = 1 * 10 ^ s.length := (Nat.one_mul _).symm
    _ ≤ digitsValue [c] * 10 ^ s.length := Nat.mul_le_mul_right _ hpos
    _ ≤ digitsValue [c] * 10 ^ s.length + digitsValue s := Nat.le_add_right _ _
    _ = digitsValue (c :: s) := (digitsValue_append [c] s).symm

/-- An index that has more digits than a number, leading zeros apart, is greater. -/
theorem lt_digitsValue_of_length {index : Text} (hdigits : ∀ c ∈ index, c.isDigit = true) {n : Nat}
    (h : (ofNat n).length < (significant index).length) : n < digitsValue index := by
  rw [← digitsValue_significant]
  have hfirst := head?_significant_ne index
  cases hs : significant index with
  | nil => simp [hs] at h
  | cons c s =>
    -- What counts begins with a digit other than zero, so its length alone bounds its value from
    -- below.
    rw [hs] at h hfirst
    have hmem : c ∈ index := (List.dropWhile_sublist _).subset (hs ▸ List.mem_cons_self)
    calc n < 10 ^ (ofNat n).length := lt_ten_pow_length n
      _ ≤ 10 ^ s.length := Nat.pow_le_pow_right (by decide) (Nat.le_of_lt_succ h)
      _ ≤ digitsValue (c :: s) := ten_pow_le_digitsValue (hdigits c hmem) (hfirst c rfl)

end Text

namespace Namespace

/-- An index is refused by the count of its digits or by the number they denote. -/
theorem itemOf_list {ns : Namespace} {name : Text} {identity : Nat} {items : List Value}
    (hlist : ns.get? name = some (.list identity items)) (index : Text) :
    ns.itemOf name index =
      if (Text.ofNat items.length).length < (Text.significant index).length then
        .error (.outOfRange name index items.length)
      else (items[Text.digitsValue index]?).elim
        (.error (.outOfRange name index items.length)) .ok := by
  rw [← Text.digitsValue_significant index, itemOf, hlist]
  dsimp only
  rw [← Text.significant]
  split
  · rfl
  · split
    · next h => rw [h, Option.elim_some]
    · next h => rw [h, Option.elim_none]

/-- The item of a list at an index in digits, of any number and with any number of leading zeros, is
the item at the number that the digits denote in base ten. If that is not below the length, the
index is out of range. The test for this, first on the number of digits and then on what they
denote, refuses no index that is in range and lets no other pass. -/
theorem itemOf_digits {ns : Namespace} {name index : Text} {identity : Nat} {items : List Value}
    (hlist : ns.get? name = some (.list identity items)) (hdigits : ∀ c ∈ index, c.isDigit = true) :
    (∀ h : Nat.ofDigitChars 10 index 0 < items.length, ns.itemOf name index =
      .ok (items.get ⟨_, h⟩)) ∧ (items.length ≤ Nat.ofDigitChars 10 index 0 →
        ns.itemOf name index = .error (.outOfRange name index items.length)) ∧
      ((Text.ofNat items.length).length < (index.dropWhile (· == '0')).length ∨
          items.length ≤ Text.digitsValue (index.dropWhile (· == '0')) ↔
        items.length ≤ Nat.ofDigitChars 10 index 0) := by
  have hcount := Text.lt_digitsValue_of_length hdigits (n := items.length)
  have hvalue := Text.digitsValue_significant index
  rw [itemOf_list hlist, ← Text.digitsValue_eq_ofDigitChars hdigits, ← Text.significant, hvalue]
  refine ⟨fun h => ?_, fun h => ?_, ⟨?_, .inr⟩⟩
  · rw [if_neg fun hlong => by have := hcount hlong; omega, List.getElem?_eq_getElem h]
    rfl
  · rw [List.getElem?_eq_none h]
    exact ite_self _
  · rintro (hlong | h)
    · exact Nat.le_of_lt (hcount hlong)
    · exact h

/-- A list of ten items, whose greatest index has one digit less than their number. -/
def ofTen : Namespace := ⟨[("xs".toList, .list 0 ((List.range 10).map fun k => .number (.int k)))]⟩

theorem itemOf_digits_ten :
    (∀ c ∈ "0009".toList, c.isDigit = true) ∧ (∀ c ∈ "0010".toList, c.isDigit = true) ∧
      (∀ c ∈ "100".toList, c.isDigit = true) ∧
      ofTen.itemOf "xs".toList "0009".toList = .ok (.number (.int 9)) ∧
      ofTen.itemOf "xs".toList "0010".toList = .error (.outOfRange "xs".toList "0010".toList 10) ∧
      ofTen.itemOf "xs".toList "100".toList = .error (.outOfRange "xs".toList "100".toList 10) := by
  have hlast : ∀ c ∈ "0009".toList, c.isDigit = true := List.all_eq_true.1 (by decide)
  have hnext : ∀ c ∈ "0010".toList, c.isDigit = true := List.all_eq_true.1 (by decide)
  have hlong : ∀ c ∈ "100".toList, c.isDigit = true := List.all_eq_true.1 (by decide)
  have hlist : ofTen.get? "xs".toList =
      some (.list 0 ((List.range 10).map fun k => .number (.int k))) := rfl
  exact ⟨hlast, hnext, hlong, (itemOf_digits hlist hlast).1 (by decide),
    (itemOf_digits hlist hnext).2.1 (by decide), (itemOf_digits hlist hlong).2.1 (by decide)⟩

end Namespace

end LineScript
