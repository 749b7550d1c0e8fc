import LineScript.Text.Scan
import Mathlib.Data.List.Forall2
import Mathlib.Data.List.TakeWhile

/-!
# Keywords in any case

`Text.IsWritten` says, letter by letter, which words are a keyword in any case. Reading a keyword
finds exactly those at the beginning of a text (`afterAnyCase?_eq_some_iff`), and since none of them
begins with a blank, reading it after blanks finds exactly those that some blanks stand before
(`afterBlanks?_bind_eq_some_iff`).
-/

namespace LineScript.Text

/-- A word is a keyword, which is given in lower case, in any case. -/
def IsWritten (keyword word : Text) : Prop :=
  List.Forall₂ (fun letter c => admits letter c = true) keyword word

theorem afterAnyCase?_append (start more s : Text) :
    afterAnyCase? (start ++ more) s = (afterAnyCase? start s).bind (afterAnyCase? more) := by
  induction start generalizing s with
  | nil => rfl
  | cons letter start ih =>
    cases s with
    | nil => rfl
    | cons c s =>
      rw [List.cons_append, afterAnyCase?, afterAnyCase?]
      by_cases hadmits : admits letter c = true
      · rw [if_pos hadmits, if_pos hadmits, ih]
      · rw [if_neg hadmits, if_neg hadmits, Option.bind_none]

theorem afterAnyCase?_eq_some_iff {keyword s rest : Text} :
    afterAnyCase? keyword s = some rest ↔ ∃ word, s = word ++ rest ∧ IsWritten keyword word := by
  induction keyword generalizing s with
  | nil =>
    constructor
    · intro h
      exact ⟨[], Option.some.inj h, .nil⟩
    · rintro ⟨word, rfl, hword⟩
      cases hword
      rfl
  | cons letter keyword ih =>
    constructor
    · intro h
      cases s with
      | nil => cases h
      | cons c s =>
        rw [afterAnyCase?, Option.ite_none_right_eq_some, ih] at h
        obtain ⟨hadmits, word, rfl, hword⟩ := h
        exact ⟨c :: word, rfl, .cons hadmits hword⟩
    · rintro ⟨word, rfl, hword⟩
      cases hword with
      | cons hadmits hword =>
        rw [List.cons_append, afterAnyCase?, if_pos hadmits, ih]
        exact ⟨_, rfl, hword⟩

theorem toLower_of_isBlank {c : Char} (h : isBlank c = true) : c.toLower = c := by
  simp only [isBlank, blanks, Ranges.has, List.any_cons, List.any_nil, Bool.or_false,
    Bool.or_eq_true, Bool.and_eq_true, decide_eq_true_eq] at h
  have hcase : ¬(65 ≤ c.toNat ∧ c.toNat ≤ 90) := by omega
  unfold Char.toLower
  exact dif_neg hcase

/-- No blank is read as a letter of a keyword. -/
theorem isBlank_of_admits {letter c : Char} (hletter : isBlank letter = false)
    (h : admits letter c = true) :
    isBlank c = false := by
  rw [Bool.eq_false_iff]
  intro hblank
  simp only [admits, toLower_of_isBlank hblank, Bool.or_eq_true, Bool.and_eq_true, beq_iff_eq] at h
  rcases h with (rfl | ⟨-, rfl | rfl⟩) | ⟨-, rfl⟩
  · rw [hletter] at hblank
    cases hblank
  all_goals revert hblank; decide

/-- The blanks before a keyword are all that trimming takes away. -/
theorem trimStart_append_written {keyword blanks word : Text}
    (hkeyword : ∃ c ∈ keyword.head?, isBlank c = false) (hblanks : ∀ c ∈ blanks, isBlank c = true)
    (hword : IsWritten keyword word) (rest : Text) :
    trimStart (blanks ++ (word ++ rest)) = word ++ rest := by
  obtain ⟨letter, hhead, hletter⟩ := hkeyword
  cases hword with
  | nil => cases hhead
  | cons hfirst _ =>
    cases hhead
    rw [trimStart, List.dropWhile_append_of_pos hblanks, List.cons_append,
      List.dropWhile_cons_of_neg]
    simp [isBlank_of_admits hletter hfirst]

/-- A keyword is read after blanks if at least one stands before it. -/
theorem afterBlanks?_bind_eq_some_iff {keyword s rest : Text}
    (hkeyword : ∃ c ∈ keyword.head?, isBlank c = false) :
    (afterBlanks? s).bind (afterAnyCase? keyword) = some rest ↔
      ∃ blanks word, s = blanks ++ (word ++ rest) ∧ blanks ≠ [] ∧ (∀ c ∈ blanks, isBlank c = true) ∧
        IsWritten keyword word := by
  cases s with
  | nil =>
    refine iff_of_false nofun ?_
    rintro ⟨blanks, word, hs, hne, -, -⟩
    exact hne (List.append_eq_nil_iff.1 hs.symm).1
  | cons c r =>
    rw [afterBlanks?, Option.bind_eq_some_iff]
    constructor
    · rintro ⟨t, ht, hword⟩
      rw [Option.ite_none_right_eq_some, Option.some.injEq] at ht
      obtain ⟨hblank, rfl⟩ := ht
      obtain ⟨word, hstart, hword⟩ := afterAnyCase?_eq_some_iff.1 hword
      refine ⟨c :: r.takeWhile isBlank, word, ?_, List.cons_ne_nil _ _, ?_, hword⟩
      · rw [← hstart, trimStart, List.cons_append, List.takeWhile_append_dropWhile]
      · rintro d (_ | ⟨_, hd⟩)
        · exact hblank
        · exact List.mem_takeWhile_imp hd
    · rintro ⟨blanks, word, hs, hne, hblanks, hword⟩
      obtain ⟨b, blanks, rfl⟩ := List.exists_cons_of_ne_nil hne
      rw [List.cons_append, List.cons.injEq] at hs
      obtain ⟨rfl, rfl⟩ := hs
      obtain ⟨hblank, hblanks⟩ := List.forall_mem_cons.1 hblanks
      refine ⟨word ++ rest, ?_, afterAnyCase?_eq_some_iff.2 ⟨word, rfl, hword⟩⟩
      rw [if_pos hblank, trimStart_append_written hkeyword hblanks hword]

end LineScript.Text
