import LineScript.Text.Scan
import Mathlib.Data.List.DropRight

/-!
# What scanning leaves of a text

A text without blanks at its ends keeps its first and its last character when it is trimmed, and a
text that is nothing but blanks is trimmed to nothing. What a scanning step leaves of a text is a
suffix of it, so a step that succeeds on what is left succeeds on a suffix of the whole
(`suffix_of_shortest?`, `suffix_of_longest?`). Conversely a part that was written before a mark is
found again: by the shortest stretch if the rest cannot be read after an earlier mark
(`shortest?_append`), by the longest if it cannot be read after a later one (`longest?_append`).
-/

namespace LineScript.Text

/-! ## Trimmed texts -/

theorem trimStart_cons_of_isBlank {c : Char} (h : isBlank c = true) (s : Text) :
    trimStart (c :: s) = trimStart s :=
  List.dropWhile_cons_of_pos h

theorem trimStart_cons_of_not_isBlank {c : Char} (h : isBlank c = false) (s : Text) :
    trimStart (c :: s) = c :: s :=
  List.dropWhile_cons_of_neg (by simp [h])

theorem trim_cons_of_isBlank {c : Char} (h : isBlank c = true) (s : Text) :
    trim (c :: s) = trim s := by
  rw [trim, trim, trimStart_cons_of_isBlank h]

theorem trimEnd_eq_self {s : Text} (h : ∀ c ∈ s.getLast?, isBlank c = false) : trimEnd s = s := by
  rw [trimEnd]
  cases hl : s.getLast? with
  | none => rfl
  | some c => rw [Option.any_some, h c hl, if_neg Bool.false_ne_true]

/-- A text without blanks at its ends is kept by trimming. -/
theorem trim_eq_self {s : Text} (hfirst : ∀ c ∈ s.head?, isBlank c = false)
    (hlast : ∀ c ∈ s.getLast?, isBlank c = false) : trim s = s := by
  cases s with
  | nil => rfl
  | cons c s => rw [trim, trimStart_cons_of_not_isBlank (hfirst c rfl), trimEnd_eq_self hlast]

/-- What is left of a text does not end in a blank. -/
theorem isBlank_getLast?_trim {s : Text} {c : Char} (hc : (trim s).getLast? = some c) :
    isBlank c = false := by
  rw [trim_eq, List.getLast?_reverse] at hc
  have := List.head?_dropWhile_not isBlank (s.dropWhile isBlank).reverse
  rw [hc] at this
  exact this

theorem isPrefix_trim (s : Text) : trim s <+: trimStart s := by
  rw [trim, trimEnd_eq, ← List.reverse_suffix, List.reverse_reverse]
  exact List.dropWhile_suffix _

theorem isInfix_trim (s : Text) : trim s <:+: s :=
  (isPrefix_trim s).isInfix.trans (List.dropWhile_suffix isBlank).isInfix

theorem trim_trim (s : Text) : trim (trim s) = trim s := by
  refine trim_eq_self (fun c hc => ?_) fun c hc => isBlank_getLast?_trim hc
  -- Trimming the end leaves a front part, which begins as the whole does.
  obtain ⟨ending, hstart⟩ := isPrefix_trim s
  have hfirst := List.head?_dropWhile_not isBlank s
  rw [← trimStart, ← hstart, List.head?_append, hc] at hfirst
  exact hfirst

/-- A text that trimming keeps does not begin with a blank. -/
theorem trimStart_eq_self {s : Text} (h : trim s = s) : trimStart s = s := by
  have hle : s.length ≤ (trimStart s).length := by
    calc s.length = (trim s).length := by rw [h]
      _ ≤ (trimStart s).length := length_trimEnd_le _
  exact (List.dropWhile_suffix isBlank).eq_of_length_le hle

/-- A text that trimming keeps does not end in a blank. -/
theorem isBlank_getLast? {s : Text} (h : trim s = s) {c : Char} (hc : s.getLast? = some c) :
    isBlank c = false := by
  rw [← h] at hc
  exact isBlank_getLast?_trim hc

theorem trimStart_append {s : Text} (h : trim s = s) (hne : s ≠ []) (rest : Text) :
    trimStart (s ++ rest) = s ++ rest := by
  have hstart := trimStart_eq_self h
  rw [trimStart, List.dropWhile_append, ← trimStart, hstart, if_neg]
  simpa using hne

theorem trim_trimStart (s : Text) : trim (trimStart s) = trim s := by
  rw [trim, trim, trimStart, trimStart, List.dropWhile_idempotent]

/-- Trimming the end keeps a character that is no blank, and what stands before it. -/
theorem trimEnd_append {c : Char} (hc : isBlank c = false) (s rest : Text) :
    trimEnd (s ++ c :: rest) = s ++ c :: trimEnd rest := by
  have hkept : (rest.reverse ++ c :: s.reverse).dropWhile isBlank =
      rest.reverse.dropWhile isBlank ++ c :: s.reverse := by
    rw [List.dropWhile_append, List.dropWhile_cons_of_neg (by simp [hc])]
    split
    · next h => rw [List.isEmpty_iff.1 h, List.nil_append]
    · rfl
  rw [trimEnd_eq, trimEnd_eq, List.reverse_append, List.reverse_cons, List.append_assoc,
    List.singleton_append, hkept]
  simp

theorem trim_append_singleton {c : Char} (hc : isBlank c = false) (s : Text) :
    trim (s ++ [c]) = trimStart s ++ [c] := by
  have hstart : trimStart (s ++ [c]) = trimStart s ++ [c] := by
    rw [trimStart, List.dropWhile_append, List.dropWhile_cons_of_neg (by simp [hc]), ← trimStart]
    split
    · next h => rw [List.isEmpty_iff.1 h, List.nil_append]
    · rfl
  rw [trim, hstart, trimEnd_append hc]
  rfl

theorem trim_append_of_isBlank {c : Char} (hc : isBlank c = true) (s : Text) :
    trim (s ++ [c]) = trim s := by
  rw [trim_eq, trim_eq, List.dropWhile_append]
  split
  · next h => simp [List.isEmpty_iff.1 h, hc]
  · rw [List.reverse_append, List.reverse_singleton, List.singleton_append,
      List.dropWhile_cons_of_pos hc]

/-- A text that is trimmed to nothing consists of blanks. -/
theorem isBlank_of_trim_eq_nil {s : Text} (h : trim s = []) : ∀ c ∈ s, isBlank c = true := by
  rw [trim_eq, List.reverse_eq_nil_iff, List.dropWhile_eq_nil_iff] at h
  rw [← List.dropWhile_eq_nil_iff]
  cases hd : s.dropWhile isBlank with
  | nil => rfl
  | cons c t =>
    have hfirst := List.head?_dropWhile_not isBlank s
    rw [hd] at hfirst h
    have hblank : isBlank c = true := h c (by simp)
    rw [show isBlank c = false from hfirst] at hblank
    cases hblank

theorem getLast?_of_suffix {s rest : Text} (hsuffix : rest <:+ s) (hne : rest ≠ []) :
    s.getLast? = rest.getLast? := by
  obtain ⟨front, rfl⟩ := hsuffix
  exact List.getLast?_append_of_ne_nil front hne

/-- A text that trimming keeps has no suffix of blanks but the empty one. -/
theorem eq_nil_of_suffix {s rest : Text} (hs : trim s = s) (hsuffix : rest <:+ s)
    (h : trim rest = []) : rest = [] := by
  refine Classical.byContradiction fun hne => ?_
  obtain ⟨c, hc⟩ := Option.ne_none_iff_exists'.1 (mt List.getLast?_eq_none_iff.1 hne)
  have hblank := isBlank_of_trim_eq_nil h c (List.mem_of_getLast? hc)
  rw [isBlank_getLast? hs ((getLast?_of_suffix hsuffix hne).trans hc)] at hblank
  cases hblank

/-- A suffix of a text that trimming keeps has no blanks at its end. -/
theorem trim_of_suffix {s rest : Text} (hs : trim s = s) (hsuffix : rest <:+ s) :
    trim rest = trimStart rest := by
  have hstart : trimStart rest <:+ s := (List.dropWhile_suffix isBlank).trans hsuffix
  refine trimEnd_eq_self fun c hc => isBlank_getLast? hs ?_
  rw [getLast?_of_suffix hstart (List.ne_nil_of_mem (List.mem_of_getLast? hc)), hc]

/-! ## Suffixes -/

theorem trimStart_suffix (s : Text) : trimStart s <:+ s := List.dropWhile_suffix _

theorem suffix_of_after? {start s rest : Text} (h : after? start s = some rest) : rest <:+ s :=
  ⟨start, (eq_append_of_after? h).symm⟩

theorem suffix_of_afterBlanks? {s rest : Text} (h : afterBlanks? s = some rest) : rest <:+ s := by
  unfold afterBlanks? at h
  split at h
  · split at h
    · cases h
      exact (trimStart_suffix _).trans (List.suffix_cons _ _)
    · cases h
  · cases h

variable {α : Type} {stop : Char} {read : Text → Option α}

theorem suffix_of_shortest? {s t : Text} {a : α} (h : shortest? stop read s = some (t, a)) :
    ∃ rest, read rest = some a ∧ rest <:+ s := by
  obtain ⟨rest, hr, hsuffix, -⟩ := exists_of_shortestFrom h
  exact ⟨rest, hr, hsuffix⟩

/-- What follows a longest stretch was read from a suffix of the text, unless it was given. -/
theorem suffix_of_longestFrom {best : Option (Text × α)} {seen s t : Text} {a : α}
    (h : longestFrom stop read best seen s = some (t, a)) :
    best = some (t, a) ∨ ∃ rest, read rest = some a ∧ rest <:+ s := by
  induction s generalizing best seen with
  | nil => exact .inl h
  | cons c s ih =>
    rw [longestFrom] at h
    split at h
    · exact .inl h
    · split at h
      · next b hb =>
        rcases ih h with heq | ⟨rest, hr, hsuffix⟩
        · cases heq
          split at hb
          · exact .inr ⟨s, hb, List.suffix_cons _ _⟩
          · cases hb
        · exact .inr ⟨rest, hr, hsuffix.trans (List.suffix_cons _ _)⟩
      · rcases ih h with heq | ⟨rest, hr, hsuffix⟩
        · exact .inl heq
        · exact .inr ⟨rest, hr, hsuffix.trans (List.suffix_cons _ _)⟩

theorem suffix_of_longest? {s t : Text} {a : α} (h : longest? stop read s = some (t, a)) :
    ∃ rest, read rest = some a ∧ rest <:+ s :=
  (suffix_of_longestFrom h).resolve_left (by simp)

/-! ## Parts that were written -/

/-- A text without a mark does not consist of parts before and after one. -/
theorem ne_append_of_not_mem {c : Char} {t : Text} (h : c ∉ t) (u v : Text) : t ≠ u ++ c :: v := by
  rintro rfl
  exact h (List.mem_append_right u List.mem_cons_self)

theorem bracketed?_append {opening closing : Char} {content : Text} (hne : content ≠ [])
    (h : ∀ c ∈ content, c ≠ opening ∧ c ≠ closing) (rest : Text) :
    bracketed? opening closing (opening :: content ++ closing :: rest) = some (content, rest) := by
  have hcontent : ∀ c ∈ content, (c != opening && c != closing) = true := by simpa using h
  obtain ⟨c, content, rfl⟩ := List.exists_cons_of_ne_nil hne
  rw [List.cons_append, bracketed?, if_pos rfl, List.takeWhile_append_of_pos hcontent,
    List.dropWhile_append_of_pos hcontent, List.takeWhile_cons_of_neg (by simp),
      List.dropWhile_cons_of_neg (by simp),
    List.append_nil]
  simp

theorem bracketed?_eq_none {opening closing c : Char} (h : c ≠ opening) (s : Text) :
    bracketed? opening closing (c :: s) = none := by
  rw [bracketed?, if_neg h]

theorem givingBlanksBack_of_trimStart {s : Text} {a : α} (h : read (trimStart s) = some a) :
    givingBlanksBack read s = some a := by
  induction s with
  | nil => exact h
  | cons c s ih =>
    rw [givingBlanksBack]
    cases hc : isBlank c with
    | true =>
      rw [trimStart_cons_of_isBlank hc] at h
      rw [if_pos rfl, ih h]
      rfl
    | false =>
      rw [trimStart_cons_of_not_isBlank hc] at h
      rw [if_neg Bool.false_ne_true, h]

theorem shortestFrom_append {seen t rest : Text} {a : α} (hne : seen ≠ [] ∨ t ≠ [])
    (hstop : stop ≠ '\n') (hline : '\n' ∉ t)
    (hearlier : ∀ u v, t = u ++ stop :: v → read (v ++ stop :: rest) = none)
    (h : read rest = some a) :
    shortestFrom stop read seen (t ++ stop :: rest) = some (seen.reverse ++ t, a) := by
  induction t generalizing seen with
  | nil =>
    have hseen : seen ≠ [] := by simpa using hne
    rw [List.nil_append, shortestFrom, if_neg hstop, if_pos ⟨rfl, hseen⟩, h, List.append_nil]
  | cons c t ih =>
    rw [List.mem_cons, not_or] at hline
    have hnone : (if c = stop ∧ seen ≠ [] then read (t ++ stop :: rest) else none) = none := by
      split
      · next hc => exact hearlier [] t (by rw [hc.1, List.nil_append])
      · rfl
    rw [List.cons_append, shortestFrom, if_neg (Ne.symm hline.1), hnone]
    have hseen : c :: seen ≠ [] ∨ t ≠ [] := .inl (List.cons_ne_nil c seen)
    have := ih hseen hline.2 fun u v huv => hearlier (c :: u) v (by rw [huv, List.cons_append])
    simpa using this

/-- The part written before a mark is the shortest stretch, if what follows no earlier mark can be
read. -/
theorem shortest?_append {t rest : Text} {a : α} (hne : t ≠ []) (hstop : stop ≠ '\n')
    (hline : '\n' ∉ t) (hearlier : ∀ u v, t = u ++ stop :: v → read (v ++ stop :: rest) = none)
    (h : read rest = some a) :
    shortest? stop read (t ++ stop :: rest) = some (t, a) :=
  shortestFrom_append (.inr hne) hstop hline hearlier h

/-- No longer stretch is found where what follows no mark can be read. -/
theorem longestFrom_eq_best {best : Option (Text × α)} {seen s : Text}
    (h : ∀ u v, s = u ++ stop :: v → read v = none) : longestFrom stop read best seen s = best := by
  induction s generalizing seen with
  | nil => rfl
  | cons c s ih =>
    have hnone : (if c = stop ∧ seen ≠ [] then read s else none) = none := by
      split
      · next hc => exact h [] s (by rw [hc.1, List.nil_append])
      · rfl
    rw [longestFrom, hnone]
    split
    · rfl
    · exact ih fun u v huv => h (c :: u) v (by rw [huv, List.cons_append])

theorem longestFrom_append {best : Option (Text × α)} {seen t rest : Text} {a : α}
    (hne : seen ≠ [] ∨ t ≠ []) (hstop : stop ≠ '\n') (hline : '\n' ∉ t)
    (hlater : ∀ u v, rest = u ++ stop :: v → read v = none) (h : read rest = some a) :
    longestFrom stop read best seen (t ++ stop :: rest) = some (seen.reverse ++ t, a) := by
  induction t generalizing best seen with
  | nil =>
    have hseen : seen ≠ [] := by simpa using hne
    rw [List.nil_append, longestFrom, if_neg hstop, if_pos ⟨rfl, hseen⟩, h, List.append_nil]
    exact longestFrom_eq_best hlater
  | cons c t ih =>
    rw [List.mem_cons, not_or] at hline
    have hrest (b : Option (Text × α)) :
        longestFrom stop read b (c :: seen) (t ++ stop :: rest) =
          some (seen.reverse ++ c :: t, a) := by
      have hseen : c :: seen ≠ [] ∨ t ≠ [] := .inl (List.cons_ne_nil c seen)
      rw [ih hseen hline.2, List.reverse_cons, List.append_assoc, List.singleton_append]
    rw [List.cons_append, longestFrom, if_neg (Ne.symm hline.1)]
    split <;> exact hrest _

/-- The part written before a mark is the longest stretch, if what follows no later mark can be
read. -/
theorem longest?_append {t rest : Text} {a : α} (hne : t ≠ []) (hstop : stop ≠ '\n')
    (hline : '\n' ∉ t) (hlater : ∀ u v, rest = u ++ stop :: v → read v = none)
    (h : read rest = some a) :
    longest? stop read (t ++ stop :: rest) = some (t, a) :=
  longestFrom_append (.inr hne) hstop hline hlater h

end LineScript.Text
