import LineScript.Proofs.Expression.Integer
import Mathlib.Data.List.Infix

/-!
# The number at the beginning of a text

A real is read from the longest prefix that is a written number, an integer from the longest one
that is digits after an optional sign; what follows is left alone, and without such a prefix the
result is a NaN (`Number.read_longest`). Both readers scan, and a scanner that takes as much as it
can (`Numeric.TakesLongest`) reads the longest prefix (`Numeric.TakesLongest.reads`). That a prefix
may be followed by a line feed makes it longer and changes nothing else
(`Numeric.readsLongest_line`).
-/

namespace LineScript

namespace Text

/-- The longest prefix of its kind. -/
structure IsLongest (kind : Text → Prop) (s front : Text) : Prop where
  isPrefix : front <+: s
  isKind : kind front
  length_le : ∀ other, other <+: s → kind other → other.length ≤ front.length

/-- What is read from a text is the value of its longest prefix of a kind, and `nothing` exactly if
no prefix is of that kind. -/
structure ReadsLongest {α : Type} (kind : Text → Prop) (value : Text → Option α) (nothing : α)
    (s : Text) (a : α) : Prop where
  value_eq : ∀ front, IsLongest kind s front → value front = some a
  exists_isLongest : a ≠ nothing → ∃ front, IsLongest kind s front
  eq_nothing_iff : a = nothing ↔ ∀ front, front <+: s → ¬ kind front

variable {kind : Text → Prop} {s front other : Text}

theorem eq_of_isPrefix (h : front <+: s) (h' : other <+: s)
    (hlength : front.length = other.length) : front = other :=
  (List.prefix_of_prefix_length_le h h' hlength.le).eq_of_length hlength

theorem IsLongest.eq (h : IsLongest kind s front) (h' : IsLongest kind s other) : front = other :=
  eq_of_isPrefix h.isPrefix h'.isPrefix
    (Nat.le_antisymm (h'.length_le _ h.isPrefix h.isKind) (h.length_le _ h'.isPrefix h'.isKind))

/-- If there is a prefix of a kind, there is a longest one. -/
theorem exists_isLongest (h : ∃ front, front <+: s ∧ kind front) :
    ∃ front, IsLongest kind s front := by
  induction s using List.reverseRecOn with
  | nil =>
    obtain ⟨front, hfront, hkind⟩ := h
    exact ⟨front, hfront, hkind, fun other hother _ => by simp [List.prefix_nil.1 hother]⟩
  | append_singleton s c ih =>
    by_cases hwhole : kind (s ++ [c])
    · exact ⟨s ++ [c], List.prefix_rfl, hwhole, fun other hother _ => hother.length_le⟩
    · -- The whole text is not of the kind, so the prefixes that are one are those of the text
      -- without its end.
      have hproper : ∀ {front : Text}, front <+: s ++ [c] → kind front → front <+: s := by
        intro front hfront hkind
        refine (List.prefix_concat_iff.1 hfront).resolve_left ?_
        rintro rfl
        exact hwhole hkind
      obtain ⟨front, hfront, hkind⟩ := h
      obtain ⟨longest, hlongest⟩ := ih ⟨front, hproper hfront hkind, hkind⟩
      exact ⟨longest, hlongest.isPrefix.trans (List.prefix_append s [c]), hlongest.isKind,
        fun other hother hkind => hlongest.length_le other (hproper hother hkind) hkind⟩

theorem ReadsLongest.intro {α : Type} {value : Text → Option α} {nothing a : α}
    (hvalue : ∀ front, IsLongest kind s front → value front = some a)
    (hnothing : a = nothing ↔ ∀ front, front <+: s → ¬ kind front) :
    ReadsLongest kind value nothing s a where
  value_eq := hvalue
  exists_isLongest hne := by
    rw [Ne, hnothing] at hne
    push Not at hne
    exact Text.exists_isLongest hne
  eq_nothing_iff := hnothing

end Text

namespace Numeric

/-- The texts of written numbers. -/
def IsNumeric (s : Text) : Prop := ∃ n : Numeric, n.Proper ∧ n.text = s

/-- The texts of written numbers, a line feed after them allowed. -/
def IsLine (s : Text) : Prop := ∃ n : Numeric, n.Proper ∧ (n.text = s ∨ n.text ++ ['\n'] = s)

/-- The texts of integers, digits after an optional sign. -/
def IsInteger (s : Text) : Prop :=
  ∃ (sign : Option Sign) (digits : Text), digits.IsDigits ∧ digits ≠ [] ∧
    Sign.optionText sign ++ digits = s

/-- The double that a text denotes, blanks around it apart. -/
def double? (s : Text) : Option Double := (ofText? (Text.trim s)).map toDouble

/-- The number that a text denotes, blanks around it apart. -/
def number? (s : Text) : Option Number := (ofText? (Text.trim s)).map toNumber

theorem ofText?_trim_text {n : Numeric} (h : n.Proper) : ofText? (Text.trim n.text) = some n :=
  ofText?_eq_some_iff.2 ⟨h, (trim_text h).symm⟩

/-! ## Scanners -/

/-- What a scanner takes from the front of a text is of a kind, and no text of that kind there is
longer. -/
structure TakesLongest (kind : Text → Prop) (scan : Text → Option (Numeric × Text)) : Prop where
  sound : ∀ {s rest : Text} {n : Numeric}, scan s = some (n, rest) →
    s = n.text ++ rest ∧ n.Proper ∧ kind n.text
  greedy : ∀ {front : Text} (rest : Text), kind front →
    ∃ n r, scan (front ++ rest) = some (n, r) ∧ front.length ≤ n.text.length

namespace TakesLongest

variable {kind : Text → Prop} {scan : Text → Option (Numeric × Text)} {s : Text}

theorem isLongest_of_scan (h : TakesLongest kind scan) {n : Numeric} {rest : Text}
    (hscan : scan s = some (n, rest)) :
    Text.IsLongest kind s n.text where
  isPrefix := ⟨rest, (h.sound hscan).1.symm⟩
  isKind := (h.sound hscan).2.2
  length_le := by
    rintro other ⟨more, rfl⟩ hkind
    obtain ⟨m, r, hm, hle⟩ := h.greedy more hkind
    rw [hm] at hscan
    cases hscan
    exact hle

theorem not_kind_of_scan (h : TakesLongest kind scan) (hscan : scan s = none) :
    ∀ front, front <+: s → ¬ kind front := by
  rintro front ⟨rest, rfl⟩ hkind
  obtain ⟨n, r, hsome, -⟩ := h.greedy rest hkind
  rw [hsome] at hscan
  cases hscan

/-- The value of what is taken is the value of the longest prefix, as long as no number has the
value for nothing. -/
theorem reads (h : TakesLongest kind scan) {α : Type} {value : Numeric → α} {nothing : α}
    (hne : ∀ n, value n ≠ nothing) (s : Text) :
    Text.ReadsLongest kind (fun t => (ofText? (Text.trim t)).map value) nothing s
      ((scan s).elim nothing fun result => value result.1) := by
  cases hscan : scan s with
  | none =>
    have hnone := h.not_kind_of_scan hscan
    exact .intro (fun front hfront => absurd hfront.isKind (hnone front hfront.isPrefix))
      (iff_of_true rfl hnone)
  | some result =>
    obtain ⟨n, rest⟩ := result
    have hlongest := h.isLongest_of_scan hscan
    refine .intro (fun front hfront => ?_) (iff_of_false (hne n) fun hnone => ?_)
    · rw [hfront.eq hlongest, ofText?_trim_text (h.sound hscan).2.1]
      rfl
    · exact hnone _ hlongest.isPrefix hlongest.isKind

end TakesLongest

theorem takesLongest_scan? : TakesLongest IsNumeric scan? where
  sound hscan := by
    obtain ⟨hs, hproper⟩ := eq_append_of_scan? hscan
    exact ⟨hs, hproper, _, hproper, rfl⟩
  greedy rest := by
    rintro ⟨n, hproper, rfl⟩
    exact exists_scan?_text_append hproper rest

/-- The integer a text begins with, and the rest. -/
def scanInteger? (s : Text) : Option (Numeric × Text) :=
  let signed := Sign.scan s
  let digits := signed.2.takeWhile Text.isDigit
  if digits.isEmpty then none else some (whole signed.1 digits, signed.2.dropWhile Text.isDigit)

theorem takesLongest_scanInteger? : TakesLongest IsInteger scanInteger? where
  sound {s rest n} hscan := by
    unfold scanInteger? at hscan
    dsimp only at hscan
    split at hscan
    · cases hscan
    · next hempty =>
      cases hscan
      have hdigits := Text.isDigits_takeWhile (Sign.scan s).2
      have hne : (Sign.scan s).2.takeWhile Text.isDigit ≠ [] := by simpa using hempty
      refine ⟨?_, proper_whole hdigits hne, _, _, hdigits, hne, (text_whole _ _).symm⟩
      rw [text_whole, List.append_assoc, List.takeWhile_append_dropWhile,
        Sign.optionText_append_scan]
  greedy rest := by
    rintro ⟨sign, digits, hdigits, hne, rfl⟩
    have htake : (digits ++ rest).takeWhile Text.isDigit = digits ++ rest.takeWhile Text.isDigit :=
      List.takeWhile_append_of_pos hdigits
    refine ⟨whole sign (digits ++ rest.takeWhile Text.isDigit),
      (digits ++ rest).dropWhile Text.isDigit, ?_, ?_⟩
    · rw [List.append_assoc, scanInteger?, Sign.scan_optionText_digits sign hdigits hne]
      dsimp only
      rw [htake, if_neg (by simp [hne])]
    · rw [text_whole]
      simp

/-! ## A line feed after the number -/

/-- The longest prefix that is a number, when one with a line feed after it is longest. -/
theorem isLongest_trim {s front : Text} (h : Text.IsLongest IsLine s front) :
    Text.IsLongest IsNumeric s (Text.trim front) := by
  obtain ⟨n, hn, htext⟩ := h.isKind
  have htrim : Text.trim front = n.text := by
    rcases htext with rfl | rfl
    · exact trim_text hn
    · rw [Text.trim_append_of_isBlank (by decide), trim_text hn]
  have hfront : n.text <+: front := by
    rcases htext with rfl | rfl
    · exact List.prefix_rfl
    · exact List.prefix_append _ _
  rw [htrim]
  refine ⟨hfront.trans h.isPrefix, ⟨n, hn, rfl⟩, ?_⟩
  rintro other hother ⟨m, hm, rfl⟩
  have hle : m.text.length ≤ front.length := h.length_le _ hother ⟨m, hm, .inl rfl⟩
  rcases htext with rfl | rfl
  · exact hle
  · -- A number as long as the line would be the line, but there is no line feed in a number.
    rw [List.length_append, List.length_singleton] at hle
    have hne : m.text.length ≠ n.text.length + 1 := by
      intro hlength
      have heq := Text.eq_of_isPrefix hother h.isPrefix (by simpa using hlength)
      have hblank := isBlank_of_mem hm '\n' (by simp [heq])
      exact absurd hblank (by decide)
    omega

theorem readsLongest_line {s : Text} {d : Double}
    (h : Text.ReadsLongest IsNumeric double? .nan s d) :
    Text.ReadsLongest IsLine double? .nan s d := by
  refine .intro (fun front hfront => ?_) (h.eq_nothing_iff.trans ?_)
  · rw [← h.value_eq _ (isLongest_trim hfront), double?, double?, Text.trim_trim]
  · constructor
    · rintro hnone front hfront ⟨n, hn, rfl | rfl⟩
      · exact hnone _ hfront ⟨n, hn, rfl⟩
      · exact hnone _ ((List.prefix_append _ _).trans hfront) ⟨n, hn, rfl⟩
    · rintro hnone front hfront ⟨n, hn, rfl⟩
      exact hnone _ hfront ⟨n, hn, .inl rfl⟩

/-! ## No written number is a NaN -/

theorem toDouble_ne_nan (n : Numeric) : n.toDouble ≠ .nan := by
  intro h
  have hequal := equal_toNumber n
  rw [h] at hequal
  cases hn : n.toNumber <;> simp [hn, Number.equal, Double.equal, Double.units?] at hequal

theorem toNumber_ne_nan (n : Numeric) : n.toNumber ≠ .nan := by
  intro h
  have hequal := equal_toNumber n
  rw [h] at hequal
  cases hd : n.toDouble <;> simp [hd, Number.nan, Number.equal, Double.equal] at hequal

end Numeric

namespace Number

theorem readReal_eq (s : Text) :
    readReal s = (Numeric.scan? (Text.trimStart s)).elim .nan fun result => result.1.toDouble := by
  unfold readReal
  split
  · next h => rw [h, Option.elim_some]
  · next h => rw [h, Option.elim_none]

theorem readInteger_eq (s : Text) :
    readInteger s = (Numeric.scanInteger? (Text.trimStart s)).elim .nan fun result =>
      result.1.toNumber := by
  unfold readInteger Numeric.scanInteger?
  dsimp only
  split <;> rfl

/-- A real is read from the longest prefix, after the leading blanks, that is a written number,
whether or not a line feed may follow it there; an integer from the longest one that is digits after
an optional sign. The result is a NaN exactly if there is no such prefix. -/
theorem read_longest (s : Text) :
    Text.ReadsLongest Numeric.IsNumeric Numeric.double? .nan (Text.trimStart s) (readReal s) ∧
      Text.ReadsLongest Numeric.IsLine Numeric.double? .nan (Text.trimStart s) (readReal s) ∧
      Text.ReadsLongest Numeric.IsInteger Numeric.number? .nan (Text.trimStart s)
        (readInteger s) := by
  have hreal : Text.ReadsLongest Numeric.IsNumeric Numeric.double? .nan (Text.trimStart s)
      (readReal s) := by
    rw [readReal_eq]
    exact Numeric.takesLongest_scan?.reads Numeric.toDouble_ne_nan _
  refine ⟨hreal, Numeric.readsLongest_line hreal, ?_⟩
  rw [readInteger_eq]
  exact Numeric.takesLongest_scanInteger?.reads Numeric.toNumber_ne_nan _

/-- The letter and the sign after the exponent begin no second one, and the point has no digits
after it. -/
theorem read_longest_exponent :
    Text.IsLongest Numeric.IsNumeric (Text.trimStart " -5.e3e+".toList) "-5.e3".toList ∧
      Numeric.double? "-5.e3".toList = some (readReal " -5.e3e+".toList) ∧
      Text.IsLongest Numeric.IsInteger (Text.trimStart " -5.e3e+".toList) "-5".toList ∧
      Numeric.number? "-5".toList = some (readInteger " -5.e3e+".toList) := by
  obtain ⟨hreal, -, hinteger⟩ := read_longest " -5.e3e+".toList
  let real : Numeric := ⟨some .minus, .numeral ⟨['5'], some [], some ⟨'e', none, ['3']⟩⟩⟩
  have hscan : Numeric.scan? (Text.trimStart " -5.e3e+".toList) =
      some (real, "e+".toList) := by decide
  have hscan' : Numeric.scanInteger? (Text.trimStart " -5.e3e+".toList) =
      some (Numeric.whole (some .minus) ['5'], ".e3e+".toList) := by decide
  have hlongest := Numeric.takesLongest_scan?.isLongest_of_scan hscan
  have hlongest' := Numeric.takesLongest_scanInteger?.isLongest_of_scan hscan'
  exact ⟨hlongest, hreal.value_eq _ hlongest, hlongest', hinteger.value_eq _ hlongest'⟩

end Number

end LineScript
