import LineScript.Proofs.Expression.Lexeme

/-!
# Cutting a text into tokens

`Token.Cuts` says what it means that a text is cut into tokens: it is made of blanks and of proper
lexemes, each at its column and not continued by what follows. Every text is cut up to its end or up
to a character at which neither a blank nor a lexeme begins, and that is what the scanner finds
(`Token.scan_cases`). So it loses nothing of the text (`Token.scan_partition`). Lexemes that are
written with a blank after each are found again, unless a `/` among them begins a reference together
with what is written after it (`Token.scan_joined_iff`).
-/

namespace LineScript

namespace Token

/-- The text before `rest` is cut into tokens; the first argument is the column at which it
begins. -/
inductive Cuts (rest : Text) : Nat → Text → List Token → Prop
  | nil (column : Nat) : Cuts rest column [] []
  | blank {column : Nat} {c : Char} {s : Text} {tokens : List Token} :
    Text.isBlank c = true → Cuts rest (column + 1) s tokens → Cuts rest column (c :: s) tokens
  | lexeme {column : Nat} {l : Lexeme} {s : Text} {tokens : List Token} :
    l.Proper → l.EndsBefore (s ++ rest) → Cuts rest (column + l.text.length) s tokens →
      Cuts rest column (l.text ++ s) (⟨l, column⟩ :: tokens)

/-- The text begins with neither a blank nor a lexeme, although it does not end. -/
def Stuck : Text → Prop
  | [] => False
  | c :: rest => Text.isBlank c = false ∧ ∀ l : Lexeme, l.Proper → ¬l.text <+: c :: rest

/-- The token stands at the column. -/
def Covers (t : Token) (column : Nat) : Prop :=
  t.column ≤ column ∧ column < t.column + t.lexeme.text.length

/-! ## What the scanner finds -/

theorem scanFrom_nil (column : Nat) : scanFrom column [] = .ok [] := by rw [scanFrom]

theorem scanFrom_blank {c : Char} (h : Text.isBlank c = true) (column : Nat) (s : Text) :
    scanFrom column (c :: s) = scanFrom (column + 1) s := by
  rw [scanFrom, if_pos h]

/-- The first lexeme of a text is its first token. -/
theorem scanFrom_of_scan? {column : Nat} {s rest : Text} {l : Lexeme}
    (h : Lexeme.scan? s = some (l, rest)) (hblank : ∀ c ∈ s.head?, Text.isBlank c = false) :
    scanFrom column s = (scanFrom (column + l.text.length) rest).map (⟨l, column⟩ :: ·) := by
  cases s with
  | nil => exact absurd (Lexeme.length_lt_of_scan? h) (Nat.not_lt_zero _)
  | cons c s =>
    rw [scanFrom, hblank c rfl, if_neg Bool.false_ne_true]
    split
    · next hnone =>
      rw [h] at hnone
      cases hnone
    · next hsome =>
      rw [h] at hsome
      cases hsome
      rfl

theorem scanFrom_stuck {c : Char} {s : Text} (h : Stuck (c :: s)) (column : Nat) :
    scanFrom column (c :: s) = .error (.expression none (.character c) (some column)) := by
  have hnone := Lexeme.scan?_eq_none_iff.2 h.2
  rw [scanFrom, h.1, if_neg Bool.false_ne_true]
  split
  · rfl
  · next hsome =>
    rw [hnone] at hsome
    cases hsome

/-- The scanner finds the tokens that a text is cut into, and goes on after them. -/
theorem Cuts.scanFrom_append {rest front : Text} {column : Nat} {tokens : List Token}
    (h : Cuts rest column front tokens) :
    scanFrom column (front ++ rest) =
      (scanFrom (column + front.length) rest).map (tokens ++ ·) := by
  induction h with
  | nil column =>
    show scanFrom column rest = (scanFrom column rest).map id
    cases scanFrom column rest <;> rfl
  | @blank column c s tokens hblank _ ih =>
    rw [List.cons_append, scanFrom_blank hblank, ih, List.length_cons, Nat.add_assoc,
      Nat.add_comm 1]
  | @lexeme column l s tokens hproper hends _ ih =>
    have hfirst : ∀ c ∈ (l.text ++ (s ++ rest)).head?, Text.isBlank c = false := by
      intro c hc
      rw [List.head?_append_of_ne_nil _ (Lexeme.text_ne_nil hproper)] at hc
      exact Lexeme.isBlank_head? hproper c hc
    rw [List.append_assoc, scanFrom_of_scan? (Lexeme.scan?_text_append hproper hends) hfirst, ih,
      List.length_append, Nat.add_assoc]
    cases scanFrom (column + (l.text.length + s.length)) rest <;> rfl

/-- Every text is cut up to its end, or up to where neither a blank nor a lexeme begins. -/
theorem exists_cuts (column : Nat) (s : Text) :
    ∃ front tokens rest, s = front ++ rest ∧ Cuts rest column front tokens ∧
      (rest = [] ∨ Stuck rest) := by
  obtain ⟨n, hn⟩ : ∃ n, s.length = n := ⟨_, rfl⟩
  induction n using Nat.strongRecOn generalizing column s with
  | ind n ih =>
    cases s with
    | nil => exact ⟨[], [], [], rfl, .nil column, .inl rfl⟩
    | cons c s =>
      by_cases hblank : Text.isBlank c = true
      · obtain ⟨front, tokens, rest, rfl, hcuts, hend⟩ :=
          ih s.length (by rw [← hn]; simp) (column + 1) s rfl
        exact ⟨c :: front, tokens, rest, rfl, .blank hblank hcuts, hend⟩
      · cases hscan : Lexeme.scan? (c :: s) with
        | none =>
          refine ⟨[], [], c :: s, rfl, .nil column, .inr ⟨by simpa using hblank, ?_⟩⟩
          exact Lexeme.scan?_eq_none_iff.1 hscan
        | some read =>
          obtain ⟨l, after⟩ := read
          obtain ⟨hproper, hends, hs⟩ := Lexeme.scan?_eq_some_iff.1 hscan
          have hlt := Lexeme.length_lt_of_scan? hscan
          obtain ⟨front, tokens, rest, rfl, hcuts, hend⟩ :=
            ih after.length (hn ▸ hlt) (column + l.text.length) after rfl
          exact ⟨l.text ++ front, ⟨l, column⟩ :: tokens, rest, by rw [hs, List.append_assoc],
            .lexeme hproper hends hcuts, hend⟩

/-- The scanner returns the tokens that a text is cut into, or fails at the character at which it
gets stuck. -/
theorem scan_cases (s : Text) :
    (∃ tokens, scan s = .ok tokens ∧ Cuts [] 1 s tokens) ∨
      ∃ front tokens c rest, s = front ++ c :: rest ∧ Cuts (c :: rest) 1 front tokens ∧
        Stuck (c :: rest) ∧
        scan s = .error (.expression none (.character c) (some (front.length + 1))) := by
  obtain ⟨front, tokens, rest, rfl, hcuts, hend⟩ := exists_cuts 1 s
  have hscan := hcuts.scanFrom_append
  rcases hend with rfl | hstuck
  · refine .inl ⟨tokens, ?_, by rwa [List.append_nil]⟩
    rw [scan, hscan, scanFrom_nil]
    simp [Except.map]
  · cases rest with
    | nil => exact hstuck.elim
    | cons c rest =>
      refine .inr ⟨front, tokens, c, rest, rfl, hcuts, hstuck, ?_⟩
      rw [scan, hscan, scanFrom_stuck hstuck, Nat.add_comm]
      rfl

theorem Cuts.scan_eq {s : Text} {tokens : List Token} (h : Cuts [] 1 s tokens) :
    scan s = .ok tokens := by
  have hscan := h.scanFrom_append
  rw [List.append_nil, scanFrom_nil] at hscan
  rw [scan, hscan]
  simp [Except.map]

theorem scan_eq_ok_iff {s : Text} {tokens : List Token} :
    scan s = .ok tokens ↔ Cuts [] 1 s tokens := by
  refine ⟨fun h => ?_, Cuts.scan_eq⟩
  rcases scan_cases s with ⟨tokens', hscan, hcuts⟩ | ⟨front, tokens', c, rest, -, -, -, hscan⟩
  · rw [hscan] at h
    cases h
    exact hcuts
  · rw [hscan] at h
    cases h

/-! ## Columns -/

variable {rest front : Text} {column : Nat} {tokens : List Token}

/-- What follows may be cut off. -/
theorem Cuts.of_rest (h : Cuts rest column front tokens) : Cuts [] column front tokens := by
  induction h with
  | nil column => exact .nil column
  | blank hblank _ ih => exact .blank hblank ih
  | lexeme hproper hends _ ih =>
    exact .lexeme hproper (by rw [List.append_nil]; exact hends.of_append) ih

/-- A token is proper and stands in the text at its column. -/
theorem Cuts.exists_of_mem (h : Cuts rest column front tokens) {t : Token} (ht : t ∈ tokens) :
    ∃ before after, front = before ++ (t.lexeme.text ++ after) ∧ t.column = column + before.length ∧
      t.lexeme.Proper := by
  induction h with
  | nil => cases ht
  | @blank column c s tokens hblank _ ih =>
    obtain ⟨before, after, rfl, hcolumn, hproper⟩ := ih ht
    refine ⟨c :: before, after, rfl, ?_, hproper⟩
    rw [hcolumn, List.length_cons]
    omega
  | @lexeme column l s tokens hl hends _ ih =>
    rcases List.mem_cons.1 ht with rfl | ht
    · exact ⟨[], s, rfl, rfl, hl⟩
    · obtain ⟨before, after, rfl, hcolumn, hproper⟩ := ih ht
      refine ⟨l.text ++ before, after, (List.append_assoc ..).symm, ?_, hproper⟩
      rw [hcolumn, List.length_append]
      omega

theorem Cuts.le_column (h : Cuts rest column front tokens) {t : Token} (ht : t ∈ tokens) :
    column ≤ t.column := by
  obtain ⟨before, after, -, hcolumn, -⟩ := h.exists_of_mem ht
  omega

/-- Each token ends before the next begins. -/
theorem Cuts.pairwise (h : Cuts rest column front tokens) :
    tokens.Pairwise fun t u => t.column + t.lexeme.text.length ≤ u.column := by
  induction h with
  | nil => exact .nil
  | blank _ _ ih => exact ih
  | lexeme _ _ htail ih => exact List.pairwise_cons.2 ⟨fun u hu => htail.le_column hu, ih⟩

/-- What stands in no token is blank. -/
theorem Cuts.isBlank_of_not_covers (h : Cuts rest column front tokens) {i : Nat} {c : Char}
    (hc : front[i]? = some c) (hi : ∀ t ∈ tokens, ¬t.Covers (column + i)) :
    Text.isBlank c = true := by
  induction h generalizing i with
  | nil => simp at hc
  | @blank column d s tokens hblank _ ih =>
    cases i with
    | zero =>
      cases hc
      exact hblank
    | succ i =>
      refine ih hc fun t ht => ?_
      rw [Nat.add_right_comm, Nat.add_assoc]
      exact hi t ht
  | @lexeme column l s tokens hl hends _ ih =>
    obtain ⟨hfirst, hi⟩ := List.forall_mem_cons.1 hi
    by_cases hlt : i < l.text.length
    · exact absurd ⟨Nat.le_add_right column i, Nat.add_lt_add_left hlt column⟩ hfirst
    · rw [List.getElem?_append_right (Nat.le_of_not_lt hlt)] at hc
      refine ih hc fun t ht => ?_
      have hcolumn : column + l.text.length + (i - l.text.length) = column + i := by omega
      rw [hcolumn]
      exact hi t ht

/-- A proper lexeme alone is one token. -/
theorem scan_text {l : Lexeme} (h : l.Proper) : scan l.text = .ok [⟨l, 1⟩] := by
  have hcuts : Cuts [] 1 (l.text ++ []) [⟨l, 1⟩] := .lexeme h (Lexeme.endsBefore_nil h) (.nil _)
  rw [List.append_nil] at hcuts
  exact hcuts.scan_eq

/-- Nothing of a text is lost. The tokens of a text are slices of it at their columns, each the only
token of its own text, none of them overlaps another, and all that is in no token is blank. If the
scanner fails, then at a character that is no blank, and what stands before it has tokens. -/
theorem scan_partition (s : Text) :
    (∀ tokens, scan s = .ok tokens →
      (∀ t ∈ tokens, t.lexeme.text ≠ [] ∧ 1 ≤ t.column ∧
        (s.drop (t.column - 1)).take t.lexeme.text.length = t.lexeme.text ∧
        scan t.lexeme.text = .ok [⟨t.lexeme, 1⟩]) ∧
      tokens.Pairwise (fun t u => t.column + t.lexeme.text.length ≤ u.column) ∧
      ∀ i c, s[i]? = some c → (∀ t ∈ tokens, ¬t.Covers (i + 1)) → Text.isBlank c = true) ∧
    ∀ f, scan s = .error f →
      ∃ c column, f = .expression none (.character c) (some column) ∧ 1 ≤ column ∧
        s[column - 1]? = some c ∧
        Text.isBlank c = false ∧ ∃ tokens, scan (s.take (column - 1)) = .ok tokens := by
  refine ⟨fun tokens h => ?_, fun f h => ?_⟩
  · have hcuts := scan_eq_ok_iff.1 h
    refine ⟨fun t ht => ?_, hcuts.pairwise, fun i c hc hi => ?_⟩
    · obtain ⟨before, after, rfl, hcolumn, hproper⟩ := hcuts.exists_of_mem ht
      refine ⟨Lexeme.text_ne_nil hproper, hcuts.le_column ht, ?_, scan_text hproper⟩
      rw [hcolumn, Nat.add_sub_cancel_left, List.drop_left, List.take_left]
    · refine hcuts.isBlank_of_not_covers hc fun t ht => ?_
      rw [Nat.add_comm]
      exact hi t ht
  · rcases scan_cases s with
      ⟨tokens, hscan, -⟩ | ⟨front, tokens, c, rest, rfl, hcuts, hstuck, hscan⟩
    · rw [hscan] at h
      cases h
    · rw [hscan] at h
      cases h
      refine ⟨c, front.length + 1, rfl, Nat.le_add_left 1 _, ?_, hstuck.1, tokens, ?_⟩
      · simp
      · rw [Nat.add_sub_cancel, List.take_left]
        exact hcuts.of_rest.scan_eq

/-- The numeral of `( .5e2` is one token in any place; the letter of `( 2e` without digits after it
is none. -/
theorem scan_partition_exponent :
    ("( .5e2".toList.drop 2).take 4 = ".5e2".toList ∧
      scan ".5e2".toList = .ok [⟨.number ⟨[], some ['5'], some ⟨'e', none, ['2']⟩⟩, 1⟩] ∧
      scan "( 2e".toList = .error (.expression none (.character 'e') (some 4)) ∧
      ∃ tokens, scan ("( 2e".toList.take 3) = .ok tokens := by
  have hscan : scan "( .5e2".toList =
      .ok [⟨.symbol .opening, 1⟩, ⟨.number ⟨[], some ['5'], some ⟨'e', none, ['2']⟩⟩, 3⟩] := by
    decide +kernel
  have hstuck : scan "( 2e".toList = .error (.expression none (.character 'e') (some 4)) := by
    decide +kernel
  obtain ⟨-, -, hslice, halone⟩ :=
    ((scan_partition _).1 _ hscan).1 _ (List.mem_cons_of_mem _ List.mem_cons_self)
  obtain ⟨c, column, heq, -, -, -, htokens⟩ := (scan_partition _).2 _ hstuck
  cases heq
  exact ⟨hslice, halone, hstuck, htokens⟩

/-! ## Writing lexemes -/

/-- The lexemes, written with a blank between them. -/
def joined (lexemes : List Lexeme) : Text := [' '].intercalate (lexemes.map Lexeme.text)

/-- The lexemes as tokens, at the columns at which they are written. -/
def placed (column : Nat) : List Lexeme → List Token
  | [] => []
  | l :: lexemes => ⟨l, column⟩ :: placed (column + l.text.length + 1) lexemes

/-- What is written after the first lexeme: nothing, or a blank and the other lexemes. -/
def afterFirst (lexemes : List Lexeme) : Text := if lexemes = [] then [] else ' ' :: joined lexemes

theorem joined_cons (l : Lexeme) (lexemes : List Lexeme) :
    joined (l :: lexemes) = l.text ++ afterFirst lexemes := by
  cases lexemes with
  | nil => simp [joined, afterFirst]
  | cons next lexemes => simp [joined, afterFirst, List.intercalate_cons_cons]

/-- A blank continues a `/` only: it may stand at the beginning of a name. -/
theorem endsBefore_afterFirst {l : Lexeme} (h : l.Proper) (lexemes : List Lexeme) :
    l.EndsBefore (afterFirst lexemes) ↔
      (l = .symbol .over → ∀ r : Reference, r.Proper → ¬r.text <+: joined (l :: lexemes)) := by
  cases l with
  | number n =>
    have hends : Numeral.Ends (afterFirst lexemes) := by
      unfold afterFirst
      split
      · exact Numeral.ends_nil
      · rintro c ⟨⟩
        decide
    exact iff_of_true (Numeral.scan?_text_append h hends) nofun
  | symbol x =>
    cases x with
    | plus | minus | times | modulo | opening | closing => exact iff_of_true trivial nofun
    | _ =>
      rw [joined_cons]
      exact ⟨fun hends _ => hends, fun hends => hends rfl⟩
  | quoted | reference | word => exact iff_of_true trivial nofun

/-- The first lexeme of a text that is cut at it. -/
theorem Cuts.head {l : Lexeme} (h : Cuts rest column (l.text ++ front) (⟨l, column⟩ :: tokens)) :
    l.EndsBefore (front ++ rest) ∧ Cuts rest (column + l.text.length) front tokens := by
  generalize htext : l.text ++ front = s at h
  cases h with
  | blank hblank htail =>
    have hle : column + 1 ≤ column := htail.le_column List.mem_cons_self
    omega
  | lexeme hproper hends htail =>
    rw [List.append_cancel_left htext]
    exact ⟨hends, htail⟩

/-- The blank that a text begins with belongs to no token. -/
theorem Cuts.of_blank {c : Char} (hc : Text.isBlank c = true)
    (h : Cuts rest column (c :: front) tokens) :
    Cuts rest (column + 1) front tokens := by
  generalize hs : c :: front = s at h
  cases h with
  | nil => cases hs
  | blank hblank htail =>
    cases hs
    exact htail
  | @lexeme _ l s tokens hproper hends htail =>
    have hfirst : c ∈ l.text.head? := by
      rw [← List.head?_append_of_ne_nil l.text (Lexeme.text_ne_nil hproper), ← hs]
      rfl
    rw [Lexeme.isBlank_head? hproper c hfirst] at hc
    cases hc

theorem cuts_afterFirst (column : Nat) (lexemes : List Lexeme) :
    Cuts [] column (afterFirst lexemes) (placed (column + 1) lexemes) ↔
      Cuts [] (column + 1) (joined lexemes) (placed (column + 1) lexemes) := by
  cases lexemes with
  | nil => exact iff_of_true (.nil column) (.nil (column + 1))
  | cons l lexemes => exact ⟨Cuts.of_blank (by decide), .blank (by decide)⟩

theorem cuts_joined_cons {l : Lexeme} (h : l.Proper) (column : Nat) (lexemes : List Lexeme) :
    Cuts [] column (joined (l :: lexemes)) (placed column (l :: lexemes)) ↔
      l.EndsBefore (afterFirst lexemes) ∧
        Cuts [] (column + l.text.length + 1) (joined lexemes)
          (placed (column + l.text.length + 1) lexemes) := by
  rw [joined_cons, placed, ← cuts_afterFirst]
  constructor
  · intro hcuts
    obtain ⟨hends, htail⟩ := hcuts.head
    rw [List.append_nil] at hends
    exact ⟨hends, htail⟩
  · rintro ⟨hends, htail⟩
    exact .lexeme h (by rwa [List.append_nil]) htail

/-- Written lexemes are cut at the blanks between them if and only if no `/` among them begins a
reference. -/
theorem cuts_joined {lexemes : List Lexeme} (h : ∀ l ∈ lexemes, l.Proper) (column : Nat) :
    Cuts [] column (joined lexemes) (placed column lexemes) ↔
      ∀ after, .symbol .over :: after <:+ lexemes →
        ∀ r : Reference, r.Proper → ¬r.text <+: joined (.symbol .over :: after) := by
  induction lexemes generalizing column with
  | nil => exact iff_of_true (.nil column) (by simp)
  | cons l lexemes ih =>
    obtain ⟨hl, hlexemes⟩ := List.forall_mem_cons.1 h
    rw [cuts_joined_cons hl, ih hlexemes, endsBefore_afterFirst hl]
    constructor
    · rintro ⟨hfirst, hlater⟩ after hsuffix
      rcases List.suffix_cons_iff.1 hsuffix with heq | hsuffix
      · cases heq
        exact hfirst rfl
      · exact hlater after hsuffix
    · refine fun hall =>
        ⟨?_, fun after hsuffix => hall after (hsuffix.trans (List.suffix_cons _ _))⟩
      rintro rfl
      exact hall lexemes (List.suffix_refl _)

/-- Lexemes that are written with a blank between them are read back, each at the column at which it
was written, if and only if no `/` among them begins a reference together with what is written after
it. -/
theorem scan_joined_iff {lexemes : List Lexeme} (h : ∀ l ∈ lexemes, l.Proper) :
    scan (joined lexemes) = .ok (placed 1 lexemes) ↔
      ∀ after, .symbol .over :: after <:+ lexemes →
        ∀ r : Reference, r.Proper → ¬r.text <+: joined (.symbol .over :: after) := by
  rw [scan_eq_ok_iff, cuts_joined h]

/-- A quotient of `8` by a quoted text, less an item of a list. -/
def quotient (content : Text) : List Lexeme :=
  [.number ⟨['8'], none, none⟩, .symbol .over, .quoted '"' content, .symbol .minus,
    .reference (.item "xs".toList ['0'])]

theorem proper_quotient {content : Text} (h : '"' ∉ content) :
    ∀ l ∈ quotient content, l.Proper := by
  have hnumber : Numeral.Proper ⟨['8'], none, none⟩ :=
    ⟨List.forall_mem_singleton.2 (by decide), nofun, .inl (List.cons_ne_nil _ _), nofun⟩
  have hitem : (Reference.item "xs".toList ['0']).Proper := by decide
  refine List.forall_mem_cons.2
    ⟨hnumber, List.forall_mem_cons.2 ⟨trivial, List.forall_mem_cons.2 ⟨⟨.inl rfl, h⟩, ?_⟩⟩⟩
  exact List.forall_mem_cons.2 ⟨trivial, List.forall_mem_singleton.2 hitem⟩

/-- The `/` of the reference is the first one after the sign, and no index follows it. -/
theorem scan_joined_iff_quotient :
    scan "8 / \"4<1>\" - /xs/<0>".toList = .ok (placed 1 (quotient "4<1>".toList)) := by
  have hread := (scan_joined_iff (proper_quotient (by decide : '"' ∉ "4<1>".toList))).2
  have hjoined : joined (quotient "4<1>".toList) = "8 / \"4<1>\" - /xs/<0>".toList := by decide
  rw [hjoined] at hread
  refine hread fun after hsuffix => ?_
  have hafter : after = (quotient "4<1>".toList).drop 2 := by
    simpa [quotient, List.suffix_cons_iff] using hsuffix
  rw [hafter]
  exact Reference.scan?_eq_none_iff.1 (by decide +kernel)

/-- The sign, the blank after it and the beginning of the quoted text are read as a reference. -/
theorem scan_joined_quotient_ne :
    (∀ l ∈ quotient "4/<1>".toList, l.Proper) ∧
      scan (joined (quotient "4/<1>".toList)) ≠ .ok (placed 1 (quotient "4/<1>".toList)) := by
  refine ⟨proper_quotient (by decide), fun h => ?_⟩
  exact absurd h (by decide +kernel)

end Token

end LineScript
