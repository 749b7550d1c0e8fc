import LineScript.Proofs.Block.Alike

/-!
# Lines that make no difference

Blank lines, comments and directives say nothing, but three scanners look at them: the one that
recognises statements, the one that counts braces, and the one that looks for a further branch. The
first passes over all of them, the second only over those without a brace at the end, and the third
only over blank ones. `Thins` drops lines that all three pass over, and lines that differ by that
are read as the same tree (`parse_of_thins`).

So blanks never matter (`parse_tidy`), and a comment or a directive does not matter as long as it
neither opens nor closes a block that it stands in and no further branch follows it
(`parse_insert`). Before a branch it ends the conditional, and with a brace at its end it counts as
one (`parse_insert_ne`).
-/

namespace LineScript

/-- A line that says nothing and neither opens nor closes a block. -/
structure Line.Idle (line : Text) : Prop where
  inert : isInert line = true
  not_opens : Block.opens line = false
  not_closes : Block.closes line = false

theorem Line.idle_nil : Idle [] := ⟨rfl, rfl, rfl⟩

theorem Line.ofTrimmed_of_isInert {line : Text} (h : isInert line = true) :
    ofTrimmed line = .statement (.skip line) := by
  rw [ofTrimmed, if_pos h]

/-- Whether the line is a comment or a directive. -/
def Line.isRemark (line : Text) : Bool :=
  "++".toList.isPrefixOf (Text.trim line) || "--".toList.isPrefixOf (Text.trim line) ||
    Features.isDirective line

theorem Line.isInert_of_isRemark {line : Text} (h : isRemark line = true) :
    isInert (Text.trim line) = true ∧ Text.trim line ≠ [] := by
  constructor
  · rw [isInert, Bool.or_assoc, Bool.or_assoc, ← Bool.or_assoc (List.isPrefixOf _ _)]
    exact Bool.or_eq_true_iff.2 (.inr h)
  · intro hblank
    rw [isRemark, Features.isDirective, hblank] at h
    cases h

namespace Node

variable {inner : List Text → Option (List Node)} {lines fewer rest : List Text} {line : Text}

/-- The second lines are the first without some that are idle. Of these, only blank ones stand
before a further branch. -/
inductive Thins : (lines fewer : List Text) → Prop
  | nil : Thins [] []
  | keep (line : Text) {lines fewer : List Text} : Thins lines fewer →
    Thins (line :: lines) (line :: fewer)
  | drop {line : Text} {lines fewer : List Text} : Line.Idle line →
    (line = [] ∨ branchFollows lines = false) → Thins lines fewer → Thins (line :: lines) fewer

theorem Thins.refl (lines : List Text) : Thins lines lines := by
  induction lines with
  | nil => exact .nil
  | cons line lines ih => exact .keep line ih

theorem Thins.append_left (h : Thins lines fewer) (front : List Text) :
    Thins (front ++ lines) (front ++ fewer) := by
  induction front with
  | nil => exact h
  | cons line front ih => exact .keep line ih

/-! ## What the scanners see -/

theorem branchFollows_of_append (h : branchFollows (lines ++ rest) = false) :
    branchFollows lines = false := by
  cases hd : lines.dropWhile List.isEmpty with
  | nil =>
    rw [branchFollows, hd]
    rfl
  | cons line tail =>
    rw [branchFollows, List.dropWhile_append, hd] at h
    rw [branchFollows, hd]
    exact h

/-- A line before the others matters for a further branch only if it is not blank. -/
theorem branchFollows_cons_eq (line : Text) (lines : List Text) :
    branchFollows (line :: lines) =
      if line = [] then branchFollows lines else (Line.ofTrimmed line).isBranch := by
  split
  · next h => rw [h, branchFollows_nil_cons]
  · next h => exact branchFollows_cons h lines

theorem branchFollows_inert (hinert : Line.isInert line = true) (hne : line ≠ [])
    (lines : List Text) :
    branchFollows (line :: lines) = false := by
  rw [branchFollows_cons hne, Line.ofTrimmed_of_isInert hinert]
  rfl

theorem Thins.branchFollows_eq (h : Thins lines fewer) :
    branchFollows lines = branchFollows fewer := by
  induction h with
  | nil => rfl
  | keep line h ih => rw [branchFollows_cons_eq, branchFollows_cons_eq, ih]
  | @drop line lines fewer hidle hplace h ih =>
    rw [← ih]
    rcases hplace with rfl | hplace
    · exact branchFollows_nil_cons lines
    · by_cases hne : line = []
      · rw [hne, branchFollows_nil_cons]
      · rw [branchFollows_inert hidle.inert hne, hplace]

/-- The branch that follows is the same line, and thinned lines follow it. -/
theorem Thins.exists_branch (h : Thins lines fewer) (hbranch : branchFollows lines = true) :
    ∃ line rest rest', lines.dropWhile List.isEmpty = line :: rest ∧
      fewer.dropWhile List.isEmpty = line :: rest' ∧ Thins rest rest' := by
  induction h with
  | nil => cases hbranch
  | @keep line lines fewer h ih =>
    by_cases hne : line = []
    · subst hne
      exact ih hbranch
    · exact ⟨line, lines, fewer, dropWhile_isEmpty_cons hne lines,
        dropWhile_isEmpty_cons hne fewer, h⟩
  | @drop line lines fewer hidle hplace h ih =>
    by_cases hne : line = []
    · subst hne
      exact ih hbranch
    · rw [branchFollows_inert hidle.inert hne] at hbranch
      cases hbranch

/-- Two blocks closed by the same line, one with thinned lines in it and after it. -/
structure SpanThins (s s' : Block.Span) : Prop where
  body : Thins s.body s'.body
  closing : s.closing = s'.closing
  rest : Thins s.rest s'.rest

/-- Idle lines do not count as braces, so both blocks end at the same line or not at all. -/
theorem Thins.split? (h : Thins lines fewer) (n : Nat) :
    (∃ s s', Block.split? n lines = some s ∧ Block.split? n fewer = some s' ∧ SpanThins s s') ∨
      (Block.split? n lines = none ∧ Block.split? n fewer = none) := by
  induction h generalizing n with
  | nil => exact .inr ⟨rfl, rfl⟩
  | @keep line lines fewer h ih =>
    have hcons (m : Nat) :
        (∃ s s', (Block.split? m lines).map (Block.Span.cons line) = some s ∧
            (Block.split? m fewer).map (Block.Span.cons line) = some s' ∧ SpanThins s s') ∨
          ((Block.split? m lines).map (Block.Span.cons line) = none ∧
            (Block.split? m fewer).map (Block.Span.cons line) = none) := by
      rcases ih m with ⟨s, s', hs, hs', hthins⟩ | ⟨hs, hs'⟩
      · rw [hs, hs']
        exact .inl ⟨_, _, rfl, rfl, .keep line hthins.body, hthins.closing, hthins.rest⟩
      · rw [hs, hs']
        exact .inr ⟨rfl, rfl⟩
    rw [Block.split?.eq_def, Block.split?.eq_def _ (line :: fewer)]
    dsimp only
    split
    · cases n with
      | zero => exact .inl ⟨_, _, rfl, rfl, .nil, rfl, h⟩
      | succ n => exact hcons _
    · exact hcons _
  | @drop line lines fewer hidle hplace h ih =>
    rw [Block.split?.eq_def]
    dsimp only
    rw [hidle.not_closes, hidle.not_opens, if_neg Bool.false_ne_true, if_neg Bool.false_ne_true]
    rcases ih n with ⟨s, s', hs, hs', hthins⟩ | ⟨hs, hs'⟩
    · -- No further branch follows in the block either, since none follows in the lines that it
      -- begins.
      have hbody : line = [] ∨ branchFollows s.body = false := by
        rw [Block.eq_of_split? hs] at hplace
        exact hplace.imp_right branchFollows_of_append
      rw [hs, hs']
      exact .inl ⟨_, s', rfl, rfl, .drop hidle hbody hthins.body, hthins.closing, hthins.rest⟩
    · rw [hs, hs']
      exact .inr ⟨rfl, rfl⟩

/-! ## What is read -/

/-- Thinned lines are read alike if thinned blocks are read as the same nodes. -/
theorem similar_thins (hinner : ∀ lines fewer, Thins lines fewer → inner lines = inner fewer) :
    Similar inner Thins True where
  cons line _ _ h := .keep line h
  split h := by
    rcases h.split? 0 with ⟨s, s', hs, hs', hthins⟩ | ⟨hs, hs'⟩
    · exact .inl ⟨s, s', hs, hs', hinner _ _ hthins.body, hthins.closing, hthins.rest⟩
    · exact .inr ⟨hs, fun _ => hs'⟩
  branch {lines fewer} h := by
    cases hbranch : branchFollows lines with
    | false => exact .inl ⟨rfl, h.branchFollows_eq ▸ hbranch⟩
    | true => exact .inr (h.exists_branch hbranch)

theorem ofLines_thins [Host] (hinner : ∀ lines fewer, Thins lines fewer → inner lines = inner fewer)
    (h : Thins lines fewer) : ofLines inner lines = ofLines inner fewer := by
  induction lines using lines_induction inner generalizing fewer with
  | nil =>
    cases h
    rfl
  | statement line rest s hline ih =>
    cases h with
    | keep _ hrest => rw [ofLines_of_statement hline, ofLines_of_statement hline, ih hrest]
    | drop hidle _ hrest => rw [ofLines_skip (Line.ofTrimmed_of_isInert hidle.inert), ih hrest]
  | header line rest header hline ih =>
    cases h with
    | @keep _ _ fewer hrest =>
      rw [ofLines_of_header hline, ofLines_of_header hline]
      have halike := (similar_thins hinner).ofHeader header hrest
      generalize ofHeader inner header fewer = second at halike
      cases hnode : ofHeader inner header rest with
      | ok r =>
        rw [hnode] at halike
        obtain ⟨left', rfl, hleft⟩ := halike.exists_ok
        rw [ofNode, ofNode, ih _ _ hnode hleft]
      | error e =>
        rw [hnode] at halike
        cases halike with
        | error => rfl
        | unclosed _ _ hstrict => exact absurd trivial hstrict
    | drop hidle =>
      rw [Line.ofTrimmed_of_isInert hidle.inert] at hline
      cases hline

theorem ofLinesWithin_thins [Host] (depth : Nat) (h : Thins lines fewer) :
    ofLinesWithin depth lines = ofLinesWithin depth fewer := by
  induction depth generalizing lines fewer with
  | zero => rfl
  | succ depth ih => exact ofLines_thins (fun _ _ => ih) h

/-- Lines that differ by lines that make no difference have the same tree. -/
theorem parse_of_thins [Host] (h : Thins (lines.map Text.trim) (fewer.map Text.trim)) :
    parse lines = parse fewer :=
  ofLinesWithin_thins Host.blocks h

/-! ## Blanks -/

/-- The lines without the blanks at their ends, and without those that are blank. -/
def tidy (lines : List Text) : List Text := (lines.map Text.trim).filter (!·.isEmpty)

theorem thins_filter (lines : List Text) : Thins lines (lines.filter (!·.isEmpty)) := by
  induction lines with
  | nil => exact .nil
  | cons line lines ih =>
    cases line with
    | nil => exact .drop Line.idle_nil (.inl rfl) ih
    | cons c line => exact .keep (c :: line) ih

theorem map_trim_tidy (lines : List Text) : (tidy lines).map Text.trim = tidy lines := by
  refine (List.map_congr_left fun line hline => ?_).trans (List.map_id _)
  obtain ⟨raw, -, rfl⟩ := List.mem_map.1 (List.mem_of_mem_filter hline)
  exact Text.trim_trim raw

/-- Blanks at the ends of lines, and blank lines, never change the tree. -/
theorem parse_tidy [Host] (lines : List Text) : parse (tidy lines) = parse lines := by
  refine (parse_of_thins ?_).symm
  rw [map_trim_tidy]
  exact thins_filter _

/-! ## Comments and directives -/

/-- After lines that are read to their end, a comment or a directive stands alone: the lines after
it are read as if nothing stood before them. -/
theorem parse_append_remark [Host] {a b : List Text} (hline : Line.isRemark line = true)
    (ha : readsToEnd a = true) :
    parse (a ++ line :: b) = (parse a).bind fun nodes => (parse b).map (nodes ++ ·) := by
  obtain ⟨hinert, hne⟩ := Line.isInert_of_isRemark hline
  have hskip : parse (line :: b) = parse b := by
    rw [parse_eq, List.map_cons, ofLines_skip (Line.ofTrimmed_of_isInert hinert), ← parse_eq]
  rw [← hskip]
  exact parse_append ha (branchFollows_inert hinert hne _)

/-- A comment or a directive may be put anywhere, but not before a further branch, and with a brace
at its end not into a block. -/
theorem parse_insert [Host] {line : Text} (hline : Line.isRemark line = true) (a b : List Text) :
    (Line.Idle (Text.trim line) ∨ readsToEnd a = true → branchFollows (b.map Text.trim) = false →
        parse (a ++ line :: b) = parse (a ++ b)) ∧
      (readsToEnd a = true →
        parse (a ++ line :: b) = (parse a).bind fun nodes => (parse b).map (nodes ++ ·)) := by
  refine ⟨fun hplace hb => ?_, parse_append_remark hline⟩
  rcases hplace with hidle | ha
  · refine parse_of_thins ?_
    rw [List.map_append, List.map_append, List.map_cons]
    exact (Thins.drop hidle (.inr hb) (.refl _)).append_left _
  · rw [parse_append_remark hline ha, parse_append ha hb]

/-- A comment with braces in it is put into a block, and a directive with a brace at its end before
a branch. -/
theorem parse_insert_comment :
    let heading := "If <1> =? <2> \x7b".toList
    let rest := ["log(1)", "\x7d"].map String.toList
    let comment := " ++ \x7bnote\x7d -".toList
    let directive := "!implement \x7d".toList
    let branch := ["", "Else \x7b", "\x7d"].map String.toList
    (Line.isRemark comment = true ∧ parse ([heading] ++ comment :: rest) =
      parse ([heading] ++ rest)) ∧
      Line.isRemark directive = true ∧ readsToEnd (heading :: rest) = true ∧
      parse (heading :: rest ++ directive :: branch) =
        (parse (heading :: rest)).bind fun nodes => (parse branch).map (nodes ++ ·) := by
  intro heading rest comment directive branch
  have hcomment : Line.isRemark comment = true := by decide +kernel
  have hdirective : Line.isRemark directive = true := by decide +kernel
  have hidle : Line.Idle (Text.trim comment) :=
    ⟨by decide +kernel, by decide +kernel, by decide +kernel⟩
  have hend : readsToEnd (heading :: rest) = true := by decide +kernel
  refine ⟨⟨hcomment, (parse_insert hcomment [heading] rest).1 (.inl hidle) (by decide +kernel)⟩,
    hdirective, hend, ?_⟩
  exact (parse_insert hdirective (heading :: rest) branch).2 hend

/-- Comments with a brace at their end that are put into a block, and a directive before a branch,
change the tree. -/
theorem parse_insert_ne :
    let heading := "If <1> =? <2> \x7b".toList
    let closing := ["\x7d".toList]
    let branch := ["Else \x7b", "\x7d"].map String.toList
    (∀ line ∈ ["++ \x7b", "-- \x7d"].map String.toList, Line.isRemark line = true ∧
        parse ([heading] ++ line :: closing) ≠ parse ([heading] ++ closing)) ∧
      Line.isRemark "!implement time".toList = true ∧
      parse (heading :: closing ++ "!implement time".toList :: branch) ≠
        parse (heading :: closing ++ branch) := by
  intro heading closing branch
  have hne {p q : List Text}
      (h : (parse p).map (List.map isUnclosed) ≠ (parse q).map (List.map isUnclosed)) :
        parse p ≠ parse q :=
    mt (congrArg _) h
  refine ⟨List.forall_mem_cons.2 ⟨⟨?_, hne ?_⟩, List.forall_mem_singleton.2 ⟨?_, hne ?_⟩⟩, ?_,
    hne ?_⟩
  all_goals decide +kernel

end Node

end LineScript
