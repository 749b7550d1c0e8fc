import LineScript.Proofs.Line.Part
import LineScript.Proofs.Line.Print
import LineScript.Proofs.Run.Agreement
import LineScript.Proofs.Run.Append
import LineScript.Proofs.Text.Keyword

/-!
# What the fast dialect passes over

The fast dialect passes over the declaration of a group wherever it stands in a line, also inside a
text or a block header (`Line.HoldsGroup`, which `Line.holdsGroup_iff` decides). The declaration is
looked for before the line is read as a statement. So a line that the standard dialect executes is
dropped exactly if it holds one; `Session.runFast_recognised` says so, and that otherwise it is the
same statement in both dialects, or stops the run as a block or a loop does.
-/

namespace LineScript

namespace Line

open Text

/-- The kinds of groups, with what follows them in a declaration. -/
def groups : List Text :=
  ["action(grouplet)".toList, "runner(grouplet)".toList, "storage(grouplet)".toList]

/-- Somewhere in the text stand an equals sign, blanks, and a group in any case. -/
def HoldsGroup (s : Text) : Prop :=
  ∃ before blanks word rest, s = before ++ '=' :: (blanks ++ (word ++ rest)) ∧
    (∀ c ∈ blanks, isBlank c = true) ∧ ∃ group ∈ groups, IsWritten group word

theorem declaresGroup_cons (r : Text) :
    declaresGroup ('=' :: r) = groups.any fun group =>
      (afterAnyCase? group (trimStart r)).isSome := by
  simp only [declaresGroup, groups, List.any_cons, List.any_nil, ← afterAnyCase?_append]
  rfl

theorem declaresGroup_iff {s : Text} :
    declaresGroup s = true ↔ ∃ blanks word rest, s = '=' :: (blanks ++ (word ++ rest)) ∧
      (∀ c ∈ blanks, isBlank c = true) ∧ ∃ group ∈ groups, IsWritten group word := by
  constructor
  · intro h
    have hfirst : ∃ r, s = '=' :: r := by
      unfold declaresGroup at h
      split at h
      · exact ⟨_, rfl⟩
      · cases h
    obtain ⟨r, rfl⟩ := hfirst
    rw [declaresGroup_cons, List.any_eq_true] at h
    obtain ⟨group, hgroup, hfound⟩ := h
    obtain ⟨rest, hrest⟩ := Option.isSome_iff_exists.1 hfound
    obtain ⟨word, hstart, hword⟩ := afterAnyCase?_eq_some_iff.1 hrest
    refine ⟨r.takeWhile isBlank, word, rest, ?_, fun c hc => List.mem_takeWhile_imp hc, group,
      hgroup, hword⟩
    rw [← hstart, trimStart, List.takeWhile_append_dropWhile]
  · rintro ⟨blanks, word, rest, rfl, hblanks, group, hgroup, hword⟩
    have hfirst : ∃ c ∈ group.head?, isBlank c = false := by
      simp only [groups, List.mem_cons, List.not_mem_nil, or_false] at hgroup
      rcases hgroup with rfl | rfl | rfl <;> exact ⟨_, rfl, by decide⟩
    rw [declaresGroup_cons, List.any_eq_true]
    refine ⟨_, hgroup, ?_⟩
    rw [trimStart_append_written hfirst hblanks hword,
      afterAnyCase?_eq_some_iff.2 ⟨word, rfl, hword⟩]
    rfl

theorem holdsGroup_iff_suffix {s : Text} :
    holdsGroup s = true ↔ ∃ t, t <:+ s ∧ declaresGroup t = true := by
  induction s with
  | nil =>
    refine iff_of_false Bool.false_ne_true ?_
    rintro ⟨t, ht, hgroup⟩
    rw [List.suffix_nil.1 ht] at hgroup
    cases hgroup
  | cons c s ih =>
    rw [holdsGroup, Bool.or_eq_true, ih]
    constructor
    · rintro (h | ⟨t, ht, hgroup⟩)
      · exact ⟨c :: s, List.suffix_refl _, h⟩
      · exact ⟨t, ht.trans (List.suffix_cons c s), hgroup⟩
    · rintro ⟨t, ht, hgroup⟩
      rcases List.suffix_cons_iff.1 ht with rfl | ht
      · exact .inl hgroup
      · exact .inr ⟨t, ht, hgroup⟩

/-- The search for a group finds one if there is one. -/
theorem holdsGroup_iff {s : Text} : holdsGroup s = true ↔ HoldsGroup s := by
  rw [holdsGroup_iff_suffix]
  constructor
  · rintro ⟨t, ⟨before, rfl⟩, hgroup⟩
    obtain ⟨blanks, word, rest, rfl, hrest⟩ := declaresGroup_iff.1 hgroup
    exact ⟨before, blanks, word, rest, rfl, hrest⟩
  · rintro ⟨before, blanks, word, rest, rfl, hrest⟩
    exact ⟨_, List.suffix_append before _, declaresGroup_iff.2 ⟨blanks, word, rest, rfl, hrest⟩⟩

instance (s : Text) : Decidable (HoldsGroup s) := decidable_of_iff _ holdsGroup_iff

end Line

/-! ## Lines that the standard dialect executes -/

/-- Whether the statement is a `log`, a pause or an assignment, which both dialects have. -/
def Statement.isShared : Statement → Bool
  | .log _ _ | .wait _ _ | .assign _ _ _ | .assignList _ _ _ => true
  | _ => false

/-- Whether the line is the header of a block or a loop, which the fast dialect does not have. -/
def Line.isControl : Line → Bool
  | .header _ => true
  | .statement s => !s.isSimple

namespace Line

variable {s : Text} {statement : Statement}

theorem simple?_of_isShared (h : ofTrimmed s = .statement statement)
    (hshared : statement.isShared = true) :
    simple? s = some statement := by
  revert hshared
  refine statement_induction
    (P := fun s statement => statement.isShared = true → simple? s = some statement)
    ?_ ?_ ?_ ?_ ?_ h
  · nofun
  · nofun
  · nofun
  · exact fun _ _ hsimple _ => hsimple
  · exact fun _ _ _ _ _ _ => nofun

theorem exists_forLoop?_of_not_isSimple (h : ofTrimmed s = .statement statement)
    (hloop : statement.isSimple = false) :
    ∃ counter body, forLoop? s = some (counter, body) := by
  revert hloop
  refine statement_induction
    (P := fun s statement => statement.isSimple = false →
      ∃ counter body, forLoop? s = some (counter, body))
    ?_ ?_ ?_ ?_ ?_ h
  · nofun
  · nofun
  · nofun
  · intro s statement hsimple hloop
    have hfast := (isStandard_of_simple? hsimple).2
    cases statement with
    | forLoop => cases hfast
    | skip | assign | assignList | declare | log | wait | invalid => cases hloop
  · exact fun _ counter body _ hbody _ _ => ⟨counter, body, hbody⟩

/-- A line that has a form is structural only if it holds a group, and it declares no global
name. -/
theorem BeginsWith.isStructural_eq {α : Type} {read : Text → Option α} {firsts : List Char} {a : α}
    (h : BeginsWith read firsts) (hfirsts : firsts ⊆ ['I', 'E', 'D', 'F', 'l', 'w', '[', 'L', '/'])
    (ha : read s = some a) : isStructural s = holdsGroup s ∧ declaration? s = none := by
  obtain ⟨c, hc, hs⟩ := h s a ha
  obtain ⟨t, rfl⟩ := List.head?_eq_some_iff.1 hs
  have hform := hfirsts hc
  simp only [List.mem_cons, List.not_mem_nil, or_false] at hform
  have hstructure : "Process(".toList.isPrefixOf (c :: t) = false ∧
      "Connect(".toList.isPrefixOf (c :: t) = false ∧
      Text.afterAnyCase? "glb".toList (c :: t) = none := by
    rcases hform with rfl | rfl | rfl | rfl | rfl | rfl | rfl | rfl | rfl <;> exact ⟨rfl, rfl, rfl⟩
  rw [isStructural, declaration?, hstructure.1, hstructure.2.1, hstructure.2.2, Bool.or_false,
    Bool.or_false]
  exact ⟨rfl, rfl⟩

end Line

namespace Statement

variable {line : Text}

/-- A line that has a form is skipped if it holds a group; else it is one of the statements of both
dialects. -/
theorem ofFastText_of_beginsWith {α : Type} {read : Text → Option α} {firsts : List Char} {a : α}
    (h : Line.BeginsWith read firsts)
    (hfirsts : firsts ⊆ ['I', 'E', 'D', 'F', 'l', 'w', '[', 'L', '/'])
    (ha : read (Text.trim line) = some a) :
    ofFastText line =
      if Line.holdsGroup (Text.trim line) then .skip (Text.trim line)
      else (Line.simple? (Text.trim line)).getD (.invalid (Text.trim line) .unknown) := by
  have hinert := h.isInert_eq_false hfirsts ha
  obtain ⟨hstructural, hdeclaration⟩ := h.isStructural_eq hfirsts ha
  rw [ofFastText]
  simp only [hinert, hstructural, hdeclaration, Bool.false_or, Line.fastSimple?_eq_simple?]
  rfl

theorem ofFastText_of_isShared {statement : Statement} (h : Line.ofText line = .statement statement)
    (hshared : statement.isShared = true) :
    ofFastText line =
      if Line.holdsGroup (Text.trim line) then .skip (Text.trim line) else statement := by
  have hsimple := Line.simple?_of_isShared h hshared
  rw [ofFastText_of_beginsWith Line.beginsWith_simple? (by simp) hsimple, hsimple]
  rfl

theorem ofFastText_of_isControl (h : (Line.ofText line).isControl = true) :
    ofFastText line =
      if Line.holdsGroup (Text.trim line) then .skip (Text.trim line)
      else .invalid (Text.trim line) .unknown := by
  cases hline : Line.ofText line with
  | header header =>
    obtain ⟨-, rest, hhead, -⟩ := Line.exists_head?_of_header hline
    rw [ofFastText_of_beginsWith Line.beginsWith_head? (by simp) hhead,
      Line.simple?_eq_none_of_head? hhead]
    rfl
  | statement statement =>
    rw [hline, Line.isControl, Bool.not_eq_true'] at h
    obtain ⟨counter, body, hloop⟩ := Line.exists_forLoop?_of_not_isSimple hline h
    rw [ofFastText_of_beginsWith Line.beginsWith_forLoop? (by simp) hloop,
      Line.beginsWith_forLoop?.eq_none_of_eq_some Line.beginsWith_simple? (by simp) hloop]
    rfl

/-- A line that holds a group is skipped, whatever else it is. -/
theorem ofFastText_of_holdsGroup (h : Line.HoldsGroup (Text.trim line)) :
    ofFastText line = .skip (Text.trim line) := by
  have hstructural : Line.isStructural (Text.trim line) = true := by
    rw [Line.isStructural, Line.holdsGroup_iff.2 h]
    rfl
  rw [ofFastText]
  simp only [hstructural, Bool.or_true, if_true]

/-- A line that is something else unless it holds a group is skipped exactly if it holds one. -/
theorem skip_iff_holdsGroup {other : Statement} (hother : ∀ text, other ≠ .skip text)
    (h : ofFastText line = if Line.holdsGroup (Text.trim line) then
      .skip (Text.trim line) else other) :
    ((∃ text, ofFastText line = .skip text) ↔ Line.HoldsGroup (Text.trim line)) ∧
      (¬Line.HoldsGroup (Text.trim line) → ofFastText line = other) := by
  by_cases hgroup : Line.HoldsGroup (Text.trim line)
  · exact ⟨iff_of_true ⟨_, ofFastText_of_holdsGroup hgroup⟩ hgroup,
      fun hnone => absurd hgroup hnone⟩
  · rw [if_neg (mt Line.holdsGroup_iff.1 hgroup)] at h
    rw [h]
    refine ⟨iff_of_false ?_ hgroup, fun _ => rfl⟩
    rintro ⟨text, hskip⟩
    exact hother text hskip

end Statement

namespace Session

theorem runFast_line [Host] (rules : Rules) {before : List Text} {s t : Session}
    (h : s.runFast rules before = ⟨t, none⟩) (line : Text) (after : List Text) :
    s.runFast rules (before ++ line :: after) =
      andThen ((Statement.ofFastText line).run rules t) (runFast rules after) := by
  rw [runFast_append, h]
  rfl

/-- What the fast dialect does with a line that it comes to. If it holds a group, the run goes on as
if the line were not there. If not, a `log`, a pause or an assignment is executed as the same
statement, and the header of a block or a loop stops the run as an error in the script. So of these
lines those with a group are skipped, and no other is. -/
theorem runFast_recognised [Host] (rules : Rules) {before : List Text} {s t : Session}
    (h : s.runFast rules before = ⟨t, none⟩) (line : Text) (after : List Text) :
    (Line.HoldsGroup (Text.trim line) →
      s.runFast rules (before ++ line :: after) = s.runFast rules (before ++ after)) ∧
      (∀ statement, Line.ofText line = .statement statement → statement.isShared = true →
        ((∃ text, Statement.ofFastText line = .skip text) ↔ Line.HoldsGroup (Text.trim line)) ∧
          (¬Line.HoldsGroup (Text.trim line) → Statement.ofFastText line = statement ∧
            s.runFast rules (before ++ line :: after) =
              andThen (statement.run rules t) (runFast rules after))) ∧
      ((Line.ofText line).isControl = true →
        ((∃ text, Statement.ofFastText line = .skip text) ↔ Line.HoldsGroup (Text.trim line)) ∧
          (¬Line.HoldsGroup (Text.trim line) → ∃ f, f.code = "SYNTAX_ERROR".toList ∧
            s.runFast rules (before ++ line :: after) = ⟨t, some (.failure f)⟩)) := by
  rw [runFast_line rules h]
  refine ⟨fun hgroup => ?_, fun statement hline hshared => ?_, fun hcontrol => ?_⟩
  · rw [Statement.ofFastText_of_holdsGroup hgroup, runFast_append, h]
    rfl
  · have hne : ∀ text, statement ≠ .skip text := by
      rintro text rfl
      cases hshared
    obtain ⟨hskip, hother⟩ :=
      Statement.skip_iff_holdsGroup hne (Statement.ofFastText_of_isShared hline hshared)
    exact ⟨hskip, fun hgroup => ⟨hother hgroup, by rw [hother hgroup]⟩⟩
  · obtain ⟨hskip, hother⟩ :=
      Statement.skip_iff_holdsGroup (by nofun) (Statement.ofFastText_of_isControl hcontrol)
    refine ⟨hskip, fun hgroup => ⟨.invalid (Text.trim line) .unknown, rfl, ?_⟩⟩
    rw [hother hgroup]
    rfl

/-- A `log` of a text in which nearly a group stands. -/
def nearGroup : Text := " log(\"= Action (Grouplet)\")".toList

theorem runFast_recognised_nearGroup :
    let rules : Rules := {}
    let first : List Text := ["[x] = 1".toList]
    let header : Text := "During <[x]> =? <1> \x7b".toList
    ¬Line.HoldsGroup (Text.trim nearGroup) ∧ ¬Line.HoldsGroup (Text.trim header) ∧
      ∃ t f, ({} : Session).runFast rules first = ⟨t, none⟩ ∧ f.code = "SYNTAX_ERROR".toList ∧
        ({} : Session).runFast rules (first ++ [nearGroup, header]) =
          andThen (Statement.run rules
            (.log "\"= Action (Grouplet)\"".toList (Text.trim nearGroup)) t)
            (runFast rules [header]) ∧
        ({} : Session).runFast rules (first ++ [header, nearGroup]) = ⟨t, some (.failure f)⟩ := by
  intro rules first header
  have hlog : ¬Line.HoldsGroup (Text.trim nearGroup) := by decide +kernel
  have hheader : ¬Line.HoldsGroup (Text.trim header) := by decide +kernel
  have hline : Line.ofText nearGroup =
      .statement (.log "\"= Action (Grouplet)\"".toList (Text.trim nearGroup)) := by decide +kernel
  have hcontrol : (Line.ofText header).isControl = true := by decide +kernel
  have hstop : (({} : Session).runFast rules first).stop = none := by decide +kernel
  have hfirst : ({} : Session).runFast rules first =
      ⟨(({} : Session).runFast rules first).session, none⟩ := by
    rw [← hstop]
  obtain ⟨f, hcode, hrun⟩ :=
    ((runFast_recognised rules hfirst header [nearGroup]).2.2 hcontrol).2 hheader
  refine ⟨hlog, hheader, _, f, hfirst, hcode, ?_, hrun⟩
  exact (((runFast_recognised rules hfirst nearGroup [header]).2.1 _ hline rfl).2 hlog).2

/-- A `log` of a text in which a group stands. -/
def quotedGroup : Text := "log(\"x = Action(Grouplet)\")".toList

/-- The header of a loop with a group as an operand. -/
def comparedGroup : Text := "During <1> =? <= runner(GROUPLET)> \x7b".toList

/-- The fast dialect drops a line that writes a text, and the header of a loop. -/
theorem runFast_drops :
    Line.ofText quotedGroup = .statement (.log "\"x = Action(Grouplet)\"".toList quotedGroup) ∧
      Statement.ofFastText quotedGroup = .skip quotedGroup ∧
        (Line.ofText comparedGroup).isControl = true ∧
      Statement.ofFastText comparedGroup = .skip comparedGroup ∧
      ({} : Session).runFast {} [quotedGroup, comparedGroup] = ⟨{}, none⟩ := by
  have hquoted : Statement.ofFastText quotedGroup = .skip quotedGroup := by decide +kernel
  have hcompared : Statement.ofFastText comparedGroup = .skip comparedGroup := by decide +kernel
  refine ⟨by decide +kernel, hquoted, by decide +kernel, hcompared, ?_⟩
  rw [runFast, hquoted, Statement.run]
  dsimp only
  rw [runFast, hcompared, Statement.run]
  rfl

end Session

end LineScript
