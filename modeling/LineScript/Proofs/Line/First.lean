import LineScript.Line.Dialect

/-!
# The first character of a line

The first character of a line decides its form: a recogniser only accepts texts that begin with one
of a few characters (`BeginsWith`), and those of different forms are different. Hence at most one
form accepts a line, and it does not matter in which order the dialects try the statements that they
share (`fastSimple?_eq_simple?`).
-/

namespace LineScript.Line

open Text

/-- Every text that `read` accepts begins with one of the characters. -/
def BeginsWith {α : Type} (read : Text → Option α) (firsts : List Char) : Prop :=
  ∀ s a, read s = some a → ∃ c ∈ firsts, s.head? = some c

namespace BeginsWith

variable {α β : Type} {read other : Text → Option α} {firsts others : List Char}

theorem after (c : Char) (keyword : Text) (next : Text → Option α) :
    BeginsWith (fun s => (after? (c :: keyword) s).bind next) [c] := by
  intro s a h
  obtain ⟨rest, hrest, -⟩ := Option.bind_eq_some_iff.1 h
  rw [eq_append_of_after? hrest]
  exact ⟨c, List.mem_singleton_self c, rfl⟩

theorem bracketed (opening closing : Char) (next : Text × Text → Option α) :
    BeginsWith (fun s => (bracketed? opening closing s).bind next) [opening] := by
  intro s a h
  obtain ⟨⟨content, rest⟩, hcontent, -⟩ := Option.bind_eq_some_iff.1 h
  rw [(eq_of_bracketed? hcontent).1]
  exact ⟨opening, List.mem_singleton_self opening, rfl⟩

theorem map (h : BeginsWith read firsts) (f : Text → α → β) :
    BeginsWith (fun s => (read s).map (f s)) firsts := by
  intro s b hb
  obtain ⟨a, ha, -⟩ := Option.map_eq_some_iff.1 hb
  exact h s a ha

theorem orElse (h : BeginsWith read firsts) (h' : BeginsWith other others) :
    BeginsWith (fun s => read s <|> other s) (firsts ++ others) := by
  intro s a ha
  simp only [Option.orElse_eq_orElse, Option.orElse_eq_or, Option.or_eq_some_iff] at ha
  rcases ha with ha | ⟨-, ha⟩
  · obtain ⟨c, hc, hs⟩ := h s a ha
    exact ⟨c, List.mem_append_left _ hc, hs⟩
  · obtain ⟨c, hc, hs⟩ := h' s a ha
    exact ⟨c, List.mem_append_right _ hc, hs⟩

theorem eq_none (h : BeginsWith read firsts) {s : Text} {c : Char} (hs : s.head? = some c)
    (hc : c ∉ firsts) :
    read s = none := by
  cases ha : read s with
  | none => rfl
  | some a =>
    obtain ⟨d, hd, hsd⟩ := h s a ha
    rw [hs, Option.some.injEq] at hsd
    exact absurd (hsd ▸ hd) hc

/-- A text that one recogniser accepts is not accepted by one whose texts begin otherwise. -/
theorem eq_none_of_eq_some {read : Text → Option α} {other : Text → Option β}
    (h : BeginsWith read firsts) (h' : BeginsWith other others)
    (hdisjoint : ∀ c ∈ firsts, c ∉ others) {s : Text} {a : α} (ha : read s = some a) :
    other s = none := by
  obtain ⟨c, hc, hs⟩ := h s a ha
  exact h'.eq_none hs (hdisjoint c hc)

/-- Recognisers whose texts begin with different characters can be tried in either order. -/
theorem orElse_comm (h : BeginsWith read firsts) (h' : BeginsWith other others)
    (hdisjoint : ∀ c ∈ firsts, c ∉ others) (s : Text) :
    (read s <|> other s) = (other s <|> read s) := by
  cases ha : read s with
  | none => cases other s <;> rfl
  | some a =>
    rw [h.eq_none_of_eq_some h' hdisjoint ha]
    rfl

end BeginsWith

/-! ## The forms -/

theorem beginsWith_log? : BeginsWith log? ['l'] := .after _ _ _

theorem beginsWith_wait? : BeginsWith wait? ['w'] := .after _ _ _

theorem beginsWith_assignment? : BeginsWith assignment? ['['] := .bracketed _ _ _

theorem beginsWith_letAssignment? : BeginsWith letAssignment? ['L'] := .after _ _ _

theorem beginsWith_listAssignment? : BeginsWith listAssignment? ['/'] := .bracketed _ _ _

theorem beginsWith_forLoop? : BeginsWith forLoop? ['F'] := .after _ _ _

theorem beginsWith_head? : BeginsWith head? ['I', 'E', 'E', 'D'] :=
  .orElse (.after _ _ _) (.orElse (.after _ _ _) (.orElse (.after _ _ _) (.after _ _ _)))

/-! ## The order of the statements -/

/-- The statements that are calls. -/
def call? (s : Text) : Option Statement := (log? s).map (.log · s) <|> (wait? s).map (.wait · s)

/-- The statements that set a name. -/
def set? (s : Text) : Option Statement :=
  (assignment? s <|> letAssignment? s).map (fun (name, value) => .assign name value s)
    <|> (listAssignment? s).map (fun (name, items) => .assignList name items s)

theorem beginsWith_call? : BeginsWith call? ['l', 'w'] :=
  .orElse (beginsWith_log?.map _) (beginsWith_wait?.map _)

theorem beginsWith_set? : BeginsWith set? ['[', 'L', '/'] :=
  .orElse ((beginsWith_assignment?.orElse beginsWith_letAssignment?).map _)
    (beginsWith_listAssignment?.map _)

theorem simple?_eq (s : Text) : simple? s = (call? s <|> set? s) := by
  simp only [simple?, call?, set?, Option.orElse_eq_orElse, Option.orElse_eq_or, Option.or_assoc]

theorem fastSimple?_eq (s : Text) : fastSimple? s = (set? s <|> call? s) := by
  simp only [fastSimple?, call?, set?, Option.orElse_eq_orElse, Option.orElse_eq_or,
    Option.or_assoc]

theorem beginsWith_simple? : BeginsWith simple? ['l', 'w', '[', 'L', '/'] := by
  rw [funext simple?_eq]
  exact beginsWith_call?.orElse beginsWith_set?

/-- The order in which the two dialects try the statements that they share does not matter. -/
theorem fastSimple?_eq_simple? (s : Text) : fastSimple? s = simple? s := by
  rw [fastSimple?_eq, simple?_eq]
  exact beginsWith_set?.orElse_comm beginsWith_call? (by simp) s

end LineScript.Line
