import LineScript.Text.Blank

/-!
# Scanning

The steps from which the recognisers of lines and literals are built: a fixed beginning, a name
between brackets, and the shortest or longest stretch of one line before a stop mark at which the
rest can be read. A stretch never crosses a line feed; blanks do.
-/

namespace LineScript.Text

/-- What follows `start` in a text that begins with it. -/
def after? : (start s : Text) → Option Text
  | [], s => some s
  | _ :: _, [] => none
  | p :: start, c :: s => if p = c then after? start s else none

theorem eq_append_of_after? {start s rest : Text} (h : after? start s = some rest) :
    s = start ++ rest := by
  fun_induction after? start s with
  | case1 s => simpa using h
  | case2 => simp at h
  | case3 => simp_all
  | case4 => simp at h

theorem after?_append (start rest : Text) : after? start (start ++ rest) = some rest := by
  induction start with
  | nil => rfl
  | cons c start ih => rw [List.cons_append, after?, if_pos rfl, ih]

/-- The text before the first `separator`, and the text after it. -/
def partition (separator : Text) : Text → Text × Text
  | [] => ([], [])
  | c :: s =>
    match after? separator (c :: s) with
    | some rest => ([], rest)
    | none => (c :: (partition separator s).1, (partition separator s).2)

/-- The first separator is the first whose first character does not occur before it. -/
theorem partition_append {mark : Char} (separator rest : Text) {s : Text} (h : mark ∉ s) :
    partition (mark :: separator) (s ++ mark :: separator ++ rest) = (s, rest) := by
  induction s with
  | nil =>
    have : after? (mark :: separator) (mark :: separator ++ rest) = some rest := after?_append _ _
    simp only [List.nil_append, List.cons_append] at this ⊢
    rw [partition, this]
  | cons c s ih =>
    rw [List.mem_cons, not_or] at h
    simp only [List.cons_append, List.append_assoc] at ih ⊢
    rw [partition, after?, if_neg h.1]
    dsimp only
    rw [ih h.2]

/-- Whether a letter of a keyword, written in lower case, admits `c` in either case. The letter `i`
also admits its forms with and without a dot, and `s` its long form. -/
def admits (letter c : Char) : Bool :=
  c.toLower == letter || (letter == 'i' && (c == 'İ' || c == 'ı')) || (letter == 's' && c == 'ſ')

/-- What follows `start`, a keyword in lower case, in a text that begins with it in any case. -/
def afterAnyCase? : (start s : Text) → Option Text
  | [], s => some s
  | _ :: _, [] => none
  | p :: start, c :: s => if admits p c then afterAnyCase? start s else none

/-- What follows the blanks of a text that begins with at least one. -/
def afterBlanks? (s : Text) : Option Text :=
  match s with
  | c :: r => if isBlank c then some (trimStart r) else none
  | [] => none

/-- The content and what follows it, of a text that begins with `opening`, some characters that are
none of the two marks, and `closing`. -/
def bracketed? (opening closing : Char) (s : Text) : Option (Text × Text) :=
  match s with
  | [] => none
  | c :: r =>
    if c = opening then
      let content := r.takeWhile fun d => d != opening && d != closing
      match content, r.dropWhile (fun d => d != opening && d != closing) with
      | _ :: _, d :: rest => if d = closing then some (content, rest) else none
      | _, _ => none
    else none

theorem eq_of_bracketed? {opening closing : Char} {s content rest : Text}
    (h : bracketed? opening closing s = some (content, rest)) :
    s = opening :: content ++ closing :: rest ∧ content ≠ [] := by
  unfold bracketed? at h
  split at h
  · simp at h
  · next c r =>
    split at h
    · next hc =>
      dsimp only at h
      split at h
      · next x xs d tail hx hd =>
        split at h
        · next hd' =>
          simp only [Option.some.injEq, Prod.mk.injEq] at h
          obtain ⟨rfl, rfl⟩ := h
          refine ⟨?_, by simp [hx]⟩
          have := List.takeWhile_append_dropWhile
            (p := fun d => d != opening && d != closing) (l := r)
          rw [hd, hd'] at this
          rw [hc, List.cons_append, this]
        · simp at h
      · simp at h
    · simp at h

/-- What stands between brackets is none of them. -/
theorem ne_of_bracketed? {opening closing : Char} {s content rest : Text}
    (h : bracketed? opening closing s = some (content, rest)) :
    ∀ c ∈ content, c ≠ opening ∧ c ≠ closing := by
  unfold bracketed? at h
  split at h
  · cases h
  · next r =>
    split at h
    · dsimp only at h
      split at h
      · split at h
        · cases h
          intro c hc
          have hall := List.all_takeWhile (p := fun d => d != opening && d != closing) (l := r)
          simpa using List.all_eq_true.1 hall c hc
        · cases h
      · cases h
    · cases h

/-- The inside of a text of at least two characters that begins and ends with `mark`. -/
def enclosed? (mark : Char) (s : Text) : Option Text :=
  match s with
  | [] => none
  | c :: r => if c = mark ∧ r.getLast? = some mark then some r.dropLast else none

/-- The inside of a text that begins and ends with `mark` and lies on one line. -/
def enclosedLine? (mark : Char) (s : Text) : Option Text :=
  (enclosed? mark s).filter fun inside => !inside.contains '\n'

/-- Reads the rest after all leading blanks or, failing that, with one blank after the other given
back. -/
def givingBlanksBack {α : Type} (read : Text → Option α) : Text → Option α
  | [] => read []
  | c :: s => if isBlank c then givingBlanksBack read s <|> read (c :: s) else read (c :: s)

theorem exists_of_givingBlanksBack {α : Type} {read : Text → Option α} {s : Text} {a : α}
    (h : givingBlanksBack read s = some a) :
    ∃ rest, read rest = some a ∧ rest.length ≤ s.length := by
  induction s with
  | nil => exact ⟨[], h, Nat.le_refl _⟩
  | cons c s ih =>
    simp only [givingBlanksBack] at h
    split at h
    · rw [Option.orElse_eq_orElse, Option.orElse_eq_or, Option.or_eq_some_iff] at h
      rcases h with h | ⟨-, h⟩
      · obtain ⟨rest, hr, hl⟩ := ih h
        exact ⟨rest, hr, Nat.le_succ_of_le hl⟩
      · exact ⟨_, h, Nat.le_refl _⟩
    · exact ⟨_, h, Nat.le_refl _⟩

/-- `shortestFrom stop read seen s`: the shortest stretch before a `stop` after which `read`
succeeds, where the stretch is not empty and begins with `seen`, in reverse. -/
def shortestFrom {α : Type} (stop : Char) (read : Text → Option α) :
    (seen s : Text) → Option (Text × α)
  | _, [] => none
  | seen, c :: s =>
    if c = '\n' then none
    else
      match (if c = stop ∧ seen ≠ [] then read s else none) with
      | some a => some (seen.reverse, a)
      | none => shortestFrom stop read (c :: seen) s

/-- The shortest non-empty stretch of the line before a `stop` after which `read` succeeds. -/
def shortest? {α : Type} (stop : Char) (read : Text → Option α) (s : Text) : Option (Text × α) :=
  shortestFrom stop read [] s

/-- What was read after a shortest stretch was read from a shorter suffix of the text. -/
theorem exists_of_shortestFrom {α : Type} {stop : Char} {read : Text → Option α} {seen s : Text}
    {t : Text} {a : α} (h : shortestFrom stop read seen s = some (t, a)) :
    ∃ rest, read rest = some a ∧ rest <:+ s ∧ rest.length < s.length := by
  induction s generalizing seen with
  | nil => simp [shortestFrom] at h
  | cons c s ih =>
    simp only [shortestFrom] at h
    split at h
    · simp at h
    · split at h
      · next b hb =>
        simp only [Option.some.injEq, Prod.mk.injEq] at h
        obtain ⟨-, rfl⟩ := h
        split at hb
        · exact ⟨s, hb, List.suffix_cons _ _, by simp⟩
        · simp at hb
      · obtain ⟨rest, hr, hsuffix, hl⟩ := ih h
        exact ⟨rest, hr, hsuffix.trans
          (List.suffix_cons _ _), by simp only [List.length_cons]; omega⟩

/-- `longestFrom stop read best seen s`: the longest stretch before a `stop` after which `read`
succeeds, where the stretch is not empty and begins with `seen`, in reverse; `best` if there is
none. -/
def longestFrom {α : Type} (stop : Char) (read : Text → Option α) :
    (best : Option (Text × α)) → (seen s : Text) → Option (Text × α)
  | best, _, [] => best
  | best, seen, c :: s =>
    if c = '\n' then best
    else
      match (if c = stop ∧ seen ≠ [] then read s else none) with
      | some a => longestFrom stop read (some (seen.reverse, a)) (c :: seen) s
      | none => longestFrom stop read best (c :: seen) s

/-- The longest non-empty stretch of the line before a `stop` after which `read` succeeds. -/
def longest? {α : Type} (stop : Char) (read : Text → Option α) (s : Text) : Option (Text × α) :=
  longestFrom stop read none [] s

end LineScript.Text
