import LineScript.Proofs.Line.First
import LineScript.Proofs.Text.OneLine
import LineScript.Proofs.Text.Scan

/-!
# Writing statements and headers

A `Sentence` is an assignment, a list, a `log` or a loop over another sentence, and a `Heading` is
the header of a block with a condition; their parts carry what makes them readable. `Sentence.text`
and `Heading.text` write them on a line, and `Line.ofText_text` says that the line is read as what
was written, whatever marks its parts contain. Most parts end at the first mark that can end them;
the operand on the right of a condition ends at the last one.
-/

namespace LineScript

/-! ## Parts -/

/-- A text on one line, without blanks at its ends. -/
structure Phrase where
  text : Text
  trimmed : Text.trim text = text
  oneLine : '\n' ∉ text

/-- A phrase that is not empty. -/
structure Operand extends Phrase where
  ne_nil : text ≠ []

/-- A name that can stand between two marks. -/
structure Label (opening closing : Char) where
  text : Text
  ne_nil : text ≠ []
  oneLine : '\n' ∉ text
  unmarked : ∀ c ∈ text, c ≠ opening ∧ c ≠ closing

namespace Text

/-- A text that begins and ends with characters that are no blanks is kept by trimming. -/
theorem trim_cons_append {c : Char} (hc : isBlank c = false) (front : Text) {t : Text}
    (ht : trim t = t) (hne : t ≠ []) : trim (c :: front ++ t) = c :: front ++ t := by
  refine trim_eq_self (fun d hd => ?_) fun d hd => ?_
  · cases hd
    exact hc
  · rw [List.getLast?_append, Option.or_of_isSome (by simpa using hne)] at hd
    exact isBlank_getLast? ht hd

theorem trimStart_blank_operand (o : Operand) (rest : Text) :
    trimStart (' ' :: o.text ++ rest) = o.text ++ rest := by
  rw [List.cons_append, trimStart_cons_of_isBlank rfl, trimStart_append o.trimmed o.ne_nil]

end Text

/-! ## Lists of items -/

namespace Literal

theorem intercalate_comma_blank (item : Text) (items : List Text) :
    ", ".toList.intercalate (item :: items) = [','].intercalate (item :: items.map (' ' :: ·)) := by
  induction items generalizing item with
  | nil => rfl
  | cons next items ih =>
    rw [List.intercalate_cons_cons, ih, List.map_cons, List.intercalate_cons_cons]
    cases items <;> simp [List.intercalate]

/-- Items that were written one after the other are read back. -/
theorem listItems_intercalate {items : List Text} (htrim : ∀ item ∈ items, Text.trim item = item)
    (hcomma : ∀ item ∈ items, ',' ∉ item) (hne : items ≠ [[]]) :
    listItems (", ".toList.intercalate items) = items := by
  cases items with
  | nil => rfl
  | cons item items =>
    rw [List.forall_mem_cons] at htrim hcomma
    have hblank : Text.trim (", ".toList.intercalate (item :: items)) ≠ [] := by
      intro hnil
      cases items with
      | nil =>
        have : item = [] := by simpa [List.intercalate, htrim.1] using hnil
        exact hne (by rw [this])
      | cons next items =>
        have hmem : ',' ∈ ", ".toList.intercalate (item :: next :: items) := by
          rw [List.intercalate_cons_cons]
          simp
        exact absurd (Text.isBlank_of_trim_eq_nil hnil ',' hmem) (by decide)
    have hsplit : (", ".toList.intercalate (item :: items)).splitOn ',' =
        item :: items.map (' ' :: ·) := by
      rw [intercalate_comma_blank]
      refine List.splitOn_intercalate ',' ?_ (List.cons_ne_nil _ _)
      simpa using hcomma
    have htrims : (items.map (' ' :: ·)).map Text.trim = items := by
      rw [List.map_map]
      refine (List.map_congr_left fun next hnext => ?_).trans (List.map_id items)
      exact (Text.trim_cons_of_isBlank rfl next).trans (htrim.2 next hnext)
    rw [listItems, splitItems, hsplit, List.map_cons, htrim.1, htrims, if_neg]
    simpa using hblank

end Literal

/-! ## Forms in lines -/

namespace Line

open Text

def assignText (name value : Text) : Text := List.flatten [['['], name, "] = ".toList, value]

def letText (name value : Text) : Text := "Let ".toList ++ assignText name value

def listText (name : Text) (items : List Text) : Text :=
  List.flatten [['/'], name, "/ = #".toList, ", ".toList.intercalate items, ['#']]

def logText (argument : Text) : Text := List.flatten ["log(".toList, argument, [')']]

def loopText (c : Counter) (body : Text) : Text :=
  List.flatten ["For [".toList, c.name, "] = ".toList, c.start, ", [".toList, c.check,
    "] =? ".toList, c.stop, ", ".toList, body]

theorem assignText_eq (name value : Text) :
    assignText name value = '[' :: name ++ ']' :: ' ' :: '=' :: ' ' :: value := by
  unfold assignText
  simp

theorem letText_eq (name value : Text) :
    letText name value = "Let".toList ++ ' ' :: assignText name value := by
  unfold letText
  simp

theorem listText_eq (name : Text) (items : List Text) :
    listText name items =
      '/' :: name ++ '/' :: (" = #".toList ++ (", ".toList.intercalate items ++ ['#'])) := by
  unfold listText
  simp

theorem logText_eq (argument : Text) : logText argument = "log(".toList ++ (argument ++ [')']) := by
  unfold logText
  simp

theorem loopText_eq (c : Counter) (body : Text) :
    loopText c body = "For".toList ++
      (' ' :: '[' :: c.name ++ ']' :: ' ' :: '=' :: (' ' :: c.start ++ ',' ::
      (' ' :: '[' :: c.check ++
        ']' :: ' ' :: '=' :: '?' :: (' ' :: c.stop ++ ',' :: ' ' :: body)))) := by
  unfold loopText
  simp

variable {s : Text}

/-- A line that has a form is not inert. -/
theorem BeginsWith.isInert_eq_false {α : Type} {read : Text → Option α} {firsts : List Char} {a : α}
    (h : BeginsWith read firsts) (hfirsts : firsts ⊆ ['I', 'E', 'D', 'F', 'l', 'w', '[', 'L', '/'])
    (ha : read s = some a) : isInert s = false := by
  obtain ⟨c, hc, hs⟩ := h s a ha
  obtain ⟨t, rfl⟩ := List.head?_eq_some_iff.1 hs
  have hform := hfirsts hc
  simp only [List.mem_cons, List.not_mem_nil, or_false] at hform
  rcases hform with rfl | rfl | rfl | rfl | rfl | rfl | rfl | rfl | rfl <;> rfl

theorem ofTrimmed_of_head? {head : Head} {rest : Text} (h : head? s = some (head, rest)) :
    ofTrimmed s = ofHead s head rest := by
  have hinert := beginsWith_head?.isInert_eq_false (by simp) h
  rw [ofTrimmed, hinert, if_neg Bool.false_ne_true, h]

theorem ofTrimmed_of_forLoop? {counter : Counter} {body : Text}
    (h : forLoop? s = some (counter, body)) :
    ofTrimmed s = .statement (.forLoop counter (loopBody body (ofTrimmed body)) s) := by
  have hinert := beginsWith_forLoop?.isInert_eq_false (by simp) h
  have hhead := beginsWith_forLoop?.eq_none_of_eq_some beginsWith_head? (by simp) h
  rw [ofTrimmed, hinert, if_neg Bool.false_ne_true, hhead]
  dsimp only
  split
  · next hf =>
    rw [h] at hf
    cases hf
    rfl
  · next hf =>
    rw [h] at hf
    cases hf

theorem ofTrimmed_of_simple? {statement : Statement} (h : simple? s = some statement) :
    ofTrimmed s = .statement statement := by
  have hinert := beginsWith_simple?.isInert_eq_false (by simp) h
  have hhead := beginsWith_simple?.eq_none_of_eq_some beginsWith_head? (by simp) h
  have hloop := beginsWith_simple?.eq_none_of_eq_some beginsWith_forLoop? (by simp) h
  rw [ofTrimmed, hinert, if_neg Bool.false_ne_true, hhead]
  dsimp only
  split
  · next hf =>
    rw [hloop] at hf
    cases hf
  · rw [h]
    rfl

theorem simple?_of_set? {statement : Statement} (h : set? s = some statement) :
    simple? s = some statement := by
  rw [simple?_eq, beginsWith_set?.eq_none_of_eq_some beginsWith_call? (by simp) h, h]
  rfl

theorem rest?_operand (o : Operand) : rest? (' ' :: o.text) = some o.text := by
  have hline : o.text.contains '\n' = false := by simpa using o.oneLine
  have hne : o.text.isEmpty = false := by simpa using o.ne_nil
  have hstart : trimStart (' ' :: o.text) = o.text := by simpa using trimStart_blank_operand o []
  rw [rest?, hstart, hline, hne, o.trimmed]
  rfl

theorem afterEquals?_blank (r : Text) : afterEquals? (' ' :: '=' :: r) = some r := rfl

theorem name?_label (name : Label '[' ']') (rest : Text) :
    name? ('[' :: name.text ++ ']' :: rest) = some (name.text, rest) :=
  bracketed?_append name.ne_nil name.unmarked rest

theorem assignment?_assignText (name : Label '[' ']') (value : Operand) :
    assignment? (assignText name.text value.text) = some (name.text, value.text) := by
  simp only [assignText_eq, assignment?, name?_label, afterEquals?_blank, rest?_operand,
    Option.bind_eq_bind, Option.bind_some]
  rfl

theorem letAssignment?_letText (name : Label '[' ']') (value : Operand) :
    letAssignment? (letText name.text value.text) = some (name.text, value.text) := by
  have hstart : trimStart (' ' :: assignText name.text value.text) =
      assignText name.text value.text := rfl
  simp only [letAssignment?, letText_eq, after?_append, hstart, Option.bind_eq_bind,
    Option.bind_some]
  simp only [assignText_eq, name?_label, afterEquals?_blank, rest?_operand, Option.bind_some]
  rfl

theorem listAssignment?_listText (name : Label '/' '/') {items : List Text}
    (hline : '\n' ∉ ", ".toList.intercalate items) :
    listAssignment? (listText name.text items) =
      some (name.text, Literal.listItems (", ".toList.intercalate items)) := by
  rw [listText_eq]
  generalize ", ".toList.intercalate items = inside at hline ⊢
  have hname := bracketed?_append name.ne_nil name.unmarked (" = #".toList ++ (inside ++ ['#']))
  have hequals : afterEquals? (" = #".toList ++ (inside ++ ['#'])) =
      some (" #".toList ++ (inside ++ ['#'])) := rfl
  have hinside : enclosedLine? '#' (trimStart (" #".toList ++ (inside ++ ['#']))) =
      some inside := by
    show enclosedLine? '#' ('#' :: (inside ++ ['#'])) = some inside
    simp [enclosedLine?, enclosed?, hline]
  simp only [listAssignment?, hname, hequals, hinside, Option.bind_eq_bind, Option.bind_some]
  rfl

theorem log?_logText (argument : Phrase) : log? (logText argument.text) = some argument.text := by
  simp only [log?, logText_eq, after?_append, Option.bind_eq_bind, Option.bind_some]
  rw [List.dropLast_concat, argument.trimmed, if_pos]
  simpa using argument.oneLine

theorem check?_label (check : Label '[' ']') (rest : Text) :
    check? (' ' :: '[' :: check.text ++ ']' :: ' ' :: '=' :: '?' :: rest) =
      some (check.text, rest) := by
  have hstart : trimStart (' ' :: '[' :: check.text ++ ']' :: ' ' :: '=' :: '?' :: rest) =
      '[' :: check.text ++ ']' :: ' ' :: '=' :: '?' :: rest := rfl
  simp only [check?, hstart, name?_label, Option.bind_eq_bind, Option.bind_some]
  rfl

/-- An operand without commas is what stands before the first comma. -/
theorem shortest?_operand {α : Type} {read : Text → Option α} {rest : Text} {a : α} (o : Operand)
    (hcomma : ',' ∉ o.text) (h : read rest = some a) :
    givingBlanksBack (shortest? ',' read) (' ' :: o.text ++ ',' :: rest) = some (o.text, a) := by
  refine givingBlanksBack_of_trimStart ?_
  rw [trimStart_blank_operand]
  exact shortest?_append o.ne_nil (by decide) o.oneLine
    (fun u v huv => absurd huv (ne_append_of_not_mem hcomma u v)) h

theorem loopRest?_text (check : Label '[' ']') (stop body : Operand) (hcomma : ',' ∉ stop.text) :
    loopRest? (' ' :: '[' :: check.text ++
      ']' :: ' ' :: '=' :: '?' :: (' ' :: stop.text ++ ',' :: ' ' :: body.text)) =
      some (check.text, stop.text, body.text) := by
  simp only [loopRest?, check?_label, shortest?_operand stop hcomma (rest?_operand body),
    Option.bind_eq_bind, Option.bind_some]
  rfl

theorem forLoop?_loopText (name : Label '[' ']') (start : Operand) (check : Label '[' ']')
    (stop body : Operand) (hstart : ',' ∉ start.text) (hstop : ',' ∉ stop.text) :
    forLoop? (loopText ⟨name.text, start.text, check.text, stop.text⟩ body.text) =
      some (⟨name.text, start.text, check.text, stop.text⟩, body.text) := by
  have hblank (r : Text) : trimStart (' ' :: '[' :: name.text ++ r) = '[' :: name.text ++ r := rfl
  simp only [loopText_eq, forLoop?, after?_append, hblank, name?_label, afterEquals?_blank,
    shortest?_operand start hstart (loopRest?_text check stop body hstop), start.trimmed,
      stop.trimmed,
    Option.bind_eq_bind, Option.bind_some]
  rfl

/-! ## Conditions -/

/-- No operand on the right follows a text without a comparison. -/
theorem rightOperand?_eq_none {s : Text} (h : ¬ ['=', '?'] <:+: s) (rest : Text) :
    rightOperand? (s ++ '>' :: rest) = none := by
  have hsuffix : trimStart s <:+ s := trimStart_suffix s
  have hafter : after? "=?".toList (trimStart (s ++ '>' :: rest)) = none := by
    rw [trimStart, List.dropWhile_append, List.dropWhile_cons_of_neg (by decide), ← trimStart]
    generalize trimStart s = t at hsuffix
    rcases t with _ | ⟨c, _ | ⟨d, t⟩⟩
    · rfl
    · simp [after?]
    · -- The two characters are no comparison, since they stand in the text before the angle.
      have hne : ¬ ('=' = c ∧ '?' = d) := by
        rintro ⟨rfl, rfl⟩
        exact h ((List.prefix_append ['=', '?'] t).isInfix.trans hsuffix.isInfix)
      simpa [after?] using hne
  rw [rightOperand?, hafter]
  rfl

theorem rightOperand?_text {right after rest : Text} (hne : right ≠ []) (hline : '\n' ∉ right)
    (hafter : afterBrace? after = some rest)
    (hlast : ∀ u v, after = u ++ '>' :: v → afterBrace? v = none) :
    rightOperand? (" =? <".toList ++ (right ++ '>' :: after)) = some (right, rest) :=
  longest?_append hne (by decide) hline hlast hafter

theorem condition?_open (r : Text) :
    condition? (" <".toList ++ r) = (shortest? '>' rightOperand? r).map fun (left, right, rest) =>
      (⟨trim left, trim right⟩, rest) := rfl

/-- A condition is read as it was written, if no brace follows an angle after it. -/
theorem condition?_text (left : Operand) (hleft : ¬ ['=', '?'] <:+: left.text)
    {right after rest : Text} (hne : right ≠ []) (hline : '\n' ∉ right)
    (hafter : afterBrace? after = some rest)
    (hlast : ∀ u v, after = u ++ '>' :: v → afterBrace? v = none) :
    condition? (" <".toList ++ (left.text ++ '>' :: (" =? <".toList ++ (right ++ '>' :: after)))) =
      some (⟨left.text, trim right⟩, rest) := by
  have hright := rightOperand?_text hne hline hafter hlast
  have hread : shortest? '>' rightOperand?
      (left.text ++ '>' :: (" =? <".toList ++ (right ++ '>' :: after))) =
      some (left.text, right, rest) := by
    refine shortest?_append left.ne_nil (by decide) left.oneLine (fun u v huv => ?_) hright
    refine rightOperand?_eq_none (fun hv => hleft (hv.trans ?_)) _
    rw [huv]
    exact (List.suffix_append_of_suffix (List.suffix_cons _ _)).isInfix
  simp only [condition?_open, hread, Option.map_some, left.trimmed]

end Line

/-! ## Headings -/

/-- The keyword of a header with a condition. -/
inductive Keyword
  | ifEqual
  | elseIfEqual
  | during
deriving DecidableEq

namespace Keyword

def text : Keyword → Text
  | .ifEqual => "If".toList
  | .elseIfEqual => "Else If".toList
  | .during => "During".toList

def head : Keyword → Condition → Head
  | .ifEqual => .ifEqual
  | .elseIfEqual => .elseIfEqual
  | .during => .during

/-- A line with a condition and what follows its last angle. -/
def line (keyword : Keyword) (left right after : Text) : Text :=
  List.flatten [keyword.text, " <".toList, left, "> =? <".toList, right, '>' :: after]

theorem head?_append (keyword : Keyword) {r rest : Text} {c : Condition}
    (h : Line.condition? r = some (c, rest)) :
    Line.head? (keyword.text ++ r) = some (keyword.head c, rest) := by
  cases keyword with
  | ifEqual =>
    have hif : Line.ifHead? ("If".toList ++ r) = some (.ifEqual c, rest) := by
      rw [Line.ifHead?, Text.after?_append, Option.bind_eq_bind, Option.bind_some, h]
      rfl
    show Line.head? ("If".toList ++ r) = _
    rw [Line.head?, hif]
    rfl
  | elseIfEqual =>
    have hif : Line.ifHead? ("Else If".toList ++ r) = none := rfl
    have helse : Line.elseIfHead? ("Else If".toList ++ r) =
        (Line.condition? r).map (Prod.map .elseIfEqual id) := rfl
    show Line.head? ("Else If".toList ++ r) = _
    rw [Line.head?, hif, helse, h]
    rfl
  | during =>
    have hif : Line.ifHead? ("During".toList ++ r) = none := rfl
    have helseIf : Line.elseIfHead? ("During".toList ++ r) = none := rfl
    have helse : Line.elseHead? ("During".toList ++ r) = none := rfl
    have hduring : Line.duringHead? ("During".toList ++ r) =
        (Line.condition? r).map (Prod.map .during id) := rfl
    show Line.head? ("During".toList ++ r) = _
    rw [Line.head?, hif, helseIf, helse, hduring, h]
    rfl

/-- The head of a line with a condition, if no brace follows an angle after the condition. -/
theorem head?_line (keyword : Keyword) (left : Operand) (hleft : ¬ ['=', '?'] <:+: left.text)
    {right after rest : Text} (hne : right ≠ []) (hline : '\n' ∉ right)
    (hafter : Line.afterBrace? after = some rest)
    (hlast : ∀ u v, after = u ++ '>' :: v → Line.afterBrace? v = none) :
    Line.head? (keyword.line left.text right after) =
      some (keyword.head ⟨left.text, Text.trim right⟩, rest) := by
  have h := keyword.head?_append (Line.condition?_text left hleft hne hline hafter hlast)
  simpa [line] using h

theorem trim_line (keyword : Keyword) (left right : Text) {after : Text}
    (htrim : Text.trim ('>' :: after) = '>' :: after) :
    Text.trim (keyword.line left right after) = keyword.line left right after := by
  obtain ⟨c, front, hc, hfront⟩ : ∃ c front, Text.isBlank c = false ∧
      keyword.text = c :: front := by
    cases keyword <;> exact ⟨_, _, rfl, rfl⟩
  have h := Text.trim_cons_append hc (front ++ " <".toList ++ left ++ "> =? <".toList ++ right)
    htrim (by simp)
  simpa [line, hfront] using h

end Keyword

/-- The header of a block with a condition, with the block on the lines that follow. -/
structure Heading where
  keyword : Keyword
  left : Operand
  right : Operand
  noComparison : ¬ ['=', '?'] <:+: left.text

namespace Heading

variable (h : Heading)

/-- The line of a heading. -/
def text : Text := h.keyword.line h.left.text h.right.text " \x7b".toList

/-- What a heading opens. -/
def head : Head := h.keyword.head ⟨h.left.text, h.right.text⟩

theorem trim_text : Text.trim h.text = h.text := h.keyword.trim_line _ _ rfl

theorem ofTrimmed_text : Line.ofTrimmed h.text = .header ⟨h.head, none, h.text⟩ := by
  have hhead : Line.head? h.text = some (h.head, []) := by
    have hlast : ∀ u v, " \x7b".toList = u ++ '>' :: v → Line.afterBrace? v = none :=
      fun u v huv => absurd huv (Text.ne_append_of_not_mem (by decide) u v)
    rw [text, h.keyword.head?_line h.left h.noComparison h.right.ne_nil h.right.oneLine rfl hlast,
      h.right.trimmed]
    rfl
  rw [Line.ofTrimmed_of_head? hhead]
  rfl

end Heading

/-! ## Sentences -/

/-- A statement that can be written on a line. -/
inductive Sentence
  /-- With or without the keyword. -/
  | assign (keyword : Bool) (name : Label '[' ']') (value : Operand)
  /-- A single empty item would be written as no item is. -/
  | assignList (name : Label '/' '/') (items : List Phrase)
    (noComma : ∀ item ∈ items, ',' ∉ item.text) (notBlank : items.map Phrase.text ≠ [[]])
  | log (argument : Phrase)
  | forLoop (name : Label '[' ']') (start : Operand) (check : Label '[' ']') (stop : Operand)
    (startNoComma : ',' ∉ start.text) (stopNoComma : ',' ∉ stop.text) (body : Sentence)

namespace Sentence

/-- The line of a sentence. -/
def text : Sentence → Text
  | .assign keyword name value =>
    if keyword then Line.letText name.text value.text else Line.assignText name.text value.text
  | .assignList name items _ _ => Line.listText name.text (items.map Phrase.text)
  | .log argument => Line.logText argument.text
  | .forLoop name start check stop _ _ body =>
    Line.loopText ⟨name.text, start.text, check.text, stop.text⟩ body.text

/-- What a sentence says. -/
def statement : Sentence → Statement
  | .assign keyword name value => .assign name.text value.text (text (.assign keyword name value))
  | .assignList name items h h' =>
    .assignList name.text (items.map Phrase.text) (text (.assignList name items h h'))
  | .log argument => .log argument.text (text (.log argument))
  | .forLoop name start check stop h h' body =>
    .forLoop ⟨name.text, start.text, check.text, stop.text⟩ body.statement
      (text (.forLoop name start check stop h h' body))

theorem text_ne_nil (s : Sentence) : s.text ≠ [] := by
  cases s with
  | assign keyword => cases keyword <;> simp [text, Line.letText_eq, Line.assignText_eq]
  | assignList => simp [text, Line.listText_eq]
  | log => simp [text, Line.logText_eq]
  | forLoop => simp [text, Line.loopText_eq]

/-- A sentence has no blanks at the ends of its line. -/
theorem trim_text (s : Sentence) : Text.trim s.text = s.text := by
  induction s with
  | assign keyword name value =>
    cases keyword with
    | false =>
      have h := Text.trim_cons_append (c := '[') rfl (name.text ++ "] = ".toList) value.trimmed
        value.ne_nil
      simpa [text, Line.assignText_eq] using h
    | true =>
      have h := Text.trim_cons_append (c := 'L') rfl ("et [".toList ++ name.text ++ "] = ".toList)
        value.trimmed
        value.ne_nil
      simpa [text, Line.letText_eq, Line.assignText_eq] using h
  | assignList name items =>
    have h := Text.trim_cons_append (c := '/') rfl
      (name.text ++ "/ = #".toList ++ ", ".toList.intercalate (items.map Phrase.text)) rfl
      (List.cons_ne_nil '#' [])
    simpa [text, Line.listText_eq] using h
  | log argument =>
    have h := Text.trim_cons_append (c := 'l') rfl ("og(".toList ++ argument.text) rfl
      (List.cons_ne_nil ')' [])
    simpa [text, Line.logText_eq] using h
  | forLoop name start check stop _ _ body ih =>
    have h := Text.trim_cons_append (c := 'F') rfl
      (List.flatten ["or [".toList, name.text, "] = ".toList, start.text, ", [".toList,
        check.text, "] =? ".toList, stop.text, ", ".toList]) ih body.text_ne_nil
    simpa [text, Line.loopText_eq] using h

theorem oneLine_text (s : Sentence) : '\n' ∉ s.text := by
  induction s with
  | assign keyword name value =>
    cases keyword <;> simp [text, Line.letText_eq, Line.assignText_eq, name.oneLine, value.oneLine]
  | assignList name items =>
    have h : '\n' ∉ ", ".toList.intercalate (items.map Phrase.text) :=
      Text.OneLine.intercalate (by decide) (List.forall_mem_map.2 fun item _ => item.oneLine)
    simpa [text, Line.listText_eq, name.oneLine] using h
  | log argument => simp [text, Line.logText_eq, argument.oneLine]
  | forLoop name start check stop _ _ body ih =>
    simp [text, Line.loopText_eq, name.oneLine, start.oneLine, check.oneLine, stop.oneLine, ih]

/-- The line of a sentence, as the body of a loop. -/
def operand (s : Sentence) : Operand := ⟨⟨s.text, s.trim_text, s.oneLine_text⟩, s.text_ne_nil⟩

theorem ofTrimmed_text (s : Sentence) : Line.ofTrimmed s.text = .statement s.statement := by
  induction s with
  | assign keyword name value =>
    refine Line.ofTrimmed_of_simple? (Line.simple?_of_set? ?_)
    cases keyword with
    | false =>
      rw [text, if_neg Bool.false_ne_true, Line.set?, Line.assignment?_assignText]
      rfl
    | true =>
      have hread := Line.letAssignment?_letText name value
      have hassign := Line.beginsWith_letAssignment?.eq_none_of_eq_some Line.beginsWith_assignment?
        (by simp) hread
      rw [text, if_pos rfl, Line.set?, hassign, hread]
      rfl
  | assignList name items noComma notBlank =>
    refine Line.ofTrimmed_of_simple? (Line.simple?_of_set? ?_)
    have hline : '\n' ∉ ", ".toList.intercalate (items.map Phrase.text) :=
      Text.OneLine.intercalate (by decide) (List.forall_mem_map.2 fun item _ => item.oneLine)
    have hread := Line.listAssignment?_listText name hline
    have hassign := Line.beginsWith_listAssignment?.eq_none_of_eq_some Line.beginsWith_assignment?
      (by simp) hread
    have hlet := Line.beginsWith_listAssignment?.eq_none_of_eq_some Line.beginsWith_letAssignment?
      (by simp) hread
    have hitems : Literal.listItems (", ".toList.intercalate (items.map Phrase.text)) =
        items.map Phrase.text :=
      Literal.listItems_intercalate (by simpa using fun item _ => item.trimmed)
        (by simpa using noComma) notBlank
    rw [text, Line.set?, hassign, hlet, hread, hitems]
    rfl
  | log argument =>
    refine Line.ofTrimmed_of_simple? ?_
    rw [Line.simple?, text, Line.log?_logText]
    rfl
  | forLoop name start check stop hstart hstop body ih =>
    have hread := Line.forLoop?_loopText name start check stop body.operand hstart hstop
    refine (Line.ofTrimmed_of_forLoop? hread).trans ?_
    rw [operand, ih]
    rfl

end Sentence

/-- Reading inverts writing: the line of a sentence is read as its statement, and the line of a
heading as the header of a block on the lines that follow, each with the line as it was written. -/
theorem Line.ofText_text :
    (∀ s : Sentence, Line.ofText s.text = .statement s.statement) ∧
      ∀ h : Heading, Line.ofText h.text = .header ⟨h.head, none, h.text⟩ := by
  refine ⟨fun s => ?_, fun h => ?_⟩
  · rw [Line.ofText, s.trim_text, s.ofTrimmed_text]
  · rw [Line.ofText, h.trim_text, h.ofTrimmed_text]

/-- A loop over a list of two items, one empty, with marks of other forms in its parts. -/
def Sentence.nestedLoops : Sentence :=
  let empty : Phrase := ⟨[], by decide, by decide⟩
  let item : Phrase := ⟨"x = [y]".toList, by decide, by decide⟩
  let list := Sentence.assignList ⟨['a'], by decide, by decide, by simp⟩ [empty, item]
    (by decide) (by decide)
  let inner := Sentence.forLoop ⟨['j'], by decide, by decide, by simp⟩
    ⟨⟨"] =? 2".toList, by decide, by decide⟩, by decide⟩ ⟨['k'], by decide, by decide, by simp⟩
    ⟨⟨['3'], by decide, by decide⟩, by decide⟩ (by decide) (by decide) list
  .forLoop ⟨['i'], by decide, by decide, by simp⟩ ⟨⟨['1'], by decide, by decide⟩, by decide⟩
    ⟨['i'], by decide, by decide, by simp⟩
    ⟨⟨"[n] + 2".toList, by decide, by decide⟩, by decide⟩ (by decide)
    (by decide) inner

/-- A condition with angles in both of its operands, one of them before a brace. -/
def Heading.angles : Heading where
  keyword := .elseIfEqual
  left := ⟨⟨"a> b".toList, by decide, by decide⟩, by decide⟩
  right := ⟨⟨"c> \x7b =? <d".toList, by decide, by decide⟩, by decide⟩
  noComparison := by decide

theorem Line.ofText_text_marks :
    let list := "/a/ = #, x = [y]#".toList
    let inner := "For [j] = ] =? 2, [k] =? 3, /a/ = #, x = [y]#".toList
    let outer := "For [i] = 1, [i] =? [n] + 2, For [j] = ] =? 2, [k] =? 3, /a/ = #, x = [y]#".toList
    let heading := "Else If <a> b> =? <c> \x7b =? <d> \x7b".toList
    Line.ofText outer = .statement (.forLoop ⟨['i'], ['1'], ['i'], "[n] + 2".toList⟩
        (.forLoop ⟨['j'], "] =? 2".toList, ['k'], ['3']⟩
          (.assignList ['a'] [[], "x = [y]".toList] list) inner) outer) ∧
      Line.ofText heading =
        .header ⟨.elseIfEqual ⟨"a> b".toList, "c> \x7b =? <d".toList⟩, none, heading⟩ :=
  ⟨Line.ofText_text.1 Sentence.nestedLoops, Line.ofText_text.2 Heading.angles⟩

end LineScript
