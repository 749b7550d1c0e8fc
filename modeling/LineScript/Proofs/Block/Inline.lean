import LineScript.Proofs.Block.Layout
import LineScript.Proofs.Line.Print

/-!
# Blocks on one line

A block with a single statement can be written on the line of its heading. The operand on the right
of a condition ends at the last angle that a brace follows, anywhere on the line. So the short form
is read as the long one exactly if no such angle stands in the statement: `Heading.parse_inline`
says so, and that otherwise the condition takes in a part of the statement.
-/

namespace LineScript

/-! ## Angles before braces -/

namespace Text

/-- An angle stands in the text that a brace follows, with nothing but blanks in between. -/
def AngleBrace (s : Text) : Prop :=
  ∃ u blanks v, s = u ++ '>' :: (blanks ++ '\x7b' :: v) ∧ ∀ c ∈ blanks, isBlank c = true

theorem trimStart_blanks_append {blanks : Text} (hblanks : ∀ c ∈ blanks, isBlank c = true)
    {c : Char} (hc : isBlank c = false) (rest : Text) :
    trimStart (blanks ++ c :: rest) = c :: rest := by
  rw [trimStart, List.dropWhile_append_of_pos hblanks, ← trimStart,
    trimStart_cons_of_not_isBlank hc]

theorem exists_of_trimStart {s t : Text} (h : trimStart s = t) :
    ∃ blanks, (∀ c ∈ blanks, isBlank c = true) ∧ s = blanks ++ t := by
  refine ⟨s.takeWhile isBlank, fun c hc => List.mem_takeWhile_imp hc, ?_⟩
  rw [← h, trimStart, List.takeWhile_append_dropWhile]

theorem angleBrace_cons_iff (c : Char) (s : Text) :
    AngleBrace (c :: s) ↔ (c = '>' ∧ (trimStart s).head? = some '\x7b') ∨ AngleBrace s := by
  constructor
  · rintro ⟨u, blanks, v, heq, hblanks⟩
    cases u with
    | nil =>
      obtain ⟨rfl, rfl⟩ := List.cons.inj heq
      refine .inl ⟨rfl, ?_⟩
      rw [trimStart_blanks_append hblanks rfl, List.head?_cons]
    | cons d u => exact .inr ⟨u, blanks, v, (List.cons.inj heq).2, hblanks⟩
  · rintro (⟨rfl, hbrace⟩ | ⟨u, blanks, v, rfl, hblanks⟩)
    · obtain ⟨v, hv⟩ := List.head?_eq_some_iff.1 hbrace
      obtain ⟨blanks, hblanks, rfl⟩ := exists_of_trimStart hv
      exact ⟨[], blanks, v, rfl, hblanks⟩
    · exact ⟨c :: u, blanks, v, rfl, hblanks⟩

instance decidableAngleBrace : (s : Text) → Decidable (AngleBrace s)
  | [] => isFalse fun ⟨u, _, _, heq, _⟩ => ne_append_of_not_mem List.not_mem_nil u _ heq
  | c :: s =>
    have := decidableAngleBrace s
    decidable_of_iff _ (angleBrace_cons_iff c s).symm

theorem exists_of_append_left {a s u w : Text} {c : Char} (h : a ++ s = u ++ c :: w) (hc : c ∉ a) :
    ∃ u', u = a ++ u' ∧ s = u' ++ c :: w := by
  rcases List.append_eq_append_iff.1 h with ⟨u', hu, hs⟩ | ⟨a', ha, hw⟩
  · exact ⟨u', hu, hs⟩
  · cases a' with
    | nil => exact ⟨[], by simpa using ha.symm, by simpa using hw.symm⟩
    | cons d a' =>
      cases (List.cons.inj hw).1
      exact absurd (ha ▸ List.mem_append_right u List.mem_cons_self) hc

theorem exists_of_append_right {s b u w : Text} {c : Char} (h : s ++ b = u ++ c :: w) (hc : c ∉ b) :
    ∃ w', w = w' ++ b ∧ s = u ++ c :: w' := by
  rcases List.append_eq_append_iff.1 h with ⟨u', hu, hs⟩ | ⟨s', hs, hw⟩
  · exact absurd (hs ▸ List.mem_append_right u' List.mem_cons_self) hc
  · cases s' with
    | nil =>
      rw [List.nil_append] at hw
      exact absurd (hw ▸ List.mem_cons_self) hc
    | cons d s' =>
      obtain ⟨rfl, rfl⟩ := List.cons.inj hw
      exact ⟨s', rfl, hs⟩

/-- An angle before a brace stands in the middle part of a text if the other parts have none of the
two. -/
theorem AngleBrace.middle {a s b : Text} (h : AngleBrace (a ++ s ++ b)) (ha : '>' ∉ a)
    (hb : '\x7b' ∉ b) :
    AngleBrace s := by
  obtain ⟨u, blanks, v, heq, hblanks⟩ := h
  rw [List.append_assoc] at heq
  obtain ⟨u', -, hs⟩ := exists_of_append_left heq ha
  rw [← List.cons_append, ← List.append_assoc] at hs
  obtain ⟨v', -, hs'⟩ := exists_of_append_right hs hb
  exact ⟨u', blanks, v', by rw [hs', List.append_assoc, List.cons_append], hblanks⟩

/-- If there are angles before braces, one of them is the last. -/
theorem AngleBrace.exists_last {s : Text} (h : AngleBrace s) :
    ∃ u blanks v, s = u ++ '>' :: (blanks ++ '\x7b' :: v) ∧ (∀ c ∈ blanks, isBlank c = true) ∧
      ¬ AngleBrace v := by
  obtain ⟨u, blanks, v, heq, hblanks⟩ := h
  by_cases hv : AngleBrace v
  · have : v.length < s.length := by
      rw [heq]
      simp only [List.length_append, List.length_cons]
      omega
    obtain ⟨u', blanks', v', rfl, hlast⟩ := hv.exists_last
    exact ⟨u ++ '>' :: (blanks ++ '\x7b' :: u'), blanks', v', by rw [heq]; simp, hlast⟩
  · exact ⟨u, blanks, v, heq, hblanks, hv⟩
termination_by s.length

/-- Trimming keeps a character that is no blank, and what stands before it. -/
theorem trim_operand_append (o : Operand) {c : Char} (hc : isBlank c = false) (rest : Text) :
    trim (o.text ++ c :: rest) = o.text ++ c :: trimEnd rest := by
  rw [trim, trimStart_append o.trimmed o.ne_nil, trimEnd_append hc]

end Text

/-! ## Headers with a block on their line -/

namespace Line

open Text

theorem exists_of_afterBrace? {s rest : Text} (h : afterBrace? s = some rest) :
    ∃ blanks, (∀ c ∈ blanks, isBlank c = true) ∧ s = blanks ++ '\x7b' :: rest := by
  unfold afterBrace? at h
  split at h
  · next tail htail =>
    split at h
    · cases h
    · cases h
      exact exists_of_trimStart htail
  · cases h

theorem afterBrace?_append {blanks rest : Text} (hblanks : ∀ c ∈ blanks, isBlank c = true)
    (hline : '\n' ∉ rest) :
    afterBrace? (blanks ++ '\x7b' :: rest) = some rest := by
  have hstart : trimStart (blanks ++ '\x7b' :: rest) = '\x7b' :: rest :=
    trimStart_blanks_append hblanks rfl rest
  have hcontains : rest.contains '\n' = false := by simpa using hline
  simp only [afterBrace?, hstart, hcontains, Bool.false_eq_true, if_false]

/-- No brace follows any angle of a text without angles before braces. -/
theorem afterBrace?_eq_none {s u v : Text} (h : ¬ AngleBrace s) (heq : s = u ++ '>' :: v) :
    afterBrace? v = none := by
  refine Option.eq_none_iff_forall_ne_some.2 fun rest hrest => h ?_
  obtain ⟨blanks, hblanks, hv⟩ := exists_of_afterBrace? hrest
  exact ⟨u, blanks, rest, by rw [heq, hv], hblanks⟩

theorem inline?_closed (s : Text) : inline? (s ++ ['\x7d']) = some (some (trim s)) := by
  have htrim : trim (s ++ ['\x7d']) = trimStart s ++ ['\x7d'] := trim_append_singleton rfl s
  simp [inline?, htrim, trim_trimStart]

end Line

/-- The line of a header with a block of one statement on it is read as such, if the last angle
before a brace is that of the condition. -/
theorem Keyword.ofTrimmed_line (keyword : Keyword) (left : Operand)
    (hleft : ¬ ['=', '?'] <:+: left.text) (right blanks s : Text) (hne : right ≠ [])
    (hright : '\n' ∉ right) (hblanks : ∀ c ∈ blanks, Text.isBlank c = true) (hline : '\n' ∉ s)
    (hs : ¬ Text.AngleBrace s) :
    Line.ofTrimmed (keyword.line left.text right (blanks ++ '\x7b' :: (s ++ ['\x7d']))) =
      .header ⟨keyword.head ⟨left.text, Text.trim right⟩, some (Text.trim s),
        keyword.line left.text right (blanks ++ '\x7b' :: (s ++ ['\x7d']))⟩ := by
  have hafter : Line.afterBrace? (blanks ++ '\x7b' :: (s ++ ['\x7d'])) = some (s ++ ['\x7d']) :=
    Line.afterBrace?_append hblanks (by simpa using hline)
  have hlast : ¬ Text.AngleBrace (blanks ++ '\x7b' :: (s ++ ['\x7d'])) := by
    intro h
    rw [List.append_cons, ← List.append_assoc] at h
    refine hs (h.middle ?_ (by decide))
    have hangle : '>' ∉ blanks := fun hmem => absurd (hblanks _ hmem) (by decide)
    simpa using hangle
  have hhead := keyword.head?_line left hleft hne hright hafter fun u v huv =>
    Line.afterBrace?_eq_none hlast huv
  rw [Line.ofTrimmed_of_head? hhead, Line.ofHead, Line.inline?_closed]

/-! ## Trees of one block -/

namespace Node

variable {inner : List Text → Option (List Node)} {header : Header} {rest : List Text} {line : Text}

theorem body_inline {s : Text} (hheader : header.inline = some s) (rest : List Text) :
    body inner header rest = ofBody (inner (if s.isEmpty then [] else [s])) rest := by
  simp only [body, hheader]
  cases inner (if s.isEmpty then [] else [s]) <;> rfl

theorem ofLines_tooDeep [Host] (h : Line.ofTrimmed line = .header header)
    (hnode : ofHeader inner header rest = .error .tooDeep) :
    ofLines inner (line :: rest) = none := by
  rw [ofLines, h]
  dsimp only
  split
  · next hn =>
    rw [hnode] at hn
    cases hn
  · next hn =>
    rw [hnode] at hn
    cases hn
  · rfl

/-- The condition of a conditional or a loop. -/
def condition? : Node → Option Condition
  | .conditional c _ _ _ => some c
  | .during c _ _ => some c
  | _ => none

/-- A node without the line that it was read from, if it is a conditional or a loop. -/
def unlined : Node → Node
  | .conditional c body others _ => .conditional c body others []
  | .during c body _ => .during c body []
  | node => node

end Node

/-- The node that a header with the keyword begins, with no branches but the first. -/
def Keyword.node (keyword : Keyword) (c : Condition) (body : List Node) (line : Text) : Node :=
  match keyword with
  | .ifEqual => .conditional c body .none line
  | .elseIfEqual => .dangling line true
  | .during => .during c body line

namespace Node

/-- A header and the whole of its block are read as one node. -/
theorem ofLines_block [Host] {inner : List Text → Option (List Node)} {keyword : Keyword}
    (hk : keyword ≠ .elseIfEqual) {c : Condition} {inline : Option Text} {line : Text}
    {rest : List Text} {nodes : Option (List Node)}
    (h : Line.ofTrimmed line = .header ⟨keyword.head c, inline, line⟩)
    (hbody : body inner ⟨keyword.head c, inline, line⟩ rest = ofBody nodes []) :
    ofLines inner (line :: rest) = nodes.map fun nodes => [keyword.node c nodes line] := by
  cases nodes with
  | none =>
    refine ofLines_tooDeep h ?_
    cases keyword with
    | elseIfEqual => exact absurd rfl hk
    | ifEqual | during => simp only [ofHeader, Keyword.head] at hbody ⊢; rw [hbody]; rfl
  | some nodes =>
    have hnode : ofHeader inner ⟨keyword.head c, inline, line⟩ rest =
        .ok (keyword.node c nodes line, []) := by
      cases keyword with
      | ifEqual => exact ofHeader_ifEqual rfl hbody (detached_nil inner)
      | elseIfEqual => exact absurd rfl hk
      | during => exact ofHeader_during rfl hbody
    rw [ofLines_header h hnode, ofLines]
    rfl

end Node

theorem Keyword.condition?_node {keyword : Keyword} (hk : keyword ≠ .elseIfEqual) (c : Condition)
    (body : List Node) (line : Text) : (keyword.node c body line).condition? = some c := by
  cases keyword with
  | elseIfEqual => exact absurd rfl hk
  | ifEqual | during => rfl

theorem Keyword.unlined_node {keyword : Keyword} (hk : keyword ≠ .elseIfEqual) (c : Condition)
    (body : List Node) (line : Text) :
    (keyword.node c body line).unlined = keyword.node c body [] := by
  cases keyword with
  | elseIfEqual => exact absurd rfl hk
  | ifEqual | during => rfl

/-! ## The two forms of a block -/

namespace Heading

variable (h : Heading)

/-- The line of a heading with a block of one statement. -/
def inline (s : Text) : Text :=
  h.keyword.line h.left.text h.right.text (" \x7b ".toList ++ s ++ " \x7d".toList)

theorem trim_inline (s : Text) : Text.trim (h.inline s) = h.inline s := by
  refine h.keyword.trim_line _ _ ?_
  have htrim := Text.trim_cons_append (c := '>') rfl (" \x7b ".toList ++ s ++ [' '])
    (t := ['\x7d']) rfl (by simp)
  simpa using htrim

/-- The block on the lines that follow. -/
theorem parse_text [Host] (hk : h.keyword ≠ .elseIfEqual) (s : Operand)
    (hopens : Block.opens s.text = false) (hcloses : Block.closes s.text = false) :
    Node.parse [h.text, s.text, closingLine] =
      (Node.ofLinesWithin (Host.blocks - 1) [s.text]).map fun body =>
      [h.keyword.node ⟨h.left.text, h.right.text⟩ body h.text] := by
  have hshifts : Block.Shifts [s.text] 0 0 := by
    have := Block.shifts_of_not_closes hcloses
    rwa [hopens] at this
  rw [Node.parse_eq, List.map_cons, List.map_cons, List.map_singleton, h.trim_text, s.trimmed,
    trim_closingLine]
  refine Node.ofLines_block hk h.ofTrimmed_text ?_
  exact Node.body_closed rfl hshifts rfl []

/-- The block on the line of the heading, with no angle before a brace in it. -/
theorem parse_inline_of_not_angleBrace [Host] (hk : h.keyword ≠ .elseIfEqual) (s : Operand)
    (hs : ¬ Text.AngleBrace s.text) :
    Node.parse [h.inline s.text] = (Node.ofLinesWithin (Host.blocks - 1) [s.text]).map fun body =>
      [h.keyword.node ⟨h.left.text, h.right.text⟩ body (h.inline s.text)] := by
  have hline : h.inline s.text = h.keyword.line h.left.text h.right.text
      ([' '] ++ '\x7b' :: ([' '] ++ s.text ++ [' '] ++ ['\x7d'])) := by
    simp [inline]
  have hbody : Text.trim ([' '] ++ s.text ++ [' ']) = s.text := by
    rw [Text.trim_append_of_isBlank rfl, List.singleton_append,
      Text.trim_cons_of_isBlank rfl, s.trimmed]
  have hblank : ∀ c ∈ [' '], Text.isBlank c = true := List.forall_mem_singleton.2 rfl
  have hread := h.keyword.ofTrimmed_line h.left h.noComparison h.right.text [' ']
    ([' '] ++ s.text ++ [' '])
    h.right.ne_nil h.right.oneLine hblank (by simpa using s.oneLine)
    fun hangle => hs (hangle.middle (by decide) (by decide))
  rw [← hline, hbody, h.right.trimmed] at hread
  rw [Node.parse_eq, List.map_singleton, h.trim_inline]
  refine Node.ofLines_block hk hread ?_
  rw [Node.body_inline rfl, if_neg (by simpa using s.ne_nil)]

/-- The block on the line of the heading, with an angle before a brace in it: the condition ends
there. -/
theorem parse_inline_of_angleBrace [Host] (hk : h.keyword ≠ .elseIfEqual) {u blanks v : Text}
    (hline : '\n' ∉ u ++ '>' :: (blanks ++ '\x7b' :: v))
    (hblanks : ∀ c ∈ blanks, Text.isBlank c = true) (hv : ¬ Text.AngleBrace v) :
    Node.parse [h.inline (u ++ '>' :: (blanks ++ '\x7b' :: v))] =
      (Node.ofLinesWithin (Host.blocks - 1)
        (if (Text.trim v).isEmpty then [] else [Text.trim v])).map fun body =>
        [h.keyword.node ⟨h.left.text, h.right.text ++ '>' :: Text.trimEnd (" \x7b ".toList ++ u)⟩
          body (h.inline (u ++ '>' :: (blanks ++ '\x7b' :: v)))] := by
  have heq : h.inline (u ++ '>' :: (blanks ++ '\x7b' :: v)) = h.keyword.line h.left.text
      (h.right.text ++ '>' :: (" \x7b ".toList ++ u))
      (blanks ++ '\x7b' :: (v ++ [' '] ++ ['\x7d'])) := by
    simp [inline, Keyword.line]
  simp only [List.mem_append, List.mem_cons, not_or] at hline
  have hread := h.keyword.ofTrimmed_line h.left h.noComparison
    (h.right.text ++ '>' :: (" \x7b ".toList ++ u)) blanks
    (v ++ [' ']) (by simp) (by simpa using ⟨h.right.oneLine, hline.1⟩) hblanks
    (by simpa using hline.2.2.2.2)
    fun hangle => hv (Text.AngleBrace.middle (a := []) hangle (by simp) (by decide))
  rw [← heq, Text.trim_append_of_isBlank rfl, Text.trim_operand_append _ rfl] at hread
  rw [Node.parse_eq, List.map_singleton, h.trim_inline]
  exact Node.ofLines_block hk hread (Node.body_inline rfl [])

/-- A block of one statement is read alike on the line of its heading and on the lines that follow,
but for the line of the node, if no angle before a brace stands in the statement; else the two forms
have different conditions. -/
theorem parse_inline [Host] (hk : h.keyword ≠ .elseIfEqual) (s : Operand)
    (hopens : Block.opens s.text = false) (hcloses : Block.closes s.text = false) :
    (¬ Text.AngleBrace s.text → (Node.parse [h.inline s.text]).map (List.map Node.unlined) =
        (Node.parse [h.text, s.text, closingLine]).map (List.map Node.unlined)) ∧
      (Text.AngleBrace s.text → ∀ nodes, Node.parse [h.text, s.text, closingLine] = some nodes →
        (Node.parse [h.inline s.text]).map (List.map Node.condition?) ≠
          some (nodes.map Node.condition?)) := by
  rw [h.parse_text hk s hopens hcloses]
  refine ⟨fun hs => ?_, fun hs nodes hnodes heq => ?_⟩
  · rw [h.parse_inline_of_not_angleBrace hk s hs, Option.map_map, Option.map_map]
    congr 1
    funext body
    simp [Keyword.unlined_node hk]
  · obtain ⟨u, blanks, v, htext, hblanks, hv⟩ := hs.exists_last
    obtain ⟨body, -, rfl⟩ := Option.map_eq_some_iff.1 hnodes
    have hline := s.oneLine
    rw [htext] at hline heq
    rw [h.parse_inline_of_angleBrace hk hline hblanks hv, Option.map_map] at heq
    obtain ⟨body', -, hconditions⟩ := Option.map_eq_some_iff.1 heq
    simp [Keyword.condition?_node hk] at hconditions

/-- A condition that holds. -/
def unit : Heading :=
  let one : Operand := ⟨⟨"1".toList, by decide, by decide⟩, by decide⟩
  ⟨.ifEqual, one, one, by decide⟩

/-- A quoted angle before a blank. -/
def quotedAngle : Operand := ⟨⟨"log(\"<a> b\")".toList, by decide, by decide⟩, by decide⟩

/-- A quoted angle before a brace. -/
def quotedBrace : Operand := ⟨⟨"log(\"<a> \x7bb\x7d\")".toList, by decide, by decide⟩, by decide⟩

theorem parse_inline_quoted :
    (Node.parse ["If <1> =? <1> \x7b log(\"<a> b\") \x7d".toList]).map (List.map Node.unlined) =
        (Node.parse (["If <1> =? <1> \x7b", "log(\"<a> b\")", "\x7d"].map String.toList)).map
          (List.map Node.unlined) ∧
      ∀ nodes, Node.parse (["If <1> =? <1> \x7b", "log(\"<a> \x7bb\x7d\")", "\x7d"].map
        String.toList) = some nodes →
        (Node.parse ["If <1> =? <1> \x7b log(\"<a> \x7bb\x7d\") \x7d".toList]).map
          (List.map Node.condition?) ≠
          some (nodes.map Node.condition?) :=
  ⟨(unit.parse_inline (by decide) quotedAngle (by decide) (by decide)).1 (by decide),
    (unit.parse_inline (by decide) quotedBrace (by decide) (by decide)).2 (by decide)⟩

/-- The condition takes in the statement up to the quoted angle. -/
theorem condition?_inline_quotedBrace :
    (Node.parse [unit.inline quotedBrace.text]).map (List.map Node.condition?) =
        some [some ⟨['1'], "1> \x7b log(\"<a".toList⟩] ∧
      (Node.parse [unit.text, quotedBrace.text, closingLine]).map (List.map Node.condition?) =
        some [some ⟨['1'], ['1']⟩] := by
  decide +kernel

end Heading

end LineScript
