import LineScript.Proofs.Block.Every
import LineScript.Proofs.Line.Part

/-!
# The parts of a tree

A tree is read from lines, and every text in it is a part of one of them (`Node.partOf_of_parse`).
The lines that the reader passes on are parts of lines too: what follows a closing brace, and the
block on the line of a header. So any property that the parts of a text inherit goes from the lines
to the tree, and the proof needs no more of it.
-/

namespace LineScript

mutual

/-- The texts of a node. -/
def Node.texts : Node → List Text
  | .statement statement => statement.texts
  | .conditional condition body rest line =>
    line :: condition.texts ++ Node.textsAll body ++ rest.texts
  | .during condition body line => line :: condition.texts ++ Node.textsAll body
  | .dangling line _ => [line]

/-- The texts of alternatives. -/
def Alternative.texts : Alternative → List Text
  | .none => []
  | .otherwise body => Node.textsAll body
  | .elseIf condition body rest => condition.texts ++ Node.textsAll body ++ rest.texts

/-- The texts of nodes. -/
def Node.textsAll : List Node → List Text
  | [] => []
  | node :: nodes => node.texts ++ Node.textsAll nodes

end

namespace Node

/-- The header of a block that is never closed. -/
def Interruption.texts : Interruption → List Text
  | .tooDeep => []
  | .unclosed header => [header]

variable {α : Type} {D : Text → Prop} {inner : List Text → Option (List Node)}

/-- With a text, `D` holds of all its parts. -/
def Inherited (D : Text → Prop) : Prop := ∀ s t : Text, D s → t.PartOf s → D t

/-- From lines that satisfy `D`, `inner` reads only texts that do. -/
def ReadsParts (D : Text → Prop) (inner : List Text → Option (List Node)) : Prop :=
  ∀ lines nodes, (∀ line ∈ lines, D line) → inner lines = some nodes → ∀ t ∈ textsAll nodes, D t

/-- What was read and the lines after it satisfy `D`, or the header of a block that is never closed
does. -/
def Keeps (D : Text → Prop) (texts : α → List Text) : Except Interruption (α × List Text) → Prop
  | .ok (a, rest) => (∀ t ∈ texts a, D t) ∧ ∀ line ∈ rest, D line
  | .error e => ∀ t ∈ e.texts, D t

namespace Keeps

variable {β : Type} {texts : α → List Text} {result : Except Interruption (α × List Text)}

theorem of_ok (h : Keeps D texts result) {a : α} {rest : List Text} (hr : result = .ok (a, rest)) :
    (∀ t ∈ texts a, D t) ∧ ∀ line ∈ rest, D line := by
  rw [hr] at h
  exact h

theorem of_error (h : Keeps D texts result) {e : Interruption} (hr : result = .error e)
    {others : β → List Text} :
    Keeps D others (.error e) := by
  rw [hr] at h
  exact h

end Keeps

theorem Inherited.header (hD : Inherited D) {line : Text} {header : Header} (hline : D line)
    (h : Line.ofTrimmed line = .header header) : ∀ t ∈ header.texts, D t :=
  fun t ht => hD line t hline (Line.partOf_of_header h t ht)

theorem Inherited.afterClosing (hD : Inherited D) {closing : Text} {rest : List Text}
    (hclosing : D closing) (hrest : ∀ line ∈ rest, D line) :
    ∀ line ∈ afterClosing closing rest, D line := by
  unfold Node.afterClosing
  split
  · next remainder =>
    dsimp only
    split
    · exact hrest
    · refine List.forall_mem_cons.2 ⟨hD _ _ hclosing ?_, hrest⟩
      exact (Text.partOf_trim remainder).cons _
  · exact hrest

theorem keeps_body (hD : Inherited D) (hi : ReadsParts D inner) {header : Header}
    {lines : List Text} (hheader : ∀ t ∈ header.texts, D t) (hlines : ∀ line ∈ lines, D line) :
    Keeps D textsAll (body inner header lines) := by
  unfold body
  split
  · next line hinline =>
    have hline : D line := hheader line (by simp [Header.texts, hinline])
    split
    · next nodes hnodes =>
      refine ⟨hi _ nodes ?_ hnodes, hlines⟩
      split <;> simp [hline]
    · simp [Keeps, Interruption.texts]
  · split
    · exact List.forall_mem_singleton.2 (hheader _ List.mem_cons_self)
    · next span hspan =>
      rw [Block.eq_of_split? hspan, List.forall_mem_append, List.forall_mem_cons] at hlines
      obtain ⟨hbody, hclosing, hrest⟩ := hlines
      split
      · next nodes hnodes => exact ⟨hi _ nodes hbody hnodes, hD.afterClosing hclosing hrest⟩
      · simp [Keeps, Interruption.texts]

/-- The block that the first line that is not empty opens. -/
theorem keeps_branch (hD : Inherited D) (hi : ReadsParts D inner) {lines tail : List Text}
    {line : Text} {header : Header} (hlines : ∀ line ∈ lines, D line)
    (hl : lines.dropWhile List.isEmpty = line :: tail) (h : Line.ofTrimmed line = .header header) :
    (∀ t ∈ header.texts, D t) ∧ Keeps D textsAll (body inner header tail) := by
  have hd : ∀ l ∈ line :: tail, D l :=
    fun l hmem => hlines l ((List.dropWhile_suffix _).subset (hl ▸ hmem))
  rw [List.forall_mem_cons] at hd
  exact ⟨hD.header hd.1 h, keeps_body hD hi (hD.header hd.1 h) hd.2⟩

theorem keeps_alternatives (hD : Inherited D) (hi : ReadsParts D inner) {lines : List Text}
    (hlines : ∀ line ∈ lines, D line) : Keeps D Alternative.texts (alternatives inner lines) := by
  fun_induction alternatives inner lines with
  | case1 | case7 | case8 => exact ⟨by simp [Alternative.texts], hlines⟩
  | case2 lines line tail hl hlt header hh condition hc e hb
  | case5 lines line tail hl hlt header hh ho e hb =>
    exact (keeps_branch hD hi hlines hl hh).2.of_error hb
  | case3 lines line tail hl hlt header hh condition hc nodes rest hb this e ho ih =>
    obtain ⟨-, hrest⟩ := (keeps_branch hD hi hlines hl hh).2.of_ok hb
    exact (ih hrest).of_error ho
  | case4 lines line tail hl hlt header hh condition hc nodes rest hb this others rest' ho ih =>
    obtain ⟨hheader, hkeeps⟩ := keeps_branch hD hi hlines hl hh
    obtain ⟨hbody, hrest⟩ := hkeeps.of_ok hb
    obtain ⟨hothers, hrest'⟩ := (ih hrest).of_ok ho
    have hcondition : ∀ t ∈ condition.texts, D t :=
      fun t ht => hheader t (by simp [Header.texts, hc, Head.texts, ht])
    refine ⟨?_, hrest'⟩
    rw [Alternative.texts, List.forall_mem_append, List.forall_mem_append]
    exact ⟨⟨hcondition, hbody⟩, hothers⟩
  | case6 lines line tail hl hlt header hh ho nodes rest hb =>
    rw [Keeps, Alternative.texts]
    exact (keeps_branch hD hi hlines hl hh).2.of_ok hb

theorem keeps_ofHeader (hD : Inherited D) (hi : ReadsParts D inner) {header : Header}
    {lines : List Text} (hheader : ∀ t ∈ header.texts, D t) (hlines : ∀ line ∈ lines, D line) :
    Keeps D texts (ofHeader inner header lines) := by
  have hline : D header.line := hheader _ List.mem_cons_self
  have hhead : ∀ t ∈ header.head.texts, D t := fun t ht => hheader t (by simp [Header.texts, ht])
  have hkeeps := keeps_body hD hi hheader hlines
  unfold ofHeader
  split
  · next condition hc =>
    rw [hc, Head.texts] at hhead
    split
    · next e hb => exact hkeeps.of_error hb
    · next nodes rest hb =>
      obtain ⟨hbody, hrest⟩ := hkeeps.of_ok hb
      have halternatives := keeps_alternatives hD hi hrest
      split
      · next e ho => exact halternatives.of_error ho
      · next others rest' ho =>
        obtain ⟨hothers, hrest'⟩ := halternatives.of_ok ho
        refine ⟨?_, hrest'⟩
        rw [texts, List.forall_mem_append, List.forall_mem_append, List.forall_mem_cons]
        exact ⟨⟨⟨hline, hhead⟩, hbody⟩, hothers⟩
  · next condition hc =>
    rw [hc, Head.texts] at hhead
    split
    · next e hb => exact hkeeps.of_error hb
    · next nodes rest hb =>
      obtain ⟨hbody, hrest⟩ := hkeeps.of_ok hb
      refine ⟨?_, hrest⟩
      rw [texts, List.forall_mem_append, List.forall_mem_cons]
      exact ⟨⟨hline, hhead⟩, hbody⟩
  · exact ⟨by simp [texts, hline], hlines⟩
  · exact ⟨by simp [texts, hline], hlines⟩

theorem readsParts_ofLines [Host] (hD : Inherited D) (hi : ReadsParts D inner) :
    ReadsParts D (ofLines inner) := by
  intro lines nodes hlines h
  fun_induction ofLines inner lines generalizing nodes with
  | case1 =>
    cases h
    simp [textsAll]
  | case2 line rest skipped hs ih => exact ih nodes (List.forall_mem_cons.1 hlines).2 h
  | case3 | case7 => cases h
  | case4 line rest statement hskip hs hdeep ih =>
    obtain ⟨more, hm, rfl⟩ := Option.map_eq_some_iff.1 h
    rw [List.forall_mem_cons] at hlines
    rw [textsAll, texts, List.forall_mem_append]
    exact ⟨fun t ht => hD line t hlines.1 (Line.partOf_of_statement hs t ht), ih more hlines.2 hm⟩
  | case5 line rest header hh node rest' ho this ih =>
    obtain ⟨more, hm, rfl⟩ := Option.map_eq_some_iff.1 h
    rw [List.forall_mem_cons] at hlines
    obtain ⟨hnode, hrest⟩ := (keeps_ofHeader hD hi (hD.header hlines.1 hh) hlines.2).of_ok ho
    rw [textsAll, List.forall_mem_append]
    exact ⟨hnode, ih more hrest hm⟩
  | case6 line rest header hh opener ho =>
    cases h
    rw [List.forall_mem_cons] at hlines
    have hheader := hD.header hlines.1 hh
    have hopener := keeps_ofHeader hD hi hheader hlines.2
    rw [ho] at hopener
    have hboth : D header.line ∧ D opener :=
      ⟨hheader _ List.mem_cons_self, hopener _ (List.mem_singleton_self _)⟩
    simpa [textsAll, texts, Statement.texts, LineProblem.texts] using hboth

/-- Every text in a tree is a part of one of its lines. -/
theorem partOf_of_parse [Host] {lines : List Text} {nodes : List Node}
    (h : parse lines = some nodes) :
    ∀ t ∈ textsAll nodes, ∃ line ∈ lines, t.PartOf line := by
  have hD : Inherited fun t => ∃ line ∈ lines, t.PartOf line :=
    fun s t ⟨line, hline, hs⟩ ht => ⟨line, hline, ht.trans hs⟩
  have hdepth : ∀ depth,
      ReadsParts (fun t => ∃ line ∈ lines, t.PartOf line) (ofLinesWithin depth) := by
    intro depth
    induction depth with
    | zero =>
      intro lines nodes _ h
      cases h
    | succ depth ih => exact readsParts_ofLines hD ih
  refine hdepth Host.blocks _ nodes ?_ h
  intro line hline
  obtain ⟨line, hmem, rfl⟩ := List.mem_map.1 hline
  exact ⟨line, hmem, Text.partOf_trim line⟩

end Node

end LineScript
