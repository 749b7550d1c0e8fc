import LineScript.Proofs.Block.Layout

/-!
# Reading two lists of lines side by side

A reading ends with a result and the lines that are left, or it is interrupted. `Alike` compares two
readings: they have the same result and are left with related lines. `Similar` says what it takes of
a relation on lines for that: the blocks that begin related lines are read alike and leave related
lines, and branches follow both or neither. Then the nodes that a header begins on related lines are
alike (`Similar.ofHeader`).

The first relation of that kind is that more lines follow. Lines that are read to their end, with no
block left open, are read as before, and what follows them as if it stood alone, unless it is a
further branch (`parse_append`).
-/

namespace LineScript

/-- Whether the head is that of a further branch of a conditional. -/
def Head.isBranch : Head → Bool
  | .elseIfEqual _ | .otherwise => true
  | .ifEqual _ | .during _ => false

/-- Whether the line is the header of a further branch of a conditional. -/
def Line.isBranch : Line → Bool
  | .header h => h.head.isBranch
  | .statement _ => false

namespace Node

/-! ## Further branches -/

/-- Whether the first of the lines that is not empty is the header of a further branch of a
conditional. -/
def branchFollows (lines : List Text) : Bool :=
  (lines.dropWhile List.isEmpty).head?.any fun line => (Line.ofTrimmed line).isBranch

variable {inner : List Text → Option (List Node)} {lines lines' rest rest' : List Text}
    {line : Text} {header : Header}

theorem branchFollows_nil_cons (lines : List Text) :
    branchFollows ([] :: lines) = branchFollows lines := rfl

theorem dropWhile_isEmpty_cons (hne : line ≠ []) (lines : List Text) :
    (line :: lines).dropWhile List.isEmpty = line :: lines :=
  List.dropWhile_cons_of_neg (by simpa using hne)

theorem branchFollows_cons (hne : line ≠ []) (lines : List Text) :
    branchFollows (line :: lines) = (Line.ofTrimmed line).isBranch := by
  rw [branchFollows, dropWhile_isEmpty_cons hne]
  rfl

/-- Without the header of a further branch, a conditional ends. -/
theorem detached_of_branchFollows (h : branchFollows lines = false) : Detached lines := by
  intro inner
  fun_cases alternatives inner lines <;> simp_all [branchFollows, Line.isBranch, Head.isBranch]

/-- A further branch has a condition or is the last one. -/
theorem exists_of_isBranch (h : (Line.ofTrimmed line).isBranch = true) :
    ∃ header, Line.ofTrimmed line = .header header ∧
      ((∃ c, header.head = .elseIfEqual c) ∨ header.head = .otherwise) := by
  cases hline : Line.ofTrimmed line with
  | statement s =>
    rw [hline] at h
    cases h
  | header header =>
    rw [hline, Line.isBranch] at h
    refine ⟨header, rfl, ?_⟩
    cases hhead : header.head with
    | elseIfEqual c => exact .inl ⟨c, rfl⟩
    | otherwise => exact .inr rfl
    | ifEqual | during =>
      rw [hhead] at h
      cases h

/-- A further branch leaves fewer lines than it begins. -/
theorem length_lt_of_branch {nodes : List Node} (hd : lines.dropWhile List.isEmpty = line :: rest)
    (hbody : body inner header rest = .ok (nodes, rest')) : rest'.length < lines.length := by
  have hle := length_le_of_body hbody
  have hdrop := (List.dropWhile_sublist (l := lines) List.isEmpty).length_le
  rw [hd, List.length_cons] at hdrop
  omega

/-! ## One step after the other -/

theorem alternatives_of_elseIf {c : Condition} (hd : lines.dropWhile List.isEmpty = line :: rest)
    (h : Line.ofTrimmed line = .header header) (hhead : header.head = .elseIfEqual c) :
    alternatives inner lines = (body inner header rest).bind fun r =>
      (alternatives inner r.2).map fun others => (.elseIf c r.1 others.1, others.2) := by
  fun_cases alternatives inner lines <;> simp_all [Except.bind, Except.map]

theorem alternatives_of_otherwise (hd : lines.dropWhile List.isEmpty = line :: rest)
    (h : Line.ofTrimmed line = .header header) (hhead : header.head = .otherwise) :
    alternatives inner lines = (body inner header rest).map fun r => (.otherwise r.1, r.2) := by
  fun_cases alternatives inner lines <;> simp_all [Except.map]

theorem ofHeader_of_ifEqual {c : Condition} (hhead : header.head = .ifEqual c) (rest : List Text) :
    ofHeader inner header rest = (body inner header rest).bind fun r =>
      (alternatives inner r.2).map fun others =>
        (.conditional c r.1 others.1 header.line, others.2) := by
  fun_cases ofHeader inner header rest <;> simp_all [Except.bind, Except.map]

theorem ofHeader_of_during {c : Condition} (hhead : header.head = .during c) (rest : List Text) :
    ofHeader inner header rest = (body inner header rest).map fun r =>
      (.during c r.1 header.line, r.2) := by
  fun_cases ofHeader inner header rest <;> simp_all [Except.map]

/-- What a statement adds to the nodes. -/
def ofStatement [Host] : Statement → Option (List Node)
  | .skip _ => some []
  | s => if (Line.statement s).isTooDeep then none else some [.statement s]

theorem ofLines_of_statement [Host] {s : Statement} (h : Line.ofTrimmed line = .statement s)
    (rest : List Text) :
    ofLines inner (line :: rest) = (ofStatement s).bind fun first =>
      (ofLines inner rest).map (first ++ ·) := by
  rw [ofLines, h]
  cases s with
  | skip t => exact (Option.map_id_apply (x := ofLines inner rest)).symm
  | _ =>
    dsimp only [ofStatement]
    split <;> rfl

/-- The nodes of lines that begin with a header, from the node that it begins. -/
def ofNode [Host] (inner : List Text → Option (List Node)) (header : Header) :
    Except Interruption (Node × List Text) → Option (List Node)
  | .ok (node, rest) => (ofLines inner rest).map (node :: ·)
  | .error (.unclosed opener) => some [.statement (.invalid header.line (.unclosed opener))]
  | .error .tooDeep => none

theorem ofLines_of_header [Host] (h : Line.ofTrimmed line = .header header) (rest : List Text) :
    ofLines inner (line :: rest) = ofNode inner header (ofHeader inner header rest) := by
  rw [ofLines, h]
  dsimp only
  split <;> simp_all [ofNode]

/-- Induction on lines as they are read: after a header, what is read next are the lines that its
node leaves. -/
theorem lines_induction (inner : List Text → Option (List Node)) {motive : List Text → Prop}
    (nil : motive [])
    (statement : ∀ line rest s, Line.ofTrimmed line = .statement s → motive rest →
      motive (line :: rest))
    (header : ∀ line rest header, Line.ofTrimmed line = .header header →
      (∀ node left, ofHeader inner header rest = .ok (node, left) → motive left) →
        motive (line :: rest)) (lines : List Text) : motive lines := by
  induction hn : lines.length using Nat.strong_induction_on generalizing lines with
  | _ n ih =>
    cases lines with
    | nil => exact nil
    | cons line rest =>
      rw [List.length_cons] at hn
      cases hline : Line.ofTrimmed line with
      | statement s => exact statement line rest s hline (ih rest.length (by omega) rest rfl)
      | header h =>
        refine header line rest h hline fun node left hnode => ?_
        have hle := length_le_of_ofHeader hnode
        exact ih left.length (by omega) left rfl

/-! ## Readings alike -/

variable {R : List Text → List Text → Prop} {strict : Prop} {α β : Type}

/-- Both readings have the same result, and the lines left are related, or both are interrupted for
the same reason. Unless `strict` holds, nothing is said of the second if the first finds a block
that is never closed. -/
inductive Alike (R : List Text → List Text → Prop) (strict : Prop) :
    (first second : Except Interruption (α × List Text)) → Prop
  | ok (a : α) {rest rest' : List Text} : R rest rest' →
    Alike R strict (.ok (a, rest)) (.ok (a, rest'))
  | error (e : Interruption) : Alike R strict (.error e) (.error e)
  | unclosed (header : Text) (second : Except Interruption (α × List Text)) :
    ¬ strict → Alike R strict (.error (.unclosed header)) second

theorem Alike.map {first second : Except Interruption (α × List Text)}
    (h : Alike R strict first second) (f : α → β) :
    Alike R strict (first.map fun r => (f r.1, r.2)) (second.map fun r => (f r.1, r.2)) := by
  cases h with
  | ok a hrest => exact .ok (f a) hrest
  | error e => exact .error e
  | unclosed header second hstrict => exact .unclosed header _ hstrict

theorem Alike.bind {first second : Except Interruption (α × List Text)}
    (h : Alike R strict first second) {next : α × List Text → Except Interruption (β × List Text)}
    (hnext : ∀ a rest rest', first = .ok (a, rest) → R rest rest' →
      Alike R strict (next (a, rest)) (next (a, rest'))) :
    Alike R strict (first.bind next) (second.bind next) := by
  cases h with
  | ok a hrest => exact hnext a _ _ rfl hrest
  | error e => exact .error e
  | unclosed header second hstrict => exact .unclosed header _ hstrict

theorem Alike.exists_ok {a : α} {second : Except Interruption (α × List Text)}
    (h : Alike R strict (.ok (a, rest)) second) :
    ∃ rest', second = .ok (a, rest') ∧ R rest rest' := by
  cases h with
  | ok a hrest => exact ⟨_, rfl, hrest⟩

/-- Two blocks are closed by the same line, hold the same nodes, and related lines follow. -/
structure SpanAlike (inner : List Text → Option (List Node)) (R : List Text → List Text → Prop)
    (s s' : Block.Span) : Prop where
  body : inner s.body = inner s'.body
  closing : s.closing = s'.closing
  rest : R s.rest s'.rest

/-- What it takes of a relation on lines for related lines to be read alike. -/
structure Similar (inner : List Text → Option (List Node)) (R : List Text → List Text → Prop)
    (strict : Prop) : Prop where
  cons (line : Text) {lines lines' : List Text} : R lines lines' →
    R (line :: lines) (line :: lines')
  split {lines lines' : List Text} : R lines lines' →
    (∃ s s', Block.split? 0 lines = some s ∧ Block.split? 0 lines' = some s' ∧
      SpanAlike inner R s s') ∨
      (Block.split? 0 lines = none ∧ (strict → Block.split? 0 lines' = none))
  branch {lines lines' : List Text} : R lines lines' →
    (branchFollows lines = false ∧ branchFollows lines' = false) ∨
      ∃ line rest rest', lines.dropWhile List.isEmpty = line :: rest ∧
        lines'.dropWhile List.isEmpty = line :: rest' ∧ R rest rest'

namespace Similar

theorem afterClosing (h : Similar inner R strict) (closing : Text) (hrest : R rest rest') :
    R (Node.afterClosing closing rest) (Node.afterClosing closing rest') := by
  unfold Node.afterClosing
  split
  · dsimp only
    split
    · exact hrest
    · exact h.cons _ hrest
  · exact hrest

theorem body (h : Similar inner R strict) (header : Header) (hrest : R rest rest') :
    Alike R strict (Node.body inner header rest) (Node.body inner header rest') := by
  unfold Node.body
  split
  · split
    · exact .ok _ hrest
    · exact .error _
  · rcases h.split hrest with ⟨s, s', hs, hs', halike⟩ | ⟨hs, hs'⟩
    · simp only [hs, hs', ← halike.body, ← halike.closing]
      split
      · exact .ok _ (h.afterClosing _ halike.rest)
      · exact .error _
    · by_cases hstrict : strict
      · simp only [hs, hs' hstrict]
        exact .error _
      · simp only [hs]
        exact .unclosed _ _ hstrict

theorem alternatives (h : Similar inner R strict) {lines lines' : List Text}
    (hlines : R lines lines') :
    Alike R strict (Node.alternatives inner lines) (Node.alternatives inner lines') := by
  have hnone (hb : branchFollows lines = false) (hb' : branchFollows lines' = false) :
      Alike R strict (Node.alternatives inner lines) (Node.alternatives inner lines') := by
    rw [detached_of_branchFollows hb inner, detached_of_branchFollows hb' inner]
    exact .ok _ hlines
  rcases h.branch hlines with ⟨hb, hb'⟩ | ⟨line, rest, rest', hd, hd', hrest⟩
  · exact hnone hb hb'
  cases hbranch : (Line.ofTrimmed line).isBranch with
  | false =>
    exact hnone (by rw [branchFollows, hd]; exact hbranch)
      (by rw [branchFollows, hd']; exact hbranch)
  | true =>
    obtain ⟨header, hh, ⟨c, hhead⟩ | hhead⟩ := exists_of_isBranch hbranch
    · rw [alternatives_of_elseIf hd hh hhead, alternatives_of_elseIf hd' hh hhead]
      refine (h.body header hrest).bind fun nodes left left' hbody hleft => ?_
      have hlength := length_lt_of_branch hd hbody
      exact (h.alternatives hleft).map (Alternative.elseIf c nodes)
    · rw [alternatives_of_otherwise hd hh hhead, alternatives_of_otherwise hd' hh hhead]
      exact (h.body header hrest).map Alternative.otherwise
termination_by lines.length

/-- The nodes that a header begins on related lines are alike. -/
theorem ofHeader (h : Similar inner R strict) (header : Header) (hrest : R rest rest') :
    Alike R strict (Node.ofHeader inner header rest) (Node.ofHeader inner header rest') := by
  cases hhead : header.head with
  | ifEqual c =>
    rw [ofHeader_of_ifEqual hhead, ofHeader_of_ifEqual hhead]
    refine (h.body header hrest).bind fun nodes left left' _ hleft => ?_
    exact (h.alternatives hleft).map (conditional c nodes · header.line)
  | during c =>
    rw [ofHeader_of_during hhead, ofHeader_of_during hhead]
    exact (h.body header hrest).map (during c · header.line)
  | elseIfEqual c =>
    simp only [Node.ofHeader, hhead]
    exact .ok _ hrest
  | otherwise =>
    simp only [Node.ofHeader, hhead]
    exact .ok _ hrest

end Similar

end Node

/-! ## Lines after lines -/

/-- A block that is closed does not depend on the lines after it. -/
theorem Block.split?_append {n : Nat} {lines : List Text} {s : Span} (h : split? n lines = some s)
    (more : List Text) : split? n (lines ++ more) = some { s with rest := s.rest ++ more } := by
  induction lines generalizing n s with
  | nil => cases h
  | cons line lines ih =>
    have hcons {m : Nat} (hm : (split? m lines).map (Span.cons line) = some s) :
        (split? m (lines ++ more)).map (Span.cons line) =
          some { s with rest := s.rest ++ more } := by
      obtain ⟨t, ht, rfl⟩ := Option.map_eq_some_iff.1 hm
      rw [ih ht]
      rfl
    rw [split?.eq_def] at h
    rw [List.cons_append, split?.eq_def]
    dsimp only at h ⊢
    cases hc : closes line with
    | false =>
      rw [hc, if_neg Bool.false_ne_true] at h
      exact hcons h
    | true =>
      rw [hc, if_pos rfl] at h
      cases n with
      | zero =>
        cases h
        rfl
      | succ n => exact hcons h

namespace Node

variable {inner : List Text → Option (List Node)} {p q : List Text}

theorem branchFollows_append (hq : branchFollows q = false) (p : List Text) :
    (branchFollows p = false ∧ branchFollows (p ++ q) = false) ∨
      ∃ line rest, p.dropWhile List.isEmpty = line :: rest ∧
        (p ++ q).dropWhile List.isEmpty = line :: (rest ++ q) := by
  cases hd : p.dropWhile List.isEmpty with
  | nil =>
    refine .inl ⟨by rw [branchFollows, hd]; rfl, ?_⟩
    rw [branchFollows, List.dropWhile_append, hd]
    exact hq
  | cons line rest => exact .inr ⟨line, rest, rfl, by rw [List.dropWhile_append, hd]; rfl⟩

/-- More lines are read alike with lines that are complete without them. -/
theorem similar_append (hq : branchFollows q = false) :
    Similar inner (fun p pq => pq = p ++ q) False where
  cons line _ _ h := by rw [h, List.cons_append]
  split {p pq} h := by
    subst h
    cases hs : Block.split? 0 p with
    | none => exact .inr ⟨rfl, False.elim⟩
    | some s => exact .inl ⟨s, _, rfl, Block.split?_append hs q, rfl, rfl, rfl⟩
  branch {p pq} h := by
    subst h
    rcases branchFollows_append hq p with hnone | ⟨line, rest, hd, hd'⟩
    · exact .inl hnone
    · exact .inr ⟨line, rest, rest ++ q, hd, hd', rfl⟩

/-- Whether the node stands for a block that is never closed. -/
def isUnclosed : Node → Bool
  | .statement (.invalid _ (.unclosed _)) => true
  | _ => false

/-- Lines that are read to their end, and lines after them that do not begin with a further branch,
are read one after the other. -/
theorem ofLines_append [Host] (hq : branchFollows q = false) {nodes : List Node}
    (h : ofLines inner p = some nodes) (hend : ∀ node ∈ nodes, node.isUnclosed = false) :
    ofLines inner (p ++ q) = (ofLines inner q).map (nodes ++ ·) := by
  induction p using lines_induction inner generalizing nodes with
  | nil =>
    rw [ofLines] at h
    cases h
    exact (Option.map_id_apply (x := ofLines inner q)).symm
  | statement line rest s hline ih =>
    rw [ofLines_of_statement hline] at h
    obtain ⟨first, hfirst, h⟩ := Option.bind_eq_some_iff.1 h
    obtain ⟨more, hmore, rfl⟩ := Option.map_eq_some_iff.1 h
    rw [List.cons_append, ofLines_of_statement hline, hfirst, Option.bind_some,
      ih hmore (List.forall_mem_append.1 hend).2, Option.map_map]
    simp only [Function.comp_def, List.append_assoc]
  | header line rest header hline ih =>
    rw [ofLines_of_header hline] at h
    have halike : Alike _ _ (ofHeader inner header rest) (ofHeader inner header (rest ++ q)) :=
      (similar_append hq).ofHeader header rfl
    cases hnode : ofHeader inner header rest with
    | error e =>
      rw [hnode] at h
      cases e with
      | tooDeep => cases h
      | unclosed opener =>
        -- A block that is left open is a node, which lines that are read to their end do not have.
        cases h
        exact absurd (hend _ List.mem_cons_self) (by simp [isUnclosed])
    | ok r =>
      obtain ⟨node, left⟩ := r
      rw [hnode] at h halike
      obtain ⟨more, hmore, rfl⟩ := Option.map_eq_some_iff.1 h
      obtain ⟨left', hnode', rfl⟩ := halike.exists_ok
      rw [List.cons_append, ofLines_of_header hline, hnode', ofNode, ih node left hnode hmore
        (List.forall_mem_cons.1 hend).2, Option.map_map]
      rfl

/-- Whether the lines are read to their end: no block among them is left open, and none is nested
too deep. -/
def readsToEnd [Host] (lines : List Text) : Bool := (parse lines).any (·.all (!·.isUnclosed))

theorem parse_append [Host] (hp : readsToEnd p = true)
    (hq : branchFollows (q.map Text.trim) = false) :
    parse (p ++ q) = (parse p).bind fun nodes => (parse q).map (nodes ++ ·) := by
  cases hnodes : parse p with
  | none =>
    rw [readsToEnd, hnodes] at hp
    cases hp
  | some nodes =>
    have hend : ∀ node ∈ nodes, node.isUnclosed = false := by simpa [readsToEnd, hnodes] using hp
    rw [parse_eq] at hnodes
    rw [parse_eq, parse_eq, List.map_append]
    exact ofLines_append hq hnodes hend

end Node

end LineScript
