import LineScript.Proofs.Block.Alike
import LineScript.Proofs.Block.Contained
import LineScript.Proofs.Block.Every
import LineScript.Proofs.Line.Dialect

/-!
# Where a block that is never closed is reported

A block is delimited by counting braces, whether or not the lines between make sense. Between a
header and the line that closes its block as many blocks are closed as are opened
(`Block.balances_of_split?`), so each header that is read there finds its own closing line
(`Block.exists_split?_of_balances`). Hence a block that is never closed is only ever found in the
outermost list, where it ends the reading: `Node.parse_unclosed`.

`Node.Fit` is what carries the argument through the lists of lines that are read: in a block their
braces balance, and no block on a single line begins with a header that opens one of its own. Where
a line has a line feed in it, such a header can stand there, and is then reported in the node
(`Node.parse_unclosed_lineFeed`).
-/

namespace LineScript

/-! ## Balanced lines -/

namespace Block

/-- The lines close the `n` blocks that are open before them and all that they open, and no
other. -/
inductive Balances : (n : Nat) → List Text → Prop
  | nil : Balances 0 []
  | inside {n : Nat} {line : Text} {rest : List Text} : closes line = false →
    Balances (n + (opens line).toNat) rest → Balances n (line :: rest)
  | closing {n : Nat} {line : Text} {rest : List Text} : closes line = true →
    Balances (n + (opens line).toNat) rest → Balances (n + 1) (line :: rest)

theorem ite_opens (line : Text) (n : Nat) :
    (if opens line then n + 1 else n) = n + (opens line).toNat := by
  cases opens line <;> rfl

/-- The lines of a block that is closed balance. -/
theorem balances_of_split? {n : Nat} {lines : List Text} {s : Span} (h : split? n lines = some s) :
    Balances n s.body := by
  induction lines generalizing n s with
  | nil => cases h
  | cons line rest ih =>
    rw [split?.eq_def] at h
    dsimp only at h
    cases hc : closes line with
    | false =>
      rw [hc, if_neg Bool.false_ne_true, ite_opens] at h
      obtain ⟨t, ht, rfl⟩ := Option.map_eq_some_iff.1 h
      exact .inside hc (ih ht)
    | true =>
      rw [hc, if_pos rfl] at h
      cases n with
      | zero =>
        cases h
        exact .nil
      | succ n =>
        dsimp only at h
        rw [ite_opens] at h
        obtain ⟨t, ht, rfl⟩ := Option.map_eq_some_iff.1 h
        exact .closing hc (ih ht)

/-- Where more blocks are closed than a block and those in it, the block is closed, and the lines
after it balance. -/
theorem exists_split?_of_balances {n k : Nat} {lines : List Text} (h : Balances (n + k + 1) lines) :
    ∃ s, split? k lines = some s ∧ Balances (n + (opens s.closing).toNat) s.rest := by
  induction lines generalizing k with
  | nil => cases h
  | cons line rest ih =>
    rw [split?.eq_def]
    dsimp only
    cases h with
    | inside hc hrest =>
      rw [hc, if_neg Bool.false_ne_true, ite_opens]
      have hopen : n + k + 1 + (opens line).toNat = n + (k + (opens line).toNat) + 1 := by omega
      obtain ⟨s, hs, hbalances⟩ := ih (hopen ▸ hrest)
      exact ⟨s.cons line, by rw [hs]; rfl, hbalances⟩
    | closing hc hrest =>
      rw [hc, if_pos rfl]
      cases k with
      | zero => exact ⟨_, rfl, hrest⟩
      | succ k =>
        dsimp only
        rw [ite_opens]
        have hopen : n + (k + 1) + (opens line).toNat = n + (k + (opens line).toNat) + 1 := by omega
        obtain ⟨s, hs, hbalances⟩ := ih (hopen ▸ hrest)
        exact ⟨s.cons line, by rw [hs]; rfl, hbalances⟩

end Block

/-! ## Complaints -/

/-- The message of a statement that makes no sense, also in a loop. -/
def Statement.complaint? : Statement → Option Text
  | .invalid line problem => some (problem.message line)
  | .forLoop _ body _ => body.complaint?
  | _ => none

/-- The message comes from a block that cannot be delimited. -/
def Block.Complaint (message : Text) : Prop :=
  ∃ lines start failure, extract lines start = .error failure ∧ failure.message = message

/-- The complaints about blocks begin with "Missing" or with "No". -/
theorem Block.head?_of_complaint {message : Text} (h : Complaint message) :
    message.head? = some 'M' ∨ message.head? = some 'N' := by
  obtain ⟨lines, start, failure, h, rfl⟩ := h
  unfold extract at h
  dsimp only at h
  split at h
  · cases h
    exact .inr rfl
  · split at h
    · cases h
      exact .inl rfl
    · cases h

/-- The block of a header that has none on its line opens there. -/
theorem Block.extract_of_header {line : Text} {header : Header}
    (h : Line.ofText line = .header header) (hheader : header.inline = none)
    (front rest : List Text) :
    extract (front ++ line :: rest) front.length =
      match split? 0 (rest.map Text.trim) with
      | none => .error (.invalid header.line (.unclosed header.line))
      | some s => .ok (s.body, front.length + 1 + s.body.length) := by
  obtain ⟨head, inline, text⟩ := header
  cases hheader
  obtain ⟨rfl, -⟩ := Line.exists_head?_of_header h
  have hopens := Line.opens_of_header (Text.trim_trim line) h
  simp only [extract, List.drop_left, List.map_cons, List.dropWhile_cons, List.takeWhile_cons,
    hopens, Bool.not_true]
  rfl

namespace Statement

/-- Neither the statement nor one in a loop complains about a block. -/
def Undisturbed (s : Statement) : Prop := ∀ message ∈ s.complaint?, ¬ Block.Complaint message

theorem undisturbed_of_eq_none {s : Statement} (h : s.complaint? = none) : Undisturbed s := by
  intro message hmessage
  rw [h] at hmessage
  cases hmessage

theorem undisturbed_invalid {line : Text} {problem : LineProblem} {c : Char}
    (hfirst : (problem.message line).head? = some c) (hM : c ≠ 'M') (hN : c ≠ 'N') :
    Undisturbed (.invalid line problem) := by
  rintro _ ⟨⟩ h
  rcases Block.head?_of_complaint h with h | h
  · exact hM (Option.some.inj (hfirst.symm.trans h))
  · exact hN (Option.some.inj (hfirst.symm.trans h))

theorem undisturbed_unknown (line : Text) : Undisturbed (.invalid line .unknown) :=
  undisturbed_invalid (c := 'U') rfl (by decide) (by decide)

theorem undisturbed_loopBody (line : Text) : Undisturbed (.invalid line .loopBody) :=
  undisturbed_invalid (c := 'F') rfl (by decide) (by decide)

theorem complaint?_of_simple? {line : Text} {s : Statement} (h : Line.simple? line = some s) :
    s.complaint? = none := by
  simp only [Line.simple?, Option.orElse_eq_orElse, Option.orElse_eq_or, Option.or_eq_some_iff,
    Option.map_eq_some_iff] at h
  rcases h with ⟨_, -, rfl⟩ | ⟨-, ⟨_, -, rfl⟩ | ⟨-, ⟨_, -, rfl⟩ | ⟨-, ⟨_, -, rfl⟩⟩⟩⟩ <;> rfl

/-- No single line complains about a block. -/
theorem undisturbed_of_ofTrimmed {line : Text} {s : Statement}
    (h : Line.ofTrimmed line = .statement s) :
    Undisturbed s := by
  refine Line.statement_induction (P := fun _ s => Undisturbed s) ?_ ?_ ?_ ?_ ?_ h
  · exact fun _ => undisturbed_of_eq_none rfl
  · exact undisturbed_unknown
  · exact undisturbed_loopBody
  · exact fun _ _ hs => undisturbed_of_eq_none (complaint?_of_simple? hs)
  · exact fun _ _ _ _ _ hbody => hbody

end Statement

/-! ## Lines that may be read -/

namespace Line

/-- Whether the line is contained and, if it begins with a closing brace, what follows the brace is
as well. -/
def isTame (line : Text) : Bool :=
  isContained line &&
    match Text.trim line with
    | '\x7d' :: remainder => isContained remainder
    | _ => true

/-- A tame line without blanks at its ends. -/
structure Tame (line : Text) : Prop where
  trimmed : Text.trim line = line
  contained : isContained line = true
  remainder {s : Text} : line = '\x7d' :: s → isContained s = true

theorem tame_trim {line : Text} (h : isTame line = true) : Tame (Text.trim line) := by
  rw [isTame, Bool.and_eq_true] at h
  refine ⟨Text.trim_trim line, (isContained_trim line).trans h.1, fun heq => ?_⟩
  rw [heq] at h
  exact h.2

end Line

namespace Node

open Block (Balances)

variable {inner : List Text → Option (List Node)} {lines rest : List Text} {line closing : Text}
    {header : Header}
  {strict : Prop} {nodes : List Node}

/-- Lines as they are left to be read. The first may be the remainder of a closing line, whose brace
is read. If `strict` holds, the lines balance. -/
inductive Fit (strict : Prop) : List Text → Prop
  | nil : Fit strict []
  | cons {n : Nat} {line : Text} {rest : List Text} : Text.trim line = line →
    Line.isContained line = true →
    (∀ l ∈ rest, Line.Tame l) → (strict → Balances (n + (Block.opens line).toNat) rest) →
      Fit strict (line :: rest)

theorem fit_of_tame (hlines : ∀ line ∈ lines, Line.Tame line)
    (hbalances : strict → ∃ n, Balances n lines) :
    Fit strict lines := by
  cases lines with
  | nil => exact .nil
  | cons line rest =>
    rw [List.forall_mem_cons] at hlines
    have hrest : ∃ n, strict → Balances (n + (Block.opens line).toNat) rest := by
      by_cases hstrict : strict
      · obtain ⟨n, h⟩ := hbalances hstrict
        cases h with
        | inside _ h | closing _ h => exact ⟨_, fun _ => h⟩
      · exact ⟨0, fun h => absurd h hstrict⟩
    obtain ⟨n, hrest⟩ := hrest
    exact .cons hlines.1.trimmed hlines.1.contained hlines.2 hrest

namespace Fit

theorem tail (h : Fit strict (line :: rest)) : Fit strict rest := by
  cases h with
  | cons _ _ hrest hbalances => exact fit_of_tame hrest fun hstrict => ⟨_, hbalances hstrict⟩

theorem dropWhile (h : Fit strict lines) : Fit strict (lines.dropWhile List.isEmpty) := by
  induction lines with
  | nil => exact h
  | cons line rest ih =>
    rw [List.dropWhile_cons]
    split
    · exact ih h.tail
    · exact h

/-- What follows the brace of a closing line opens a block if the closing line does. -/
theorem afterClosing {n : Nat} (hclosing : Line.Tame closing) (hrest : ∀ l ∈ rest, Line.Tame l)
    (hbalances : strict → Balances (n + (Block.opens closing).toNat) rest) :
    Fit strict (Node.afterClosing closing rest) := by
  have hfit : Fit strict rest := fit_of_tame hrest fun hstrict => ⟨_, hbalances hstrict⟩
  unfold Node.afterClosing
  split
  · next remainder =>
    dsimp only
    split
    · exact hfit
    · next hne =>
      have hsuffix : remainder <:+ '\x7d' :: remainder := List.suffix_cons _ _
      have htrim := Text.trim_of_suffix hclosing.trimmed hsuffix
      have hopens : Block.opens ('\x7d' :: remainder) = Block.opens (Text.trim remainder) := by
        rw [htrim, List.isEmpty_iff] at hne
        rw [Block.opens, Block.opens, htrim,
          Text.getLast?_of_suffix ((Text.trimStart_suffix remainder).trans hsuffix) hne]
      rw [hopens] at hbalances
      exact .cons (Text.trim_trim remainder)
        ((Line.isContained_trim _).trans (hclosing.remainder rfl)) hrest hbalances
  · exact hfit

end Fit

/-! ## What is read from them -/

/-- No statement of the nodes complains about a block. -/
def AllUndisturbed (nodes : List Node) : Prop := ∀ node ∈ nodes, node.Every Statement.Undisturbed

/-- The blocks that `inner` reads have no complaint about a block in them, if they balance or are on
one line. -/
structure Delimits (inner : List Text → Option (List Node)) : Prop where
  block {lines : List Text} {nodes : List Node} : Fit True lines → inner lines = some nodes →
    AllUndisturbed nodes
  inline {line : Text} {nodes : List Node} :
    (∀ header, Line.ofTrimmed line = .header header → header.head = .otherwise) →
      inner [line] = some nodes → AllUndisturbed nodes

variable {α β : Type} {Q : α → Prop} {Q' : β → Prop}

/-- A result that satisfies `Q` and lines that are fit to be read, or an interruption, which only if
`strict` does not hold is a block that is never closed. -/
inductive Yields (strict : Prop) (Q : α → Prop) : Except Interruption (α × List Text) → Prop
  | ok {a : α} {left : List Text} : Q a → Fit strict left → Yields strict Q (.ok (a, left))
  | tooDeep : Yields strict Q (.error .tooDeep)
  | unclosed (opener : Text) : ¬ strict → Yields strict Q (.error (.unclosed opener))

theorem Yields.map {r : Except Interruption (α × List Text)} (h : Yields strict Q r) (f : α → β)
    (hf : ∀ a, Q a → Q' (f a)) : Yields strict Q' (r.map fun r => (f r.1, r.2)) := by
  cases h with
  | ok ha hleft => exact .ok (hf _ ha) hleft
  | tooDeep => exact .tooDeep
  | unclosed opener hstrict => exact .unclosed opener hstrict

theorem Yields.bind {r : Except Interruption (α × List Text)} (h : Yields strict Q r)
    {next : α × List Text → Except Interruption (β × List Text)}
    (hnext : ∀ a left, r = .ok (a, left) → Q a → Fit strict left →
      Yields strict Q' (next (a, left))) :
    Yields strict Q' (r.bind next) := by
  cases h with
  | ok ha hleft => exact hnext _ _ rfl ha hleft
  | tooDeep => exact .tooDeep
  | unclosed opener hstrict => exact .unclosed opener hstrict

theorem yields_ofBody {nodes : Option (List Node)}
    (hnodes : ∀ more, nodes = some more → AllUndisturbed more) (hrest : Fit strict rest) :
    Yields strict AllUndisturbed (ofBody nodes rest) := by
  cases nodes with
  | none => exact .tooDeep
  | some more => exact .ok (hnodes more rfl) hrest

theorem body_of_split? {s : Block.Span} (hheader : header.inline = none)
    (hs : Block.split? 0 rest = some s) :
    body inner header rest = ofBody (inner s.body) (afterClosing s.closing s.rest) := by
  simp only [body, hheader, hs]
  cases inner s.body <;> rfl

theorem body_of_unclosed (hheader : header.inline = none) (hs : Block.split? 0 rest = none) :
    body inner header rest = .error (.unclosed header.line) := by
  simp only [body, hheader, hs]

namespace Delimits

theorem body (hinner : Delimits inner) (h : Line.ofTrimmed line = .header header)
    (hfit : Fit strict (line :: rest)) :
    Yields strict AllUndisturbed (Node.body inner header rest) := by
  have hrest := hfit.tail
  cases hfit with
  | @cons n _ _ htrim hcontained htame hbalances =>
    cases hheader : header.inline with
    | some s =>
      rw [body_inline hheader]
      refine yields_ofBody (fun more hmore => ?_) hrest
      split at hmore
      · exact hinner.block .nil hmore
      · exact hinner.inline
          (fun _ => Line.otherwise_of_isContained htrim hcontained h hheader) hmore
    | none =>
      obtain ⟨head, _, text⟩ := header
      cases hheader
      rw [Line.opens_of_header htrim h] at hbalances
      cases hs : Block.split? 0 rest with
      | none =>
        -- Among lines that balance, the block that the header opens is closed.
        rw [body_of_unclosed rfl hs]
        refine .unclosed _ fun hstrict => ?_
        obtain ⟨s, hs', -⟩ := Block.exists_split?_of_balances (k := 0) (hbalances hstrict)
        rw [hs] at hs'
        cases hs'
      | some s =>
        -- Whether or not the lines around balance, those of a block that is closed do, so it is
        -- read strictly.
        rw [body_of_split? rfl hs]
        have hbody := Block.balances_of_split? hs
        rw [Block.eq_of_split? hs, List.forall_mem_append, List.forall_mem_cons] at htame
        refine yields_ofBody (fun more => hinner.block (fit_of_tame htame.1 fun _ => ⟨0, hbody⟩)) ?_
        refine .afterClosing (n := n) htame.2.1 htame.2.2 fun hstrict => ?_
        obtain ⟨s', hs', hleft⟩ := Block.exists_split?_of_balances (k := 0) (hbalances hstrict)
        cases hs.symm.trans hs'
        exact hleft

theorem alternatives (hinner : Delimits inner) {lines : List Text} (hfit : Fit strict lines) :
    Yields strict (Alternative.Every Statement.Undisturbed) (Node.alternatives inner lines) := by
  cases hbranch : branchFollows lines with
  | false =>
    rw [detached_of_branchFollows hbranch inner]
    exact .ok .none hfit
  | true =>
    obtain ⟨line, hline, hbranch⟩ := (Option.any_eq_true _ _).1 hbranch
    obtain ⟨rest, hd⟩ := List.head?_eq_some_iff.1 hline
    have hfit' := hd ▸ hfit.dropWhile
    obtain ⟨header, hh, ⟨c, hhead⟩ | hhead⟩ := exists_of_isBranch hbranch
    · rw [alternatives_of_elseIf hd hh hhead]
      refine (hinner.body hh hfit').bind fun nodes left hbody hnodes hleft => ?_
      have hlength := length_lt_of_branch hd hbody
      exact (hinner.alternatives hleft).map (Alternative.elseIf c nodes) fun _ hothers =>
        .elseIf c hnodes hothers
    · rw [alternatives_of_otherwise hd hh hhead]
      exact (hinner.body hh hfit').map Alternative.otherwise fun _ hnodes => .otherwise hnodes
termination_by lines.length

theorem ofHeader (hinner : Delimits inner) (h : Line.ofTrimmed line = .header header)
    (hfit : Fit strict (line :: rest)) :
    Yields strict (Node.Every Statement.Undisturbed) (Node.ofHeader inner header rest) := by
  cases hhead : header.head with
  | ifEqual c =>
    rw [ofHeader_of_ifEqual hhead]
    refine (hinner.body h hfit).bind fun nodes left _ hnodes hleft => ?_
    refine (hinner.alternatives hleft).map (Node.conditional c nodes · header.line)
      fun _ hothers => ?_
    exact .conditional c header.line hnodes hothers
  | during c =>
    rw [ofHeader_of_during hhead]
    exact (hinner.body h hfit).map (Node.during c · header.line) fun _ hnodes =>
      .during c header.line hnodes
  | elseIfEqual c =>
    simp only [Node.ofHeader, hhead]
    exact .ok (.dangling _ _) hfit.tail
  | otherwise =>
    simp only [Node.ofHeader, hhead]
    exact .ok (.dangling _ _) hfit.tail

end Delimits

/-- Only the last of the nodes may complain about a block, and only if `strict` does not hold. -/
def UnclosedLast (strict : Prop) (nodes : List Node) : Prop :=
  ∃ front last, nodes = front ++ last ∧ AllUndisturbed front ∧
    (last = [] ∨ ¬ strict ∧ ∃ line opener, last = [.statement (.invalid line (.unclosed opener))])

theorem UnclosedLast.append {first : List Node} (hfirst : AllUndisturbed first)
    (h : UnclosedLast strict nodes) :
    UnclosedLast strict (first ++ nodes) := by
  obtain ⟨front, last, rfl, hfront, hlast⟩ := h
  exact ⟨first ++ front, last, (List.append_assoc ..).symm,
    List.forall_mem_append.2 ⟨hfirst, hfront⟩, hlast⟩

theorem unclosedLast_nil :
    UnclosedLast strict [] := ⟨[], [], rfl, by simp [AllUndisturbed], .inl rfl⟩

theorem allUndisturbed_of_ofStatement [Host] {s : Statement}
    (h : Line.ofTrimmed line = .statement s) (hnodes : ofStatement s = some nodes) :
    AllUndisturbed nodes := by
  have hs := Statement.undisturbed_of_ofTrimmed h
  unfold ofStatement at hnodes
  split at hnodes
  · cases hnodes
    simp [AllUndisturbed]
  · split at hnodes
    · cases hnodes
    · cases hnodes
      exact List.forall_mem_singleton.2 (.statement hs)

/-- Reading goes on behind each node, where the lines are fit again, until a block is not closed. -/
theorem unclosedLast_ofLines [Host] (hinner : Delimits inner) (hfit : Fit strict lines)
    (h : ofLines inner lines = some nodes) :
    UnclosedLast strict nodes := by
  induction lines using lines_induction inner generalizing nodes with
  | nil =>
    rw [ofLines] at h
    cases h
    exact unclosedLast_nil
  | statement line rest s hline ih =>
    rw [ofLines_of_statement hline] at h
    obtain ⟨first, hfirst, h⟩ := Option.bind_eq_some_iff.1 h
    obtain ⟨more, hmore, rfl⟩ := Option.map_eq_some_iff.1 h
    exact (ih hfit.tail hmore).append (allUndisturbed_of_ofStatement hline hfirst)
  | header line rest header hline ih =>
    rw [ofLines_of_header hline] at h
    have hyields := hinner.ofHeader hline hfit
    generalize hnode : ofHeader inner header rest = r at h hyields
    cases hyields with
    | @ok node left hundisturbed hleft =>
      obtain ⟨more, hmore, rfl⟩ := Option.map_eq_some_iff.1 h
      exact (ih node left hnode hleft hmore).append (List.forall_mem_singleton.2 hundisturbed)
    | tooDeep => cases h
    | unclosed opener hstrict =>
      cases h
      exact ⟨[], _, rfl, by simp [AllUndisturbed], .inr ⟨hstrict, _, _, rfl⟩⟩

theorem UnclosedLast.of_strict (h : UnclosedLast True nodes) : AllUndisturbed nodes := by
  obtain ⟨front, last, rfl, hfront, rfl | ⟨hstrict, -⟩⟩ := h
  · rwa [List.append_nil]
  · exact absurd trivial hstrict

theorem delimits_ofLines [Host] (hinner : Delimits inner) : Delimits (ofLines inner) where
  block hfit h := (unclosedLast_ofLines hinner hfit h).of_strict
  inline {line nodes} hline h := by
    cases hl : Line.ofTrimmed line with
    | statement s =>
      rw [ofLines_of_statement hl] at h
      obtain ⟨first, hfirst, h⟩ := Option.bind_eq_some_iff.1 h
      rw [ofLines, Option.map_some, List.append_nil] at h
      cases h
      exact allUndisturbed_of_ofStatement hl hfirst
    | header header =>
      rw [ofLines_of_header hl, ofHeader, hline header hl] at h
      dsimp only [ofNode] at h
      rw [ofLines] at h
      cases h
      exact List.forall_mem_singleton.2 (.dangling _ _)

theorem delimits_ofLinesWithin [Host] (depth : Nat) : Delimits (ofLinesWithin depth) := by
  induction depth with
  | zero => exact { block := fun _ h => (nomatch h), inline := fun _ h => (nomatch h) }
  | succ depth ih => exact delimits_ofLines ih

/-- No message of a tree says that no block opens. -/
theorem every_complaint?_ne [Host] (h : parse lines = some nodes) (start : Nat) :
    ∀ node ∈ nodes, node.Every fun s => s.complaint? ≠ some (Failure.noBlock start).message := by
  refine every_parse (fun line s hline hmessage => ?_) (fun line opener hmessage => ?_) h
  · exact Statement.undisturbed_of_ofTrimmed hline _ hmessage
      ⟨[], start, .noBlock start, by simp [Block.extract], rfl⟩
  · have hfirst : some 'M' = some 'N' := congrArg List.head? (Option.some.inj hmessage)
    revert hfirst
    decide

/-- A block that is never closed is reported in the outermost list and ends it. No block in a node
is, and no block of a header is found not to open. -/
theorem parse_unclosed [Host] {lines : List Text} {nodes : List Node}
    (hlines : ∀ line ∈ lines, Line.isTame line = true) (h : parse lines = some nodes) :
    (∃ front last, nodes = front ++ last ∧ (∀ node ∈ front, node.Every Statement.Undisturbed) ∧
        (last = [] ∨ ∃ line opener, last = [.statement (.invalid line (.unclosed opener))])) ∧
      (∀ start, ∀ node ∈ nodes, node.Every fun s => s.complaint? ≠
        some (Failure.noBlock start).message) ∧
      ∀ line header, Line.ofText line = .header header → header.inline = none → ∀ front rest start,
        Block.extract (front ++ line :: rest) front.length ≠ .error (.noBlock start) := by
  refine ⟨?_, every_complaint?_ne h, fun line header hline hheader front rest start => ?_⟩
  · have htame : ∀ line ∈ lines.map Text.trim, Line.Tame line :=
      List.forall_mem_map.2 fun line hline => Line.tame_trim (hlines line hline)
    have hfit : Fit False (lines.map Text.trim) := fit_of_tame htame False.elim
    rw [parse_eq] at h
    obtain ⟨front, last, hnodes, hfront, hlast⟩ :=
      unclosedLast_ofLines (delimits_ofLinesWithin _) hfit h
    exact ⟨front, last, hnodes, hfront, hlast.imp_right And.right⟩
  · rw [Block.extract_of_header hline hheader]
    split
    · nofun
    · nofun

/-- A block with braces that belong to no header, and a conditional whose last branch is not
closed. -/
def strayBraces : List Text :=
  List.map String.toList
    ["If <1> =? <2> \x7b", "During <1> =? <2> \x7b", "++ \x7b", "\x7d what \x7b", "\x7d", "\x7d",
      "\x7d", "\x7d", "If <1> =? <2> \x7b", "If <3> =? <4> \x7b log(1) \x7d", "\x7d Else \x7b",
      "log(2)"]

theorem parse_unclosed_stray :
    (∀ line ∈ strayBraces, Line.isTame line = true) ∧
      ∃ nodes, parse strayBraces = some nodes ∧ nodes.map isUnclosed = [false, false, true] ∧
        ∃ front last, nodes = front ++ last ∧ (∀ node ∈ front, node.Every Statement.Undisturbed) ∧
          (last = [] ∨ ∃ line opener, last = [.statement (.invalid line (.unclosed opener))]) := by
  have htame : ∀ line ∈ strayBraces, Line.isTame line = true := by decide +kernel
  have hunclosed : (parse strayBraces).map (List.map isUnclosed) = some [false, false, true] := by
    decide +kernel
  obtain ⟨nodes, hnodes, hmap⟩ := Option.map_eq_some_iff.1 hunclosed
  exact ⟨htame, nodes, hnodes, hmap, (parse_unclosed htame hnodes).1⟩

/-- On a line with a line feed before the brace, the block may begin with a header, and its block is
not closed. -/
theorem parse_unclosed_lineFeed :
    let inner := "If <2> =? <2> \x7b".toList
    let line := "If <1> =? <1>\n\x7b ".toList ++ inner ++ ['\x7d']
    Line.ofText line = .header ⟨.ifEqual ⟨['1'], ['1']⟩, some inner, line⟩ ∧
      line.head? ≠ some '\x7d' ∧
      Block.extract [inner] 0 = .error (.invalid inner (.unclosed inner)) ∧
      parse [line] = some [.conditional ⟨['1'], ['1']⟩
        [.statement (.invalid inner (.unclosed inner))] .none line] := by
  intro inner line
  have hinner : Line.ofText inner = .header ⟨.ifEqual ⟨['2'], ['2']⟩, none, inner⟩ := by
    decide +kernel
  have hline : Line.ofText line = .header ⟨.ifEqual ⟨['1'], ['1']⟩, some inner, line⟩ := by
    decide +kernel
  refine ⟨hline, by decide +kernel, Block.extract_of_header hinner rfl [] [], ?_⟩
  have hbody : ofLinesWithin (Host.blocks - 1) [inner] =
      some [.statement (.invalid inner (.unclosed inner))] := by
    refine (ofLines_of_header hinner []).trans ?_
    rw [ofHeader_of_ifEqual rfl, body_of_unclosed rfl rfl]
    rfl
  have htrim : Text.trim line = line := by decide +kernel
  rw [Line.ofText, htrim] at hline
  rw [parse_eq, List.map_singleton, htrim]
  have hkeyword : Keyword.ifEqual ≠ .elseIfEqual := by decide
  refine (ofLines_block hkeyword hline (body_inline rfl [])).trans ?_
  exact congrArg (Option.map _) hbody

end Node

end LineScript
