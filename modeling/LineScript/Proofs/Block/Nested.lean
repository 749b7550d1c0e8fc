import LineScript.Proofs.Block.Unclosed

/-!
# Blocks inside blocks

Blocks are delimited in the lines of a script, and those inside a block again in its lines, where
the counting of braces starts anew. `Block.extract_nested` says that both ways find the same inner
blocks, and that none reaches past the block around it.

An inner block is closed because the lines of the block around it balance, so that more blocks are
closed after its header than are opened (`Block.Balances.exists_after`); and where it is closed does
not depend on what follows.
-/

namespace LineScript.Block

/-- The first line that opens a block, from the line at `start` on, is the one at `header`. -/
structure OpensFirst (lines : List Text) (start header : Nat) : Prop where
  start_le : start ≤ header
  opens_header : ∃ line, lines[header]? = some line ∧ opens (Text.trim line) = true
  not_opens : ∀ j line, start ≤ j → j < header → lines[j]? = some line →
    opens (Text.trim line) = false

/-- Lines that balance go on to balance after any front part, with so many blocks open. -/
theorem Balances.exists_of_append {n : Nat} {front rest : List Text}
    (h : Balances n (front ++ rest)) :
    ∃ m, Balances m rest := by
  induction front generalizing n with
  | nil => exact ⟨n, h⟩
  | cons line front ih =>
    cases h with
    | inside _ hrest | closing _ hrest => exact ih hrest

/-- After a line that opens a block there is one to be closed. -/
theorem Balances.exists_after {n : Nat} {front rest : List Text} {line : Text}
    (h : Balances n (front ++ line :: rest)) (hline : opens line = true) :
    ∃ m, Balances (m + 1) rest := by
  obtain ⟨m, hm⟩ := h.exists_of_append
  cases hm with
  | @inside m _ _ _ hrest | @closing m _ _ _ hrest =>
    rw [hline] at hrest
    exact ⟨m, hrest⟩

/-- A block that opens at an index and is closed is found there. -/
theorem extract_of_split? {lines rest : List Text} {i : Nat} {line : Text} {s : Span}
    (h : (lines.drop i).map Text.trim = line :: rest) (hline : opens line = true)
    (hs : split? 0 rest = some s) :
    extract lines i = .ok (s.body, i + 1 + s.body.length) := by
  simp only [extract, h, List.dropWhile_cons, List.takeWhile_cons, hline, Bool.not_true,
    Bool.false_eq_true, if_false, hs, List.length_nil, Nat.add_zero]

/-- A block that is found opens at the first line that opens one, and is closed. -/
theorem exists_of_extract {lines body : List Text} {start stop : Nat}
    (h : extract lines start = .ok (body, stop)) :
    ∃ header line rest s, OpensFirst lines start header ∧
      (lines.drop header).map Text.trim = line :: rest ∧
      split? 0 rest = some s ∧ body = s.body ∧ stop = header + 1 + s.body.length := by
  unfold extract at h
  dsimp only at h
  generalize htrimmed : (lines.drop start).map Text.trim = trimmed at h
  split at h
  · cases h
  · next line rest hdrop =>
    split at h
    · cases h
    · next s hs =>
      cases h
      have hsplit := List.takeWhile_append_dropWhile (p := (!opens ·)) (l := trimmed)
      have hfront : ∀ t ∈ trimmed.takeWhile (!opens ·), opens t = false := by
        intro t ht
        simpa using List.mem_takeWhile_imp ht
      have hline : opens line = true := by
        have hhead := List.head?_dropWhile_not (!opens ·) trimmed
        rw [hdrop] at hhead
        simpa using hhead
      rw [hdrop] at hsplit
      generalize trimmed.takeWhile (!opens ·) = front at *
      have hheader : (lines.drop (start + front.length)).map Text.trim = line :: rest := by
        rw [← List.drop_drop, List.map_drop, htrimmed, ← hsplit, List.drop_left]
      refine ⟨start + front.length, line, rest, s, ⟨Nat.le_add_right _ _, ?_, ?_⟩, hheader,
        hs, rfl, rfl⟩
      · have hfirst := congrArg (·[0]?) hheader
        simp only [List.getElem?_map, List.getElem?_drop, List.getElem?_cons_zero,
          Option.map_eq_some_iff, Nat.add_zero] at hfirst
        obtain ⟨raw, hraw, rfl⟩ := hfirst
        exact ⟨raw, hraw, hline⟩
      · intro j raw hle hlt hraw
        have hj : trimmed[j - start]? = some (Text.trim raw) := by
          rw [← htrimmed, List.getElem?_map, List.getElem?_drop, Nat.add_sub_of_le hle, hraw]
          rfl
        rw [← hsplit, List.getElem?_append_left (by omega)] at hj
        exact hfront _ (List.mem_of_getElem? hj)

theorem map_trim_map_trim (lines : List Text) :
    (lines.map Text.trim).map Text.trim = lines.map Text.trim := by
  rw [List.map_map]
  exact List.map_congr_left fun line _ => Text.trim_trim line

/-- A block that opens in the lines of a block that is closed is closed in them, and as well with
all that follows. -/
theorem exists_split?_inside {n k : Nat} {lines : List Text} {s : Span} {line : Text}
    (hs : split? n lines = some s) (hk : s.body[k]? = some line) (hline : opens line = true) :
    ∃ t, split? 0 (s.body.drop (k + 1)) = some t ∧
      ∀ more, split? 0 (s.body.drop (k + 1) ++ more) = some { t with rest := t.rest ++ more } := by
  obtain ⟨hlt, hget⟩ := List.getElem?_eq_some_iff.1 hk
  have hbody : s.body = s.body.take k ++ line :: s.body.drop (k + 1) := by
    rw [← hget, List.getElem_cons_drop, List.take_append_drop]
  have hbalances := balances_of_split? hs
  rw [hbody] at hbalances
  obtain ⟨m, hm⟩ := hbalances.exists_after hline
  obtain ⟨t, ht, -⟩ := exists_split?_of_balances (n := m) (k := 0) hm
  exact ⟨t, ht, split?_append ht⟩

/-- The block found at an index has the lines between its header and the line that closes it. Each
block that opens in it is found in these lines as in all lines, with the same lines, and ends before
it. -/
theorem extract_nested {lines body : List Text} {start stop : Nat}
    (h : extract lines start = .ok (body, stop)) :
    ∃ header, OpensFirst lines start header ∧ header < stop ∧ stop < lines.length ∧
      body = ((lines.take stop).drop (header + 1)).map Text.trim ∧
      ∀ k line, body[k]? = some line → opens line = true →
        ∃ inner innerStop, extract body k = .ok (inner, innerStop) ∧
          extract lines (header + 1 + k) = .ok (inner, innerStop + (header + 1)) ∧
            innerStop + (header + 1) < stop := by
  obtain ⟨header, opener, rest, s, hfirst, hheader, hs, rfl, rfl⟩ := exists_of_extract h
  have hrest : (lines.drop (header + 1)).map Text.trim = s.body ++ s.closing :: s.rest := by
    rw [← eq_of_split? hs, ← List.drop_drop, List.map_drop, hheader, List.drop_one, List.tail_cons]
  have hbody : s.body =
      ((lines.take (header + 1 + s.body.length)).drop (header + 1)).map Text.trim := by
    rw [← List.take_drop, List.map_take, hrest, List.take_left]
  have hlength := congrArg List.length hrest
  simp only [List.length_map, List.length_drop, List.length_append, List.length_cons] at hlength
  refine ⟨header, hfirst, by omega, by omega, hbody, ?_⟩
  intro k line hk hline
  obtain ⟨t, ht, hmore⟩ := exists_split?_inside hs hk hline
  obtain ⟨hlt, hget⟩ := List.getElem?_eq_some_iff.1 hk
  have hdrop : s.body.drop k = line :: s.body.drop (k + 1) := by rw [← hget, List.getElem_cons_drop]
  have hwithin : (s.body.drop k).map Text.trim = line :: s.body.drop (k + 1) := by
    have htrimmed : s.body.map Text.trim = s.body := by
      rw [hbody]
      exact map_trim_map_trim _
    rw [List.map_drop, htrimmed, hdrop]
  have hthroughout : (lines.drop (header + 1 + k)).map Text.trim =
      line :: (s.body.drop (k + 1) ++ s.closing :: s.rest) := by
    rw [← List.drop_drop, List.map_drop, hrest,
      List.drop_append_of_le_length (Nat.le_of_lt hlt), hdrop, List.cons_append]
  have hinner := congrArg List.length (eq_of_split? ht)
  simp only [List.length_drop, List.length_append, List.length_cons] at hinner
  refine ⟨t.body, k + 1 + t.body.length, extract_of_split? hwithin hline ht, ?_, by omega⟩
  rw [extract_of_split? hthroughout hline (hmore _)]
  congr 2
  dsimp only
  omega

/-- A block with a conditional in it, whose second branch is headed by the line that closes the
first. -/
def branching : List Text :=
  ["[x] = 1".toList, "During <1> =? <1> \x7b".toList, "  If <[x]> =? <2> \x7b".toList,
    "    log(1)".toList,
    "  \x7d Else \x7b".toList, "    log(2)".toList, "  \x7d".toList, "\x7d".toList]

def branchingBody : List Text :=
  ["If <[x]> =? <2> \x7b".toList, "log(1)".toList, "\x7d Else \x7b".toList, "log(2)".toList,
    "\x7d".toList]

theorem extract_nested_branching :
    extract branching 0 = .ok (branchingBody, 7) ∧
      branchingBody[2]? = some "\x7d Else \x7b".toList ∧
      ∃ header, OpensFirst branching 0 header ∧ header < 7 ∧ 7 < branching.length ∧
        ∃ inner innerStop, extract branchingBody 2 = .ok (inner, innerStop) ∧
          extract branching (header + 1 + 2) = .ok (inner, innerStop + (header + 1)) ∧
            innerStop + (header + 1) < 7 := by
  have h : extract branching 0 = .ok (branchingBody, 7) := rfl
  obtain ⟨header, hfirst, hstop, hlength, -, hinner⟩ := extract_nested h
  exact ⟨h, rfl, header, hfirst, hstop, hlength, hinner 2 _ rfl rfl⟩

end LineScript.Block
