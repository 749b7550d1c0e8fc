import LineScript.Proofs.Line.Dialect
import LineScript.Proofs.Line.Header

/-!
# The parts of a line

Whatever a line is read as, the names, values and operands in it are parts of the line:
`Statement.texts` and `Header.texts` list them, and they have only characters that the line has
(`Line.partOf_of_statement`, `Line.partOf_of_header`, `Statement.partOf_of_ofFastText`).
-/

namespace LineScript

namespace Text

/-- All characters of `t` are in `s`. -/
def PartOf (t s : Text) : Prop := t ⊆ s

@[simp] theorem PartOf.refl (s : Text) : s.PartOf s := List.Subset.refl s

theorem PartOf.trans {s t u : Text} (h : s.PartOf t) (h' : t.PartOf u) : s.PartOf u :=
  List.Subset.trans h h'

theorem PartOf.cons {s t : Text} (h : t.PartOf s) (c : Char) :
    t.PartOf (c :: s) := List.subset_cons_of_subset c h

theorem partOf_of_isInfix {s t : Text} (h : t <:+: s) : t.PartOf s := h.subset

theorem partOf_of_suffix {s t : Text} (h : t <:+ s) : t.PartOf s := h.subset

theorem partOf_trim (s : Text) : (trim s).PartOf s := partOf_of_isInfix (isInfix_trim s)

theorem partOf_trimStart (s : Text) :
    (trimStart s).PartOf s := partOf_of_suffix (trimStart_suffix s)

theorem partOf_dropLast (s : Text) : PartOf s.dropLast s := List.dropLast_subset s

theorem partOf_of_after? {start s rest : Text} (h : after? start s = some rest) : rest.PartOf s :=
  partOf_of_suffix (suffix_of_after? h)

theorem partOf_of_afterBlanks? {s rest : Text} (h : afterBlanks? s = some rest) : rest.PartOf s :=
  partOf_of_suffix (suffix_of_afterBlanks? h)

theorem partOf_of_afterAnyCase? {start s rest : Text} (h : afterAnyCase? start s = some rest) :
    rest.PartOf s := by
  fun_induction afterAnyCase? start s with
  | case1 =>
    cases h
    exact .refl _
  | case2 | case4 => cases h
  | case3 _ _ _ _ _ ih => exact (ih h).cons _

theorem partOf_of_bracketed? {opening closing : Char} {s content rest : Text}
    (h : bracketed? opening closing s = some (content, rest)) :
    content.PartOf s ∧ rest.PartOf s := by
  rw [(eq_of_bracketed? h).1]
  exact ⟨fun c hc => by simp [hc], fun c hc => by simp [hc]⟩

theorem partOf_of_enclosed? {mark : Char} {s inside : Text} (h : enclosed? mark s = some inside) :
    inside.PartOf s := by
  unfold enclosed? at h
  split at h
  · cases h
  · split at h
    · cases h
      exact (partOf_dropLast _).cons _
    · cases h

theorem partOf_of_enclosedLine? {mark : Char} {s inside : Text}
    (h : enclosedLine? mark s = some inside) :
    inside.PartOf s :=
  partOf_of_enclosed? (Option.filter_eq_some_iff.1 h).1

/-- What stands between two marks, or before the first or after the last, has no mark. -/
theorem not_mem_of_mem_splitOn {mark : Char} {s t : Text} (h : t ∈ s.splitOn mark) :
    mark ∉ t ∧ t.PartOf s := by
  induction s generalizing t with
  | nil =>
    cases List.mem_singleton.1 h
    simp
  | cons c s ih =>
    rw [List.splitOn_cons_eq_if_modifyHead] at h
    split at h
    · rcases List.mem_cons.1 h with rfl | h
      · exact ⟨List.not_mem_nil, List.nil_subset _⟩
      · exact ⟨(ih h).1, (ih h).2.cons c⟩
    · next hc =>
      obtain ⟨first, others, hs⟩ := List.exists_cons_of_ne_nil (List.splitOn_ne_nil mark s)
      rw [hs, List.modifyHead_cons] at h
      rw [hs] at ih
      rcases List.mem_cons.1 h with rfl | h
      · obtain ⟨hmark, hsub⟩ := ih List.mem_cons_self
        refine ⟨?_, List.cons_subset_cons c hsub⟩
        rw [List.mem_cons, not_or]
        exact ⟨fun heq => hc (beq_iff_eq.2 heq.symm), hmark⟩
      · obtain ⟨hmark, hsub⟩ := ih (List.mem_cons_of_mem first h)
        exact ⟨hmark, hsub.cons c⟩

variable {α : Type} {stop : Char} {read : Text → Option α}

theorem partOf_of_givingBlanksBack {s : Text} {a : α} (h : givingBlanksBack read s = some a) :
    ∃ rest, read rest = some a ∧ rest.PartOf s := by
  induction s with
  | nil => exact ⟨[], h, PartOf.refl _⟩
  | cons c s ih =>
    rw [givingBlanksBack] at h
    split at h
    · rw [Option.orElse_eq_orElse, Option.orElse_eq_or, Option.or_eq_some_iff] at h
      rcases h with h | ⟨-, h⟩
      · obtain ⟨rest, hr, hs⟩ := ih h
        exact ⟨rest, hr, hs.cons c⟩
      · exact ⟨_, h, PartOf.refl _⟩
    · exact ⟨_, h, PartOf.refl _⟩

theorem partOf_of_shortestFrom {seen s t : Text} {a : α}
    (h : shortestFrom stop read seen s = some (t, a)) :
    t.PartOf (seen ++ s) := by
  induction s generalizing seen with
  | nil => cases h
  | cons c s ih =>
    rw [shortestFrom] at h
    split at h
    · cases h
    · split at h
      · cases h
        exact fun d hd => List.mem_append_left _ (List.mem_reverse.1 hd)
      · exact fun d hd => by simpa [or_left_comm] using ih h hd

theorem partOf_of_shortest? {s t : Text} {a : α} (h : shortest? stop read s = some (t, a)) :
    t.PartOf s ∧ ∃ rest, read rest = some a ∧ rest.PartOf s := by
  obtain ⟨rest, hr, hsuffix⟩ := suffix_of_shortest? h
  exact ⟨partOf_of_shortestFrom h, rest, hr, partOf_of_suffix hsuffix⟩

theorem partOf_of_longestFrom {best : Option (Text × α)} {seen s t : Text} {a : α}
    (h : longestFrom stop read best seen s = some (t, a)) :
    best = some (t, a) ∨ t.PartOf (seen ++ s) := by
  induction s generalizing best seen with
  | nil => exact .inl h
  | cons c s ih =>
    rw [longestFrom] at h
    split at h
    · exact .inl h
    · split at h
      · rcases ih h with heq | hsub
        · cases heq
          exact .inr fun d hd => List.mem_append_left _ (List.mem_reverse.1 hd)
        · exact .inr fun d hd => by simpa [or_left_comm] using hsub hd
      · exact (ih h).imp_right fun hsub d hd => by simpa [or_left_comm] using hsub hd

theorem partOf_of_longest? {s t : Text} {a : α} (h : longest? stop read s = some (t, a)) :
    t.PartOf s :=
  (partOf_of_longestFrom h).resolve_left (by simp)

end Text

/-! ## The texts of a line -/

def Condition.texts (c : Condition) : List Text := [c.left, c.right]

def Counter.texts (c : Counter) : List Text := [c.name, c.start, c.check, c.stop]

def LineProblem.texts : LineProblem → List Text
  | .unclosed header => [header]
  | .unknown | .loopBody => []

/-- The texts of a statement, with those in its loops. -/
def Statement.texts : Statement → List Text
  | .skip line => [line]
  | .assign name value line => [name, value, line]
  | .assignList name items line => name :: line :: items
  | .declare kind name value line => [kind, name, value, line]
  | .log argument line => [argument, line]
  | .wait _ line => [line]
  | .forLoop counter body line => line :: counter.texts ++ body.texts
  | .invalid line problem => line :: problem.texts

def Head.texts : Head → List Text
  | .ifEqual c | .elseIfEqual c | .during c => c.texts
  | .otherwise => []

def Header.texts (h : Header) : List Text := h.line :: h.head.texts ++ h.inline.toList

namespace Line

open Text

theorem partOf_of_afterEquals? {s rest : Text} (h : afterEquals? s = some rest) : rest.PartOf s :=
  (partOf_of_after? h).trans (partOf_trimStart s)

theorem partOf_of_rest? {s t : Text} (h : rest? s = some t) : t.PartOf s := by
  unfold rest? at h
  dsimp only at h
  split at h
  · cases h
  · cases h
    exact (partOf_trim _).trans (partOf_trimStart s)

theorem partOf_of_assignment? {s name value : Text} (h : assignment? s = some (name, value)) :
    name.PartOf s ∧ value.PartOf s := by
  obtain ⟨⟨name', r⟩, hname, h⟩ := Option.bind_eq_some_iff.1 h
  obtain ⟨r', hequals, h⟩ := Option.bind_eq_some_iff.1 h
  dsimp only at h
  split at h
  · cases h
  · obtain ⟨value', hvalue, h⟩ := Option.bind_eq_some_iff.1 h
    cases h
    obtain ⟨hn, hr⟩ := partOf_of_bracketed? hname
    exact ⟨hn, (partOf_of_rest? hvalue).trans ((partOf_of_afterEquals? hequals).trans hr)⟩

theorem partOf_of_letAssignment? {s name value : Text} (h : letAssignment? s = some (name, value)) :
    name.PartOf s ∧ value.PartOf s := by
  obtain ⟨r, hlet, h⟩ := Option.bind_eq_some_iff.1 h
  obtain ⟨⟨name', r'⟩, hname, h⟩ := Option.bind_eq_some_iff.1 h
  obtain ⟨r'', hequals, h⟩ := Option.bind_eq_some_iff.1 h
  obtain ⟨value', hvalue, h⟩ := Option.bind_eq_some_iff.1 h
  cases h
  have hs := (partOf_trimStart r).trans (partOf_of_after? hlet)
  obtain ⟨hn, hr⟩ := partOf_of_bracketed? hname
  exact ⟨hn.trans hs, (partOf_of_rest? hvalue).trans
    ((partOf_of_afterEquals? hequals).trans (hr.trans hs))⟩

theorem partOf_of_listItems {s : Text} : ∀ t ∈ Literal.listItems s, t.PartOf s := by
  intro t ht
  unfold Literal.listItems at ht
  split at ht
  · cases ht
  · obtain ⟨item, hitem, rfl⟩ := List.mem_map.1 ht
    exact (partOf_trim item).trans (not_mem_of_mem_splitOn hitem).2

theorem partOf_of_listAssignment? {s name : Text} {items : List Text}
    (h : listAssignment? s = some (name, items)) :
    name.PartOf s ∧ ∀ item ∈ items, item.PartOf s := by
  obtain ⟨⟨name', r⟩, hname, h⟩ := Option.bind_eq_some_iff.1 h
  obtain ⟨r', hequals, h⟩ := Option.bind_eq_some_iff.1 h
  obtain ⟨inside, hinside, h⟩ := Option.bind_eq_some_iff.1 h
  cases h
  obtain ⟨hn, hr⟩ := partOf_of_bracketed? hname
  have hs := (partOf_of_enclosedLine? hinside).trans
    ((partOf_trimStart r').trans ((partOf_of_afterEquals? hequals).trans hr))
  exact ⟨hn, fun item hitem => (partOf_of_listItems item hitem).trans hs⟩

theorem partOf_of_log? {s argument : Text} (h : log? s = some argument) : argument.PartOf s := by
  obtain ⟨r, hlog, h⟩ := Option.bind_eq_some_iff.1 h
  split at h
  · cases h
    exact (partOf_trim _).trans ((partOf_dropLast r).trans (partOf_of_after? hlog))
  · cases h

theorem partOf_of_simple? {s : Text} {statement : Statement} (h : simple? s = some statement) :
    ∀ t ∈ statement.texts, t.PartOf s := by
  simp only [simple?, Option.orElse_eq_orElse, Option.orElse_eq_or, Option.or_eq_some_iff,
    Option.map_eq_some_iff] at h
  rcases h with ⟨argument, h, rfl⟩ |
    ⟨-, ⟨ms, -, rfl⟩ | ⟨-, ⟨⟨name, value⟩, h, rfl⟩ | ⟨-, ⟨⟨name, items⟩, h, rfl⟩⟩⟩⟩
  · simp [Statement.texts, partOf_of_log? h]
  · simp [Statement.texts]
  · have hparts : name.PartOf s ∧ value.PartOf s := h.elim partOf_of_assignment? fun h =>
      partOf_of_letAssignment? h.2
    simp [Statement.texts, hparts]
  · obtain ⟨hname, hitems⟩ := partOf_of_listAssignment? h
    simpa [Statement.texts, hname] using hitems

theorem partOf_of_check? {s check rest : Text} (h : check? s = some (check, rest)) :
    check.PartOf s ∧ rest.PartOf s := by
  obtain ⟨⟨check', r⟩, hname, h⟩ := Option.bind_eq_some_iff.1 h
  obtain ⟨r', hsign, h⟩ := Option.bind_eq_some_iff.1 h
  cases h
  obtain ⟨hn, hr⟩ := partOf_of_bracketed? hname
  have hs := partOf_trimStart s
  exact ⟨hn.trans hs, (partOf_of_after? hsign).trans ((partOf_trimStart r).trans (hr.trans hs))⟩

theorem partOf_of_loopRest? {s check stop body : Text}
    (h : loopRest? s = some (check, stop, body)) :
    check.PartOf s ∧ stop.PartOf s ∧ body.PartOf s := by
  obtain ⟨⟨check', r⟩, hcheck, h⟩ := Option.bind_eq_some_iff.1 h
  obtain ⟨⟨stop', body'⟩, hstop, h⟩ := Option.bind_eq_some_iff.1 h
  cases h
  obtain ⟨hc, hr⟩ := partOf_of_check? hcheck
  obtain ⟨rest, hrest, hs⟩ := partOf_of_givingBlanksBack hstop
  obtain ⟨hp, rest', hb, hs'⟩ := partOf_of_shortest? hrest
  exact ⟨hc, hp.trans (hs.trans hr), (partOf_of_rest? hb).trans (hs'.trans (hs.trans hr))⟩

theorem partOf_of_forLoop? {s body : Text} {counter : Counter}
    (h : forLoop? s = some (counter, body)) :
    (∀ t ∈ counter.texts, t.PartOf s) ∧ body.PartOf s := by
  obtain ⟨r, hfor, h⟩ := Option.bind_eq_some_iff.1 h
  obtain ⟨⟨name, r'⟩, hname, h⟩ := Option.bind_eq_some_iff.1 h
  obtain ⟨r'', hequals, h⟩ := Option.bind_eq_some_iff.1 h
  obtain ⟨⟨start, check, stop, body'⟩, hstart, h⟩ := Option.bind_eq_some_iff.1 h
  cases h
  obtain ⟨hn, hr'⟩ := partOf_of_bracketed? hname
  obtain ⟨rest, hrest, hs⟩ := partOf_of_givingBlanksBack hstart
  obtain ⟨hp, rest', hloop, hs'⟩ := partOf_of_shortest? hrest
  obtain ⟨hcheck, hstop, hbody⟩ := partOf_of_loopRest? hloop
  have hfirst : (trimStart r).PartOf s := (partOf_trimStart r).trans (partOf_of_after? hfor)
  have hlater : rest.PartOf s :=
    hs.trans ((partOf_of_afterEquals? hequals).trans (hr'.trans hfirst))
  have hlast : rest'.PartOf s := hs'.trans hlater
  refine ⟨?_, hbody.trans hlast⟩
  simp only [Counter.texts, List.forall_mem_cons]
  exact ⟨hn.trans hfirst, (partOf_trim start).trans (hp.trans hlater), hcheck.trans hlast,
    (partOf_trim stop).trans (hstop.trans hlast), by simp⟩

theorem partOf_of_word? {s word rest : Text} (h : word? s = some (word, rest)) :
    word.PartOf s ∧ rest.PartOf s := by
  unfold word? at h
  dsimp only at h
  split at h
  · cases h
  · cases h
    exact ⟨(List.takeWhile_prefix _).subset, (List.dropWhile_suffix _).subset⟩

theorem partOf_of_declaration? {s kind name value : Text}
    (h : declaration? s = some (kind, name, value)) :
    kind.PartOf s ∧ name.PartOf s ∧ value.PartOf s := by
  obtain ⟨r, hglb, h⟩ := Option.bind_eq_some_iff.1 h
  obtain ⟨r₁, hblanks, h⟩ := Option.bind_eq_some_iff.1 h
  obtain ⟨⟨kind', r₂⟩, hkind, h⟩ := Option.bind_eq_some_iff.1 h
  obtain ⟨r₃, hblanks', h⟩ := Option.bind_eq_some_iff.1 h
  obtain ⟨⟨name', r₄⟩, hname, h⟩ := Option.bind_eq_some_iff.1 h
  obtain ⟨r₅, hequals, h⟩ := Option.bind_eq_some_iff.1 h
  obtain ⟨value', hvalue, h⟩ := Option.bind_eq_some_iff.1 h
  cases h
  have hr₁ := (partOf_of_afterBlanks? hblanks).trans (partOf_of_afterAnyCase? hglb)
  obtain ⟨hk, hr₂⟩ := partOf_of_word? hkind
  have hr₃ := (partOf_of_afterBlanks? hblanks').trans (hr₂.trans hr₁)
  obtain ⟨hn, hr₄⟩ := partOf_of_word? hname
  have hr₅ := (partOf_of_afterEquals? hequals).trans (hr₄.trans hr₃)
  exact ⟨hk.trans hr₁, hn.trans hr₃, (partOf_of_rest? hvalue).trans hr₅⟩

/-- A statement of the standard dialect holds only parts of its line. -/
theorem partOf_of_statement {s : Text} {statement : Statement}
    (h : ofTrimmed s = .statement statement) :
    ∀ t ∈ statement.texts, t.PartOf s := by
  refine statement_induction (P := fun s statement => ∀ t ∈ statement.texts, t.PartOf s) ?_
    ?_ ?_ ?_ ?_ h
  · simp [Statement.texts]
  · simp [Statement.texts, LineProblem.texts]
  · simp [Statement.texts, LineProblem.texts]
  · exact fun s statement => partOf_of_simple?
  · intro s counter body statement hloop hstatement
    obtain ⟨hcounter, hbody⟩ := partOf_of_forLoop? hloop
    refine List.forall_mem_cons.2
      ⟨PartOf.refl s, List.forall_mem_append.2 ⟨hcounter, fun t ht => ?_⟩⟩
    exact (hstatement t ht).trans hbody

theorem partOf_of_rightOperand? {s right rest : Text} (h : rightOperand? s = some (right, rest)) :
    right.PartOf s := by
  obtain ⟨r, hr, h⟩ := Option.bind_eq_some_iff.1 h
  split at h
  · next tail htail =>
    have hs : PartOf ('<' :: tail) s :=
      htail ▸ (partOf_trimStart r).trans ((partOf_of_after? hr).trans (partOf_trimStart s))
    exact (partOf_of_longest? h).trans (List.subset_of_cons_subset hs)
  · cases h

theorem partOf_of_condition? {s rest : Text} {c : Condition} (h : condition? s = some (c, rest)) :
    ∀ t ∈ c.texts, t.PartOf s := by
  unfold condition? at h
  split at h
  · next tail htail =>
    obtain ⟨⟨left, right, rest'⟩, hleft, heq⟩ := Option.map_eq_some_iff.1 h
    cases heq
    have hs : PartOf tail s := List.subset_of_cons_subset (htail ▸ partOf_trimStart s)
    obtain ⟨hl, after, hafter, hsub⟩ := partOf_of_shortest? hleft
    have hr := (partOf_of_rightOperand? hafter).trans (hsub.trans hs)
    simp only [Condition.texts, List.forall_mem_cons]
    exact ⟨(partOf_trim left).trans (hl.trans hs), (partOf_trim right).trans hr, by simp⟩
  · cases h

theorem partOf_of_head? {s rest : Text} {head : Head} (h : head? s = some (head, rest)) :
    ∀ t ∈ head.texts, t.PartOf s := by
  obtain ⟨r, hsuffix, ⟨rfl, -⟩ | ⟨c, hc, hhead⟩⟩ := exists_suffix_of_head? h
  · simp [Head.texts]
  · have hcondition := fun t ht => (partOf_of_condition? hc t ht).trans (partOf_of_suffix hsuffix)
    rcases hhead with rfl | rfl | rfl <;> exact hcondition

/-- A header holds only parts of its line. -/
theorem partOf_of_header {s : Text} {header : Header} (h : ofTrimmed s = .header header) :
    ∀ t ∈ header.texts, t.PartOf s := by
  obtain ⟨head, inline, line⟩ := header
  obtain ⟨rfl, rest, hhead, hinline⟩ := exists_head?_of_header h
  have hrest : rest.PartOf line :=
    partOf_of_suffix ((List.suffix_cons _ _).trans (suffix_of_head? hhead).1)
  refine List.forall_mem_cons.2
    ⟨PartOf.refl line, List.forall_mem_append.2 ⟨partOf_of_head? hhead, ?_⟩⟩
  intro t ht
  rw [Option.mem_toList] at ht
  cases ht
  exact (partOf_of_isInfix (infix_of_inline? hinline)).trans hrest

end Line

namespace Statement

open Line

/-- A statement of the fast dialect holds only parts of its line. -/
theorem partOf_of_ofFastText (line : Text) : ∀ t ∈ (ofFastText line).texts, t.PartOf line := by
  have htrim : ∀ t ∈ (ofFastText line).texts, t.PartOf (Text.trim line) := by
    refine fastText_cases (P := fun s statement => ∀ t ∈ statement.texts, t.PartOf s) ?_
      ?_ ?_ ?_ line
    · simp [texts]
    · simp [texts, LineProblem.texts]
    · intro s kind name value h
      simp [texts, partOf_of_declaration? h]
    · exact fun s statement => partOf_of_simple?
  exact fun t ht => (htrim t ht).trans (Text.partOf_trim line)

end Statement

end LineScript
