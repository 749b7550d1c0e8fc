import LineScript.Proofs.Block.Idle
import LineScript.Proofs.Text.Keyword
import LineScript.Script

/-!
# Directives

`Feature.AskedIn` says in words of the text alone which lines ask for a feature: `!implement` and
the words that name the feature, each in any case and after blanks. The names exclude each other, so
the order in which they are tried does not matter (`Features.has_ofName`), and a script has a
feature exactly if one of its lines asks for it.

Hence the features depend on the set of the lines, and the lines that ask for one are passed over by
both dialects, as all directives are (`Features.ofLines_position_independent`).
-/

namespace LineScript

open Text

/-! ## The words of a directive -/

/-- What a directive can ask for. -/
inductive Feature
  | conditions
  | looping
  | time
  | fast

namespace Feature

/-- The words that name a feature. -/
def words : Feature → List Text
  | conditions => ["condition".toList, "normal".toList]
  | looping => ["condition".toList, "looping".toList]
  | time => ["time".toList]
  | fast => ["fastmode".toList]

/-- The text begins with the words, each in any case and after blanks. -/
def Names : (words : List Text) → (s : Text) → Prop
  | [], _ => True
  | keyword :: words, s => ∃ blanks word rest, s = blanks ++ (word ++ rest) ∧ blanks ≠ [] ∧
      (∀ c ∈ blanks, isBlank c = true) ∧ IsWritten keyword word ∧ Names words rest

/-- The line is a directive that asks for the feature. Anything may follow the words that name
it. -/
def AskedIn (feature : Feature) (line : Text) : Prop :=
  ∃ word rest, trim line = word ++ rest ∧ IsWritten "!implement".toList word ∧
    Names feature.words rest

theorem names_cons_iff {keyword s : Text} (hkeyword : ∃ c ∈ keyword.head?, isBlank c = false)
    {words : List Text} :
    Names (keyword :: words) s ↔
      ∃ rest, (afterBlanks? s).bind (afterAnyCase? keyword) = some rest ∧ Names words rest := by
  simp only [Names, afterBlanks?_bind_eq_some_iff hkeyword]
  constructor
  · rintro ⟨blanks, word, rest, hs, hne, hblanks, hword, hrest⟩
    exact ⟨rest, ⟨blanks, word, hs, hne, hblanks, hword⟩, hrest⟩
  · rintro ⟨rest, ⟨blanks, word, hs, hne, hblanks, hword⟩, hrest⟩
    exact ⟨blanks, word, rest, hs, hne, hblanks, hword, hrest⟩

end Feature

namespace Features

/-- Whether the feature is among those asked for. -/
def has (f : Features) : Feature → Bool
  | .conditions => f.conditions
  | .looping => f.looping
  | .time => f.time
  | .fast => f.fast

theorem ext_has {f g : Features} (h : ∀ feature, f.has feature = g.has feature) : f = g := by
  obtain ⟨conditions, looping, time, fast⟩ := f
  obtain ⟨conditions', looping', time', fast'⟩ := g
  obtain rfl : conditions = conditions' := h .conditions
  obtain rfl : looping = looping' := h .looping
  obtain rfl : time = time' := h .time
  obtain rfl : fast = fast' := h .fast
  rfl

@[simp] theorem has_empty (feature : Feature) : ({} : Features).has feature = false := by
  cases feature <;> rfl

@[simp] theorem has_union (f g : Features) (feature : Feature) :
    (f.union g).has feature = (f.has feature || g.has feature) := by
  cases feature <;> rfl

/-! ## The feature that one line asks for -/

/-- Different letters that have no forms but upper and lower case have no character in common. -/
theorem admits_eq_false {letter other c : Char} (hne : letter ≠ other)
    (hletter : letter ≠ 'i' ∧ letter ≠ 's') (hother : other ≠ 'i' ∧ other ≠ 's')
    (h : admits letter c = true) : admits other c = false := by
  simp only [admits, beq_eq_false_iff_ne.2 hletter.1, beq_eq_false_iff_ne.2 hletter.2,
    Bool.false_and, Bool.or_false, beq_iff_eq] at h
  simp only [admits, beq_eq_false_iff_ne.2 hother.1, beq_eq_false_iff_ne.2 hother.2, Bool.false_and,
    Bool.or_false]
  rw [h]
  exact beq_eq_false_iff_ne.2 hne

/-- Two keywords with such first letters do not begin one text. -/
theorem begins_eq_false {letter other : Char} {keyword another s : Text}
    (hletters : letter ≠ other ∧ (letter ≠ 'i' ∧ letter ≠ 's') ∧ other ≠ 'i' ∧ other ≠ 's')
    (h : begins (letter :: keyword) s = true) : begins (other :: another) s = false := by
  obtain ⟨hne, hletter, hother⟩ := hletters
  cases s with
  | nil => rfl
  | cons c s =>
    have hfirst : admits letter c = true := by
      by_contra hfirst
      rw [begins, afterAnyCase?, if_neg hfirst] at h
      cases h
    rw [begins, afterAnyCase?, admits_eq_false hne hletter hother hfirst]
    rfl

/-- Whether the rest of a directive begins with the words that name a feature. -/
def isNamed (s : Text) : Feature → Bool
  | .conditions => (condition? s).any (begins "normal".toList)
  | .looping => (condition? s).any (begins "looping".toList)
  | .time => begins "time".toList s
  | .fast => begins "fastmode".toList s

theorem begins_of_condition? {s : Text} {p : Text → Bool} (h : (condition? s).any p = true) :
    begins "condition".toList s = true := by
  cases hafter : afterAnyCase? "condition".toList s with
  | none =>
    rw [condition?, hafter] at h
    cases h
  | some rest => rw [begins, hafter, Option.isSome_some]

/-- The order in which the names are tried does not matter. -/
theorem has_ofName (s : Text) (feature : Feature) : (ofName s).has feature = isNamed s feature := by
  -- What begins with one of the names begins with no other.
  have hexclude : (condition? s).any (begins "normal".toList) = true →
      (condition? s).any (begins "looping".toList) = false := by
    intro h
    cases hcondition : condition? s with
    | none => rfl
    | some t =>
      rw [hcondition] at h
      exact begins_eq_false (by decide) h
  have hcondition : begins "condition".toList s = true →
      begins "time".toList s = false ∧ begins "fastmode".toList s = false := by
    intro h
    constructor
    · exact begins_eq_false (by decide) h
    · exact begins_eq_false (by decide) h
  have hlast : begins "time".toList s = true → begins "fastmode".toList s = false :=
    begins_eq_false (by decide)
  unfold ofName
  split_ifs with hnormal hlooping htime hfast
  · have hothers := hcondition (begins_of_condition? hnormal)
    cases feature <;> simp only [has, isNamed, hnormal, hexclude hnormal, hothers]
  · have hothers := hcondition (begins_of_condition? hlooping)
    rw [Bool.not_eq_true] at hnormal
    cases feature <;> simp only [has, isNamed, hnormal, hlooping, hothers]
  · rw [Bool.not_eq_true] at hnormal hlooping
    cases feature <;> simp only [has, isNamed, hnormal, hlooping, htime, hlast htime]
  · rw [Bool.not_eq_true] at hnormal hlooping htime
    cases feature <;> simp only [has, isNamed, hnormal, hlooping, htime, hfast]
  · rw [Bool.not_eq_true] at hnormal hlooping htime hfast
    cases feature <;> simp only [has, isNamed, hnormal, hlooping, htime, hfast]

theorem names_singleton_iff {keyword s : Text} (hkeyword : ∃ c ∈ keyword.head?, isBlank c = false) :
    Feature.Names [keyword] s ↔ (afterBlanks? s).any (begins keyword) = true := by
  rw [Feature.names_cons_iff hkeyword]
  cases afterBlanks? s with
  | none => simp
  | some t => simp [begins, Feature.Names, Option.isSome_iff_exists]

theorem names_pair_iff {keyword other s : Text} (hkeyword : ∃ c ∈ keyword.head?, isBlank c = false)
    (hother : ∃ c ∈ other.head?, isBlank c = false) :
    Feature.Names [keyword, other] s ↔
      (afterBlanks? s).any
        (fun t => ((afterAnyCase? keyword t).bind afterBlanks?).any (begins other)) = true := by
  rw [Feature.names_cons_iff hkeyword]
  simp only [names_singleton_iff hother]
  cases afterBlanks? s with
  | none => simp
  | some t =>
    rw [Option.bind_some, Option.any_some]
    cases afterAnyCase? keyword t with
    | none => simp
    | some rest => simp

theorem names_words_iff {s : Text} (feature : Feature) :
    Feature.Names feature.words s ↔ (afterBlanks? s).any (isNamed · feature) = true := by
  cases feature with
  | conditions => exact names_pair_iff ⟨_, rfl, by decide⟩ ⟨_, rfl, by decide⟩
  | looping => exact names_pair_iff ⟨_, rfl, by decide⟩ ⟨_, rfl, by decide⟩
  | time => exact names_singleton_iff ⟨_, rfl, by decide⟩
  | fast => exact names_singleton_iff ⟨_, rfl, by decide⟩

theorem has_ofLine_iff {line : Text} {feature : Feature} :
    (ofLine line).has feature = true ↔ feature.AskedIn line := by
  have hasked : feature.AskedIn line ↔
      ∃ rest, afterAnyCase? "!implement".toList (trim line) = some rest ∧
        Feature.Names feature.words rest := by
    simp only [Feature.AskedIn, afterAnyCase?_eq_some_iff]
    constructor
    · rintro ⟨word, rest, hline, hword, hnames⟩
      exact ⟨rest, ⟨word, hline, hword⟩, hnames⟩
    · rintro ⟨rest, ⟨word, hline, hword⟩, hnames⟩
      exact ⟨word, rest, hline, hword, hnames⟩
  rw [hasked, ofLine, directive?]
  cases hword : afterAnyCase? "!implement".toList (trim line) with
  | none => simp
  | some rest =>
    simp only [Option.some.injEq, exists_eq_left', names_words_iff, Option.bind_some]
    cases afterBlanks? rest with
    | none => simp
    | some name => simp [has_ofName]

theorem isDirective_of_has {line : Text} {feature : Feature}
    (h : (ofLine line).has feature = true) :
    isDirective line = true := by
  rw [isDirective]
  cases hname : directive? (trim line) with
  | none =>
    rw [ofLine, hname, Option.map_none, Option.getD_none, has_empty] at h
    cases h
  | some name => rfl

/-! ## The features of a script -/

theorem has_foldl (lines : List Text) (f : Features) (feature : Feature) :
    (lines.foldl (fun f line => f.union (ofLine line)) f).has feature =
      (f.has feature || lines.any fun line => (ofLine line).has feature) := by
  induction lines generalizing f with
  | nil => simp
  | cons line lines ih => rw [List.foldl_cons, ih, has_union, List.any_cons, Bool.or_assoc]

theorem has_ofLines (lines : List Text) (feature : Feature) :
    (ofLines lines).has feature = lines.any fun line => (ofLine line).has feature := by
  rw [ofLines, has_foldl, has_empty, Bool.false_or]

theorem has_ofLines_iff {lines : List Text} {feature : Feature} :
    (ofLines lines).has feature = true ↔ ∃ line ∈ lines, feature.AskedIn line := by
  simp only [has_ofLines, List.any_eq_true, has_ofLine_iff]

/-- Blanks around the lines do not matter. -/
theorem has_ofLines_trim (lines : List Text) (feature : Feature) :
    (ofLines lines).has feature = (lines.map trim).any fun line => (ofLine line).has feature := by
  have htrim : ∀ line, ofLine (trim line) = ofLine line := by
    intro line
    rw [ofLine, trim_trim, ofLine]
  rw [has_ofLines, List.any_map]
  simp only [Function.comp_def, htrim]

theorem ofLines_congr {a b : List Text} (h : ∀ s, s ∈ a.map trim ↔ s ∈ b.map trim) :
    ofLines a = ofLines b := by
  apply ext_has
  intro feature
  rw [has_ofLines_trim, has_ofLines_trim, Bool.eq_iff_iff, List.any_eq_true, List.any_eq_true]
  simp only [h]

theorem ofText_of_isDirective {line : Text} (h : isDirective line = true) :
    Line.ofText line = .statement (.skip (trim line)) ∧
      Statement.ofFastText line = .skip (trim line) := by
  have hinert : Line.isInert (trim line) = true := by
    rw [Line.isInert]
    exact Bool.or_eq_true_iff.2 (.inr h)
  constructor
  · exact Line.ofTrimmed_of_isInert hinert
  · rw [Statement.ofFastText]
    dsimp only
    rw [hinert, Bool.true_or, if_pos rfl]

theorem features_of_run [Host] {limits : Limits} {clock : Double} {code : Text} {report : Report}
    (h : Script.run limits clock code = .ok report) :
    report.features = ofLines (Script.lines code) := by
  rw [Script.run, Report.ofOutcome] at h
  split at h <;> cases h <;> rfl

/-- A script has a feature exactly if one of its lines asks for it. So the features of lines that
follow others are those of both, and neither order nor repetition nor blanks around the lines
matter. The features of a text are those of its lines, also for a run. Every line that asks for a
feature is a directive, and every directive is passed over in both dialects. -/
theorem ofLines_position_independent [Host] :
    (∀ (lines : List Text) (feature : Feature),
      (ofLines lines).has feature = true ↔ ∃ line ∈ lines, feature.AskedIn line) ∧
    (∀ (a b : List Text) (feature : Feature),
      (ofLines (a ++ b)).has feature = ((ofLines a).has feature || (ofLines b).has feature)) ∧
    (∀ a b : List Text, (∀ s, s ∈ a.map trim ↔ s ∈ b.map trim) → ofLines a = ofLines b) ∧
    (∀ lines : List Text, lines ≠ [] → (∀ line ∈ lines, '\n' ∉ line) →
      ofLines (Script.lines (['\n'].intercalate lines)) = ofLines lines) ∧
    (∀ (limits : Limits) (clock : Double) (code : Text) (report : Report),
      Script.run limits clock code = .ok report → report.features = ofLines (code.splitOn '\n')) ∧
    (∀ (line : Text) (feature : Feature), (ofLines [line]).has feature = true →
      isDirective line = true) ∧
    ∀ line : Text, isDirective line = true →
      Line.ofText line = .statement (.skip (trim line)) ∧
        Statement.ofFastText line = .skip (trim line) := by
  refine ⟨fun _ _ => has_ofLines_iff, ?_, fun _ _ => ofLines_congr, ?_,
    fun _ _ _ _ => features_of_run, ?_, fun _ => ofText_of_isDirective⟩
  · intro a b feature
    rw [has_ofLines, List.any_append, ← has_ofLines, ← has_ofLines]
  · intro lines hne hlines
    rw [Script.lines, List.splitOn_intercalate '\n' hlines hne]
  · intro line feature h
    rw [has_ofLines, List.any_cons, List.any_nil, Bool.or_false] at h
    exact isDirective_of_has h

/-- Directives among other lines: with another blank, a letter without a dot, other cases, and an
unknown name. -/
def scattered : List Text :=
  ["log(1)", "\t!IMPLEMENT\u2003cond\u0131tion  Looping!", "!implement time",
    "!implement colours"].map String.toList

/-- The same lines in another order, some with other blanks or repeated. -/
def gathered : List Text :=
  ["!implement time ", " !implement colours", "!IMPLEMENT\u2003cond\u0131tion  Looping!",
    "!implement time", "log(1)"].map
    String.toList

theorem ofLines_position_independent_scattered :
    (∀ s, s ∈ scattered.map trim ↔ s ∈ gathered.map trim) ∧ ofLines scattered = ofLines gathered ∧
      ofLines (Script.lines (['\n'].intercalate scattered)) = ofLines scattered ∧
      Feature.AskedIn .looping "\t!IMPLEMENT\u2003cond\u0131tion  Looping!".toList ∧
      ofLines scattered = { looping := true, time := true } ∧
      (∃ report, Script.run {} .nan "!implement fastmode".toList = .ok report ∧
        report.features = ofLines ["!implement fastmode".toList]) ∧
      Line.ofText "!implement time ".toList = .statement (.skip "!implement time".toList) ∧
      Statement.ofFastText "!implement time ".toList = .skip "!implement time".toList := by
  have hsame : scattered.map trim ⊆ gathered.map trim ∧ gathered.map trim ⊆ scattered.map trim := by
    decide +kernel
  have hset : ∀ s, s ∈ scattered.map trim ↔ s ∈ gathered.map trim :=
    fun _ => ⟨fun h => hsame.1 h, fun h => hsame.2 h⟩
  have hlines : ∀ line ∈ scattered, '\n' ∉ line := by decide +kernel
  have hlooping : (ofLines ["\t!IMPLEMENT\u2003cond\u0131tion  Looping!".toList]).has .looping =
      true := by decide +kernel
  have hdirective : isDirective "!implement time ".toList = true := by decide +kernel
  have hrun : ∃ report, Script.run {} .nan "!implement fastmode".toList = .ok report := ⟨_, rfl⟩
  obtain ⟨hasked, -, hcongr, hjoined, hreported, -, hskip⟩ := ofLines_position_independent
  obtain ⟨line, hline, hlooping⟩ := (hasked _ _).1 hlooping
  rw [List.mem_singleton] at hline
  subst hline
  obtain ⟨report, hrun⟩ := hrun
  exact ⟨hset, hcongr _ _ hset, hjoined _ (by decide) hlines, hlooping, by decide +kernel,
    ⟨report, hrun, hreported _ _ _ _ hrun⟩, hskip _ hdirective⟩

end Features

end LineScript
