import LineScript.Proofs.Run.Frame
import LineScript.Proofs.Run.Safe
import LineScript.Proofs.Value.Equality

/-!
# The identity of lists

Loose equality takes two lists for equal if they are the same list. In every session that runs lead
to this is sound (`Session.list_identity`): what it takes for the same list has the same items, a
new list is none of those before, and a list that is copied stays the same list.

Identities come from a counter. All lists that are stored are older than it, and those of one
identity are one list (`Session.Tracked`); and a list that is older than an earlier session was
stored in that session already, as it is now (`Session.Recalls`). Both are kept by single
statements, which store lists that are stored already or one that is new (`Session.Naming`).
-/

namespace LineScript

/-! ## Places -/

namespace Value

/-- The item at some indexes, from the outermost list inwards. -/
def at? : List Nat → Value → Option Value
  | [], v => some v
  | i :: path, .list _ items => items[i]?.bind (at? path)
  | _ :: _, _ => none

/-- The items of a list. -/
def items : Value → List Value
  | .list _ items => items
  | _ => []

/-- Loose equality takes two lists for the same. -/
def SameList [Host] (v w : Value) : Prop :=
  v.isList = true ∧ w.isList = true ∧ v.looselyEquals? w = .ok true

theorem exists_of_isList {v : Value} (h : v.isList = true) :
    ∃ identity items, v = .list identity items := by
  cases v with
  | list identity items => exact ⟨identity, items, rfl⟩
  | null | flag | number | text => cases h

theorem sameList_list [Host] {a b : Nat} {xs ys : List Value} :
    SameList (.list a xs) (.list b ys) ↔ a = b := by
  simp [SameList, isList, looselyEquals?_list]

theorem SameList.symm [Host] {v w : Value} (h : v.SameList w) : w.SameList v := by
  obtain ⟨a, xs, rfl⟩ := exists_of_isList h.1
  obtain ⟨b, ys, rfl⟩ := exists_of_isList h.2.1
  exact sameList_list.2 (sameList_list.1 h).symm

theorem sameList_self [Host] {v : Value} (h : v.isList = true) : v.SameList v := by
  obtain ⟨a, xs, rfl⟩ := exists_of_isList h
  exact sameList_list.2 rfl

theorem at?_append (path more : List Nat) (v : Value) :
    v.at? (path ++ more) = (v.at? path).bind (at? more) := by
  induction path generalizing v with
  | nil => rfl
  | cons i path ih =>
    cases v with
    | list identity items =>
      rw [List.cons_append, at?, at?, Option.bind_assoc]
      exact congrArg _ (funext ih)
    | null | flag | number | text => rfl

/-- Only lists have lists in them. -/
theorem isList_of_at? {path : List Nat} {v w : Value} (h : v.at? path = some w)
    (hw : w.isList = true) :
    v.isList = true := by
  cases path with
  | nil =>
    cases h
    exact hw
  | cons i path =>
    cases v with
    | list => rfl
    | null | flag | number | text => cases h

end Value

/-- Where a value is stored: under a name, or at some indexes in the list of that name. -/
structure Place where
  name : Text
  path : List Nat

namespace Namespace

/-- The value at a place. -/
def at? (ns : Namespace) (p : Place) : Option Value := (ns.get? p.name).bind (Value.at? p.path)

/-- The value is stored somewhere. -/
def Holds (ns : Namespace) (v : Value) : Prop := ∃ p, ns.at? p = some v

variable {ns : Namespace} {v w : Value}

theorem holds_at? {path : List Nat} (h : ns.Holds v) (hw : v.at? path = some w) : ns.Holds w := by
  obtain ⟨p, hp⟩ := h
  refine ⟨⟨p.name, p.path ++ path⟩, ?_⟩
  obtain ⟨root, hroot, hv⟩ := Option.bind_eq_some_iff.1 hp
  rw [at?, hroot, Option.bind_some, Value.at?_append, hv, Option.bind_some, hw]

theorem not_holds_empty : ¬ Holds {} v := by
  rintro ⟨p, hp⟩
  cases hp

theorem at?_set_of_ne {name : Text} {p : Place} (h : name ≠ p.name) :
    (ns.set name v).at? p = ns.at? p := by
  rw [at?, at?, get?_set_of_ne _ _ h]

theorem at?_set_self (ns : Namespace) (name : Text) (path : List Nat) (v : Value) :
    (ns.set name v).at? ⟨name, path⟩ = v.at? path := by
  rw [at?, get?_set_self, Option.bind_some]

/-- What is stored after a name is set is in the new value, or was stored before. -/
theorem holds_of_set {name : Text} (h : (ns.set name v).Holds w) :
    (∃ path, v.at? path = some w) ∨ ns.Holds w := by
  obtain ⟨⟨other, path⟩, hp⟩ := h
  by_cases heq : name = other
  · subst heq
    rw [at?_set_self] at hp
    exact .inl ⟨path, hp⟩
  · rw [at?_set_of_ne heq] at hp
    exact .inr ⟨_, hp⟩

end Namespace

/-- The place that is referred to. -/
def Reference.place : Reference → Place
  | .value name => ⟨name, []⟩
  | .item name index => ⟨name, [Text.digitsValue (index.dropWhile (· == '0'))]⟩

theorem Reference.at?_place {ns : Namespace} {r : Reference} {v : Value} (h : r.read ns = .ok v) :
    ns.at? r.place = some v := by
  cases r with
  | value name =>
    simp only [read, Namespace.valueOf] at h
    split at h
    · next hv =>
      cases h
      rw [place, Namespace.at?, hv]
      rfl
    · cases h
  | item name index =>
    simp only [read, Namespace.itemOf] at h
    split at h
    · cases h
    · next identity items hl =>
      split at h
      · cases h
      · split at h
        · next hv =>
          cases h
          rw [place, Namespace.at?, hl, Option.bind_some, Value.at?, hv]
          rfl
        · cases h
    · cases h

namespace Literal

variable {ns : Namespace}

/-- A literal that is a list refers to one that is stored. -/
theorem holds_of_evalText {s : Text} {v : Value} (h : evalText ns s = .ok v)
    (hv : v.isList = true) : ns.Holds v := by
  unfold evalText at h
  cases hl : ofText s with
  | reference r =>
    rw [hl] at h
    exact ⟨r.place, Reference.at?_place h⟩
  | real | integer | flag | null | quoted | nothing | numeric | bare =>
    rw [hl] at h
    cases h
    cases hv

/-- The values of items are those of the literals that they are. -/
theorem getElem?_of_evalItems {items : List Text} {vs : List Value}
    (h : evalItems ns items = .ok vs) {k : Nat} {v : Value} :
    vs[k]? = some v ↔ ∃ s, items[k]? = some s ∧ evalText ns s = .ok v := by
  induction items generalizing vs k with
  | nil =>
    cases h
    simp
  | cons s items ih =>
    obtain ⟨w, hw, h⟩ := bind_eq_ok h
    obtain ⟨ws, hws, h⟩ := bind_eq_ok h
    cases h
    cases k with
    | zero => simp [hw, Except.ok.injEq]
    | succ k =>
      rw [List.getElem?_cons_succ, List.getElem?_cons_succ]
      exact ih hws

theorem holds_of_evalItems {items : List Text} {vs : List Value} (h : evalItems ns items = .ok vs)
    {v : Value} (hmem : v ∈ vs) (hv : v.isList = true) : ns.Holds v := by
  obtain ⟨k, hk⟩ := List.getElem?_of_mem hmem
  obtain ⟨s, -, hs⟩ := (getElem?_of_evalItems h).1 hk
  exact holds_of_evalText hs hv

end Literal

/-! ## Lists over time -/

namespace Session

/-- How a session's names come from those of the session `s` by one statement: as they were, with a
value that is no list or is stored already, or with a new list of such values. -/
inductive Naming (s : Session) : Session → Prop
  | same {t : Session} : t.names = s.names → t.nextList = s.nextList → Naming s t
  | value {t : Session} {name : Text} {v : Value} : (v.isList = true → s.names.Holds v) →
    t.names = s.names.set name v → t.nextList = s.nextList → Naming s t
  | list {t : Session} {name : Text} {vs : List Value} :
    (∀ v ∈ vs, v.isList = true → s.names.Holds v) →
    t.names = s.names.set name (.list s.nextList vs) → t.nextList = s.nextList + 1 → Naming s t

variable {s t u : Session}

theorem naming_effect [Host] {rules : Rules} {statement : Statement} {o : Outcome}
    (h : statement.Effect rules s o) :
    Naming s o.session := by
  cases h with
  | skip | stop | log | wait => exact .same rfl rfl
  | assign _ _ _ hv | declare _ _ _ _ hv => exact .value (Literal.holds_of_evalText hv) rfl rfl
  | assignList _ _ _ hvs | declareList _ _ _ _ hvs =>
    exact .list (fun _ hmem => Literal.holds_of_evalItems hvs hmem) rfl rfl

theorem naming_run [Host] (rules : Rules) (s : Session) {statement : Statement}
    (hsimple : statement.isSimple = true) :
    Naming s (statement.run rules s).session :=
  naming_effect (Statement.effect_run rules s hsimple)

theorem Naming.nextList_le (h : Naming s t) : s.nextList ≤ t.nextList := by
  cases h with
  | same _ hnext | value _ _ hnext | list _ _ hnext => omega

/-- A list that is stored after a statement was stored before, or is the one new list. -/
theorem Naming.exists_items (h : Naming s t) :
    ∃ vs, ∀ identity items, t.names.Holds (.list identity items) →
      s.names.Holds (.list identity items) ∨
      identity = s.nextList ∧ items = vs ∧ s.nextList < t.nextList := by
  cases h with
  | same hnames _ =>
    refine ⟨[], fun identity items hheld => .inl ?_⟩
    rwa [hnames] at hheld
  | value hv hnames _ =>
    refine ⟨[], fun identity items hheld => .inl ?_⟩
    rw [hnames] at hheld
    rcases Namespace.holds_of_set hheld with ⟨path, hpath⟩ | hold
    · exact Namespace.holds_at? (hv (Value.isList_of_at? hpath rfl)) hpath
    · exact hold
  | @list name vs hvs hnames hnext =>
    refine ⟨vs, fun identity items hheld => ?_⟩
    rw [hnames] at hheld
    rcases Namespace.holds_of_set hheld with ⟨path, hpath⟩ | hold
    · cases path with
      | nil =>
        cases hpath
        exact .inr ⟨rfl, rfl, by omega⟩
      | cons i path =>
        rw [Value.at?] at hpath
        obtain ⟨v, hv, hpath⟩ := Option.bind_eq_some_iff.1 hpath
        have hmem := List.mem_of_getElem? hv
        exact .inl (Namespace.holds_at? (hvs v hmem (Value.isList_of_at? hpath rfl)) hpath)
    · exact .inl hold

/-- The lists that are stored are older than the next one, and those of one identity have the same
items. -/
structure Tracked (s : Session) : Prop where
  below : ∀ identity items, s.names.Holds (.list identity items) → identity < s.nextList
  items_eq : ∀ identity items items', s.names.Holds (.list identity items) →
    s.names.Holds (.list identity items') → items = items'

theorem tracked_start (clock : Double) : Tracked { clock := clock } :=
  ⟨fun _ _ h => absurd h Namespace.not_holds_empty,
    fun _ _ _ h => absurd h Namespace.not_holds_empty⟩

theorem Tracked.naming (hs : Tracked s) (h : Naming s t) : Tracked t := by
  obtain ⟨vs, hvs⟩ := h.exists_items
  have hle := h.nextList_le
  constructor
  · intro identity items hheld
    rcases hvs identity items hheld with hold | ⟨rfl, -, hlt⟩
    · have := hs.below identity items hold
      omega
    · exact hlt
  · intro identity items items' hheld hheld'
    rcases hvs identity items hheld with hold | ⟨hid, rfl, -⟩ <;>
      rcases hvs identity items' hheld' with hold' | ⟨hid', rfl, -⟩
    · exact hs.items_eq identity items items' hold hold'
    · have := hs.below identity items hold
      omega
    · have := hs.below identity items' hold'
      omega
    · rfl

theorem tracked_of_reachable [Host] (h : s.Reachable) : Tracked s :=
  h.invariant tracked_start (fun rules _ s hsimple hs => hs.naming (naming_run rules s hsimple))
    (fun _ hs => hs.naming (.same rfl rfl))

/-- Lists that are stored in `t` and are not new since `s` were stored in `s`. -/
structure Recalls (s t : Session) : Prop where
  nextList_le : s.nextList ≤ t.nextList
  held : ∀ identity items, t.names.Holds (.list identity items) → identity < s.nextList →
    s.names.Holds (.list identity items)

theorem Recalls.refl (s : Session) : Recalls s s := ⟨Nat.le_refl _, fun _ _ hheld _ => hheld⟩

theorem Recalls.naming (h : Recalls s t) (hu : Naming t u) : Recalls s u := by
  obtain ⟨vs, hvs⟩ := hu.exists_items
  refine ⟨Nat.le_trans h.nextList_le hu.nextList_le, fun identity items hheld hlt => ?_⟩
  rcases hvs identity items hheld with hold | ⟨rfl, -, -⟩
  · exact h.held identity items hold hlt
  · have := h.nextList_le
    omega

theorem Leads.recalls [Host] {P : Statement → Prop} (h : Leads P s t) : Recalls s t := by
  induction h with
  | refl => exact .refl s
  | @step t rules _ _ hsimple _ ih => exact ih.naming (naming_run rules t hsimple)
  | guard _ ih => exact ih.naming (.same rfl rfl)

/-- What is taken for a list that was stored before is that list. -/
theorem eq_of_sameList [Host] (hs : Tracked s) (h : Recalls s t) {v w : Value}
    (hv : s.names.Holds v) (hw : t.names.Holds w) (hsame : w.SameList v) : w = v := by
  obtain ⟨a, xs, rfl⟩ := Value.exists_of_isList hsame.1
  obtain ⟨b, ys, rfl⟩ := Value.exists_of_isList hsame.2.1
  cases Value.sameList_list.1 hsame
  rw [hs.items_eq a xs ys (h.held a xs hw (hs.below a ys hv)) hv]

end Session

/-! ## New lists and copies -/

namespace Statement

/-- The statement gives the name a new list. -/
inductive Creates (name : Text) : Statement → Prop
  | assignList (items : List Text) (line : Text) : Creates name (.assignList name items line)
  | declare (kind value line : Text) {inside : Text} :
    Text.enclosedLine? '#' value = some inside → Creates name (.declare kind name value line)

/-- The statement stores what `r` refers to at a place: as the value of a name, or as an item of a
new list. -/
inductive Copies (r : Reference) : Statement → Place → Prop
  | assign (name value line : Text) :
    Literal.ofText value = .reference r → Copies r (.assign name value line) ⟨name, []⟩
  | declare (kind name value line : Text) :
    Text.enclosedLine? '#' value = none → Literal.ofText value = .reference r →
      Copies r (.declare kind name value line) ⟨name, []⟩
  | item (name : Text) (items : List Text) (line : Text) (k : Nat) {s : Text} :
    items[k]? = some s → Literal.ofText s = .reference r →
      Copies r (.assignList name items line) ⟨name, [k]⟩
  | declareItem (kind name value line : Text) (k : Nat) {inside s : Text} :
    Text.enclosedLine? '#' value = some inside → (Literal.listItems inside)[k]? = some s →
      Literal.ofText s = .reference r → Copies r (.declare kind name value line) ⟨name, [k]⟩

variable {rules : Rules} {s t : Session} {statement : Statement} {name : Text}

theorem exists_of_attempt_eq {α : Type} {result : Except Failure α} {next : α → Session}
    (h : s.attempt result (fun a => ⟨next a, none⟩) = ⟨t, none⟩) :
    ∃ a, result = .ok a ∧ t = next a := by
  cases result with
  | error f => cases h
  | ok a =>
    cases h
    exact ⟨a, rfl, rfl⟩

theorem Creates.exists_items [Host] (hc : Creates name statement)
    (h : statement.run rules s = ⟨t, none⟩) :
    ∃ vs, t.names.get? name = some (.list s.nextList vs) := by
  cases hc with
  | assignList items line =>
    obtain ⟨vs, -, rfl⟩ := exists_of_attempt_eq h
    exact ⟨vs, Namespace.get?_set_self _ _ _⟩
  | declare kind value line hinside =>
    rw [run, Session.declare, hinside] at h
    obtain ⟨vs, -, rfl⟩ := exists_of_attempt_eq h
    exact ⟨vs, Namespace.get?_set_self _ _ _⟩

theorem at?_assignList {items : List Text} {vs : List Value} {k : Nat} {text : Text} {v : Value}
    (hvs : Literal.evalItems s.names items = .ok vs) (hk : items[k]? = some text)
    (hv : Literal.evalText s.names text = .ok v) :
    (s.assignList name vs).names.at? ⟨name, [k]⟩ = some v := by
  rw [Session.assignList, Namespace.at?_set_self, Value.at?,
    (Literal.getElem?_of_evalItems hvs).2 ⟨text, hk, hv⟩]
  rfl

/-- A copy is the value itself. -/
theorem Copies.at?_place [Host] {r : Reference} {place : Place} {v : Value}
    (hc : Copies r statement place) (hr : r.read s.names = .ok v)
    (h : statement.run rules s = ⟨t, none⟩) : t.names.at? place = some v := by
  have heval {text : Text} (htext : Literal.ofText text = .reference r) :
      Literal.evalText s.names text = .ok v := by
    rw [Literal.evalText, htext]
    exact hr
  cases hc with
  | assign name value line hvalue =>
    rw [run, Session.assignText, heval hvalue] at h
    cases h
    exact Namespace.at?_set_self _ _ _ _
  | declare kind name value line hinside hvalue =>
    rw [run, Session.declare, hinside] at h
    dsimp only at h
    rw [Session.assignText, heval hvalue] at h
    cases h
    exact Namespace.at?_set_self _ _ _ _
  | item name items line k hk hitem =>
    obtain ⟨vs, hvs, rfl⟩ := exists_of_attempt_eq h
    exact at?_assignList hvs hk (heval hitem)
  | declareItem kind name value line k hinside hk hitem =>
    rw [run, Session.declare, hinside] at h
    obtain ⟨vs, hvs, rfl⟩ := exists_of_attempt_eq h
    exact at?_assignList hvs hk (heval hitem)

theorem Copies.targets {r : Reference} {place : Place} (hc : Copies r statement place) :
    statement.isSimple = true ∧ statement.targets = [place.name] := by
  cases hc <;> exact ⟨rfl, rfl⟩

end Statement

namespace Session

variable {s t : Session}

/-- A name that no statement has as its target keeps its value. -/
theorem Leads.get?_eq [Host] {P : Statement → Prop} (h : Leads P s t) {name : Text}
    (hname : ∀ statement, P statement → name ∉ statement.targets) :
    t.names.get? name = s.names.get? name := by
  induction h with
  | refl => rfl
  | @step t rules statement _ hsimple hP ih =>
    rw [(frame_statement rules t hsimple).unchanged name (hname statement hP), ih]
  | guard _ ih => exact ih

theorem Leads.at?_eq [Host] {P : Statement → Prop} (h : Leads P s t) {p : Place}
    (hname : ∀ statement, P statement → p.name ∉ statement.targets) :
    t.names.at? p = s.names.at? p := by
  rw [Namespace.at?, Namespace.at?, h.get?_eq hname]

/-- A new list is taken for none that was stored before. -/
theorem not_sameList_of_creates [Host] {rules : Rules} {statement : Statement} {name : Text}
    (hs : Tracked s) (hcreates : statement.Creates name)
    (hrun : statement.run rules s = ⟨t, none⟩) :
    ∃ v, t.names.get? name = some v ∧ v.isList = true ∧ ∀ w, s.names.Holds w → ¬ v.SameList w := by
  obtain ⟨vs, hvs⟩ := hcreates.exists_items hrun
  refine ⟨_, hvs, rfl, fun w hw hsame => ?_⟩
  obtain ⟨identity, items, rfl⟩ := Value.exists_of_isList hsame.2.1
  have hbelow := hs.below identity items hw
  rw [Value.sameList_list] at hsame
  omega

/-- A copy and its original stay where they are until their names are set again. -/
theorem at?_of_copies [Host] {rules : Rules} {statement : Statement} {r : Reference}
    {place : Place} {v : Value} {u : Session} (hcopies : statement.Copies r place)
    (hr : r.read s.names = .ok v) (hrun : statement.run rules s = ⟨t, none⟩)
    (hne : place.name ≠ r.place.name)
    (hu : t.Leads (fun later => place.name ∉ later.targets ∧ r.place.name ∉ later.targets) u) :
    u.names.at? place = some v ∧ u.names.at? r.place = some v := by
  obtain ⟨hsimple, htargets⟩ := hcopies.targets
  have hframe := frame_statement rules s hsimple
  rw [htargets, hrun] at hframe
  have hstays := hframe.unchanged r.place.name (by simpa using Ne.symm hne)
  constructor
  · rw [hu.at?_eq fun _ h => h.1, hcopies.at?_place hr hrun]
  · rw [hu.at?_eq fun _ h => h.2, Namespace.at?, hstays]
    exact Reference.at?_place hr

/-- In reachable sessions lists that are taken for the same have the same items. A new list is none
of those stored before. A copy of a list is the same list, and so it remains, whatever statements
follow: what is taken for the list has its items, and original and copy stay where they are until
their names are set again. -/
theorem list_identity [Host] (hs : s.Reachable) (rules : Rules) :
    (∀ v w, s.names.Holds v → s.names.Holds w → v.SameList w → v.items = w.items) ∧
      (∀ statement name t, Statement.Creates name statement → statement.run rules s = ⟨t, none⟩ →
        ∃ v, t.names.get? name = some v ∧ v.isList = true ∧ ∀ w, s.names.Holds w →
          ¬ v.SameList w ∧ ¬ w.SameList v) ∧
      (∀ name value line r v, Literal.ofText value = .reference r → r.read s.names = .ok v →
        ∃ t, Statement.run rules (.assign name value line) s = ⟨t, none⟩) ∧
      ∀ statement r place v t, Statement.Copies r statement place → r.read s.names = .ok v →
        v.isList = true → statement.run rules s = ⟨t, none⟩ →
          t.names.at? place = some v ∧
          (∀ u, t.Leads (fun _ => True) u → ∀ x y, u.names.Holds x → u.names.Holds y →
            x.SameList v → y.SameList v → x.SameList y ∧ x.items = v.items) ∧
          ∀ u, place.name ≠ r.place.name →
            t.Leads (fun later => place.name ∉ later.targets ∧ r.place.name ∉ later.targets) u →
              ∃ copy original, u.names.at? place = some copy ∧ u.names.at? r.place = some original ∧
                copy.SameList original ∧ copy.items = v.items := by
  have htracked := tracked_of_reachable hs
  refine ⟨?_, ?_, ?_, ?_⟩
  · intro v w hv hw hsame
    rw [eq_of_sameList htracked (.refl s) hw hv hsame]
  · intro statement name t hcreates hrun
    obtain ⟨v, hv, hlist, hnew⟩ := not_sameList_of_creates htracked hcreates hrun
    exact ⟨v, hv, hlist, fun w hw => ⟨hnew w hw, fun hsame => hnew w hw hsame.symm⟩⟩
  · intro name value line r v hvalue hr
    refine ⟨s.assign name v, ?_⟩
    rw [Statement.run, assignText, Literal.evalText, hvalue, Literal.eval, hr]
    rfl
  · intro statement r place v t hcopies hr hv hrun
    have hplace := hcopies.at?_place hr hrun
    have ht : Tracked t := by
      have hnaming := naming_run rules s hcopies.targets.1
      rw [hrun] at hnaming
      exact htracked.naming hnaming
    refine ⟨hplace, ?_, ?_⟩
    · intro u hu x y hx hy hxv hyv
      have hxeq := eq_of_sameList ht hu.recalls ⟨place, hplace⟩ hx hxv
      have hyeq := eq_of_sameList ht hu.recalls ⟨place, hplace⟩ hy hyv
      rw [hxeq, hyeq]
      exact ⟨Value.sameList_self hv, rfl⟩
    · intro u hne hu
      obtain ⟨hcopy, horiginal⟩ := at?_of_copies hcopies hr hrun hne hu
      exact ⟨v, v, hcopy, horiginal, Value.sameList_self hv, rfl⟩

/-- A list is put into another one, and twice into a new list of its own name. -/
def entwined : Session :=
  (({} : Session).runFast {}
    ["glb list a = #'x'#".toList, "/b/ = #[a], 'y'#".toList, "/a/ = #[a], [a]#".toList]).session

/-- The list that was the first. -/
def entwinedList : Value := .list 0 [.text "x".toList]

theorem list_identity_entwined :
    entwined.Reachable ∧ entwined.names.at? ⟨"a".toList, [1]⟩ = some entwinedList ∧
      entwined.names.at? ⟨"b".toList, [0]⟩ = some entwinedList ∧
      (∃ t v, Statement.run {} (.assignList "a".toList ["[a]".toList] []) entwined = ⟨t, none⟩ ∧
        t.names.get? "a".toList = some v ∧ ¬ v.SameList entwinedList) ∧
      ∃ t, Statement.run {} (.assign "c".toList "/b/<0>".toList []) entwined = ⟨t, none⟩ ∧
        t.names.at? ⟨"c".toList, []⟩ = some entwinedList ∧
        ∀ u, t.Leads (fun later => "c".toList ∉ later.targets ∧ "b".toList ∉ later.targets) u →
          ∃ copy original, u.names.at? ⟨"c".toList, []⟩ = some copy ∧
            u.names.at? ⟨"b".toList, [0]⟩ = some original ∧ copy.SameList original ∧
              copy.items = entwinedList.items := by
  have hr : entwined.Reachable := .fast {} _ (.start _)
  have hb : entwined.names.at? ⟨"b".toList, [0]⟩ = some entwinedList := rfl
  obtain ⟨-, hnew, hruns, hcopies⟩ := list_identity hr {}
  obtain ⟨t, ht⟩ := hruns "c".toList "/b/<0>".toList [] (.item "b".toList "0".toList)
    entwinedList rfl rfl
  obtain ⟨hc, -, hlater⟩ :=
    hcopies _ (.item "b".toList "0".toList) _ entwinedList t (.assign _ _ _ rfl) rfl rfl ht
  obtain ⟨v, hv, -, hdistinct⟩ :=
    hnew (.assignList "a".toList ["[a]".toList] []) _ _ (.assignList _ _) rfl
  exact ⟨hr, rfl, hb, ⟨_, v, rfl, hv, (hdistinct _ ⟨_, hb⟩).1⟩, t, ht, hc,
    fun u => hlater u (by decide)⟩

end Session

end LineScript
