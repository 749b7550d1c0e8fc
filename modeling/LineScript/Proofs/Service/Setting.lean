import LineScript.Proofs.Double.Value
import LineScript.Proofs.Number.Numeral
import LineScript.Service.Setting

/-!
# What settings ask for

`Setting.Denotes` says which data are whole numbers, and which number they are: flags, integers,
finite doubles without their fractions, and texts that write an integer, by the grammar
`Setting.Writes`. `Setting.toInt` reads exactly these (`toInt_eq_ok_iff`). The limits that settings
ask for are then those that `Limits.Granted` describes; if there are none, the first setting that is
no whole number is refused (`Limits.capped_cases`).
-/

namespace LineScript

namespace Setting

/-! ## Integers in texts -/

/-- Digits with single low lines between them, and these digits alone. -/
inductive Grouped : (written digits : Text) → Prop
  | one {c : Char} : Text.isDigit c = true → Grouped [c] [c]
  | digit {c : Char} {written digits : Text} :
    Text.isDigit c = true → Grouped written digits → Grouped (c :: written) (c :: digits)
  | lowLine {c : Char} {written digits : Text} :
    Text.isDigit c = true → Grouped written digits → Grouped (c :: '_' :: written) (c :: digits)

/-- The text writes an integer: grouped digits, not too many, after an optional sign, and spaces
around. -/
inductive Writes [Host] : Text → Int → Prop
  | mk (before : Text) (sign : Option Sign) {written digits : Text} (after : Text) :
    (∀ c ∈ before, isSpace c = true) → Grouped written digits →
      Host.exceeded? digits.length = none → (∀ c ∈ after, isSpace c = true) →
        Writes (before ++ (Sign.optionText sign ++ (written ++ after)))
          (if sign = some .minus then -(Text.digitsValue digits : Int) else Text.digitsValue digits)

/-- A digit or a low line. -/
def isPart (c : Char) : Bool := Text.isDigit c || c == '_'

theorem isSpace_eq_false_of_isDigit {c : Char} (h : Text.isDigit c = true) : isSpace c = false := by
  rw [← Bool.not_eq_true, isSpace, Bool.and_eq_true]
  rintro ⟨hblank, -⟩
  rw [Text.isDigit_eq_false_of_isBlank hblank] at h
  cases h

theorem isPart_eq_false_of_isSpace {c : Char} (h : isSpace c = true) : isPart c = false := by
  have hdigit : Text.isDigit c = false := by
    rw [← Bool.not_eq_true]
    intro hdigit
    rw [isSpace_eq_false_of_isDigit hdigit] at h
    cases h
  have hlowLine : c ≠ '_' := by
    rintro rfl
    exact absurd h (by decide)
  simp [isPart, hdigit, hlowLine]

theorem isGrouped_digit {c : Char} (h : Text.isDigit c = true) (afterDigit : Bool) (s : Text) :
    isGrouped afterDigit (c :: s) = isGrouped true s := by
  have hne : c ≠ '_' := by
    rintro rfl
    exact absurd h (by decide)
  rw [isGrouped, if_neg hne]

theorem isGrouped_lowLine (afterDigit : Bool) (s : Text) :
    isGrouped afterDigit ('_' :: s) = (afterDigit && isGrouped false s) := by
  rw [isGrouped, if_pos rfl]

namespace Grouped

variable {written digits : Text}

theorem isGrouped_eq (h : Grouped written digits) (afterDigit : Bool) :
    isGrouped afterDigit written = true := by
  induction h generalizing afterDigit with
  | one hc =>
    rw [isGrouped_digit hc]
    rfl
  | digit hc _ ih =>
    rw [isGrouped_digit hc]
    exact ih true
  | lowLine hc _ ih =>
    rw [isGrouped_digit hc, isGrouped_lowLine]
    exact ih false

theorem filter_eq (h : Grouped written digits) : written.filter Text.isDigit = digits := by
  have hlowLine : Text.isDigit '_' = false := by decide
  induction h with
  | one hc => simp [hc]
  | digit hc _ ih => simp [hc, ih]
  | lowLine hc _ ih => simp [hc, hlowLine, ih]

theorem forall_isPart (h : Grouped written digits) : ∀ c ∈ written, isPart c = true := by
  induction h with
  | one hc => simp [isPart, hc]
  | digit hc _ ih | lowLine hc _ ih => simpa [isPart, hc] using ih

theorem exists_cons (h : Grouped written digits) :
    ∃ c rest, written = c :: rest ∧ Text.isDigit c = true := by
  cases h with
  | one hc | digit hc _ | lowLine hc _ => exact ⟨_, _, rfl, hc⟩

end Grouped

/-- Where low lines stand only between digits, the text is grouped digits, also after one more. -/
theorem grouped_of_isGrouped {s : Text} (h : ∀ c ∈ s, isPart c = true) :
    (isGrouped false s = true → Grouped s (s.filter Text.isDigit)) ∧
      (isGrouped true s = true → ∀ c, Text.isDigit c = true →
        Grouped (c :: s) (c :: s.filter Text.isDigit)) := by
  have hlowLine : Text.isDigit '_' = false := by decide
  induction s with
  | nil => exact ⟨fun hgrouped => Bool.noConfusion hgrouped, fun _ c hc => .one hc⟩
  | cons d s ih =>
    rw [List.forall_mem_cons] at h
    obtain ⟨ihstart, ihafter⟩ := ih h.2
    by_cases hd : d = '_'
    · subst hd
      rw [isGrouped_lowLine, isGrouped_lowLine, List.filter_cons_of_neg (by simp [hlowLine])]
      exact ⟨fun hgrouped => Bool.noConfusion hgrouped,
        fun hgrouped c hc => .lowLine hc (ihstart hgrouped)⟩
    · have hdigit : Text.isDigit d = true := by simpa [isPart, hd] using h.1
      rw [isGrouped_digit hdigit, isGrouped_digit hdigit, List.filter_cons_of_pos hdigit]
      exact ⟨fun hgrouped => ihafter hgrouped d hdigit,
        fun hgrouped c hc => .digit hc (ihafter hgrouped d hdigit)⟩

theorem dropWhile_isSpace_append {before : Text} (hbefore : ∀ c ∈ before, isSpace c = true)
    (sign : Option Sign) {c : Char} (hc : Text.isDigit c = true) (s : Text) :
    (before ++ (Sign.optionText sign ++ c :: s)).dropWhile isSpace =
      Sign.optionText sign ++ c :: s := by
  have hspace := isSpace_eq_false_of_isDigit hc
  rw [List.dropWhile_append_of_pos hbefore]
  cases sign with
  | some sign => cases sign <;> rfl
  | none => simp [Sign.optionText, hspace]

/-- How the parts of a text make an integer. -/
def ofParts [Host] (s : Text) (sign : Option Sign) (grouped after : Text) : Except Refusal Int :=
  let digits := grouped.filter Text.isDigit
  if !isGrouped false grouped then .error (.malformed s)
  else
    match Host.exceeded? digits.length with
    | some limit => .error (.tooManyDigits limit digits.length)
    | none =>
      if !(after.dropWhile isSpace).isEmpty then .error (.malformed s)
      else
        .ok (if sign = some .minus then -(Text.digitsValue digits : Int)
          else Text.digitsValue digits)

theorem ofText_eq_ofParts [Host] (s : Text) :
    let signed := Sign.scan (s.dropWhile isSpace)
    ofText s = ofParts s signed.1 (signed.2.takeWhile isPart) (signed.2.dropWhile isPart) :=
  rfl

theorem ofParts_eq_ok_iff [Host] {s : Text} {sign : Option Sign} {grouped after : Text} {n : Int} :
    ofParts s sign grouped after = .ok n ↔
      isGrouped false grouped = true ∧ Host.exceeded? (grouped.filter Text.isDigit).length = none ∧
        (∀ c ∈ after, isSpace c = true) ∧
        n = if sign = some .minus then -(Text.digitsValue (grouped.filter Text.isDigit) : Int)
          else Text.digitsValue (grouped.filter Text.isDigit) := by
  unfold ofParts
  dsimp only
  constructor
  · intro h
    split at h
    · cases h
    · next hgrouped =>
      split at h
      · cases h
      · next hlength =>
        split at h
        · cases h
        · next hafter =>
          cases h
          exact ⟨by simpa using hgrouped, hlength, by simpa using hafter, rfl⟩
  · rintro ⟨hgrouped, hlength, hafter, rfl⟩
    have hnil : after.dropWhile isSpace = [] := List.dropWhile_eq_nil_iff.2 hafter
    rw [if_neg (by simp [hgrouped]), hlength]
    exact if_neg (by simp [hnil])

/-- A text is read as an integer if and only if it writes that integer. -/
theorem ofText_eq_ok_iff [Host] {s : Text} {n : Int} : ofText s = .ok n ↔ Writes s n := by
  rw [ofText_eq_ofParts, ofParts_eq_ok_iff]
  constructor
  · rintro ⟨hgrouped, hlength, hafter, rfl⟩
    have hwritten := (grouped_of_isGrouped fun c hc => List.mem_takeWhile_imp hc).1 hgrouped
    have hwrites := Writes.mk (s.takeWhile isSpace) (Sign.scan (s.dropWhile isSpace)).1 _
      (fun c hc => List.mem_takeWhile_imp hc) hwritten hlength hafter
    rwa [List.takeWhile_append_dropWhile, Sign.optionText_append_scan,
      List.takeWhile_append_dropWhile] at hwrites
  · rintro @⟨before, sign, written, digits, after, hbefore, hgrouped, hlength, hafter⟩
    obtain ⟨c, rest, rfl, hc⟩ := hgrouped.exists_cons
    have hscan : Sign.scan
        ((before ++ (Sign.optionText sign ++ (c :: rest ++ after))).dropWhile isSpace) =
        (sign, c :: rest ++ after) := by
      rw [List.cons_append, dropWhile_isSpace_append hbefore sign hc,
        Sign.scan_optionText_digit sign hc]
    obtain ⟨htake, hdrop⟩ := Text.takeWhile_append_dropWhile_append hgrouped.forall_isPart
      fun c hc => isPart_eq_false_of_isSpace (hafter c (List.mem_of_mem_head? hc))
    rw [hscan, htake, hdrop, hgrouped.filter_eq]
    exact ⟨hgrouped.isGrouped_eq false, hlength, hafter, rfl⟩

/-! ## Whole numbers -/

/-- The datum is the whole number `n`. -/
inductive Denotes [Host] : Datum → Int → Prop
  | flag (b : Bool) : Denotes (.flag b) (if b then 1 else 0)
  | int (n : Int) : Denotes (.int n) n
  | real {d : Double} {q : Rat} : d.value? = some q → Denotes (.real d) (truncate q)
  | text {s : Text} {n : Int} : Writes s n → Denotes (.text s) n

/-- A datum is read as a whole number if and only if it is that number. -/
theorem toInt_eq_ok_iff [Host] {v : Datum} {n : Int} : toInt v = .ok n ↔ Denotes v n := by
  constructor
  · intro h
    cases v with
    | null | list _ | record _ => cases h
    | flag b =>
      cases h
      exact .flag b
    | int m =>
      cases h
      exact .int n
    | real d =>
      rw [toInt] at h
      split at h
      · next m hm =>
        cases h
        obtain ⟨q, hq, rfl⟩ := Double.truncate?_eq_some_iff.1 hm
        exact .real hq
      · cases h
    | text s => exact .text (ofText_eq_ok_iff.1 h)
  · intro h
    cases h with
    | flag b => rfl
    | int n => rfl
    | @real d q hq => rw [toInt, Double.truncate?_eq_some_iff.2 ⟨q, hq, rfl⟩]
    | text hs => exact ofText_eq_ok_iff.2 hs

theorem exists_denotes_iff [Host] {v : Datum} :
    (∃ n, Denotes v n) ↔ ∀ refusal, toInt v ≠ .error refusal := by
  simp only [← toInt_eq_ok_iff]
  cases toInt v <;> simp

/-- The limit that settings are granted under a name: the server's if they do not ask for one, and
else what they ask for, but at least one and at most the server's. -/
inductive Grants [Host] (settings : List (Text × Datum)) (name : Text) (ceiling : Int) : Int → Prop
  | unasked : Datum.lookup name settings = none → Grants settings name ceiling ceiling
  | clamped {v : Datum} {n : Int} :
    Datum.lookup name settings = some v → Denotes v n →
      Grants settings name ceiling (max 1 (min n ceiling))

variable {settings : List (Text × Datum)} {name : Text} {ceiling : Int}

theorem Grants.bounds [Host] {limit : Int} (h : Grants settings name ceiling limit)
    (hceiling : 1 ≤ ceiling) :
    1 ≤ limit ∧ limit ≤ ceiling := by
  cases h with
  | unasked => exact ⟨hceiling, Int.le_refl _⟩
  | clamped => omega

theorem Denotes.eq [Host] {v : Datum} {n m : Int} (h : Denotes v n) (h' : Denotes v m) : n = m :=
  Except.ok.inj ((toInt_eq_ok_iff.2 h).symm.trans (toInt_eq_ok_iff.2 h'))

/-- One limit is granted only. -/
theorem Grants.eq [Host] {limit other : Int} (h : Grants settings name ceiling limit)
    (h' : Grants settings name ceiling other) : limit = other := by
  cases h with
  | unasked hnone =>
    cases h' with
    | unasked => rfl
    | clamped hv =>
      rw [hnone] at hv
      cases hv
  | clamped hv hn =>
    cases h' with
    | unasked hnone =>
      rw [hnone] at hv
      cases hv
    | clamped hw hm =>
      rw [hv] at hw
      cases hw
      rw [hn.eq hm]

theorem Grants.exists_denotes [Host] {limit : Int} (h : Grants settings name ceiling limit)
    {v : Datum} (hv : Datum.lookup name settings = some v) : ∃ n, Denotes v n := by
  cases h with
  | unasked hnone =>
    rw [hv] at hnone
    cases hnone
  | @clamped w n hw hn =>
    rw [hv] at hw
    cases hw
    exact ⟨n, hn⟩

theorem clamp_of_none [Host] (h : Datum.lookup name settings = none) (hceiling : 1 ≤ ceiling) :
    clamp settings name ceiling = .ok ceiling := by
  rw [clamp, h, Option.map_none, Option.getD_none]
  exact congrArg Except.ok (by omega)

theorem clamp_of_some [Host] {v : Datum} (h : Datum.lookup name settings = some v) :
    clamp settings name ceiling = (toInt v).map fun n => max 1 (min n ceiling) := by
  rw [clamp, h, Option.map_some, Option.getD_some]
  cases toInt v <;> rfl

theorem clamp_eq_ok_iff [Host] (hceiling : 1 ≤ ceiling) {limit : Int} :
    clamp settings name ceiling = .ok limit ↔ Grants settings name ceiling limit := by
  constructor
  · intro h
    cases hv : Datum.lookup name settings with
    | none =>
      rw [clamp_of_none hv hceiling] at h
      cases h
      exact .unasked hv
    | some v =>
      rw [clamp_of_some hv] at h
      cases hn : toInt v with
      | error refusal =>
        rw [hn] at h
        cases h
      | ok n =>
        rw [hn] at h
        cases h
        exact .clamped hv (toInt_eq_ok_iff.1 hn)
  · intro h
    cases h with
    | unasked hv => exact clamp_of_none hv hceiling
    | clamped hv hn => rw [clamp_of_some hv, toInt_eq_ok_iff.2 hn, Except.map]

theorem exists_of_clamp_error [Host] {refusal : Refusal}
    (h : clamp settings name ceiling = .error refusal) :
    ∃ v, Datum.lookup name settings = some v ∧ toInt v = .error refusal := by
  cases hv : Datum.lookup name settings with
  | none => simp [clamp, hv, bind, Except.bind, pure, Except.pure] at h
  | some v =>
    rw [clamp_of_some hv] at h
    cases hn : toInt v with
    | error r =>
      rw [hn] at h
      cases h
      exact ⟨v, rfl, hn⟩
    | ok n =>
      rw [hn] at h
      cases h

end Setting

/-! ## Limits -/

/-- A limit that a request can ask for. -/
inductive Tunable
  | during
  | loop
  | wait
deriving DecidableEq

namespace Tunable

/-- All of them, in the order in which settings are read. -/
def all : List Tunable := [.during, .loop, .wait]

/-- The name of the setting that asks for it. -/
def name : Tunable → Text
  | .during => "max_during_iterations".toList
  | .loop => "max_for_iterations".toList
  | .wait => "max_wait_ms".toList

def limit (limits : Limits) : Tunable → Int
  | .during => limits.during
  | .loop => limits.loop
  | .wait => limits.wait

end Tunable

namespace Limits

open Setting

/-- The limits that settings are granted. -/
def Granted [Host] (server : Limits) (settings : List (Text × Datum)) (limits : Limits) : Prop :=
  ∀ t : Tunable, Grants settings t.name (t.limit server) (t.limit limits)

variable {server limits : Limits} {settings : List (Text × Datum)}

theorem Granted.bounds [Host] (h : Granted server settings limits)
    (hserver : ∀ t : Tunable, 1 ≤ t.limit server) (t : Tunable) :
    1 ≤ t.limit limits ∧ t.limit limits ≤ t.limit server :=
  (h t).bounds (hserver t)

theorem Granted.eq [Host] {other : Limits} (h : Granted server settings limits)
    (h' : Granted server settings other) : limits = other := by
  have hlimit (t : Tunable) : t.limit limits = t.limit other := (h t).eq (h' t)
  cases limits
  cases other
  rw [Limits.mk.injEq]
  exact ⟨hlimit .during, hlimit .loop, hlimit .wait⟩

/-- The first of the settings, in the order in which they are read, that is no whole number is
refused. -/
inductive FirstRefusal [Host] (settings : List (Text × Datum)) : Refusal → Prop
  | mk (before after : List Tunable) {t : Tunable} {v : Datum} {refusal : Refusal} :
    Tunable.all = before ++ t :: after →
      (∀ u ∈ before, ∀ w, Datum.lookup u.name settings = some w → ∃ n, Denotes w n) →
        Datum.lookup t.name settings = some v → toInt v = .error refusal →
          FirstRefusal settings refusal

theorem FirstRefusal.exists_of [Host] {refusal : Refusal} (h : FirstRefusal settings refusal) :
    ∃ (t : Tunable) (v : Datum), Datum.lookup t.name settings = some v ∧ ¬∃ n, Denotes v n := by
  obtain @⟨before, after, t, v, _, -, -, hv, hrefusal⟩ := h
  exact ⟨t, v, hv, fun hn => exists_denotes_iff.1 hn refusal hrefusal⟩

/-- The limit under a name, from the server's. -/
def clampFor [Host] (server : Limits) (settings : List (Text × Datum)) (t : Tunable) :
    Except Refusal Int :=
  clamp settings t.name (t.limit server)

/-- Settings are read one after the other, also where there are none. -/
theorem capped_eq [Host] (hserver : ∀ t : Tunable, 1 ≤ t.limit server) :
    server.capped settings = do
      let during ← clampFor server settings .during
      let loop ← clampFor server settings .loop
      let wait ← clampFor server settings .wait
      return ⟨during, loop, wait⟩ := by
  unfold capped
  split
  · next hempty =>
    have hclamp (t : Tunable) : clampFor server settings t = .ok (t.limit server) := by
      refine clamp_of_none ?_ (hserver t)
      rw [List.isEmpty_iff.1 hempty]
      rfl
    rw [hclamp, hclamp, hclamp]
    rfl
  · rfl

/-- Either limits are granted, or the first setting that is no whole number is refused. -/
theorem capped_cases [Host] (hserver : ∀ t : Tunable, 1 ≤ t.limit server) :
    (∃ limits, server.capped settings = .ok limits ∧ Granted server settings limits) ∨
      ∃ refusal, server.capped settings = .error refusal ∧ FirstRefusal settings refusal := by
  have hgrants {t : Tunable} {limit : Int} (h : clampFor server settings t = .ok limit) :
      Grants settings t.name (t.limit server) limit := (clamp_eq_ok_iff (hserver t)).1 h
  have hfits {t : Tunable} {limit : Int} (h : clampFor server settings t = .ok limit) (w : Datum)
      (hw : Datum.lookup t.name settings = some w) : ∃ n, Denotes w n :=
        (hgrants h).exists_denotes hw
  rw [capped_eq hserver]
  cases hduring : clampFor server settings .during with
  | error refusal =>
    obtain ⟨v, hv, hrefusal⟩ := exists_of_clamp_error hduring
    exact .inr ⟨refusal, rfl, .mk [] [.loop, .wait] rfl (by simp) hv hrefusal⟩
  | ok during =>
    cases hloop : clampFor server settings .loop with
    | error refusal =>
      obtain ⟨v, hv, hrefusal⟩ := exists_of_clamp_error hloop
      exact .inr ⟨refusal, rfl,
        .mk [.during] [.wait] rfl (by simpa using hfits hduring) hv hrefusal⟩
    | ok loop =>
      cases hwait : clampFor server settings .wait with
      | error refusal =>
        obtain ⟨v, hv, hrefusal⟩ := exists_of_clamp_error hwait
        refine .inr ⟨refusal, rfl, .mk [.during, .loop] [] rfl ?_ hv hrefusal⟩
        simpa using ⟨hfits hduring, hfits hloop⟩
      | ok wait =>
        refine .inl ⟨⟨during, loop, wait⟩, rfl, fun t => ?_⟩
        cases t with
        | during => exact hgrants hduring
        | loop => exact hgrants hloop
        | wait => exact hgrants hwait

end Limits

end LineScript
