import LineScript.Proofs.Service.Feasible
import LineScript.Proofs.Service.Setting
import LineScript.Service.Response

/-!
# Requests to run

How a request to run is answered, from what its body carries (`Service.respond_run`): without a
script it is a bad request; a setting that is no whole number is an error of the server, and so is a
run that the host does not serve; any other script is run under the limits granted, and its report
is the answer. On a host that meets the server's limits the script itself never makes an error of
the server, however faulty it is.

The front end that takes requests apart is not part of the service. What is assumed of it is that it
hands on what a body carries (`Service.FrontEnd`).
-/

namespace LineScript.Service

open Setting
open Limits (FirstRefusal)

/-! ## The front end -/

/-- What a field that is optional and a text carries. -/
inductive CarriesText : Option Datum → Option Text → Prop
  | missing : CarriesText none none
  | null : CarriesText (some .null) none
  | text (s : Text) : CarriesText (some (.text s)) (some s)

/-- What a field that is optional and a record carries. -/
inductive CarriesRecord : Option Datum → Option (List (Text × Datum)) → Prop
  | missing : CarriesRecord none none
  | null : CarriesRecord (some .null) none
  | record (fields : List (Text × Datum)) : CarriesRecord (some (.record fields)) (some fields)

/-- What the body of a request carries. A body with a script or settings of another kind carries
nothing. -/
inductive Carries : Option Datum → Option RunRequest → Prop
  | missing : Carries none none
  | null : Carries (some .null) none
  | record {fields : List (Text × Datum)} {request : RunRequest} :
    CarriesText (Datum.lookup "code".toList fields) request.code →
      CarriesRecord (Datum.lookup "settings".toList fields) request.settings →
        Carries (some (.record fields)) (some request)

/-- A front end, which hands on what the bodies of requests to run carry. -/
structure FrontEnd (Request Answer : Type) where
  call : Request → Except Answer Call
  body : Request → Option Datum
  carries {request : Request} {carried : Option RunRequest} :
    call request = .ok (.run carried) → Carries (body request) carried

/-! ## Bodies -/

/-- The body has no script: it is absent or null, or its code is missing, null or empty. -/
def LacksCode (body : Option Datum) : Prop :=
  body = none ∨ body = some .null ∨
    ∃ fields, body = some (.record fields) ∧
      (Datum.lookup "code".toList fields = none ∨ Datum.lookup "code".toList fields = some .null ∨
        Datum.lookup "code".toList fields = some (.text []))

/-- The fields of a record; any other datum has none. -/
def fields : Option Datum → List (Text × Datum)
  | some (.record fields) => fields
  | _ => []

/-- The settings that the body has. -/
def bodySettings (body : Option Datum) : List (Text × Datum) :=
  fields (Datum.lookup "settings".toList (fields body))

/-- The value that the settings have for a limit. -/
def asked? (body : Option Datum) (t : Tunable) : Option Datum :=
  Datum.lookup t.name (bodySettings body)

/-- The settings ask for a limit that is no whole number. -/
def AsksAmiss [Host] (body : Option Datum) : Prop :=
  ∃ t v, asked? body t = some v ∧ ¬∃ n, Denotes v n

/-- The body has the script `code`, and it is granted `limits`. -/
structure Admits [Host] (server : Limits) (body : Option Datum) (code : Text)
    (limits : Limits) : Prop where
  ne_nil : code ≠ []
  code : Datum.lookup "code".toList (fields body) = some (.text code)
  granted : server.Granted (bodySettings body) limits

variable {server limits : Limits} {clock : Double} {body : Option Datum}
    {carried : Option RunRequest} {code : Text}

theorem Carries.settings_eq (h : Carries body carried) : settings carried = bodySettings body := by
  cases h with
  | missing | null => rfl
  | @record fields request _ hsettings =>
    rw [settings, bodySettings, Option.bind_some, Service.fields]
    generalize Datum.lookup "settings".toList fields = field at hsettings
    generalize request.settings = value at hsettings
    cases hsettings <;> rfl

theorem lacksCode_record {fields : List (Text × Datum)} :
    LacksCode (some (.record fields)) ↔
      Datum.lookup "code".toList fields = none ∨ Datum.lookup "code".toList fields = some .null ∨
        Datum.lookup "code".toList fields = some (.text []) := by
  refine ⟨?_, fun h => .inr (.inr ⟨fields, rfl, h⟩)⟩
  rintro (hnone | hnull | ⟨_, ⟨⟩, h⟩)
  · cases hnone
  · cases hnull
  · exact h

/-- A body without a script carries none. -/
theorem Carries.code?_eq_none (h : Carries body carried) :
    code? carried = none ↔ LacksCode body := by
  cases h with
  | missing => simp [code?, LacksCode]
  | null => simp [code?, LacksCode]
  | @record fields request hcode _ =>
    rw [lacksCode_record, code?, Option.bind_some]
    generalize Datum.lookup "code".toList fields = field at hcode
    generalize request.code = value at hcode
    cases hcode with
    | missing | null => simp
    | text s => simp

theorem Carries.lookup_code (h : Carries body carried) (hcode : code? carried = some code) :
    code ≠ [] ∧ Datum.lookup "code".toList (fields body) = some (.text code) := by
  cases h with
  | missing | null => cases hcode
  | @record fields request hfield _ =>
    obtain ⟨hvalue, hne⟩ := Option.filter_eq_some_iff.1 hcode
    rw [Option.bind_some] at hvalue
    rw [hvalue] at hfield
    rw [Service.fields]
    generalize Datum.lookup "code".toList fields = field at hfield ⊢
    cases hfield
    exact ⟨by simpa using hne, rfl⟩

/-! ## Answers -/

/-- How a request to run is answered. -/
inductive Answers [Host] (server : Limits) (clock : Double) (body : Option Datum) : Response → Prop
  | noCode : LacksCode body → Answers server clock body .noCode
  | refused {refusal : Refusal} : ¬LacksCode body → FirstRefusal (bodySettings body) refusal →
    Answers server clock body (.failed refusal.message)
  | raised {code : Text} {limits : Limits} {e : Exception} : ¬LacksCode body →
    Admits server body code limits →
    Script.run limits clock code = .error e → Answers server clock body (.failed e.message)
  | ran {code : Text} {limits : Limits} {report : Report} : ¬LacksCode body →
    Admits server body code limits →
    Script.run limits clock code = .ok report → Answers server clock body (.ran report)

theorem answers_run [Host] (hserver : ∀ t : Tunable, 1 ≤ t.limit server)
    (h : Carries body carried) :
    Answers server clock body (run server clock carried) := by
  rw [run]
  cases hcode : code? carried with
  | none => exact .noCode (h.code?_eq_none.1 hcode)
  | some code =>
    have hlacks : ¬LacksCode body := by
      rw [← h.code?_eq_none, hcode]
      simp
    obtain ⟨hne, hlookup⟩ := h.lookup_code hcode
    dsimp only [runCode]
    rw [h.settings_eq]
    rcases Limits.capped_cases hserver with ⟨limits, hcapped, hgranted⟩ | ⟨refusal, hcapped, hfirst⟩
    · have hadmits : Admits server body code limits := ⟨hne, hlookup, hgranted⟩
      rw [hcapped]
      dsimp only
      cases hrun : Script.run limits clock code with
      | ok report => exact .ran hlacks hadmits hrun
      | error e => exact .raised hlacks hadmits hrun
    · rw [hcapped]
      exact .refused hlacks hfirst

namespace Admits

theorem not_asksAmiss [Host] (h : Admits server body code limits) : ¬AsksAmiss body := by
  rintro ⟨t, v, hv, hnone⟩
  exact hnone ((h.granted t).exists_denotes hv)

/-- A body has one script only, and it is granted one set of limits. -/
theorem eq [Host] {code' : Text} {limits' : Limits} (h : Admits server body code limits)
    (h' : Admits server body code' limits') : code = code' ∧ limits = limits' := by
  have hcode := h.code.symm.trans h'.code
  exact ⟨Datum.text.inj (Option.some.inj hcode), h.granted.eq h'.granted⟩

theorem served [Host] {server : Limits} (h : Admits server body code limits)
    (hserver : ∀ t : Tunable, 1 ≤ t.limit server) (hfeasible : server.Feasible)
    (hclock : ∀ c ∈ Script.readings limits clock code, (c.mul (.ofInt 1000)).isFinite = true) :
    Script.Served limits clock code := by
  obtain ⟨hpos, hle⟩ := h.granted.bounds hserver .wait
  exact Script.served_of_feasible (hfeasible.mono (Int.le_trans (by decide) hpos) hle) hclock

end Admits

namespace Answers

variable {response : Response}

theorem status_eq_400_iff [Host] (h : Answers server clock body response) :
    response.status = 400 ↔ LacksCode body := by
  cases h with
  | noCode hlacks => exact ⟨fun _ => hlacks, fun _ => rfl⟩
  | refused hcode _ | raised hcode _ _ | ran hcode _ _ => simp [Response.status, hcode]

theorem status_eq_500_iff [Host] (h : Answers server clock body response) :
    response.status = 500 ↔ ¬LacksCode body ∧
      (AsksAmiss body ∨ ∃ code limits, Admits server body code limits ∧
        ¬Script.Served limits clock code) := by
  cases h with
  | noCode hlacks => simp [Response.status, hlacks]
  | refused hcode hfirst => exact ⟨fun _ => ⟨hcode, .inl hfirst.exists_of⟩, fun _ => rfl⟩
  | raised hcode hadmits hrun =>
    have hserved := Script.not_served_of_run hrun
    exact ⟨fun _ => ⟨hcode, .inr ⟨_, _, hadmits, hserved⟩⟩, fun _ => rfl⟩
  | ran hcode hadmits hrun =>
    refine ⟨by simp [Response.status], ?_⟩
    rintro ⟨-, hamiss | ⟨code', limits', hadmits', hserved⟩⟩
    · exact absurd hamiss hadmits.not_asksAmiss
    · obtain ⟨rfl, rfl⟩ := hadmits.eq hadmits'
      exact absurd (Script.served_of_run hrun) hserved

theorem exists_report_of_status [Host] (h : Answers server clock body response)
    (hstatus : response.status = 200) :
    ∃ code limits report, Admits server body code limits ∧
      Script.run limits clock code = .ok report ∧ response = .ran report := by
  cases h with
  | ran hcode hadmits hrun => exact ⟨_, _, _, hadmits, hrun, rfl⟩
  | noCode | refused | raised => cases hstatus

theorem status_eq_200_iff [Host] (h : Answers server clock body response) :
    response.status = 200 ↔ ¬LacksCode body ∧ ¬AsksAmiss body ∧
      ∀ code limits, Admits server body code limits → Script.Served limits clock code := by
  cases h with
  | noCode hlacks => simp [Response.status, hlacks]
  | refused hcode hfirst => simp [Response.status, show AsksAmiss body from hfirst.exists_of]
  | raised hcode hadmits hrun =>
    refine ⟨by simp [Response.status], fun ⟨_, _, hserved⟩ => ?_⟩
    exact absurd (hserved _ _ hadmits) (Script.not_served_of_run hrun)
  | ran hcode hadmits hrun =>
    refine ⟨fun _ => ⟨hcode, hadmits.not_asksAmiss, fun code' limits' hadmits' => ?_⟩, fun _ => rfl⟩
    obtain ⟨rfl, rfl⟩ := hadmits.eq hadmits'
    exact Script.served_of_run hrun

theorem exists_of_failed [Host] {message : Text} (h : Answers server clock body (.failed message)) :
    (∃ refusal, FirstRefusal (bodySettings body) refusal ∧ message = refusal.message) ∨
      ∃ code limits e, Admits server body code limits ∧ Script.run limits clock code = .error e ∧
        message = e.message := by
  cases h with
  | refused _ hfirst => exact .inl ⟨_, hfirst, rfl⟩
  | raised _ hadmits hrun => exact .inr ⟨_, _, _, hadmits, hrun, rfl⟩

end Answers

/-- A front end whose requests are just what they carry. -/
def direct : FrontEnd (Option RunRequest) Empty where
  call request := .ok (.run request)
  body request := request.map fun r => .record [
    ("code".toList, (r.code.map Datum.text).getD .null),
    ("settings".toList, (r.settings.map Datum.record).getD .null)]
  carries {request carried} h := by
    obtain rfl : request = carried := Call.run.inj (Except.ok.inj h)
    cases request with
    | none => exact .missing
    | some r =>
      obtain ⟨code, settings⟩ := r
      refine .record ?_ ?_
      · cases code with
        | none => exact .null
        | some s => exact .text s
      · cases settings with
        | none => exact .null
        | some fields => exact .record fields

/-- A request to run a loop that never ends, with an integer in two kinds of digits, a fraction and
a flag as limits. -/
def endless : Option RunRequest := some {
  code := some "!implement condition looping\nDuring <1> =? <1> \x7b log(1) \x7d\nlog([x])".toList
  settings := some [("max_during_iterations".toList, .text " +0_٢ ".toList),
    ("max_for_iterations".toList, .real (.ofRatio true 5 2)), ("max_wait_ms".toList, .flag true)] }

/-- A request with two limits that are no whole numbers. -/
def refused : Option RunRequest := some {
  code := some "log(1)".toList
  settings := some [("max_wait_ms".toList, .null),
    ("max_for_iterations".toList, .text "1__0".toList)] }

/-- A request with an empty script and a limit that is no whole number. -/
def empty : Option RunRequest :=
  some { code := some [], settings := some [("max_wait_ms".toList, .null)] }

/-- A request for a pause that the usual host does not make. -/
def sleepy : Option RunRequest :=
  some { code := some "!implement time\nwait(9300000000000)".toList, settings := none }

end LineScript.Service
