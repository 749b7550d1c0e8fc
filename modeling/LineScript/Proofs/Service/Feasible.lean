import LineScript.Proofs.Number.Division
import LineScript.Proofs.Run.Clock
import LineScript.Proofs.Run.Limit

/-!
# Limits that a host can meet

Limits are feasible on a host if it makes every pause that they allow and can write the limit. Lower
limits are then feasible as well (`Limits.Feasible.mono`), and a run under feasible limits is served
if only its clock stays finite (`Script.served_of_feasible`). The usual host meets all limits up to
`10 ^ 12` milliseconds (`Host.feasible_usual`).
-/

namespace LineScript

/-- The host makes every pause that the limits allow, and it can write the limit. -/
structure Limits.Feasible [Host] (limits : Limits) : Prop where
  made : ∀ ms : Double, ms.isForward = true → Session.exceeds ms limits.wait = false →
    Host.refusal? (ms.div (.ofInt 1000)) = none
  written : ∀ bound ∈ Host.digits, limits.wait.natAbs < 10 ^ bound

theorem Limits.Feasible.mono [Host] {server limits : Limits} (h : server.Feasible)
    (hpos : 0 ≤ limits.wait) (hle : limits.wait ≤ server.wait) : limits.Feasible where
  made ms hms hallowed := by
    refine h.made ms hms (Bool.eq_false_iff.2 fun hexceeds => ?_)
    rw [Session.exceeds_of_le hle hexceeds] at hallowed
    cases hallowed
  written bound hbound := Nat.lt_of_le_of_lt (by omega) (h.written bound hbound)

/-- Under feasible limits the host does all that a run asks for. -/
theorem Script.served_of_feasible [Host] {limits : Limits} {clock : Double} {code : Text}
    (h : limits.Feasible)
    (hclock : ∀ c ∈ readings limits clock code, (c.mul (.ofInt 1000)).isFinite = true) :
    Served limits clock code where
  finite := hclock
  made seconds hseconds := by
    obtain ⟨e, he, hpause⟩ := List.mem_filterMap.1 hseconds
    obtain ⟨ms, line, s, rfl, -, hallowed, rfl⟩ := Event.exists_of_pause? hpause
    exact h.made ms (isForward_of_events limits clock code _ he) hallowed
  written _ := h.written

namespace Host

/-- A thousandth of a magnitude is finite, and rounding at most doubles it. -/
theorem exists_div_thousand (m : Magnitude) :
    ∃ k : Magnitude, (Double.finite false m).div (.ofInt 1000) = .finite false k ∧
      k.units ≤ 2 * (m.units / 1000) + 1 := by
  obtain ⟨t, ht, hunits⟩ := Double.exists_ofInt (a := 1000) (by decide)
  have hne : t.units ≠ 0 := by
    rw [hunits]
    exact Nat.mul_ne_zero (by decide) (Nat.ne_of_gt Double.one_pos)
  have hdiv : m.units * Double.one / t.units = m.units / 1000 := by
    rw [hunits]
    exact Nat.mul_div_mul_right _ _ Double.one_pos
  have hlt : m.units / 1000 < Double.ratioBound * Double.one := by
    have hm := m.units_lt
    rw [Double.bound_eq] at hm
    exact Nat.div_lt_of_lt_mul
      (Nat.lt_of_lt_of_le hm (by rw [Nat.mul_comm]; exact Nat.mul_le_mul_right _ (by decide)))
  have hfinite : (Double.ofUnits false (m.units * Double.one) t.units).isInfinite = false :=
    Double.isInfinite_ofUnits (hdiv.symm ▸ Double.units_lt_bound hlt)
  obtain ⟨k, hk, hround⟩ := Double.exists_of_isInfinite hfinite
  refine ⟨k, ?_, ?_⟩
  · rw [ht, Double.div, if_neg hne]
    exact hk
  · rw [hround, ← hdiv]
    exact Magnitude.roundUnits_le _ _

/-- The usual host makes every pause of at most `10 ^ 12` milliseconds. -/
theorem usualRefusal?_eq_none {ms : Double} {limit : Int} (hms : ms.isForward = true)
    (hlimit : limit ≤ 10 ^ 12) (h : Session.exceeds ms limit = false) :
    usualRefusal? (ms.div (.ofInt 1000)) = none := by
  cases ms with
  | nan => cases hms
  | infinite negative =>
    cases negative with
    | true => cases hms
    | false => cases h
  | finite negative m =>
    cases negative with
    | true => cases hms
    | false =>
      obtain ⟨k, hk, hle⟩ := exists_div_thousand m
      have hpos : 0 < Double.one := Double.one_pos
      have hunits : (m.units : Int) ≤ 10 ^ 12 * Double.one := by
        have hallowed : (m.units : Int) ≤ limit * Double.one := by
          simpa [Session.exceeds, Double.signedUnits] using h
        exact hallowed.trans (Int.mul_le_mul_of_nonneg_right hlimit (Int.natCast_nonneg _))
      rw [hk]
      refine if_neg ?_
      have hpow : Nat.pow 2 63 = 9223372036854775808 := by decide
      rw [hpow]
      omega

theorem feasible_usual {limits : Limits} (h : limits.wait.natAbs ≤ 10 ^ 12) : limits.Feasible where
  made _ hms hallowed := usualRefusal?_eq_none hms (by omega) hallowed
  written := lt_pow_digits (by decide : 13 ≤ 640) (Nat.lt_of_le_of_lt h (by decide))

end Host

end LineScript
