import LineScript.Session.Basic

/-!
# Loops

A loop tests, runs its body, and tests again. After as many rounds as its limit allows it writes a
line about that and ends without another test. A loop whose limit is below one makes one round.
-/

namespace LineScript.Session

/-- The line that a loop writes when it reaches its limit. -/
def guardLine : Text := "Infinite loop guard triggered.".toList

/-- Runs `body` while `test` holds, `rounds` times at most; after the last of them it writes the
guard line. -/
def repeatUpTo (test : Session → Except Stop Bool) (body : Session → Outcome) :
    (rounds : Nat) → Session → Outcome
  | 0, s => ⟨s.write guardLine, none⟩
  | rounds + 1, s =>
    match test s with
    | .error stop => ⟨s, some stop⟩
    | .ok false => ⟨s, none⟩
    | .ok true =>
      match body s with
      | ⟨t, none⟩ => repeatUpTo test body rounds t
      | ⟨t, some stop⟩ => ⟨t, some stop⟩

/-- The rounds that a limit allows. -/
def rounds (limit : Int) : Nat := max 1 limit.toNat

end LineScript.Session
