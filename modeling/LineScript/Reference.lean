import LineScript.Namespace

/-!
# References

A variable is referred to as `[name]`, the item of a list as `/name/<index>`.
-/

namespace LineScript

inductive Reference
  | value (name : Text)
  | item (name index : Text)
deriving DecidableEq

namespace Reference

def text : Reference → Text
  | .value name => '[' :: name ++ [']']
  | .item name index => '/' :: name ++ '/' :: '<' :: index ++ ['>']

/-- The reference a text begins with, and the rest. -/
def scan? (s : Text) : Option (Reference × Text) :=
  match Text.bracketed? '/' '/' s with
  | some (name, '<' :: r) =>
    let index := r.takeWhile Text.isDigit
    match r.dropWhile Text.isDigit with
    | '>' :: rest => if index.isEmpty then none else some (.item name index, rest)
    | _ => none
  | _ => (Text.bracketed? '[' ']' s).map fun (name, rest) => (.value name, rest)

/-- The reference that a token is, from its text: what stands between the first and the last
character, for an item cut at the first `/<` in it. -/
def reread (r : Reference) : Reference :=
  match r with
  | .value _ => .value (r.text.drop 1).dropLast
  | .item _ _ =>
    let parts := Text.partition "/<".toList (r.text.drop 1)
    .item parts.1 parts.2.dropLast

/-- A scanned reference is what its text took from the front, and it took something. -/
theorem eq_append_of_scan? {s rest : Text} {r : Reference} (h : scan? s = some (r, rest)) :
    s = r.text ++ rest ∧ r.text ≠ [] := by
  unfold scan? at h
  split at h
  · next name t hb =>
    split at h
    · next tail hd =>
      dsimp only at h
      split at h
      · simp at h
      · simp only [Option.some.injEq, Prod.mk.injEq] at h
        obtain ⟨rfl, rfl⟩ := h
        have ht := List.takeWhile_append_dropWhile (p := Text.isDigit) (l := t)
        rw [hd] at ht
        refine ⟨?_, by simp [text]⟩
        rw [(Text.eq_of_bracketed? hb).1]
        simp [text, ht]
    · simp at h
  · simp only [Option.map_eq_some_iff, Prod.mk.injEq] at h
    obtain ⟨⟨name, tail⟩, hb, rfl, rfl⟩ := h
    exact ⟨by rw [(Text.eq_of_bracketed? hb).1]; simp [text], by simp [text]⟩

/-- The text of a scanned reference has the same parts when it is cut up again. -/
theorem reread_of_scan? {s rest : Text} {r : Reference} (h : scan? s = some (r, rest)) :
    r.reread = r := by
  unfold scan? at h
  split at h
  · next name t hb =>
    have hslash : '/' ∉ name := fun hmem => (Text.ne_of_bracketed? hb '/' hmem).1 rfl
    split at h
    · dsimp only at h
      split at h
      · simp at h
      · simp only [Option.some.injEq, Prod.mk.injEq] at h
        obtain ⟨rfl, -⟩ := h
        have hcut := Text.partition_append ['<'] (t.takeWhile Text.isDigit ++ ['>']) hslash
        simp only [List.append_assoc, List.cons_append, List.nil_append] at hcut
        simp [reread, text, hcut]
    · simp at h
  · simp only [Option.map_eq_some_iff, Prod.mk.injEq] at h
    obtain ⟨_, -, rfl, -⟩ := h
    simp [reread, text]

/-- The reference that the whole text is. -/
def ofText? (s : Text) : Option Reference :=
  match scan? s with
  | some (r, []) => some r
  | _ => none

/-- The value referred to. -/
def read (ns : Namespace) : Reference → Except Failure Value
  | .value name => ns.valueOf name
  | .item name index => ns.itemOf name index

end Reference

end LineScript
