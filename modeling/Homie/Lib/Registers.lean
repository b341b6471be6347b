/-
Logs of changes to a register.

A change sets the register whatever it held, or patches what it holds.  Then a log comes to one
change, and it makes no difference whether a log is applied once or twice: a reader that has the
state after some changes may take these changes again.
-/
import Mathlib

namespace Homie.Registers

variable {β π : Type}

inductive Change (β π : Type) where
  | set (value : Option β)
  | patch (p : π)

/-- Patches compose, and the last writer of a part of the value wins. -/
structure Patching (β π : Type) where
  patch : π → β → β
  nop : π
  merge : π → π → π
  patch_nop : ∀ b, patch nop b = b
  patch_merge : ∀ p q b, patch (merge p q) b = patch q (patch p b)
  patch_again : ∀ p b, patch p (patch p b) = patch p b

namespace Patching

variable (P : Patching β π)

def apply (value : Option β) : Change β π → Option β
  | .set value => value
  | .patch p => value.map (P.patch p)

def applyAll (changes : List (Change β π)) (value : Option β) : Option β :=
  changes.foldl P.apply value

/-- A log comes to one change. -/
theorem applyAll_one (changes : List (Change β π)) :
    ∃ change, ∀ value, P.applyAll changes value = P.apply value change := by
  induction changes with
  | nil =>
    refine ⟨.patch P.nop, fun value => ?_⟩
    cases value with
    | none => rfl
    | some b => exact congrArg some (P.patch_nop b).symm
  | cons first changes ih =>
    obtain ⟨rest, hrest⟩ := ih
    cases rest with
    | set value => exact ⟨.set value, fun start => hrest _⟩
    | patch p =>
      cases first with
      | set value => exact ⟨.set (value.map (P.patch p)), fun start => hrest _⟩
      | patch q =>
        refine ⟨.patch (P.merge q p), fun start => (hrest _).trans ?_⟩
        cases start with
        | none => rfl
        | some b => exact congrArg some (P.patch_merge q p b).symm

/-- Changes that are part of the state may be applied again. -/
theorem applyAll_again (changes : List (Change β π)) (value : Option β) :
    P.applyAll changes (P.applyAll changes value) = P.applyAll changes value := by
  obtain ⟨change, hchange⟩ := P.applyAll_one changes
  rw [hchange, hchange]
  cases change with
  | set v => rfl
  | patch p =>
    cases value with
    | none => rfl
    | some b => exact congrArg some (P.patch_again p b)

theorem applyAll_append (front back : List (Change β π)) (value : Option β) :
    P.applyAll (front ++ back) value = P.applyAll back (P.applyAll front value) :=
  List.foldl_append

/-- Whether there is a value afterwards does not depend on the value, only on whether there was
one. -/
theorem isSome_applyAll_congr {value other : Option β} (h : value.isSome = other.isSome)
    (changes : List (Change β π)) :
    (P.applyAll changes value).isSome = (P.applyAll changes other).isSome := by
  obtain ⟨change, hchange⟩ := P.applyAll_one changes
  rw [hchange, hchange]
  cases change with
  | set v => rfl
  | patch p => simpa [apply] using h

end Patching

end Homie.Registers
