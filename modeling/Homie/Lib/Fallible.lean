/-
Steps that may fail, one behind the other.

A run of them that succeeds is taken apart step by step: each has succeeded, and the next went on
from what it gave (`bind_eq_ok`).
-/
import Mathlib

namespace Homie

/-- `std::io::ErrorKind`, as far as callers look at it. -/
inductive IoError where
  | notFound
  | other
deriving DecidableEq, Repr

namespace Fallible

variable {ε α β : Type}

theorem bind_eq_ok {x : Except ε α} {f : α → Except ε β} {b : β} :
    x >>= f = .ok b ↔ ∃ a, x = .ok a ∧ f a = .ok b := by
  cases x with
  | error e => exact ⟨nofun, fun ⟨_, h, _⟩ => nomatch h⟩
  | ok a => exact ⟨fun h => ⟨a, rfl, h⟩, fun ⟨_, h, h'⟩ => by cases h; exact h'⟩

end Fallible

end Homie
