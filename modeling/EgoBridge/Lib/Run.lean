import Mathlib.Algebra.Order.Ring.Int
import Mathlib.Logic.Relation

/-!
# Lib.Run

Labelled transition systems and their runs.

* `System`    — the states a run may start in, and the steps. A step's label holds its inputs.
* `Reachable` — the states some finite run ends in.
* `invariant` — what holds at the start and is kept by every step holds of every reachable
  state. Every safety result goes through this rule.
* `restrict`  — the same system with only the steps whose inputs, in the state they meet, satisfy
  a condition. A property that needs a condition on the steps is a property of the restricted
  system's reachable states.
-/

namespace EgoBridge
namespace Run

open Relation

structure System (α σ : Type) where
  init : σ → Prop
  step : σ → α → σ → Prop

variable {α σ : Type}

namespace System

def Reachable (S : System α σ) (s : σ) : Prop :=
  ∃ s0, S.init s0 ∧ ReflTransGen (fun s s' => ∃ a, S.step s a s') s0 s

/-- Keep only the steps that meet `ok`. -/
def restrict (S : System α σ) (ok : σ → α → Prop) : System α σ where
  init := S.init
  step := fun s a s' => S.step s a s' ∧ ok s a

theorem Reachable.start {S : System α σ} {s : σ} (h : S.init s) : S.Reachable s :=
  ⟨s, h, .refl⟩

theorem Reachable.next {S : System α σ} {s s' : σ} (h : S.Reachable s) (a : α)
    (hs : S.step s a s') : S.Reachable s' := by
  obtain ⟨s0, h0, hr⟩ := h
  exact ⟨s0, h0, hr.tail ⟨a, hs⟩⟩

/-- The invariant rule. -/
theorem invariant {S : System α σ} {I : σ → Prop} (h0 : ∀ s, S.init s → I s)
    (hs : ∀ s a s', I s → S.step s a s' → I s') {s : σ} (h : S.Reachable s) : I s := by
  obtain ⟨s0, hi, hr⟩ := h
  induction hr with
  | refl => exact h0 s0 hi
  | tail _ hst ih =>
    obtain ⟨a, hst⟩ := hst
    exact hs _ a _ ih hst

/-- A restricted run is a run of the whole system. -/
theorem Reachable.of_restrict {S : System α σ} {ok : σ → α → Prop} {s : σ}
    (h : (S.restrict ok).Reachable s) : S.Reachable s :=
  invariant (S := S.restrict ok) (I := S.Reachable) (fun _ h0 => .start (S := S) h0)
    (fun _ a _ hr hst => hr.next a hst.1) h

end System

end Run
end EgoBridge
