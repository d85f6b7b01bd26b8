import Mathlib.Logic.Function.Basic
import Mathlib.Tactic.SplitIfs

/-!
# Lib.LockFile

An advisory lock on a file that may be unlinked and created anew.

A lock belongs to the file a process has opened, not to the path: whoever finds the path empty
creates another file, and a lock on the old one excludes nobody there. A process looks once, after
it has opened the file, whether the path still names it.

* `State.Sound` — the files that have been checked are the one the path names, and a lock has one
  holder.
* `Sound.exclusive` — then at most one process holds a lock at all.
* `Sound.unlink`    — the path may be emptied as long as no process has checked its file.
-/

namespace EgoBridge
namespace LockFile

/-- Where a process stands: the file it has open, if any, and whether it holds its lock. -/
inductive Handle where
  | closed
  | opened (inode : Nat)
  | checked (inode : Nat)
  | locked (inode : Nat)
  deriving DecidableEq

/-- The file a process has open and found at the path. -/
def Handle.inUse : Handle → Option Nat
  | closed => none
  | opened _ => none
  | checked i => some i
  | locked i => some i

structure State (ι : Type) where
  path : Option Nat
  fresh : Nat
  holder : Nat → Option ι
  handle : ι → Handle

namespace State

variable {ι : Type} [DecidableEq ι]

def set (s : State ι) (p : ι) (h : Handle) : State ι :=
  { s with handle := Function.update s.handle p h }

/-- The file at the path is opened, or a new one is created there. -/
def openFile (s : State ι) (p : ι) : State ι :=
  match s.path with
  | some i => s.set p (.opened i)
  | none => { s.set p (.opened s.fresh) with path := some s.fresh, fresh := s.fresh + 1 }

/-- The open file still has a name. -/
def check (s : State ι) (p : ι) : Option (State ι) :=
  match s.handle p with
  | .opened i => if s.path = some i then some (s.set p (.checked i)) else none
  | _ => none

/-- The lock is taken if nobody holds it. -/
def lock (s : State ι) (p : ι) : Option (State ι) :=
  match s.handle p with
  | .checked i =>
    if s.holder i = none then
      some { s.set p (.locked i) with holder := Function.update s.holder i (some p) }
    else none
  | _ => none

/-- The file is closed, and with it its lock is given up. -/
def close (s : State ι) (p : ι) : State ι :=
  match s.handle p with
  | .locked i => { s.set p .closed with holder := Function.update s.holder i none }
  | _ => s.set p .closed

def unlink (s : State ι) : State ι := { s with path := none }

@[simp] theorem set_handle_self (s : State ι) (p : ι) (h : Handle) : (s.set p h).handle p = h :=
  Function.update_self _ _ _

@[simp] theorem set_handle_ne (s : State ι) {p q : ι} (h : Handle) (hq : q ≠ p) :
    (s.set p h).handle q = s.handle q :=
  Function.update_of_ne hq _ _

/-! ## What a step leaves alone -/

theorem openFile_handle (s : State ι) {p q : ι} (hq : q ≠ p) :
    (s.openFile p).handle q = s.handle q := by
  unfold openFile
  split
  · exact set_handle_ne s _ hq
  · exact set_handle_ne s _ hq

theorem check_handle {s s' : State ι} {p q : ι} (h : s.check p = some s') (hq : q ≠ p) :
    s'.handle q = s.handle q := by
  unfold check at h
  split at h
  · split_ifs at h
    cases h
    exact set_handle_ne s _ hq
  · cases h

theorem lock_handle {s s' : State ι} {p q : ι} (h : s.lock p = some s') (hq : q ≠ p) :
    s'.handle q = s.handle q := by
  unfold lock at h
  split at h
  · split_ifs at h
    cases h
    exact set_handle_ne s _ hq
  · cases h

theorem close_handle (s : State ι) {p q : ι} (hq : q ≠ p) :
    (s.close p).handle q = s.handle q := by
  unfold close
  split
  · exact set_handle_ne s _ hq
  · exact set_handle_ne s _ hq

/-! ## Exclusion -/

/-- What is checked is at the path, and a lock is held by the one it is recorded for. -/
structure Sound (s : State ι) : Prop where
  linked : ∀ p i, (s.handle p).inUse = some i → s.path = some i
  held : ∀ p i, s.handle p = .locked i → s.holder i = some p

section

omit [DecidableEq ι]

variable {s : State ι} {p q : ι}

/-- Two processes that hold a lock are one. -/
theorem Sound.exclusive (h : s.Sound) {i j : Nat} (hp : s.handle p = .locked i)
    (hq : s.handle q = .locked j) : p = q := by
  have h1 := h.linked p i (by rw [hp]; rfl)
  have h2 := h.linked q j (by rw [hq]; rfl)
  rw [h1] at h2
  cases h2
  have h3 := h.held p i hp
  rw [h.held q i hq] at h3
  exact (Option.some.inj h3).symm

theorem Sound.unlink (h : s.Sound) (hn : ∀ p, (s.handle p).inUse = none) : s.unlink.Sound := by
  refine ⟨?_, h.held⟩
  intro p i hi
  cases (hn p).symm.trans hi

end

variable {s s' : State ι} {p q : ι}

theorem Sound.set (hs : s.Sound) {h : Handle} (hlink : ∀ i, h.inUse = some i → s.path = some i)
    (hlock : ∀ i, h = .locked i → s.holder i = some p) : (s.set p h).Sound := by
  constructor
  · intro q i hq
    by_cases hqp : q = p
    · subst hqp
      rw [set_handle_self] at hq
      exact hlink i hq
    · rw [set_handle_ne s h hqp] at hq
      exact hs.linked q i hq
  · intro q i hq
    by_cases hqp : q = p
    · subst hqp
      rw [set_handle_self] at hq
      exact hlock i hq
    · rw [set_handle_ne s h hqp] at hq
      exact hs.held q i hq

theorem Sound.openFile (h : s.Sound) : (s.openFile p).Sound := by
  unfold State.openFile
  cases hpath : s.path with
  | some i => exact h.set nofun nofun
  | none =>
    have hset : (s.set p (.opened s.fresh)).Sound := h.set nofun nofun
    refine ⟨?_, hset.held⟩
    intro q i hq
    -- Nothing that is in use was at an empty path.
    cases hpath.symm.trans (hset.linked q i hq)

theorem Sound.check (h : s.Sound) (hc : s.check p = some s') : s'.Sound := by
  unfold State.check at hc
  split at hc
  · split_ifs at hc with hpath
    cases hc
    refine h.set ?_ nofun
    rintro j ⟨⟩
    exact hpath
  · cases hc

theorem Sound.lock (h : s.Sound) (hl : s.lock p = some s') : s'.Sound := by
  unfold State.lock at hl
  split at hl
  · rename_i i hi
    split_ifs at hl with hfree
    cases hl
    constructor
    · intro q j hq
      by_cases hqp : q = p
      · subst hqp
        rw [set_handle_self] at hq
        cases hq
        exact h.linked q i (by rw [hi]; rfl)
      · rw [set_handle_ne s _ hqp] at hq
        exact h.linked q j hq
    · intro q j hq
      by_cases hqp : q = p
      · subst hqp
        rw [set_handle_self] at hq
        cases hq
        exact Function.update_self _ _ _
      · rw [set_handle_ne s _ hqp] at hq
        have hj := h.held q j hq
        have hne : j ≠ i := by
          rintro rfl
          cases hfree.symm.trans hj
        exact (Function.update_of_ne hne _ _).trans hj
  · cases hl

theorem Sound.close (h : s.Sound) : (s.close p).Sound := by
  have hset : (s.set p .closed).Sound := h.set nofun nofun
  unfold State.close
  split
  · rename_i i hi
    refine ⟨hset.linked, ?_⟩
    intro q j hq
    have hj := hset.held q j hq
    have hne : j ≠ i := by
      rintro rfl
      have hqp : q = p := Option.some.inj (hj.symm.trans (h.held p j hi))
      rw [hqp, set_handle_self] at hq
      cases hq
    exact (Function.update_of_ne hne _ _).trans hj
  · exact hset

end State

end LockFile
end EgoBridge
