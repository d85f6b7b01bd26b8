import EgoBridge.Bridge.LeaseRules
import EgoBridge.Lib.Calls

/-!
# Bridge.Revocation

Concurrent control calls on one supervisor, interleaved section by section, and what is left of a
revocation once they have all returned.

* `ControlCall`, `control` — a call by what it has still to do, and its next section.
* `lowersInTime`           — no revocation raised the signal since the check of the resume that is
                             about to lower it, or an activation came after.
* `RevokeInv`              — a revoked lease has its signal up, or a revocation yet to raise it.
* `revocation_survives`    — the signal is up in every quiescent state with a revoked lease.
-/

namespace EgoBridge
namespace Bridge

open Protocol Run

/-- The supervisor with a record of who raised its signal. -/
structure ControlState where
  sup : Supervisor
  /-- How often a revocation has raised the signal, -/
  raises : Nat
  /-- and how often it had when the last generation was activated. -/
  raisesAtActivation : Nat
  /-- A revocation of the present lease has raised the signal and nobody has lowered it since. -/
  standing : Bool

inductive ControlCall where
  | revoke
  | revokeIssued
  | revokeConsumed
  | revokeSend
  | cancel
  | resume
  | resumeSend (raisesAtCheck : Nat)
  | markFailed (failureGraceSeconds : UInt64)
  | update (generation leaseUntil absoluteTtlUntil : UInt64) (healthy : Bool)
  | activate (generation : UInt64)
  deriving DecidableEq

namespace ControlCall

/-- The call has not run any section yet. -/
def isStart : ControlCall → Bool
  | .revokeIssued => false
  | .revokeConsumed => false
  | .revokeSend => false
  | .resumeSend _ => false
  | _ => true

/-- The call has revoked the lease and not raised the signal yet. -/
def isRevoking : ControlCall → Bool
  | .revokeIssued => true
  | .revokeConsumed => true
  | .revokeSend => true
  | _ => false

end ControlCall

namespace ControlState

/-- A revocation raises the signal. It stands if the lease it revoked is still there. -/
def raise (s : ControlState) (sup : Supervisor) : ControlState :=
  { s with sup := sup, raises := s.raises + 1, standing := sup.lease.revoked }

/-- The next section of a call, at clock reading `now`, and what remains of the call. -/
def control (s : ControlState) (now : UInt64) : ControlCall → ControlState × Option ControlCall
  | .revoke => ({ s with sup := s.sup.revokeLease }, some .revokeIssued)
  | .revokeIssued => ({ s with sup := s.sup.clearIssued }, some .revokeConsumed)
  | .revokeConsumed => ({ s with sup := s.sup.clearConsumed }, some .revokeSend)
  | .revokeSend => (s.raise (s.sup.sendCancel true), none)
  | .cancel => ({ s with sup := s.sup.cancel }, none)
  | .resume =>
    match s.sup.resumeCheck now with
    | .error _ => (s, none)
    | .ok () => (s, some (.resumeSend s.raises))
  | .resumeSend _ => ({ s with sup := s.sup.sendCancel false, standing := false }, none)
  | .markFailed failureGraceSeconds =>
    let sup := (s.sup.markRenewalFailed failureGraceSeconds now).1
    -- its only way to a revoked lease is to revoke it here
    if s.sup.lease.revoked = false ∧ sup.lease.revoked = true then (s.raise sup, none)
    else ({ s with sup := sup }, none)
  | .update generation leaseUntil absoluteTtlUntil healthy =>
    ({ s with sup := (s.sup.updateLease generation leaseUntil absoluteTtlUntil healthy).1 }, none)
  | .activate generation =>
    match s.sup.activateGeneration generation now with
    | (_, .error _) => (s, none)
    | (sup, .ok ()) =>
      ({ s with sup := sup, raisesAtActivation := s.raises, standing := false }, none)

end ControlState

def controlObject : Object UInt64 ControlState ControlCall where
  init := fun s => leaseOpSystem.init s.sup ∧ s.raises = 0 ∧ s.raisesAtActivation = 0 ∧
    s.standing = false
  start := fun k => k.isStart = true
  sec := fun s k now s' k' => s.control now k = (s', k')

def lowersInTime (c : Config ControlState ControlCall) : Act UInt64 ControlCall → Prop
  | .advance (.resumeSend raisesAtCheck) _ =>
    c.shared.raises = raisesAtCheck ∨ c.shared.raises = c.shared.raisesAtActivation
  | _ => True

/-! ## The invariant -/

structure RevokeInv (c : Config ControlState ControlCall) : Prop where
  standing_up : c.shared.standing = true → c.shared.sup.cancelled = true
  revoked : c.shared.sup.lease.revoked = true →
    c.shared.standing = true ∨ ∃ k ∈ c.calls, k.isRevoking = true
  standing_revoked : c.shared.standing = true → c.shared.sup.lease.revoked = true
  since_activation : c.shared.standing = true →
    c.shared.raisesAtActivation < c.shared.raises
  activation_le : c.shared.raisesAtActivation ≤ c.shared.raises
  since_check : ∀ n, .resumeSend n ∈ c.calls →
    n ≤ c.shared.raises ∧ (c.shared.raises = n → c.shared.standing = false)

/-- A revocation in progress stays in progress while another call moves, or moves on itself. -/
theorem revoking_of_advance {l r : List ControlCall} {k : ControlCall} {k' : Option ControlCall}
    (h : ∃ x ∈ l ++ k :: r, x.isRevoking = true)
    (hk : k.isRevoking = true → ∃ x, k' = some x ∧ x.isRevoking = true) :
    ∃ x ∈ l ++ k'.toList ++ r, x.isRevoking = true := by
  obtain ⟨x, hx, hrev⟩ := h
  cases mem_of_advance k' hx with
  | inl he =>
    subst he
    obtain ⟨y, rfl, hy⟩ := hk hrev
    exact ⟨y, mem_advanced rfl, hy⟩
  | inr hx => exact ⟨x, hx, hrev⟩

/-- A section that raises nothing, lowers nothing and revokes nothing. -/
theorem RevokeInv.quiet {s : ControlState} {l r : List ControlCall} {k : ControlCall}
    {k' : Option ControlCall} (hi : RevokeInv ⟨s, l ++ k :: r⟩) (sup : Supervisor)
    (hcancel : s.sup.cancelled = true → sup.cancelled = true)
    (hrev : sup.lease.revoked = s.sup.lease.revoked)
    (hk : k.isRevoking = true → ∃ x, k' = some x ∧ x.isRevoking = true)
    (hresume : ∀ n, k' = some (.resumeSend n) → n = s.raises ∧ s.standing = false) :
    RevokeInv ⟨{ s with sup := sup }, l ++ k'.toList ++ r⟩ where
  standing_up := fun h => hcancel (hi.standing_up h)
  revoked := by
    intro h
    cases hi.revoked (hrev ▸ h) with
    | inl h => exact .inl h
    | inr h => exact .inr (revoking_of_advance h hk)
  standing_revoked := fun h => hrev.trans (hi.standing_revoked h)
  since_activation := hi.since_activation
  activation_le := hi.activation_le
  since_check := by
    intro n hn
    cases mem_before_advance k hn with
    | inl he =>
      obtain ⟨hn, hs⟩ := hresume n he
      exact ⟨Nat.le_of_eq hn, fun _ => hs⟩
    | inr hn => exact hi.since_check n hn

/-- A raise ends every check made before it. -/
theorem RevokeInv.raise {s : ControlState} {l r : List ControlCall} {k : ControlCall}
    (hi : RevokeInv ⟨s, l ++ k :: r⟩) {sup : Supervisor} (hcancel : sup.cancelled = true) :
    RevokeInv ⟨s.raise sup, l ++ (none : Option ControlCall).toList ++ r⟩ where
  standing_up := fun _ => hcancel
  revoked := fun h => .inl h
  standing_revoked := fun h => h
  since_activation := fun _ => Nat.lt_succ_of_le hi.activation_le
  activation_le := Nat.le_succ_of_le hi.activation_le
  since_check := by
    intro n hn
    have hm := (mem_before_advance k hn).resolve_left nofun
    have hle := (hi.since_check n hm).1
    simp only [ControlState.raise] at hle ⊢
    exact ⟨by omega, fun he => by omega⟩

theorem RevokeInv.revokeLease {s : ControlState} {l r : List ControlCall}
    (hi : RevokeInv ⟨s, l ++ .revoke :: r⟩) :
    RevokeInv ⟨{ s with sup := s.sup.revokeLease }, l ++ (some .revokeIssued).toList ++ r⟩ where
  standing_up := hi.standing_up
  revoked := fun _ => .inr ⟨.revokeIssued, mem_advanced rfl, rfl⟩
  standing_revoked := fun _ => rfl
  since_activation := hi.since_activation
  activation_le := hi.activation_le
  since_check := by
    intro n hn
    exact hi.since_check n ((mem_before_advance .revoke hn).resolve_left nofun)

theorem RevokeInv.lower {s : ControlState} {l r : List ControlCall} {n : Nat}
    (hi : RevokeInv ⟨s, l ++ .resumeSend n :: r⟩)
    (hok : s.raises = n ∨ s.raises = s.raisesAtActivation) :
    RevokeInv ⟨{ s with sup := s.sup.sendCancel false, standing := false },
      l ++ (none : Option ControlCall).toList ++ r⟩ := by
  have hst : s.standing = false := by
    cases hs : s.standing with
    | false => rfl
    | true =>
      cases hok with
      | inl hok =>
        have := (hi.since_check n (by simp)).2 hok
        rw [hs] at this
        exact this
      | inr hok =>
        have := hi.since_activation hs
        simp only at this
        omega
  refine ⟨nofun, ?_, nofun, nofun, hi.activation_le, ?_⟩
  · intro h
    cases hi.revoked h with
    | inl h => simp only [hst] at h; cases h
    | inr h => exact .inr (revoking_of_advance h nofun)
  · intro m hm
    have hm := (mem_before_advance (.resumeSend n) hm).resolve_left nofun
    exact ⟨(hi.since_check m hm).1, fun _ => rfl⟩

theorem RevokeInv.activate {s : ControlState} {l r : List ControlCall} {k : ControlCall}
    (hi : RevokeInv ⟨s, l ++ k :: r⟩) {sup : Supervisor} (hrev : sup.lease.revoked = false) :
    RevokeInv ⟨{ s with sup := sup, raisesAtActivation := s.raises, standing := false },
      l ++ (none : Option ControlCall).toList ++ r⟩ := by
  refine ⟨nofun, ?_, nofun, nofun, Nat.le_refl _, ?_⟩
  · intro h
    simp only [hrev] at h
    cases h
  · intro m hm
    have hm := (mem_before_advance k hm).resolve_left nofun
    exact ⟨(hi.since_check m hm).1, fun _ => rfl⟩

theorem updateLease_revoked (s : Supervisor) (generation leaseUntil absoluteTtlUntil : UInt64)
    (healthy : Bool) :
    (s.updateLease generation leaseUntil absoluteTtlUntil healthy).1.lease.revoked =
      s.lease.revoked ∧
    (s.updateLease generation leaseUntil absoluteTtlUntil healthy).1.cancelled = s.cancelled := by
  unfold Supervisor.updateLease
  split
  · exact ⟨rfl, rfl⟩
  · split <;> exact ⟨rfl, rfl⟩

theorem RevokeInv.markFailed {s : ControlState} {l r : List ControlCall} {grace now : UInt64}
    (hi : RevokeInv ⟨s, l ++ .markFailed grace :: r⟩) {s' : ControlState}
    {k' : Option ControlCall} (h : s.control now (.markFailed grace) = (s', k')) :
    RevokeInv ⟨s', l ++ k'.toList ++ r⟩ := by
  simp only [ControlState.control] at h
  split at h
  · rename_i hc
    cases h
    refine hi.raise ?_
    rcases s.sup.markRenewalFailed_cases grace now with
      ⟨_, e, he⟩ | ⟨_, _, _, he, _⟩ | ⟨_, _, _, _, _, he⟩ | ⟨_, _, _, _, _, he⟩
    · rw [he] at hc
      rw [hc.1] at hc
      cases hc.2
    · rw [he]; rfl
    · rw [he] at hc
      simp only [hc.1] at hc
      cases hc.2
    · rw [he] at hc
      rw [hc.1] at hc
      cases hc.2
  · rename_i hc
    cases h
    refine hi.quiet _ ?_ ?_ nofun nofun
    · rcases s.sup.markRenewalFailed_cases grace now with
        ⟨_, e, he⟩ | ⟨_, _, _, he, _⟩ | ⟨_, _, _, _, _, he⟩ | ⟨_, _, _, _, _, he⟩
      · rw [he]; exact id
      · rw [he]; exact fun _ => rfl
      · rw [he]; exact id
      · rw [he]; exact id
    · rcases s.sup.markRenewalFailed_cases grace now with
        ⟨_, e, he⟩ | ⟨_, hr, _, he, _⟩ | ⟨_, _, _, _, _, he⟩ | ⟨_, _, _, _, _, he⟩
      · rw [he]
      · exact absurd ⟨hr, by rw [he]; rfl⟩ hc
      · rw [he]
      · rw [he]

theorem RevokeInv.advance {s s' : ControlState} {l r : List ControlCall} {k : ControlCall}
    {k' : Option ControlCall} {now : UInt64} (hi : RevokeInv ⟨s, l ++ k :: r⟩)
    (h : s.control now k = (s', k')) (hok : lowersInTime ⟨s, l ++ k :: r⟩ (.advance k now)) :
    RevokeInv ⟨s', l ++ k'.toList ++ r⟩ := by
  cases k with
  | revoke => cases h; exact hi.revokeLease
  | revokeIssued =>
    cases h
    exact hi.quiet _ id rfl (fun _ => ⟨_, rfl, rfl⟩) nofun
  | revokeConsumed =>
    cases h
    exact hi.quiet _ id rfl (fun _ => ⟨_, rfl, rfl⟩) nofun
  | revokeSend => cases h; exact hi.raise rfl
  | cancel => cases h; exact hi.quiet _ (fun _ => rfl) rfl nofun nofun
  | resume =>
    simp only [ControlState.control] at h
    split at h
    · cases h
      exact hi.quiet s.sup id rfl nofun nofun
    · rename_i hcheck
      cases h
      refine hi.quiet s.sup id rfl nofun ?_
      intro n hn
      cases hn
      refine ⟨rfl, ?_⟩
      cases hs : s.standing with
      | false => rfl
      | true =>
        have hrev := hi.standing_revoked hs
        rw [Supervisor.resumeCheck_ok hcheck] at hrev
        cases hrev
  | resumeSend n => cases h; exact hi.lower hok
  | markFailed grace => exact hi.markFailed h
  | update generation leaseUntil absoluteTtlUntil healthy =>
    cases h
    obtain ⟨hr, hc⟩ := updateLease_revoked s.sup generation leaseUntil absoluteTtlUntil healthy
    exact hi.quiet _ (fun h => hc.trans h) hr nofun nofun
  | activate generation =>
    simp only [ControlState.control] at h
    rcases s.sup.activateGeneration_cases generation now with ⟨e, he⟩ | ⟨_, he⟩
    · simp only [he] at h
      cases h
      exact hi.quiet s.sup id rfl nofun nofun
    · simp only [he] at h
      cases h
      exact hi.activate rfl

theorem RevokeInv.reachable {c : Config ControlState ControlCall}
    (h : (controlObject.system.restrict lowersInTime).Reachable c) : RevokeInv c := by
  refine System.invariant (S := controlObject.system.restrict lowersInTime) (I := RevokeInv)
    ?_ ?_ h
  · rintro ⟨s, ks⟩ ⟨⟨⟨config, highest, now, hn⟩, hr, ha, hs⟩, hk⟩
    simp only at hr ha hs hk
    subst hk
    have hrev : s.sup.lease.revoked = false := by
      obtain ⟨scheduler, he⟩ := Supervisor.new_ok hn
      rw [he]
      rfl
    constructor <;> simp [hs, hrev, hr, ha]
  · rintro c a c' hi ⟨hst, hok⟩
    cases hst with
    | spawn hstart =>
      rename_i s ks k
      refine ⟨hi.standing_up, ?_, hi.standing_revoked, hi.since_activation, hi.activation_le, ?_⟩
      · intro h
        cases hi.revoked h with
        | inl h => exact .inl h
        | inr h =>
          obtain ⟨x, hx, hrev⟩ := h
          exact .inr ⟨x, List.mem_cons_of_mem _ hx, hrev⟩
      · intro n hn
        cases List.mem_cons.mp hn with
        | inl he => subst he; cases hstart
        | inr hn => exact hi.since_check n hn
    | advance hsec => exact hi.advance hsec hok

/-- **A revocation survives.** In every run whose resumes lower the signal in time: once no call
is in progress, a revoked lease has its signal raised; and no resume ever lowers a signal that a
revocation of the present lease has raised. -/
theorem revocation_survives {c : Config ControlState ControlCall}
    (h : (controlObject.system.restrict lowersInTime).Reachable c) :
    (c.calls = [] → c.shared.sup.lease.revoked = true → c.shared.sup.cancelled = true) ∧
    (∀ n now c', (controlObject.system.restrict lowersInTime).step c
      (.advance (.resumeSend n) now) c' → c.shared.standing = false) := by
  have hi := RevokeInv.reachable h
  refine ⟨fun hq hr => ?_, ?_⟩
  · cases hi.revoked hr with
    | inl hs => exact hi.standing_up hs
    | inr hx =>
      obtain ⟨x, hx, _⟩ := hx
      rw [hq] at hx
      cases hx
  · rintro n now c' ⟨hst, hok⟩
    cases hst with
    | advance hsec =>
      rename_i s s' l r k'
      cases hs : s.standing with
      | false => rfl
      | true =>
        cases hok with
        | inl hok =>
          have := (hi.since_check n (by simp)).2 hok
          simp only [hs] at this
          exact this
        | inr hok =>
          have := hi.since_activation hs
          simp only at this hok
          omega

/-- A fresh supervisor with no call in progress. -/
def controlStart : Config ControlState ControlCall :=
  ⟨⟨.fresh .development ⟨4, 0, false, []⟩ 0 0, 0, 0, false⟩, []⟩

theorem controlStart_init : controlObject.system.init controlStart :=
  ⟨⟨fresh_init, rfl, rfl, rfl⟩, rfl⟩

/-- A whole revocation of a fresh supervisor. -/
theorem revocation_survives_alone :
    controlStart.shared.sup.revoke.cancelled = true := by
  have h0 := System.Reachable.start (S := controlObject.system.restrict lowersInTime)
    controlStart_init
  have h1 := Object.advanced_ok (Object.spawned_ok h0 (k := .revoke) rfl trivial) 0 rfl trivial
  have h2 := Object.advanced_ok h1 0 rfl trivial
  have h3 := Object.advanced_ok h2 0 rfl trivial
  have h4 := Object.advanced_ok h3 0 rfl trivial
  exact (revocation_survives h4).1 rfl rfl

/-- A resume checks the lease, a whole revocation runs, and the resume lowers its signal. -/
theorem resume_undoes_revocation :
    ∃ c, controlObject.system.Reachable c ∧ c.calls = [] ∧
      c.shared.sup.lease.revoked = true ∧ c.shared.sup.cancelled = false := by
  have h0 := System.Reachable.start (S := controlObject.system) controlStart_init
  have h1 := Object.advanced (Object.spawned h0 (k := .resume) rfl) 0 rfl
  have h2 := Object.advanced (Object.spawned h1 (k := .revoke) rfl) 0 rfl
  have h3 := Object.advanced h2 0 rfl
  have h4 := Object.advanced h3 0 rfl
  have h5 := Object.advanced h4 0 rfl
  have h6 := Object.advanced h5 0 rfl
  exact ⟨_, h6, rfl, rfl, rfl⟩

end Bridge
end EgoBridge
