import EgoBridge.Bridge.Supervisor
import EgoBridge.Protocol.LeaseRun

/-!
# Bridge.Grace

The two implementations of the renewal grace, side by side: `LeaseState::renewal_failed` and
`BridgeSupervisor::mark_renewal_failed` see the same failures at the same times.

* `failsInPlace`     — the failures at which `renewal_failed` moves no deadline.
* `GraceInv`         — what links the two leases while every failure is of that kind.
* `grace_in_place`   — then the grace ends where the first failure put it; and a failure of any
  other kind breaks this at once.
-/

namespace EgoBridge
namespace Bridge

open Protocol Run

/-- A lease under its owner's calls, and a supervisor that sees the same renewals, failures and
revocations. -/
structure GraceRun where
  run : LeaseRun
  sup : Supervisor

namespace GraceRun

/-- A renewal gives the supervisor the renewed lease; it makes no observations. -/
def supCall (p : LeasePolicy) (g : GraceRun) : LeaseCall → Supervisor
  | .renew expectedGeneration now =>
    match g.run.lease.renew expectedGeneration now p with
    | (lease, .renewed _) => { g.sup with lease := lease }
    | _ => g.sup
  | .renewalFailed now => (g.sup.markRenewalFailed p.failureGraceSeconds now).1
  | .observe _ => g.sup
  | .revoke => g.sup.revoke

def call (p : LeasePolicy) (g : GraceRun) (c : LeaseCall) : GraceRun :=
  ⟨g.run.call p c, g.supCall p c⟩

end GraceRun

def graceSystem (p : LeasePolicy) (generation t0 : UInt64) : System LeaseCall GraceRun where
  init := fun g => g.run = .start generation t0 p ∧ g.sup.lease = LeaseState.new generation t0 p
  step := fun g c g' => c.notBefore g.run.clock ∧ g' = g.call p c

/-- A failure that is not the first since the last renewal comes at the same second, or after the
lease has ended for good; and the policy grants a grace at all. -/
def failsInPlace (p : LeasePolicy) (s : LeaseState) (now : UInt64) : Prop :=
  s.revoked = true ∨ s.absoluteTtlUntil ≤ now ∨
    (p.failureGraceSeconds ≠ 0 ∧
      (s.health = .healthy ∨
        (s.health = .renewalGrace ∧ s.graceUntil = some (satAdd now p.failureGraceSeconds))))

def inPlace (p : LeasePolicy) (g : GraceRun) : LeaseCall → Prop
  | .renewalFailed now => failsInPlace p g.run.lease now
  | _ => True

/-- The grace is over where a failure without a later renewal put its end, and both leases hold
the same deadline. -/
def GraceBounded (p : LeasePolicy) (g : GraceRun) : Prop :=
  (∀ t, .failed t ∈ sinceRenewal g.run.log → ∀ now, g.run.clock ≤ now →
    t.toNat + p.failureGraceSeconds.toNat ≤ now.toNat →
      (g.run.lease.observe now).2 = .expired) ∧
  g.run.lease.graceUntil = g.sup.lease.graceUntil

/-- The call does not take an expired lease back to its grace. -/
def KeepsExpired (p : LeasePolicy) (g : GraceRun) (c : LeaseCall) : Prop :=
  g.run.lease.health = .expired → (g.call p c).run.lease.health ≠ .renewalGrace

/-! ## What a failed renewal does -/

theorem renewalFailed_ended {s : LeaseState} {now : UInt64} {p : LeasePolicy}
    (h : s.revoked = true ∨ s.absoluteTtlUntil ≤ now) :
    s.renewalFailed now p = { s with health := .expired, graceUntil := none } := by
  rw [LeaseState.renewalFailed, if_pos h]

theorem renewalFailed_open {s : LeaseState} {now : UInt64} {p : LeasePolicy}
    (hr : s.revoked = false) (ht : now < s.absoluteTtlUntil) :
    s.renewalFailed now p =
      { s with health := .renewalGrace,
               graceUntil := some (satAdd now p.failureGraceSeconds) } := by
  rw [LeaseState.renewalFailed, if_neg]
  rintro (h | h)
  · rw [hr] at h; cases h
  · exact UInt64.not_le.mpr ht h

/-- Before the absolute TTL a nonzero grace ends after it begins. -/
theorem lt_satAdd {now ttl grace : UInt64} (ht : now < ttl) (hg : grace ≠ 0) :
    now < satAdd now grace := by
  have h0 : grace.toNat ≠ 0 := fun h => hg (UInt64.toNat_inj.mp h)
  have h1 := ttl.toNat_lt
  rw [UInt64.lt_iff_toNat_lt] at ht ⊢
  rw [satAdd_toNat]
  omega

/-! ## The invariant -/

structure GraceInv (p : LeasePolicy) (g : GraceRun) : Prop where
  ttl_eq : g.sup.lease.absoluteTtlUntil = g.run.lease.absoluteTtlUntil
  grace_eq : g.sup.lease.graceUntil = g.run.lease.graceUntil
  revoked : g.run.lease.revoked = true → g.sup.lease.revoked = true
  ended : g.sup.lease.revoked = true →
    g.run.lease.revoked = true ∨ g.run.lease.absoluteTtlUntil ≤ g.run.clock
  revoked_none : g.sup.lease.revoked = true → g.sup.lease.graceUntil = none
  no_grace : p.failureGraceSeconds = 0 → g.run.lease.graceUntil = none
  health_eq : g.run.lease.health ≠ .expired → g.sup.lease.health = g.run.lease.health
  failed : ∀ t, .failed t ∈ sinceRenewal g.run.log →
    g.run.lease.revoked = true ∨ g.run.lease.absoluteTtlUntil ≤ g.run.clock ∨
      g.run.lease.health = .expired ∨
      (g.run.lease.health = .renewalGrace ∧
        g.run.lease.graceUntil = some (satAdd t p.failureGraceSeconds))

theorem GraceInv.start {p : LeasePolicy} {generation t0 : UInt64} {g : GraceRun}
    (hr : g.run = .start generation t0 p) (hs : g.sup.lease = LeaseState.new generation t0 p) :
    GraceInv p g := by
  obtain ⟨run, sup⟩ := g
  simp only at hr hs
  subst hr
  constructor <;> simp [hs, LeaseRun.start, LeaseState.new, sinceRenewal]

/-- A call that neither renews, fails nor revokes: the lease at most expires. -/
theorem GraceInv.quiet {p : LeasePolicy} {g : GraceRun} (hi : GraceInv p g) {e : LeaseEvent}
    (he : e.isRenewed = false) (hf : e.isFailed = false) {now : UInt64} {h : LeaseHealth}
    (hn : g.run.clock ≤ now) (hh : h = g.run.lease.health ∨ h = .expired) :
    GraceInv p ⟨⟨{ g.run.lease with health := h }, now, e :: g.run.log⟩, g.sup⟩ where
  ttl_eq := hi.ttl_eq
  grace_eq := hi.grace_eq
  revoked := hi.revoked
  ended := by
    intro hr
    cases hi.ended hr with
    | inl hr => exact .inl hr
    | inr ht => exact .inr (UInt64.le_trans ht hn)
  revoked_none := hi.revoked_none
  no_grace := hi.no_grace
  health_eq := by
    intro hne
    cases hh with
    | inl hh => exact (hi.health_eq (hh ▸ hne)).trans hh.symm
    | inr hh => exact absurd hh hne
  failed := by
    intro t hm
    simp only [sinceRenewal_cons he, List.mem_cons] at hm
    cases hm with
    | inl hm => rw [← hm] at hf; cases hf
    | inr hm =>
      cases hh with
      | inr hh => exact .inr (.inr (.inl hh))
      | inl hh =>
        subst hh
        rcases hi.failed t hm with hr | ht | hx
        · exact .inl hr
        · exact .inr (.inl (UInt64.le_trans ht hn))
        · exact .inr (.inr hx)

theorem GraceInv.renew {p : LeasePolicy} {g : GraceRun} (hi : GraceInv p g)
    {expectedGeneration now : UInt64} (hn : g.run.clock ≤ now) :
    GraceInv p (g.call p (.renew expectedGeneration now)) := by
  cases renew_cases g.run.lease expectedGeneration now p with
  | inl hc =>
    obtain ⟨o, h, he, ho, hh⟩ := hc
    have hcall : g.call p (.renew expectedGeneration now)
        = ⟨⟨{ g.run.lease with health := h }, now, .renewRefused now :: g.run.log⟩, g.sup⟩ := by
      cases o with
      | renewed u => exact absurd rfl (ho u)
      | _ => simp only [GraceRun.call, GraceRun.supCall, LeaseRun.call, LeaseRun.renew, he]
    rw [hcall]
    exact hi.quiet (e := .renewRefused now) rfl rfl hn hh
  | inr hc =>
    obtain ⟨hr, -, he⟩ := hc
    constructor <;>
      simp [GraceRun.call, GraceRun.supCall, LeaseRun.call, LeaseRun.renew, he, hr, sinceRenewal,
        LeaseEvent.isRenewed]

theorem GraceInv.observe {p : LeasePolicy} {g : GraceRun} (hi : GraceInv p g) {now : UInt64}
    (hn : g.run.clock ≤ now) : GraceInv p (g.call p (.observe now)) := by
  have he := observe_cases g.run.lease now
  cases he with
  | inl he =>
    have hq := hi.quiet (e := .observed now) rfl rfl hn (.inl rfl)
    simpa only [GraceRun.call, GraceRun.supCall, LeaseRun.call, LeaseRun.observe, he] using hq
  | inr he =>
    have hq := hi.quiet (e := .observed now) rfl rfl hn (.inr rfl)
    simpa only [GraceRun.call, GraceRun.supCall, LeaseRun.call, LeaseRun.observe, he] using hq

theorem GraceInv.revoke {p : LeasePolicy} {g : GraceRun} (hi : GraceInv p g) :
    GraceInv p (g.call p .revoke) := by
  have ht := hi.ttl_eq
  constructor <;>
    simp [GraceRun.call, GraceRun.supCall, LeaseRun.call, LeaseRun.revoke, LeaseState.revoke, ht]

/-- What the supervisor's lease becomes when the other one has ended for good. -/
theorem GraceInv.markRenewalFailed_ended {p : LeasePolicy} {g : GraceRun} (hi : GraceInv p g)
    {now : UInt64} (h : g.run.lease.revoked = true ∨ g.run.lease.absoluteTtlUntil ≤ now) :
    (g.sup.markRenewalFailed p.failureGraceSeconds now).1 = g.sup ∧
        g.sup.lease.graceUntil = none ∨
      (g.sup.markRenewalFailed p.failureGraceSeconds now).1 = g.sup.revokeLease.sendCancel true ∧
        g.run.lease.absoluteTtlUntil ≤ now := by
  rw [← hi.ttl_eq] at h ⊢
  rcases Supervisor.markRenewalFailed_cases g.sup p.failureGraceSeconds now with
    ⟨hc, e, he⟩ | ⟨_, hr, _, he, _⟩ | ⟨_, hr, ht, _⟩ | ⟨_, hr, ht, _⟩
  · refine .inl ⟨by rw [he], ?_⟩
    cases hc with
    | inl h0 => exact hi.grace_eq.trans (hi.no_grace h0)
    | inr hr => exact hi.revoked_none hr
  · refine .inr ⟨he, ?_⟩
    cases h with
    | inl h => rw [hi.revoked h] at hr; cases hr
    | inr h => exact h
  · cases h with
    | inl h => rw [hi.revoked h] at hr; cases hr
    | inr h => exact absurd h (UInt64.not_le.mpr ht)
  · cases h with
    | inl h => rw [hi.revoked h] at hr; cases hr
    | inr h => exact absurd h (UInt64.not_le.mpr ht)

theorem GraceInv.failed_ended {p : LeasePolicy} {g : GraceRun} (hi : GraceInv p g) {now : UInt64}
    (h : g.run.lease.revoked = true ∨ g.run.lease.absoluteTtlUntil ≤ now) :
    GraceInv p (g.call p (.renewalFailed now)) := by
  have hcall : (g.call p (.renewalFailed now)).run =
      ⟨{ g.run.lease with health := .expired, graceUntil := none }, now,
        .failed now :: g.run.log⟩ := by
    simp only [GraceRun.call, LeaseRun.call, LeaseRun.renewalFailed, renewalFailed_ended h]
  have hsup : (g.call p (.renewalFailed now)).sup =
      (g.sup.markRenewalFailed p.failureGraceSeconds now).1 := rfl
  cases hi.markRenewalFailed_ended h with
  | inl hm =>
    obtain ⟨hm, hnone⟩ := hm
    have hr := hi.revoked
    have ht := hi.ttl_eq
    constructor
    case revoked => rw [hcall, hsup, hm]; exact hr
    all_goals simp [hcall, hsup, hm, hnone, ht, h]
  | inr hm =>
    obtain ⟨hm, hle⟩ := hm
    have ht := hi.ttl_eq
    constructor <;> simp [hcall, hsup, hm, ht, hle, LeaseState.revoke]

/-- The supervisor keeps the deadline the other lease has after a failure in place. -/
theorem GraceInv.markRenewalFailed_open {p : LeasePolicy} {g : GraceRun} (hi : GraceInv p g)
    {now : UInt64} (hn : g.run.clock ≤ now) (hr : g.run.lease.revoked = false)
    (ht : now < g.run.lease.absoluteTtlUntil) (hg : p.failureGraceSeconds ≠ 0)
    (hh : g.run.lease.health = .healthy ∨ (g.run.lease.health = .renewalGrace ∧
      g.run.lease.graceUntil = some (satAdd now p.failureGraceSeconds))) :
    (g.sup.markRenewalFailed p.failureGraceSeconds now).1.lease =
      { g.sup.lease with health := .renewalGrace,
                         graceUntil := some (satAdd now p.failureGraceSeconds) } ∧
      g.sup.lease.revoked = false := by
  have hlt := lt_satAdd ht hg
  have hsr : g.sup.lease.revoked = false := by
    cases hs : g.sup.lease.revoked with
    | false => rfl
    | true =>
      cases hi.ended hs with
      | inl h => rw [hr] at h; cases h
      | inr h => exact absurd (UInt64.le_trans h hn) (UInt64.not_le.mpr ht)
  have hst : ¬ g.sup.lease.absoluteTtlUntil ≤ now := by
    rw [hi.ttl_eq]
    exact UInt64.not_le.mpr ht
  refine ⟨?_, hsr⟩
  cases hh with
  | inl hh =>
    have hs := hi.health_eq (by simp [hh])
    rw [hh] at hs
    simp [Supervisor.markRenewalFailed, hg, hsr, hst, hs, UInt64.not_le.mpr hlt]
  | inr hh =>
    obtain ⟨hh, hd⟩ := hh
    have hs := hi.health_eq (by simp [hh])
    have hsd := hi.grace_eq
    rw [hh] at hs
    rw [hd] at hsd
    simp [Supervisor.markRenewalFailed, hg, hsr, hst, hs, hsd, UInt64.not_le.mpr hlt]
    rw [← hsd, ← hs, ← hsr]

theorem GraceInv.failed_open {p : LeasePolicy} {g : GraceRun} (hi : GraceInv p g) {now : UInt64}
    (hn : g.run.clock ≤ now) (hr : g.run.lease.revoked = false)
    (ht : now < g.run.lease.absoluteTtlUntil) (hg : p.failureGraceSeconds ≠ 0)
    (hh : g.run.lease.health = .healthy ∨ (g.run.lease.health = .renewalGrace ∧
      g.run.lease.graceUntil = some (satAdd now p.failureGraceSeconds))) :
    GraceInv p (g.call p (.renewalFailed now)) := by
  obtain ⟨hsup, hsr⟩ := hi.markRenewalFailed_open hn hr ht hg hh
  have hcall : (g.call p (.renewalFailed now)).run =
      ⟨{ g.run.lease with health := .renewalGrace,
                          graceUntil := some (satAdd now p.failureGraceSeconds) }, now,
        .failed now :: g.run.log⟩ := by
    simp only [GraceRun.call, LeaseRun.call, LeaseRun.renewalFailed, renewalFailed_open hr ht]
  have hs : (g.call p (.renewalFailed now)).sup.lease =
      { g.sup.lease with health := .renewalGrace,
                         graceUntil := some (satAdd now p.failureGraceSeconds) } := hsup
  refine ⟨?_, ?_, ?_, ?_, ?_, ?_, ?_, ?_⟩
  · rw [hcall, hs]; exact hi.ttl_eq
  · rw [hcall, hs]
  · rw [hcall]; simp [hr]
  · rw [hs]; simp [hsr]
  · rw [hs]; simp [hsr]
  · exact fun h0 => absurd h0 hg
  · rw [hcall, hs]; simp
  · rw [hcall]
    intro t hm
    simp only [sinceRenewal_cons (e := .failed now) rfl, List.mem_cons] at hm
    refine .inr (.inr (.inr ⟨rfl, ?_⟩))
    cases hm with
    | inl hm => cases hm; rfl
    | inr hm =>
      -- an earlier failure without a renewal since: its deadline is this one's
      rcases hi.failed t hm with h | h | h | ⟨h, hd⟩
      · rw [hr] at h; cases h
      · exact absurd (UInt64.le_trans h hn) (UInt64.not_le.mpr ht)
      · rcases hh with hh | ⟨hh, -⟩ <;> rw [hh] at h <;> cases h
      · rcases hh with hh | ⟨-, hd'⟩
        · rw [hh] at h; cases h
        · exact hd'.symm.trans hd

theorem GraceInv.call {p : LeasePolicy} {g : GraceRun} (hi : GraceInv p g) {c : LeaseCall}
    (hn : c.notBefore g.run.clock) (hok : inPlace p g c) : GraceInv p (g.call p c) := by
  cases c with
  | renew expectedGeneration now => exact hi.renew hn
  | observe now => exact hi.observe hn
  | revoke => exact hi.revoke
  | renewalFailed now =>
    by_cases hend : g.run.lease.revoked = true ∨ g.run.lease.absoluteTtlUntil ≤ now
    · exact hi.failed_ended hend
    · simp only [not_or, Bool.not_eq_true] at hend
      rcases hok with h | h | ⟨hg, hh⟩
      · rw [hend.1] at h; cases h
      · exact absurd h hend.2
      · exact hi.failed_open hn hend.1 (UInt64.not_le.mp hend.2) hg hh

theorem GraceInv.reachable {p : LeasePolicy} {generation t0 : UInt64} {g : GraceRun}
    (h : ((graceSystem p generation t0).restrict (inPlace p)).Reachable g) : GraceInv p g := by
  refine System.invariant (S := (graceSystem p generation t0).restrict (inPlace p))
    (I := GraceInv p) ?_ ?_ h
  · intro g hg
    exact GraceInv.start hg.1 hg.2
  · rintro g c _ hi ⟨⟨hn, rfl⟩, hok⟩
    exact hi.call hn hok

/-! ## The bound -/

theorem observe_expired {s : LeaseState} {now : UInt64} (h : s.health = .expired) :
    (s.observe now).2 = .expired := by
  cases observe_cases s now with
  | inl he => rw [he]; exact h
  | inr he => rw [he]

theorem GraceInv.bounded {p : LeasePolicy} {g : GraceRun} (hi : GraceInv p g) :
    GraceBounded p g := by
  refine ⟨?_, hi.grace_eq.symm⟩
  intro t hm now hn hle
  rcases hi.failed t hm with hr | ht | hx | ⟨hh, hd⟩
  · simp [LeaseState.observe, hr]
  · simp [LeaseState.observe, UInt64.le_trans ht hn]
  · exact observe_expired hx
  · have hdl : satAdd t p.failureGraceSeconds ≤ now := by
      rw [UInt64.le_iff_toNat_le, satAdd_toNat]
      omega
    unfold LeaseState.observe
    split
    · rfl
    · rw [if_pos (.inl ⟨hh, by simp [hd, hdl]⟩)]

theorem GraceInv.keepsExpired {p : LeasePolicy} {g : GraceRun} {c : LeaseCall}
    (hok : inPlace p g c) : KeepsExpired p g c := by
  intro hx
  cases c with
  | renew expectedGeneration now =>
    rcases renew_cases g.run.lease expectedGeneration now p with ⟨o, h, he, _, hh⟩ | ⟨_, _, he⟩
    · have : (g.call p (.renew expectedGeneration now)).run.lease.health = h := by
        cases o <;> simp [GraceRun.call, LeaseRun.call, LeaseRun.renew, he]
      rw [this]
      rcases hh with hh | hh <;> simp [hh, hx]
    · simp [GraceRun.call, LeaseRun.call, LeaseRun.renew, he]
  | observe now =>
    rcases observe_cases g.run.lease now with he | he <;>
      simp [GraceRun.call, LeaseRun.call, LeaseRun.observe, he, hx]
  | revoke => simp [GraceRun.call, LeaseRun.call, LeaseRun.revoke, LeaseState.revoke]
  | renewalFailed now =>
    have hend : g.run.lease.revoked = true ∨ g.run.lease.absoluteTtlUntil ≤ now := by
      rcases hok with h | h | ⟨_, h | ⟨h, _⟩⟩
      · exact .inl h
      · exact .inr h
      · rw [hx] at h; cases h
      · rw [hx] at h; cases h
    simp [GraceRun.call, LeaseRun.call, LeaseRun.renewalFailed, renewalFailed_ended hend]

/-- Any other failure revives an expired lease or moves one of the two deadlines. -/
theorem GraceInv.broken {p : LeasePolicy} {g : GraceRun} (hi : GraceInv p g) {now : UInt64}
    (hok : ¬ failsInPlace p g.run.lease now) :
    ¬ (KeepsExpired p g (.renewalFailed now) ∧ GraceBounded p (g.call p (.renewalFailed now))) := by
  simp only [failsInPlace, not_or, Bool.not_eq_true] at hok
  obtain ⟨hr, ht, hbad⟩ := hok
  rw [UInt64.not_le] at ht
  have hlease : (g.call p (.renewalFailed now)).run.lease =
      { g.run.lease with health := .renewalGrace,
                         graceUntil := some (satAdd now p.failureGraceSeconds) } := by
    simp only [GraceRun.call, LeaseRun.call, LeaseRun.renewalFailed, renewalFailed_open hr ht]
  rintro ⟨hkeep, -, hdeadline⟩
  rw [hlease] at hdeadline
  have hsup : (g.call p (.renewalFailed now)).sup =
      (g.sup.markRenewalFailed p.failureGraceSeconds now).1 := rfl
  rw [hsup] at hdeadline
  cases hh : g.run.lease.health with
  | expired => exact hkeep hh (by rw [hlease])
  | healthy =>
    by_cases hg : p.failureGraceSeconds = 0
    · -- no grace: the supervisor refuses the call and keeps no deadline
      rcases Supervisor.markRenewalFailed_cases g.sup p.failureGraceSeconds now with
        ⟨_, e, he⟩ | ⟨h0, _⟩ | ⟨h0, _⟩ | ⟨h0, _⟩
      · rw [he, hi.grace_eq, hi.no_grace hg] at hdeadline
        cases hdeadline
      · exact h0 hg
      · exact h0 hg
      · exact h0 hg
    · exact hbad ⟨hg, .inl hh⟩
  | renewalGrace =>
    have hs := hi.health_eq (by simp [hh])
    rcases Supervisor.markRenewalFailed_cases g.sup p.failureGraceSeconds now with
      ⟨h0, e, he⟩ | ⟨_, _, _, he, _⟩ | ⟨_, _, _, hne, _⟩ | ⟨hg, _, _, _, _, he⟩
    · rw [he, hi.grace_eq] at hdeadline
      cases h0 with
      | inl h0 => rw [hi.no_grace h0] at hdeadline; cases hdeadline
      | inr h0 =>
        rw [← hi.grace_eq, hi.revoked_none h0] at hdeadline
        cases hdeadline
    · rw [he] at hdeadline
      simp [LeaseState.revoke] at hdeadline
    · exact hne (hs.trans hh)
    · rw [he, hi.grace_eq] at hdeadline
      exact hbad ⟨hg, .inr ⟨hh, hdeadline.symm⟩⟩

/-- **Exactly the failures in place keep the grace bounded.** While every failure of a run is in
place, the bound holds in every state; and the next call keeps it, without reviving an expired
lease, if and only if it is in place too. -/
theorem grace_in_place (p : LeasePolicy) (generation t0 : UInt64) {g : GraceRun}
    (h : ((graceSystem p generation t0).restrict (inPlace p)).Reachable g) :
    GraceBounded p g ∧
    ∀ c, c.notBefore g.run.clock →
      (inPlace p g c ↔ KeepsExpired p g c ∧ GraceBounded p (g.call p c)) := by
  have hi := GraceInv.reachable h
  refine ⟨hi.bounded, fun c hn => ⟨fun hok => ?_, fun hk => ?_⟩⟩
  · exact ⟨GraceInv.keepsExpired hok, (hi.call hn hok).bounded⟩
  · cases c with
    | renewalFailed now =>
      by_cases hok : failsInPlace p g.run.lease now
      · exact hok
      · exact absurd hk (hi.broken hok)
    | _ => trivial

/-- A lease activated at 0 under the default policy, before any call. -/
def graceStart : GraceRun :=
  ⟨.start 1 0 .default, .fresh .development ⟨4, 0, false, []⟩ 0 0⟩

theorem graceStart_reachable : (graceSystem .default 1 0).Reachable graceStart :=
  .start ⟨rfl, rfl⟩

/-- One failure at 3, observed at 13. -/
theorem grace_in_place_once :
    GraceBounded .default (graceStart.call .default (.renewalFailed 3)) ∧
      ((graceStart.call .default (.renewalFailed 3)).run.lease.observe 13).2 = .expired := by
  have h0 : ((graceSystem .default 1 0).restrict (inPlace .default)).Reachable graceStart :=
    .start ⟨rfl, rfl⟩
  have hn : (LeaseCall.renewalFailed 3).notBefore graceStart.run.clock :=
    (by decide : (0 : UInt64) ≤ 3)
  have hok : inPlace .default graceStart (.renewalFailed 3) :=
    .inr (.inr ⟨by decide, .inl rfl⟩)
  have hb := (((grace_in_place .default 1 0 h0).2 _ hn).mp hok).2
  exact ⟨hb, hb.1 3 (by decide) 13 (by decide) (by decide)⟩

/-- Failures at 0 and at 5: the second one moves the end of the grace from 10 to 15, where the
supervisor keeps 10. After an observation at 10 a failure at 11 revives the expired lease. -/
theorem grace_extended :
    (∃ g, (graceSystem .default 1 0).Reachable g ∧ .failed 0 ∈ sinceRenewal g.run.log ∧
      g.run.clock ≤ 10 ∧ (g.run.lease.observe 10).2 = .renewalGrace ∧
      g.run.lease.graceUntil = some 15 ∧ g.sup.lease.graceUntil = some 10) ∧
    (∃ g, (graceSystem .default 1 0).Reachable g ∧ g.run.clock ≤ 11 ∧
      g.run.lease.health = .expired ∧
      (g.call .default (.renewalFailed 11)).run.lease.health = .renewalGrace) := by
  have h1 : (graceSystem .default 1 0).Reachable (graceStart.call .default (.renewalFailed 0)) :=
    graceStart_reachable.next (.renewalFailed 0) ⟨(by decide : (0 : UInt64) ≤ 0), rfl⟩
  have h2 := h1.next (.renewalFailed 5) ⟨(by decide : (0 : UInt64) ≤ 5), rfl⟩
  have h3 := h1.next (.observe 10) ⟨(by decide : (0 : UInt64) ≤ 10), rfl⟩
  refine ⟨⟨_, h2, ?_⟩, ⟨_, h3, ?_⟩⟩
  · decide
  · decide

end Bridge
end EgoBridge
