import EgoBridge.Bridge.Permits
import EgoBridge.Bridge.Relay
import EgoBridge.Lib.Calls

/-!
# Bridge.PermitRun

Any number of clients of one supervisor, their calls interleaved section by section, and the
permits they are issued and use.

The lease lock, which `issue_permit` and `activate_generation` keep from the lease to the table,
is part of the state. A section that needs it waits while another call keeps it.

* `PermitCall`         — a call by what it has still to do.
* `PermitState.run`    — its next section.
* `Effect`             — the eight things a section can do.
* `PermitInv`          — a sequence number is in the table, with one execution, or started.
* `permits_single_use` — numbers are new, a permit starts one process, and nothing else than a
  use, an expiry, a revocation or an activation takes it away.
-/

namespace EgoBridge
namespace Bridge

open Protocol Json Run

inductive PermitEvent where
  | issued (sequence : UInt64)
  /-- `execute` failed before it had consumed a permit, -/
  | refused (sequence : UInt64) (error : BridgeError)
  /-- or found it expired, -/
  | expired (sequence nowMillis : UInt64)
  | consumed (sequence : UInt64)
  | started (sequence : UInt64)
  | cleared
  deriving DecidableEq

structure PermitState where
  sup : Supervisor
  leaseHeld : Bool
  /-- What has happened, latest first. -/
  log : List PermitEvent

inductive PermitCall where
  | issue (r : PermitRequest)
  | issueAdmit (r : PermitRequest)
  | issueSequence (r : PermitRequest)
  | issueStore (r : PermitRequest) (sequence : UInt64)
  | execute (e : OuterEnvelope) (key : Key)
  | executeLease (e : OuterEnvelope) (key : Key)
  | executePermit (e : OuterEnvelope) (key : Key)
  | executeRecheck (e : OuterEnvelope) (key : Key) (permit : RequestPermit)
  | executeMark (e : OuterEnvelope) (key : Key) (permit : RequestPermit)
  | executeOpen (e : OuterEnvelope) (key : Key) (permit : RequestPermit)
  | executeAcquire (e : OuterEnvelope) (scope : RequestScope)
  | executeMarkAgain (e : OuterEnvelope) (guard : PermitGuard)
  | executeStart (e : OuterEnvelope) (guard : PermitGuard)
  | executeRun (guard : PermitGuard)
  | revoke
  | revokeIssued
  | revokeConsumed
  | revokeSend
  | cancel
  | activate (generation : UInt64)
  | activateIssued
  | activateConsumed
  | activateSend
  | resume
  | resumeSend

namespace PermitCall

def isStart : PermitCall → Bool
  | .issue _ => true
  | .execute _ _ => true
  | .revoke => true
  | .cancel => true
  | .activate _ => true
  | .resume => true
  | _ => false

/-- The call keeps the lease lock. -/
def keepsLease : PermitCall → Bool
  | .issueSequence _ => true
  | .issueStore _ _ => true
  | .activateIssued => true
  | .activateConsumed => true
  | .activateSend => true
  | _ => false

/-- The next section takes the lease lock. -/
def takesLease : PermitCall → Bool
  | .issueAdmit _ => true
  | .executeLease _ _ => true
  | .revoke => true
  | .activate _ => true
  | .resume => true
  | _ => false

/-- The number of a consumed permit whose process has not been started yet. -/
def pending : PermitCall → Option UInt64
  | .executeRecheck e _ _ => some e.sequence
  | .executeMark e _ _ => some e.sequence
  | .executeOpen e _ _ => some e.sequence
  | .executeAcquire e _ => some e.sequence
  | .executeMarkAgain e _ => some e.sequence
  | .executeStart e _ => some e.sequence
  | _ => none

end PermitCall

/-- What a section reads besides the shared state. -/
structure PermitInput where
  now : UInt64
  nowMillis : UInt64
  requestId : OpaqueId
  key : Key
  /-- `run_process` gets as far as starting the process. -/
  spawns : Bool

namespace PermitState

abbrev table (s : PermitState) : Finmap (fun _ : UInt64 => IssuedPermit) := s.sup.issuedPermits

def event (s : PermitState) (x : PermitEvent) : PermitState := { s with log := x :: s.log }

def refuse (s : PermitState) (e : OuterEnvelope) (error : BridgeError) :
    PermitState × Option PermitCall := (s.event (.refused e.sequence error), none)

/-- The permits-lock section of `execute`, with what it did written down. -/
def take (s : PermitState) (e : OuterEnvelope) (key : Key) (nowMillis : UInt64) :
    PermitState × Option PermitCall :=
  match s.sup.takePermit e key nowMillis with
  | (sup, .ok issued) =>
    ({ s with sup := sup }.event (.consumed e.sequence), some (.executeRecheck e key issued.permit))
  | (sup, .error error) =>
    if error = .leaseExpired then ({ s with sup := sup }.event (.expired e.sequence nowMillis), none)
    else { s with sup := sup }.refuse e error

/-- The next section of a call, and the rest of it. -/
def run (c : Primitives) (s : PermitState) (i : PermitInput) :
    PermitCall → PermitState × Option PermitCall
  | .issue r =>
    match s.sup.checkIssue r with
    | .error _ => (s, none)
    | .ok () => (s, some (.issueAdmit r))
  | .issueAdmit r =>
    match s.sup.admitIssue i.now with
    | .error _ => (s, none)
    | .ok () => ({ s with leaseHeld := true }, some (.issueSequence r))
  | .issueSequence r =>
    match s.sup.takeSequence with
    | (_, .error _) => ({ s with leaseHeld := false }, none)
    | (sup, .ok sequence) => ({ s with sup := sup }, some (.issueStore r sequence))
  | .issueStore r sequence =>
    match s.sup.storePermit r sequence i.nowMillis i.requestId i.key with
    | (_, .error _) => ({ s with leaseHeld := false }, none)
    | (sup, .ok _) => ({ s with sup := sup, leaseHeld := false }.event (.issued sequence), none)
  | .execute e key =>
    match s.sup.checkExecute e with
    | .error error => s.refuse e error
    | .ok () => (s, some (.executeLease e key))
  | .executeLease e key =>
    match Execution.leaseAccepts s.sup e.generation with
    | .error error => s.refuse e error
    | .ok () => (s, some (.executePermit e key))
  | .executePermit e key => s.take e key i.nowMillis
  | .executeRecheck e key permit =>
    if s.sup.cancelled then (s, none) else (s, some (.executeMark e key permit))
  | .executeMark e key permit =>
    ({ s with sup := s.sup.markConsumed e.sequence }, some (.executeOpen e key permit))
  | .executeOpen e key permit =>
    match openLocal c s.sup.config e key permit i.nowMillis with
    | .error _ => (s, none)
    | .ok (_, scope) => (s, some (.executeAcquire e scope))
  | .executeAcquire e scope =>
    match s.sup.acquireLocal e scope with
    | (_, .error _) => (s, none)
    | (sup, .ok guard) => ({ s with sup := sup }, some (.executeMarkAgain e guard))
  | .executeMarkAgain e guard =>
    ({ s with sup := s.sup.markConsumed e.sequence }, some (.executeStart e guard))
  | .executeStart e guard =>
    -- `run_process` looks at the signal first
    if s.sup.cancelled ∨ ¬ i.spawns then ({ s with sup := s.sup.dropGuard guard }, none)
    else (s.event (.started e.sequence), some (.executeRun guard))
  | .executeRun guard => ({ s with sup := s.sup.dropGuard guard }, none)
  | .revoke => ({ s with sup := s.sup.revokeLease }, some .revokeIssued)
  | .revokeIssued => ({ s with sup := s.sup.clearIssued }.event .cleared, some .revokeConsumed)
  | .revokeConsumed => ({ s with sup := s.sup.clearConsumed }, some .revokeSend)
  | .revokeSend => ({ s with sup := s.sup.sendCancel true }, none)
  | .cancel => ({ s with sup := s.sup.cancel }, none)
  | .activate generation =>
    if generation = 0 ∨ generation ≤ s.sup.lease.generation then (s, none)
    else
      ({ s with
          sup := { s.sup with lease := LeaseState.new generation i.now .default }
          leaseHeld := true }, some .activateIssued)
  | .activateIssued => ({ s with sup := s.sup.clearIssued }.event .cleared, some .activateConsumed)
  | .activateConsumed => ({ s with sup := s.sup.clearConsumed }, some .activateSend)
  | .activateSend => ({ s with sup := s.sup.sendCancel false, leaseHeld := false }, none)
  | .resume =>
    match s.sup.resumeCheck i.now with
    | .error _ => (s, none)
    | .ok () => (s, some .resumeSend)
  | .resumeSend => ({ s with sup := s.sup.sendCancel false }, none)

end PermitState

def permitObject (c : Primitives) : Object PermitInput PermitState PermitCall where
  init := fun s => (∃ config highest now, Supervisor.new config highest now = .ok s.sup) ∧
    s.leaseHeld = false ∧ s.log = []
  start := fun k => k.isStart = true
  sec := fun s k i s' k' => (k.takesLease = true → s.leaseHeld = false) ∧
    s.run c i k = (s', k')

/-! ## What one section does -/

/-- The call goes on to store a permit. -/
def stores : Option PermitCall → Bool
  | some (.issueStore _ _) => true
  | _ => false

inductive Effect (s : PermitState) (k : PermitCall) (i : PermitInput) (s' : PermitState)
    (k' : Option PermitCall) : Prop where
  | quiet (table : s'.table = s.table) (next : s'.sup.nextSequence = s.sup.nextSequence)
      (log : s'.log = s.log)
      (pending : k'.bind PermitCall.pending = none ∨ k'.bind PermitCall.pending = k.pending)
      (store : stores k' = false)
  | allocate (r : PermitRequest) (keeps : k.keepsLease = true)
      (hk' : k' = some (.issueStore r s'.sup.nextSequence))
      (table : s'.table = s.table) (next : s.sup.nextSequence < s'.sup.nextSequence)
      (log : s'.log = s.log)
  | store (r : PermitRequest) (q : UInt64) (issued : IssuedPermit) (hk : k = .issueStore r q)
      (hk' : k' = none) (table : s'.table = s.table.insert q issued)
      (next : s'.sup.nextSequence = s.sup.nextSequence) (log : s'.log = .issued q :: s.log)
  | refuse (q : UInt64) (error : BridgeError) (hk' : k' = none) (table : s'.table = s.table)
      (next : s'.sup.nextSequence = s.sup.nextSequence) (log : s'.log = .refused q error :: s.log)
  | expire (q : UInt64) (issued : IssuedPermit) (lookup : s.table.lookup q = some issued)
      (expired : issued.permit.expiresAtUnixMs ≤ i.nowMillis) (hk' : k' = none)
      (table : s'.table = s.table.erase q) (next : s'.sup.nextSequence = s.sup.nextSequence)
      (log : s'.log = .expired q i.nowMillis :: s.log)
  | consume (q : UInt64) (issued : IssuedPermit) (lookup : s.table.lookup q = some issued)
      (pending : k'.bind PermitCall.pending = some q) (store : stores k' = false)
      (table : s'.table = s.table.erase q) (next : s'.sup.nextSequence = s.sup.nextSequence)
      (log : s'.log = .consumed q :: s.log)
  | start (q : UInt64) (hk : k.pending = some q) (pending : k'.bind PermitCall.pending = none)
      (store : stores k' = false) (table : s'.table = s.table)
      (next : s'.sup.nextSequence = s.sup.nextSequence) (log : s'.log = .started q :: s.log)
  | clear (pending : k'.bind PermitCall.pending = none) (store : stores k' = false)
      (table : s'.table = ∅) (next : s'.sup.nextSequence = s.sup.nextSequence)
      (log : s'.log = .cleared :: s.log)

namespace PermitState

theorem take_effect {s s' : PermitState} {e : OuterEnvelope} {key : Key} {i : PermitInput}
    {k' : Option PermitCall} (h : s.take e key i.nowMillis = (s', k')) :
    Effect s (.executePermit e key) i s' k' := by
  unfold take at h
  rcases s.sup.takePermit_cases e key i.nowMillis with ⟨error, hne, ht⟩ | ⟨issued, hl, ha, hx, ht⟩ |
    ⟨issued, hl, ha, hx, ht⟩
  · rw [ht] at h
    dsimp only at h
    rw [if_neg hne] at h
    cases h
    exact .refuse _ error rfl rfl rfl rfl
  · rw [ht] at h
    cases h
    exact .expire _ issued hl hx rfl rfl rfl rfl
  · rw [ht] at h
    cases h
    exact .consume _ issued hl rfl rfl rfl rfl rfl

theorem run_effect {c : Primitives} {s s' : PermitState} {i : PermitInput} {k : PermitCall}
    {k' : Option PermitCall} (h : s.run c i k = (s', k')) : Effect s k i s' k' := by
  cases k with
  | issue r =>
    simp only [run] at h
    split at h <;> cases h <;> exact .quiet rfl rfl rfl (.inl rfl) rfl
  | issueAdmit r =>
    simp only [run] at h
    split at h <;> cases h <;> exact .quiet rfl rfl rfl (.inl rfl) rfl
  | issueSequence r =>
    simp only [run] at h
    rcases s.sup.takeSequence_cases with ⟨error, ht⟩ | ⟨hlt, ht⟩
    · rw [ht] at h
      cases h
      exact .quiet rfl rfl rfl (.inl rfl) rfl
    · rw [ht] at h
      cases h
      exact .allocate r rfl rfl rfl hlt rfl
  | issueStore r sequence =>
    simp only [run] at h
    rcases s.sup.storePermit_cases r sequence i.nowMillis i.requestId i.key with
      ⟨error, ht⟩ | ⟨permit, hp, ht⟩
    · rw [ht] at h
      cases h
      exact .quiet rfl rfl rfl (.inl rfl) rfl
    · rw [ht] at h
      cases h
      exact .store r sequence ⟨permit, i.key⟩ rfl rfl rfl rfl rfl
  | execute e key =>
    simp only [run] at h
    split at h <;> cases h
    · exact .refuse _ _ rfl rfl rfl rfl
    · exact .quiet rfl rfl rfl (.inl rfl) rfl
  | executeLease e key =>
    simp only [run] at h
    split at h <;> cases h
    · exact .refuse _ _ rfl rfl rfl rfl
    · exact .quiet rfl rfl rfl (.inl rfl) rfl
  | executePermit e key => exact take_effect h
  | executeRecheck e key permit =>
    simp only [run] at h
    split at h <;> cases h
    · exact .quiet rfl rfl rfl (.inl rfl) rfl
    · exact .quiet rfl rfl rfl (.inr rfl) rfl
  | executeMark e key permit => cases h; exact .quiet rfl rfl rfl (.inr rfl) rfl
  | executeOpen e key permit =>
    simp only [run] at h
    split at h <;> cases h
    · exact .quiet rfl rfl rfl (.inl rfl) rfl
    · exact .quiet rfl rfl rfl (.inr rfl) rfl
  | executeAcquire e scope =>
    simp only [run] at h
    obtain ⟨scheduler, ha⟩ := s.sup.acquireLocal_fst e scope
    split at h
    · cases h
      exact .quiet rfl rfl rfl (.inl rfl) rfl
    · rename_i sup guard hg
      rw [hg] at ha
      cases ha
      cases h
      exact .quiet rfl rfl rfl (.inr rfl) rfl
  | executeMarkAgain e guard => cases h; exact .quiet rfl rfl rfl (.inr rfl) rfl
  | executeStart e guard =>
    simp only [run] at h
    split at h <;> cases h
    · exact .quiet rfl rfl rfl (.inl rfl) rfl
    · exact .start e.sequence rfl rfl rfl rfl rfl rfl
  | executeRun guard => cases h; exact .quiet rfl rfl rfl (.inl rfl) rfl
  | revoke => cases h; exact .quiet rfl rfl rfl (.inl rfl) rfl
  | revokeIssued => cases h; exact .clear rfl rfl rfl rfl rfl
  | revokeConsumed => cases h; exact .quiet rfl rfl rfl (.inl rfl) rfl
  | revokeSend => cases h; exact .quiet rfl rfl rfl (.inl rfl) rfl
  | cancel => cases h; exact .quiet rfl rfl rfl (.inl rfl) rfl
  | activate generation =>
    simp only [run] at h
    split at h <;> cases h <;> exact .quiet rfl rfl rfl (.inl rfl) rfl
  | activateIssued => cases h; exact .clear rfl rfl rfl rfl rfl
  | activateConsumed => cases h; exact .quiet rfl rfl rfl (.inl rfl) rfl
  | activateSend => cases h; exact .quiet rfl rfl rfl (.inl rfl) rfl
  | resume =>
    simp only [run] at h
    split at h <;> cases h <;> exact .quiet rfl rfl rfl (.inl rfl) rfl
  | resumeSend => cases h; exact .quiet rfl rfl rfl (.inl rfl) rfl

/-- The lease lock is taken when it is free, and kept by the call that goes on. -/
theorem run_held {c : Primitives} {s s' : PermitState} {i : PermitInput} {k : PermitCall}
    {k' : Option PermitCall} (h : s.run c i k = (s', k'))
    (hfree : k.takesLease = true → s.leaseHeld = false)
    (hkeeps : k.keepsLease = true → s.leaseHeld = true) :
    s'.leaseHeld.toNat + k.keepsLease.toNat =
      s.leaseHeld.toNat + (k'.any PermitCall.keepsLease).toNat := by
  cases k with
  | issueAdmit r =>
    have hf := hfree rfl
    simp only [run] at h
    split at h <;> cases h
    · rfl
    · rw [hf]
      rfl
  | issueSequence r =>
    have hk := hkeeps rfl
    simp only [run] at h
    split at h <;> cases h
    · rw [hk]
      rfl
    · rfl
  | issueStore r sequence =>
    have hk := hkeeps rfl
    simp only [run] at h
    split at h <;> cases h
    · rw [hk]
      rfl
    · rw [hk]
      rfl
  | activate generation =>
    have hf := hfree rfl
    simp only [run] at h
    split at h <;> cases h
    · rfl
    · rw [hf]
      rfl
  | activateSend =>
    have hk := hkeeps rfl
    cases h
    rw [hk]
    rfl
  | executePermit e key =>
    simp only [run, take] at h
    split at h
    · cases h
      rfl
    · split at h <;> cases h <;> rfl
  | executeStart e guard =>
    simp only [run] at h
    split at h <;> cases h <;> rfl
  | executeRecheck e key permit =>
    simp only [run] at h
    split at h <;> cases h <;> rfl
  | issue r =>
    simp only [run] at h
    split at h <;> cases h <;> rfl
  | execute e key =>
    simp only [run] at h
    split at h <;> cases h <;> rfl
  | executeLease e key =>
    simp only [run] at h
    split at h <;> cases h <;> rfl
  | executeOpen e key permit =>
    simp only [run] at h
    split at h <;> cases h <;> rfl
  | executeAcquire e scope =>
    simp only [run] at h
    split at h <;> cases h <;> rfl
  | resume =>
    simp only [run] at h
    split at h <;> cases h <;> rfl
  | _ => cases h; rfl

end PermitState

/-! ## The invariant -/

def issuedNumbers (log : List PermitEvent) : List UInt64 :=
  log.filterMap fun x =>
    match x with
    | .issued q => some q
    | _ => none

/-- The consumed permits with number `q` whose process has not been started. -/
def pendingCount (q : UInt64) (calls : List PermitCall) : Nat :=
  calls.countP fun k => k.pending = some q

/-- The uses of the number `q`: in the table, with an execution, or started. -/
def useCount (c : Config PermitState PermitCall) (q : UInt64) : Nat :=
  (if q ∈ c.shared.table then 1 else 0) + pendingCount q c.calls +
    c.shared.log.count (.started q)

structure PermitInv (c : Config PermitState PermitCall) : Prop where
  held : c.calls.countP PermitCall.keepsLease = c.shared.leaseHeld.toNat
  bounded : ∀ q ∈ issuedNumbers c.shared.log, q ≤ c.shared.sup.nextSequence
  ascending : (issuedNumbers c.shared.log).Pairwise (· > ·)
  fresh : ∀ r q, .issueStore r q ∈ c.calls → q ≤ c.shared.sup.nextSequence ∧
    ∀ q' ∈ issuedNumbers c.shared.log, q' < q
  uses : ∀ q, useCount c q ≤ (issuedNumbers c.shared.log).count q

section

variable {l r : List PermitCall} {k : PermitCall} {k' : Option PermitCall}

theorem PermitInv.keeps {s : PermitState} (hi : PermitInv ⟨s, l ++ k :: r⟩)
    (hk : k.keepsLease = true) :
    s.leaseHeld = true ∧ ∀ x ∈ l ++ r, x.keepsLease = false := by
  have hc := hi.held
  simp only [List.countP_append, List.countP_cons, hk, if_true] at hc
  have hle := s.leaseHeld.toNat_le
  refine ⟨?_, ?_⟩
  · cases h : s.leaseHeld with
    | true => rfl
    | false => rw [h, Bool.toNat_false] at hc; omega
  · have h0 : (l ++ r).countP PermitCall.keepsLease = 0 := by
      rw [List.countP_append]
      omega
    intro x hx
    exact Bool.eq_false_iff.mpr (List.countP_eq_zero.mp h0 x hx)

theorem pendingCount_advance (q : UInt64) (l r : List PermitCall) (k : PermitCall)
    (k' : Option PermitCall) :
    pendingCount q (l ++ k'.toList ++ r) + (if k.pending = some q then 1 else 0) =
      pendingCount q (l ++ k :: r) + (if k'.bind PermitCall.pending = some q then 1 else 0) := by
  have h := countP_advance (fun k => decide (k.pending = some q)) l r k k'
  have hk : k'.any (fun k => decide (k.pending = some q)) =
      decide (k'.bind PermitCall.pending = some q) := by cases k' <;> simp
  rw [hk] at h
  simpa only [pendingCount, Bool.toNat, Bool.cond_decide] using h

/-- No section adds a use of a number it does not issue. -/
theorem uses_step {s s' : PermitState} {i : PermitInput} (he : Effect s k i s' k')
    (hu : ∀ q, useCount ⟨s, l ++ k :: r⟩ q ≤ (issuedNumbers s.log).count q) (q : UInt64) :
    useCount ⟨s', l ++ k'.toList ++ r⟩ q ≤ (issuedNumbers s'.log).count q := by
  have hq := hu q
  have hp := pendingCount_advance q l r k k'
  unfold useCount at hq ⊢
  dsimp only at hq ⊢
  cases he with
  | quiet table next log pending store =>
    rw [table, log]
    rcases pending with hn | hs
    · simp only [hn, reduceCtorEq, if_false] at hp
      omega
    · rw [hs] at hp
      omega
  | allocate r keeps hk' table next log =>
    rw [table, log]
    have hn : k'.bind PermitCall.pending = none := by rw [hk']; rfl
    simp only [hn, reduceCtorEq, if_false] at hp
    omega
  | store r q0 issued hk hk' table next log =>
    have hn : k'.bind PermitCall.pending = none := by rw [hk']; rfl
    have hl : issuedNumbers (.issued q0 :: s.log) = q0 :: issuedNumbers s.log := rfl
    have hs : PermitEvent.issued q0 ≠ .started q := nofun
    simp only [hn, reduceCtorEq, if_false] at hp
    rw [table, log, hl, List.count_cons_of_ne hs]
    by_cases h0 : q = q0
    · rw [h0, List.count_cons_self]
      subst h0
      split <;> omega
    · rw [List.count_cons_of_ne (Ne.symm h0)]
      simp only [Finmap.mem_insert, h0, false_or]
      omega
  | refuse q0 error hk' table next log =>
    have hn : k'.bind PermitCall.pending = none := by rw [hk']; rfl
    have hl : issuedNumbers (.refused q0 error :: s.log) = issuedNumbers s.log := rfl
    have hs : PermitEvent.refused q0 error ≠ .started q := nofun
    simp only [hn, reduceCtorEq, if_false] at hp
    rw [table, log, hl, List.count_cons_of_ne hs]
    omega
  | expire q0 issued lookup expired hk' table next log =>
    have hn : k'.bind PermitCall.pending = none := by rw [hk']; rfl
    have hl : issuedNumbers (.expired q0 i.nowMillis :: s.log) = issuedNumbers s.log := rfl
    have hs : PermitEvent.expired q0 i.nowMillis ≠ .started q := nofun
    simp only [hn, reduceCtorEq, if_false] at hp
    rw [table, log, hl, List.count_cons_of_ne hs]
    simp only [Finmap.mem_erase]
    split <;> split at hq <;> first | omega | simp_all
  | consume q0 issued lookup pending store table next log =>
    have hm : q0 ∈ s.table := Finmap.mem_of_lookup_eq_some lookup
    have hl : issuedNumbers (.consumed q0 :: s.log) = issuedNumbers s.log := rfl
    have hs : PermitEvent.consumed q0 ≠ .started q := nofun
    rw [pending] at hp
    rw [table, log, hl, List.count_cons_of_ne hs]
    by_cases h0 : q = q0
    · subst h0
      simp only [Finmap.mem_erase, ne_eq, not_true_eq_false, false_and, if_false, hm, if_true] at hp hq ⊢
      omega
    · simp only [Finmap.mem_erase, ne_eq, h0, not_false_eq_true, true_and, Option.some.injEq,
        Ne.symm h0, if_false] at hp ⊢
      omega
  | start q0 hk pending store table next log =>
    have hl : issuedNumbers (.started q0 :: s.log) = issuedNumbers s.log := rfl
    simp only [hk, pending, reduceCtorEq, if_false, Option.some.injEq] at hp
    rw [table, log, hl, List.count_cons]
    simp only [beq_iff_eq, PermitEvent.started.injEq]
    omega
  | clear pending store table next log =>
    have hl : issuedNumbers (.cleared :: s.log) = issuedNumbers s.log := rfl
    have hs : PermitEvent.cleared ≠ .started q := nofun
    simp only [pending, reduceCtorEq, if_false] at hp
    rw [table, log, hl, List.count_cons_of_ne hs]
    simp only [Finmap.notMem_empty, if_false]
    omega

theorem next_mono {s s' : PermitState} {i : PermitInput} (he : Effect s k i s' k') :
    s.sup.nextSequence ≤ s'.sup.nextSequence := by
  cases he with
  | allocate r keeps hk' table next log => exact UInt64.le_of_lt next
  | quiet table next log pending store => exact UInt64.le_of_eq next.symm
  | store r q issued hk hk' table next log => exact UInt64.le_of_eq next.symm
  | refuse q error hk' table next log => exact UInt64.le_of_eq next.symm
  | expire q issued lookup expired hk' table next log => exact UInt64.le_of_eq next.symm
  | consume q issued lookup pending store table next log => exact UInt64.le_of_eq next.symm
  | start q hk pending store table next log => exact UInt64.le_of_eq next.symm
  | clear pending store table next log => exact UInt64.le_of_eq next.symm

/-- Numbers are issued one at a time, by the call that was going to store a permit. -/
theorem issued_step {s s' : PermitState} {i : PermitInput} (he : Effect s k i s' k') :
    issuedNumbers s'.log = issuedNumbers s.log ∨
      ∃ r q, k = .issueStore r q ∧ k' = none ∧ issuedNumbers s'.log = q :: issuedNumbers s.log := by
  cases he with
  | store r q issued hk hk' table next log => exact .inr ⟨r, q, hk, hk', by rw [log]; rfl⟩
  | quiet table next log pending store => exact .inl (by rw [log])
  | allocate r keeps hk' table next log => exact .inl (by rw [log])
  | refuse q error hk' table next log => exact .inl (by rw [log]; rfl)
  | expire q issued lookup expired hk' table next log => exact .inl (by rw [log]; rfl)
  | consume q issued lookup pending store table next log => exact .inl (by rw [log]; rfl)
  | start q hk pending store table next log => exact .inl (by rw [log]; rfl)
  | clear pending store table next log => exact .inl (by rw [log]; rfl)

/-- A call about to store a permit was so before, or has just been given the number. -/
theorem stores_step {s s' : PermitState} {i : PermitInput} (he : Effect s k i s' k')
    {x : PermitRequest} {q : UInt64} (hk' : k' = some (.issueStore x q)) :
    k.keepsLease = true ∧ q = s'.sup.nextSequence ∧
      s.sup.nextSequence < s'.sup.nextSequence ∧ s'.log = s.log := by
  cases he with
  | allocate r keeps hk table next log =>
    rw [hk] at hk'
    cases hk'
    exact ⟨keeps, rfl, next, log⟩
  | quiet table next log pending store => rw [hk'] at store; cases store
  | store r q issued hk hn table next log => rw [hk'] at hn; cases hn
  | refuse q error hn table next log => rw [hk'] at hn; cases hn
  | expire q issued lookup expired hn table next log => rw [hk'] at hn; cases hn
  | consume q issued lookup pending store table next log => rw [hk'] at store; cases store
  | start q hk pending store table next log => rw [hk'] at store; cases store
  | clear pending store table next log => rw [hk'] at store; cases store

theorem PermitInv.advance {c : Primitives} {s s' : PermitState} {i : PermitInput}
    (hi : PermitInv ⟨s, l ++ k :: r⟩) (hfree : k.takesLease = true → s.leaseHeld = false)
    (h : s.run c i k = (s', k')) : PermitInv ⟨s', l ++ k'.toList ++ r⟩ := by
  have he := PermitState.run_effect h
  have hnext := next_mono he
  refine ⟨?_, ?_, ?_, ?_, uses_step he hi.uses⟩
  · have hh := PermitState.run_held h hfree fun hk => (hi.keeps hk).1
    have hc := countP_advance PermitCall.keepsLease l r k k'
    have h0 := hi.held
    dsimp only at h0 ⊢
    omega
  · intro q hq
    dsimp only at hq
    rcases issued_step he with hl | ⟨x, q0, hk, -, hl⟩
    · rw [hl] at hq
      exact UInt64.le_trans (hi.bounded q hq) hnext
    · have h0 := (hi.fresh x q0 (by simp [hk])).1
      rw [hl] at hq
      cases List.mem_cons.mp hq with
      | inl h => exact h ▸ UInt64.le_trans h0 hnext
      | inr h => exact UInt64.le_trans (hi.bounded q h) hnext
  · dsimp only
    rcases issued_step he with hl | ⟨x, q0, hk, -, hl⟩
    · rw [hl]
      exact hi.ascending
    · rw [hl]
      exact List.pairwise_cons.mpr ⟨(hi.fresh x q0 (by simp [hk])).2, hi.ascending⟩
  · intro x q hx
    cases mem_before_advance k hx with
    | inl hk' =>
      obtain ⟨-, rfl, hlt, hlog⟩ := stores_step he hk'
      refine ⟨UInt64.le_refl _, fun q' hq' => ?_⟩
      dsimp only at hq'
      rw [hlog] at hq'
      exact UInt64.lt_of_le_of_lt (hi.bounded q' hq') hlt
    | inr hx' =>
      obtain ⟨hq, hlt⟩ := hi.fresh x q hx'
      refine ⟨UInt64.le_trans hq hnext, ?_⟩
      rcases issued_step he with hl | ⟨y, q0, hk, hn, -⟩
      · dsimp only
        rw [hl]
        exact hlt
      · -- nobody else is about to store a permit
        have hother := (hi.keeps (by rw [hk]; rfl)).2 (.issueStore x q) (by simpa [hn] using hx)
        cases hother

end

theorem PermitInv.reachable {c : Primitives} {cfg : Config PermitState PermitCall}
    (h : (permitObject c).system.Reachable cfg) : PermitInv cfg := by
  refine System.invariant ?_ ?_ h
  · rintro ⟨s, calls⟩ ⟨⟨⟨config, highest, now, hnew⟩, hheld, hlog⟩, hcalls⟩
    dsimp only at hnew hheld hlog hcalls
    obtain ⟨scheduler, hsup⟩ := Supervisor.new_ok hnew
    obtain ⟨sup, leaseHeld, log⟩ := s
    dsimp only at hnew hheld hlog hsup
    subst hheld hlog hcalls hsup
    exact ⟨rfl, nofun, .nil, nofun, fun q => by
      simp [useCount, pendingCount, PermitState.table, Supervisor.fresh, Finmap.notMem_empty]⟩
  · intro cfg a cfg' hi hs
    cases hs with
    | @spawn s ks k hstart =>
      have hstart : k.isStart = true := hstart
      have hkeep : k.keepsLease = false := by cases k <;> first | rfl | cases hstart
      have hpend : k.pending = none := by cases k <;> first | rfl | cases hstart
      refine ⟨?_, hi.bounded, hi.ascending, ?_, ?_⟩
      · simpa [List.countP_cons, hkeep] using hi.held
      · intro x q hx
        cases List.mem_cons.mp hx with
        | inl h => rw [← h] at hkeep; cases hkeep
        | inr h => exact hi.fresh x q h
      · intro q
        have hq := hi.uses q
        simpa [useCount, pendingCount, List.countP_cons, hpend] using hq
    | advance hsec => exact hi.advance hsec.1 hsec.2

/-! ## Permits -/

/-- What one section does to a permit in the table. -/
theorem permit_kept {l r : List PermitCall} {k : PermitCall} {k' : Option PermitCall}
    {s s' : PermitState} {i : PermitInput} (hi : PermitInv ⟨s, l ++ k :: r⟩)
    (he : Effect s k i s' k') {q : UInt64} {issued : IssuedPermit}
    (hq : s.table.lookup q = some issued) :
    s'.table.lookup q = some issued ∨ s'.log = .consumed q :: s.log ∨
      (∃ nowMillis, issued.permit.expiresAtUnixMs ≤ nowMillis ∧
        s'.log = .expired q nowMillis :: s.log) ∨ s'.log = .cleared :: s.log := by
  cases he with
  | quiet table next log pending store => exact .inl (by rw [table, hq])
  | allocate r keeps hk table next log => exact .inl (by rw [table, hq])
  | refuse q0 error hn table next log => exact .inl (by rw [table, hq])
  | start q0 hk pending store table next log => exact .inl (by rw [table, hq])
  | clear pending store table next log => exact .inr (.inr (.inr log))
  | store x q0 issued0 hk hn table next log =>
    -- its number is greater than those of the permits in the table
    have hlt := (hi.fresh x q0 (by simp [hk])).2
    have hne : q ≠ q0 := by
      intro h0
      have hu := hi.uses q
      have hm : q ∈ s.table := Finmap.mem_of_lookup_eq_some hq
      simp only [useCount, hm, if_true] at hu
      have hpos : 0 < (issuedNumbers s.log).count q := by omega
      exact absurd (hlt q (List.count_pos_iff.mp hpos)) (h0 ▸ UInt64.lt_irrefl q)
    exact .inl (by rw [table, Finmap.lookup_insert_of_ne _ hne, hq])
  | expire q0 issued0 lookup expired hn table next log =>
    by_cases h0 : q = q0
    · subst h0
      rw [hq] at lookup
      cases lookup
      exact .inr (.inr (.inl ⟨_, expired, log⟩))
    · exact .inl (by rw [table, Finmap.lookup_erase_ne h0, hq])
  | consume q0 issued0 lookup pending store table next log =>
    by_cases h0 : q = q0
    · subst h0
      exact .inr (.inl log)
    · exact .inl (by rw [table, Finmap.lookup_erase_ne h0, hq])

theorem refused_keeps {k : PermitCall} {k' : Option PermitCall} {s s' : PermitState}
    {i : PermitInput} (he : Effect s k i s' k') {q : UInt64} {error : BridgeError}
    (hl : s'.log = .refused q error :: s.log) : s'.table = s.table := by
  cases he with
  | quiet table next log pending store => exact table
  | allocate r keeps hk table next log => exact table
  | refuse q0 error hn table next log => exact table
  | start q0 hk pending store table next log => exact table
  | clear pending store table next log => rw [log] at hl; cases hl
  | store x q0 issued0 hk hn table next log => rw [log] at hl; cases hl
  | expire q0 issued0 lookup expired hn table next log => rw [log] at hl; cases hl
  | consume q0 issued0 lookup pending store table next log => rw [log] at hl; cases hl

/-- **Permits are single-use**, and a failed attempt leaves them as they are. -/
theorem permits_single_use {c : Primitives} {cfg : Config PermitState PermitCall}
    (h : (permitObject c).system.Reachable cfg) :
    (issuedNumbers cfg.shared.log).Pairwise (· > ·) ∧
    (∀ q, cfg.shared.log.count (.started q) ≤ 1 ∧
      (.started q ∈ cfg.shared.log → q ∈ issuedNumbers cfg.shared.log)) ∧
    (∀ a cfg', (permitObject c).system.step cfg a cfg' →
      (∀ q error, cfg'.shared.log = .refused q error :: cfg.shared.log →
        cfg'.shared.table = cfg.shared.table) ∧
      (∀ q issued, cfg.shared.table.lookup q = some issued →
        cfg'.shared.table.lookup q = some issued ∨
          cfg'.shared.log = .consumed q :: cfg.shared.log ∨
          (∃ nowMillis, issued.permit.expiresAtUnixMs ≤ nowMillis ∧
            cfg'.shared.log = .expired q nowMillis :: cfg.shared.log) ∨
          cfg'.shared.log = .cleared :: cfg.shared.log)) ∧
    (∀ e nowMillis issued, cfg.shared.table.lookup e.sequence = some issued →
      issued.Admits e issued.key → nowMillis < issued.permit.expiresAtUnixMs →
      cfg.shared.sup.takePermit e issued.key nowMillis =
        (cfg.shared.sup.consumePermit e.sequence, .ok issued)) := by
  have hi := PermitInv.reachable h
  refine ⟨hi.ascending, ?_, ?_, fun _ _ _ hl ha ht => Supervisor.takePermit_of_admits hl ha ht⟩
  · intro q
    have hu := hi.uses q
    have hnodup : (issuedNumbers cfg.shared.log).Nodup :=
      hi.ascending.imp fun hlt => (UInt64.ne_of_lt hlt).symm
    have hone := List.nodup_iff_count_le_one.mp hnodup q
    unfold useCount at hu
    refine ⟨by omega, fun hs => List.count_pos_iff.mp ?_⟩
    have := List.count_pos_iff.mpr hs
    omega
  · intro a cfg' hs
    cases hs with
    | spawn hstart => exact ⟨fun _ _ _ => rfl, fun _ _ hq => .inl hq⟩
    | advance hsec =>
      have he := PermitState.run_effect hsec.2
      exact ⟨fun _ _ hl => refused_keeps he hl, fun _ _ hq => permit_kept hi he hq⟩

/-! ## One permit -/

def samplePermitRequest : PermitRequest where
  protocol := PROTOCOL_VERSION
  messageType := "permit_request"
  scriptBytes := 1
  timeoutMs := 1000
  cwdLabel := "work"
  concurrencyMode := .binding
  taskSpaceScope := none
  tabScope := none
  startupNonce := none

def samplePermitInput : PermitInput where
  now := 0
  nowMillis := 0
  requestId := ⟨"00000000000000000000000000000000", zeroId_length, zeroId_hex⟩
  key := sampleKey
  spawns := true

def permitStart : PermitState := ⟨sampleSupervisor, false, []⟩

def samplePermit : RequestPermit where
  bindingId := "b1"
  generation := 1
  requestId := samplePermitInput.requestId.text
  sequence := 1
  expiresAtUnixMs := 20000
  maxPayloadBytes := 16 * 1024 * 1024
  maxScriptBytes := MAX_SCRIPT_BYTES
  defaultTaskSpace := "agent-remote:development"
  allowlistRevision := 1
  learningBundleDigest := none
  concurrencyMode := .binding
  taskSpaceScope := none
  tabScope := none

def issuedSupervisor : Supervisor :=
  { sampleSupervisor with
    nextSequence := 1
    issuedPermits := Finmap.insert 1 ⟨samplePermit, sampleKey⟩ ∅ }

/-- The sample request under its permit. -/
def permittedEnvelope : OuterEnvelope :=
  { sampleEnvelope with requestId := samplePermitInput.requestId.text }

/-- A new supervisor issues one permit. -/
theorem issue_reachable :
    (permitObject plainCipher).system.Reachable ⟨⟨issuedSupervisor, false, [.issued 1]⟩, []⟩ := by
  have h0 : (permitObject plainCipher).system.Reachable ⟨permitStart, []⟩ :=
    .start ⟨⟨⟨.bound, 0, 0, rfl⟩, rfl, rfl⟩, rfl⟩
  have h1 := Object.spawned h0 (k := .issue samplePermitRequest) rfl
  have h2 := Object.advanced h1 samplePermitInput ⟨nofun, rfl⟩
  have h3 := Object.advanced h2 samplePermitInput ⟨fun _ => rfl, rfl⟩
  have h4 := Object.advanced h3 samplePermitInput ⟨nofun, rfl⟩
  exact Object.advanced h4 samplePermitInput ⟨nofun, rfl⟩

theorem permittedEnvelope_valid : permittedEnvelope.Valid (16 * 1024 * 1024) :=
  { sampleEnvelope_valid with
    requestId := by decide
    payload := by
      obtain ⟨ciphertext, nonce, tag, hcarries, hlengths⟩ := sampleEnvelope_valid.payload
      exact ⟨ciphertext, nonce, tag, ⟨hcarries.ciphertext, hcarries.nonce, hcarries.tag⟩, hlengths⟩
    wireSize := by
      rw [OuterEnvelope.wireSize_eq]
      simp only [permittedEnvelope, sampleEnvelope, encodeB64url_size, sampleRequest_length]
      decide }

theorem permittedEnvelope_opened :
    openLocal plainCipher sampleSupervisor.config permittedEnvelope sampleKey samplePermit 0 =
      .ok (sampleRequest, ⟨.binding, none, none⟩) := by
  have hcarries : permittedEnvelope.Carries (Message.execute sampleRequest).plaintext
      sampleNonce.bytes (List.replicate 16 0) :=
    ⟨sampleEnvelope_carries.ciphertext, sampleEnvelope_carries.nonce, sampleEnvelope_carries.tag⟩
  have hopen : plainCipher.openDetached sampleKey sampleNonce.bytes
      (Message.execute sampleRequest).plaintext (List.replicate 16 0)
      (aadForOuter permittedEnvelope) = .ok (canonicalJson sampleRequest.toJson) := by
    rw [Primitives.openDetached, if_neg (by decide), plainCipher_opens, Message.plaintext]
  have hpermit : samplePermit.validate sampleSupervisor.config.capability 0
      (utf8 sampleRequest.script).length = .ok () := by decide
  rw [openLocal_opened hcarries hopen sampleRequest_valid rfl, hpermit, orProtocol, Except.bind,
    if_neg (by decide)]
  rfl

/-- It is in the table until it is used. -/
theorem samplePermit_admits :
    issuedSupervisor.issuedPermits.lookup permittedEnvelope.sequence =
        some ⟨samplePermit, sampleKey⟩ ∧
      IssuedPermit.Admits ⟨samplePermit, sampleKey⟩ permittedEnvelope sampleKey :=
  ⟨Finmap.lookup_insert _, rfl, rfl, rfl, rfl, rfl, by decide⟩

section

variable {c : Primitives} {s : PermitState} {i : PermitInput} {e : OuterEnvelope} {key : Key}

theorem run_execute (h : s.sup.checkExecute e = .ok ()) :
    s.run c i (.execute e key) = (s, some (.executeLease e key)) := by
  simp only [PermitState.run, h]

theorem run_executeLease (h : Execution.leaseAccepts s.sup e.generation = .ok ()) :
    s.run c i (.executeLease e key) = (s, some (.executePermit e key)) := by
  simp only [PermitState.run, h]

theorem run_executeOpen {permit : RequestPermit} {request : InnerExecuteRequest}
    {scope : RequestScope}
    (h : openLocal c s.sup.config e key permit i.nowMillis = .ok (request, scope)) :
    s.run c i (.executeOpen e key permit) = (s, some (.executeAcquire e scope)) := by
  simp only [PermitState.run, h]

end

section

variable {s : PermitState} (h : (permitObject plainCipher).system.Reachable ⟨s, []⟩)

include h

/-- A call of `execute` with the envelope, up to the permit. -/
theorem execute_reachable (hlease : s.leaseHeld = false) (hdown : s.sup.cancelled = false)
    (hgen : s.sup.lease.generation = 1) (hrev : s.sup.lease.revoked = false) (key : Key) :
    (permitObject plainCipher).system.Reachable ⟨s, [.executePermit permittedEnvelope key]⟩ := by
  have hcheck : s.sup.checkExecute permittedEnvelope = .ok () := by
    rw [Supervisor.checkExecute, OuterEnvelope.validate_ok.mpr permittedEnvelope_valid, orProtocol,
      ok_bind, if_neg (by decide), if_neg (by simp [hdown])]
  have haccepts : Execution.leaseAccepts s.sup permittedEnvelope.generation = .ok () := by
    have hg : permittedEnvelope.generation = 1 := rfl
    rw [Execution.leaseAccepts, if_neg (by simp [hg, hgen, hrev])]
  have h1 := Object.spawned h (k := .execute permittedEnvelope key) rfl
  have h2 := Object.advanced h1 samplePermitInput ⟨fun hc => (by cases hc), run_execute hcheck⟩
  exact Object.advanced h2 samplePermitInput ⟨fun _ => hlease, run_executeLease haccepts⟩

/-- Refused at its permit, it leaves the supervisor as it is. -/
theorem execute_refused (hlease : s.leaseHeld = false) (hdown : s.sup.cancelled = false)
    (hgen : s.sup.lease.generation = 1) (hrev : s.sup.lease.revoked = false) {key : Key}
    {error : BridgeError}
    (ht : s.sup.takePermit permittedEnvelope key 0 = (s.sup, .error error))
    (hne : error ≠ .leaseExpired) :
    (permitObject plainCipher).system.Reachable ⟨s.event (.refused 1 error), []⟩ := by
  have h1 := execute_reachable h hlease hdown hgen hrev key
  have htake : s.run plainCipher samplePermitInput (.executePermit permittedEnvelope key) =
      (s.event (.refused 1 error), none) := by
    show s.take permittedEnvelope key 0 = _
    rw [PermitState.take, ht]
    exact if_neg hne
  exact Object.advanced h1 samplePermitInput ⟨fun hc => (by cases hc), htake⟩

end

def refusedState : PermitState :=
  ⟨issuedSupervisor, false, [.refused 1 (.protocolMessage "invalid session key"), .issued 1]⟩

def consumedState : PermitState :=
  ⟨(issuedSupervisor.consumePermit 1).markConsumed 1, false, .consumed 1 :: refusedState.log⟩

theorem consumed_reachable : (permitObject plainCipher).system.Reachable
    ⟨consumedState, [.executeOpen permittedEnvelope sampleKey samplePermit]⟩ := by
  have hkey : sampleKey ≠ sampleWrapKey := by decide
  have hother : issuedSupervisor.takePermit permittedEnvelope sampleWrapKey 0 = _ :=
    Supervisor.takePermit_otherKey samplePermit_admits.1 samplePermit_admits.2 hkey
  have h0 : (permitObject plainCipher).system.Reachable ⟨refusedState, []⟩ :=
    execute_refused issue_reachable rfl rfl rfl rfl hother (by decide)
  have h1 := execute_reachable h0 rfl rfl rfl rfl sampleKey
  have htake : refusedState.run plainCipher samplePermitInput
      (.executePermit permittedEnvelope sampleKey) =
      (⟨issuedSupervisor.consumePermit 1, false, .consumed 1 :: refusedState.log⟩,
        some (.executeRecheck permittedEnvelope sampleKey samplePermit)) := by
    have ht := Supervisor.takePermit_of_admits samplePermit_admits.1 samplePermit_admits.2
      (show (0 : UInt64) < 20000 by decide)
    show refusedState.take permittedEnvelope sampleKey 0 = _
    rw [PermitState.take, show refusedState.sup = issuedSupervisor from rfl, ht]
    rfl
  have h2 := Object.advanced h1 samplePermitInput ⟨nofun, htake⟩
  have h3 := Object.advanced h2 samplePermitInput ⟨nofun, rfl⟩
  exact Object.advanced h3 samplePermitInput ⟨nofun, rfl⟩

/-- Its number is among the consumed ones now, and it is in the table no more. -/
theorem samplePermit_replayed {s : Supervisor}
    (hi : s.issuedPermits = consumedState.sup.issuedPermits)
    (hc : s.consumedSequences = insert 1 consumedState.sup.consumedSequences) (key : Key) :
    s.takePermit permittedEnvelope key 0 = (s, .error .replay) := by
  have hl : s.issuedPermits.lookup permittedEnvelope.sequence = none := by
    rw [hi]
    exact Finmap.lookup_erase 1 _
  have hm : permittedEnvelope.sequence ∈ s.consumedSequences := by
    rw [hc]
    exact Finset.mem_insert_self 1 _
  simp only [Supervisor.takePermit, hl, if_pos hm]

theorem started_reachable : ∃ s, (permitObject plainCipher).system.Reachable ⟨s, []⟩ ∧
    s.leaseHeld = false ∧ s.sup.cancelled = false ∧ s.sup.lease.generation = 1 ∧
    s.sup.lease.revoked = false ∧
    s.sup.takePermit permittedEnvelope sampleKey 0 = (s.sup, .error .replay) ∧
    s.log = .started 1 :: .consumed 1 :: refusedState.log := by
  have ho : openLocal plainCipher consumedState.sup.config permittedEnvelope sampleKey
      samplePermit samplePermitInput.nowMillis = .ok (sampleRequest, ⟨.binding, none, none⟩) :=
    permittedEnvelope_opened
  have h1 := Object.advanced consumed_reachable samplePermitInput ⟨nofun, run_executeOpen ho⟩
  have h2 := Object.advanced h1 samplePermitInput ⟨nofun, rfl⟩
  have h3 := Object.advanced h2 samplePermitInput ⟨nofun, rfl⟩
  have h4 := Object.advanced h3 samplePermitInput ⟨nofun, rfl⟩
  have h5 := Object.advanced h4 samplePermitInput ⟨nofun, rfl⟩
  exact ⟨_, h5, rfl, rfl, rfl, rfl, samplePermit_replayed rfl rfl sampleKey, rfl⟩

/-- With another key it is refused, with its own it is executed, and it is not executed twice. -/
theorem permits_single_use_issued : ∃ s : PermitState,
    s.log = [.refused 1 .replay, .started 1, .consumed 1,
      .refused 1 (.protocolMessage "invalid session key"), .issued 1] ∧
    s.log.count (.started 1) ≤ 1 := by
  obtain ⟨s, h, hlease, hdown, hgen, hrev, ht, hlog⟩ := started_reachable
  have hagain := execute_refused h hlease hdown hgen hrev ht (by decide)
  exact ⟨_, congrArg (.refused 1 .replay :: ·) hlog, ((permits_single_use hagain).2.1 1).1⟩

end Bridge
end EgoBridge
