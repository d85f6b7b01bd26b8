import EgoBridge.Bridge.Control

/-!
# Bridge.Observer

The lease observer loop: one renewal at a time, and what its failures do to the lease.

A `Poll` is one round: whether the policy snapshot still holds, the renewal's exchanges (`none`
when its ten seconds ran out), and the clock where the answer is read and where the lease is
changed. A run is the list of its polls; it may be stopped after any of them.

* `Recovers`            — every failure is transient, and each streak of failures ends with a
                          renewal before the grace deadline its first failure set.
* `Spared`              — no failure has an error code, or comes at or after the absolute TTL.
* `transient_spared`    — a run that recovers is never revoked and ends healthy, if and only if
                          it is spared.
-/

namespace EgoBridge
namespace Bridge

open Protocol Device

structure Poll where
  policyValid : Bool
  reply : Option RenewExchange
  readAt : UInt64
  now : UInt64

structure ObserverState where
  sup : Supervisor
  intervalSeconds : UInt64
  failureGraceSeconds : UInt64
  /-- Seconds to the next poll. -/
  delay : UInt64
  running : Bool

inductive RenewalFailure where
  | timedOut
  | failed (error : CredentialError)
  | malformed (error : BridgeError)

section

variable (parseTimestamp : String → Option UInt64) (config : BridgeConfig)
  (identity : DeviceIdentity)

/-- A renewal's lease, or why there is none. -/
def renewalOutcome (p : Poll) : Except RenewalFailure LeaseSnapshot :=
  match p.reply with
  | none => .error .timedOut
  | some x =>
    match renewBinding config.bindingId config.generation x with
    | .error e => .error (.failed e)
    | .ok value =>
      match parseConnectedResponse parseTimestamp value config identity p.readAt with
      | .error e => .error (.malformed e)
      | .ok lease => .ok lease

namespace ObserverState

def start (sup : Supervisor) (intervalSeconds failureGraceSeconds : UInt64) : ObserverState where
  sup := sup
  intervalSeconds := max intervalSeconds 1
  failureGraceSeconds := max failureGraceSeconds 1
  delay := max intervalSeconds 1
  running := true

/-- A failed renewal that may be tried again. -/
def renewalFailed (s : ObserverState) (now : UInt64) : ObserverState :=
  match s.sup.markRenewalFailed s.failureGraceSeconds now with
  | (sup, .error _) => { s with sup := sup, running := false }
  | (sup, .ok ()) => { s with sup := sup, delay := 1 }

/-- The loop gives the binding up. -/
def giveUp (s : ObserverState) : ObserverState :=
  { s with sup := s.sup.revoke, running := false }

/-- A renewed lease. -/
def renewed (s : ObserverState) (lease : LeaseSnapshot) : ObserverState :=
  match s.sup.updateLease lease.generation lease.leaseUntil lease.absoluteTtlUntil true with
  | (_, .error _) => s.giveUp
  | (sup, .ok ()) =>
    { s with
      sup := sup
      intervalSeconds := max lease.renewIntervalSeconds 1
      failureGraceSeconds := max lease.renewFailureGraceSeconds 1
      delay := max lease.renewIntervalSeconds 1 }

def poll (s : ObserverState) (p : Poll) : ObserverState :=
  if ¬ s.running then s
  else if ¬ p.policyValid then s.giveUp
  else
    match renewalOutcome parseTimestamp config identity p with
    | .ok lease => s.renewed lease
    | .error (.failed e) =>
      if ¬ isRetryableControlError e then s.giveUp else s.renewalFailed p.now
    | .error .timedOut => s.renewalFailed p.now
    | .error (.malformed _) => s.renewalFailed p.now

def run (s : ObserverState) (polls : List Poll) : ObserverState :=
  polls.foldl (fun s p => s.poll parseTimestamp config identity p) s

end ObserverState

/-! ## Runs that recover -/

/-- A network error, a timeout, or a server error that a registration would retry. -/
def RenewalFailure.isTransient : RenewalFailure → Bool
  | .timedOut => true
  | .failed .network => true
  | .failed (.api status) =>
    isServerError status && (CredentialError.api status).isRetryableEnsureError
  | .failed (.apiCode status code) =>
    isServerError status && (CredentialError.apiCode status code).isRetryableEnsureError
  | _ => false

/-- The answer carried an error code. -/
def RenewalFailure.hasCode : RenewalFailure → Bool
  | .failed (.apiCode _ _) => true
  | _ => false

/-- From `clock` on, with the deadline of the streak of failures the run is in, if it is in one. -/
def Recovers : UInt64 → Option UInt64 → ObserverState → List Poll → Prop
  | _, deadline, _, [] => deadline = none
  | clock, deadline, s, p :: ps =>
    clock ≤ p.now ∧ p.policyValid = true ∧
      match renewalOutcome parseTimestamp config identity p with
      | .ok _ =>
        (∀ d, deadline = some d → p.now < d) ∧
          Recovers p.now none (s.poll parseTimestamp config identity p) ps
      | .error f =>
        f.isTransient = true ∧
          Recovers p.now (some (deadline.getD (satAdd p.now s.failureGraceSeconds)))
            (s.poll parseTimestamp config identity p) ps

def Spared : ObserverState → List Poll → Prop
  | _, [] => True
  | s, p :: ps =>
    (∀ f, renewalOutcome parseTimestamp config identity p = .error f →
      f.hasCode = false ∧ p.now < s.sup.lease.absoluteTtlUntil) ∧
      Spared (s.poll parseTimestamp config identity p) ps

/-- What the loop starts on: an active binding's supervisor, right after its activation. -/
def Activated (s : ObserverState) : Prop :=
  ∃ s0 sup highest t leaseUntil absoluteTtlUntil interval grace,
    Supervisor.new config highest t = .ok s0 ∧
    s0.updateLease config.generation leaseUntil absoluteTtlUntil true = (sup, .ok ()) ∧
    s = .start sup interval grace

variable {parseTimestamp config identity}

/-! ## What one poll does -/

theorem renewalOutcome_ok {p : Poll} {lease : LeaseSnapshot}
    (h : renewalOutcome parseTimestamp config identity p = .ok lease) :
    lease.generation = config.generation ∧ lease.generation ≠ 0 ∧ lease.leaseUntil ≠ 0 ∧
      lease.leaseUntil ≤ lease.absoluteTtlUntil ∧ lease.renewFailureGraceSeconds ≠ 0 := by
  unfold renewalOutcome at h
  split at h
  · cases h
  · split at h
    · cases h
    · split at h
      · cases h
      · rename_i hp
        cases h
        obtain ⟨h1, h2, h3, h4, h5⟩ := parseConnectedResponse_ok hp
        refine ⟨h1, h2, ?_, h4, h5⟩
        intro h0
        rw [h0] at h3
        exact UInt64.not_lt_zero h3

theorem Recovers.before {clock d : UInt64} {s : ObserverState} {ps : List Poll}
    (h : Recovers parseTimestamp config identity clock (some d) s ps) : clock < d := by
  induction ps generalizing clock s with
  | nil => cases h
  | cons p ps ih =>
    obtain ⟨hc, _, h⟩ := h
    have hlt : p.now < d := by
      split at h
      · exact h.1 d rfl
      · exact ih h.2
    rw [UInt64.lt_iff_toNat_lt] at hlt ⊢
    rw [UInt64.le_iff_toNat_le] at hc
    omega

/-- The loop runs on an unrevoked lease: healthy, or in the grace that ends at `deadline`. -/
structure Observing (config : BridgeConfig) (deadline : Option UInt64) (s : ObserverState) :
    Prop where
  running : s.running = true
  generation : s.sup.lease.generation = config.generation
  unrevoked : s.sup.lease.revoked = false
  grace : s.failureGraceSeconds ≠ 0
  health : match deadline with
    | none => s.sup.lease.health = .healthy
    | some d => s.sup.lease.health = .renewalGrace ∧ s.sup.lease.graceUntil = some d

theorem max_one_ne_zero (n : UInt64) : max n 1 ≠ 0 := by
  intro h
  have := congrArg UInt64.toNat h
  by_cases hle : n ≤ 1
  · rw [show max n 1 = 1 from if_pos hle] at this
    cases this
  · rw [show max n 1 = n from if_neg hle] at h
    subst h
    exact hle (by decide)

theorem Observing.start {s : ObserverState} (h : Activated config s) : Observing config none s := by
  obtain ⟨s0, sup, highest, t, leaseUntil, absoluteTtlUntil, interval, grace, hnew, hup, rfl⟩ := h
  obtain ⟨scheduler, rfl⟩ := Supervisor.new_ok hnew
  unfold Supervisor.updateLease at hup
  split at hup
  · cases hup
  · split at hup
    · cases hup
    · cases hup
      exact ⟨rfl, rfl, rfl, max_one_ne_zero grace, rfl⟩

theorem Observing.renewed {deadline : Option UInt64} {s : ObserverState}
    (hs : Observing config deadline s) {p : Poll} {lease : LeaseSnapshot}
    (h : renewalOutcome parseTimestamp config identity p = .ok lease) :
    Observing config none (s.renewed lease) := by
  obtain ⟨hg, hg0, hu, hle, _⟩ := renewalOutcome_ok h
  have hacc : ¬ s.sup.updateRejected lease.generation lease.leaseUntil lease.absoluteTtlUntil := by
    simp only [Supervisor.updateRejected, hs.generation, hg, not_or, not_not]
    exact ⟨hg ▸ hg0, hu, UInt64.not_lt.mpr hle, trivial⟩
  rw [ObserverState.renewed, Supervisor.updateLease_accepted hacc]
  exact ⟨hs.running, hs.generation, hs.unrevoked, max_one_ne_zero _, rfl⟩

theorem lt_satAdd_of_lt {now ttl grace : UInt64} (ht : now < ttl) (hg : grace ≠ 0) :
    ¬ satAdd now grace ≤ now := by
  have h0 : grace.toNat ≠ 0 := fun h => hg (UInt64.toNat_inj.mp h)
  have h1 := ttl.toNat_lt
  rw [UInt64.lt_iff_toNat_lt] at ht
  rw [UInt64.le_iff_toNat_le, satAdd_toNat]
  omega

/-- A failure before the absolute TTL and before the deadline of its streak is waited out. -/
theorem Observing.renewalFailed {deadline : Option UInt64} {s : ObserverState}
    (hs : Observing config deadline s) {now : UInt64} (ht : now < s.sup.lease.absoluteTtlUntil)
    (hd : ∀ d, deadline = some d → now < d) :
    Observing config (some (deadline.getD (satAdd now s.failureGraceSeconds)))
      (s.renewalFailed now) := by
  have hfresh := lt_satAdd_of_lt ht hs.grace
  have hh := hs.health
  have hgr := hs.grace
  rcases s.sup.markRenewalFailed_cases s.failureGraceSeconds now with
    ⟨hc, _⟩ | ⟨_, _, hc, _⟩ | ⟨_, _, _, hne, _, he⟩ | ⟨_, _, _, hx, _, he⟩
  · rw [hs.unrevoked] at hc
    cases hc with
    | inl h => exact absurd h hgr
    | inr h => cases h
  · rcases hc with hc | ⟨hne, hc⟩ | ⟨hx, d, hd', hc⟩
    · exact absurd hc (UInt64.not_le.mpr ht)
    · exact absurd hc hfresh
    · cases deadline with
      | none => rw [hx] at hh; cases hh
      | some d' =>
        rw [hd'] at hh
        cases hh.2
        exact absurd hc (UInt64.not_le.mpr (hd d rfl))
  · rw [ObserverState.renewalFailed, he]
    cases deadline with
    | none => exact ⟨hs.running, hs.generation, hs.unrevoked, hgr, rfl, rfl⟩
    | some d => exact absurd hh.1 hne
  · rw [ObserverState.renewalFailed, he]
    cases deadline with
    | none => rw [hx] at hh; cases hh
    | some d => exact ⟨hs.running, hs.generation, hs.unrevoked, hgr, hh⟩

/-- A transient failure without a code is one the loop tries again. -/
theorem poll_transient {s : ObserverState} {p : Poll} {f : RenewalFailure}
    (hr : s.running = true) (hp : p.policyValid = true)
    (ho : renewalOutcome parseTimestamp config identity p = .error f)
    (ht : f.isTransient = true) (hc : f.hasCode = false) :
    s.poll parseTimestamp config identity p = s.renewalFailed p.now := by
  rw [ObserverState.poll, if_neg (by simp [hr]), if_neg (by simp [hp]), ho]
  cases f with
  | timedOut => rfl
  | malformed e => cases ht
  | failed e =>
    cases e with
    | network => rfl
    | api status =>
      simp only [RenewalFailure.isTransient, Bool.and_eq_true] at ht
      simp [isRetryableControlError, ht.1]
    | apiCode status code => cases hc
    | _ => cases ht

theorem poll_code {s : ObserverState} {p : Poll} {f : RenewalFailure}
    (hr : s.running = true) (hp : p.policyValid = true)
    (ho : renewalOutcome parseTimestamp config identity p = .error f) (hc : f.hasCode = true) :
    (s.poll parseTimestamp config identity p).sup.lease.revoked = true := by
  rw [ObserverState.poll, if_neg (by simp [hr]), if_neg (by simp [hp]), ho]
  cases f with
  | failed e =>
    cases e with
    | apiCode status code => rfl
    | _ => cases hc
  | _ => cases hc

theorem renewalFailed_expired {deadline : Option UInt64} {s : ObserverState}
    (hs : Observing config deadline s) {now : UInt64} (ht : s.sup.lease.absoluteTtlUntil ≤ now) :
    (s.renewalFailed now).sup.lease.revoked = true := by
  rw [ObserverState.renewalFailed, Supervisor.markRenewalFailed, if_neg hs.grace,
    if_neg (by simp [hs.unrevoked]), if_pos ht]
  rfl

theorem poll_ok {s : ObserverState} {p : Poll} {lease : LeaseSnapshot}
    (hr : s.running = true) (hp : p.policyValid = true)
    (ho : renewalOutcome parseTimestamp config identity p = .ok lease) :
    s.poll parseTimestamp config identity p = s.renewed lease := by
  rw [ObserverState.poll, if_neg (by simp [hr]), if_neg (by simp [hp]), ho]

/-! ## Whole runs -/

/-- Nowhere along the run is the lease revoked, and at its end it is healthy. -/
def EndsHealthy (parseTimestamp : String → Option UInt64) (config : BridgeConfig)
    (identity : DeviceIdentity) (s : ObserverState) (polls : List Poll) : Prop :=
  (∀ n, (s.run parseTimestamp config identity (polls.take n)).sup.lease.revoked = false) ∧
  (s.run parseTimestamp config identity polls).sup.lease.health = .healthy

theorem EndsHealthy.tail {s : ObserverState} {p : Poll} {ps : List Poll}
    (h : EndsHealthy parseTimestamp config identity s (p :: ps)) :
    EndsHealthy parseTimestamp config identity (s.poll parseTimestamp config identity p) ps :=
  ⟨fun n => h.1 (n + 1), h.2⟩

theorem endsHealthy_cons {s : ObserverState} {p : Poll} {ps : List Poll}
    (h0 : s.sup.lease.revoked = false)
    (h : EndsHealthy parseTimestamp config identity (s.poll parseTimestamp config identity p) ps) :
    EndsHealthy parseTimestamp config identity s (p :: ps) := by
  refine ⟨fun n => ?_, h.2⟩
  cases n with
  | zero => exact h0
  | succ n => exact h.1 n

theorem Observing.endsHealthy {polls : List Poll} : ∀ {clock : UInt64} {deadline : Option UInt64}
    {s : ObserverState}, Observing config deadline s →
      Recovers parseTimestamp config identity clock deadline s polls →
      (EndsHealthy parseTimestamp config identity s polls ↔
        Spared parseTimestamp config identity s polls) := by
  induction polls with
  | nil =>
    intro clock deadline s hs hr
    cases hr
    exact ⟨fun _ => trivial, fun _ => ⟨fun n => by rw [List.take_nil]; exact hs.unrevoked,
      hs.health⟩⟩
  | cons p ps ih =>
    intro clock deadline s hs hr
    obtain ⟨_, hp, hr⟩ := hr
    cases ho : renewalOutcome parseTimestamp config identity p with
    | ok lease =>
      rw [ho] at hr
      have hnext : Observing config none (s.poll parseTimestamp config identity p) := by
        rw [poll_ok hs.running hp ho]
        exact hs.renewed ho
      have hi := ih hnext hr.2
      refine ⟨fun h => ⟨?_, hi.mp h.tail⟩, fun h => endsHealthy_cons hs.unrevoked (hi.mpr h.2)⟩
      intro f hf
      rw [ho] at hf
      cases hf
    | error f =>
      rw [ho] at hr
      obtain ⟨ht, hr⟩ := hr
      by_cases hok : f.hasCode = false ∧ p.now < s.sup.lease.absoluteTtlUntil
      · obtain ⟨hc, hlt⟩ := hok
        have hnext : Observing config
            (some (deadline.getD (satAdd p.now s.failureGraceSeconds)))
            (s.poll parseTimestamp config identity p) := by
          rw [poll_transient hs.running hp ho ht hc]
          refine hs.renewalFailed hlt ?_
          rintro d rfl
          exact hr.before
        have hi := ih hnext hr
        refine ⟨fun h => ⟨?_, hi.mp h.tail⟩, fun h => endsHealthy_cons hs.unrevoked (hi.mpr h.2)⟩
        intro f' hf
        rw [ho] at hf
        cases hf
        exact ⟨hc, hlt⟩
      · refine ⟨fun h => absurd (h.1 1) ?_, fun h => absurd (h.1 f ho) hok⟩
        have hrev : (s.poll parseTimestamp config identity p).sup.lease.revoked = true := by
          cases hc : f.hasCode with
          | true => exact poll_code hs.running hp ho hc
          | false =>
            rw [poll_transient hs.running hp ho ht hc]
            exact renewalFailed_expired hs (UInt64.not_lt.mp fun hlt => hok ⟨hc, hlt⟩)
        simp only [List.take_succ_cons, List.take_zero]
        intro h
        rw [ObserverState.run, List.foldl_cons, List.foldl_nil, hrev] at h
        cases h

/-- **Transient failures and revocation.** Of the runs that recover from every failure in time,
exactly those without an error code, and without a failure at or after the absolute TTL, are
never revoked and end healthy. -/
theorem transient_spared (parseTimestamp : String → Option UInt64) (config : BridgeConfig)
    (identity : DeviceIdentity) {s : ObserverState} (h : Activated config s) {clock : UInt64}
    {polls : List Poll} (hr : Recovers parseTimestamp config identity clock none s polls) :
    EndsHealthy parseTimestamp config identity s polls ↔
      Spared parseTimestamp config identity s polls :=
  (Observing.start h).endsHealthy hr

end

/-! ## Two runs -/

def boundIdentity : DeviceIdentity := ⟨"device", "key"⟩

/-- The two timestamps the answers below have. -/
def readSeconds (text : String) : Option UInt64 :=
  if text = "100" then some 100 else if text = "200" then some 200 else none

/-- An answer that renews the lease until 100, with 200 as its absolute TTL. -/
def renewedAnswer : Json :=
  .obj [("data", .obj [("id", .str "b1"), ("control_channel", .str "ego_browser_bridge"),
    ("relay_binding_kind", .str "ego_browser"),
    ("authorization_mode", .str "ego_browser_script_full_trust"),
    ("authorization_policy_version", .num (.ofNat 1)),
    ("ego_browser_device_id", .str "device"), ("encryption_public_key", .str "key"),
    ("status", .str "active"), ("lease_health", .str "healthy"),
    ("task_space_label", .str "agent-remote:development"),
    ("bridge_protocol_version", .str PROTOCOL_VERSION),
    ("local_runtime_version", .str "0.5.0.32"), ("ego_lite_runtime_version", .str "0.5.0.32"),
    ("skill_version", .str "2.0.0"), ("release_profile", .str "development-local"),
    ("signer_certificate_sha256", .str "development"),
    ("credential_profile", .str "community_file"), ("remote_platform", .str "linux"),
    ("local_platform", .str "macos"), ("allowlist_revision", .num (.ofNat 1)),
    ("max_parallel_requests", .num (.ofNat 4)), ("allowlist_roots_digest", .null),
    ("learning_bundle_digest", .null),
    ("capabilities", .arr (BridgeConfig.development.capabilities.map .str)),
    ("concurrency_mode", .str "task_space_tab"), ("generation", .num (.ofNat 1)),
    ("lease_until", .str "100"), ("absolute_ttl_until", .str "200"),
    ("lease_renew_interval_seconds", .num (.ofNat 30)),
    ("lease_renew_failure_grace_seconds", .num (.ofNat 10))])]

/-- A renewal after a challenge of 32 zero bytes. -/
def answered (status : UInt16) (body : Json) (now : UInt64) : Poll where
  policyValid := true
  reply := some
    ⟨.answered ⟨200, some (.obj [("data",
      .obj [("challenge", .str "AAAAAAAAAAAAAAAAAAAAAAAAAAAAAAAAAAAAAAAAAAA")])])⟩, true,
      .answered ⟨status, some body⟩⟩
  readAt := now
  now := now

def unanswered (now : UInt64) : Poll := ⟨true, none, now, now⟩

/-- An error body with a code. -/
def codedAnswer : Json := .obj [("error", .obj [("code", .str "upstream_unavailable")])]

/-- The loop on a lease activated at 0 until 100, with 10 seconds of grace. -/
def observerStart : ObserverState :=
  .start
    ((Supervisor.fresh .bound ⟨4, 0, false, []⟩ 0 0).updateLease 1 100 200 true).1 30 10

theorem observerStart_activated : Activated .bound observerStart :=
  ⟨_, _, 0, 0, 100, 200, 30, 10, rfl, rfl, rfl⟩

theorem answered_renews :
    renewalOutcome readSeconds .bound boundIdentity (answered 200 renewedAnswer 7) =
      .ok ⟨1, 100, 200, 30, 10⟩ := rfl

/-- A failure at 5 that may be retried, and a renewal at 7. -/
theorem recovers_at_seven {p : Poll} {f : RenewalFailure} (hp : p.policyValid = true)
    (hn : p.now = 5) (ho : renewalOutcome readSeconds .bound boundIdentity p = .error f)
    (hf : f.isTransient = true) :
    Recovers readSeconds .bound boundIdentity 0 none observerStart
      [p, answered 200 renewedAnswer 7] := by
  refine ⟨by rw [hn]; decide, hp, ?_⟩
  rw [ho]
  refine ⟨hf, by rw [hn]; decide, rfl, ?_⟩
  rw [answered_renews]
  refine ⟨fun d hd => ?_, rfl⟩
  cases hd
  rw [hn]
  decide

/-- A renewal that runs out of time at 5 and one that succeeds at 7. -/
theorem transient_spared_timeout :
    EndsHealthy readSeconds .bound boundIdentity observerStart
      [unanswered 5, answered 200 renewedAnswer 7] := by
  have hr := recovers_at_seven (p := unanswered 5) rfl rfl rfl rfl
  refine (transient_spared _ _ _ observerStart_activated hr).mpr ⟨?_, ?_, trivial⟩
  · intro f hf
    cases hf
    exact ⟨rfl, by decide⟩
  · intro f hf
    rw [answered_renews] at hf
    cases hf

/-- A 503 with an error code at 5, which a registration would retry, and a renewal at 7: the loop
has revoked the binding at 5. -/
theorem coded_failure_revokes :
    Activated .bound observerStart ∧
    Recovers readSeconds .bound boundIdentity 0 none observerStart
      [answered 503 codedAnswer 5, answered 200 renewedAnswer 7] ∧
    (observerStart.run readSeconds .bound boundIdentity
      [answered 503 codedAnswer 5, answered 200 renewedAnswer 7]).sup.lease.revoked = true ∧
    ¬ EndsHealthy readSeconds .bound boundIdentity observerStart
      [answered 503 codedAnswer 5, answered 200 renewedAnswer 7] := by
  have hr : (observerStart.run readSeconds .bound boundIdentity
      [answered 503 codedAnswer 5, answered 200 renewedAnswer 7]).sup.lease.revoked = true := rfl
  refine ⟨observerStart_activated, recovers_at_seven rfl rfl rfl rfl, hr, fun h => ?_⟩
  have h2 := h.1 2
  rw [List.take_of_length_le (by decide), hr] at h2
  cases h2

end Bridge
end EgoBridge
