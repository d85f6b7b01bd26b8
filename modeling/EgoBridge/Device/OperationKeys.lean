import EgoBridge.Device.Handoff

/-!
# Device.OperationKeys

The idempotency keys of registrations and rotations. A key outlives the attempt that drew it, in a
pending record; the payload is gathered anew by every attempt.

* `OnePayload`   — two requests with one key carry one payload.
* `Distinct`     — the invariant: a pending record describes the requests sent under its key.
* `keys_kept`    — `OnePayload` in every run whose attempts find the evidence that the requests
  under a key they take up were sent with.
-/

namespace EgoBridge
namespace Device

open Protocol Json Crash

variable (P : Platform) (E : Surroundings)

/-! ## Requests -/

/-- A registration or a rotation has been sent under the key. -/
def Sent (w : World) (key : String) (r : Registration) : Prop :=
  ∃ e ∈ w.log, ∃ q, e.event = .sent q (some r) ∧ q.idempotencyKey = some key

/-- Requests of one key carry one payload. -/
def OnePayload (w : World) : Prop :=
  ∀ e ∈ w.log, ∀ e' ∈ w.log, ∀ q q' r r', e.event = .sent q (some r) →
    e'.event = .sent q' (some r') → q.idempotencyKey = q'.idempotencyKey → q.payload = q'.payload

/-- What an attempt finds on the machine for its payload. -/
structure Evidence where
  packageVersion : String
  skillVersion : String
  runtime : String
  signerCertificateSha256 : String
  allowlistRevision : UInt64
  allowlistRootsDigest : Option String
  learningBundleDigest : Option String
  capabilities : List String

def evidence (build : Build) (runtime signer : String) (policy : VerifiedLocalPolicy) : Evidence :=
  ⟨build.packageVersion, build.supportedSkillVersion, runtime, signer, policy.allowlistRevision,
    policy.allowlistRootsDigest, policy.learningBundleDigest, policy.capabilities⟩

def Registration.evidence (r : Registration) : Evidence :=
  Device.evidence r.build r.runtime r.signerCertificateSha256 r.policy

/-- The same identity as far as a server can tell. -/
structure SamePublic (i i' : DeviceIdentity) : Prop where
  deviceId : i.deviceId = i'.deviceId
  generation : i.generation = i'.generation
  releaseProfile : i.releaseProfile = i'.releaseProfile
  credentialProfile : i.credentialProfile = i'.credentialProfile
  signing : i.publicKeyB64 P = i'.publicKeyB64 P
  encryption : i.encryptionPublicKeyB64 P = i'.encryptionPublicKeyB64 P

/-- Two public keys of identities are not taken for one by their digests. -/
structure NoCollision : Prop where
  signing : ∀ i i' : DeviceIdentity, publicValueSha256 P (i.publicKeyB64 P) =
    publicValueSha256 P (i'.publicKeyB64 P) → i.publicKeyB64 P = i'.publicKeyB64 P
  encryption : ∀ i i' : DeviceIdentity, publicValueSha256 P (i.encryptionPublicKeyB64 P) =
    publicValueSha256 P (i'.encryptionPublicKeyB64 P) →
      i.encryptionPublicKeyB64 P = i'.encryptionPublicKeyB64 P

/-- A key is drawn once. -/
def FreshKeys : Prop :=
  ∀ w (k : Key), E w .idempotencyKey k →
    (∀ r, ¬ Sent w (encodeB64url k.bytes) r) ∧
    (∀ p, w.store.pendingRegistration = some p → p.idempotencyKey ≠ encodeB64url k.bytes) ∧
    ∀ p, w.store.pendingRotation = some p → p.idempotencyKey ≠ encodeB64url k.bytes

/-! ## Records -/

/-- The record of the registration. -/
structure PendingRegistration.Of (p : PendingRegistration) (r : Registration) : Prop where
  deviceId : p.deviceId = r.identity.deviceId
  generation : p.deviceGeneration = r.identity.generation
  releaseProfile : p.releaseProfile = r.identity.releaseProfile
  credentialProfile : p.credentialProfile = r.identity.credentialProfile
  signing : p.signingPublicKeySha256 = publicValueSha256 P (r.identity.publicKeyB64 P)
  encryption : p.encryptionPublicKeySha256 =
    publicValueSha256 P (r.identity.encryptionPublicKeyB64 P)
  mode : p.enrollmentMode = r.enrollmentMode

/-- The record of the rotation. -/
structure PendingRotation.Of (p : PendingRotation) (r : Registration) : Prop where
  deviceId : p.deviceId = r.identity.deviceId
  generation : p.targetGeneration = r.identity.generation
  signing : p.targetSigningPublicKeySha256 = publicValueSha256 P (r.identity.publicKeyB64 P)
  encryption : p.targetEncryptionPublicKeySha256 =
    publicValueSha256 P (r.identity.encryptionPublicKeyB64 P)
  mode : r.enrollmentMode = "rotate"

/-- The invariant. -/
structure Distinct (w : World) : Prop where
  payload : ∀ e ∈ w.log, ∀ q r, e.event = .sent q (some r) →
    q.payload = registrationPayload P r ∧ q.idempotencyKey.isSome
  one : ∀ key r r', Sent w key r → Sent w key r' →
    registrationPayload P r = registrationPayload P r'
  registration : ∀ p, w.store.pendingRegistration = some p → ∀ r, Sent w p.idempotencyKey r →
    p.Of P r
  rotation : ∀ p, w.store.pendingRotation = some p → ∀ r, Sent w p.idempotencyKey r → p.Of P r
  apart : ∀ p p', w.store.pendingRegistration = some p → w.store.pendingRotation = some p' →
    p.idempotencyKey ≠ p'.idempotencyKey

/-- The registration may be sent under the key. -/
structure Entitled (w : World) (key : String) (r : Registration) : Prop where
  sent : ∀ r', Sent w key r' → registrationPayload P r' = registrationPayload P r
  registration : ∀ p, w.store.pendingRegistration = some p → p.idempotencyKey = key → p.Of P r
  rotation : ∀ p, w.store.pendingRotation = some p → p.idempotencyKey = key → p.Of P r

/-- A step that sends no registration and leaves the pending records as they are, or removes
them. -/
structure Quiet (w w' : World) : Prop where
  sent : ∀ e ∈ w'.log, ∀ q r, e.event = .sent q (some r) → e ∈ w.log
  log : ∀ e ∈ w.log, e ∈ w'.log
  registration : ∀ p, w'.store.pendingRegistration = some p → w.store.pendingRegistration = some p
  rotation : ∀ p, w'.store.pendingRotation = some p → w.store.pendingRotation = some p

section

variable {P E}

theorem payload_eq {r r' : Registration} (hi : SamePublic P r.identity r'.identity)
    (he : r.evidence = r'.evidence) (hm : r.enrollmentMode = r'.enrollmentMode) :
    registrationPayload P r = registrationPayload P r' := by
  simp only [Registration.evidence, evidence, Evidence.mk.injEq] at he
  obtain ⟨h1, h2, h3, h4, h5, h6, h7, h8⟩ := he
  simp only [registrationPayload, registrationMembers, policyDigest, capabilityDigest, hi.deviceId,
    hi.generation, hi.releaseProfile, hi.credentialProfile, hi.signing, hi.encryption, hm, h1, h2,
    h3, h4, h5, h6, h7, h8]

theorem Distinct.onePayload {w : World} (h : Distinct P w) : OnePayload w := by
  intro e he e' he' q q' r r' hq hq' hk
  obtain ⟨hp, hs⟩ := h.payload e he q r hq
  obtain ⟨hp', -⟩ := h.payload e' he' q' r' hq'
  obtain ⟨key, hkey⟩ := Option.isSome_iff_exists.mp hs
  rw [hp, hp']
  exact h.one key r r' ⟨e, he, q, hq, hkey⟩ ⟨e', he', q', hq', hk ▸ hkey⟩

theorem Quiet.sent_iff {w w' : World} (h : Quiet w w') {key : String} {r : Registration} :
    Sent w' key r ↔ Sent w key r := by
  constructor
  · rintro ⟨e, he, q, hq, hk⟩
    exact ⟨e, h.sent e he q r hq, q, hq, hk⟩
  · rintro ⟨e, he, q, hq, hk⟩
    exact ⟨e, h.log e he, q, hq, hk⟩

theorem Quiet.distinct {w w' : World} (hq : Quiet w w') (h : Distinct P w) : Distinct P w' where
  payload := fun e he q r hr => h.payload e (hq.sent e he q r hr) q r hr
  one := fun key r r' hr hr' => h.one key r r' (hq.sent_iff.mp hr) (hq.sent_iff.mp hr')
  registration := fun p hp r hr => h.registration p (hq.registration p hp) r (hq.sent_iff.mp hr)
  rotation := fun p hp r hr => h.rotation p (hq.rotation p hp) r (hq.sent_iff.mp hr)
  apart := fun p p' hp hp' => h.apart p p' (hq.registration p hp) (hq.rotation p' hp')

theorem Quiet.entitled {w w' : World} (hq : Quiet w w') {key : String} {r : Registration}
    (h : Entitled P w key r) : Entitled P w' key r where
  sent := fun r' hr' => h.sent r' (hq.sent_iff.mp hr')
  registration := fun p hp => h.registration p (hq.registration p hp)
  rotation := fun p hp => h.rotation p (hq.rotation p hp)

/-- The event is not the sending of a registration. -/
def Event.other : Event → Prop
  | .sent _ (some _) => False
  | _ => True

theorem Quiet.change {w w' : World} (event : Event) (hevent : event.other)
    (hl : w'.log = ⟨event, w.store⟩ :: w.log)
    (hr : ∀ p, w'.store.pendingRegistration = some p → w.store.pendingRegistration = some p)
    (ho : ∀ p, w'.store.pendingRotation = some p → w.store.pendingRotation = some p) :
    Quiet w w' where
  sent := by
    intro e he q r hq
    rw [hl] at he
    rcases List.mem_cons.mp he with rfl | he
    · dsimp only at hq
      rw [hq] at hevent
      exact hevent.elim
    · exact he
  log := by
    intro e he
    rw [hl]
    exact List.mem_cons_of_mem _ he
  registration := hr
  rotation := ho

theorem Quiet.same {w w' : World} (hl : w'.log = w.log)
    (hr : ∀ p, w'.store.pendingRegistration = some p → w.store.pendingRegistration = some p)
    (ho : ∀ p, w'.store.pendingRotation = some p → w.store.pendingRotation = some p) :
    Quiet w w' where
  sent := fun _ he _ _ _ => hl ▸ he
  log := fun _ he => hl ▸ he
  registration := hr
  rotation := ho

/-- The kinds of steps that are quiet. -/
def Kind.quiet : Kind → Bool
  | .sent => false
  | .write .pendingRegistration => false
  | .write .pendingRotation => false
  | _ => true

theorem Change.quiet {w w' : World} {k : Kind} (h : Change P w w' k) (hk : k.quiet = true) :
    Quiet w w' := by
  cases k with
  | write file =>
    cases file with
    | credential =>
      obtain ⟨c, -, -, rfl⟩ := h
      exact .change (.saved c) trivial rfl (fun _ h => h) fun _ h => h
    | key =>
      obtain ⟨i, rfl⟩ := h
      exact .change (.installed i) trivial rfl (fun _ h => h) fun _ h => h
    | policy =>
      obtain ⟨p, rfl⟩ := h
      exact .change (.replacedPolicy p) trivial rfl (fun _ h => h) fun _ h => h
    | identityMetadata | activeBinding | localAdmission =>
      obtain ⟨x, -, rfl⟩ := h
      exact .same rfl (fun _ h => h) fun _ h => h
    | pendingKeyRotation =>
      obtain ⟨i, rfl⟩ := h
      exact .same rfl (fun _ h => h) fun _ h => h
    | pendingRegistration | pendingRotation => cases hk
  | remove file =>
    cases h
    cases file with
    | pendingRegistration => exact .same rfl (fun _ h => by cases h) fun _ h => h
    | pendingRotation => exact .same rfl (fun _ h => h) fun _ h => by cases h
    | _ => exact .same rfl (fun _ h => h) fun _ h => h
  | sent => cases hk
  | issued =>
    obtain ⟨c, rfl⟩ := h
    exact .change (.issued c) trivial rfl (fun _ h => h) fun _ h => h
  | confirmed =>
    obtain ⟨c, rfl⟩ := h
    exact .change (.confirmed c) trivial rfl (fun _ h => h) fun _ h => h

theorem Quiet.refl (w : World) : Quiet w w := .same rfl (fun _ h => h) fun _ h => h

theorem Quiet.trans {w w' w'' : World} (h : Quiet w w') (h' : Quiet w' w'') : Quiet w w'' where
  sent := fun e he q r hr => h.sent e (h'.sent e he q r hr) q r hr
  log := fun e he => h'.log e (h.log e he)
  registration := fun p hp => h.registration p (h'.registration p hp)
  rotation := fun p hp => h.rotation p (h'.rotation p hp)

/-! ## Quiet parts -/

theorem Changes.quiet {α : Type} {kinds : List Kind} {p : Command α} (h : Changes P kinds p)
    (hk : ∀ k ∈ kinds, k.quiet = true) : p.Within Quiet :=
  Cmd.Within.mono h fun _ _ ⟨k, hk', hc⟩ => hc.quiet (hk k hk')

theorem within_probe {α : Type} {G : World → World → Prop} (p : Probe α) :
    (liftM p : Command α).Within G :=
  Cmd.within_of_still p.2

theorem within_check {α : Type} {G : World → World → Prop} {c : Prop} [Decidable c]
    {failure : Failure} {f : PUnit → Command α} (h : ¬ c → (f ⟨⟩).Within G) :
    (if c then liftM (raise failure : Probe PUnit) >>= f else f ⟨⟩).Within G := by
  split
  · trivial
  · rename_i hc
    exact h hc

/-- A request that is no registration. -/
theorem quiet_postWithIdempotency (client : DeviceApiClient) (path : String) (payload : Json) :
    (client.postWithIdempotency path payload none none).Within Quiet := by
  refine .bind (.update fun w => ?_) fun _ => .bind (within_probe _) fun _ => within_probe _
  exact .change (.sent _ none) trivial rfl (fun _ h => h) fun _ h => h

/-- A proof is asked for without a registration. -/
theorem quiet_addProofForGeneration {client : DeviceApiClient} {generation : UInt64}
    {operation : String} {bindingId : Option String} :
    (client.addProofForGeneration P generation operation bindingId).Within Quiet := by
  unfold DeviceApiClient.addProofForGeneration
  refine within_check fun _ => ?_
  refine .bind (quiet_postWithIdempotency _ _ _) fun response => ?_
  split
  · exact within_probe _
  · split
    · exact within_probe _
    · refine within_check fun _ => ?_
      split
      · exact within_probe _
      · exact .ite (within_probe _) trivial

/-- A quiet part goes from one world to another that is quiet after it. -/
theorem wp_quiet {α : Type} {p : Command α} (hp : p.Within Quiet) {w : World}
    (h : Distinct P w) {R : α → World → Prop}
    (hR : ∀ a w', Distinct P w' → Quiet w w' → R a w') :
    Cmd.wp E (Distinct P) (fun _ => Distinct P) p R w := by
  refine Cmd.wp_mono (fun _ h => h.1) (fun _ _ h => h.1) (fun a w' h => hR a w' h.1 h.2)
    (hp.keeps (I := fun w' => Distinct P w' ∧ Quiet w w') ?_ w ⟨h, .refl w⟩)
  intro w₁ w₂ hq h
  exact ⟨hq.distinct h.1, h.2.trans hq⟩

/-! ## Pending records -/

/-- A record that describes what was sent under its key may be stored. -/
theorem Distinct.pendingRegistration {w : World} (h : Distinct P w) {p : PendingRegistration}
    (hof : ∀ r, Sent w p.idempotencyKey r → p.Of P r)
    (hap : ∀ p', w.store.pendingRotation = some p' → p.idempotencyKey ≠ p'.idempotencyKey) :
    Distinct P (w.stored { w.store with pendingRegistration := some p }) where
  payload := h.payload
  one := h.one
  registration := by
    rintro _ ⟨⟩ r hr
    exact hof r hr
  rotation := h.rotation
  apart := by
    rintro _ p' ⟨⟩ hp'
    exact hap p' hp'

theorem Distinct.pendingRotation {w : World} (h : Distinct P w) {p : PendingRotation}
    (hof : ∀ r, Sent w p.idempotencyKey r → p.Of P r)
    (hap : ∀ p', w.store.pendingRegistration = some p' → p'.idempotencyKey ≠ p.idempotencyKey) :
    Distinct P (w.stored { w.store with pendingRotation := some p }) where
  payload := h.payload
  one := h.one
  registration := h.registration
  rotation := by
    rintro _ ⟨⟩ r hr
    exact hof r hr
  apart := by
    rintro p' _ hp' ⟨⟩
    exact hap p' hp'

theorem wp_savePendingRegistration {w : World} (h : Distinct P w) {p : PendingRegistration}
    (hof : ∀ r, Sent w p.idempotencyKey r → p.Of P r)
    (hap : ∀ p', w.store.pendingRotation = some p' → p.idempotencyKey ≠ p'.idempotencyKey)
    {R : Unit → World → Prop}
    (hR : Distinct P (w.stored { w.store with pendingRegistration := some p }) →
      R () (w.stored { w.store with pendingRegistration := some p })) :
    Cmd.wp E (Distinct P) (fun _ => Distinct P) (savePendingRegistration P p) R w := by
  have hnext := h.pendingRegistration hof hap
  unfold savePendingRegistration
  refine wp_check h fun _ => ?_
  exact wp_atomicOwnerWrite h (fun _ _ => h) (fun _ _ => hnext) (hR hnext)

theorem stored_of_readPendingRegistration {s : Store} {p : PendingRegistration}
    (h : s.readPendingRegistration P = .ok p) : s.pendingRegistration = some p := by
  rw [Store.readPendingRegistration] at h
  cases hp : s.pendingRegistration with
  | none =>
    rw [hp] at h
    cases h
  | some p' =>
    rw [hp, ownerFile] at h
    generalize p'.toJson.size = n at h
    by_cases hn : MAX_CREDENTIAL_BYTES < n
    · rw [if_pos hn] at h
      cases h
    · rw [if_neg hn] at h
      by_cases hv : readablePendingRegistration P p' = true
      · simp only [hv, not_true_eq_false, ↓reduceIte] at h
        cases h
        rfl
      · dsimp only at h
        rw [if_pos hv] at h
        cases h

/-- The error of an attempt is noted beside its key. -/
theorem keeps_recordPendingRegistrationError {code : Option String} :
    Cmd.Keeps E (Distinct P) (recordPendingRegistrationError P code) := by
  intro w h
  rw [recordPendingRegistrationError, Cmd.wp_bind, wp_theStore]
  cases hp : w.store.readPendingRegistration P with
  | error e => exact h
  | ok p =>
    have hs := stored_of_readPendingRegistration hp
    refine wp_savePendingRegistration (p := { p with lastErrorCode := code })
      (R := fun _ => Distinct P) h ?_
      (fun p' => h.apart p p' hs) fun h => h
    intro r hr
    obtain ⟨h1, h2, h3, h4, h5, h6, h7⟩ := h.registration p hs r hr
    exact ⟨h1, h2, h3, h4, h5, h6, h7⟩

/-! ## Requests -/

theorem sent_logged {w : World} {key : String} {q : Request} {r r' : Registration} :
    Sent (w.logged (.sent q (some r))) key r' ↔
      (q.idempotencyKey = some key ∧ r' = r) ∨ Sent w key r' := by
  constructor
  · rintro ⟨e, he, q', hq, hk⟩
    rcases List.mem_cons.mp he with rfl | he
    · cases hq
      exact .inl ⟨hk, rfl⟩
    · exact .inr ⟨e, he, q', hq, hk⟩
  · rintro (⟨hk, rfl⟩ | ⟨e, he, q', hq, hk⟩)
    · exact ⟨_, List.mem_cons_self, q, rfl, hk⟩
    · exact ⟨e, List.mem_cons_of_mem _ he, q', hq, hk⟩

/-- What the key of a request is entitled to is all that is sent under it. -/
def Sending (P : Platform) (key : String) (r : Registration) (w : World) : Prop :=
  Distinct P w ∧ Entitled P w key r

theorem Sending.sent {w : World} {key : String} {r : Registration} (h : Sending P key r w)
    {q : Request} (hp : q.payload = registrationPayload P r) (hk : q.idempotencyKey = some key) :
    Sending P key r (w.logged (.sent q (some r))) := by
  obtain ⟨hd, he⟩ := h
  have hsent : ∀ key' r', Sent (w.logged (.sent q (some r))) key' r' →
      (key' = key ∧ r' = r) ∨ Sent w key' r' := by
    intro key' r' hr
    rcases sent_logged.mp hr with ⟨hk', hr⟩ | hr
    · rw [hk] at hk'
      exact .inl ⟨(Option.some.inj hk').symm, hr⟩
    · exact .inr hr
  refine ⟨⟨?_, ?_, ?_, ?_, hd.apart⟩, ?_, he.registration, he.rotation⟩
  · intro e he q' r' hq
    rcases List.mem_cons.mp he with rfl | he
    · cases hq
      exact ⟨hp, by rw [hk]; rfl⟩
    · exact hd.payload e he q' r' hq
  · intro key' r₁ r₂ h₁ h₂
    rcases hsent key' r₁ h₁ with ⟨rfl, rfl⟩ | hs₁
    · rcases hsent key' r₂ h₂ with ⟨-, rfl⟩ | hs₂
      · rfl
      · exact (he.sent r₂ hs₂).symm
    · rcases hsent key' r₂ h₂ with ⟨rfl, rfl⟩ | hs₂
      · exact he.sent r₁ hs₁
      · exact hd.one key' r₁ r₂ hs₁ hs₂
  · intro p hp r' hr'
    rcases hsent _ r' hr' with ⟨hkey, rfl⟩ | hr'
    · exact he.registration p hp hkey
    · exact hd.registration p hp r' hr'
  · intro p hp r' hr'
    rcases hsent _ r' hr' with ⟨hkey, rfl⟩ | hr'
    · exact he.rotation p hp hkey
    · exact hd.rotation p hp r' hr'
  · intro r' hr'
    rcases hsent key r' hr' with ⟨-, rfl⟩ | hr'
    · rfl
    · exact he.sent r' hr'

theorem Quiet.sending {w w' : World} (hq : Quiet w w') {key : String} {r : Registration}
    (h : Sending P key r w) : Sending P key r w' :=
  ⟨hq.distinct h.1, hq.entitled h.2⟩

section

variable {client : DeviceApiClient} {key : String} {r : Registration}

theorem keeps_registerDeviceAt {path operation : String} :
    Cmd.Keeps E (Sending P key r) (client.registerDeviceAt P path r (some key) operation) := by
  unfold DeviceApiClient.registerDeviceAt
  refine keeps_check fun _ => ?_
  refine .bind (quiet_addProofForGeneration.keeps fun _ _ hq h => hq.sending h) fun _ => ?_
  exact .bind (.update fun _ h => h.sent rfl rfl) fun _ => .bind (keeps_probe _) fun _ =>
    keeps_probe _

theorem keeps_rotateDevice : Cmd.Keeps E (Sending P key r) (client.rotateDevice P r key) := by
  unfold DeviceApiClient.rotateDevice
  exact keeps_check fun _ => keeps_registerDeviceAt

theorem keeps_ensureDevice : Cmd.Keeps E (Sending P key r) (client.ensureDevice P r key) := by
  unfold DeviceApiClient.ensureDevice
  exact keeps_check fun _ => keeps_registerDeviceAt

/-- An enrollment is sent again as it was. -/
theorem keeps_ensureWithRetry :
    Cmd.Keeps E (Sending P key r) (client.ensureWithRetry P r key) := by
  have h : ∀ n, Cmd.Keeps E (Sending P key r) (client.ensureAttempts P r key n) := by
    intro n
    induction n with
    | zero => exact keeps_ensureDevice
    | succ n ih =>
      refine .bind (.attempt keeps_ensureDevice) fun result => ?_
      cases result with
      | ok value => exact .pure _
      | error e => exact .ite ih (keeps_probe _)
  exact h 4

end

/-- What keeps the right to send keeps the invariant. -/
theorem wp_sending {α : Type} {p : Command α} {key : String} {r : Registration}
    (hp : Cmd.Keeps E (Sending P key r) p) {w : World} (h : Distinct P w)
    (he : Entitled P w key r) {R : α → World → Prop} (hR : ∀ a w', Distinct P w' → R a w') :
    Cmd.wp E (Distinct P) (fun _ => Distinct P) p R w :=
  Cmd.wp_mono (fun _ h => h.1) (fun _ _ h => h.1) (fun a w' h => hR a w' h.1) (hp w ⟨h, he⟩)

/-! ## Enrollment -/

/-- All that was sent under the key was sent with this evidence. -/
def SentWith (w : World) (key : String) (e : Evidence) : Prop := ∀ r, Sent w key r → r.evidence = e

/-- The record is the only one that may be stored, and describes what was sent under its key. -/
structure Taken (P : Platform) (w : World) (p : PendingRegistration) : Prop where
  only : ∀ p', w.store.pendingRegistration = some p' → p' = p
  sent : ∀ r, Sent w p.idempotencyKey r → p.Of P r
  apart : ∀ p', w.store.pendingRotation = some p' → p'.idempotencyKey ≠ p.idempotencyKey

theorem Distinct.taken {w : World} (h : Distinct P w) {p : PendingRegistration}
    (hp : w.store.pendingRegistration = some p) : Taken P w p where
  only := by
    intro p' hp'
    rw [hp] at hp'
    exact (Option.some.inj hp').symm
  sent := h.registration p hp
  apart := fun p' hp' => (h.apart p p' hp hp').symm

theorem Quiet.taken {w w' : World} (hq : Quiet w w') {p : PendingRegistration}
    (h : Taken P w p) : Taken P w' p where
  only := fun p' hp' => h.only p' (hq.registration p' hp')
  sent := fun r hr => h.sent r (hq.sent_iff.mp hr)
  apart := fun p' hp' => h.apart p' (hq.rotation p' hp')

/-- The identity is the one of the record. -/
theorem validatePendingIdentity_ok {p : PendingRegistration} {identity : DeviceIdentity}
    (h : validatePendingIdentity P p identity = .ok ()) :
    p.deviceId = identity.deviceId ∧ p.deviceGeneration = identity.generation ∧
      p.releaseProfile = identity.releaseProfile ∧
      p.credentialProfile = identity.credentialProfile ∧
      p.signingPublicKeySha256 = publicValueSha256 P (identity.publicKeyB64 P) ∧
      p.encryptionPublicKeySha256 = publicValueSha256 P (identity.encryptionPublicKeyB64 P) := by
  rw [validatePendingIdentity] at h
  obtain ⟨hn, -⟩ := ite_error_ok.mp h
  simpa only [not_or, not_not] using hn

theorem of_validatePendingIdentity {p : PendingRegistration} {r : Registration}
    (h : validatePendingIdentity P p r.identity = .ok ())
    (hm : r.enrollmentMode = p.enrollmentMode) : p.Of P r := by
  obtain ⟨h1, h2, h3, h4, h5, h6⟩ := validatePendingIdentity_ok h
  exact ⟨h1, h2, h3, h4, h5, h6, hm.symm⟩

theorem PendingRegistration.Of.samePublic (hP : NoCollision P) {p : PendingRegistration}
    {r r' : Registration} (h : p.Of P r) (h' : p.Of P r') :
    SamePublic P r.identity r'.identity where
  deviceId := h.deviceId.symm.trans h'.deviceId
  generation := h.generation.symm.trans h'.generation
  releaseProfile := h.releaseProfile.symm.trans h'.releaseProfile
  credentialProfile := h.credentialProfile.symm.trans h'.credentialProfile
  signing := hP.signing _ _ (h.signing.symm.trans h'.signing)
  encryption := hP.encryption _ _ (h.encryption.symm.trans h'.encryption)

/-- The stored key may be used for what it was used for before. -/
theorem Taken.entitled (hP : NoCollision P) {w : World} {p : PendingRegistration}
    (h : Taken P w p) {r : Registration} (hr : p.Of P r)
    (he : SentWith w p.idempotencyKey r.evidence) : Entitled P w p.idempotencyKey r where
  sent := fun r' hr' => payload_eq ((h.sent r' hr').samePublic hP hr) (he r' hr')
    ((h.sent r' hr').mode.symm.trans hr.mode)
  registration := fun p' hp' _ => by
    rw [h.only p' hp']
    exact hr
  rotation := fun p' hp' hk => absurd hk (h.apart p' hp')

theorem wp_operationKey (hP : NoCollision P) (hE : FreshKeys E) {server mode : String}
    {identity : DeviceIdentity} {pending : Option PendingRegistration} {w : World}
    (h : Distinct P w) (hp : ∀ p, pending = some p → Taken P w p ∧ mode = p.enrollmentMode)
    {R : String → World → Prop}
    (hR : ∀ key w', Distinct P w' → w'.store.policy = w.store.policy →
      (∀ r : Registration, r.identity = identity → r.enrollmentMode = mode →
        (∀ p, pending = some p → SentWith w p.idempotencyKey r.evidence) →
        Entitled P w' key r) → R key w') :
    Cmd.wp E (Distinct P) (fun _ => Distinct P)
      (Ensure.operationKey P server mode identity pending) R w := by
  cases pending with
  | some p =>
    obtain ⟨ht, hm⟩ := hp p rfl
    rw [Ensure.operationKey, Cmd.wp_bind]
    refine wp_lift (fun _ _ => h) fun _ hv => ?_
    refine hR _ w h rfl ?_
    rintro r rfl hmode hs
    have hof := of_validatePendingIdentity hv (hmode.trans hm)
    exact ht.entitled hP hof (hs p rfl)
  | none =>
    rw [Ensure.operationKey, Cmd.wp_bind, wp_newIdempotencyKey]
    refine ⟨h, fun k hk => ?_⟩
    obtain ⟨hnone, hreg, hrot⟩ := hE w k hk
    rw [Cmd.wp_bind, wp_now]
    refine ⟨h, fun t _ => ?_⟩
    rw [Cmd.wp_bind]
    refine wp_savePendingRegistration h (fun r hr => absurd hr (hnone r))
      (fun p' hp' => (hrot p' hp').symm) fun hnext => ?_
    refine hR _ _ hnext rfl ?_
    rintro r rfl hmode -
    refine ⟨fun r' hr' => absurd hr' (hnone r'), ?_, fun p' hp' hk' => absurd hk' (hrot p' hp')⟩
    rintro _ ⟨⟩ -
    exact ⟨rfl, rfl, rfl, rfl, rfl, rfl, hmode.symm⟩

theorem wp_exchange {server : String} {token : Option String} {r : Registration} {key : String}
    {w : World} (h : Distinct P w) (he : Entitled P w key r) {R : Json → World → Prop}
    (hR : ∀ body w', Distinct P w' → R body w') :
    Cmd.wp E (Distinct P) (fun _ => Distinct P) (Ensure.exchange P server token r key) R w := by
  cases token with
  | none => exact h
  | some token =>
    rw [Ensure.exchange]
    refine wp_probe h fun api _ => ?_
    rw [Cmd.wp_bind]
    refine wp_sending (.attempt keeps_ensureWithRetry) h he fun result w' h' => ?_
    cases result with
    | ok body => exact hR body w' h'
    | error e =>
      rw [Cmd.wp_bind]
      exact Cmd.wp_post (Cmd.Keeps.attempt keeps_recordPendingRegistrationError w' h')
        fun _ _ h => h

def LocalRegistrationInputs.evidence (build : Build) (inputs : LocalRegistrationInputs) :
    Evidence :=
  Device.evidence build inputs.runtime inputs.signerCertificateSha256 inputs.policy

/-- What an enrollment with the stored policy may find on the machine. -/
def Found (E : Surroundings) (build : Build) (args : List String) (policy : Option LocalPolicy)
    (releaseProfile : String) (inputs : LocalRegistrationInputs) : Prop :=
  ∃ identity w', identity.releaseProfile = releaseProfile ∧ w'.store.policy = policy ∧
    Cmd.Returns E (localRegistrationInputs build args identity).1 w' inputs w'

section

variable {build : Build} {args : List String} {server mode : String} {token : Option String}
  {identity : DeviceIdentity} {pending : Option PendingRegistration}
  {existing : Option CommunityCredential} {w : World}

theorem wp_register (hP : NoCollision P) (hE : FreshKeys E)
    {prepared : Option LocalRegistrationInputs} (h : Distinct P w)
    (hp : ∀ p, pending = some p → Taken P w p ∧ mode = p.enrollmentMode ∧
      ∀ inputs, (∀ i, prepared = some i → i = inputs) →
        (prepared = none → Found E build args w.store.policy identity.releaseProfile inputs) →
        SentWith w p.idempotencyKey (inputs.evidence build)) :
    Cmd.wp E (Distinct P) (fun _ => Distinct P)
      (Ensure.register P build args server mode token identity pending existing prepared)
      (fun _ => Distinct P) w := by
  rw [Ensure.register, Cmd.wp_bind]
  refine wp_operationKey hP hE h (fun p hs => ⟨(hp p hs).1, (hp p hs).2.1⟩) ?_
  intro key w₁ h₁ hpolicy hentitled
  have hrest : ∀ inputs : LocalRegistrationInputs, (∀ i, prepared = some i → i = inputs) →
      (prepared = none → Found E build args w.store.policy identity.releaseProfile inputs) →
      Cmd.wp E (Distinct P) (fun _ => Distinct P) (do
        let registration : Registration :=
          ⟨build, identity, inputs.runtime, inputs.policy, inputs.signerCertificateSha256, mode⟩
        let body ← Ensure.exchange P server token registration key
        Ensure.commit P server registration pending existing inputs.policyUpdate body)
        (fun _ => Distinct P) w₁ := by
    intro inputs hin hfound
    rw [Cmd.wp_bind]
    refine wp_exchange h₁ (hentitled _ rfl rfl ?_) fun body w₂ h₂ => ?_
    · exact fun p hs => (hp p hs).2.2 inputs hin hfound
    · exact wp_quiet (changes_commit.quiet (by decide)) h₂ fun _ _ h _ => h
  cases prepared with
  | some inputs =>
    refine hrest inputs ?_ (fun hn => by cases hn)
    rintro _ ⟨⟩
    rfl
  | none =>
    refine wp_probe h₁ fun inputs hr => ?_
    exact hrest inputs (fun _ hn => by cases hn) fun _ => ⟨identity, w₁, rfl, hpolicy, hr⟩

/-- The attempt finds a credential that is enough. -/
structure Enough (E : Surroundings) (build : Build) (args : List String) (server : String)
    (identity : DeviceIdentity) (existing : Option CommunityCredential) (w : World) : Prop where
  ordinary : ¬ hasOption args "--re-enroll"
  kept : ¬ Offers E build w
  fresh : ∃ c, existing = some c ∧ credentialMatchesIdentity c identity server = true ∧
    ∀ w' t, E w' .now t → credentialIsFresh c t = true

theorem wp_finish (hP : NoCollision P) (hE : FreshKeys E) (h : Distinct P w)
    (hp : ∀ p, pending = some p → Taken P w p ∧ mode = p.enrollmentMode ∧
      (Enough E build args server identity existing w ∨
        ∀ inputs, Found E build args w.store.policy identity.releaseProfile inputs →
          SentWith w p.idempotencyKey (inputs.evidence build))) :
    Cmd.wp E (Distinct P) (fun _ => Distinct P)
      (Ensure.finish P build args server mode token identity pending existing)
      (fun _ => Distinct P) w := by
  unfold Ensure.finish
  have hrest : ∀ fresh : Bool,
      (Enough E build args server identity existing w → fresh = true) →
      Cmd.wp E (Distinct P) (fun _ => Distinct P) (do
        if fresh then do
          let inputs ← localRegistrationInputs build args identity
          if inputs.policyUpdate.isNone ∧ ¬ hasOption args "--re-enroll" ∧
              (pending.isSome ∨ ¬ hasOption args "--force-refresh") then
            if pending.isSome then clearPendingRegistration
          else
            Ensure.register P build args server mode token identity pending existing (some inputs)
        else Ensure.register P build args server mode token identity pending existing none :
          Command Unit) (fun _ => Distinct P) w := by
    intro fresh hfresh
    rw [Cmd.wp_ite]
    refine ⟨fun _ => ?_, fun hn => ?_⟩
    · refine wp_probe h fun inputs hr => ?_
      rw [Cmd.wp_ite]
      refine ⟨fun _ => ?_, fun hsend => ?_⟩
      · rw [Cmd.wp_ite]
        refine ⟨fun _ => ?_, fun _ => h⟩
        exact wp_quiet ((changes_clearPendingRegistration (P := P) (List.mem_singleton.mpr
          rfl)).quiet (by decide)) h fun _ _ h _ => h
      · refine wp_register hP hE h fun p hs => ?_
        obtain ⟨ht, hm, hcond⟩ := hp p hs
        refine ⟨ht, hm, ?_⟩
        rintro _ hin -
        cases hin inputs rfl
        rcases hcond with henough | hsame
        · refine absurd ⟨?_, henough.ordinary, .inl ?_⟩ hsend
          · rw [localRegistrationInputs_returns henough.kept hr]
            rfl
          · rw [hs]
            rfl
        · exact hsame inputs ⟨identity, w, rfl, rfl, hr⟩
    · refine wp_register hP hE h fun p hs => ?_
      obtain ⟨ht, hm, hcond⟩ := hp p hs
      refine ⟨ht, hm, fun inputs _ hfound => ?_⟩
      rcases hcond with henough | hsame
      · exact absurd (hfresh henough) hn
      · exact hsame inputs (hfound rfl)
  cases hx : existing.filter (credentialMatchesIdentity · identity server) with
  | none =>
    refine hrest false fun henough => ?_
    obtain ⟨c, rfl, hmatch, -⟩ := henough.fresh
    rw [Option.filter_some, if_pos hmatch] at hx
    cases hx
  | some c =>
    rw [Cmd.wp_bind]
    refine ⟨h, fun t ht => ?_⟩
    refine hrest _ fun henough => ?_
    obtain ⟨c', rfl, hmatch, hfresh⟩ := henough.fresh
    rw [Option.filter_some, if_pos hmatch] at hx
    cases hx
    exact hfresh w t ht

end

theorem wp_loadPendingRegistration {w : World} {I : World → Prop} (hI : I w)
    {R : Except Failure PendingRegistration → World → Prop} (hF : ∀ e, R (.error e) w)
    (hR : ∀ p, w.store.pendingRegistration = some p → R (.ok p) w) {F : Failure → World → Prop} :
    Cmd.wp E I F (liftM (loadPendingRegistration P).attempt) R w := by
  rw [probe_attempt, Cmd.wp_attempt, loadPendingRegistration, probe_bind, Cmd.wp_bind, wp_theStore,
    probe_bind, Cmd.wp_bind]
  refine wp_lift (fun _ _ => hF _) fun p hp => ?_
  refine Probe.wp_bind hI (fun _ _ => hF _) fun t _ => ?_
  refine Probe.wp_bind hI (fun _ _ => hF _) fun b _ => ?_
  cases b with
  | true => exact hF _
  | false => exact hR p (stored_of_readPendingRegistration hp)

/-- An attempt takes up the stored record, or none. -/
theorem wp_findPending {args : List String} {w : World} (h : Distinct P w)
    {R : Option PendingRegistration → World → Prop} (hnone : R none w)
    (hR : ∀ p, w.store.pendingRegistration = some p → R (some p) w) :
    Cmd.wp E (Distinct P) (fun _ => Distinct P) (Ensure.findPending P args) R w := by
  unfold Ensure.findPending
  rw [Cmd.wp_bind]
  refine wp_loadPendingRegistration h ?_ hR
  intro e
  cases e with
  | message text => exact h
  | credential e =>
    cases e with
    | missing => exact hnone
    | pendingExpired =>
      rw [Cmd.wp_ite]
      refine ⟨fun _ => ?_, fun _ => ?_⟩
      · rw [Cmd.wp_bind, wp_theStore, Cmd.wp_bind]
        refine wp_lift (fun _ _ => h) fun p hp => ?_
        exact hR p (stored_of_readPendingRegistration hp)
      · rw [Cmd.wp_bind]
        exact Cmd.wp_post (Cmd.Keeps.attempt keeps_recordPendingRegistrationError w h)
          fun _ _ h => h
    | _ => exact h

/-- The identity an attempt loads is the one of the record it takes up. -/
theorem wp_findIdentity {server releaseProfile credentialProfile : String}
    {pending : Option PendingRegistration} {credential : Option CommunityCredential}
    {metadata : Option StoredIdentityMetadata} {w : World} (h : Distinct P w)
    {R : DeviceIdentity → World → Prop}
    (hnone : pending = none → ∀ i w', Distinct P w' → R i w')
    (hR : ∀ p i, pending = some p → p.serverUrl = server →
      validatePendingIdentity P p i = .ok () → R i w) :
    Cmd.wp E (Distinct P) (fun _ => Distinct P)
      (Ensure.findIdentity P server releaseProfile credentialProfile pending credential metadata)
      R w := by
  unfold Ensure.findIdentity
  cases pending with
  | some p =>
    refine wp_probe h fun i _ => ?_
    refine wp_check h fun hs => ?_
    rw [Cmd.wp_bind]
    refine wp_lift (fun _ _ => h) fun _ hv => ?_
    exact hR p i rfl (not_not.mp hs) hv
  | none =>
    have hnone := hnone rfl
    cases credential with
    | some c => exact Probe.wp _ h (fun _ _ => h) fun i _ => hnone i w h
    | none =>
      cases metadata with
      | some m =>
        refine wp_check h fun _ => ?_
        exact Probe.wp _ h (fun _ _ => h) fun i _ => hnone i w h
      | none =>
        refine wp_probe h fun s _ => ?_
        refine wp_check h fun _ => ?_
        refine wp_probe h fun i _ => ?_
        rw [Cmd.wp_bind]
        refine wp_quiet ((changes_saveIdentity (P := P) (List.mem_singleton.mpr rfl)).quiet
          (by decide)) h fun _ w' h' _ => ?_
        exact hnone i w' h'

/-- Every attempt with these arguments draws a new key in place of the record's, or fails. -/
def Renewed (E : Surroundings) (args : List String) (p : PendingRegistration) : Prop :=
  (hasOption args "--re-enroll" ∧ p.enrollmentMode = "ensure") ∨
    ∀ w t b, E w .now t → Cmd.Returns E (p.isExpired t).1 w b w → b = true

theorem wp_reEnroll (hE : FreshKeys E) {args : List String} {token : Option String}
    {server releaseProfile credentialProfile : String} {identity : DeviceIdentity}
    {pending : Option PendingRegistration} {credential : Option CommunityCredential}
    {metadata : Option StoredIdentityMetadata} {w : World} (h : Distinct P w)
    {R : Option PendingRegistration → World → Prop} (hnone : pending = none → R none w)
    (hsome : ∀ p, pending = some p → ¬ Renewed E args p → R (some p) w)
    (hnew : ∀ p w', Taken P w' p → Distinct P w' → (∀ r, ¬ Sent w' p.idempotencyKey r) →
      R (some p) w') :
    Cmd.wp E (Distinct P) (fun _ => Distinct P)
      (Ensure.reEnroll P args token server releaseProfile credentialProfile identity pending
        credential metadata) R w := by
  unfold Ensure.reEnroll
  cases pending with
  | none => exact hnone rfl
  | some p =>
    rw [Cmd.wp_bind, wp_now]
    refine ⟨h, fun t ht => ?_⟩
    refine wp_probe h fun b hb => ?_
    rw [Cmd.wp_ite]
    refine ⟨fun hn => ?_, fun _ => ?_⟩
    · refine hsome p rfl ?_
      rintro (hr | hr)
      · exact hn (.inr hr)
      · exact hn (.inl (hr w t b ht hb))
    · refine wp_check h fun _ => ?_
      refine wp_check h fun _ => ?_
      refine wp_check h fun _ => ?_
      refine wp_probe h fun _ _ => ?_
      rw [Cmd.wp_bind, wp_newIdempotencyKey]
      refine ⟨h, fun k hk => ?_⟩
      obtain ⟨hunsent, -, hrot⟩ := hE w k hk
      rw [Cmd.wp_bind, wp_now]
      refine ⟨h, fun t' _ => ?_⟩
      rw [Cmd.wp_bind]
      refine wp_savePendingRegistration h (fun r hr => absurd hr (hunsent r))
        (fun p' hp' => (hrot p' hp').symm) fun hnext => ?_
      refine hnew _ _ ⟨?_, fun r hr => absurd hr (hunsent r), hrot⟩ hnext hunsent
      rintro _ ⟨⟩
      rfl

/-- The stored credential is enough for an attempt that takes up the record. -/
structure Sufficient (P : Platform) (E : Surroundings) (build : Build) (args : List String)
    (w : World) (p : PendingRegistration) : Prop where
  ordinary : ¬ hasOption args "--re-enroll"
  kept : ¬ Offers E build w
  fresh : ∃ c, w.store.loadForRotation P = .ok c ∧ c.deviceId = p.deviceId ∧
    c.serverUrl = p.serverUrl ∧ c.releaseProfile = p.releaseProfile ∧
    c.credentialProfile = p.credentialProfile ∧ ∀ w' t, E w' .now t → credentialIsFresh c t = true

/-- An enrollment that takes up a stored key finds the evidence that was sent under it. -/
def EnrollsAlike (P : Platform) (E : Surroundings) (build : Build) (args : List String)
    (w : World) : Prop :=
  ∀ p, w.store.pendingRegistration = some p → Renewed E args p ∨ Sufficient P E build args w p ∨
    ∀ inputs, Found E build args w.store.policy p.releaseProfile inputs →
      SentWith w p.idempotencyKey (inputs.evidence build)

theorem revision_pos_of_loadForRotation {s : Store} {c : CommunityCredential}
    (h : s.loadForRotation P = .ok c) : 0 < c.revision := by
  rw [Store.loadForRotation, Store.loadCredential] at h
  cases hc : ownerFile (fun c : CommunityCredential => c.toJson.size) s.credential with
  | error e =>
    rw [hc] at h
    cases h
  | ok c' =>
    rw [hc] at h
    dsimp only at h
    obtain ⟨hv, h⟩ := ite_error_ok.mp h
    cases h
    rw [not_not, validCommunityCredential] at hv
    simp only [Bool.and_eq_true, decide_eq_true_eq] at hv
    exact hv.2

theorem Sufficient.enough {build : Build} {args : List String} {w : World}
    {p : PendingRegistration} (h : Sufficient P E build args w p) {server : String}
    {identity : DeviceIdentity} {existing : Option CommunityCredential}
    (hx : ifPresent (w.store.loadForRotation P) = .ok existing) (hs : p.serverUrl = server)
    (hv : validatePendingIdentity P p identity = .ok ()) :
    Enough E build args server identity existing w := by
  obtain ⟨c, hc, h1, h2, h3, h4, hfresh⟩ := h.fresh
  obtain ⟨hid, -, hrel, hcred, -, -⟩ := validatePendingIdentity_ok hv
  rw [hc] at hx
  cases hx
  refine ⟨h.ordinary, h.kept, c, rfl, ?_, hfresh⟩
  simp only [credentialMatchesIdentity, h1, h2, h3, h4, hid, hrel, hcred, hs,
    revision_pos_of_loadForRotation hc, decide_true, Bool.and_self]

theorem Offers.congr {build : Build} {w w' : World} (hw : w'.store.policy = w.store.policy) :
    Offers E build w' ↔ Offers E build w :=
  ⟨fun h => h.of_policy hw, fun h => h.of_policy hw.symm⟩

theorem Enough.congr {build : Build} {args : List String} {server : String}
    {identity : DeviceIdentity} {existing : Option CommunityCredential} {w w' : World}
    (h : Enough E build args server identity existing w)
    (hw : w'.store.policy = w.store.policy) : Enough E build args server identity existing w' :=
  ⟨h.ordinary, fun ho => h.kept ((Offers.congr hw).mp ho), h.fresh⟩

/-- What an attempt does once it knows whether it takes up a key. -/
theorem wp_enrollAs (hP : NoCollision P) (hE : FreshKeys E) {build : Build} {args : List String}
    {server : String} {token : Option String} {identity : DeviceIdentity}
    {pending : Option PendingRegistration} {existing : Option CommunityCredential}
    {stored : Option StoredIdentityMetadata} {w : World} (h : Distinct P w)
    (hp : ∀ p, pending = some p → Taken P w p ∧
      (Enough E build args server identity existing w ∨
        ∀ inputs, Found E build args w.store.policy identity.releaseProfile inputs →
          SentWith w p.idempotencyKey (inputs.evidence build))) :
    Cmd.wp E (Distinct P) (fun _ => Distinct P) (do
      let mode := Ensure.enrollmentMode args pending existing stored
      if ¬ isEnrollmentMode mode then fail .malformed
      saveIdentityMetadata P identity server
      Ensure.finish P build args server mode token identity pending existing : Command Unit)
      (fun _ => Distinct P) w := by
  refine wp_check h fun _ => ?_
  rw [Cmd.wp_bind]
  unfold saveIdentityMetadata
  refine wp_probe h fun url _ => ?_
  refine wp_check h fun _ => ?_
  have hq : ∀ m, Quiet w (w.stored { w.store with identityMetadata := some m }) :=
    fun m => .same rfl (fun _ h => h) fun _ h => h
  refine wp_atomicOwnerWrite h (fun _ _ => h) (fun _ _ => (hq _).distinct h) ?_
  refine wp_finish hP hE ((hq _).distinct h) fun p hs => ?_
  obtain ⟨ht, hcond⟩ := hp p hs
  refine ⟨(hq _).taken ht, ?_, hcond.imp (fun henough => henough.congr rfl) ?_⟩
  · rw [hs]
    rfl
  · intro hsame inputs hf r hr
    exact hsame inputs hf r ((hq _).sent_iff.mp hr)

theorem wp_ensureOnce (hP : NoCollision P) (hE : FreshKeys E) {build : Build}
    {args : List String} {w : World} (h : Distinct P w) (hs : EnrollsAlike P E build args w) :
    Cmd.wp E (Distinct P) (fun _ => Distinct P) (ensure P build args) (fun _ => Distinct P) w := by
  unfold ensure
  refine wp_probe h fun _ _ => ?_
  rw [Cmd.wp_bind]
  have hfound : ∀ R : Option PendingRegistration → World → Prop,
      (∀ pending, (∀ p, pending = some p → w.store.pendingRegistration = some p) → R pending w) →
      Cmd.wp E (Distinct P) (fun _ => Distinct P) (Ensure.findPending P args) R w := by
    intro R hR
    refine wp_findPending h (hR none fun _ hn => by cases hn) fun p hp => hR (some p) ?_
    rintro _ ⟨⟩
    exact hp
  refine hfound _ fun pending hpending => ?_
  rw [Cmd.wp_bind, wp_theStore, Cmd.wp_bind]
  refine wp_lift (fun _ _ => h) fun existing hx => ?_
  refine wp_probe h fun stored _ => ?_
  refine wp_probe h fun server _ => ?_
  refine wp_probe h fun token _ => ?_
  refine wp_probe h fun releaseProfile _ => ?_
  refine wp_probe h fun credentialProfile _ => ?_
  refine wp_check h fun _ => ?_
  have hidentity : ∀ i w', Distinct P w' → (∀ p, pending = some p → w' = w ∧
        p.serverUrl = server ∧ validatePendingIdentity P p i = .ok ()) →
      Cmd.wp E (Distinct P) (fun _ => Distinct P) (do
        if (i.releaseProfile ≠ releaseProfile ∨ i.credentialProfile ≠ credentialProfile) ∧
            pending.isNone then
          fail .compatibilityMismatch
        if i.needsEncryptionKeyRotation then fail .malformed
        let pending ← Ensure.reEnroll P args token server releaseProfile credentialProfile i
          pending existing stored
        let mode := Ensure.enrollmentMode args pending existing stored
        if ¬ isEnrollmentMode mode then fail .malformed
        saveIdentityMetadata P i server
        Ensure.finish P build args server mode token i pending existing : Command Unit)
        (fun _ => Distinct P) w' := by
    intro i w' h' hi
    refine wp_check h' fun _ => ?_
    refine wp_check h' fun _ => ?_
    rw [Cmd.wp_bind]
    refine wp_reEnroll hE h' (fun _ => wp_enrollAs hP hE h' fun _ hn => by cases hn) ?_ ?_
    · -- The stored key is taken up as it is.
      intro p hp hn
      obtain ⟨rfl, hserver, hv⟩ := hi p hp
      have hstored := hpending p hp
      refine wp_enrollAs hP hE h' ?_
      rintro _ ⟨⟩
      refine ⟨h.taken hstored, ?_⟩
      rcases hs p hstored with hr | hsufficient | hsame
      · exact absurd hr hn
      · exact .inl (hsufficient.enough hx hserver hv)
      · obtain ⟨-, -, hprofile, -, -, -⟩ := validatePendingIdentity_ok hv
        rw [hprofile] at hsame
        exact .inr hsame
    · -- A new key, under which nothing has been sent.
      intro p w₂ ht h₂ hunsent
      refine wp_enrollAs hP hE h₂ ?_
      rintro _ ⟨⟩
      exact ⟨ht, .inr fun _ _ r hr => absurd hr (hunsent r)⟩
  have hlast : Cmd.wp E (Distinct P) (fun _ => Distinct P) (do
      let identity ← Ensure.findIdentity P server releaseProfile credentialProfile pending
        existing stored
      if (identity.releaseProfile ≠ releaseProfile ∨
          identity.credentialProfile ≠ credentialProfile) ∧ pending.isNone then
        fail .compatibilityMismatch
      if identity.needsEncryptionKeyRotation then fail .malformed
      let pending ← Ensure.reEnroll P args token server releaseProfile credentialProfile identity
        pending existing stored
      let mode := Ensure.enrollmentMode args pending existing stored
      if ¬ isEnrollmentMode mode then fail .malformed
      saveIdentityMetadata P identity server
      Ensure.finish P build args server mode token identity pending existing : Command Unit)
      (fun _ => Distinct P) w := by
    rw [Cmd.wp_bind]
    refine wp_findIdentity h ?_ ?_
    · intro hn i w' h'
      refine hidentity i w' h' fun p hp => ?_
      rw [hn] at hp
      cases hp
    · intro p i hp hserver hv
      refine hidentity i w h fun p' hp' => ?_
      rw [hp] at hp'
      cases hp'
      exact ⟨rfl, hserver, hv⟩
  rw [Cmd.wp_ite]
  exact ⟨fun _ => wp_probe h fun _ _ => hlast, fun _ => hlast⟩

end

end Device
end EgoBridge
