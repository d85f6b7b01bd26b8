import EgoBridge.Device.Answers
import EgoBridge.Device.ReadBack

/-!
# Device.Rotation

A rotation of a device identity converges, whatever interrupts it.

Attempts of `device_rotate` follow one another; each may be interrupted or fail anywhere. The store
goes through four phases, and every attempt takes it from its phase to the end.

* `Phase`              — where the attempts of one rotation may have left the store.
* `Willing`            — an attempt that nothing but an interruption can stop.
* `wp_deviceRotate`    — one attempt, from any phase: it is left in a phase or comes to the end.
-/

namespace EgoBridge
namespace Device
namespace Rotation

open Protocol Json Crash

/-! ## Phases -/

/-- The identity a rotation of `old` leads to. -/
structure NextOf (old next : DeviceIdentity) : Prop where
  deviceId : next.deviceId = old.deviceId
  releaseProfile : next.releaseProfile = old.releaseProfile
  credentialProfile : next.credentialProfile = old.credentialProfile
  generation : checkedSucc old.generation = some next.generation
  current : next.legacyEncryptionKey = false

/-- A key file of the current format, with the keys of an identity. -/
def KeyFile (file : Option Bytes) (identity : DeviceIdentity) : Prop :=
  ∃ bytes, file = some bytes ∧ decodeIdentity bytes =
    .ok ⟨identity.signingKey, some identity.encryptionKey, identity.generation⟩

/-- A credential of the device and of the server a rotation started with. -/
structure CredentialOf (old : DeviceIdentity) (serverUrl : String) (c : CommunityCredential) :
    Prop where
  deviceId : c.deviceId = old.deviceId
  serverUrl : c.serverUrl = serverUrl
  releaseProfile : c.releaseProfile = old.releaseProfile
  credentialProfile : c.credentialProfile = old.credentialProfile

/-- A credential the store takes. -/
structure Storable (P : Platform) (c : CommunityCredential) : Prop where
  valid : validCommunityCredential P c none = true
  size : c.toJson.size ≤ MAX_CREDENTIAL_BYTES

/-- What a rotation starts from: an identity of the current format that is not the last one, its
credential, and the policy the registration is made with. -/
structure Origin (P : Platform) where
  old : DeviceIdentity
  credential : CommunityCredential
  policy : Option LocalPolicy
  current : old.legacyEncryptionKey = false
  generation : (checkedSucc old.generation).isSome
  storable : Storable P credential
  own : CredentialOf old credential.serverUrl credential

variable {P : Platform}

/-- What a rotation draws on its way. -/
structure Setting (o : Origin P) where
  next : DeviceIdentity
  nextOf : NextOf o.old next
  key : String
  createdAtUnix : UInt64

variable {o : Origin P}

def Setting.record (x : Setting o) : PendingRotation :=
  rotationRecord P o.old x.next o.credential.revision x.key x.createdAtUnix

/-- A credential that the server has issued for the target identity. -/
structure Setting.Accepted (x : Setting o) (c : CommunityCredential) : Prop where
  issued : ∃ body registration t, registration.identity = x.next ∧
    credentialFromRegistrationResponseStrict P body o.credential.serverUrl x.next
      registration.signerCertificateSha256 (registrationPayload P registration) none t = .ok c
  storable : Storable P c
  newer : o.credential.revision < c.revision

/-- What a rotation logs: every request but those for a proof is one for the target identity under
the operation key. -/
def Setting.Logs (x : Setting o) : Event → Prop
  | .sent r registration => r.idempotencyKey = none ∨ r.idempotencyKey = some x.key ∧
      ∃ registered, registration = some registered ∧ registered.identity = x.next ∧
        r.payload = registrationPayload P registered
  | .issued c => x.Accepted c
  | .installed identity => identity = x.next
  | .saved c => x.Accepted c
  | .confirmed _ => False
  | .replacedPolicy _ => False

/-- The credential of the server's last answer. -/
def lastIssued (log : List Entry) : Option CommunityCredential :=
  log.findSome? fun e =>
    match e.event with
    | .issued c => some c
    | _ => none

/-- Nothing has been posted, and the key in place is the old one. -/
structure Before (o : Origin P) (w : World) : Prop where
  credential : w.store.loadForRotation P = .ok o.credential
  key : KeyFile w.store.key o.old
  rotation : w.store.pendingRotation = none
  handoff : w.store.activeBinding = none
  policy : w.store.policy = o.policy
  log : w.log = []

/-- The prepared key and the operation key are stored; the key in place may be either. -/
structure Midway (x : Setting o) (w : World) : Prop where
  pendingKey : w.store.pendingKeyRotation = some (encodeIdentity x.next)
  rotation : w.store.pendingRotation = some x.record
  valid : validPendingRotation x.record = true
  key : KeyFile w.store.key o.old ∧ w.store.loadForRotation P = .ok o.credential ∨
    w.store.key = some (encodeIdentity x.next)
  credential : ∃ c, w.store.loadForRotation P = .ok c ∧
    (c = o.credential ∨ ∃ e ∈ w.log, e.event = .issued c)
  handoff : w.store.activeBinding = none
  policy : w.store.policy = o.policy
  log : ∀ e ∈ w.log, x.Logs e.event

/-- The key of the target identity is in place, with the credential of the server's last answer. -/
structure Installed (x : Setting o) (w : World) : Prop where
  key : w.store.key = some (encodeIdentity x.next)
  pendingKey : w.store.pendingKeyRotation = none
  credential : ∃ c, w.store.loadForRotation P = .ok c ∧ lastIssued w.log = some c
  metadata : w.store.loadIdentityMetadata P = .ok ⟨1, o.old.deviceId, o.credential.serverUrl,
    o.old.releaseProfile, o.old.credentialProfile⟩
  handoff : w.store.activeBinding = none
  policy : w.store.policy = o.policy
  log : ∀ e ∈ w.log, x.Logs e.event

/-- The end of a rotation. -/
structure Converged (x : Setting o) (w : World) : Prop extends Installed x w where
  rotation : w.store.pendingRotation = none

/-- Where attempts may have left the store, in one of the settings `K`. -/
inductive Phase (K : Setting o → Prop) (w : World) : Prop where
  | fresh : (∀ x, K x) → Before o w → w.store.pendingKeyRotation = none → Phase K w
  | prepared (next : DeviceIdentity) : NextOf o.old next → (∀ x : Setting o, x.next = next → K x) →
      Before o w → w.store.pendingKeyRotation = some (encodeIdentity next) → Phase K w
  | midway (x : Setting o) : K x → Midway x w → Phase K w
  | discarded (x : Setting o) : K x → Installed x w → w.store.pendingRotation = some x.record →
      validPendingRotation x.record = true → Phase K w

/-! ## The server and the attempts -/

/-- A server that answers a rotation, if it does, with a valid credential of the target identity,
newer than the one it replaces and at least as new as those it has issued before. -/
def Serves (o : Origin P) (E : Surroundings) : Prop :=
  ∀ w (r : Request) (x : Exchange) body registration, E w (.post r) x →
    r.path = "/api/v1/ego-browser/devices/rotate" → r.server = o.credential.serverUrl →
    r.payload = registrationPayload P registration → NextOf o.old registration.identity →
    x.decode = .ok body → ∀ t : UInt64, E w .now t →
      ∃ c, credentialFromRegistrationResponseStrict P body r.server registration.identity
          registration.signerCertificateSha256 r.payload none t = .ok c ∧
        Storable P c ∧ o.credential.revision < c.revision ∧
        ∀ e ∈ w.log, ∀ c', e.event = .issued c' → c'.revision ≤ c.revision

/-- The answer to a request for a proof challenge. -/
def IsChallenge (body : Json) : Prop :=
  ∃ text bytes, ((get body "data").bind (get · "challenge")).bind asStr = some text ∧
    Base64.decode text.toList = some bytes ∧ bytes.length = 32

def IsUserToken (token : String) : Prop :=
  token.isEmpty = false ∧ (utf8 token).length ≤ TOKEN_MAX_BYTES ∧
    (utf8 token).all isTokenByte = true

/-- Nothing but an interruption can stop the attempt: its arguments are complete, the disk and the
server work, and the machine has the evidence for the registration. -/
structure Willing (o : Origin P) (E : Surroundings) (build : Build) (args : List String) :
    Prop where
  confirm : hasOption args "--confirm" = true
  lock : ∀ w, Works E (liftM lockRegistration) (fun _ _ => True) w
  token : ∀ w, Works E (liftM (tokenFromArgs args)) (fun token _ => IsUserToken token) w
  signer : ∀ w, Works E (liftM (orCompatibilityMismatch
    (signerCertificateSha256ForProfile build args (some o.old.releaseProfile)))) (fun _ _ => True) w
  evidence : ∀ w, w.store.policy = o.policy →
    Works E (liftM (Rotate.evidence build)) (fun _ _ => True) w
  write : ∀ w outcome, E w .write outcome → outcome = .written
  remove : ∀ w outcome, E w .remove outcome → outcome = none
  answers : ∀ w (r : Request) (x : Exchange), E w (.post r) x → ∃ body, x.decode = .ok body ∧
    (r.path = challengesPath → IsChallenge body)
  host : ∃ host, (P.parseUrl o.credential.serverUrl).bind (·.hostStr) = some host ∧ host ≠ ""

section

variable {K : Setting o → Prop} {E : Surroundings} {build : Build} {args : List String}
  {α : Type} {w : World}

/-- Wherever the command is interrupted or fails the store is in one of the phases, and it does not
fail if the attempt is willing. -/
abbrev Rotates (K : Setting o → Prop) (E : Surroundings) (build : Build) (args : List String)
    (p : Command α) (R : α → World → Prop) (w : World) : Prop :=
  Cmd.wp E (Phase K) (fun _ w => Phase K w ∧ ¬ Willing o E build args) p R w

/-! ## Files and credentials -/

theorem load_stored {c : CommunityCredential} {s : Store} (h : Storable P c)
    (hc : s.credential = some c) : s.loadForRotation P = .ok c := by
  rw [Store.loadForRotation, Store.loadCredential, hc]
  simp only [ownerFile, if_neg (Nat.not_lt.mpr h.size), h.valid, not_true_eq_false, ↓reduceIte]

theorem load_metadata {m : StoredIdentityMetadata} {s : Store}
    (h : validStoredIdentityMetadata P m = true) (hm : s.identityMetadata = some m) :
    s.loadIdentityMetadata P = .ok m := by
  rw [Store.loadIdentityMetadata, hm]
  simp only [ownerFile, if_neg (Nat.not_lt.mpr (size_metadata P h)), h, not_true_eq_false,
    ↓reduceIte]

theorem loadActiveBinding_none {s : Store} (h : s.activeBinding = none) (deviceId : String) :
    s.loadActiveBinding deviceId = .error .missing := by
  rw [Store.loadActiveBinding, h]
  rfl

theorem readPendingRotation_none {s : Store} (h : s.pendingRotation = none) :
    s.readPendingRotation = .ok none := by
  rw [Store.readPendingRotation, h]
  rfl

theorem checkedSucc_eq {m n : UInt64} (h : checkedSucc m = some n) :
    n = saturatingSucc m ∧ n ≠ 0 ∧ n ≠ m := by
  unfold checkedSucc at h
  split at h
  · cases h
  · rename_i hm
    cases h
    refine ⟨by rw [saturatingSucc, if_neg hm], ?_, ?_⟩
    · intro hz
      exact hm (by grind)
    · intro he
      grind

namespace NextOf

variable {old next : DeviceIdentity}

theorem generation_ne (h : NextOf old next) : next.generation ≠ 0 :=
  (checkedSucc_eq h.generation).2.1

theorem moved (h : NextOf old next) : next.generation ≠ old.generation :=
  (checkedSucc_eq h.generation).2.2

theorem succ (h : NextOf old next) : next.generation = saturatingSucc old.generation :=
  (checkedSucc_eq h.generation).1

end NextOf

theorem KeyFile.generation {file : Option Bytes} {i : DeviceIdentity} (h : KeyFile file i) :
    i.generation ≠ 0 := by
  obtain ⟨bytes, -, hd⟩ := h
  exact decodeIdentity_generation hd

/-- A key file of the current format is read as it is. -/
theorem wp_loadKey {file : Option Bytes} {identity : DeviceIdentity} {I : World → Prop}
    {F : Failure → World → Prop} {R : DeviceIdentity → World → Prop} (h : KeyFile file identity)
    (hl : identity.legacyEncryptionKey = false) (hR : R identity w) :
    Cmd.wp E I F (liftM (loadIdentityFile file identity.deviceId identity.releaseProfile
      identity.credentialProfile)) R w := by
  obtain ⟨bytes, rfl, hd⟩ := h
  exact wp_loadIdentityFile hd hl hR

theorem keyFile_encode {i : DeviceIdentity} (h : i.generation ≠ 0) :
    KeyFile (some (encodeIdentity i)) i :=
  ⟨_, rfl, decodeIdentity_encode h⟩

/-- The prepared key is read for an identity of the same device. -/
theorem wp_loadPending {identity next : DeviceIdentity} {I : World → Prop}
    {F : Failure → World → Prop} {R : Option DeviceIdentity → World → Prop}
    (hp : w.store.pendingKeyRotation = some (encodeIdentity next))
    (hid : next.deviceId = identity.deviceId) (hr : next.releaseProfile = identity.releaseProfile)
    (hc : next.credentialProfile = identity.credentialProfile) (hg : next.generation ≠ 0)
    (hl : next.legacyEncryptionKey = false) (hR : R (some next) w) :
    Cmd.wp E I F (liftM (loadPendingIdentityRotation identity)) R w := by
  rw [loadPendingIdentityRotation, probe_bind, Cmd.wp_bind, wp_theStore, hp]
  dsimp only
  rw [probe_bind, Cmd.wp_bind, ← hid, ← hr, ← hc]
  exact wp_loadKey (keyFile_encode hg) hl hR

theorem wp_loadPending_none {identity : DeviceIdentity} {I : World → Prop}
    {F : Failure → World → Prop} {R : Option DeviceIdentity → World → Prop}
    (hp : w.store.pendingKeyRotation = none) (hR : R none w) :
    Cmd.wp E I F (liftM (loadPendingIdentityRotation identity)) R w := by
  rw [loadPendingIdentityRotation, probe_bind, Cmd.wp_bind, wp_theStore, hp]
  exact hR

theorem Storable.metadata {c : CommunityCredential} (h : Storable P c) :
    canonicalServerUrl P c.serverUrl = .ok c.serverUrl ∧
      validStoredIdentityMetadata P ⟨1, c.deviceId, c.serverUrl, c.releaseProfile,
        c.credentialProfile⟩ = true := by
  have hv := h.valid
  simp only [validCommunityCredential, Bool.and_eq_true, decide_eq_true_eq, and_assoc] at hv
  obtain ⟨-, hr, hp, hid, hurl, -⟩ := hv
  refine ⟨hurl, ?_⟩
  simp only [validStoredIdentityMetadata, hid, hurl, hr, hp, decide_true, Bool.and_self]

theorem Storable.revision {c : CommunityCredential} (h : Storable P c) : c.revision ≠ 0 := by
  have hv := h.valid
  simp only [validCommunityCredential, Bool.and_eq_true, decide_eq_true_eq] at hv
  exact UInt64.pos_iff_ne_zero.mp hv.2

theorem Setting.Accepted.own {x : Setting o} {c : CommunityCredential} (h : x.Accepted c) :
    CredentialOf o.old o.credential.serverUrl c := by
  obtain ⟨body, registration, t, -, hs⟩ := h.issued
  obtain ⟨hid, hurl, hr, hc, -⟩ := credentialFromRegistrationResponseStrict_ok P hs
  have hn := x.nextOf
  exact ⟨hid.trans hn.deviceId, hurl, hr.trans hn.releaseProfile, hc.trans hn.credentialProfile⟩

/-- An answer that is accepted is accepted beside an older credential too. -/
theorem accepted_after {response submitted : Json} {serverUrl signer : String}
    {identity : DeviceIdentity} {t r : UInt64} {c : CommunityCredential}
    (h : credentialFromRegistrationResponseStrict P response serverUrl identity signer submitted
      none t = .ok c) (hr : r < c.revision) :
    credentialFromRegistrationResponseStrict P response serverUrl identity signer submitted
      (some r) t = .ok c := by
  unfold credentialFromRegistrationResponseStrict at h ⊢
  obtain ⟨data, hdata, h⟩ := bind_ok h
  obtain ⟨deviceId, hid, h⟩ := bind_ok h
  obtain ⟨publicKey, hkey, h⟩ := bind_ok h
  obtain ⟨generation, hg, h⟩ := bind_ok h
  obtain ⟨hexact, h⟩ := ite_error_ok.mp h
  obtain ⟨issued, hissued, h⟩ := bind_ok h
  rw [hdata, ok_bind, hid, ok_bind, hkey, ok_bind, hg, ok_bind, if_neg hexact, hissued, ok_bind]
  unfold credentialFromIssued at h ⊢
  obtain ⟨revision, hrev, h⟩ := bind_ok h
  obtain ⟨hzero, h⟩ := ite_error_ok.mp h
  obtain ⟨hm, h⟩ := ite_error_ok.mp h
  obtain ⟨expiresIn, hin, h⟩ := bind_ok h
  obtain ⟨expiresAtUnix, hat, h⟩ := bind_ok h
  obtain ⟨token, htoken, h⟩ := bind_ok h
  obtain ⟨id, hcid, h⟩ := bind_ok h
  cases h
  have hnew : ¬ (revision = 0 ∨ (some r).any (revision ≤ ·) = true) := by
    simp only [Option.any_none, Bool.false_eq_true, or_false] at hzero
    simpa [hzero] using hr
  rw [hrev, ok_bind, if_neg hnew, if_neg hm, hin, ok_bind, hat, ok_bind, htoken, ok_bind, hcid,
    ok_bind]

/-! ## Rules of an attempt -/

/-- A look at the machine, which a willing attempt gets over. -/
theorem rotates_probe {p : Probe α} {Q : α → World → Prop} {R : α → World → Prop} (h : Phase K w)
    (hw : Willing o E build args → Works E (liftM p) Q w)
    (hR : ∀ a, (Willing o E build args → Q a w) → R a w) :
    Rotates K E build args (liftM p) R w := by
  refine Probe.wp p h ?_ ?_
  · intro e he
    exact ⟨h, fun hwilling => Cmd.wp_fails he (hw hwilling)⟩
  · intro a ha
    exact hR a fun hwilling => Cmd.wp_returns ha (hw hwilling)

/-- A write between two places of a rotation. -/
theorem rotates_write {change : World → World} {R : Unit → World → Prop} (h : Phase K w)
    (h' : Phase K (change w)) (hR : R () (change w)) :
    Rotates K E build args (atomicOwnerWrite change) R w := by
  refine wp_atomicOwnerWrite h ?_ ?_ hR
  · intro f hf
    refine ⟨h, fun hw => ?_⟩
    cases hw.write w _ hf
  · intro f hf
    refine ⟨h', fun hw => ?_⟩
    cases hw.write w _ hf

theorem rotates_remove {change : Store → Store} {R : Unit → World → Prop} (h : Phase K w)
    (hR : R () (w.stored (change w.store))) :
    Rotates K E build args (removeOwnerFileIfPresent change) R w := by
  refine wp_remove h ?_ hR
  intro f hf
  refine ⟨h, fun hw => ?_⟩
  cases hw.remove w _ hf

theorem logs_logged {x : Setting o} {event : Event} (h : ∀ e ∈ w.log, x.Logs e.event)
    (he : x.Logs event) : ∀ e ∈ (w.logged event).log, x.Logs e.event := by
  intro e hm
  rcases List.mem_cons.mp hm with rfl | hm
  · exact he
  · exact h e hm

namespace Midway

variable {x : Setting o}

/-- Something is logged. -/
theorem logged (h : Midway x w) {event : Event} (he : x.Logs event) :
    Midway x (w.logged event) := by
  obtain ⟨c, hc, hissued⟩ := h.credential
  refine ⟨h.pendingKey, h.rotation, h.valid, h.key, ⟨c, hc, ?_⟩, h.handoff, h.policy,
    logs_logged h.log he⟩
  rcases hissued with rfl | ⟨e, he, hi⟩
  · exact .inl rfl
  · exact .inr ⟨e, List.mem_cons_of_mem _ he, hi⟩

theorem install (h : Midway x w) : Midway x ((w.logged (.installed x.next)).stored
    { w.store with key := some (encodeIdentity x.next) }) := by
  have h' : Midway x (w.logged (.installed x.next)) := h.logged rfl
  exact ⟨h'.pendingKey, h'.rotation, h'.valid, .inr rfl, h'.credential, h'.handoff, h'.policy,
    h'.log⟩

theorem describe (h : Midway x w) (m : Option StoredIdentityMetadata) :
    Midway x (w.stored { w.store with identityMetadata := m }) :=
  ⟨h.pendingKey, h.rotation, h.valid, h.key, h.credential, h.handoff, h.policy, h.log⟩

theorem credit {c : CommunityCredential} (h : Midway x w)
    (hk : w.store.key = some (encodeIdentity x.next)) (ha : x.Accepted c)
    (hi : ∃ e ∈ w.log, e.event = .issued c) :
    Midway x ((w.logged (.saved c)).stored { w.store with credential := some c }) := by
  obtain ⟨e, he, hi⟩ := hi
  exact ⟨h.pendingKey, h.rotation, h.valid, .inr hk,
    ⟨c, load_stored ha.storable rfl, .inr ⟨e, List.mem_cons_of_mem _ he, hi⟩⟩, h.handoff, h.policy,
    logs_logged h.log ha⟩

theorem release (h : Midway x w) : Midway x (w.stored { w.store with activeBinding := none }) :=
  ⟨h.pendingKey, h.rotation, h.valid, h.key, h.credential, rfl, h.policy, h.log⟩

theorem discard {c : CommunityCredential} (h : Midway x w)
    (hk : w.store.key = some (encodeIdentity x.next)) (hc : w.store.loadForRotation P = .ok c)
    (hlast : lastIssued w.log = some c)
    (hm : w.store.loadIdentityMetadata P = .ok ⟨1, o.old.deviceId, o.credential.serverUrl,
      o.old.releaseProfile, o.old.credentialProfile⟩) :
    Installed x (w.stored { w.store with pendingKeyRotation := none }) :=
  ⟨hk, rfl, ⟨c, hc, hlast⟩, hm, h.handoff, h.policy, h.log⟩

/-- The credential in place is one of the device, at least as new as the first. -/
theorem own (h : Midway x w) {c : CommunityCredential} (hc : w.store.loadForRotation P = .ok c) :
    CredentialOf o.old o.credential.serverUrl c ∧ Storable P c ∧
      o.credential.revision ≤ c.revision := by
  obtain ⟨c', hc', hissued⟩ := h.credential
  rw [hc] at hc'
  cases hc'
  rcases hissued with rfl | ⟨e, he, hi⟩
  · exact ⟨o.own, o.storable, UInt64.le_refl _⟩
  · have ha := h.log e he
    rw [hi] at ha
    exact ⟨ha.own, ha.storable, UInt64.le_of_lt ha.newer⟩

end Midway

/-! ## The commit -/

/-- The rotation has come to its end. -/
def Done (K : Setting o → Prop) (_ : Unit) (w : World) : Prop := ∃ x, K x ∧ Converged x w

/-- With the key and the credential in place, what is left of the rotation is removed. -/
theorem rotates_discard {x : Setting o} {c : CommunityCredential} (hK : K x) (h : Midway x w)
    (hk : w.store.key = some (encodeIdentity x.next)) (hc : w.store.loadForRotation P = .ok c)
    (hlast : lastIssued w.log = some c)
    (hm : w.store.loadIdentityMetadata P = .ok ⟨1, o.old.deviceId, o.credential.serverUrl,
      o.old.releaseProfile, o.old.credentialProfile⟩) :
    Rotates K E build args clearActiveBinding (fun _ w =>
      Rotates K E build args
        (removeOwnerFileIfPresent fun s => { s with pendingKeyRotation := none }) (fun _ w =>
          Rotates K E build args clearPendingRotationMetadata (Done K) w) w) w := by
  have h₁ := h.release
  have h₂ := h₁.discard hk hc hlast hm
  refine rotates_remove (.midway x hK h) ?_
  refine rotates_remove (.midway x hK h₁) ?_
  refine rotates_remove (.discarded x hK h₂ h.rotation h.valid) ?_
  exact ⟨x, hK, ⟨h₂.key, h₂.pendingKey, h₂.credential, h₂.metadata, h₂.handoff, h₂.policy, h₂.log⟩,
    rfl⟩

/-- The commit of a rotation ends it. -/
theorem rotates_commit {x : Setting o} {c : CommunityCredential} (hK : K x) (h : Midway x w)
    (ha : x.Accepted c) (hlast : lastIssued w.log = some c)
    (hi : ∃ e ∈ w.log, e.event = .issued c) :
    Rotates K E build args (commitIdentityRotation P x.next c) (Done K) w := by
  have hn := x.nextOf
  have hown := ha.own
  obtain ⟨hurl, hmeta⟩ := ha.storable.metadata
  rw [hown.deviceId, hown.serverUrl, hown.releaseProfile, hown.credentialProfile] at hmeta
  rw [hown.serverUrl] at hurl
  rw [Rotates, commitIdentityRotation, Cmd.wp_bind]
  refine wp_loadPending h.pendingKey rfl rfl rfl hn.generation_ne hn.current ?_
  have hsame : c.deviceId = x.next.deviceId ∧ c.credentialProfile = x.next.credentialProfile :=
    ⟨hown.deviceId.trans hn.deviceId.symm, hown.credentialProfile.trans hn.credentialProfile.symm⟩
  simp only [hsame.1, hsame.2, ne_eq, not_true_eq_false, or_self, ↓reduceIte, saveIdentity,
    Cmd.wp_bind]
  obtain ⟨e, he, hie⟩ := hi
  have h₁ := h.install
  have h₂ := h₁.describe (some ⟨1, o.old.deviceId, o.credential.serverUrl, o.old.releaseProfile,
    o.old.credentialProfile⟩)
  have h₃ := h₂.credit rfl ha ⟨e, List.mem_cons_of_mem _ he, hie⟩
  refine rotates_write (.midway x hK h) (.midway x hK h₁) ?_
  rw [saveIdentityMetadata, hn.deviceId, hn.releaseProfile, hn.credentialProfile, hown.serverUrl]
  simp only [Cmd.wp_bind]
  refine wp_lift_ok hurl ?_
  simp only [hmeta, not_true_eq_false, ↓reduceIte]
  refine rotates_write (.midway x hK h₁) (.midway x hK h₂) ?_
  rw [save]
  simp only [ha.storable.valid, Nat.not_lt.mpr ha.storable.size, not_true_eq_false, ↓reduceIte]
  refine rotates_write (.midway x hK h₂) (.midway x hK h₃) ?_
  exact rotates_discard hK h₃ rfl (load_stored ha.storable rfl) hlast (load_metadata hmeta rfl)

theorem rotates_settle {x : Setting o} {c : CommunityCredential} (hK : K x) (h : Midway x w)
    (ha : x.Accepted c) :
    Rotates K E build args (do
      record (.issued c)
      commitIdentityRotation P x.next c) (Done K) w := by
  rw [Rotates, Cmd.wp_bind, wp_record]
  exact ⟨.midway x hK h, rotates_commit hK (h.logged ha) ha rfl ⟨_, List.mem_cons_self, rfl⟩⟩

/-! ## The request -/

theorem Midway.isIdempotencyKey {x : Setting o} (h : Midway x w) :
    isIdempotencyKey x.key = true := by
  have hv := h.valid
  simp only [validPendingRotation, Bool.and_eq_true, and_assoc] at hv
  exact hv.2.2.2.2.2.2.1

theorem Willing.ready (hw : Willing o E build args) {x : Setting o} {client : DeviceApiClient}
    (hurl : client.baseUrl = o.credential.serverUrl) (hid : client.identity = x.next) :
    ∃ host, client.Ready P host := by
  obtain ⟨host, hparsed, hhost⟩ := hw.host
  have hn := x.nextOf
  have hv := o.storable.valid
  simp only [validCommunityCredential, Bool.and_eq_true, decide_eq_true_eq, isReleaseProfile,
    Bool.not_eq_true', String.isEmpty_eq_false_iff, and_assoc] at hv
  obtain ⟨-, hr, -, -, hp, hd, -⟩ := hv
  refine ⟨host, by rw [hurl]; exact hparsed, hhost, ?_, ?_, ?_, ?_⟩
  · rw [hid, hn.deviceId, ← o.own.deviceId]
    exact ne_empty_of_isApiId hd
  · rw [hid]
    exact hn.generation_ne
  · rw [hid, hn.releaseProfile, ← o.own.releaseProfile]
    exact hr
  · rw [hid, hn.credentialProfile, ← o.own.credentialProfile, hp]
    decide

theorem proofContextValid_ready {client : DeviceApiClient} {host operation : String}
    {generation : UInt64} (hc : client.Ready P host) (hg : generation ≠ 0) (ho : operation ≠ "") :
    client.proofContextValid generation operation host = true := by
  simp [DeviceApiClient.proofContextValid, ho, hg, hc.deviceId, hc.generation, hc.releaseProfile,
    hc.credentialProfile, hc.host]

/-- The request for a proof. -/
theorem rotates_addProof {x : Setting o} {client : DeviceApiClient} (hK : K x) (h : Midway x w)
    (hurl : client.baseUrl = o.credential.serverUrl) (hid : client.identity = x.next)
    {R : Unit → World → Prop}
    (hR : ∀ w', Midway x w' → w'.store = w.store → R () w') :
    Rotates K E build args (client.addProofForGeneration P client.identity.generation
      "device_rotate" none) R w := by
  have hg : client.identity.generation ≠ 0 := by
    rw [hid]
    exact x.nextOf.generation_ne
  simp only [Rotates, DeviceApiClient.addProofForGeneration, Cmd.wp_bind, Cmd.wp_ite, wp_fail]
  refine ⟨fun hz => absurd hz hg, fun _ => ?_⟩
  let request : Request := ⟨client.baseUrl, "/api/v1/ego-browser/proof-challenges", client.token,
    none, client.challengePayload client.identity.generation "device_rotate" none⟩
  have h' : Midway x (w.logged (.sent request none)) := h.logged (.inl rfl)
  have hphase : Phase K (w.logged (.sent request none)) := .midway x hK h'
  refine wp_postWithIdempotency (rfl : request = _) (.midway x hK h) hphase ?_ ?_
  · intro exchange hx e he
    refine ⟨hphase, fun hw => ?_⟩
    obtain ⟨body, hb, -⟩ := hw.answers _ _ _ hx
    rw [he] at hb
    cases hb
  intro exchange hx body hbody
  have hchallenge : Willing o E build args → IsChallenge body := by
    intro hw
    obtain ⟨body', hb, hch⟩ := hw.answers _ _ _ hx
    rw [hbody] at hb
    cases hb
    exact hch rfl
  cases htext : ((get body "data").bind (get · "challenge")).bind asStr with
  | none =>
    refine ⟨hphase, fun hw => ?_⟩
    obtain ⟨text, bytes, ht, -⟩ := hchallenge hw
    rw [htext] at ht
    cases ht
  | some text =>
    dsimp only
    cases hdecode : Base64.decode text.toList with
    | none =>
      refine ⟨hphase, fun hw => ?_⟩
      obtain ⟨text', bytes, ht, hb, -⟩ := hchallenge hw
      rw [htext] at ht
      cases ht
      rw [hdecode] at hb
      cases hb
    | some challenge =>
      simp only [Cmd.wp_bind, Cmd.wp_ite, wp_fail]
      refine ⟨fun hlen => ⟨hphase, fun hw => ?_⟩, fun _ => ?_⟩
      · obtain ⟨text', bytes, ht, hb, hl⟩ := hchallenge hw
        rw [htext] at ht
        cases ht
        rw [hdecode] at hb
        cases hb
        exact hlen hl
      cases hhost : (P.parseUrl client.baseUrl).bind (·.hostStr) with
      | none =>
        refine ⟨hphase, fun hw => ?_⟩
        obtain ⟨host, hready⟩ := hw.ready hurl hid
        have hp := hready.parsed
        rw [hhost] at hp
        cases hp
      | some host =>
        simp only [Cmd.wp_ite, Cmd.wp_pure, wp_fail]
        refine ⟨fun hbad => ⟨hphase, fun hw => ?_⟩, fun _ => hR _ h' rfl⟩
        obtain ⟨host', hready⟩ := hw.ready hurl hid
        have hp := hready.parsed
        rw [hhost] at hp
        cases hp
        exact hbad (proofContextValid_ready hready hg (by decide))

/-- What the server has issued at the time of the answer. -/
def Issues (x : Setting o) (E : Surroundings) (registration : Registration) (body : Json)
    (w : World) : Prop :=
  ∀ t : UInt64, E w .now t → ∃ c, x.Accepted c ∧
    credentialFromRegistrationResponseStrict P body o.credential.serverUrl x.next
      registration.signerCertificateSha256 (registrationPayload P registration) none t = .ok c ∧
    ∀ e ∈ w.log, ∀ c', e.event = .issued c' → c'.revision ≤ c.revision

theorem rotates_rotateDevice {x : Setting o} {client : DeviceApiClient}
    {registration : Registration} (hs : Serves o E) (hK : K x) (h : Midway x w)
    (hurl : client.baseUrl = o.credential.serverUrl) (hid : client.identity = x.next)
    (hr : registration.identity = x.next) {R : Json → World → Prop}
    (hR : ∀ body w', Midway x w' → w'.store = w.store → Issues x E registration body w' →
      R body w') :
    Rotates K E build args (client.rotateDevice P registration x.key) R w := by
  have hmatch := matchesIdentity_payload P (hid.trans hr.symm)
  simp only [Rotates, DeviceApiClient.rotateDevice, DeviceApiClient.registerDeviceAt,
    h.isIdempotencyKey, hmatch, not_true_eq_false, ↓reduceIte, Cmd.wp_bind]
  refine rotates_addProof hK h hurl hid fun w₁ h₁ hstore => ?_
  let request : Request := ⟨client.baseUrl, "/api/v1/ego-browser/devices/rotate", client.token,
    some x.key, registrationPayload P registration⟩
  have h₂ : Midway x (w₁.logged (.sent request (some registration))) :=
    h₁.logged (.inr ⟨rfl, registration, rfl, hr, rfl⟩)
  refine wp_postWithIdempotency (rfl : request = _) (.midway x hK h₁) (.midway x hK h₂) ?_ ?_
  · intro exchange hx e he
    refine ⟨.midway x hK h₂, fun hw => ?_⟩
    obtain ⟨body, hb, -⟩ := hw.answers _ _ _ hx
    rw [he] at hb
    cases hb
  · intro exchange hx body hbody
    refine hR body _ h₂ hstore ?_
    intro t ht
    have hnext : NextOf o.old registration.identity := hr ▸ x.nextOf
    obtain ⟨c, hc, hstorable, hnewer, hlast⟩ :=
      hs _ _ exchange body registration hx rfl hurl rfl hnext hbody t ht
    change credentialFromRegistrationResponseStrict P body client.baseUrl _ _ _ none t = _ at hc
    rw [hr, hurl] at hc
    exact ⟨c, ⟨⟨body, registration, t, hr, hc⟩, hstorable, hnewer⟩, hc, hlast⟩

/-- The identity in place that an attempt finds, and the credential beside it. -/
inductive Finds (x : Setting o) (w : World) : CommunityCredential → DeviceIdentity → Prop where
  | source : KeyFile w.store.key o.old → Finds x w o.credential o.old
  | target (previous : CommunityCredential) : Finds x w previous x.next

theorem withUserToken_ok {url token : String} {identity : DeviceIdentity}
    (hurl : canonicalServerUrl P url = .ok url) (ht : IsUserToken token) :
    withUserToken P url token identity = .ok ⟨url, token, identity⟩ := by
  obtain ⟨hempty, hlen, hbytes⟩ := ht
  rw [withUserToken, hurl]
  dsimp only
  rw [if_neg]
  rintro (hne | he | hl | hb)
  · exact hne rfl
  · rw [hempty] at he
    cases he
  · exact absurd hl (Nat.not_lt.mpr hlen)
  · exact hb hbytes

/-- Once the record of the rotation is stored, its request is made and it is committed. -/
theorem rotates_submit {token signer : String} {previous : CommunityCredential}
    {current next : DeviceIdentity} (hs : Serves o E)
    (htoken : Willing o E build args → IsUserToken token)
    (hload : ∀ R : PendingRotation → World → Prop, (∀ (x : Setting o) w', K x → x.next = next →
        Midway x w' → w'.store.loadForRotation P = .ok previous → Finds x w' previous current →
        R x.record w') →
      Rotates K E build args (loadOrCreatePendingRotation P current next previous.revision none) R w) :
    Rotates K E build args (Rotate.submit P build token signer previous current next) (Done K)
      w := by
  rw [Rotates, Rotate.submit, Cmd.wp_bind]
  refine hload _ ?_
  rintro x w₁ hK rfl h hprevious hfinds
  obtain ⟨hown, hstorable, -⟩ := h.own hprevious
  rw [Cmd.wp_bind]
  refine rotates_probe (.midway x hK h) (fun hw => hw.evidence w₁ h.policy) fun found _ => ?_
  have hcanonical := hstorable.metadata.1
  rw [Cmd.wp_bind]
  refine wp_lift (fun e he => ?_) fun api hapi => ?_
  · refine ⟨.midway x hK h, fun hw => ?_⟩
    rw [withUserToken_ok hcanonical (htoken hw)] at he
    cases he
  have hapi' : api.baseUrl = o.credential.serverUrl ∧ api.identity = x.next := by
    simp only [withUserToken, hcanonical] at hapi
    split at hapi
    · cases hapi
    · cases hapi
      exact ⟨hown.serverUrl, rfl⟩
  rw [Cmd.wp_bind]
  refine rotates_rotateDevice hs hK h hapi'.1 hapi'.2 rfl fun body w₂ h₂ hstore hissues => ?_
  rw [Cmd.wp_bind, wp_now]
  refine ⟨.midway x hK h₂, fun t ht => ?_⟩
  obtain ⟨c, ha, hc, hlast⟩ := hissues t ht
  rw [hown.serverUrl]
  rw [← hstore] at hprevious
  cases hfinds with
  | source hkey =>
    have htarget : (decide (o.old.generation = x.record.targetGeneration) &&
        isTarget P o.old x.next) = false := by
      have hne : o.old.generation ≠ x.record.targetGeneration := x.nextOf.moved.symm
      simp [hne]
    simp only [htarget, Bool.false_eq_true, ↓reduceIte, accepted_after hc ha.newer, false_and]
    exact rotates_settle hK h₂ ha
  | target =>
    have htarget : (decide (x.next.generation = x.record.targetGeneration) &&
        isTarget P x.next x.next) = true := by
      simp [Setting.record, rotationRecord, isTarget]
    have hnewest : ¬ c.revision < previous.revision := by
      obtain ⟨c', hc', hissued⟩ := h₂.credential
      rw [hprevious] at hc'
      cases hc'
      rw [UInt64.not_lt]
      rcases hissued with rfl | ⟨e, he, hi⟩
      · exact UInt64.le_of_lt ha.newer
      · exact hlast e he _ hi
    simp only [htarget, ↓reduceIte, hc, true_and, hnewest]
    exact rotates_settle hK h₂ ha

/-! ## The record of a rotation -/

/-- The stored record is taken up, whichever of the two keys is in place. -/
theorem rotates_recorded {x : Setting o} {previous : CommunityCredential}
    {current : DeviceIdentity} (h : Midway x w)
    (hprevious : w.store.loadForRotation P = .ok previous) (hfinds : Finds x w previous current)
    (R : PendingRotation → World → Prop) (hR : R x.record w) :
    Rotates K E build args (loadOrCreatePendingRotation P current x.next previous.revision none)
      R w := by
  obtain ⟨hown, hstorable, hle⟩ := h.own hprevious
  have hn := x.nextOf
  have hscope : (current.deviceId = x.next.deviceId ∧
      current.releaseProfile = x.next.releaseProfile ∧
      current.credentialProfile = x.next.credentialProfile) ∧
      (x.next.generation = saturatingSucc current.generation ∨ isTarget P current x.next = true) ∧
      pendingRotationMatches P x.record current x.next = true := by
    cases hfinds with
    | source hkey =>
      refine ⟨⟨hn.deviceId.symm, hn.releaseProfile.symm, hn.credentialProfile.symm⟩,
        .inl hn.succ, ?_⟩
      simp [pendingRotationMatches, Setting.record, rotationRecord]
    | target =>
      refine ⟨⟨rfl, rfl, rfl⟩, .inr (by simp [isTarget]), ?_⟩
      simp [pendingRotationMatches, Setting.record, rotationRecord, hn.deviceId]
  obtain ⟨hids, hsource, hmatches⟩ := hscope
  have hread := (readPendingRotation_some h.rotation).mpr h.valid
  have hrev : ¬ previous.revision < x.record.previousCredentialRevision := UInt64.not_lt.mpr hle
  have hbad : ¬ (¬ (current.deviceId = x.next.deviceId ∧
      current.releaseProfile = x.next.releaseProfile ∧
      current.credentialProfile = x.next.credentialProfile) ∨
      (¬ x.next.generation = saturatingSucc current.generation ∧
        ¬ isTarget P current x.next = true)) := by
    rintro (hbad | ⟨hns, hnt⟩)
    · exact hbad hids
    · exact hsource.elim hns hnt
  simp only [Rotates, loadOrCreatePendingRotation, hstorable.revision, hbad, ↓reduceIte,
    Cmd.wp_bind, wp_theStore]
  refine wp_lift_ok hread ?_
  simp only [hmatches, not_true_eq_false, hrev, Option.any_none, Bool.false_eq_true, ↓reduceIte,
    Cmd.wp_pure]
  exact hR

/-- A record is made, and the operation key is stored with it. -/
theorem rotates_create {next : DeviceIdentity} (hclock : ∀ w (t : UInt64), E w .now t → t ≠ 0)
    (hn : NextOf o.old next) (hK : ∀ x : Setting o, x.next = next → K x) (h : Before o w)
    (hkey : w.store.pendingKeyRotation = some (encodeIdentity next))
    (R : PendingRotation → World → Prop)
    (hR : ∀ (x : Setting o) w', K x → x.next = next → Midway x w' →
      w'.store.loadForRotation P = .ok o.credential → Finds x w' o.credential o.old →
      R x.record w') :
    Rotates K E build args (loadOrCreatePendingRotation P o.old next o.credential.revision none)
      R w := by
  have hphase : Phase K w := .prepared next hn hK h hkey
  have hrevision := o.storable.revision
  have hbad : ¬ (¬ (o.old.deviceId = next.deviceId ∧ o.old.releaseProfile = next.releaseProfile ∧
      o.old.credentialProfile = next.credentialProfile) ∨
      (¬ next.generation = saturatingSucc o.old.generation ∧
        ¬ isTarget P o.old next = true)) := by
    rintro (hbad | ⟨hns, -⟩)
    · exact hbad ⟨hn.deviceId.symm, hn.releaseProfile.symm, hn.credentialProfile.symm⟩
    · exact hns hn.succ
  simp only [Rotates, loadOrCreatePendingRotation, hrevision, hbad, ↓reduceIte, Cmd.wp_bind,
    wp_theStore]
  refine wp_lift_ok (readPendingRotation_none h.rotation) ?_
  simp only [hn.succ, not_true_eq_false, ↓reduceIte, Cmd.wp_bind, Cmd.wp_pure,
    wp_newIdempotencyKey, isIdempotencyKey_encode, wp_now]
  refine ⟨hphase, fun k _ => ⟨hphase, fun t ht => ?_⟩⟩
  let x : Setting o := ⟨next, hn, encodeB64url k.bytes, t⟩
  have hid : isApiId o.old.deviceId = true := by
    rw [← o.own.deviceId]
    exact deviceId_of_loadForRotation h.credential
  have hvalid : validPendingRotation x.record = true :=
    (rotationRecord_valid P hrevision hn.succ (isIdempotencyKey_encode k)).mpr
      ⟨hid, h.key.generation, hclock _ t ht⟩
  have hmidway : Midway x (w.stored { w.store with pendingRotation := some x.record }) :=
    ⟨hkey, rfl, hvalid, .inl ⟨h.key, h.credential⟩, ⟨o.credential, h.credential, .inl rfl⟩,
      h.handoff, h.policy, by simp [h.log]⟩
  refine rotates_write hphase (.midway x (hK x rfl) hmidway) ?_
  exact hR x _ (hK x rfl) rfl hmidway h.credential (.source h.key)

/-- The target identity is drawn, and stored before anything else. -/
theorem rotates_prepare (hK : ∀ x : Setting o, K x) (h : Before o w)
    (hkey : w.store.pendingKeyRotation = none) {R : DeviceIdentity → World → Prop}
    (hR : ∀ next w', NextOf o.old next → Before o w' →
      w'.store.pendingKeyRotation = some (encodeIdentity next) → R next w') :
    Rotates K E build args (prepareIdentityRotation P o.old) R w := by
  have hphase : Phase K w := .fresh hK h hkey
  rw [Rotates, prepareIdentityRotation, Cmd.wp_bind]
  refine wp_loadPending_none hkey ?_
  obtain ⟨generation, hg⟩ := Option.isSome_iff_exists.mp o.generation
  simp only [hg, Cmd.wp_bind, Cmd.wp_pure, wp_ask]
  refine ⟨hphase, fun (signing : Key) _ => ⟨hphase, fun (encryption : Key) _ => ?_⟩⟩
  let next : DeviceIdentity := ⟨o.old.deviceId, signing, encryption, generation,
    o.old.releaseProfile, o.old.credentialProfile, false⟩
  have hn : NextOf o.old next := ⟨rfl, rfl, rfl, hg, rfl⟩
  have h' : Before o (w.stored { w.store with
      pendingKeyRotation := some (encodeIdentity next) }) :=
    ⟨h.credential, h.key, h.rotation, h.handoff, h.policy, h.log⟩
  exact rotates_write hphase (.prepared next hn (fun x _ => hK x) h' rfl) (hR next _ hn h' rfl)

/-! ## An attempt -/

/-- No rotation has been interrupted after its commit. -/
theorem rotates_unfinished {current : DeviceIdentity} {previous : CommunityCredential}
    {existing : Option PendingRotation} {prepared : Option DeviceIdentity}
    (hread : w.store.readPendingRotation = .ok existing)
    (hload : ∀ R : Option DeviceIdentity → World → Prop, R prepared w →
      Rotates K E build args (liftM (loadPendingIdentityRotation current)) R w)
    (hpair : existing.isSome → prepared.isSome) {R : Bool → World → Prop} (hR : R false w) :
    Rotates K E build args (finishInterruptedIdentityRotation P current previous) R w := by
  simp only [Rotates, finishInterruptedIdentityRotation, Cmd.wp_bind, wp_theStore]
  refine wp_lift_ok hread ?_
  cases existing with
  | none => exact hR
  | some rotation =>
    simp only [Cmd.wp_bind]
    refine hload _ ?_
    simp only [hpair rfl, true_or, ↓reduceIte]
    exact hR

/-- A rotation that was interrupted after its commit is finished. -/
theorem rotates_finish {x : Setting o} {c : CommunityCredential} (hK : K x) (h : Installed x w)
    (hr : w.store.pendingRotation = some x.record) (hv : validPendingRotation x.record = true)
    (hown : CredentialOf o.old o.credential.serverUrl c)
    (hnewer : o.credential.revision < c.revision) {R : Bool → World → Prop}
    (hR : ∀ w', Converged x w' → R true w') :
    Rotates K E build args (finishInterruptedIdentityRotation P x.next c) R w := by
  have hn := x.nextOf
  have hread := (readPendingRotation_some hr).mpr hv
  simp only [Rotates, finishInterruptedIdentityRotation, Cmd.wp_bind, wp_theStore]
  refine wp_lift_ok hread ?_
  simp only [Cmd.wp_bind]
  refine wp_loadPending_none h.pendingKey ?_
  have hsame : ¬ (x.record.deviceId ≠ x.next.deviceId ∨
      x.record.targetGeneration ≠ x.next.generation ∨
      x.record.targetSigningPublicKeySha256 ≠ publicValueSha256 P (x.next.publicKeyB64 P) ∨
      x.record.targetEncryptionPublicKeySha256 ≠
        publicValueSha256 P (x.next.encryptionPublicKeyB64 P) ∨
      c.deviceId ≠ x.next.deviceId ∨ c.releaseProfile ≠ x.next.releaseProfile ∨
      c.credentialProfile ≠ x.next.credentialProfile ∨
      c.revision ≤ x.record.previousCredentialRevision) := by
    have hrev : ¬ c.revision ≤ x.record.previousCredentialRevision := UInt64.not_le.mpr hnewer
    simp [hrev, hn.deviceId, hn.releaseProfile, hn.credentialProfile, hown.deviceId,
      hown.releaseProfile, hown.credentialProfile]
    simp [Setting.record, rotationRecord]
  simp only [Option.isSome_none, Bool.false_eq_true, false_or, hsame, ↓reduceIte, Cmd.wp_bind,
    wp_theStore]
  refine wp_lift_ok h.metadata ?_
  simp only [hn.deviceId, hn.releaseProfile, hn.credentialProfile, hown.serverUrl, ne_eq,
    not_true_eq_false, or_self, ↓reduceIte, Cmd.wp_bind, Cmd.wp_pure, wp_theStore,
    loadActiveBinding_none h.handoff]
  refine rotates_remove (.discarded x hK h hr hv) ?_
  exact hR _ ⟨⟨h.key, h.pendingKey, h.credential, h.metadata, h.handoff, h.policy, h.log⟩, rfl⟩

/-- What follows once the identity in place is not the result of an interrupted rotation. -/
theorem rotates_start {token : String} {previous : CommunityCredential}
    {current : DeviceIdentity} {existing : Option PendingRotation}
    {prepared : Option DeviceIdentity} (h : Phase K w)
    (hrelease : current.releaseProfile = o.old.releaseProfile)
    (hread : w.store.readPendingRotation = .ok existing)
    (hload : ∀ R : Option DeviceIdentity → World → Prop, R prepared w →
      Rotates K E build args (liftM (loadPendingIdentityRotation current)) R w)
    (hpair : existing.isSome → prepared.isSome) (hhandoff : w.store.activeBinding = none)
    (hsome : ∀ signer next, prepared = some next →
      Rotates K E build args (Rotate.submit P build token signer previous current next) (Done K) w)
    (hnone : ∀ signer, prepared = none →
      Rotates K E build args (prepareIdentityRotation P current) (fun next w =>
        Rotates K E build args (Rotate.submit P build token signer previous current next) (Done K)
          w) w) :
    Rotates K E build args (Rotate.start P build args token previous current) (Done K) w := by
  rw [Rotates, Rotate.start, Cmd.wp_bind, hrelease]
  refine rotates_probe h (fun hw => hw.signer w) fun signer _ => ?_
  simp only [Cmd.wp_bind, wp_theStore]
  refine wp_lift_ok hread ?_
  refine hload _ ?_
  have hboth : ¬ (existing.isSome = true ∧ prepared.isNone = true) := by
    rintro ⟨he, hp⟩
    rw [Option.isNone_iff_eq_none] at hp
    have := hpair he
    rw [hp] at this
    cases this
  simp only [hboth, ↓reduceIte, Cmd.wp_bind, wp_theStore]
  refine wp_lift_ok (a := none) (by rw [loadActiveBinding_none hhandoff]; rfl) ?_
  simp only [Option.isSome_none, Bool.false_eq_true, false_and, ↓reduceIte]
  cases prepared with
  | some next => exact hsome signer next rfl
  | none =>
    rw [Cmd.wp_bind]
    exact hnone signer rfl

/-- The identity in place is read for a credential of the same device. -/
theorem wp_loadFor {identity : DeviceIdentity} {c : CommunityCredential} {I : World → Prop}
    {F : Failure → World → Prop} {R : DeviceIdentity → World → Prop}
    (hk : KeyFile w.store.key identity) (hl : identity.legacyEncryptionKey = false)
    (hid : c.deviceId = identity.deviceId) (hr : c.releaseProfile = identity.releaseProfile)
    (hc : c.credentialProfile = identity.credentialProfile) (hR : R identity w) :
    Cmd.wp E I F (liftM (loadIdentity c.deviceId c.releaseProfile c.credentialProfile)) R w := by
  rw [loadIdentity, probe_bind, Cmd.wp_bind, wp_theStore, hid, hr, hc]
  exact wp_loadKey hk hl hR

/-- An attempt reads the credential and the identity in place. -/
theorem rotates_attempt {previous : CommunityCredential} {current : DeviceIdentity}
    (h : Phase K w) (hprevious : w.store.loadForRotation P = .ok previous)
    (hcurrent : ∀ R : DeviceIdentity → World → Prop, R current w →
      Rotates K E build args (liftM (loadIdentity previous.deviceId previous.releaseProfile
        previous.credentialProfile)) R w)
    (hrest : ∀ token, (Willing o E build args → IsUserToken token) →
      Rotates K E build args (finishInterruptedIdentityRotation P current previous)
        (fun finished w => if finished = true then Done K () w else
          Rotates K E build args (Rotate.start P build args token previous current) (Done K) w) w) :
    Rotates K E build args (deviceRotate P build args) (Done K) w := by
  simp only [Rotates, deviceRotate, Cmd.wp_bind, Cmd.wp_ite, Cmd.wp_pure, wp_failText]
  refine ⟨fun hbad => ⟨h, fun hw => hbad hw.confirm⟩, fun _ => ?_⟩
  refine rotates_probe h (fun hw => hw.lock w) fun _ _ => ?_
  refine rotates_probe h (fun hw => hw.token w) fun token htoken => ?_
  rw [wp_theStore]
  refine wp_lift_ok hprevious ?_
  refine hcurrent _ ?_
  refine Cmd.wp_post (hrest token htoken) fun finished w' hfinished => ?_
  cases finished with
  | true => exact ⟨fun _ => hfinished, fun hn => absurd rfl hn⟩
  | false => exact ⟨fun hf => absurd hf (by decide), fun _ => hfinished⟩

theorem mem_of_lastIssued {log : List Entry} {c : CommunityCredential}
    (h : lastIssued log = some c) : ∃ e ∈ log, e.event = .issued c := by
  obtain ⟨e, he, hc⟩ := List.exists_of_findSome?_eq_some h
  refine ⟨e, he, ?_⟩
  cases hevent : e.event with
  | issued c' =>
    rw [hevent] at hc
    cases hc
    rfl
  | _ =>
    rw [hevent] at hc
    cases hc

/-- An attempt goes from any phase to the end, stays in the phases wherever it is left, and does
not fail if it is willing. -/
theorem wp_deviceRotate (hs : Serves o E) (hclock : ∀ w (t : UInt64), E w .now t → t ≠ 0)
    (h : Phase K w) : Rotates K E build args (deviceRotate P build args) (Done K) w := by
  cases h with
  | fresh hK h hkey =>
    have hphase : Phase K w := .fresh hK h hkey
    have hown := o.own
    refine rotates_attempt hphase h.credential (fun R hR => wp_loadFor h.key o.current
      hown.deviceId hown.releaseProfile hown.credentialProfile hR) fun token htoken => ?_
    refine rotates_unfinished (readPendingRotation_none h.rotation)
      (fun R hR => wp_loadPending_none hkey hR) (fun hn => hn) ?_
    refine rotates_start hphase rfl (readPendingRotation_none h.rotation)
      (fun R hR => wp_loadPending_none hkey hR) (fun hn => hn) h.handoff (by simp)
      fun signer _ => ?_
    refine rotates_prepare hK h hkey fun next w' hn h' hkey' => ?_
    exact rotates_submit hs htoken fun R hR =>
      rotates_create hclock hn (fun x _ => hK x) h' hkey' R hR
  | prepared next hn hK h hkey =>
    have hphase : Phase K w := .prepared next hn hK h hkey
    have hown := o.own
    have hload : ∀ R : Option DeviceIdentity → World → Prop, R (some next) w →
        Rotates K E build args (liftM (loadPendingIdentityRotation o.old)) R w := fun R hR =>
      wp_loadPending hkey hn.deviceId hn.releaseProfile hn.credentialProfile hn.generation_ne
        hn.current hR
    refine rotates_attempt hphase h.credential (fun R hR => wp_loadFor h.key o.current
      hown.deviceId hown.releaseProfile hown.credentialProfile hR) fun token htoken => ?_
    refine rotates_unfinished (readPendingRotation_none h.rotation) hload (fun _ => rfl) ?_
    refine rotates_start hphase rfl (readPendingRotation_none h.rotation) hload (fun _ => rfl)
      h.handoff ?_ (by simp)
    rintro signer _ ⟨⟩
    exact rotates_submit hs htoken fun R hR => rotates_create hclock hn hK h hkey R hR
  | midway x hK h =>
    have hphase : Phase K w := .midway x hK h
    have hn := x.nextOf
    obtain ⟨c, hc, -⟩ := h.credential
    have hown := (h.own hc).1
    have hread := (readPendingRotation_some h.rotation).mpr h.valid
    -- Either key may be in place, and the prepared one is read for both.
    have hattempt : ∀ current : DeviceIdentity, Finds x w c current →
        KeyFile w.store.key current → current.legacyEncryptionKey = false →
        current.deviceId = o.old.deviceId → current.releaseProfile = o.old.releaseProfile →
        current.credentialProfile = o.old.credentialProfile →
        Rotates K E build args (deviceRotate P build args) (Done K) w := by
      intro current hfinds hkey hl hid hr hp
      have hload : ∀ R : Option DeviceIdentity → World → Prop, R (some x.next) w →
          Rotates K E build args (liftM (loadPendingIdentityRotation current)) R w := fun R hR =>
        wp_loadPending h.pendingKey (hn.deviceId.trans hid.symm) (hn.releaseProfile.trans hr.symm)
          (hn.credentialProfile.trans hp.symm) hn.generation_ne hn.current hR
      refine rotates_attempt hphase hc (fun R hR => wp_loadFor hkey hl
        (hown.deviceId.trans hid.symm) (hown.releaseProfile.trans hr.symm)
        (hown.credentialProfile.trans hp.symm) hR) fun token htoken => ?_
      refine rotates_unfinished hread hload (fun _ => rfl) ?_
      refine rotates_start hphase hr hread hload (fun _ => rfl) h.handoff ?_ (by simp)
      rintro signer _ ⟨⟩
      exact rotates_submit hs htoken fun R hR =>
        rotates_recorded h hc hfinds R (hR x w hK rfl h hc hfinds)
    rcases h.key with ⟨hkey, hload⟩ | hkey
    · rw [hc] at hload
      cases hload
      exact hattempt o.old (.source hkey) hkey o.current rfl rfl rfl
    · have hfile : KeyFile w.store.key x.next := by
        rw [hkey]
        exact keyFile_encode hn.generation_ne
      exact hattempt x.next (.target c) hfile hn.current hn.deviceId hn.releaseProfile
        hn.credentialProfile
  | discarded x hK h hr hv =>
    have hphase : Phase K w := .discarded x hK h hr hv
    have hn := x.nextOf
    obtain ⟨c, hc, hlast⟩ := h.credential
    obtain ⟨e, he, hi⟩ := mem_of_lastIssued hlast
    have ha := h.log e he
    rw [hi] at ha
    have hown := Setting.Accepted.own ha
    have hfile : KeyFile w.store.key x.next := by
      rw [h.key]
      exact keyFile_encode hn.generation_ne
    refine rotates_attempt hphase hc (fun R hR => wp_loadFor hfile hn.current
      (hown.deviceId.trans hn.deviceId.symm) (hown.releaseProfile.trans hn.releaseProfile.symm)
      (hown.credentialProfile.trans hn.credentialProfile.symm) hR) fun token htoken => ?_
    refine rotates_finish hK h hr hv hown ha.newer fun w' hw' => ?_
    exact ⟨x, hK, hw'⟩

end

end Rotation
end Device
end EgoBridge
