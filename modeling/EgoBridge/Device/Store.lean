import EgoBridge.Device.Records
import EgoBridge.Lib.Crash

/-!
# Device.Store

The credential store and its operations, as commands that may be interrupted.

A command asks its surroundings for the time, for random keys, whether a file operation goes
through, what the environment, the machine's files and the server say. A file is replaced by one
atomic step; an `atomic_owner_write` that fails has replaced the file (its directory was not
synced) or has not.

* `World`          — the store and the log of what a command has done, each entry with the store
  as it was just before.
* `Store.load…`    — what the readers make of the files. A fault of a read is not modelled: it
  stops the command where an interruption would.
* `wp_atomicOwnerWrite`, `wp_remove` — the cases of a file operation.
-/

namespace EgoBridge
namespace Device

open Protocol Json Crash

/-! ## The world -/

inductive FileFault where
  | invalidPath
  | unsafePermissions
  | io
  deriving DecidableEq

def FileFault.error : FileFault → CredentialError
  | invalidPath => .invalidPath
  | unsafePermissions => .unsafePermissions
  | io => .io

inductive WriteOutcome where
  | written
  | lost (fault : FileFault)
  | kept (fault : FileFault)

/-- A lock that cannot be taken. -/
inductive LockFault where
  | busy
  | file (fault : FileFault)

/-- A request as it is posted, without the proof fields. -/
structure Request where
  server : String
  path : String
  bearer : String
  idempotencyKey : Option String
  payload : Json
  deriving DecidableEq

structure ReleaseManifestEvidence where
  profile : String
  signerCertificateSha256 : String

inductive Query where
  | now
  | deviceId
  | signingKey
  | encryptionKey
  | idempotencyKey
  | registrationLock
  | policyLock
  | write
  | remove
  | checkFiles
  | env (name : String)
  | stdin
  | runtimes
  | allowlist (roots : List String)
  | learningBundle (root : String)
  | canonicalize (path : String)
  | releaseArtifact (path : String)
  | installedPin
  | signedBinary
  | currentExe
  | post (request : Request)

/-- `none` is a failure, except for a variable that is not set and a removal that succeeds. -/
def Query.Answer : Query → Type
  | .now => UInt64
  | .deviceId => String
  | .signingKey => Key
  | .encryptionKey => Key
  | .idempotencyKey => Key
  | .registrationLock => Option LockFault
  | .policyLock => Option LockFault
  | .write => WriteOutcome
  | .remove => Option FileFault
  | .checkFiles => Option FileFault
  | .env _ => Option String
  | .stdin => Option String
  | .runtimes => List String
  | .allowlist _ => Option (List String × String)
  | .learningBundle _ => Option VerifiedLearningBundle
  | .canonicalize _ => Option String
  | .releaseArtifact _ => Option ReleaseManifestEvidence
  | .installedPin => Option (Option String)
  | .signedBinary => Option (Option String)
  | .currentExe => Option String
  | .post _ => Exchange

structure Store where
  credential : Option CommunityCredential
  key : Option Bytes
  identityMetadata : Option StoredIdentityMetadata
  pendingKeyRotation : Option Bytes
  pendingRotation : Option PendingRotation
  pendingRegistration : Option PendingRegistration
  policy : Option LocalPolicy
  activeBinding : Option ActiveBinding
  localAdmission : Option LocalAdmissionRecord
  deriving DecidableEq

def Store.empty : Store := ⟨none, none, none, none, none, none, none, none, none⟩

/-- What the payload of a registration is built from. -/
structure Registration where
  build : Build
  identity : DeviceIdentity
  runtime : String
  policy : VerifiedLocalPolicy
  signerCertificateSha256 : String
  enrollmentMode : String
  deriving DecidableEq

inductive Lifecycle where
  | claim
  | resume
  | pause
  | stop
  | revoke
  | confirmAllowlist
  deriving DecidableEq

/-- A server confirmation that a command has accepted for a binding, with the policy it confirms
if that has been compared. -/
structure Confirmation where
  command : Lifecycle
  bindingId : String
  status : Option String
  policy : Option VerifiedLocalPolicy
  deriving DecidableEq

inductive Event where
  | sent (request : Request) (registration : Option Registration)
  | issued (credential : CommunityCredential)
  | confirmed (confirmation : Confirmation)
  | installed (identity : DeviceIdentity)
  | saved (credential : CommunityCredential)
  | replacedPolicy (policy : LocalPolicy)
  deriving DecidableEq

structure Entry where
  event : Event
  store : Store
  deriving DecidableEq

/-- The log is kept with its last entry first. -/
structure World where
  store : Store
  log : List Entry
  deriving DecidableEq

def World.logged (w : World) (event : Event) : World := { w with log := ⟨event, w.store⟩ :: w.log }

def World.stored (w : World) (store : Store) : World := { w with store := store }

@[simp] theorem logged_store (w : World) (event : Event) : (w.logged event).store = w.store := rfl
@[simp] theorem logged_log (w : World) (event : Event) :
    (w.logged event).log = ⟨event, w.store⟩ :: w.log := rfl
@[simp] theorem stored_store (w : World) (store : Store) : (w.stored store).store = store := rfl
@[simp] theorem stored_log (w : World) (store : Store) : (w.stored store).log = w.log := rfl

/-! ## Commands -/

inductive Failure where
  | credential (error : CredentialError)
  | message (text : String)
  deriving DecidableEq

abbrev Command (α : Type) := Cmd Query.Answer World Failure α

/-- A command that writes nothing. -/
abbrev Probe (α : Type) := Crash.Probe Query.Answer World Failure α

abbrev Surroundings := Answers Query.Answer World

def raise {α : Type} (failure : Failure) : Probe α := Probe.throw failure

def fail {α : Type} (error : CredentialError) : Probe α := raise (.credential error)

def failText {α : Type} (text : String) : Probe α := raise (.message text)

def ask (q : Query) : Probe q.Answer := Probe.query q

def lift {α : Type} : Except CredentialError α → Probe α
  | .ok a => pure a
  | .error e => fail e

def liftText {α : Type} : Except String α → Probe α
  | .ok a => pure a
  | .error text => failText text

/-- The store as it is now. -/
def theStore : Probe Store := do pure (← Probe.get).store

/-- A file that is missing is no failure. -/
def ifPresent {α : Type} : Except CredentialError α → Except CredentialError (Option α)
  | .ok a => .ok (some a)
  | .error .missing => .ok none
  | .error e => .error e

def record (event : Event) : Command Unit := Cmd.update (·.logged event)

def now : Probe UInt64 := ask .now

def atomicOwnerWrite (change : World → World) : Command Unit := do
  match ← ask .write with
  | .written => Cmd.update change
  | .lost fault => fail fault.error
  | .kept fault => do
    Cmd.update change
    fail fault.error

def removeOwnerFileIfPresent (change : Store → Store) : Command Unit := do
  match ← ask .remove with
  | none => Cmd.update fun w => w.stored (change w.store)
  | some fault => fail fault.error

/-- A key of 32 random bytes, in URL-safe base64. -/
def newIdempotencyKey : Probe String := do pure (encodeB64url (← ask .idempotencyKey).bytes)

/-! ## Reading -/

/-- `read_owner_file` and the strict parser, on a file of a text of `size` bytes. -/
def ownerFile {α : Type} (size : α → Nat) : Option α → Except CredentialError α
  | none => .error .missing
  | some a => if MAX_CREDENTIAL_BYTES < size a then .error .tooLarge else .ok a

theorem ownerFile_some {α : Type} {f : α → Nat} {a : α} (h : f a ≤ MAX_CREDENTIAL_BYTES) :
    ownerFile f (some a) = .ok a := if_neg (Nat.not_lt.mpr h)

theorem ownerFile_large {α : Type} {f : α → Nat} {a : α} (h : MAX_CREDENTIAL_BYTES < f a) :
    ownerFile f (some a) = .error .tooLarge := if_pos h

variable (P : Platform)

namespace Store

def loadCredential (s : Store) (nowUnix : Option UInt64) :
    Except CredentialError CommunityCredential :=
  match ownerFile (fun c => c.toJson.size) s.credential with
  | .error e => .error e
  | .ok c => if ¬ validCommunityCredential P c nowUnix then .error .malformed else .ok c

/-- Read and strictly validate the short-lived control credential. -/
def load (s : Store) (nowUnix : UInt64) : Except CredentialError CommunityCredential :=
  s.loadCredential P (some nowUnix)

/-- Loads expired credential metadata only for fresh user-authenticated recovery. -/
def loadForRotation (s : Store) : Except CredentialError CommunityCredential :=
  s.loadCredential P none

def loadIdentityMetadata (s : Store) : Except CredentialError StoredIdentityMetadata :=
  match ownerFile (fun m => m.toJson.size) s.identityMetadata with
  | .error e => .error e
  | .ok m => if ¬ validStoredIdentityMetadata P m then .error .malformed else .ok m

/-- Reads validated pending state without expiry for diagnostics and explicit recovery. -/
def readPendingRegistration (s : Store) : Except CredentialError PendingRegistration :=
  match ownerFile (fun p => p.toJson.size) s.pendingRegistration with
  | .error e => .error e
  | .ok p => if ¬ readablePendingRegistration P p then .error .malformed else .ok p

def readPendingRotation (s : Store) : Except CredentialError (Option PendingRotation) :=
  match ownerFile (fun r => r.toJson.size) s.pendingRotation with
  | .error .missing => .ok none
  | .error e => .error e
  | .ok r => if ¬ validPendingRotation r then .error .malformed else .ok (some r)

/-- Load the explicitly selected active binding for a specific device. -/
def loadActiveBinding (s : Store) (deviceId : String) : Except CredentialError ActiveBinding :=
  match ownerFile (fun b => b.toJson.size) s.activeBinding with
  | .error e => .error e
  | .ok b =>
    if b.deviceId ≠ deviceId then .error .malformed
    else if ¬ validActiveBinding b then .error .malformed
    else .ok b

/-- Reads the gate while preserving missing or corrupt states for diagnostics. -/
def loadLocalAdmission (s : Store) : Except CredentialError LocalAdmissionRecord :=
  match ownerFile (fun r => r.toJson.size) s.localAdmission with
  | .error e => .error e
  | .ok r =>
    if 16 * 1024 < r.toJson.size then .error .tooLarge
    else if ¬ validLocalAdmissionRecord r then .error .malformed
    else .ok r

/-- Returns whether an exact active binding has a valid local admission record. -/
def localAdmissionIsOpen (s : Store) (deviceId : String) (binding : ActiveBinding) :
    Except CredentialError Bool :=
  match s.loadLocalAdmission with
  | .error .missing => .ok false
  | .error e => .error e
  | .ok r =>
    .ok (r.state = LOCAL_ADMISSION_OPEN && r.deviceId = some deviceId &&
      r.bindingId = some binding.bindingId && r.bindingGeneration = some binding.generation)

def loadPolicyDocument (s : Store) : Except CredentialError LocalPolicy :=
  match ownerFile (fun p => p.toJson.size) s.policy with
  | .error .missing => .ok default
  | .error e => .error e
  | .ok p => .ok p

end Store

/-- `load_identity_file`: a legacy file's encryption key is generated at each reading. -/
def loadIdentityFile (file : Option Bytes) (deviceId releaseProfile credentialProfile : String) :
    Probe DeviceIdentity := do
  let bytes ← lift (ownerFile List.length file)
  let key ← lift (decodeIdentity bytes)
  match key.encryptionKey with
  | some encryption =>
    pure ⟨deviceId, key.signingKey, encryption, key.generation, releaseProfile,
      credentialProfile, false⟩
  | none =>
    pure ⟨deviceId, key.signingKey, ← ask .encryptionKey, key.generation, releaseProfile,
      credentialProfile, true⟩

/-- Load a private key and bind it to a previously stored device ID. -/
def loadIdentity (deviceId releaseProfile credentialProfile : String) :
    Probe DeviceIdentity := do
  loadIdentityFile (← theStore).key deviceId releaseProfile credentialProfile

def loadPendingIdentityRotation (identity : DeviceIdentity) : Probe (Option DeviceIdentity) := do
  match (← theStore).pendingKeyRotation with
  | none => pure none
  | some bytes =>
    pure (some (← loadIdentityFile (some bytes) identity.deviceId identity.releaseProfile
      identity.credentialProfile))

/-- `str::parse::<u64>`. -/
def parseU64 (text : String) : Option UInt64 :=
  let digits := if text.toList.head? = some '+' then text.toList.tail else text.toList
  if digits ≠ [] ∧ digits.all Char.isDigit ∧ Nat.ofDigitChars 10 digits 0 < 2 ^ 64 then
    some (UInt64.ofNat (Nat.ofDigitChars 10 digits 0))
  else none

/-- Reads a bounded retry window, falling back to 24 hours. -/
def pendingRegistrationTtlSecs : Probe UInt64 := do
  match (← ask (.env "EGO_BROWSER_PENDING_REGISTRATION_TTL_SECS") : Option String) with
  | none => pure DEFAULT_PENDING_REGISTRATION_TTL_SECS
  | some value =>
    match (parseU64 value).filter (fun ttl => 0 < ttl && ttl ≤ 30 * 24 * 60 * 60) with
    | none => pure DEFAULT_PENDING_REGISTRATION_TTL_SECS
    | some ttl => pure ttl

/-- Whether a registration created at `created` has run out of its window. -/
def expired (created ttl nowUnix : UInt64) : Bool :=
  if created.toNat + ttl.toNat < 2 ^ 64 then created + ttl ≤ nowUnix else true

def PendingRegistration.isExpired (p : PendingRegistration) (nowUnix : UInt64) : Probe Bool := do
  pure (expired p.createdAtUnix (← pendingRegistrationTtlSecs) nowUnix)

def loadPendingRegistration : Probe PendingRegistration := do
  let pending ← lift ((← theStore).readPendingRegistration P)
  if ← pending.isExpired (← now) then fail .pendingExpired
  pure pending

/-! ## Writing -/

/-- Acquires the registration lock without waiting. -/
def lockRegistration : Probe Unit := do
  match (← ask .registrationLock : Option LockFault) with
  | none => pure ()
  | some .busy => fail .localLockBusy
  | some (.file fault) => fail fault.error

/-- Persists recovery state atomically with owner-only permissions. -/
def savePendingRegistration (pending : PendingRegistration) : Command Unit := do
  if ¬ writablePendingRegistration P pending then fail .malformed
  atomicOwnerWrite fun w => w.stored { w.store with pendingRegistration := some pending }

/-- Updates only the bounded error attached to pending state. -/
def recordPendingRegistrationError (code : Option String) : Command Unit := do
  match (← theStore).readPendingRegistration P with
  | .error _ => pure ()
  | .ok pending => savePendingRegistration P { pending with lastErrorCode := code }

def clearPendingRegistration : Command Unit :=
  removeOwnerFileIfPresent fun s => { s with pendingRegistration := none }

def saveIdentityMetadata (identity : DeviceIdentity) (serverUrl : String) : Command Unit := do
  let metadata : StoredIdentityMetadata :=
    ⟨1, identity.deviceId, ← lift (canonicalServerUrl P serverUrl), identity.releaseProfile,
      identity.credentialProfile⟩
  if ¬ validStoredIdentityMetadata P metadata then fail .malformed
  atomicOwnerWrite fun w => w.stored { w.store with identityMetadata := some metadata }

/-- Atomically write a short-lived credential with owner-only permissions. -/
def save (credential : CommunityCredential) : Command Unit := do
  if ¬ validCommunityCredential P credential none then fail .malformed
  if MAX_CREDENTIAL_BYTES < credential.toJson.size then fail .tooLarge
  atomicOwnerWrite fun w =>
    (w.logged (.saved credential)).stored { w.store with credential := some credential }

/-- Store a private Ed25519 key separately from the relay credential. -/
def saveIdentity (identity : DeviceIdentity) : Command Unit :=
  atomicOwnerWrite fun w =>
    (w.logged (.installed identity)).stored { w.store with key := some (encodeIdentity identity) }

/-- Persist the exact binding selected and confirmed by this Device Client. -/
def saveActiveBinding (binding : ActiveBinding) : Command Unit := do
  if ¬ validActiveBinding binding then fail .malformed
  atomicOwnerWrite fun w => w.stored { w.store with activeBinding := some binding }

/-- Remove only the reconnect handoff after pause termination or revoke. -/
def clearActiveBinding : Command Unit :=
  removeOwnerFileIfPresent fun s => { s with activeBinding := none }

/-- Reads exact identity metadata, including for expired-credential recovery. -/
def localMetadata : Command Unit := do
  match (← theStore).loadForRotation P with
  | .ok credential =>
    let identity ← loadIdentity credential.deviceId credential.releaseProfile
      credential.credentialProfile
    saveIdentityMetadata P identity credential.serverUrl
  | .error .missing =>
    let metadata ← lift ((← theStore).loadIdentityMetadata P)
    let _ ← loadIdentity metadata.deviceId metadata.releaseProfile metadata.credentialProfile
    pure ()
  | .error e => fail e

/-- Removes short-lived runtime state while retaining identity and verified policy. -/
def retireRuntimeState : Command Unit := do
  match (← theStore).loadForRotation P with
  | .ok credential =>
    let identity ← loadIdentity credential.deviceId credential.releaseProfile
      credential.credentialProfile
    saveIdentityMetadata P identity credential.serverUrl
  | .error .missing => pure ()
  | .error e => fail e
  removeOwnerFileIfPresent fun s => { s with credential := none }
  removeOwnerFileIfPresent fun s => { s with activeBinding := none }

/-! ## The gate -/

def writeLocalAdmission (r : LocalAdmissionRecord) : Command Unit := do
  if ¬ validLocalAdmissionRecord r then fail .malformed
  atomicOwnerWrite fun w => w.stored { w.store with localAdmission := some r }

/-- The identity a credential or the retained metadata names, if its key can be read. -/
def localIdentityReference : Probe (Option String × Option UInt64) := do
  let s ← theStore
  let fromMetadata : Probe (Option String × Option UInt64) := do
    match s.loadIdentityMetadata P with
    | .error _ => pure (none, none)
    | .ok metadata =>
      match ← (loadIdentity metadata.deviceId metadata.releaseProfile
          metadata.credentialProfile).attempt with
      | .error _ => pure (none, none)
      | .ok identity => pure (some identity.deviceId, some identity.generation)
  match s.loadForRotation P with
  | .error _ => fromMetadata
  | .ok credential =>
    match ← (loadIdentity credential.deviceId credential.releaseProfile
        credential.credentialProfile).attempt with
    | .error _ => fromMetadata
    | .ok identity => pure (some identity.deviceId, some identity.generation)

def localAdmissionRecord (state : String) : Probe LocalAdmissionRecord := do
  let (deviceId, deviceGeneration) ← localIdentityReference P
  pure ⟨1, state, deviceId, deviceGeneration, none, none, ← now⟩

/-- Closes admission idempotently while retaining identity metadata for setup. -/
def closeLocalAdmission : Command Unit := do
  writeLocalAdmission (← localAdmissionRecord P LOCAL_ADMISSION_CLOSED)

/-- Marks the supervisor reusable but not executable after setup or repair. -/
def readyLocalAdmission : Command Unit := do
  writeLocalAdmission (← localAdmissionRecord P LOCAL_ADMISSION_READY)

/-- Opens admission only for a validated active binding. -/
def openLocalAdmission (binding : ActiveBinding) : Command Unit := do
  if ¬ validActiveBinding binding then fail .malformed
  match (← theStore).loadForRotation P with
  | .error _ => fail .malformed
  | .ok credential =>
    if credential.deviceId ≠ binding.deviceId then fail .malformed
    match ← (loadIdentity credential.deviceId credential.releaseProfile
        credential.credentialProfile).attempt with
    | .error _ => fail .malformed
    | .ok identity =>
      writeLocalAdmission ⟨1, LOCAL_ADMISSION_OPEN, some identity.deviceId,
        some identity.generation, some binding.bindingId, some binding.generation, ← now⟩

/-- Remove credentials after explicit revoke/unenroll. -/
def clear : Command Unit := do
  closeLocalAdmission P
  match (← ask .checkFiles : Option FileFault) with
  | none => pure ()
  | some fault => fail fault.error
  removeOwnerFileIfPresent fun s => { s with credential := none }
  removeOwnerFileIfPresent fun s => { s with key := none }
  removeOwnerFileIfPresent fun s => { s with identityMetadata := none }
  removeOwnerFileIfPresent fun s => { s with pendingKeyRotation := none }
  removeOwnerFileIfPresent fun s => { s with pendingRotation := none }
  removeOwnerFileIfPresent fun s => { s with pendingRegistration := none }
  removeOwnerFileIfPresent fun s => { s with policy := none }
  removeOwnerFileIfPresent fun s => { s with activeBinding := none }
  removeOwnerFileIfPresent fun s => { s with localAdmission := none }

/-! ## Rules -/

section

variable {E : Surroundings} {I : World → Prop} {F : Failure → World → Prop} {α β : Type} {w : World}

@[simp] theorem wp_raise (e : Failure) {R : α → World → Prop} :
    Cmd.wp E I F (liftM (raise e : Probe α)) R w = F e w := rfl

@[simp] theorem wp_fail (e : CredentialError) {R : α → World → Prop} :
    Cmd.wp E I F (liftM (fail e : Probe α)) R w = F (.credential e) w := rfl

@[simp] theorem wp_failText (text : String) {R : α → World → Prop} :
    Cmd.wp E I F (liftM (failText text : Probe α)) R w = F (.message text) w := rfl

@[simp] theorem wp_ask (q : Query) {R : q.Answer → World → Prop} :
    Cmd.wp E I F (liftM (ask q)) R w = (I w ∧ ∀ a, E w q a → R a w) := rfl

@[simp] theorem wp_now {R : UInt64 → World → Prop} :
    Cmd.wp E I F (liftM now) R w = (I w ∧ ∀ t, E w .now t → R t w) := rfl

@[simp] theorem wp_newIdempotencyKey {R : String → World → Prop} :
    Cmd.wp E I F (liftM newIdempotencyKey) R w =
      (I w ∧ ∀ k : Key, E w .idempotencyKey k → R (encodeB64url k.bytes) w) := rfl

@[simp] theorem wp_theStore {R : Store → World → Prop} :
    Cmd.wp E I F (liftM theStore) R w = R w.store w := rfl

@[simp] theorem wp_record (event : Event) {R : Unit → World → Prop} :
    Cmd.wp E I F (record event) R w = (I w ∧ R () (w.logged event)) := rfl

theorem wp_lift {x : Except CredentialError α} {R : α → World → Prop}
    (hF : ∀ e, x = .error e → F (.credential e) w) (hR : ∀ a, x = .ok a → R a w) :
    Cmd.wp E I F (liftM (lift x)) R w := by
  cases x with
  | ok a => exact hR a rfl
  | error e => exact hF e rfl

theorem wp_lift_ok {x : Except CredentialError α} {a : α} {R : α → World → Prop} (h : x = .ok a)
    (hR : R a w) : Cmd.wp E I F (liftM (lift x)) R w := by
  rw [h]
  exact hR

/-- A write is done, has been lost, or is done but reported as a failure. -/
theorem wp_atomicOwnerWrite {change : World → World} {R : Unit → World → Prop} (hI : I w)
    (hlost : ∀ f, E w .write (.lost f) → F (.credential f.error) w)
    (hkept : ∀ f, E w .write (.kept f) → F (.credential f.error) (change w))
    (hR : R () (change w)) : Cmd.wp E I F (atomicOwnerWrite change) R w := by
  refine ⟨hI, ?_⟩
  intro outcome ho
  cases outcome with
  | written => exact ⟨hI, hR⟩
  | lost f => exact hlost f ho
  | kept f => exact ⟨hI, hkept f ho⟩

theorem wp_remove {change : Store → Store} {R : Unit → World → Prop} (hI : I w)
    (hF : ∀ f, E w .remove (some f) → F (.credential f.error) w)
    (hR : R () (w.stored (change w.store))) :
    Cmd.wp E I F (removeOwnerFileIfPresent change) R w := by
  refine ⟨hI, ?_⟩
  intro outcome ho
  cases outcome with
  | none => exact ⟨hI, hR⟩
  | some f => exact hF f ho

/-- The store's key can be read. -/
def KeyReadable (s : Store) : Prop :=
  ∃ bytes file, ownerFile List.length s.key = .ok bytes ∧ decodeIdentity bytes = .ok file

/-- A key that is read belongs to the device and the profiles it is read for, and has a
generation. -/
theorem wp_loadIdentity {deviceId releaseProfile credentialProfile : String}
    {R : DeviceIdentity → World → Prop} (hI : I w) (hF : ∀ e, ¬ KeyReadable w.store → F e w)
    (hR : ∀ i : DeviceIdentity, i.deviceId = deviceId → i.releaseProfile = releaseProfile →
      i.credentialProfile = credentialProfile → i.generation ≠ 0 → KeyReadable w.store → R i w) :
    Cmd.wp E I F (liftM (loadIdentity deviceId releaseProfile credentialProfile)) R w := by
  rw [loadIdentity, probe_bind, Cmd.wp_bind, wp_theStore, loadIdentityFile, probe_bind,
    Cmd.wp_bind]
  refine wp_lift ?_ ?_
  · rintro e he
    refine hF _ ?_
    rintro ⟨bytes, file, hb, -⟩
    rw [he] at hb
    cases hb
  intro bytes hb
  rw [probe_bind, Cmd.wp_bind]
  refine wp_lift ?_ ?_
  · rintro e he
    refine hF _ ?_
    rintro ⟨bytes', file, hb', hd⟩
    rw [hb] at hb'
    cases hb'
    rw [he] at hd
    cases hd
  intro file hfile
  have hr : KeyReadable w.store := ⟨bytes, file, hb, hfile⟩
  have hg := decodeIdentity_generation hfile
  cases file.encryptionKey with
  | some key => exact hR _ rfl rfl rfl hg hr
  | none => exact ⟨hI, fun key _ => hR _ rfl rfl rfl hg hr⟩

/-- A file of the current format is read without a question. -/
theorem wp_loadIdentityFile {bytes : Bytes} {identity : DeviceIdentity}
    {R : DeviceIdentity → World → Prop}
    (h : decodeIdentity bytes =
      .ok ⟨identity.signingKey, some identity.encryptionKey, identity.generation⟩)
    (hl : identity.legacyEncryptionKey = false) (hR : R identity w) :
    Cmd.wp E I F (liftM (loadIdentityFile (some bytes) identity.deviceId identity.releaseProfile
      identity.credentialProfile)) R w := by
  have hlen := decodeIdentity_length h
  rw [loadIdentityFile, probe_bind, Cmd.wp_bind]
  refine wp_lift_ok (a := bytes) ?_ ?_
  · rw [ownerFile, if_neg]
    simp only [MAX_CREDENTIAL_BYTES]
    omega
  · rw [probe_bind, Cmd.wp_bind]
    refine wp_lift_ok h ?_
    rw [← hl]
    exact hR

end

end Device
end EgoBridge
