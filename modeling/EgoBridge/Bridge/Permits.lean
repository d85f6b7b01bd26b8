import EgoBridge.Bridge.Remote
import EgoBridge.Protocol.Permit

/-!
# Bridge.Permits

Local permits: what `issue_permit` checks and hands out, and what `execute` does with a permit
before its process starts.

As in the supervisor, a function here is one section between two locks. `issuePermit` is the
sequence of its sections on one supervisor; clock readings, the request id and the session key
are its inputs.

* `takePermit_cases` — the permits-lock section of `execute`: refused and unchanged, expired and
  removed, or consumed and removed.
-/

namespace EgoBridge
namespace Bridge

open Protocol Json

structure PermitRequest where
  protocol : String
  messageType : String
  scriptBytes : Nat
  timeoutMs : UInt64
  cwdLabel : String
  concurrencyMode : ConcurrencyMode
  taskSpaceScope : Option String
  tabScope : Option String
  startupNonce : Option String
  deriving DecidableEq

def constantTimeTextEq (left right : String) : Bool :=
  if (utf8 left).length ≠ (utf8 right).length then false
  else ((utf8 left).zip (utf8 right)).foldl (fun difference p => difference ||| (p.1 ^^^ p.2)) 0 = 0

/-- The checks `issue_permit` makes on the request alone. -/
def checkPermitRequest (config : BridgeConfig) (r : PermitRequest) : Except BridgeError Unit :=
  if r.protocol ≠ PROTOCOL_VERSION ∨ r.messageType ≠ "permit_request" then
    .error (.protocolMessage "invalid permit request")
  else if config.brokerStartupNonce.any
      (fun expected => !constantTimeTextEq expected (r.startupNonce.getD "")) then
    .error (.protocolMessage "broker startup nonce is invalid")
  else if config.brokerStartupNonce.isNone ∧ r.startupNonce.isSome then
    .error (.protocolMessage "broker startup nonce was not configured")
  else if r.scriptBytes = 0 ∨ MAX_SCRIPT_BYTES < r.scriptBytes then
    .error (.protocolMessage "script exceeds limit")
  else if r.timeoutMs = 0 ∨ MAX_EXECUTE_TIMEOUT_MS < r.timeoutMs then
    .error (.protocolMessage "timeout exceeds limit")
  else if r.cwdLabel.isEmpty ∨ 128 < (utf8 r.cwdLabel).length ∨ containsText ".." r.cwdLabel then
    .error (.protocolMessage "invalid cwd label")
  else .ok ()

/-- The permit of an admitted request. Its scope is the normalized one. -/
def permitFor (config : BridgeConfig) (generation sequence nowMillis : UInt64)
    (requestId : OpaqueId) (r : PermitRequest) : Except BridgeError RequestPermit :=
  let scope := RequestScope.normalized (some r.concurrencyMode) r.taskSpaceScope r.tabScope
  if scope.mode ≠ .binding ∧ scope.taskSpace ≠ some config.defaultTaskSpace then
    .error (.protocolMessage "task space scope is not dedicated to the tool session")
  else
    .ok
      { bindingId := config.bindingId
        generation := generation
        requestId := requestId.text
        sequence := sequence
        expiresAtUnixMs := satAdd nowMillis 20000
        maxPayloadBytes := 16 * 1024 * 1024
        maxScriptBytes := MAX_SCRIPT_BYTES
        defaultTaskSpace := config.defaultTaskSpace
        allowlistRevision := config.allowlistRevision
        learningBundleDigest := config.learningBundleDigest
        concurrencyMode := scope.mode
        taskSpaceScope := scope.taskSpace
        tabScope := scope.tab }

def checkScope (request : InnerExecuteRequest) (permit : RequestPermit) :
    Except BridgeError RequestScope :=
  let scope := RequestScope.normalized (some request.concurrencyMode) request.taskSpaceScope
    request.tabScope
  if request.concurrencyMode ≠ permit.concurrencyMode ∨ scope.taskSpace ≠ permit.taskSpaceScope ∨
      scope.tab ≠ permit.tabScope then
    .error (.protocolMessage "request scope does not match permit")
  else .ok scope

/-- What `execute` does between the permit and the scheduler: it opens and checks the request. -/
def openLocal (c : Primitives) (config : BridgeConfig) (e : OuterEnvelope) (key : Key)
    (permit : RequestPermit) (nowMillis : UInt64) :
    Except BridgeError (InnerExecuteRequest × RequestScope) := do
  let (ciphertext, nonce, tag) ← orProtocol e.decodedPayload
  let plaintext ← orProtocol (c.openDetached key nonce ciphertext tag (aadForOuter e))
  match parseStrictJson InnerExecuteRequest.ofJson plaintext with
  | .error error => .error (.protocolMessage error.message)
  | .ok request => do
    orProtocol (request.validate config.capability)
    if request.defaultTaskSpace ≠ config.defaultTaskSpace then
      .error (.protocolMessage "request Task Space does not match the binding")
    else do
      orProtocol (permit.validate config.capability nowMillis (utf8 request.script).length)
      if MAX_SCRIPT_BYTES < (utf8 request.script).length ∨
          permit.maxScriptBytes < (utf8 request.script).length then
        .error (.protocolMessage "script exceeds limit")
      else do
        let scope ← checkScope request permit
        .ok (request, scope)

theorem openLocal_opened {c : Primitives} {config : BridgeConfig} {e : OuterEnvelope} {key : Key}
    {request : InnerExecuteRequest} {ciphertext nonce tag : Bytes}
    (hp : e.Carries ciphertext nonce tag)
    (hopen : c.openDetached key nonce ciphertext tag (aadForOuter e) =
      .ok (canonicalJson request.toJson))
    (hv : request.validate config.capability = .ok ())
    (hspace : request.defaultTaskSpace = config.defaultTaskSpace) (permit : RequestPermit)
    (nowMillis : UInt64) :
    openLocal c config e key permit nowMillis =
      (orProtocol (permit.validate config.capability nowMillis (utf8 request.script).length)).bind
        fun _ =>
          if MAX_SCRIPT_BYTES < (utf8 request.script).length ∨
              permit.maxScriptBytes < (utf8 request.script).length then
            .error (.protocolMessage "script exceeds limit")
          else (checkScope request permit).bind fun scope => .ok (request, scope) := by
  have hparse : parseStrictJson InnerExecuteRequest.ofJson (canonicalJson request.toJson) =
      .ok request :=
    request.codec.parse (by decide)
  rw [openLocal, hp.decodedPayload, orProtocol, ok_bind]
  dsimp only
  rw [hopen, orProtocol, ok_bind, hparse]
  dsimp only
  rw [hv, orProtocol, ok_bind, if_neg (not_not.mpr hspace)]
  rfl

namespace Supervisor

/-! ## Issuing -/

/-- `issue_permit` up to the lease. -/
def checkIssue (s : Supervisor) (r : PermitRequest) : Except BridgeError Unit := do
  checkPermitRequest s.config r
  if s.cancelled then .error .revoked else .ok ()

def admitIssue (s : Supervisor) (now : UInt64) : Except BridgeError Unit :=
  match s.lease.admitAt now .default with
  | .allowed => .ok ()
  | .renewalRequired => .error .leaseRenewalRequired
  | .expired => .error .leaseExpired
  | .bindingRevoked => .error .revoked

/-- `next_sequence`. -/
def takeSequence (s : Supervisor) : Supervisor × Except BridgeError UInt64 :=
  if s.nextSequence = 0xffffffffffffffff then (s, .error (.protocolMessage "sequence exhausted"))
  else ({ s with nextSequence := s.nextSequence + 1 }, .ok (s.nextSequence + 1))

/-- Build a permit and enter it in the table. -/
def storePermit (s : Supervisor) (r : PermitRequest) (sequence nowMillis : UInt64)
    (requestId : OpaqueId) (key : Key) : Supervisor × Except BridgeError (Key × RequestPermit) :=
  match permitFor s.config s.lease.generation sequence nowMillis requestId r with
  | .error e => (s, .error e)
  | .ok permit =>
    ({ s with issuedPermits := s.issuedPermits.insert sequence ⟨permit, key⟩ }, .ok (key, permit))

/-- Issue a one-time permit for a wrapper request. -/
def issuePermit (s : Supervisor) (r : PermitRequest) (now nowMillis : UInt64)
    (requestId : OpaqueId) (key : Key) : Supervisor × Except BridgeError (Key × RequestPermit) :=
  match s.checkIssue r with
  | .error e => (s, .error e)
  | .ok () =>
    match s.admitIssue now with
    | .error e => (s, .error e)
    | .ok () =>
      match s.takeSequence with
      | (s, .error e) => (s, .error e)
      | (s, .ok sequence) => s.storePermit r sequence nowMillis requestId key

/-! ## Using -/

/-- `execute` up to the lease. -/
def checkExecute (s : Supervisor) (e : OuterEnvelope) : Except BridgeError Unit := do
  orProtocol (e.validate (16 * 1024 * 1024))
  if e.messageType ≠ .execute ∨ e.direction ≠ .request then
    .error (.protocolMessage "invalid execute envelope")
  else if s.cancelled then .error .revoked
  else .ok ()

def consumePermit (s : Supervisor) (sequence : UInt64) : Supervisor :=
  { s with issuedPermits := s.issuedPermits.erase sequence }

/-- The permits-lock section of `execute`. -/
def takePermit (s : Supervisor) (e : OuterEnvelope) (key : Key) (nowMillis : UInt64) :
    Supervisor × Except BridgeError IssuedPermit :=
  match s.issuedPermits.lookup e.sequence with
  | none => (s, .error (if e.sequence ∈ s.consumedSequences then .replay else .revoked))
  | some issued =>
    if issued.permit.bindingId ≠ e.bindingId ∨ issued.permit.generation ≠ e.generation ∨
        issued.permit.requestId ≠ e.requestId ∨ issued.permit.sequence ≠ e.sequence then
      (s, .error (.protocolMessage "permit and request identity mismatch"))
    else if issued.key ≠ key then (s, .error (.protocolMessage "invalid session key"))
    else if issued.permit.maxPayloadBytes < e.payloadBytes then (s, .error (.protocol .frameTooLarge))
    else if issued.permit.expiresAtUnixMs ≤ nowMillis then
      (s.consumePermit e.sequence, .error .leaseExpired)
    else (s.consumePermit e.sequence, .ok issued)

/-- `consumed_sequences.insert`. -/
def markConsumed (s : Supervisor) (sequence : UInt64) : Supervisor :=
  { s with consumedSequences := insert sequence s.consumedSequences }

/-- The guard of a request, or what it is refused with. -/
def acquireLocal (s : Supervisor) (e : OuterEnvelope) (scope : RequestScope) :
    Supervisor × Except BridgeError PermitGuard :=
  match s.scheduler.tryAcquire e.generation e.requestId scope with
  | .ok (guard, scheduler) => ({ s with scheduler := scheduler }, .ok guard)
  | .error .conflict => (s, .error .concurrency)
  | .error .limitReached => (s, .error .concurrency)
  | .error _ => (s, .error .unavailable)

end Supervisor

/-! ## What one section does -/

/-- The unencrypted identity of an envelope is that of the permit, and so is its key. -/
structure IssuedPermit.Admits (issued : IssuedPermit) (e : OuterEnvelope) (key : Key) : Prop where
  bindingId : issued.permit.bindingId = e.bindingId
  generation : issued.permit.generation = e.generation
  requestId : issued.permit.requestId = e.requestId
  sequence : issued.permit.sequence = e.sequence
  key : issued.key = key
  payload : e.payloadBytes ≤ issued.permit.maxPayloadBytes

namespace Supervisor

theorem takePermit_cases (s : Supervisor) (e : OuterEnvelope) (key : Key) (nowMillis : UInt64) :
    (∃ error, error ≠ .leaseExpired ∧ s.takePermit e key nowMillis = (s, .error error)) ∨
    (∃ issued, s.issuedPermits.lookup e.sequence = some issued ∧ issued.Admits e key ∧
      issued.permit.expiresAtUnixMs ≤ nowMillis ∧
      s.takePermit e key nowMillis = (s.consumePermit e.sequence, .error .leaseExpired)) ∨
    (∃ issued, s.issuedPermits.lookup e.sequence = some issued ∧ issued.Admits e key ∧
      nowMillis < issued.permit.expiresAtUnixMs ∧
      s.takePermit e key nowMillis = (s.consumePermit e.sequence, .ok issued)) := by
  unfold takePermit
  split
  · exact .inl ⟨_, by split <;> nofun, rfl⟩
  rename_i issued hissued
  split
  · exact .inl ⟨.protocolMessage _, nofun, rfl⟩
  rename_i hid
  split
  · exact .inl ⟨.protocolMessage _, nofun, rfl⟩
  rename_i hkey
  split
  · exact .inl ⟨.protocol _, nofun, rfl⟩
  rename_i hpayload
  simp only [not_or, not_not, ne_eq, Nat.not_lt] at hid hkey hpayload
  have hadmits : issued.Admits e key :=
    ⟨hid.1, hid.2.1, hid.2.2.1, hid.2.2.2, hkey, hpayload⟩
  split
  · rename_i hexpired
    exact .inr (.inl ⟨issued, hissued, hadmits, hexpired, rfl⟩)
  · rename_i hexpired
    exact .inr (.inr ⟨issued, hissued, hadmits, UInt64.not_le.mp hexpired, rfl⟩)

/-- A permit in the table is good for one use by its own request before it expires. -/
theorem takePermit_of_admits {s : Supervisor} {e : OuterEnvelope} {key : Key} {nowMillis : UInt64}
    {issued : IssuedPermit} (hl : s.issuedPermits.lookup e.sequence = some issued)
    (ha : issued.Admits e key) (ht : nowMillis < issued.permit.expiresAtUnixMs) :
    s.takePermit e key nowMillis = (s.consumePermit e.sequence, .ok issued) := by
  simp only [takePermit, hl]
  rw [if_neg (by simp [ha.bindingId, ha.generation, ha.requestId, ha.sequence]),
    if_neg (by simp [ha.key]), if_neg (Nat.not_lt.mpr ha.payload), if_neg (UInt64.not_le.mpr ht)]

theorem takePermit_otherKey {s : Supervisor} {e : OuterEnvelope} {key : Key} {nowMillis : UInt64}
    {issued : IssuedPermit} (hl : s.issuedPermits.lookup e.sequence = some issued)
    (ha : issued.Admits e issued.key) (hne : issued.key ≠ key) :
    s.takePermit e key nowMillis = (s, .error (.protocolMessage "invalid session key")) := by
  simp only [takePermit, hl]
  rw [if_neg (by simp [ha.bindingId, ha.generation, ha.requestId, ha.sequence]), if_pos hne]

theorem takeSequence_cases (s : Supervisor) :
    (∃ error, s.takeSequence = (s, .error error)) ∨
    (s.nextSequence < s.nextSequence + 1 ∧
      s.takeSequence = ({ s with nextSequence := s.nextSequence + 1 }, .ok (s.nextSequence + 1))) := by
  unfold takeSequence
  split
  · exact .inl ⟨_, rfl⟩
  · rename_i h
    refine .inr ⟨?_, rfl⟩
    have hmax : s.nextSequence.toNat ≠ 0xffffffffffffffff := fun he => h (UInt64.toNat_inj.mp he)
    have := s.nextSequence.toNat_lt
    rw [UInt64.lt_iff_toNat_lt, UInt64.toNat_add, UInt64.toNat_one]
    omega

theorem storePermit_cases (s : Supervisor) (r : PermitRequest) (sequence nowMillis : UInt64)
    (requestId : OpaqueId) (key : Key) :
    (∃ error, s.storePermit r sequence nowMillis requestId key = (s, .error error)) ∨
    (∃ permit, permitFor s.config s.lease.generation sequence nowMillis requestId r = .ok permit ∧
      s.storePermit r sequence nowMillis requestId key =
        ({ s with issuedPermits := s.issuedPermits.insert sequence ⟨permit, key⟩ },
          .ok (key, permit))) := by
  unfold storePermit
  cases permitFor s.config s.lease.generation sequence nowMillis requestId r with
  | error e => exact .inl ⟨e, rfl⟩
  | ok permit => exact .inr ⟨permit, rfl, rfl⟩

theorem acquireLocal_fst (s : Supervisor) (e : OuterEnvelope) (scope : RequestScope) :
    ∃ scheduler, (s.acquireLocal e scope).1 = { s with scheduler := scheduler } := by
  unfold acquireLocal
  split
  · exact ⟨_, rfl⟩
  all_goals exact ⟨s.scheduler, rfl⟩

end Supervisor

end Bridge
end EgoBridge
