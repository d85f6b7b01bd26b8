import EgoBridge.Bridge.Execution
import EgoBridge.Protocol.Crypto

/-!
# Bridge.Remote

Relay requests: preparing an execution, sealing its answer, cancelling it by its own key.

`prepareRemoteExecution` is the sequence of the source's sections on one supervisor. Its inputs
are the clock, the outcome of persisting the sequence number, the second look at the signal and
the nonce of an answer.

* `prepare_running` — what a started request went through.
* `prepare_starts`  — a new request, acceptable and sealed for this binding, is started.
* `cancel_accepted` — what an accepted cancellation went through.
-/

namespace EgoBridge
namespace Bridge

open Protocol Json

/-- The future `prepare_remote_execution` returns: ready, or running a registered request. -/
inductive RemoteExecution where
  | answered (response : OuterEnvelope)
  | running (request : InnerExecuteRequest) (guard : PermitGuard) (envelope : OuterEnvelope)
      (sessionKey : Key)
  deriving DecidableEq

/-- `map_err(BridgeError::Protocol)`. -/
def orProtocol {α : Type} : Except ProtocolError α → Except BridgeError α
  | .error e => .error (.protocol e)
  | .ok a => .ok a

theorem orProtocol_ok {α : Type} {x : Except ProtocolError α} {a : α}
    (h : orProtocol x = .ok a) : x = .ok a := by
  cases x with
  | error e => cases h
  | ok b => cases h; rfl

section

variable (c : Primitives)

/-! ## Sealing answers -/

/-- The answer to `request` before it is sealed. `size` is the length of its plaintext. -/
def responseEnvelope (request : OuterEnvelope) (size : Nat) : OuterEnvelope where
  protocol := PROTOCOL_VERSION
  channel := "ego_browser_bridge"
  relayBindingKind := "ego_browser"
  messageType := .executeResult
  requestId := request.requestId
  bindingId := request.bindingId
  generation := request.generation
  sequence := request.sequence
  direction := .response
  payloadBytes := size
  nonce := ""
  ciphertext := ""
  authTag := ""
  keyWrap := ""

def sealResponse (inner : InnerExecuteResponse) (request : OuterEnvelope) (key : Key)
    (nonce : Nonce) : Except BridgeError OuterEnvelope :=
  let plaintext := canonicalJson inner.toJson
  let envelope := responseEnvelope request plaintext.length
  match c.sealDetached key nonce plaintext (aadForOuter envelope) with
  | .error e => .error (.protocol e)
  | .ok (nonce, ciphertext, tag) =>
    .ok
      { envelope with
        payloadBytes := ciphertext.length
        nonce := encodeB64url nonce
        ciphertext := encodeB64url ciphertext
        authTag := encodeB64url tag }

/-- The answer to `request` with `n` bytes of plaintext sealed in `text`. -/
def sealedEnvelope (request : OuterEnvelope) (n : Nat) (nonce : Nonce) (text : Bytes) :
    OuterEnvelope :=
  { responseEnvelope request n with
    nonce := encodeB64url nonce.bytes
    ciphertext := encodeB64url (text.take n)
    authTag := encodeB64url (text.drop n) }

theorem sealResponse_ok {c : Primitives} (hc : c.Lawful) {inner : InnerExecuteResponse}
    {request e : OuterEnvelope} {key : Key} {nonce : Nonce} {n : Nat}
    (hn : (canonicalJson inner.toJson).length = n) :
    sealResponse c inner request key nonce = .ok e ↔
      ∃ text, c.encrypt key nonce.bytes (aadForOuter (responseEnvelope request n))
        (canonicalJson inner.toJson) = some text ∧ e = sealedEnvelope request n nonce text := by
  rw [sealResponse, Primitives.sealDetached, hn]
  cases ht : c.encrypt key nonce.bytes (aadForOuter (responseEnvelope request n))
    (canonicalJson inner.toJson) with
  | none => simp
  | some text =>
    have hl : text.length = n + 16 := by rw [hc.length ht, hn]
    have hs : text.length - 16 = n := by omega
    have hm : min n text.length = n := by omega
    simp only [if_neg (show ¬ text.length < 16 by omega), hs, List.length_take, hm,
      Except.ok.injEq, Option.some.injEq, exists_eq_left']
    exact eq_comm

def statusResponse (status : ExecutionStatus) (request : OuterEnvelope) (durationMs : UInt64) :
    InnerExecuteResponse where
  protocol := INNER_PROTOCOL_VERSION
  messageType := .executeResult
  requestId := request.requestId
  sequence := request.sequence
  status := status
  exitCode := none
  stdout := ""
  stderr := ""
  artifacts := []
  durationMs := durationMs

def sealStatusResponse (status : ExecutionStatus) (request : OuterEnvelope) (key : Key)
    (nonce : Nonce) : Except BridgeError OuterEnvelope :=
  sealResponse c (statusResponse status request 0) request key nonce

/-- The inner response of a finished process. -/
def processResponse (result : ProcessResult) (stdout stderr : String) (durationMs : UInt64)
    (request : OuterEnvelope) : InnerExecuteResponse where
  protocol := INNER_PROTOCOL_VERSION
  messageType := .executeResult
  requestId := request.requestId
  sequence := request.sequence
  status := result.status
  exitCode := result.exitCode
  stdout := stdout
  stderr := stderr
  artifacts := result.artifacts
  durationMs := durationMs

/-! ## Preparing an execution -/

/-- The key and the request of an envelope. No request is a malformed or unacceptable one. -/
def openRemote (config : BridgeConfig) (e : OuterEnvelope) (encryptionSecret : Key) :
    Except BridgeError (Key × Option InnerExecuteRequest) := do
  let key ← orProtocol
    (unwrapSessionKey c e.keyWrap encryptionSecret e.bindingId e.generation e.requestId e.sequence)
  let (ciphertext, nonce, tag) ← orProtocol e.decodedPayload
  let plaintext ← orProtocol (c.openDetached key nonce ciphertext tag (aadForOuter e))
  match parseStrictJson InnerExecuteRequest.ofJson plaintext with
  | .error _ => .ok (key, none)
  | .ok request =>
    if request.validate config.capability ≠ .ok () ∨ 16 * 1024 * 1024 < e.payloadBytes ∨
        MAX_SCRIPT_BYTES < (utf8 request.script).length ∨
        request.defaultTaskSpace ≠ config.defaultTaskSpace then
      .ok (key, none)
    else .ok (key, some request)

/-- The inner request of a cancellation under the key of a running request. -/
def openCancel (e : OuterEnvelope) (sessionKey : Key) : Except BridgeError InnerCancelRequest := do
  let (ciphertext, nonce, tag) ← orProtocol e.decodedPayload
  let plaintext ← orProtocol (c.openDetached sessionKey nonce ciphertext tag (aadForOuter e))
  match parseStrictJson InnerCancelRequest.ofJson plaintext with
  | .error error => .error (.protocolMessage error.message)
  | .ok cancel => do
    orProtocol cancel.validate
    if cancel.requestId ≠ e.requestId ∨ cancel.sequence ≠ e.sequence then
      .error (.protocolMessage "cancel inner identity mismatch")
    else .ok cancel

namespace Supervisor

/-- `prepare_remote_execution` up to the reservation. -/
def checkRemote (s : Supervisor) (e : OuterEnvelope) (now : UInt64) : Except BridgeError Unit := do
  orProtocol (e.validate (16 * 1024 * 1024))
  orProtocol e.validateKeyWrap
  if e.messageType ≠ .execute ∨ e.direction ≠ .request then
    .error (.protocolMessage "invalid remote execute envelope")
  else if s.cancelled then .error .revoked
  else if e.bindingId ≠ s.config.bindingId then
    .error (.protocolMessage "remote envelope binding does not match bridge configuration")
  else Execution.leaseAdmits s e.generation now

/-- `persisted` is what persisting the number returns, if it comes to it. -/
def reserveRemoteSequence (s : Supervisor) (sequence : UInt64)
    (persisted : Except BridgeError Unit) : Supervisor × Except BridgeError Unit :=
  if sequence ≤ s.highestRemoteSequence then (s, .error .replay)
  else
    match persisted with
    | .error e => (s, .error e)
    | .ok () => ({ s with highestRemoteSequence := sequence }, .ok ())

/-- The guard of a request, or the status it is answered with. -/
def acquireRemote (s : Supervisor) (e : OuterEnvelope) (request : InnerExecuteRequest) :
    Supervisor × Except ExecutionStatus PermitGuard :=
  let scope := RequestScope.normalized (some request.concurrencyMode) request.taskSpaceScope
    request.tabScope
  match s.scheduler.tryAcquire e.generation e.requestId scope with
  | .ok (guard, scheduler) => ({ s with scheduler := scheduler }, .ok guard)
  | .error .conflict => (s, .error .concurrencyConflict)
  | .error .limitReached => (s, .error .concurrencyConflict)
  | .error _ => (s, .error .bridgeUnavailable)

def dropGuard (s : Supervisor) (guard : PermitGuard) : Supervisor :=
  { s with scheduler := s.scheduler.release guard }

def registerRemote (s : Supervisor) (e : OuterEnvelope) (sessionKey : Key) :
    Supervisor × Except BridgeError Unit :=
  if RemoteRequestKey.fromEnvelope e ∈ s.activeRemoteRequests then (s, .error .replay)
  else
    ({ s with
        activeRemoteRequests :=
          s.activeRemoteRequests.insert (.fromEnvelope e) ⟨false, sessionKey⟩ }, .ok ())

/-- The sections after the reservation. -/
def launchRemote (s : Supervisor) (e : OuterEnvelope) (encryptionSecret : Key)
    (cancelledLater : Bool) (nonce : Nonce) : Supervisor × Except BridgeError RemoteExecution :=
  match openRemote c s.config e encryptionSecret with
  | .error error => (s, .error error)
  | .ok (key, none) => (s, (sealStatusResponse c .protocolError e key nonce).map .answered)
  | .ok (key, some request) =>
    match s.acquireRemote e request with
    | (s, .error status) => (s, (sealStatusResponse c status e key nonce).map .answered)
    | (s, .ok guard) =>
      if cancelledLater then
        (s.dropGuard guard, (sealStatusResponse c .bindingRevoked e key nonce).map .answered)
      else
        match s.registerRemote e key with
        | (s, .error error) => (s.dropGuard guard, .error error)
        | (s, .ok ()) => (s, .ok (.running request guard e key))

/-- Validate and prepare a request received from the authenticated outbound relay. -/
def prepareRemoteExecution (s : Supervisor) (e : OuterEnvelope) (encryptionSecret : Key)
    (now : UInt64) (persisted : Except BridgeError Unit) (cancelledLater : Bool) (nonce : Nonce) :
    Supervisor × Except BridgeError RemoteExecution :=
  match s.checkRemote e now with
  | .error error => (s, .error error)
  | .ok () =>
    match s.reserveRemoteSequence e.sequence persisted with
    | (s, .error error) => (s, .error error)
    | (s, .ok ()) => s.launchRemote c e encryptionSecret cancelledLater nonce

/-! ## Cancelling and forgetting -/

/-- `cancel_remote_request` up to the registry. -/
def checkCancel (s : Supervisor) (e : OuterEnvelope) : Except BridgeError Unit := do
  orProtocol (e.validate (16 * 1024 * 1024))
  if e.messageType ≠ .cancel ∨ e.direction ≠ .request ∨ ¬ e.keyWrap.isEmpty ∨
      e.bindingId ≠ s.config.bindingId then
    .error (.protocolMessage "invalid remote cancel envelope")
  else if e.generation ≠ s.lease.generation ∨ s.lease.revoked then .error .revoked
  else .ok ()

/-- Authenticate and cancel exactly one active relay request. -/
def cancelRemoteRequest (s : Supervisor) (e : OuterEnvelope) :
    Supervisor × Except BridgeError Bool :=
  match s.checkCancel e with
  | .error error => (s, .error error)
  | .ok () =>
    match s.activeRemoteRequests.lookup (.fromEnvelope e) with
    -- a cancellation can cross an already sealed terminal response
    | none => (s, .ok false)
    | some active =>
      match openCancel c e active.sessionKey with
      | .error error => (s, .error error)
      | .ok _ =>
        ({ s with
            activeRemoteRequests :=
              s.activeRemoteRequests.insert (.fromEnvelope e) { active with cancelled := true } },
          .ok true)

/-- Forget request-level cancellation material after its response is sent. -/
def finishRemoteRequest (s : Supervisor) (e : OuterEnvelope) : Supervisor :=
  { s with activeRemoteRequests := s.activeRemoteRequests.erase (.fromEnvelope e) }

/-- Clear all request-level keys once generation-wide cancellation is reaped. -/
def clearRemoteRequests (s : Supervisor) : Supervisor := { s with activeRemoteRequests := ∅ }

end Supervisor

end

/-! ## What accepted requests went through -/

def Opens (c : Primitives) (key : Key) (e : OuterEnvelope) (plaintext : Bytes) : Prop :=
  ∃ ciphertext nonce tag, e.Carries ciphertext nonce tag ∧
    c.decrypt key nonce (aadForOuter e) (ciphertext ++ tag) = some plaintext

theorem Opens.of_openDetached {c : Primitives} {key : Key} {e : OuterEnvelope}
    {ciphertext nonce tag plaintext : Bytes}
    (hp : e.decodedPayload = .ok (ciphertext, nonce, tag))
    (h : c.openDetached key nonce ciphertext tag (aadForOuter e) = .ok plaintext) :
    Opens c key e plaintext := by
  refine ⟨ciphertext, nonce, tag, OuterEnvelope.carries_of_decodedPayload hp, ?_⟩
  unfold Primitives.openDetached at h
  split at h
  · cases h
  · split at h
    · cases h
    · rename_i hd
      cases h
      exact hd

theorem openRemote_some {c : Primitives} {config : BridgeConfig} {e : OuterEnvelope}
    {encryptionSecret key : Key} {request : InnerExecuteRequest}
    (h : openRemote c config e encryptionSecret = .ok (key, some request)) :
    unwrapSessionKey c e.keyWrap encryptionSecret e.bindingId e.generation e.requestId e.sequence =
      .ok key ∧
    (∃ plaintext, Opens c key e plaintext ∧
      parseStrictJson InnerExecuteRequest.ofJson plaintext = .ok request) ∧
    request.validate config.capability = .ok () ∧
    request.defaultTaskSpace = config.defaultTaskSpace := by
  obtain ⟨k, hk, h⟩ := bind_ok h
  obtain ⟨⟨ciphertext, nonce, tag⟩, hp, h⟩ := bind_ok h
  obtain ⟨plaintext, ho, h⟩ := bind_ok h
  split at h
  · cases h
  · rename_i r hr
    split at h
    · cases h
    · rename_i hv
      cases h
      simp only [ne_eq, not_or, not_not] at hv
      exact ⟨orProtocol_ok hk,
        ⟨plaintext, .of_openDetached (orProtocol_ok hp) (orProtocol_ok ho), hr⟩, hv.1, hv.2.2.2⟩

theorem openRemote_sealed {c : Primitives} {config : BridgeConfig} {e : OuterEnvelope}
    {encryptionSecret key : Key} {request : InnerExecuteRequest} {ciphertext nonce tag : Bytes}
    (hu : unwrapSessionKey c e.keyWrap encryptionSecret e.bindingId e.generation e.requestId
      e.sequence = .ok key)
    (hp : e.Carries ciphertext nonce tag) (hn : nonce.length = 12) (ht : tag.length = 16)
    (hd : c.decrypt key nonce (aadForOuter e) (ciphertext ++ tag) =
      some (canonicalJson request.toJson))
    (hv : request.validate config.capability = .ok ())
    (hbytes : e.payloadBytes ≤ 16 * 1024 * 1024)
    (hscript : (utf8 request.script).length ≤ MAX_SCRIPT_BYTES)
    (hspace : request.defaultTaskSpace = config.defaultTaskSpace) :
    openRemote c config e encryptionSecret = .ok (key, some request) := by
  have hopen : c.openDetached key nonce ciphertext tag (aadForOuter e) =
      .ok (canonicalJson request.toJson) := by
    rw [Primitives.openDetached, if_neg (by simp [hn, ht]), hd]
  have hparse : parseStrictJson InnerExecuteRequest.ofJson (canonicalJson request.toJson) =
    .ok request := request.codec.parse (by decide)
  rw [openRemote, hu, orProtocol, ok_bind, hp.decodedPayload, orProtocol, ok_bind]
  dsimp only
  rw [hopen, orProtocol, ok_bind, hparse]
  dsimp only
  rw [if_neg]
  simp only [hv, hspace, ne_eq, not_true_eq_false, false_or, or_false, not_or, Nat.not_lt]
  exact ⟨hbytes, hscript⟩

namespace Supervisor

structure RemoteChecked (s : Supervisor) (e : OuterEnvelope) : Prop where
  valid : e.Valid (16 * 1024 * 1024)
  messageType : e.messageType = .execute
  direction : e.direction = .request
  lowered : s.cancelled = false
  bindingId : e.bindingId = s.config.bindingId
  generation : e.generation = s.lease.generation
  unrevoked : s.lease.revoked = false

theorem checkRemote_ok {s : Supervisor} {e : OuterEnvelope} {now : UInt64}
    (h : s.checkRemote e now = .ok ()) : s.RemoteChecked e := by
  obtain ⟨_, hv, h⟩ := bind_ok h
  obtain ⟨_, hk, h⟩ := bind_ok h
  obtain ⟨hm, hd, _⟩ := OuterEnvelope.validateKeyWrap_ok (orProtocol_ok hk)
  split at h
  · cases h
  · split at h
    · cases h
    · rename_i hc
      split at h
      · cases h
      · rename_i hb
        unfold Execution.leaseAdmits at h
        split at h
        · cases h
        · rename_i hg
          simp only [not_or, not_not, Bool.not_eq_true] at hg
          exact ⟨OuterEnvelope.validate_ok.mp (orProtocol_ok hv), hm, hd, by simpa using hc,
            not_not.mp hb, hg.1, hg.2⟩

theorem reserveRemoteSequence_ok {s s' : Supervisor} {sequence : UInt64}
    {persisted : Except BridgeError Unit}
    (h : s.reserveRemoteSequence sequence persisted = (s', .ok ())) :
    s.highestRemoteSequence < sequence ∧ persisted = .ok () ∧
      s' = { s with highestRemoteSequence := sequence } := by
  unfold reserveRemoteSequence at h
  split at h
  · cases h
  · rename_i hlt
    split at h
    · cases h
    · cases h
      exact ⟨UInt64.not_le.mp hlt, rfl, rfl⟩

theorem acquireRemote_fst (s : Supervisor) (e : OuterEnvelope) (request : InnerExecuteRequest) :
    ∃ scheduler, (s.acquireRemote e request).1 = { s with scheduler := scheduler } := by
  unfold acquireRemote
  dsimp only
  split
  · exact ⟨_, rfl⟩
  all_goals exact ⟨s.scheduler, rfl⟩

/-- A started request was opened, and is registered under a key that was free. -/
theorem launch_running {c : Primitives} {s s' : Supervisor} {e e' : OuterEnvelope}
    {encryptionSecret key : Key} {cancelledLater : Bool} {nonce : Nonce}
    {request : InnerExecuteRequest} {guard : PermitGuard}
    (h : s.launchRemote c e encryptionSecret cancelledLater nonce =
      (s', .ok (.running request guard e' key))) :
    openRemote c s.config e encryptionSecret = .ok (key, some request) ∧ e' = e ∧
      cancelledLater = false ∧ .fromEnvelope e ∉ s.activeRemoteRequests ∧
      ∃ scheduler, s' = { s with
        scheduler := scheduler
        activeRemoteRequests :=
          s.activeRemoteRequests.insert (.fromEnvelope e) ⟨false, key⟩ } := by
  unfold launchRemote at h
  split at h
  · cases h
  · rename_i k _
    cases hs : sealStatusResponse c .protocolError e k nonce <;> rw [hs] at h <;> cases h
  · rename_i k r ho
    obtain ⟨scheduler, ha⟩ := s.acquireRemote_fst e r
    split at h
    · rename_i s1 status _
      cases hs : sealStatusResponse c status e k nonce <;> rw [hs] at h <;> cases h
    · rename_i s1 g hg
      rw [hg] at ha
      cases ha
      split at h
      · cases hs : sealStatusResponse c .bindingRevoked e k nonce <;> rw [hs] at h <;> cases h
      · rename_i hl
        unfold registerRemote at h
        split at h
        · cases h
        · rename_i s2 hreg
          split at hreg
          · cases hreg
          · rename_i hfree
            cases hreg
            cases h
            exact ⟨ho, rfl, by simpa using hl, hfree, scheduler, rfl⟩

theorem prepare_running {c : Primitives} {s s' : Supervisor} {e e' : OuterEnvelope}
    {encryptionSecret key : Key} {now : UInt64} {persisted : Except BridgeError Unit}
    {cancelledLater : Bool} {nonce : Nonce} {request : InnerExecuteRequest} {guard : PermitGuard}
    (h : s.prepareRemoteExecution c e encryptionSecret now persisted cancelledLater nonce =
      (s', .ok (.running request guard e' key))) :
    s.RemoteChecked e ∧ s.highestRemoteSequence < e.sequence ∧
      openRemote c s.config e encryptionSecret = .ok (key, some request) ∧ e' = e ∧
      s'.activeRemoteRequests.lookup (.fromEnvelope e) = some ⟨false, key⟩ := by
  unfold prepareRemoteExecution at h
  split at h
  · cases h
  · rename_i hc
    split at h
    · cases h
    · rename_i s1 hr
      obtain ⟨hlt, _, rfl⟩ := reserveRemoteSequence_ok hr
      obtain ⟨ho, he, _, _, scheduler, rfl⟩ := launch_running h
      exact ⟨checkRemote_ok hc, hlt, ho, he, Finmap.lookup_insert _⟩

theorem prepare_starts {c : Primitives} {s : Supervisor} {e : OuterEnvelope}
    {encryptionSecret key : Key} {now : UInt64} {nonce : Nonce} {request : InnerExecuteRequest}
    {guard : PermitGuard} {scheduler : Scheduler} (hc : s.checkRemote e now = .ok ())
    (hseq : s.highestRemoteSequence < e.sequence)
    (ho : openRemote c s.config e encryptionSecret = .ok (key, some request))
    (hg : s.scheduler.tryAcquire e.generation e.requestId
      (.normalized (some request.concurrencyMode) request.taskSpaceScope request.tabScope) =
        .ok (guard, scheduler))
    (hfree : .fromEnvelope e ∉ s.activeRemoteRequests) :
    (s.prepareRemoteExecution c e encryptionSecret now (.ok ()) false nonce).2 =
      .ok (.running request guard e key) := by
  have hacq : ({ s with highestRemoteSequence := e.sequence } : Supervisor).acquireRemote e
      request = ({ s with highestRemoteSequence := e.sequence, scheduler := scheduler },
        .ok guard) := by
    rw [acquireRemote]
    dsimp only
    rw [hg]
  rw [prepareRemoteExecution, hc]
  dsimp only
  rw [reserveRemoteSequence, if_neg (UInt64.not_le.mpr hseq)]
  dsimp only
  rw [launchRemote, ho]
  dsimp only
  rw [hacq]
  dsimp only
  rw [if_neg (by decide), registerRemote, if_neg hfree]

structure CancelChecked (s : Supervisor) (e : OuterEnvelope) : Prop where
  valid : e.Valid (16 * 1024 * 1024)
  messageType : e.messageType = .cancel
  direction : e.direction = .request
  bindingId : e.bindingId = s.config.bindingId
  generation : e.generation = s.lease.generation
  unrevoked : s.lease.revoked = false

theorem checkCancel_ok {s : Supervisor} {e : OuterEnvelope} (h : s.checkCancel e = .ok ()) :
    s.CancelChecked e := by
  obtain ⟨_, hv, h⟩ := bind_ok h
  split at h
  · cases h
  · rename_i ht
    split at h
    · cases h
    · rename_i hg
      simp only [not_or, not_not, Bool.not_eq_true] at ht hg
      exact ⟨OuterEnvelope.validate_ok.mp (orProtocol_ok hv), ht.1, ht.2.1, ht.2.2.2, hg.1, hg.2⟩

end Supervisor

theorem openCancel_ok {c : Primitives} {e : OuterEnvelope} {sessionKey : Key}
    {cancel : InnerCancelRequest} (h : openCancel c e sessionKey = .ok cancel) :
    (∃ plaintext, Opens c sessionKey e plaintext ∧
      parseStrictJson InnerCancelRequest.ofJson plaintext = .ok cancel) ∧
    cancel.validate = .ok () ∧ cancel.requestId = e.requestId ∧ cancel.sequence = e.sequence := by
  obtain ⟨⟨ciphertext, nonce, tag⟩, hp, h⟩ := bind_ok h
  obtain ⟨plaintext, ho, h⟩ := bind_ok h
  split at h
  · cases h
  · rename_i r hr
    obtain ⟨_, hv, h⟩ := bind_ok h
    split at h
    · cases h
    · rename_i hid
      cases h
      simp only [ne_eq, not_or, not_not] at hid
      exact ⟨⟨plaintext, .of_openDetached (orProtocol_ok hp) (orProtocol_ok ho), hr⟩,
        orProtocol_ok hv, hid.1, hid.2⟩

/-- An accepted cancellation opened under the key of the running request it names. -/
theorem cancel_accepted {c : Primitives} {s s' : Supervisor} {e : OuterEnvelope}
    (h : s.cancelRemoteRequest c e = (s', .ok true)) :
    s.CancelChecked e ∧ ∃ active cancel,
      s.activeRemoteRequests.lookup (.fromEnvelope e) = some active ∧
      openCancel c e active.sessionKey = .ok cancel := by
  unfold Supervisor.cancelRemoteRequest at h
  cases hc : s.checkCancel e with
  | error x => rw [hc] at h; cases h
  | ok u =>
    rw [hc] at h
    cases ha : s.activeRemoteRequests.lookup (.fromEnvelope e) with
    | none => rw [ha] at h; cases h
    | some active =>
      rw [ha] at h
      cases ho : openCancel c e active.sessionKey with
      | error x => simp only [ho] at h; cases h
      | ok cancel => exact ⟨Supervisor.checkCancel_ok hc, active, cancel, rfl, ho⟩

end Bridge
end EgoBridge
