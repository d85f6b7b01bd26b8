import EgoBridge.Bridge.Execution
import EgoBridge.Bridge.PermitRun
import EgoBridge.Lib.Variant
import EgoBridge.Protocol.Framing
import EgoBridge.Protocol.PermitCodec

/-!
# Bridge.LocalSocket

A broker's connection to the owner-only socket of a development bridge: `handle_connection`, cut
where it waits for the second frame, and the whole of `execute`.

`executeLocal` lets others go ahead wherever `execute` holds no lock; `issue_permit` is one step.
The peer's user id is not modelled.

* `Wire`                    — a frame on its way, written and read in pieces of any size.
* `handleFirst`             — a permit, a refusal, or the answer to a command.
* `handleSecond`           — the request that follows a permit.
* `Beside`, `beside_run`    — what the other calls leave alone.
-/

namespace EgoBridge
namespace Bridge

open Protocol Json

/-! ## Frames -/

/-- The limit of a frame on the socket. -/
def SOCKET_FRAME_BYTES : Nat := 16 * 1024 * 1024

/-- How many bytes each call moves on the way of one frame. -/
structure Wire where
  taken : Nat → Nat
  given : Nat → Nat

namespace Wire

/-- The bytes that `write_frame` leaves on the stream. -/
@[irreducible] def send (w : Wire) (frame : Bytes) : Except FrameError Bytes :=
  match Framing.writeFrame (.quiet [] w.taken 0) frame SOCKET_FRAME_BYTES with
  | (.error e, _) => .error e
  | (.ok (), writer) => .ok writer.sent

/-- What `read_frame` makes of them. -/
@[irreducible] def receive (w : Wire) (sent : Bytes) : Except FrameError (Option Bytes) :=
  (Framing.readFrame (.quiet sent w.given 0) SOCKET_FRAME_BYTES).1

/-- A frame within the limit arrives as it was sent. -/
theorem send_ok (w : Wire) {frame : Bytes} (h : frame.length ≤ SOCKET_FRAME_BYTES) :
    ∃ sent, w.send frame = .ok sent ∧ ∀ w' : Wire, w'.receive sent = .ok (some frame) := by
  have hmin : frame.length ≤ min SOCKET_FRAME_BYTES U32_MAX := by
    rw [SOCKET_FRAME_BYTES] at h
    rw [SOCKET_FRAME_BYTES, U32_MAX]
    omega
  obtain ⟨calls, hwrite⟩ := Framing.writeFrame_ok w.taken [] 0 hmin
  refine ⟨Framing.framed frame, ?_, fun w' => ?_⟩
  · rw [send, hwrite]
    rfl
  · obtain ⟨calls', hread⟩ := Framing.readFrame_stream w'.given hmin [] 0
    rw [List.append_nil] at hread
    rw [receive, hread]

theorem send_tooLarge (w : Wire) {frame : Bytes} (h : SOCKET_FRAME_BYTES < frame.length) :
    w.send frame = .error (.tooLarge frame.length SOCKET_FRAME_BYTES) := by
  have hmin : min SOCKET_FRAME_BYTES U32_MAX = SOCKET_FRAME_BYTES := by decide
  rw [send, Framing.writeFrame_tooLarge (by rw [hmin]; exact h), hmin]

end Wire

/-- `Display` for `FrameError`, without the text of an I/O error. -/
def frameErrorText : FrameError → String
  | .io _ => "frame I/O error"
  | .tooLarge length maximum =>
    "frame length " ++ toString length ++ " exceeds maximum " ++ toString maximum
  | .truncated => "truncated frame"

/-- `Display` for `BridgeError`, without the text of an I/O error. -/
def BridgeError.text : BridgeError → String
  | .unavailable => "bridge_unavailable"
  | .revoked => "binding_revoked"
  | .leaseExpired => "lease_expired"
  | .leaseRenewalRequired => "lease_renewal_required"
  | .replay => "request replayed"
  | .concurrency => "concurrency_conflict"
  | .protocol error => error.message
  | .io => "bridge I/O error"
  | .protocolMessage message => message

def orFrame {α : Type} : Except FrameError α → Except BridgeError α
  | .error e => .error (.protocolMessage (frameErrorText e))
  | .ok a => .ok a

/-- The frame that was read, if the peer has not gone. -/
def receivedFrame (gone : String) (received : Except FrameError (Option Bytes)) :
    Except BridgeError Bytes := do
  match ← orFrame received with
  | none => .error (.protocolMessage gone)
  | some frame => .ok frame

/-! ## Messages -/

def PermitRequest.names : List String :=
  ["protocol", "type", "script_bytes", "timeout_ms", "cwd_label", "concurrency_mode",
    "task_space_scope", "tab_scope", "startup_nonce"]

def PermitRequest.ofJson (v : Json) : Option PermitRequest := do
  let ms ← fields names v
  let protocol ← required ms "protocol" asString
  let messageType ← required ms "type" asString
  let scriptBytes ← required ms "script_bytes" asUsize
  let timeoutMs ← required ms "timeout_ms" asU64
  let cwdLabel ← required ms "cwd_label" asString
  let concurrencyMode ← required ms "concurrency_mode" (asVariant ConcurrencyMode.table)
  let taskSpaceScope ← optional ms "task_space_scope" asString
  let tabScope ← optional ms "tab_scope" asString
  let startupNonce ← optional ms "startup_nonce" asString
  some
    { protocol, messageType, scriptBytes, timeoutMs, cwdLabel, concurrencyMode, taskSpaceScope,
      tabScope, startupNonce }

/-- A member of a value that is a text. -/
def textMember (value : Json) (name : String) : Option String :=
  match value with
  | .obj ms => (ms.lookup name).bind asString
  | _ => none

def decodePermitRequest (bytes : Bytes) : Except BridgeError Json :=
  match parseStrictJson some bytes with
  | .error e => .error (.protocolMessage e.message)
  | .ok value => .ok value

def parsePermitRequest (value : Json) : Except BridgeError PermitRequest :=
  match PermitRequest.ofJson value with
  | none => .error (.protocolMessage ParseError.invalid.message)
  | some request => .ok request

/-- Validate the startup nonce used only by the local fake-broker adapter. -/
def developmentBrokerNonceMatches (config : BridgeConfig) (supplied : Option String) : Bool :=
  match config.brokerStartupNonce with
  | some expected => constantTimeTextEq expected (supplied.getD "")
  | none => supplied.isNone

def validateDevelopmentBrokerIdentity (value : Json) (config : BridgeConfig) :
    Except BridgeError Unit :=
  match value with
  | .obj _ =>
    if config.releaseProfile ≠ .developmentLocal ∧ config.releaseProfile ≠ .logicTest then
      .error (.protocolMessage "local broker adapter is restricted to development profiles")
    else if ¬ developmentBrokerNonceMatches config (textMember value "startup_nonce") then
      .error (.protocolMessage "broker startup nonce is invalid")
    else .ok ()
  | _ => .error (.protocolMessage "broker request must be an object")

/-- The answer to a request that is given no permit. -/
def permitRefusal (error : BridgeError) : Json :=
  .obj [("protocol", .str PROTOCOL_VERSION), ("type", .str "permit_response"),
    ("status", .str "error"), ("error", .str error.text)]

def permitResponse (permit : RequestPermit) (key : Key) (capability : BridgeCapability) : Json :=
  .obj [("protocol", .str PROTOCOL_VERSION), ("type", .str "permit_response"),
    ("status", .str "ok"), ("permit", permit.toJson),
    ("session_key", .str (encodeB64url key.bytes)), ("capability", capability.toJson)]

def doctorReport (capability : BridgeCapability) : Json :=
  .obj [("bridge", .str "ready"), ("ego_browser", .str capability.localEgoBrowserRuntimeVersion),
    ("release_profile", .str capability.releaseProfile.name),
    ("allowlist_revision", ofU64 capability.allowlistRevision),
    ("learning_bundle_digest", ofOption .str capability.learningBundleDigest)]

def reloadReport : Json := .obj [("cancelled", .bool true)]

def commandResponse (messageType : String) (response : Json) : Json :=
  .obj [("protocol", .str PROTOCOL_VERSION), ("type", .str messageType), ("status", .str "ok"),
    ("response", response)]

/-! ## The first frame -/

/-- What has been written in answer to the first frame: all there is, or a permit. -/
inductive BrokerAnswer where
  | done (sent : Bytes)
  | permitted (sent : Bytes) (key : Key) (permit : RequestPermit)

/-- The clock, the request id and the session key of a permit. -/
structure IssueInput where
  now : UInt64
  nowMillis : UInt64
  requestId : OpaqueId
  key : Key

/-- The value of the first frame, from a broker that may use the socket. -/
def brokerValue (config : BridgeConfig) (received : Except FrameError (Option Bytes)) :
    Except BridgeError Json := do
  let first ← receivedFrame "connection closed" received
  let value ← decodePermitRequest first
  validateDevelopmentBrokerIdentity value config
  .ok value

/-- A development bridge takes the frames of a broker with this nonce. -/
def admitsBroker (config : BridgeConfig) (nonce : String) : Bool :=
  (config.releaseProfile = .developmentLocal || config.releaseProfile = .logicTest) &&
    developmentBrokerNonceMatches config (some nonce)

section

variable {config : BridgeConfig} {frame : Bytes} {ms : List (String × Json)} {nonce : String}
  (hparse : parseStrictJson some frame = .ok (.obj ms))

include hparse

theorem brokerValue_eq : brokerValue config (.ok (some frame)) =
    (validateDevelopmentBrokerIdentity (.obj ms) config).bind fun _ => .ok (.obj ms) := by
  rw [brokerValue, receivedFrame, orFrame, ok_bind, ok_bind, decodePermitRequest, hparse, ok_bind]
  rfl

variable (hnonce : textMember (.obj ms) "startup_nonce" = some nonce)

include hnonce

theorem brokerValue_admitted (h : admitsBroker config nonce = true) :
    brokerValue config (.ok (some frame)) = .ok (.obj ms) := by
  simp only [admitsBroker, Bool.and_eq_true, Bool.or_eq_true, decide_eq_true_eq] at h
  rw [brokerValue_eq hparse]
  simp only [validateDevelopmentBrokerIdentity, hnonce, h.2]
  rcases h.1 with hprofile | hprofile <;> rw [hprofile] <;> rfl

theorem brokerValue_closed (h : admitsBroker config nonce = false) :
    ∃ error, brokerValue config (.ok (some frame)) = .error error := by
  rw [brokerValue_eq hparse]
  simp only [validateDevelopmentBrokerIdentity, hnonce]
  unfold admitsBroker at h
  cases hp : config.releaseProfile <;> simp_all [Except.bind]

end

/-- `send_value`. -/
def sendValue (w : Wire) (value : Json) : Except BridgeError Bytes :=
  orFrame (w.send (canonicalJson value))

/-- The answer to a request for a permit. -/
def answerPermit (w : Wire) (capability : BridgeCapability) :
    Except BridgeError (Key × RequestPermit) → Except BridgeError BrokerAnswer
  | .error e => (sendValue w (permitRefusal e)).map .done
  | .ok (key, permit) =>
    (sendValue w (permitResponse permit key capability)).map (.permitted · key permit)

/-- `handle_connection`, up to the answer to the first frame. -/
def handleFirst (s : Supervisor) (w : Wire) (i : IssueInput)
    (received : Except FrameError (Option Bytes)) : Supervisor × Except BridgeError BrokerAnswer :=
  match brokerValue s.config received with
  | .error e => (s, .error e)
  | .ok value =>
    let messageType := (textMember value "type").getD ""
    if messageType = "permit_request" then
      match parsePermitRequest value with
      | .error e => (s, .error e)
      | .ok request =>
        let (s', issued) := s.issuePermit request i.now i.nowMillis i.requestId i.key
        (s', answerPermit w s.config.capability issued)
    else if messageType = "doctor" then
      (s, (sendValue w (commandResponse "doctor_response" (doctorReport s.config.capability))).map
        .done)
    else if messageType = "reload" then
      (s.cancel, (sendValue w (commandResponse "reload_response" reloadReport)).map .done)
    else (s, .error (.protocolMessage "unsupported bridge command"))

/-! ## The request -/

/-- Where `execute` holds no lock before its next look. -/
inductive Gap where
  | entry
  | lease
  | permit
  | recheck
  | consume
  | acquire
  | consumeAgain
  | drop
  deriving DecidableEq

/-- What others do to the supervisor meanwhile. -/
abbrev Others := Gap → Supervisor → Supervisor

/-- They keep its configuration, and do not write the permit of this number. -/
structure Beside (sequence : UInt64) (s s' : Supervisor) : Prop where
  config : s'.config = s.config
  permit : ∀ issued, s'.issuedPermits.lookup sequence = some issued →
    s.issuedPermits.lookup sequence = some issued

/-- What an execution reads besides: the clocks, its process, and the nonce of the answer. -/
structure LocalRun where
  takeMillis : UInt64
  checkMillis : UInt64
  process : InnerExecuteRequest → ProcessResult × String × String
  durationMs : UInt64
  nonce : Nonce

section

variable (c : Primitives)

/-- Execute an authenticated request and produce a response envelope. -/
def executeLocal (s : Supervisor) (o : Others) (i : LocalRun) (e : OuterEnvelope) (key : Key) :
    Supervisor × Except BridgeError OuterEnvelope :=
  let s := o .entry s
  match s.checkExecute e with
  | .error error => (s, .error error)
  | .ok () =>
    let s := o .lease s
    match Execution.leaseAccepts s e.generation with
    | .error error => (s, .error error)
    | .ok () =>
      match (o .permit s).takePermit e key i.takeMillis with
      | (s, .error error) => (s, .error error)
      | (s, .ok issued) =>
        let s := o .recheck s
        if s.cancelled then (s, .error .revoked)
        else
          let s := (o .consume s).markConsumed e.sequence
          match openLocal c s.config e key issued.permit i.checkMillis with
          | .error error => (s, .error error)
          | .ok (request, scope) =>
            match (o .acquire s).acquireLocal e scope with
            | (s, .error error) => (s, .error error)
            | (s, .ok guard) =>
              let s := (o .consumeAgain s).markConsumed e.sequence
              let (result, stdout, stderr) := i.process request
              ((o .drop s).dropGuard guard,
                sealResponse c (processResponse result stdout stderr i.durationMs e) e key i.nonce)

/-- `handle_connection`, from the permit on. -/
def handleSecond (s : Supervisor) (o : Others) (i : LocalRun) (w : Wire) (key : Key)
    (permit : RequestPermit) (received : Except FrameError (Option Bytes)) :
    Supervisor × Except BridgeError Bytes :=
  match receivedFrame "request ended before execution" received with
  | .error e => (s, .error e)
  | .ok frame =>
    match parseStrictJson OuterEnvelope.ofJson frame with
    | .error e => (s, .error (.protocolMessage e.message))
    | .ok e =>
      if e.requestId ≠ permit.requestId ∨ e.sequence ≠ permit.sequence ∨
          e.generation ≠ permit.generation ∨ e.bindingId ≠ permit.bindingId then
        (s, .error (.protocolMessage "permit and request identity mismatch"))
      else
        match executeLocal c s o i e key with
        | (s, .error error) => (s, .error error)
        | (s, .ok response) => (s, sendValue w response.toJson)

end

/-! ## Beside a request -/

theorem Beside.refl (sequence : UInt64) (s : Supervisor) : Beside sequence s s :=
  ⟨rfl, fun _ h => h⟩

theorem Beside.trans {sequence : UInt64} {s s' s'' : Supervisor} (h : Beside sequence s s')
    (h' : Beside sequence s' s'') : Beside sequence s s'' :=
  ⟨h'.config.trans h.config, fun issued hl => h.permit issued (h'.permit issued hl)⟩

theorem PermitState.run_config {c : Primitives} {s s' : PermitState} {i : PermitInput}
    {k : PermitCall} {k' : Option PermitCall} (h : s.run c i k = (s', k')) :
    s'.sup.config = s.sup.config := by
  cases k with
  | issueSequence r =>
    simp only [run] at h
    rcases s.sup.takeSequence_cases with ⟨error, ht⟩ | ⟨-, ht⟩ <;> rw [ht] at h <;> cases h <;> rfl
  | issueStore r sequence =>
    simp only [run] at h
    rcases s.sup.storePermit_cases r sequence i.nowMillis i.requestId i.key with
      ⟨error, ht⟩ | ⟨permit, -, ht⟩ <;> rw [ht] at h <;> cases h <;> rfl
  | executePermit e key =>
    simp only [run, take] at h
    rcases s.sup.takePermit_cases e key i.nowMillis with ⟨error, hne, ht⟩ | ⟨issued, -, -, -, ht⟩ |
      ⟨issued, -, -, -, ht⟩
    · rw [ht] at h
      dsimp only at h
      rw [if_neg hne] at h
      cases h
      rfl
    · rw [ht] at h
      cases h
      rfl
    · rw [ht] at h
      cases h
      rfl
  | executeAcquire e scope =>
    obtain ⟨scheduler, ha⟩ := s.sup.acquireLocal_fst e scope
    simp only [run] at h
    split at h
    · cases h
      rfl
    · rename_i hacquire
      cases h
      rw [hacquire] at ha
      dsimp only at ha ⊢
      rw [ha]
  | executeMark e key permit => cases h; rfl
  | _ =>
    simp only [run, refuse] at h
    repeat' split at h
    all_goals
      cases h
      rfl

/-- A section writes no permit but the one it is about to store. -/
theorem Effect.permit {s s' : PermitState} {k : PermitCall} {i : PermitInput}
    {k' : Option PermitCall} (he : Effect s k i s' k') {q : UInt64}
    (hk : ∀ r, k ≠ .issueStore r q) {issued : IssuedPermit}
    (hl : s'.table.lookup q = some issued) : s.table.lookup q = some issued := by
  cases he with
  | quiet table next log pending store => rwa [table] at hl
  | allocate r keeps hk table next log => rwa [table] at hl
  | refuse q0 error hn table next log => rwa [table] at hl
  | start q0 hk pending store table next log => rwa [table] at hl
  | clear pending store table next log =>
    rw [table, Finmap.lookup_empty] at hl
    cases hl
  | store r q0 issued0 hstore hn table next log =>
    have hne : q ≠ q0 := by
      rintro rfl
      exact hk r hstore
    rwa [table, Finmap.lookup_insert_of_ne _ hne] at hl
  | expire q0 issued0 lookup expired hn table next log =>
    rw [table] at hl
    by_cases h0 : q = q0
    · rw [h0, Finmap.lookup_erase] at hl
      cases hl
    · rwa [Finmap.lookup_erase_ne h0] at hl
  | consume q0 issued0 lookup pending store table next log =>
    rw [table] at hl
    by_cases h0 : q = q0
    · rw [h0, Finmap.lookup_erase] at hl
      cases hl
    · rwa [Finmap.lookup_erase_ne h0] at hl

/-- The sections of the other calls are beside a permit that has been issued. -/
theorem beside_step {c : Primitives} {cfg cfg' : Run.Config PermitState PermitCall} {x}
    (h : (permitObject c).system.Reachable cfg) (hs : (permitObject c).system.step cfg x cfg')
    {q : UInt64} (hq : q ∈ issuedNumbers cfg.shared.log) :
    Beside q cfg.shared.sup cfg'.shared.sup := by
  have hi := PermitInv.reachable h
  cases hs with
  | spawn hstart => exact .refl q _
  | @advance l r k k' s s' i hsec =>
    refine ⟨PermitState.run_config hsec.2, fun issued hl => ?_⟩
    refine (PermitState.run_effect hsec.2).permit ?_ hl
    rintro x rfl
    -- what is about to be stored has a number of its own
    have hlt := (hi.fresh x q (by simp)).2 q hq
    exact absurd hlt (UInt64.lt_irrefl q)

/-- So is whatever they do from one look to the next. -/
theorem beside_run {c : Primitives} {cfg cfg' : Run.Config PermitState PermitCall} {n : Nat}
    (h : (permitObject c).system.Reachable cfg)
    (hrun : Run.Counted (permitObject c).system (fun _ => true) cfg n cfg') {q : UInt64}
    (hq : q ∈ issuedNumbers cfg.shared.log) :
    Beside q cfg.shared.sup cfg'.shared.sup ∧ q ∈ issuedNumbers cfg'.shared.log := by
  induction hrun with
  | refl => exact ⟨.refl q _, hq⟩
  | tail hrun hs ih =>
    refine ⟨ih.1.trans (beside_step (hrun.reachable (fun _ _ _ hst => hst) h) hs ih.2), ?_⟩
    cases hs with
    | spawn hstart => exact ih.2
    | advance hsec =>
      rcases issued_step (PermitState.run_effect hsec.2) with hl | ⟨r, q0, -, -, hl⟩
      · dsimp only
        rw [hl]
        exact ih.2
      · dsimp only
        rw [hl]
        exact List.mem_cons_of_mem _ ih.2

end Bridge
end EgoBridge
