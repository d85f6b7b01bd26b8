import EgoBridge.Bridge.LocalSocket
import EgoBridge.Wrapper.ScriptFit

/-!
# Wrapper.Exchange

A run of the wrapper against a bridge: two frames each way over the broker's socket, and what they
come to.

`execute` is the wrapper's `execute` up to `emit_response`, with the bridge's `handle_connection` at
the other end of the stream. A bridge that gives up closes the stream, and the wrapper, which is
waiting for a frame by then, reads its end.

* `readArgs`         — the arguments of a run, from its environment and its standard input.
* `exchange`         — the run, in frames.
* `permitRequest_read`, `permitResponse_read`, `permitRefusal_read` — what each side reads is what
                       the other has written.
-/

namespace EgoBridge
namespace Wrapper

open Protocol Json Bridge

/-- How `execute` fails. -/
inductive ExecuteError where
  | unavailable
  | disconnected
  | leaseRenewalRequired
  | frame (error : FrameError)
  | wrapper (error : WrapperError)
  deriving DecidableEq

def ExecuteError.protocol (message : String) : ExecuteError := .wrapper (.protocol message)

def orExecute {α : Type} : Except WrapperError α → Except ExecuteError α
  | .error e => .error (.wrapper e)
  | .ok a => .ok a

/-! ## Arguments -/

/-- The variables the wrapper reads. -/
structure WrapperEnv where
  brokerNonce : Option String
  timeoutMs : Option String
  cwdLabel : Option String
  concurrencyMode : Option String
  taskSpaceScope : Option String
  tabScope : Option String

/-- `str::parse::<u64>`. -/
def parseU64 (text : String) : Option UInt64 :=
  let digits :=
    match text.toList with
    | '+' :: rest => rest
    | rest => rest
  if digits = [] ∨ ¬ digits.all Char.isDigit then none
  else
    let n := digits.foldl (fun n ch => n * 10 + (ch.toNat - 48)) 0
    if n < 2 ^ 64 then some (UInt64.ofNat n) else none

def readTimeout : Option String → Except ExecuteError UInt64
  | none => .ok MAX_EXECUTE_TIMEOUT_MS
  | some value =>
    match (parseU64 value).filter (fun n => 0 < n && n ≤ MAX_EXECUTE_TIMEOUT_MS) with
    | none => .error (.protocol "invalid timeout")
    | some timeoutMs => .ok timeoutMs

def parseMode : Option String → ConcurrencyMode
  | some "task_space_tab" => .taskSpaceTab
  | some "task_space" => .taskSpace
  | _ => .binding

def readNonce : Option String → Except ExecuteError String
  | none => .error .unavailable
  | some nonce =>
    if nonce.isEmpty ∨ 256 < (utf8 nonce).length then .error (.protocol "invalid broker nonce")
    else .ok nonce

def readArgs (env : WrapperEnv) (chunks : List Bytes) : Except ExecuteError WrapperArgs := do
  let script ← orExecute (readBoundedScript [] chunks)
  let startupNonce ← readNonce env.brokerNonce
  let timeoutMs ← readTimeout env.timeoutMs
  .ok
    { script := script
      startupNonce := startupNonce
      timeoutMs := timeoutMs
      cwdLabel := env.cwdLabel.getD "workspace-default"
      mode := parseMode env.concurrencyMode
      taskSpace := env.taskSpaceScope
      tabScope := env.tabScope }

/-! ## Messages -/

def permitRequestMembers (a : WrapperArgs) : List (String × Json) :=
  [("protocol", .str PROTOCOL_VERSION), ("type", .str "permit_request"),
    ("startup_nonce", .str a.startupNonce), ("script_bytes", ofNat a.script.length),
    ("timeout_ms", ofU64 a.timeoutMs), ("cwd_label", .str a.cwdLabel),
    ("concurrency_mode", .str (requestedScope a).mode.name),
    ("task_space_scope", ofOption .str (requestedScope a).taskSpace),
    ("tab_scope", ofOption .str (requestedScope a).tab)]

def permitRequestJson (a : WrapperArgs) : Json := .obj (permitRequestMembers a)

structure PermitResponse where
  protocol : String
  messageType : String
  status : String
  permit : Option RequestPermit
  sessionKey : Option String
  capability : Option BridgeCapability
  error : Option String

def PermitResponse.names : List String :=
  ["protocol", "type", "status", "permit", "session_key", "capability", "error"]

def PermitResponse.ofJson (v : Json) : Option PermitResponse := do
  let ms ← fields names v
  let protocol ← required ms "protocol" asString
  let messageType ← required ms "type" asString
  let status ← required ms "status" asString
  let permit ← optional ms "permit" RequestPermit.ofJson
  let sessionKey ← optional ms "session_key" asString
  let capability ← optional ms "capability" BridgeCapability.ofJson
  let error ← optional ms "error" asString
  some { protocol, messageType, status, permit, sessionKey, capability, error }

def validatePermitResponse (response : PermitResponse) : Except ExecuteError Unit :=
  if response.protocol ≠ PROTOCOL_VERSION ∨ response.messageType ≠ "permit_response" ∨
      response.status ≠ "ok" then
    if response.error = some "lease_renewal_required" then .error .leaseRenewalRequired
    else .error .unavailable
  else .ok ()

def readSessionKey (text : String) : Except ExecuteError Key :=
  match Base64.decode text.toList with
  | none => .error (.protocol "invalid session key")
  | some bytes =>
    if encodeB64url bytes ≠ text then .error (.protocol "session key is not canonical")
    else
      match Key.ofBytes bytes with
      | none => .error (.protocol "invalid session key length")
      | some key => .ok key

def orUnavailable {α : Type} : Option α → Except ExecuteError α
  | none => .error .unavailable
  | some a => .ok a

/-- `execute`, from the frame with the permit to the key. -/
def readPermit (frame : Bytes) : Except ExecuteError (RequestPermit × BridgeCapability × Key) :=
  match parseStrictJson PermitResponse.ofJson frame with
  | .error e => .error (.protocol e.message)
  | .ok response => do
    validatePermitResponse response
    let permit ← orUnavailable response.permit
    let capability ← orUnavailable response.capability
    let text ← orUnavailable response.sessionKey
    let key ← readSessionKey text
    .ok (permit, capability, key)

/-! ## The run -/

/-- The surroundings of a run: the ways of its four frames, the clocks and the random texts of both
sides, and what becomes of the supervisor and of the process meanwhile. -/
structure Scene where
  connects : Bool
  requestWire : Wire
  permitWire : Wire
  envelopeWire : Wire
  responseWire : Wire
  issue : IssueInput
  wrapperNow : UInt64
  requestNonce : Nonce
  others : Others
  run : LocalRun

/-- The next frame of the bridge, which the wrapper takes for lost if the stream has ended. -/
def awaitFrame : Except FrameError (Option Bytes) → Except ExecuteError Bytes
  | .error e => .error (.frame e)
  | .ok none => .error .disconnected
  | .ok (some frame) => .ok frame

section

variable (c : Primitives)

/-- The envelope that answers the permit, with the permit and its key. -/
def answerPermitFrame (w : Scene) (a : WrapperArgs) (received : Except FrameError (Option Bytes)) :
    Except ExecuteError (OuterEnvelope × RequestPermit × Key) := do
  let frame ← awaitFrame received
  let (permit, capability, key) ← readPermit frame
  let e ← orExecute (requestFromPermit c a capability permit w.wrapperNow key w.requestNonce)
  .ok (e, permit, key)

def readResponse (key : Key) (permit : RequestPermit)
    (received : Except FrameError (Option Bytes)) : Except ExecuteError InnerExecuteResponse := do
  let frame ← awaitFrame received
  orExecute (decodeResponse c frame key permit)

/-- `execute`, from the envelope on; the bridge has issued `bridgePermit`. -/
def exchangeRequest (w : Scene) (e : OuterEnvelope) (s : Supervisor) (bridgeKey : Key)
    (bridgePermit : RequestPermit) (key : Key) (permit : RequestPermit) :
    Supervisor × Except ExecuteError InnerExecuteResponse :=
  match w.envelopeWire.send (canonicalJson e.toJson) with
  | .error error => (s, .error (.frame error))
  | .ok sent =>
    match handleSecond c s w.others w.run w.responseWire bridgeKey bridgePermit
        (w.envelopeWire.receive sent) with
    | (s, .error _) => (s, .error .disconnected)
    | (s, .ok sent) => (s, readResponse c key permit (w.responseWire.receive sent))

/-- `execute`, from the first frame on. -/
def exchange (w : Scene) (a : WrapperArgs) (s : Supervisor) :
    Supervisor × Except ExecuteError InnerExecuteResponse :=
  match w.requestWire.send (canonicalJson (permitRequestJson a)) with
  | .error error => (s, .error (.frame error))
  | .ok sent =>
    match handleFirst s w.permitWire w.issue (w.requestWire.receive sent) with
    | (s, .error _) => (s, .error .disconnected)
    | (s, .ok (.done sent)) =>
      match answerPermitFrame c w a (w.permitWire.receive sent) with
      | .error error => (s, .error error)
      -- nobody reads what follows
      | .ok _ => (s, .error .disconnected)
    | (s, .ok (.permitted sent bridgeKey bridgePermit)) =>
      match answerPermitFrame c w a (w.permitWire.receive sent) with
      | .error error => (s, .error error)
      | .ok (e, permit, key) => exchangeRequest c w e s bridgeKey bridgePermit key permit

/-- A run of `ego-browser nodejs`, up to its output. -/
def execute (w : Scene) (env : WrapperEnv) (chunks : List Bytes) (s : Supervisor) :
    Supervisor × Except ExecuteError InnerExecuteResponse :=
  match readArgs env chunks with
  | .error error => (s, .error error)
  | .ok a => if w.connects then exchange c w a s else (s, .error .unavailable)

end

/-! ## What is read -/

/-- The bridge reads the wrapper's first frame as it was meant. -/
theorem permitRequest_read {a : WrapperArgs} (hs : a.script.length < 2 ^ 64) :
    ∃ value, parseStrictJson some (canonicalJson (permitRequestJson a)) = .ok value ∧
      (∃ ms, value = .obj ms) ∧ textMember value "type" = some "permit_request" ∧
      textMember value "startup_nonce" = some a.startupNonce ∧
      PermitRequest.ofJson value = some (permitRequest a) := by
  have hstrict : Strict (permitRequestJson a) := by
    simp [permitRequestJson, permitRequestMembers, Strict, StrictMembers]
  have hrange : InRange (permitRequestJson a) := by
    simp [permitRequestJson, permitRequestMembers, InRange, InRangeMembers, inRange_usize hs]
  have hnest : nesting (permitRequestJson a) < depthLimit := by
    simp [permitRequestJson, permitRequestMembers, nesting, nestingMembers, depthLimit]
  obtain ⟨ms, hf, hl⟩ := fields_canonical PermitRequest.names (permitRequestMembers a)
    (by simp [permitRequestMembers]) (by simp [permitRequestMembers, PermitRequest.names])
  have hms : canonicalValue (permitRequestJson a) = .obj ms := by
    rw [permitRequestJson, canonicalValue] at *
    rw [fields] at hf
    split at hf
    · cases hf
      rfl
    · cases hf
  refine ⟨_, parseStrictJson_canonical hstrict hrange hnest rfl, ⟨ms, hms⟩, ?_, ?_, ?_⟩
  · rw [hms, textMember, hl]
    rfl
  · rw [hms, textMember, hl]
    rfl
  · refine reads hf ?_
    refine reads (required_str hl (k := "protocol") rfl) ?_
    refine reads (required_str hl (k := "type") rfl) ?_
    refine reads (required_usize hl (k := "script_bytes") rfl hs) ?_
    refine reads (required_u64 hl (k := "timeout_ms") rfl) ?_
    refine reads (required_str hl (k := "cwd_label") rfl) ?_
    refine reads
      (required_variant hl (k := "concurrency_mode") rfl (ConcurrencyMode.lookup_name _)) ?_
    refine reads (optional_str hl (k := "task_space_scope") rfl) ?_
    refine reads (optional_str hl (k := "tab_scope") rfl) ?_
    refine reads
      (optional_canonical hl (k := "startup_nonce") rfl (a := some a.startupNonce) rfl) ?_
    rfl

theorem readSessionKey_encode (key : Key) : readSessionKey (encodeB64url key.bytes) = .ok key := by
  rw [readSessionKey, encodeB64url, String.toList_ofList, Base64.decode_encode]
  have hkey : Key.ofBytes key.bytes = some key := dif_pos key.length_eq
  simp [encodeB64url, hkey]

theorem asOption_obj {α : Type} {read : Json → Option α} {v : Json} {a : α}
    (h : read v = some a) (hv : v ≠ .null) : asOption read v = some (some a) := by
  cases v with
  | null => exact absurd rfl hv
  | _ => simp [asOption, h]

theorem optional_none {α : Type} {ms : List (String × Json)} {k : String}
    {read : Json → Option α} (h : ms.lookup k = none) : Json.optional ms k read = some none := by
  rw [Json.optional, h]

/-- The wrapper reads the permit, the capability and the key. -/
theorem permitResponse_read {permit : RequestPermit} {key : Key} {capability : BridgeCapability}
    (hp : permit.maxPayloadBytes < 2 ^ 64) (hs : permit.maxScriptBytes < 2 ^ 64)
    (hm : capability.maxParallelRequests < 2 ^ 64) (hc : capability.maxScriptBytes < 2 ^ 64) :
    readPermit (canonicalJson (permitResponse permit key capability)) =
      .ok (permit, capability, key) := by
  have hpermit := permit.codec hp hs
  have hcapability := capability.codec hm hc
  have hparse : parseStrictJson PermitResponse.ofJson
      (canonicalJson (permitResponse permit key capability)) =
        .ok ⟨PROTOCOL_VERSION, "permit_response", "ok", some permit,
          some (encodeB64url key.bytes), some capability, none⟩ := by
    refine parseStrictJson_canonical ?_ ?_ ?_ ?_
    · simp [permitResponse, Strict, StrictMembers, hpermit.strict, hcapability.strict]
    · simp [permitResponse, InRange, InRangeMembers, hpermit.inRange, hcapability.inRange]
    · have h1 := hpermit.nesting
      have h2 := hcapability.nesting
      simp only [permitResponse, nesting, nestingMembers, depthLimit]
      omega
    · obtain ⟨ms, hf, hl⟩ := fields_canonical PermitResponse.names
        [("protocol", .str PROTOCOL_VERSION), ("type", .str "permit_response"),
          ("status", .str "ok"), ("permit", permit.toJson),
          ("session_key", .str (encodeB64url key.bytes)), ("capability", capability.toJson)]
        (by simp) (by simp [PermitResponse.names])
      refine reads hf ?_
      refine reads (required_str hl (k := "protocol") rfl) ?_
      refine reads (required_str hl (k := "type") rfl) ?_
      refine reads (required_str hl (k := "status") rfl) ?_
      refine reads (optional_canonical hl (k := "permit") rfl
        (asOption_obj hpermit.read (by simp [RequestPermit.toJson, canonicalValue]))) ?_
      refine reads (optional_canonical hl (k := "session_key") rfl
        (a := some (encodeB64url key.bytes)) (by simp [asOption])) ?_
      refine reads (optional_canonical hl (k := "capability") rfl
        (asOption_obj hcapability.read (by simp [BridgeCapability.toJson, canonicalValue]))) ?_
      refine reads (optional_none (k := "error") (by rw [hl]; rfl)) ?_
      rfl
  rw [readPermit, hparse]
  simp [validatePermitResponse, orUnavailable, readSessionKey_encode, ok_bind]

/-- The wrapper reads why it is given no permit. -/
theorem permitRefusal_read (error : BridgeError) :
    readPermit (canonicalJson (permitRefusal error)) =
      .error (if error.text = "lease_renewal_required" then .leaseRenewalRequired
        else .unavailable) := by
  have hparse : parseStrictJson PermitResponse.ofJson (canonicalJson (permitRefusal error)) =
        .ok ⟨PROTOCOL_VERSION, "permit_response", "error", none, none, none, some error.text⟩ := by
    refine parseStrictJson_canonical ?_ ?_ ?_ ?_
    · simp [permitRefusal, Strict, StrictMembers]
    · simp [permitRefusal, InRange, InRangeMembers]
    · simp [permitRefusal, nesting, nestingMembers, depthLimit]
    · obtain ⟨ms, hf, hl⟩ := fields_canonical PermitResponse.names
        [("protocol", .str PROTOCOL_VERSION), ("type", .str "permit_response"),
          ("status", .str "error"), ("error", .str error.text)]
        (by simp) (by simp [PermitResponse.names])
      refine reads hf ?_
      refine reads (required_str hl (k := "protocol") rfl) ?_
      refine reads (required_str hl (k := "type") rfl) ?_
      refine reads (required_str hl (k := "status") rfl) ?_
      refine reads (optional_none (k := "permit") (by rw [hl]; rfl)) ?_
      refine reads (optional_none (k := "session_key") (by rw [hl]; rfl)) ?_
      refine reads (optional_none (k := "capability") (by rw [hl]; rfl)) ?_
      refine reads (optional_canonical hl (k := "error") rfl (a := some error.text)
        (by simp [asOption])) ?_
      rfl
  rw [readPermit, hparse]
  by_cases h : error.text = "lease_renewal_required"
  · simp [validatePermitResponse, h]
    rfl
  · simp [validatePermitResponse, h]
    rfl

/-- Two bytes at a time. -/
def plainWire : Wire := ⟨fun _ => 1, fun _ => 1⟩

end Wrapper
end EgoBridge
