import EgoBridge.Wrapper.Exchange

/-!
# Wrapper.ControlCommand

`ego-browser --doctor` and `ego-browser --reload` against a bridge.

* `controlCommand`  — the command in frames, with `handle_connection` at the other end.
* `controlCall`     — what it comes to.
* `reload_closes`   — a command is its call, and after a reload no run is given a permit.
-/

namespace EgoBridge
namespace Wrapper

open Protocol Json Bridge

inductive ControlCommand where
  | doctor
  | reload
  deriving DecidableEq

def ControlCommand.name : ControlCommand → String
  | .doctor => "doctor"
  | .reload => "reload"

structure BrokerResponse where
  protocol : String
  messageType : String
  status : String
  response : Option Json
  error : Option String

def BrokerResponse.names : List String := ["protocol", "type", "status", "response", "error"]

def BrokerResponse.ofJson (v : Json) : Option BrokerResponse := do
  let ms ← fields names v
  let protocol ← required ms "protocol" asString
  let messageType ← required ms "type" asString
  let status ← required ms "status" asString
  let response ← optional ms "response" some
  let error ← optional ms "error" asString
  some { protocol, messageType, status, response, error }

/-- `BrokerCommand`, with its payload. -/
def brokerCommand (startupNonce : String) (command : ControlCommand) : Json :=
  .obj [("protocol", .str PROTOCOL_VERSION), ("type", .str command.name),
    ("startup_nonce", .str startupNonce), ("payload", .obj [("command", .str command.name)])]

/-- What is printed of a response. -/
def readBrokerResponse (frame : Bytes) : Except ExecuteError String :=
  match parseStrictJson BrokerResponse.ofJson frame with
  | .error e => .error (.protocol e.message)
  | .ok response =>
    if response.protocol ≠ PROTOCOL_VERSION ∨ response.status ≠ "ok" then
      match response.error with
      | some error => .error (.wrapper (.status error))
      | none => .error .unavailable
    else
      match response.response with
      | some value => .ok (String.ofList (render value))
      | none => .ok response.messageType

/-- The ways of the two frames; the bridge issues no permit for a command. -/
structure ControlScene where
  connects : Bool
  commandWire : Wire
  responseWire : Wire
  issue : IssueInput

/-- `control_command`, up to its output. -/
def controlCommand (w : ControlScene) (brokerNonce : Option String) (command : ControlCommand)
    (s : Supervisor) : Supervisor × Except ExecuteError String :=
  if ¬ w.connects then (s, .error .unavailable)
  else
    match readNonce brokerNonce with
    | .error error => (s, .error error)
    | .ok startupNonce =>
      match w.commandWire.send (canonicalJson (brokerCommand startupNonce command)) with
      | .error error => (s, .error (.frame error))
      | .ok sent =>
        match handleFirst s w.responseWire w.issue (w.commandWire.receive sent) with
        | (s, .error _) => (s, .error .disconnected)
        | (s, .ok (.done sent)) =>
          (s, (awaitFrame (w.responseWire.receive sent)).bind readBrokerResponse)
        | (s, .ok (.permitted sent _ _)) =>
          (s, (awaitFrame (w.responseWire.receive sent)).bind readBrokerResponse)

/-! ## The call -/

/-- The text of a value, with the names of every object in order. -/
def canonicalText (v : Json) : String := String.ofList (render (canonicalValue v))

/-- What the bridge reports. -/
def report (config : BridgeConfig) : ControlCommand → Json
  | .doctor => doctorReport config.capability
  | .reload => reloadReport

def ControlCommand.response (config : BridgeConfig) (command : ControlCommand) : Json :=
  commandResponse (command.name ++ "_response") (report config command)

/-- A reload takes the place of the signal; a doctor changes nothing. -/
def ControlCommand.apply : ControlCommand → Supervisor → Supervisor
  | .doctor, s => s
  | .reload, s => s.cancel

def controlCall (w : ControlScene) (brokerNonce : Option String) (command : ControlCommand)
    (s : Supervisor) : Supervisor × Except ExecuteError String :=
  if ¬ w.connects then (s, .error .unavailable)
  else
    match readNonce brokerNonce with
    | .error error => (s, .error error)
    | .ok startupNonce =>
      if ¬ admitsBroker s.config startupNonce then (s, .error .disconnected)
      else if SOCKET_FRAME_BYTES < size (command.response s.config) then
        (command.apply s, .error .disconnected)
      else (command.apply s, .ok (canonicalText (report s.config command)))

/-! ## What is read -/

/-- The bridge reads the command and its broker. -/
theorem brokerCommand_read (startupNonce : String) (command : ControlCommand) :
    ∃ ms, parseStrictJson some (canonicalJson (brokerCommand startupNonce command)) =
        .ok (.obj ms) ∧ textMember (.obj ms) "type" = some command.name ∧
      textMember (.obj ms) "startup_nonce" = some startupNonce := by
  have hstrict : Strict (brokerCommand startupNonce command) := by
    simp [brokerCommand, Strict, StrictMembers]
  have hnest : nesting (brokerCommand startupNonce command) < depthLimit := by
    simp [brokerCommand, nesting, nestingMembers, depthLimit]
  obtain ⟨ms, hf, hl⟩ := fields_canonical ["protocol", "type", "startup_nonce", "payload"]
    [("protocol", .str PROTOCOL_VERSION), ("type", .str command.name),
      ("startup_nonce", .str startupNonce), ("payload", .obj [("command", .str command.name)])]
    (by simp) (by simp)
  have hms : canonicalValue (brokerCommand startupNonce command) = .obj ms := by
    rw [brokerCommand, canonicalValue] at *
    rw [fields] at hf
    split at hf
    · cases hf
      rfl
    · cases hf
  have hrange : InRange (brokerCommand startupNonce command) := by
    simp [brokerCommand, InRange, InRangeMembers]
  refine ⟨ms, parseStrictJson_canonical hstrict hrange hnest (by rw [hms]), ?_, ?_⟩
  · rw [textMember, hl]
    rfl
  · rw [textMember, hl]
    rfl

/-- A nonce within the limit leaves the command short. -/
theorem brokerCommand_fits {startupNonce : String} (h : (utf8 startupNonce).length ≤ 256)
    (command : ControlCommand) :
    (canonicalJson (brokerCommand startupNonce command)).length ≤ SOCKET_FRAME_BYTES := by
  have hn := escapedSize_le h
  have hc : escapedSize command.name ≤ 6 := by cases command <;> decide
  rw [canonicalJson_length, brokerCommand, size_obj, SOCKET_FRAME_BYTES]
  simp only [membersSize, List.map_cons, List.map_nil, List.sum_cons, List.sum_nil, size_str,
    size_obj, show escapedSize PROTOCOL_VERSION = 21 from rfl,
    show escapedSize "protocol" = 8 from rfl, show escapedSize "type" = 4 from rfl,
    show escapedSize "startup_nonce" = 13 from rfl, show escapedSize "payload" = 7 from rfl,
    show escapedSize "command" = 7 from rfl]
  omega

theorem report_object (config : BridgeConfig) (command : ControlCommand) :
    Strict (report config command) ∧ InRange (report config command) ∧
      nesting (report config command) ≤ 1 ∧ ∃ ms, canonicalValue (report config command) = .obj ms := by
  cases command with
  | doctor =>
    refine ⟨?_, ?_, ?_, _, rfl⟩
    · simp [report, doctorReport, Strict, StrictMembers]
    · simp [report, doctorReport, InRange, InRangeMembers]
    · simp [report, doctorReport, nesting, nestingMembers]
  | reload =>
    refine ⟨?_, ?_, ?_, _, rfl⟩
    · simp [report, reloadReport, Strict, StrictMembers]
    · simp [report, reloadReport, InRange, InRangeMembers]
    · simp [report, reloadReport, nesting, nestingMembers]

/-- The wrapper prints the bridge's report. -/
theorem response_read (config : BridgeConfig) (command : ControlCommand) :
    readBrokerResponse (canonicalJson (command.response config)) =
      .ok (canonicalText (report config command)) := by
  obtain ⟨hstrict, hrange, hnest, reported, hobj⟩ := report_object config command
  have hparse : parseStrictJson BrokerResponse.ofJson (canonicalJson (command.response config)) =
      .ok ⟨PROTOCOL_VERSION, command.name ++ "_response", "ok",
        some (canonicalValue (report config command)), none⟩ := by
    refine parseStrictJson_canonical ?_ ?_ ?_ ?_
    · simp [ControlCommand.response, commandResponse, Strict, StrictMembers, hstrict]
    · simp [ControlCommand.response, commandResponse, InRange, InRangeMembers, hrange]
    · simp only [ControlCommand.response, commandResponse, nesting, nestingMembers, depthLimit]
      omega
    · obtain ⟨ms, hf, hl⟩ := fields_canonical BrokerResponse.names
        [("protocol", .str PROTOCOL_VERSION), ("type", .str (command.name ++ "_response")),
          ("status", .str "ok"), ("response", report config command)]
        (by simp) (by simp [BrokerResponse.names])
      refine reads hf ?_
      refine reads (required_str hl (k := "protocol") rfl) ?_
      refine reads (required_str hl (k := "type") rfl) ?_
      refine reads (required_str hl (k := "status") rfl) ?_
      refine reads (optional_canonical hl (k := "response") rfl
        (@asOption_obj _ some _ _ rfl (by rw [hobj]; simp))) ?_
      refine reads (optional_none (k := "error") (by rw [hl]; rfl)) ?_
      rfl
  rw [readBrokerResponse, hparse]
  simp [canonicalText]

theorem handleFirst_command {startupNonce : String} {s : Supervisor} (command : ControlCommand)
    (h : admitsBroker s.config startupNonce = true) (w : Wire) (i : IssueInput) :
    handleFirst s w i (.ok (some (canonicalJson (brokerCommand startupNonce command)))) =
      (command.apply s, (sendValue w (command.response s.config)).map .done) := by
  obtain ⟨ms, hparse, htype, hnonce⟩ := brokerCommand_read startupNonce command
  have hvalue := brokerValue_admitted hparse hnonce h
  cases command with
  | doctor =>
    simp only [handleFirst, hvalue, htype, ControlCommand.name, Option.getD_some]
    rw [if_neg (by decide), if_pos trivial]
    rfl
  | reload =>
    simp only [handleFirst, hvalue, htype, ControlCommand.name, Option.getD_some]
    rw [if_neg (by decide), if_neg (by decide), if_pos trivial]
    rfl

theorem readNonce_length {brokerNonce : Option String} {startupNonce : String}
    (h : readNonce brokerNonce = .ok startupNonce) : (utf8 startupNonce).length ≤ 256 := by
  cases brokerNonce with
  | none => cases h
  | some nonce =>
    rw [readNonce, ite_error_ok] at h
    obtain ⟨hlen, h⟩ := h
    cases h
    simp only [not_or, Nat.not_lt] at hlen
    exact hlen.2

theorem controlCommand_eq (w : ControlScene) (brokerNonce : Option String)
    (command : ControlCommand) (s : Supervisor) :
    controlCommand w brokerNonce command s = controlCall w brokerNonce command s := by
  unfold controlCommand controlCall
  by_cases hw : ¬ w.connects = true
  · rw [if_pos hw, if_pos hw]
  rw [if_neg hw, if_neg hw]
  cases hn : readNonce brokerNonce with
  | error error => rfl
  | ok startupNonce =>
    dsimp only
    obtain ⟨sent, hsend, hreceive⟩ :=
      w.commandWire.send_ok (brokerCommand_fits (readNonce_length hn) command)
    rw [hsend]
    dsimp only
    rw [hreceive]
    by_cases hbroker : admitsBroker s.config startupNonce = true
    · rw [if_neg (not_not.mpr hbroker), handleFirst_command command hbroker]
      by_cases hsize : SOCKET_FRAME_BYTES < size (command.response s.config)
      · rw [if_pos hsize, sendValue,
          w.responseWire.send_tooLarge (by rw [canonicalJson_length]; exact hsize)]
        rfl
      · rw [if_neg hsize]
        have hfits : (canonicalJson (command.response s.config)).length ≤ SOCKET_FRAME_BYTES := by
          rw [canonicalJson_length]
          exact Nat.not_lt.mp hsize
        obtain ⟨sent', hsend', hreceive'⟩ := w.responseWire.send_ok hfits
        rw [sendValue, hsend', orFrame, Except.map]
        dsimp only
        rw [hreceive', awaitFrame, Except.bind, response_read]
    · rw [if_pos hbroker]
      obtain ⟨ms, hparse, -, hnonce⟩ := brokerCommand_read startupNonce command
      obtain ⟨error, he⟩ := brokerValue_closed hparse hnonce (by simpa using hbroker)
      rw [handleFirst, he]

/-! ## After a reload -/

theorem issuePermit_cancelled {s : Supervisor} (hs : s.cancelled = true) (r : PermitRequest)
    (now nowMillis : UInt64) (requestId : OpaqueId) (key : Key) :
    ∃ error, s.issuePermit r now nowMillis requestId key = (s, .error error) := by
  unfold Supervisor.issuePermit
  cases hc : s.checkIssue r with
  | error error => exact ⟨error, rfl⟩
  | ok u =>
    obtain ⟨_, -, hcancel⟩ := bind_ok hc
    rw [hs, if_pos rfl] at hcancel
    cases hcancel

theorem map_done_ne {x : Except BridgeError Bytes} {sent : Bytes} {key : Key}
    {permit : RequestPermit} : x.map BrokerAnswer.done ≠ .ok (.permitted sent key permit) := by
  cases x <;> simp [Except.map]

/-- With the signal up no frame is answered with a permit. -/
theorem handleFirst_cancelled {s s' : Supervisor} (hs : s.cancelled = true) {w : Wire}
    {i : IssueInput} {received : Except FrameError (Option Bytes)}
    {answer : Except BridgeError BrokerAnswer} (h : handleFirst s w i received = (s', answer)) :
    s' = s ∧ ∀ sent key permit, answer ≠ .ok (.permitted sent key permit) := by
  have hcancel : s.cancel = s := by
    obtain ⟨config, scheduler, lease, next, issued, consumed, highest, active, cancelled⟩ := s
    cases hs
    rfl
  unfold handleFirst at h
  split at h
  · cases h
    exact ⟨rfl, by simp⟩
  dsimp only at h
  split at h
  · split at h
    · cases h
      exact ⟨rfl, by simp⟩
    · rename_i request hrequest
      obtain ⟨error, hi⟩ := issuePermit_cancelled hs request i.now i.nowMillis i.requestId i.key
      rw [hi] at h
      cases h
      exact ⟨rfl, fun _ _ _ => map_done_ne⟩
  split at h
  · cases h
    exact ⟨rfl, fun _ _ _ => map_done_ne⟩
  split at h
  · cases h
    exact ⟨hcancel, fun _ _ _ => map_done_ne⟩
  · cases h
    exact ⟨rfl, by simp⟩

/-- No run is given a permit while the signal is up. -/
theorem execute_cancelled (c : Primitives) (w : Scene) (env : WrapperEnv) (chunks : List Bytes)
    {s : Supervisor} (hs : s.cancelled = true) :
    (execute c w env chunks s).1 = s ∧ ∀ r, (execute c w env chunks s).2 ≠ .ok r := by
  unfold execute
  cases readArgs env chunks with
  | error error => simp
  | ok a =>
    dsimp only
    split
    · unfold exchange
      cases w.requestWire.send (canonicalJson (permitRequestJson a)) with
      | error error => simp
      | ok sent =>
        dsimp only
        cases h : handleFirst s w.permitWire w.issue (w.requestWire.receive sent) with
        | mk s' answer =>
          obtain ⟨rfl, hnone⟩ := handleFirst_cancelled hs h
          cases answer with
          | error error => simp
          | ok answer =>
            cases answer with
            | done sent =>
              dsimp only
              split <;> simp
            | permitted sent key permit => exact absurd rfl (hnone sent key permit)
    · simp

/-- **A command is its call**, and after a reload no run is given a permit: every one of them fails
and leaves the supervisor as it is, until someone else lowers the signal. -/
theorem reload_closes (w : ControlScene) (brokerNonce : Option String) (command : ControlCommand)
    (s : Supervisor) :
    controlCommand w brokerNonce command s = controlCall w brokerNonce command s ∧
    ∀ s' text, controlCommand w brokerNonce .reload s = (s', .ok text) →
      s' = s.cancel ∧ text = canonicalText reloadReport ∧
      ∀ c w' env chunks, (execute c w' env chunks s').1 = s' ∧
        ∀ r, (execute c w' env chunks s').2 ≠ .ok r := by
  refine ⟨controlCommand_eq w brokerNonce command s, fun s' text h => ?_⟩
  rw [controlCommand_eq] at h
  unfold controlCall at h
  split at h
  · cases h
  split at h
  · cases h
  split at h
  · cases h
  split at h
  · cases h
  · cases h
    exact ⟨rfl, rfl, fun c w' env chunks => execute_cancelled c w' env chunks rfl⟩

def controlScene : ControlScene := ⟨true, plainWire, plainWire, ⟨0, 0, sampleId, plainKey⟩⟩

theorem reload_closes_sample :
    controlCommand controlScene (some "n1") .reload brokerSupervisor =
        (brokerSupervisor.cancel, .ok (canonicalText reloadReport)) ∧
      ∀ c w' env chunks, (execute c w' env chunks brokerSupervisor.cancel).1 =
        brokerSupervisor.cancel := by
  have h := (reload_closes controlScene (some "n1") .reload brokerSupervisor).1
  have hcall : controlCall controlScene (some "n1") .reload brokerSupervisor =
      (brokerSupervisor.cancel, .ok (canonicalText reloadReport)) := by
    have hnonce : readNonce (some "n1") = .ok "n1" := by rfl
    have hbroker : admitsBroker brokerSupervisor.config "n1" = true := by decide
    have hsize : ¬ SOCKET_FRAME_BYTES <
        size (ControlCommand.reload.response brokerSupervisor.config) := by decide
    have hconnects : ¬ ¬ controlScene.connects = true := by simp [controlScene]
    rw [controlCall, if_neg hconnects, hnonce]
    dsimp only
    rw [if_neg (not_not.mpr hbroker), if_neg hsize]
    rfl
  rw [hcall] at h
  refine ⟨h, fun c w' env chunks => ?_⟩
  exact ((reload_closes controlScene (some "n1") .reload brokerSupervisor).2 _ _ h).2.2 c w' env
    chunks |>.1

end Wrapper
end EgoBridge
