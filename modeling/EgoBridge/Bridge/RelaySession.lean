import EgoBridge.Bridge.Registry
import EgoBridge.Protocol.Locks

/-!
# Bridge.RelaySession

The relay sessions of one bridge: `run_relay_session`, the executions it spawns, and the loop of
`run_outbound` that connects again.

A session is cut at its looks at the signal, its waits and its sends. In between the executions
drop their guards and come to their results, and anyone may raise the signal or change the lease.
`prepare_remote_execution` and `cancel_remote_request` are one step each: what runs beside them
only drops guards, which may as well happen before or after.

* `OutboundStep`, `outbound` — the steps, and the runs from a supervisor's making.
* `prepare_effect`           — what preparing an execution does to the supervisor.
* `receive_execute`          — an execute frame that can be prepared is spawned.
-/

namespace EgoBridge
namespace Bridge

open Protocol Json Run

def MAX_FRAME_BYTES : Nat := 16 * 1024 * 1024

/-! ## Executions -/

/-- What a spawned execution comes to. -/
inductive TaskResult where
  | returned (result : Except BridgeError OuterEnvelope)
  | panicked
  deriving DecidableEq

/-- How the work of an execution ends. The nonce is that of its answer. -/
inductive TaskEnd where
  | process (result : ProcessResult) (stdout stderr : String) (durationMs : UInt64) (nonce : Nonce)
  | panic

/-- The lock of an execution, with the scope it was taken for. -/
def RemoteExecution.held : RemoteExecution → Option Held
  | .answered _ => none
  | .running request guard _ _ =>
    some ⟨.normalized (some request.concurrencyMode) request.taskSpaceScope request.tabScope, guard⟩

def RemoteExecution.resolve (c : Primitives) : RemoteExecution → TaskEnd → TaskResult
  | .answered response, _ => .returned (.ok response)
  | .running _ _ _ _, .panic => .panicked
  | .running _ _ e key, .process result stdout stderr durationMs nonce =>
    .returned (sealResponse c (processResponse result stdout stderr durationMs e) e key nonce)

/-- A spawned execution; `id` is its place among all that were spawned. -/
structure Task where
  id : Nat
  frame : OuterEnvelope
  execution : RemoteExecution
  /-- Its guard has not been dropped. -/
  guarded : Bool
  result : Option TaskResult

def Task.held (t : Task) : Option Held := if t.guarded then t.execution.held else none

/-! ## Sessions -/

inductive RelaySessionOutcome where
  | disconnected
  | shutdown
  deriving DecidableEq

abbrev SessionExit := Except BridgeError RelaySessionOutcome

inductive RelayMessage where
  | binary (bytes : Bytes)
  /-- A ping, and whether its pong can be sent. -/
  | ping (sent : Bool)
  | pong
  | closed
  | text

structure PrepareInput where
  now : UInt64
  persisted : Except BridgeError Unit
  cancelledLater : Bool
  nonce : Nonce

/-- The signal is looked at from `top` and from `completed`. `cancelling` and `reaping` are
`cancel_and_reap` before and after the signal is raised. -/
inductive SessionPoint where
  | top
  | select
  | completed (t : Task) (response : OuterEnvelope)
  | checked (t : Task) (response : OuterEnvelope)
  | cancelling (exit : SessionExit)
  | reaping (exit : SessionExit)
  | returned (exit : SessionExit)

inductive OutboundPhase where
  /-- Asking for a ticket and dialing, for the first time or again. -/
  | dialing (first : Bool)
  | session (p : SessionPoint)
  | stopped

inductive SessionEvent where
  | accepted (id : Nat) (frame : OuterEnvelope)
  | completed (id : Nat)
  /-- The signal was read after the execution had completed. -/
  | looked (id : Nat) (cancelled : Bool)
  | sent (id : Nat) (response : OuterEnvelope)
  deriving DecidableEq

structure OutboundState where
  sup : Supervisor
  phase : OutboundPhase
  /-- The executions whose results the session has not taken. -/
  pending : List Task
  spawned : Nat
  log : List SessionEvent

namespace OutboundState

/-- `cancel_and_reap`, and what the session will return. -/
def leave (s : OutboundState) (exit : SessionExit) : OutboundState :=
  { s with phase := .session (.cancelling exit) }

def goto (s : OutboundState) (p : SessionPoint) : OutboundState := { s with phase := .session p }

def look (s : OutboundState) (next : SessionPoint) : OutboundState :=
  if s.sup.cancelled then s.leave (.ok .disconnected) else s.goto next

def taken (s : OutboundState) (t : Task) : TaskResult → OutboundState
  | .returned (.ok response) => s.goto (.completed t response)
  | .returned (.error error) => s.leave (.error error)
  | .panicked => s.leave (.error (.protocolMessage "relay execution task failed"))

def recheck (s : OutboundState) (t : Task) (response : OuterEnvelope) : OutboundState :=
  { s with log := .looked t.id s.sup.cancelled :: s.log }.look (.checked t response)

def send (s : OutboundState) (t : Task) (response : OuterEnvelope) (ok : Bool) : OutboundState :=
  if ok then
    { s with
      sup := s.sup.finishRemoteRequest response
      log := .sent t.id response :: s.log }.goto .top
  else s.leave (.error (.protocolMessage "relay response send failed"))

def readFrame (bytes : Bytes) : Except BridgeError OuterEnvelope :=
  if MAX_FRAME_BYTES < bytes.length then .error (.protocolMessage "relay frame is too large")
  else
    match parseStrictJson OuterEnvelope.ofJson bytes with
    | .error error => .error (.protocolMessage error.message)
    | .ok envelope => do
      orProtocol (envelope.validate MAX_FRAME_BYTES)
      if envelope.direction ≠ .request then
        .error (.protocolMessage "invalid relay request envelope")
      else .ok envelope

section

variable (c : Primitives) (secret : Key)

/-- `tokio::spawn` of a prepared execution. -/
def spawn (s : OutboundState) (sup : Supervisor) (frame : OuterEnvelope)
    (execution : RemoteExecution) : OutboundState where
  sup := sup
  phase := .session .top
  pending := ⟨s.spawned, frame, execution, true, none⟩ :: s.pending
  spawned := s.spawned + 1
  log := .accepted s.spawned frame :: s.log

def handleFrame (s : OutboundState) (i : PrepareInput) (frame : OuterEnvelope) : OutboundState :=
  if frame.messageType = .cancel then
    match s.sup.cancelRemoteRequest c frame with
    | (sup, .error error) => { s with sup := sup }.leave (.error error)
    | (sup, .ok _) => { s with sup := sup }.goto .top
  else if frame.messageType ≠ .execute then
    s.leave (.error (.protocolMessage "invalid relay request envelope"))
  else if s.sup.config.maxParallelRequests + 1 ≤ s.pending.length then
    s.leave (.error (.protocolMessage "relay exceeded its bounded request window"))
  else
    match s.sup.prepareRemoteExecution c frame secret i.now i.persisted i.cancelledLater
      i.nonce with
    | (sup, .error error) =>
      { s with sup := sup.sendCancel (sup.cancelled || i.cancelledLater) }.leave (.error error)
    | (sup, .ok execution) =>
      s.spawn (sup.sendCancel (sup.cancelled || i.cancelledLater)) frame execution

def receive (s : OutboundState) (i : PrepareInput) : RelayMessage → OutboundState
  | .binary bytes =>
    match readFrame bytes with
    | .error error => s.leave (.error error)
    | .ok frame => s.handleFrame c secret i frame
  | .ping true => s.goto .top
  | .ping false => s.leave (.error (.protocolMessage "relay pong failed"))
  | .pong => s.goto .top
  | .closed => s.leave (.ok .disconnected)
  | .text => s.leave (.error (.protocolMessage "relay message must be binary"))

end

/-- A socket has been opened. Only a lease that still holds lowers the signal. -/
def connect (s : OutboundState) (first : Bool) (now : UInt64) : OutboundState :=
  if first then s.goto .top
  else
    match s.sup.resumeAfterReconnect now with
    | (sup, .error _) => { s with sup := sup, phase := .stopped }
    | (sup, .ok ()) => { s with sup := sup }.goto .top

/-- After a session; with `once` there is no second one. -/
def after (s : OutboundState) (once : Bool) : SessionExit → OutboundState
  | .ok .disconnected => { s with phase := if once then .stopped else .dialing false }
  | _ => { s with phase := .stopped }

/-- Whatever else happens to the supervisor: the lease and the permits change, and the signal is
raised or left alone. -/
def other (s : OutboundState) (sup : Supervisor) : OutboundState :=
  { s with
    sup :=
      { s.sup with
        lease := sup.lease
        nextSequence := sup.nextSequence
        issuedPermits := sup.issuedPermits
        consumedSequences := sup.consumedSequences
        cancelled := s.sup.cancelled || sup.cancelled } }

end OutboundState

inductive OutboundAct where
  | look
  | changed
  | take (t : Task)
  | recheck
  | send (ok : Bool)
  | receive (i : PrepareInput) (m : RelayMessage)
  | cancel
  | reap (t : Task)
  | clear
  | release (t : Task)
  | complete (t : Task) (e : TaskEnd)
  | other (sup : Supervisor)
  | connect (now : UInt64)
  | after (once : Bool)
  | shutdown
  | stop

open OutboundState in
inductive OutboundStep (c : Primitives) (secret : Key) :
    OutboundState → OutboundAct → OutboundState → Prop where
  | look {s : OutboundState} : s.phase = .session .top →
      OutboundStep c secret s .look (s.look .select)
  | changed {s : OutboundState} : s.phase = .session .select →
      OutboundStep c secret s .changed (s.look .top)
  | take {s : OutboundState} {l r : List Task} {t : Task} {result : TaskResult} :
      s.phase = .session .select → s.pending = l ++ t :: r → t.result = some result →
      OutboundStep c secret s (.take t) ({ s with pending := l ++ r }.taken t result)
  | recheck {s : OutboundState} {t : Task} {response : OuterEnvelope} :
      s.phase = .session (.completed t response) →
      OutboundStep c secret s .recheck (s.recheck t response)
  | send {s : OutboundState} {t : Task} {response : OuterEnvelope} {ok : Bool} :
      s.phase = .session (.checked t response) →
      OutboundStep c secret s (.send ok) (s.send t response ok)
  | receive {s : OutboundState} {i : PrepareInput} {m : RelayMessage} :
      s.phase = .session .select → OutboundStep c secret s (.receive i m) (s.receive c secret i m)
  | cancel {s : OutboundState} {exit : SessionExit} : s.phase = .session (.cancelling exit) →
      OutboundStep c secret s .cancel ({ s with sup := s.sup.cancel }.goto (.reaping exit))
  | reap {s : OutboundState} {l r : List Task} {t : Task} {result : TaskResult}
      {exit : SessionExit} : s.phase = .session (.reaping exit) → s.pending = l ++ t :: r →
      t.result = some result → OutboundStep c secret s (.reap t) { s with pending := l ++ r }
  | clear {s : OutboundState} {exit : SessionExit} : s.phase = .session (.reaping exit) →
      s.pending = [] →
      OutboundStep c secret s .clear
        ({ s with sup := s.sup.clearRemoteRequests }.goto (.returned exit))
  | release {s : OutboundState} {l r : List Task} {t : Task} {h : Held} :
      s.pending = l ++ t :: r → t.held = some h →
      OutboundStep c secret s (.release t)
        { s with
          sup := s.sup.dropGuard h.guard
          pending := l ++ { t with guarded := false } :: r }
  | complete {s : OutboundState} {l r : List Task} {t : Task} {e : TaskEnd} :
      s.pending = l ++ t :: r → t.held = none → t.result = none →
      OutboundStep c secret s (.complete t e)
        { s with
          pending := l ++ { t with result := some (t.execution.resolve c e) } :: r
          log := .completed t.id :: s.log }
  | other {s : OutboundState} {sup : Supervisor} :
      OutboundStep c secret s (.other sup) (s.other sup)
  | connect {s : OutboundState} {first : Bool} {now : UInt64} : s.phase = .dialing first →
      OutboundStep c secret s (.connect now) (s.connect first now)
  | after {s : OutboundState} {once : Bool} {exit : SessionExit} :
      s.phase = .session (.returned exit) →
      OutboundStep c secret s (.after once) (s.after once exit)
  /-- The session's future is dropped where it stands. -/
  | shutdown {s : OutboundState} :
      OutboundStep c secret s .shutdown { s with sup := s.sup.cancel, phase := .stopped }
  | stop {s : OutboundState} : OutboundStep c secret s .stop { s with phase := .stopped }

def outbound (c : Primitives) (secret : Key) : System OutboundAct OutboundState where
  init := fun s => (∃ config highest now, Supervisor.new config highest now = .ok s.sup) ∧
    s.phase = .dialing true ∧ s.pending = [] ∧ s.spawned = 0 ∧ s.log = []
  step := OutboundStep c secret

/-! ## What preparing an execution does -/

structure Replies (response request : OuterEnvelope) : Prop where
  key : RemoteRequestKey.fromEnvelope response = .fromEnvelope request
  messageType : response.messageType = .executeResult
  direction : response.direction = .response

theorem sealResponse_replies {c : Primitives} {inner : InnerExecuteResponse}
    {request response : OuterEnvelope} {key : Key} {nonce : Nonce}
    (h : sealResponse c inner request key nonce = .ok response) : Replies response request := by
  refine ⟨sealResponse_key h, ?_, ?_⟩
  all_goals
    unfold sealResponse at h
    dsimp only at h
    split at h
    · cases h
    · cases h
      rfl

/-- A lock was not taken, or taken and dropped again. -/
def Tried (a b : Scheduler) : Prop :=
  b = a ∨ ∃ generation requestId scope guard taken, RequestScope.Normal scope ∧
    a.tryAcquire generation requestId scope = .ok (guard, taken) ∧ b = taken.release guard

theorem Tried.inv {a b : Scheduler} (ht : Tried a b) {maximum : Nat} {held : List Held}
    (hi : Locks.Inv maximum ⟨a, held⟩) : Locks.Inv maximum ⟨b, held⟩ := by
  obtain rfl | ⟨generation, requestId, scope, guard, taken, hn, hacq, rfl⟩ := ht
  · exact hi
  · exact Locks.Inv.dropped (l := []) (hi.acquired hn hacq)

namespace Supervisor

theorem acquireRemote_cases (s : Supervisor) (e : OuterEnvelope) (request : InnerExecuteRequest) :
    (∃ status, s.acquireRemote e request = (s, .error status)) ∨
    ∃ guard taken, s.scheduler.tryAcquire e.generation e.requestId
        (.normalized (some request.concurrencyMode) request.taskSpaceScope request.tabScope) =
          .ok (guard, taken) ∧
      s.acquireRemote e request = ({ s with scheduler := taken }, .ok guard) := by
  unfold acquireRemote
  dsimp only
  split
  · exact .inr ⟨_, _, ‹_›, rfl⟩
  all_goals exact .inl ⟨_, rfl⟩

inductive Launched (s : Supervisor) (e : OuterEnvelope) :
    Supervisor → Except BridgeError RemoteExecution → Prop where
  | refused {scheduler : Scheduler} {error : BridgeError} : Tried s.scheduler scheduler →
      Launched s e { s with scheduler := scheduler } (.error error)
  | answered {scheduler : Scheduler} {response : OuterEnvelope} : Tried s.scheduler scheduler →
      Replies response e →
      Launched s e { s with scheduler := scheduler } (.ok (.answered response))
  | running {scheduler : Scheduler} {request : InnerExecuteRequest} {guard : PermitGuard}
      {key : Key} :
      s.scheduler.tryAcquire e.generation e.requestId
        (.normalized (some request.concurrencyMode) request.taskSpaceScope request.tabScope) =
          .ok (guard, scheduler) →
      Launched s e
        { s with
          scheduler := scheduler
          activeRemoteRequests := s.activeRemoteRequests.insert (.fromEnvelope e) ⟨false, key⟩ }
        (.ok (.running request guard e key))

theorem Launched.status {c : Primitives} {s : Supervisor} {e : OuterEnvelope}
    {scheduler : Scheduler} (ht : Tried s.scheduler scheduler) (status : ExecutionStatus)
    (key : Key) (nonce : Nonce) :
    s.Launched e { s with scheduler := scheduler }
      ((sealStatusResponse c status e key nonce).map .answered) := by
  cases hs : sealStatusResponse c status e key nonce with
  | error error => exact .refused ht
  | ok response => exact .answered ht (sealResponse_replies hs)

theorem launch_effect (c : Primitives) (s : Supervisor) (e : OuterEnvelope) (secret : Key)
    (cancelledLater : Bool) (nonce : Nonce) :
    s.Launched e (s.launchRemote c e secret cancelledLater nonce).1
      (s.launchRemote c e secret cancelledLater nonce).2 := by
  unfold launchRemote
  split
  · exact .refused (.inl rfl)
  · exact .status (.inl rfl) .protocolError _ nonce
  · rename_i key request _
    obtain ⟨status, ha⟩ | ⟨guard, taken, htry, ha⟩ := s.acquireRemote_cases e request
    · rw [ha]
      exact .status (.inl rfl) status _ nonce
    · have ht : Tried s.scheduler (taken.release guard) :=
        .inr ⟨_, _, _, guard, taken, RequestScope.normalized_normal _ _ _, htry, rfl⟩
      rw [ha]
      dsimp only
      split
      · exact .status ht .bindingRevoked key nonce
      · unfold registerRemote
        split
        · rename_i h
          split at h
          · cases h
            exact .refused ht
          · cases h
        · rename_i h
          split at h
          · cases h
          · cases h
            exact .running htry

/-- What `prepare_remote_execution` does: the number it reserves is above every earlier one, and
what it returns answers this frame. -/
inductive Prepared (s : Supervisor) (e : OuterEnvelope) :
    Supervisor → Except BridgeError RemoteExecution → Prop where
  | unreserved {error : BridgeError} : Prepared s e s (.error error)
  | reserved {s' : Supervisor} {r : Except BridgeError RemoteExecution} :
      s.highestRemoteSequence < e.sequence →
      Launched { s with highestRemoteSequence := e.sequence } e s' r → Prepared s e s' r

theorem prepare_effect (c : Primitives) (s : Supervisor) (e : OuterEnvelope) (secret : Key)
    (i : PrepareInput) :
    s.Prepared e
      (s.prepareRemoteExecution c e secret i.now i.persisted i.cancelledLater i.nonce).1
      (s.prepareRemoteExecution c e secret i.now i.persisted i.cancelledLater i.nonce).2 := by
  unfold prepareRemoteExecution
  split
  · exact .unreserved
  · unfold reserveRemoteSequence
    split
    · rename_i h
      split at h
      · cases h
        exact .unreserved
      · split at h
        · cases h
          exact .unreserved
        · cases h
    · rename_i h
      split at h
      · cases h
      · rename_i hlt
        split at h
        · cases h
        · cases h
          exact .reserved (UInt64.not_le.mp hlt) (launch_effect c _ e secret _ _)

theorem Prepared.cancelled {s s' : Supervisor} {e : OuterEnvelope}
    {r : Except BridgeError RemoteExecution} (h : s.Prepared e s' r) :
    s'.cancelled = s.cancelled := by
  cases h with
  | unreserved => rfl
  | reserved _ hl => cases hl <;> rfl

theorem cancelRemoteRequest_effect (c : Primitives) (s : Supervisor) (e : OuterEnvelope) :
    ∃ registry, (s.cancelRemoteRequest c e).1 = { s with activeRemoteRequests := registry } := by
  unfold cancelRemoteRequest
  split
  · exact ⟨_, rfl⟩
  · split
    · exact ⟨_, rfl⟩
    · split <;> exact ⟨_, rfl⟩

end Supervisor

/-! ## One session -/

def sampleTask : Task where
  id := 0
  frame := sampleEnvelope
  execution := .running sampleRequest sampleGuard sampleEnvelope sampleKey
  guarded := true
  result := none

theorem sampleEnvelope_read :
    OutboundState.readFrame (canonicalJson sampleEnvelope.toJson) = .ok sampleEnvelope := by
  have hparse : parseStrictJson OuterEnvelope.ofJson (canonicalJson sampleEnvelope.toJson) =
    .ok sampleEnvelope := (sampleEnvelope.codec (by decide)).parse (by decide)
  have hlen : ¬ MAX_FRAME_BYTES < (canonicalJson sampleEnvelope.toJson).length := by
    rw [canonicalJson_length]
    exact Nat.not_lt.mpr sampleEnvelope_wireSize
  have hvalid : sampleEnvelope.validate MAX_FRAME_BYTES = .ok () :=
    OuterEnvelope.validate_ok.mpr sampleEnvelope_valid
  rw [OutboundState.readFrame, if_neg hlen, hparse]
  dsimp only
  rw [hvalid]
  rfl

theorem OutboundState.receive_execute {c : Primitives} {secret : Key} {s : OutboundState}
    {i : PrepareInput} {bytes : Bytes} {frame : OuterEnvelope} {sup : Supervisor}
    {execution : RemoteExecution} (hread : readFrame bytes = .ok frame)
    (ht : frame.messageType = .execute)
    (hw : s.pending.length ≤ s.sup.config.maxParallelRequests)
    (hp : s.sup.prepareRemoteExecution c frame secret i.now i.persisted i.cancelledLater i.nonce =
      (sup, .ok execution)) :
    s.receive c secret i (.binary bytes) =
      s.spawn (sup.sendCancel (sup.cancelled || i.cancelledLater)) frame execution := by
  rw [receive, hread]
  dsimp only
  rw [handleFrame, ht, if_neg (by decide), if_neg (by decide), if_neg (by omega), hp]

theorem sample_spawned : ∃ sup, sup.cancelled = false ∧
    (outbound plainCipher sampleKey).Reachable
      ⟨sup, .session .top, [sampleTask], 1, [.accepted 0 sampleEnvelope]⟩ := by
  let i : PrepareInput := ⟨0, .ok (), false, sampleNonce⟩
  have hstart : (outbound plainCipher sampleKey).Reachable
      ⟨sampleSupervisor, .dialing true, [], 0, []⟩ :=
    .start ⟨⟨.bound, 0, 0, rfl⟩, rfl, rfl, rfl, rfl⟩
  have hselect : (outbound plainCipher sampleKey).Reachable
      ⟨sampleSupervisor, .session .select, [], 0, []⟩ :=
    (hstart.next (.connect 0) (.connect rfl)).next .look (.look rfl)
  have hrun : (sampleSupervisor.prepareRemoteExecution plainCipher sampleEnvelope sampleKey i.now
      i.persisted i.cancelledLater i.nonce).2 = .ok sampleTask.execution :=
    Supervisor.prepare_starts sampleEnvelope_checked (by decide) sampleEnvelope_opened_plain rfl
      Finmap.notMem_empty
  have heffect := (sampleSupervisor.prepare_effect plainCipher sampleEnvelope sampleKey i).cancelled
  generalize hp : sampleSupervisor.prepareRemoteExecution plainCipher sampleEnvelope sampleKey i.now
    i.persisted i.cancelledLater i.nonce = p at hrun heffect
  obtain ⟨sup, r⟩ := p
  cases hrun
  have hlowered : sup.cancelled = false := heffect
  have hnext := hselect.next (.receive i (.binary (canonicalJson sampleEnvelope.toJson)))
    (.receive rfl)
  have hspawn := OutboundState.receive_execute
    (s := ⟨sampleSupervisor, .session .select, [], 0, []⟩) (i := i) sampleEnvelope_read rfl
    (Nat.zero_le _) hp
  rw [hspawn] at hnext
  exact ⟨sup.sendCancel (sup.cancelled || false), by simpa using hlowered, hnext⟩

end Bridge
end EgoBridge
