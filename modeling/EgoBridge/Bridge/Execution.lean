import EgoBridge.Bridge.Supervisor

/-!
# Bridge.Execution

One execution, from its request's arrival to its result: `execute` (a local call) and
`prepare_remote_execution` with the future it returns, down to the polling loop of `run_process`.

An execution looks at the supervisor's signal and lease at a few points and works by itself in
between, so it is the list of its stages, each of which is one look or one piece of work. What a
stage reads besides the supervisor (the clock, how its work ends, the child, the request's own
signal) is its input. The loop may look at the signal at any time; the source wakes after a send.

* `conclude`        — the result `run_process` computes after its loop.
* `Execution.next`  — the next stage, or the result.
-/

namespace EgoBridge
namespace Bridge

open Protocol

/-- A child's output, cut at its limit. -/
structure BoundedCapture where
  bytes : Bytes
  exceeded : Bool
  failed : Bool
  deriving DecidableEq

/-- What `run_process` returns, but for the two texts. -/
structure ProcessResult where
  status : ExecutionStatus
  exitCode : Option Int32
  artifacts : List ArtifactDescriptor
  deriving DecidableEq

/-- After the loop: a status it set, the two signals, the captures, the artifacts. -/
def conclude (status : Option ExecutionStatus) (cancelled requestCancelled : Bool)
    (stdout stderr : BoundedCapture) (exitCode : Option Int32)
    (artifacts : Option (List ArtifactDescriptor)) : ProcessResult :=
  let status :=
    if status.isNone && cancelled then some .bindingRevoked
    else if status.isNone && requestCancelled then some .cancelled
    else status
  let status :=
    if status.isNone && (stdout.exceeded || stderr.exceeded || stdout.failed || stderr.failed) then
      some (if stdout.failed || stderr.failed then .bridgeUnavailable else .protocolError)
    else status
  match status with
  | some status => ⟨status, none, []⟩
  | none =>
    match artifacts with
    | none => ⟨.artifactError, exitCode, []⟩
    | some artifacts =>
      ⟨if exitCode = some 0 then .completed else .scriptError, exitCode, artifacts⟩

def ranToEnd : ExecutionStatus → Bool
  | .completed => true
  | .scriptError => true
  | _ => false

theorem conclude_cancelled (requestCancelled : Bool) (stdout stderr : BoundedCapture)
    (exitCode : Option Int32) (artifacts : Option (List ArtifactDescriptor)) :
    (conclude none true requestCancelled stdout stderr exitCode artifacts).status =
      .bindingRevoked := by
  simp [conclude]

theorem conclude_some (status : ExecutionStatus) (cancelled requestCancelled : Bool)
    (stdout stderr : BoundedCapture) (exitCode : Option Int32)
    (artifacts : Option (List ArtifactDescriptor)) :
    (conclude (some status) cancelled requestCancelled stdout stderr exitCode artifacts).status =
      status := by
  simp [conclude]

/-! ## Stages -/

inductive ExecPath where
  | execute
  | relay
  deriving DecidableEq

/-- The points of an execution, in their order. It looks at the signal at `entry`, `recheck`,
`subscribe` and `spawned`. `prepare` is the work up to the second look, `launch` what is left before
`run_process`, which begins at `subscribe`. -/
inductive ExecStage where
  | entry
  | lease
  | prepare
  | recheck
  | launch
  | subscribe
  | subscribeRequest
  | setup
  | spawned
  | spawnedRequest
  | feed
  | poll
  | select
  | join (status : Option ExecutionStatus)
  deriving DecidableEq

namespace ExecStage

def isAdmitted : ExecStage → Bool
  | .entry => false
  | .lease => false
  | _ => true

def isRunning : ExecStage → Bool
  | .join _ => false
  | stage => stage.isAdmitted

def isReaped : ExecStage → Bool
  | .join none => true
  | _ => false

end ExecStage

inductive ExecResult where
  | refused (error : BridgeError)
  | answered (status : ExecutionStatus)
  deriving DecidableEq

def ExecResult.isSuccess : ExecResult → Bool
  | .answered status => ranToEnd status
  | .refused _ => false

def failsWith : ExecPath → ExecStage → ExecResult → Bool
  | _, .entry, .refused _ => true
  | _, .prepare, .refused _ => true
  | .relay, .prepare, .answered status =>
    status = .protocolError || status = .concurrencyConflict || status = .bridgeUnavailable
  | _, .launch, .refused _ => true
  | _, .setup, .answered status =>
    status = .bridgeUnavailable || status = .artifactError || status = .protocolError ||
      status = .egoRuntimeUnavailable
  | _, .feed, .answered status => status = .bridgeUnavailable
  | _, _, _ => false

inductive LoopEvent where
  | overflow
  | readerFailed
  | signal
  | request (raised : Bool)
  | deadline
  | tick
  deriving DecidableEq

inductive ExecInput where
  | done
  | fail (result : ExecResult)
  | clock (now : UInt64)
  | request (raised : Bool)
  | running
  | exited
  | waitFailed
  | event (event : LoopEvent)
  | finish (requestCancelled : Bool) (stdout stderr : BoundedCapture) (exitCode : Option Int32)
      (artifacts : Option (List ArtifactDescriptor))

structure Execution where
  path : ExecPath
  generation : UInt64
  stage : ExecStage
  deriving DecidableEq

namespace Execution

/-- The lease section of `execute`. -/
def leaseAccepts (s : Supervisor) (generation : UInt64) : Except BridgeError Unit :=
  if generation ≠ s.lease.generation ∨ s.lease.revoked then .error .revoked else .ok ()

/-- The lease section of `prepare_remote_execution`. -/
def leaseAdmits (s : Supervisor) (generation now : UInt64) : Except BridgeError Unit :=
  if generation ≠ s.lease.generation ∨ s.lease.revoked then .error .revoked
  else
    match s.lease.admitAt now .default with
    | .allowed => .ok ()
    | .renewalRequired => .error .leaseRenewalRequired
    | .expired => .error .leaseExpired
    | .bindingRevoked => .error .revoked

def leaseSection (e : Execution) (s : Supervisor) (now : UInt64) : Except BridgeError Unit :=
  match e.path with
  | .execute => leaseAccepts s e.generation
  | .relay => leaseAdmits s e.generation now

/-- One branch of the loop's `select!`: the status it ends the loop with, if it does. -/
def loopEvent (cancelled : Bool) : LoopEvent → Option ExecutionStatus
  | .overflow => some .protocolError
  | .readerFailed => some .bridgeUnavailable
  | .signal => if cancelled then some .bindingRevoked else none
  | .request raised => if raised then some .cancelled else none
  | .deadline => some .timeout
  | .tick => none

/-- The rest of the execution, or its result. `none` for an input the stage does not read. -/
def next (e : Execution) (s : Supervisor) (i : ExecInput) : Option (Execution ⊕ ExecResult) :=
  match e.stage, i with
  | .entry, .done =>
    if s.cancelled then some (.inr (.refused .revoked)) else some (.inl { e with stage := .lease })
  | .lease, .clock now =>
    match e.leaseSection s now with
    | .error error => some (.inr (.refused error))
    | .ok () => some (.inl { e with stage := .prepare })
  | .prepare, .done => some (.inl { e with stage := .recheck })
  | .recheck, .done =>
    if s.cancelled then
      some (.inr (match e.path with
        | .execute => .refused .revoked
        | .relay => .answered .bindingRevoked))
    else some (.inl { e with stage := .launch })
  | .launch, .done => some (.inl { e with stage := .subscribe })
  | .subscribe, .done =>
    if s.cancelled then some (.inr (.answered .bindingRevoked))
    else some (.inl { e with stage := .subscribeRequest })
  | .subscribeRequest, .request raised =>
    if raised then some (.inr (.answered .cancelled)) else some (.inl { e with stage := .setup })
  | .setup, .done => some (.inl { e with stage := .spawned })
  | .spawned, .done =>
    if s.cancelled then some (.inr (.answered .bindingRevoked))
    else some (.inl { e with stage := .spawnedRequest })
  | .spawnedRequest, .request raised =>
    if raised then some (.inr (.answered .cancelled)) else some (.inl { e with stage := .feed })
  | .feed, .done => some (.inl { e with stage := .poll })
  | .poll, .running => some (.inl { e with stage := .select })
  | .poll, .exited => some (.inl { e with stage := .join none })
  | .poll, .waitFailed => some (.inl { e with stage := .join (some .bridgeUnavailable) })
  | .select, .event event =>
    match loopEvent s.cancelled event with
    | some status => some (.inl { e with stage := .join (some status) })
    | none => some (.inl { e with stage := .poll })
  | .join status, .finish requestCancelled stdout stderr exitCode artifacts =>
    some (.inr (.answered
      (conclude status s.cancelled requestCancelled stdout stderr exitCode artifacts).status))
  | stage, .fail result =>
    if failsWith e.path stage result then some (.inr result) else none
  | _, _ => none

/-! ## What one stage does -/

theorem leaseSection_ok {e : Execution} {s : Supervisor} {now : UInt64}
    (h : e.leaseSection s now = .ok ()) :
    e.generation = s.lease.generation ∧ s.lease.revoked = false := by
  unfold leaseSection at h
  split at h
  · unfold leaseAccepts at h
    split at h
    · cases h
    · rename_i hc
      simpa using hc
  · unfold leaseAdmits at h
    split at h
    · cases h
    · rename_i hc
      simpa using hc

theorem loopEvent_failed {cancelled : Bool} {event : LoopEvent} {status : ExecutionStatus}
    (h : loopEvent cancelled event = some status) : ranToEnd status = false := by
  cases event with
  | signal => cases cancelled <;> cases h; rfl
  | request raised => cases raised <;> cases h; rfl
  | tick => cases h
  | _ => cases h; rfl

theorem failsWith_failed {path : ExecPath} {stage : ExecStage} {result : ExecResult}
    (h : failsWith path stage result = true) : result.isSuccess = false := by
  cases result with
  | refused error => rfl
  | answered status =>
    cases status with
    | completed => cases path <;> cases stage <;> simp [failsWith] at h
    | scriptError => cases path <;> cases stage <;> simp [failsWith] at h
    | _ => rfl

def JoinOk (e : Execution) : Prop := ∀ status, e.stage = .join (some status) → ranToEnd status = false

/-- Where an execution goes on: only the lease section admits it, and only the poll reaps it. -/
structure Goes (e : Execution) (s : Supervisor) (i : ExecInput) (e' : Execution) : Prop where
  generation : e'.generation = e.generation
  admits : e.stage.isAdmitted = false → e'.stage.isAdmitted = true →
    e.generation = s.lease.generation
  admitted : e.stage.isAdmitted = true → e'.stage.isAdmitted = true
  running : e.stage.isRunning = e.stage.isAdmitted
  joinOk : e'.JoinOk
  reaps : e'.stage.isReaped = true → e.stage.isAdmitted = true

theorem next_fail {e : Execution} {s : Supervisor} {result : ExecResult}
    {x : Execution ⊕ ExecResult} (h : e.next s (.fail result) = some x) :
    x = .inr result ∧ result.isSuccess = false := by
  have hf : (if failsWith e.path e.stage result then some (Sum.inr result) else none) = some x := by
    obtain ⟨path, generation, stage⟩ := e
    cases stage <;> exact h
  split at hf
  · rename_i hf'
    cases hf
    exact ⟨rfl, failsWith_failed hf'⟩
  · cases hf

theorem look_goes {e e' e1 : Execution} {s : Supervisor} {i : ExecInput} {r : ExecResult}
    (h : (if s.cancelled then some (.inr r) else some (.inl e1)) =
      (some (.inl e') : Option (Execution ⊕ ExecResult))) (hg : e.Goes s i e1) :
    e.Goes s i e' := by
  split at h <;> cases h
  exact hg

theorem next_goes {e e' : Execution} {s : Supervisor} {i : ExecInput}
    (h : e.next s i = some (.inl e')) : e.Goes s i e' := by
  obtain ⟨path, generation, stage⟩ := e
  cases i with
  | fail result => cases (next_fail h).1
  | done =>
    cases stage with
    | entry => exact look_goes h ⟨rfl, nofun, nofun, rfl, nofun, nofun⟩
    | recheck => exact look_goes h ⟨rfl, nofun, fun _ => rfl, rfl, nofun, nofun⟩
    | subscribe => exact look_goes h ⟨rfl, nofun, fun _ => rfl, rfl, nofun, nofun⟩
    | spawned => exact look_goes h ⟨rfl, nofun, fun _ => rfl, rfl, nofun, nofun⟩
    | prepare => cases h; exact ⟨rfl, nofun, fun _ => rfl, rfl, nofun, nofun⟩
    | launch => cases h; exact ⟨rfl, nofun, fun _ => rfl, rfl, nofun, nofun⟩
    | setup => cases h; exact ⟨rfl, nofun, fun _ => rfl, rfl, nofun, nofun⟩
    | feed => cases h; exact ⟨rfl, nofun, fun _ => rfl, rfl, nofun, nofun⟩
    | _ => cases h
  | clock now =>
    cases stage with
    | lease =>
      simp only [next] at h
      split at h
      · cases h
      · rename_i hc
        cases h
        exact ⟨rfl, fun _ _ => (leaseSection_ok hc).1, nofun, rfl, nofun, nofun⟩
    | _ => cases h
  | request raised =>
    cases stage with
    | subscribeRequest => cases raised <;> cases h; exact ⟨rfl, nofun, fun _ => rfl, rfl, nofun, nofun⟩
    | spawnedRequest => cases raised <;> cases h; exact ⟨rfl, nofun, fun _ => rfl, rfl, nofun, nofun⟩
    | _ => cases h
  | running =>
    cases stage with
    | poll => cases h; exact ⟨rfl, nofun, fun _ => rfl, rfl, nofun, nofun⟩
    | _ => cases h
  | exited =>
    cases stage with
    | poll => cases h; exact ⟨rfl, nofun, fun _ => rfl, rfl, nofun, fun _ => rfl⟩
    | _ => cases h
  | waitFailed =>
    cases stage with
    | poll => cases h; exact ⟨rfl, nofun, fun _ => rfl, rfl, by intro _ he; cases he; rfl, nofun⟩
    | _ => cases h
  | event event =>
    cases stage with
    | select =>
      simp only [next] at h
      split at h
      · rename_i status hl
        cases h
        exact ⟨rfl, nofun, fun _ => rfl, rfl, by intro _ he; cases he; exact loopEvent_failed hl,
          nofun⟩
      · cases h
        exact ⟨rfl, nofun, fun _ => rfl, rfl, nofun, nofun⟩
    | _ => cases h
  | finish requestCancelled stdout stderr exitCode artifacts =>
    cases stage with
    | join status => cases h
    | _ => cases h

theorem look_fails {e1 : Execution} {s : Supervisor} {r r' : ExecResult}
    (h : (if s.cancelled then some (.inr r) else some (.inl e1)) =
      (some (.inr r') : Option (Execution ⊕ ExecResult))) : r = r' := by
  split at h <;> cases h
  rfl

/-- A success is returned only by the conclusion after a natural exit, with the signal down. -/
theorem next_success {e : Execution} {s : Supervisor} {i : ExecInput} {r : ExecResult}
    (hj : e.JoinOk) (h : e.next s i = some (.inr r)) (hr : r.isSuccess = true) :
    e.stage = .join none ∧ s.cancelled = false := by
  obtain ⟨path, generation, stage⟩ := e
  cases i with
  | finish requestCancelled stdout stderr exitCode artifacts =>
    cases stage with
    | join status =>
      cases h
      cases status with
      | some status =>
        simp only [ExecResult.isSuccess, conclude_some] at hr
        rw [hj status rfl] at hr
        cases hr
      | none =>
        refine ⟨rfl, ?_⟩
        cases hc : s.cancelled with
        | false => rfl
        | true =>
          simp only [hc, ExecResult.isSuccess, conclude_cancelled] at hr
          cases hr
    | _ => cases h
  | fail result =>
    obtain ⟨he, hf⟩ := next_fail h
    cases he
    rw [hf] at hr
    cases hr
  | done =>
    cases stage with
    | entry => cases look_fails h; cases hr
    | recheck => cases look_fails h; cases path <;> cases hr
    | subscribe => cases look_fails h; cases hr
    | spawned => cases look_fails h; cases hr
    | _ => cases h
  | clock now =>
    cases stage with
    | lease =>
      simp only [next] at h
      split at h <;> cases h
      cases hr
    | _ => cases h
  | request raised =>
    cases stage with
    | subscribeRequest => cases raised <;> cases h; cases hr
    | spawnedRequest => cases raised <;> cases h; cases hr
    | _ => cases h
  | event event =>
    cases stage with
    | select =>
      simp only [next] at h
      split at h <;> cases h
    | _ => cases h
  | _ => cases stage <;> cases h

end Execution

end Bridge
end EgoBridge
