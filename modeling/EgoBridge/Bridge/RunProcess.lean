import EgoBridge.Lib.Lossy
import EgoBridge.Lib.Run
import EgoBridge.Bridge.Remote

/-!
# Bridge.RunProcess

`run_process` with everything it races against: the child and what it leaves behind on its two
pipes, the reader tasks, the two signals, the deadline.

A run takes steps of two kinds. The surroundings write and close, exit, raise and lower, and let
the readers read, at any time; the function takes its own next step, with what it finds there.

* `Pipe.Sound`  — what the reader of a pipe has collected of it.
* `system`      — the runs.
-/

namespace EgoBridge
namespace Bridge
namespace RunProcess

open Protocol Run

/-! ## The readers -/

inductive ReaderEvent where
  | overflow
  | failed
  deriving DecidableEq, Repr

/-- A spawned `read_bounded`. -/
inductive ReaderTask where
  | unspawned
  | reading (output : Bytes)
  | finished (capture : BoundedCapture)
  | panicked
  deriving DecidableEq

/-- One round of the loop of `read_bounded`: what was read, if the read did not fail. -/
def readBounded (maximum : Nat) (output : Bytes) :
    Option Bytes → ReaderTask × List ReaderEvent
  | some [] => (.finished ⟨output, false, false⟩, [])
  | some (b :: chunk) =>
    if output.length + (chunk.length + 1) > maximum then
      (.finished ⟨output.take maximum, true, false⟩, [.overflow])
    else (.reading (output ++ b :: chunk), [])
  | none => (.finished ⟨output, false, true⟩, [.failed])

/-- `join_capture` of a task that has ended. -/
def ReaderTask.capture : ReaderTask → Option BoundedCapture
  | .finished capture => some capture
  | .panicked => some ⟨[], false, true⟩
  | _ => none

/-- A pipe: what was ever written to it, what of it waits to be read, whether every writer has
closed it, and the reader at its other end. -/
structure Pipe where
  written : Bytes
  unread : Bytes
  closed : Bool
  task : ReaderTask
  deriving DecidableEq

namespace Pipe

def new : Pipe := ⟨[], [], false, .unspawned⟩

def write (p : Pipe) (bytes : Bytes) : Option Pipe :=
  if p.closed then none
  else some { p with written := p.written ++ bytes, unread := p.unread ++ bytes }

/-- The bytes a call of `read` gives. At the end it waits for the last writer. -/
def atHand (p : Pipe) (n : Nat) : Option Bytes :=
  if p.unread = [] ∧ p.closed = false then none
  else some (p.unread.take (min (n + 1) (16 * 1024)))

def read (p : Pipe) (maximum n : Nat) : Option (Pipe × List ReaderEvent) :=
  match p.task, p.atHand n with
  | .reading output, some chunk =>
    let (task, events) := readBounded maximum output (some chunk)
    some ({ p with unread := p.unread.drop chunk.length, task := task }, events)
  | _, _ => none

def readFails (p : Pipe) (maximum : Nat) : Option (Pipe × List ReaderEvent) :=
  match p.task with
  | .reading output =>
    let (task, events) := readBounded maximum output none
    some ({ p with task := task }, events)
  | _ => none

def panic (p : Pipe) : Option Pipe :=
  match p.task with
  | .reading _ => some { p with task := .panicked }
  | _ => none

/-- What the reader of a pipe has collected: all that was read, at most `maximum` bytes, and all
that was written if it ended on its own. -/
structure Sound (maximum : Nat) (p : Pipe) : Prop where
  unspawned : p.task = .unspawned → p.written = p.unread
  reading : ∀ output, p.task = .reading output →
    p.written = output ++ p.unread ∧ output.length ≤ maximum
  capture : ∀ c, p.task.capture = some c → c.bytes.length ≤ maximum ∧
    (c.exceeded = false → c.failed = false →
      c.bytes = p.written ∧ p.unread = [] ∧ p.closed = true)

end Pipe

/-! ## The surroundings -/

inductive Channel where
  | stdout
  | stderr
  deriving DecidableEq, Repr

def maximum : Channel → Nat
  | .stdout => MAX_STDOUT_BYTES
  | .stderr => MAX_STDERR_BYTES

/-- The receiver of a `watch` channel: its value, whether it has changed since it was last seen,
and whether the sender is gone. -/
structure Watch where
  up : Bool
  unseen : Bool
  gone : Bool
  deriving DecidableEq

inductive Child where
  | absent
  | running
  | exited (code : Option Int32)
  deriving DecidableEq

namespace Child

def isExited : Child → Bool
  | .exited _ => true
  | _ => false

def killed : Child → Child
  | .exited code => .exited code
  | _ => .exited none

def code : Child → Option Int32
  | .exited code => code
  | _ => none

end Child

inductive Stop where
  | overflow
  | readFailed
  | revoked
  | signalGone
  | cancelled
  | timeout
  | waitFailed
  deriving DecidableEq, Repr

def Stop.status : Stop → ExecutionStatus
  | .overflow => .protocolError
  | .readFailed => .bridgeUnavailable
  | .revoked => .bindingRevoked
  | .signalGone => .cancelled
  | .cancelled => .cancelled
  | .timeout => .timeout
  | .waitFailed => .bridgeUnavailable

/-- The points of `run_process`, in their order. It looks at its two signals when it subscribes, once
the child is spawned, and behind the child; `setup` makes a directory, the file guard and the
script, and spawns the child. -/
inductive Phase where
  | subscribe
  | subscribeRequest
  | setup
  | spawned
  | spawnedRequest
  | feed
  | poll
  | select
  | terminate (stop : Stop)
  | join (status : Option ExecutionStatus)
  | check (status : Option ExecutionStatus) (stdout stderr : BoundedCapture)
  | checkRequest (status : Option ExecutionStatus) (stdout stderr : BoundedCapture)
      (cancelled : Bool)
  | conclude (status : Option ExecutionStatus) (stdout stderr : BoundedCapture)
      (cancelled requestCancelled : Bool)
  | finished
  deriving DecidableEq

structure Output where
  result : ProcessResult
  stdout : String
  stderr : String
  deriving DecidableEq

structure RunState where
  phase : Phase
  child : Child
  stdout : Pipe
  stderr : Pipe
  events : List ReaderEvent
  /-- `overflow_channel_open`. -/
  channelOpen : Bool
  cancellation : Watch
  requestCancellation : Watch
  deadline : Bool
  acted : Option Stop
  childExited : Bool
  checked : Option Bool
  checkedRequest : Option Bool
  output : Option Output
  deriving DecidableEq

namespace RunState

def pipe (s : RunState) : Channel → Pipe
  | .stdout => s.stdout
  | .stderr => s.stderr

def setPipe (s : RunState) (k : Channel) (p : Pipe) : RunState :=
  match k with
  | .stdout => { s with stdout := p }
  | .stderr => { s with stderr := p }

end RunState

inductive Surrounding where
  | write (k : Channel) (bytes : Bytes)
  | close (k : Channel)
  | exit (code : Option Int32)
  | signal (up : Bool)
  | signalGone
  | request (up : Bool)
  | requestGone
  | deadline
  | read (k : Channel) (n : Nat)
  | readFails (k : Channel)
  | panic (k : Channel)
  deriving DecidableEq

inductive Branch where
  | event
  | signal
  | request
  | deadline
  | tick
  deriving DecidableEq, Repr

inductive Found where
  | look
  | prepared (failure : Option ExecutionStatus)
  | fed (written : Bool)
  | waited (failed : Bool)
  | selected (branch : Branch)
  | terminated
  | joined
  | collected (artifacts : Option (List ArtifactDescriptor))
  deriving DecidableEq

namespace RunState

def reads (s : RunState) (k : Channel) (r : Option (Pipe × List ReaderEvent)) : Option RunState :=
  r.map fun (p, events) => { s.setPipe k p with events := s.events ++ events }

def surround (s : RunState) : Surrounding → Option RunState
  | .write k bytes =>
    if s.child = .absent then none else ((s.pipe k).write bytes).map (s.setPipe k)
  | .close k =>
    if s.child = .absent then none else some (s.setPipe k { s.pipe k with closed := true })
  | .exit code => if s.child = .running then some { s with child := .exited code } else none
  | .signal up => some { s with cancellation := { s.cancellation with up := up, unseen := true } }
  | .signalGone => some { s with cancellation := { s.cancellation with gone := true } }
  | .request up =>
    some { s with requestCancellation := { s.requestCancellation with up := up, unseen := true } }
  | .requestGone =>
    some { s with requestCancellation := { s.requestCancellation with gone := true } }
  | .deadline => some { s with deadline := true }
  | .read k n => s.reads k ((s.pipe k).read (maximum k) n)
  | .readFails k => s.reads k ((s.pipe k).readFails (maximum k))
  | .panic k => (s.pipe k).panic.map (s.setPipe k)

/-! ## The function -/

def giveUp (s : RunState) (status : ExecutionStatus) : RunState :=
  { s with phase := .finished, output := some ⟨⟨status, none, []⟩, "", ""⟩ }

def setupFailures : List ExecutionStatus :=
  [.bridgeUnavailable, .artifactError, .protocolError, .egoRuntimeUnavailable]

/-- One branch of the loop's `select!`, if it is ready. -/
def select (s : RunState) : Branch → Option RunState
  | .event =>
    if s.channelOpen then
      match s.events with
      | .overflow :: events => some { s with phase := .terminate .overflow, events := events }
      | .failed :: events => some { s with phase := .terminate .readFailed, events := events }
      | [] =>
        -- both readers have dropped their sender
        if s.stdout.task.capture.isSome ∧ s.stderr.task.capture.isSome then
          some { s with phase := .poll, channelOpen := false }
        else none
    else none
  | .signal =>
    if s.cancellation.unseen then
      some { s with
        cancellation := { s.cancellation with unseen := false }
        phase := if s.cancellation.up then .terminate .revoked else .poll }
    else if s.cancellation.gone then some { s with phase := .terminate .signalGone }
    else none
  | .request =>
    if s.requestCancellation.unseen then
      some { s with
        requestCancellation := { s.requestCancellation with unseen := false }
        phase := if s.requestCancellation.up then .terminate .cancelled else .poll }
    else if s.requestCancellation.gone then some { s with phase := .terminate .cancelled }
    else none
  | .deadline => if s.deadline then some { s with phase := .terminate .timeout } else none
  | .tick => some { s with phase := .poll }

/-- The next step of `run_process`. `none` for what its phase does not read, or waits for. -/
def advance (s : RunState) (found : Found) : Option RunState :=
  match s.phase, found with
  | .subscribe, .look =>
    some (if s.cancellation.up then s.giveUp .bindingRevoked
      else { s with phase := .subscribeRequest
                    cancellation := { s.cancellation with unseen := false } })
  | .subscribeRequest, .look =>
    some (if s.requestCancellation.up then s.giveUp .cancelled else { s with phase := .setup })
  | .setup, .prepared none => some { s with phase := .spawned, child := .running }
  | .setup, .prepared (some failure) =>
    if failure ∈ setupFailures then some (s.giveUp failure) else none
  | .spawned, .look =>
    some (if s.cancellation.up then { s with child := s.child.killed }.giveUp .bindingRevoked
      else { s with phase := .spawnedRequest })
  | .spawnedRequest, .look =>
    some (if s.requestCancellation.up then { s with child := s.child.killed }.giveUp .cancelled
      else { s with phase := .feed })
  | .feed, .fed true =>
    some { s with
      phase := .poll
      stdout := { s.stdout with task := .reading [] }
      stderr := { s.stderr with task := .reading [] } }
  | .feed, .fed false => some ({ s with child := s.child.killed }.giveUp .bridgeUnavailable)
  | .poll, .waited true => some { s with phase := .terminate .waitFailed }
  | .poll, .waited false =>
    some (if s.child.isExited then { s with phase := .join none, childExited := true }
      else { s with phase := .select })
  | .select, .selected branch => s.select branch
  | .terminate stop, .terminated =>
    some { s with phase := .join (some stop.status), child := s.child.killed, acted := some stop }
  | .join status, .joined =>
    match s.stdout.task.capture, s.stderr.task.capture with
    | some stdout, some stderr => some { s with phase := .check status stdout stderr }
    | _, _ => none
  | .check status stdout stderr, .look =>
    some { s with
      phase := .checkRequest status stdout stderr s.cancellation.up
      checked := if status.isNone then some s.cancellation.up else s.checked }
  | .checkRequest status stdout stderr cancelled, .look =>
    some { s with
      phase := .conclude status stdout stderr cancelled s.requestCancellation.up
      checkedRequest :=
        if status.isNone ∧ cancelled = false then some s.requestCancellation.up
        else s.checkedRequest }
  | .conclude status stdout stderr cancelled requestCancelled, .collected artifacts =>
    some { s with
      phase := .finished
      output := some ⟨Bridge.conclude status cancelled requestCancelled stdout stderr s.child.code
        artifacts, fromUtf8Lossy stdout.bytes, fromUtf8Lossy stderr.bytes⟩ }
  | _, _ => none

end RunState

def RunState.start (cancellation requestCancellation : Watch) : RunState where
  phase := .subscribe
  child := .absent
  stdout := .new
  stderr := .new
  events := []
  channelOpen := true
  cancellation := cancellation
  requestCancellation := requestCancellation
  deadline := false
  acted := none
  childExited := false
  checked := none
  checkedRequest := none
  output := none

def system : System (Surrounding ⊕ Found) RunState where
  init := fun s => ∃ cancellation requestCancellation, s = .start cancellation requestCancellation
  step := fun s a s' =>
    match a with
    | .inl e => s.surround e = some s'
    | .inr found => s.advance found = some s'

/-! ## What the readers collect -/

namespace Pipe

/-- Only the function spawns a reader, and one that has ended has ended for good. -/
structure Kept (p p' : Pipe) : Prop where
  unspawned : p.task = .unspawned → p'.task = .unspawned
  capture : ∀ c, p.task.capture = some c → p'.task.capture = some c

theorem kept_of_task {p p' : Pipe} (h : p'.task = p.task) : p.Kept p' :=
  ⟨fun hu => h.trans hu, fun _ hc => h ▸ hc⟩

theorem kept_reading {p p' : Pipe} {output : Bytes} (h : p.task = .reading output) :
    p.Kept p' := by
  constructor
  · intro hu
    rw [h] at hu
    cases hu
  · intro c hc
    rw [h] at hc
    cases hc

theorem sound_ended {maximum : Nat} {p : Pipe} {c : BoundedCapture}
    (hc : p.task.capture = some c) (hl : c.bytes.length ≤ maximum)
    (hw : c.exceeded = false → c.failed = false →
      c.bytes = p.written ∧ p.unread = [] ∧ p.closed = true) : p.Sound maximum := by
  constructor
  · intro h
    rw [h] at hc
    cases hc
  · intro output h
    rw [h] at hc
    cases hc
  · intro c' h
    rw [hc] at h
    cases h
    exact ⟨hl, hw⟩

theorem sound_new (maximum : Nat) : new.Sound maximum := by
  constructor
  · intro _
    rfl
  · intro _ h
    cases h
  · intro _ h
    cases h

theorem Sound.write {maximum : Nat} {p p' : Pipe} {bytes : Bytes} (h : p.Sound maximum)
    (hw : p.write bytes = some p') : p'.Sound maximum ∧ p.Kept p' := by
  unfold Pipe.write at hw
  split at hw
  · cases hw
  · rename_i hc
    cases hw
    refine ⟨⟨?_, ?_, ?_⟩, kept_of_task rfl⟩
    · intro ht
      simp only [h.unspawned ht]
    · intro output ht
      have := h.reading output ht
      simp only [this.1, List.append_assoc]
      exact ⟨trivial, this.2⟩
    · intro c ht
      have := h.capture c ht
      refine ⟨this.1, fun he hf => ?_⟩
      exact (hc (this.2 he hf).2.2).elim

theorem Sound.close {maximum : Nat} {p : Pipe} (h : p.Sound maximum) :
    ({ p with closed := true } : Pipe).Sound maximum := by
  refine ⟨h.unspawned, h.reading, fun c ht => ?_⟩
  have := h.capture c ht
  exact ⟨this.1, fun he hf => ⟨(this.2 he hf).1, (this.2 he hf).2.1, rfl⟩⟩

theorem Sound.spawn {maximum : Nat} {p : Pipe} (h : p.Sound maximum) (ht : p.task = .unspawned) :
    ({ p with task := .reading [] } : Pipe).Sound maximum := by
  constructor
  · intro h
    cases h
  · intro output ho
    cases ho
    exact ⟨h.unspawned ht, Nat.zero_le _⟩
  · intro c hc
    cases hc

/-- The end of a pipe is read only when nothing is left and nothing can come. -/
theorem atHand_nil {p : Pipe} {n : Nat} (h : p.atHand n = some []) :
    p.unread = [] ∧ p.closed = true := by
  unfold atHand at h
  split at h
  · cases h
  · rename_i hn
    simp only [Option.some.injEq, List.take_eq_nil_iff] at h
    have hu : p.unread = [] := h.resolve_left (by omega)
    exact ⟨hu, by simpa [hu] using hn⟩

theorem atHand_append {p : Pipe} {n : Nat} {chunk : Bytes} (h : p.atHand n = some chunk) :
    p.unread = chunk ++ p.unread.drop chunk.length := by
  unfold atHand at h
  split at h
  · cases h
  · simp only [Option.some.injEq] at h
    subst h
    rw [List.length_take]
    generalize min (n + 1) (16 * 1024) = k
    by_cases hl : k ≤ p.unread.length
    · rw [Nat.min_eq_left hl, List.take_append_drop]
    · rw [Nat.min_eq_right (by omega), List.drop_length, List.append_nil,
        List.take_of_length_le (by omega)]

theorem Sound.read {maximum n : Nat} {p p' : Pipe} {events : List ReaderEvent}
    (h : p.Sound maximum) (hr : p.read maximum n = some (p', events)) :
    p'.Sound maximum ∧ p.Kept p' := by
  unfold Pipe.read at hr
  split at hr
  · rename_i output chunk ht hchunk
    obtain ⟨hwritten, hle⟩ := h.reading output ht
    refine ⟨?_, kept_reading ht⟩
    cases chunk with
    | nil =>
      obtain ⟨hu, hc⟩ := atHand_nil hchunk
      cases hr
      refine sound_ended (c := ⟨output, false, false⟩) rfl hle fun _ _ => ⟨?_, ?_, hc⟩
      · simp [hwritten, hu]
      · simp [hu]
    | cons b chunk =>
      have happ := atHand_append hchunk
      simp only [readBounded] at hr
      split at hr
      · cases hr
        exact sound_ended (c := ⟨output.take maximum, true, false⟩) rfl
          (List.length_take_le _ _) fun he => by cases he
      · rename_i hlen
        cases hr
        constructor
        · intro h
          cases h
        · intro output' ht'
          cases ht'
          refine ⟨?_, by simp only [List.length_append, List.length_cons]; omega⟩
          rw [hwritten, List.append_assoc, ← happ]
        · intro c hcap
          cases hcap
  · cases hr

theorem Sound.readFails {maximum : Nat} {p p' : Pipe} {events : List ReaderEvent}
    (h : p.Sound maximum) (hr : p.readFails maximum = some (p', events)) :
    p'.Sound maximum ∧ p.Kept p' := by
  unfold Pipe.readFails at hr
  split at hr
  · rename_i output ht
    cases hr
    refine ⟨sound_ended (c := ⟨output, false, true⟩) rfl (h.reading output ht).2 ?_,
      kept_reading ht⟩
    intro _ hf
    cases hf
  · cases hr

theorem sound_panic {maximum : Nat} {p p' : Pipe} (hp : p.panic = some p') :
    p'.Sound maximum ∧ p.Kept p' := by
  unfold Pipe.panic at hp
  split at hp
  · rename_i output ht
    cases hp
    refine ⟨sound_ended (c := ⟨[], false, true⟩) rfl (Nat.zero_le _) ?_, kept_reading ht⟩
    intro _ hf
    cases hf
  · cases hp

end Pipe

end RunProcess
end Bridge
end EgoBridge
