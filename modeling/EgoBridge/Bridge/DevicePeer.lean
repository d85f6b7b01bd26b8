import EgoBridge.Bridge.LeaseRules
import EgoBridge.Bridge.Permits
import EgoBridge.Bridge.Remote
import EgoBridge.Device.PeerService
import EgoBridge.Lib.Variant

/-!
# Bridge.DevicePeer

The device service and the bridge's peer observer, the stream between them, and everybody else who
changes the credential store or the supervisor's lease.

The stream carries bytes: a write goes out in pieces, and a read takes what is there. The service
may be aborted in the middle of a heartbeat; a read may time out or fail at any moment.

* `PeerState`, `PeerStep` — both loops, with a record of what the polls have found and of how many
  heartbeats have been heard.
* `Framed`                — what is on its way is the beginning of what the polls have decided.
* `peer_fails_closed`     — no heartbeat is heard that no open gate was found for, none is read as
  malformed, and an observer that has given up has revoked the lease.
* `peer_reacts`           — once the gate is shut, both loops come to their end.
-/

namespace EgoBridge
namespace Bridge

open Protocol Run
open Device (Shut Change OpenTo AdmissionRead ServicePoint LocalPeerAdmission Platform
  FoundClosed ActiveBinding)

def DEVICE_PEER_HEARTBEAT : Bytes := [0x45, 0x47, 0x42, 0x31, 0x0a]

def DEVICE_PEER_ADMISSION_CLOSED : Bytes := [0x45, 0x47, 0x42, 0x30, 0x0a]

/-- Both programs spell their messages out. -/
@[simp] theorem service_heartbeat : Device.DEVICE_PEER_HEARTBEAT = DEVICE_PEER_HEARTBEAT := rfl

@[simp] theorem service_admission_closed :
    Device.DEVICE_PEER_ADMISSION_CLOSED = DEVICE_PEER_ADMISSION_CLOSED := rfl

inductive DevicePeerHeartbeat where
  | alive
  | admissionClosed
  deriving DecidableEq

inductive DevicePeerObserverOutcome where
  | stopped
  | admissionClosed
  | lost (error : BridgeError)

def heartbeatTimedOut : BridgeError := .protocolMessage "device client heartbeat timed out"

def heartbeatLost : BridgeError := .protocolMessage "device client heartbeat was lost"

def heartbeatMalformed : BridgeError := .protocolMessage "device client heartbeat is malformed"

/-- What `connect_device_service_peer` may fail with before the first heartbeat. -/
inductive ConnectFault where
  | unavailable
  | unsafeMetadata
  | timedOut
  | unauthorized
  | changed

def ConnectFault.error : ConnectFault → BridgeError
  | .unavailable => .protocolMessage "device client service socket is unavailable"
  | .unsafeMetadata => .protocolMessage "device client service socket metadata is unsafe"
  | .timedOut => .protocolMessage "device client service connection timed out"
  | .unauthorized => .protocolMessage "peer UID is not authorized"
  | .changed => .protocolMessage "device client service socket changed during connection"

/-- `read_device_peer_heartbeat`, once `read_exact` has filled its buffer. -/
def decodeHeartbeat (heartbeat : Bytes) : Except BridgeError DevicePeerHeartbeat :=
  if heartbeat = DEVICE_PEER_HEARTBEAT then .ok .alive
  else if heartbeat = DEVICE_PEER_ADMISSION_CLOSED then .ok .admissionClosed
  else .error heartbeatMalformed

/-- Where `connect_device_service_peer` and `run_device_peer_observer_loop` are: reading a
heartbeat, of which some bytes are there, in `fail_closed_device_peer_loss` behind the revocation,
or at their end. -/
inductive ObserverPoint where
  | reading (connected : Bool) (heartbeat : Bytes)
  | clearing (error : BridgeError)
  | stopping (error : BridgeError)
  | returned (outcome : DevicePeerObserverOutcome)

namespace ObserverPoint

/-- The error the peer was lost with. -/
def error : ObserverPoint → Option BridgeError
  | clearing e => some e
  | stopping e => some e
  | returned (.lost e) => some e
  | _ => none

/-- The observer has given the peer up, or has been told that admission is closed. -/
def gaveUp : ObserverPoint → Bool
  | reading _ _ => false
  | returned .stopped => false
  | _ => true

end ObserverPoint

structure PeerState where
  world : Device.World
  service : ServicePoint
  /-- The bytes that are out and not read. -/
  wire : Bytes
  observer : ObserverPoint
  sup : Supervisor
  /-- `run_outbound` has told the observer to stop. -/
  stop : Bool
  /-- The handoffs for which polls have found the gate open, each with the world it was found in, -/
  opens : List (ActiveBinding × Device.World)
  /-- the world in which one has found admission closed, with its clock, -/
  closes : Option (UInt64 × Device.World)
  /-- and how many heartbeats have been read. -/
  heard : Nat

inductive PeerAct where
  | device (kind : Device.Kind)
  | lease (op : LeaseOp)
  | sendStop
  | tick
  | read (nowUnix : UInt64)
  | write (n : Nat)
  | abort
  | refuse (fault : ConnectFault)
  | receive (n : Nat)
  | eof
  | fault
  | timeout
  | stop
  | clear (removed : Bool)
  | stopBinding

namespace PeerAct

/-- A step of one of the two loops. -/
def own : PeerAct → Bool
  | device _ => false
  | lease _ => false
  | sendStop => false
  | _ => true

/-- A step of one of the loops that no fault brings about. -/
def quiet : PeerAct → Bool
  | abort => false
  | refuse _ => false
  | fault => false
  | timeout => false
  | a => a.own

end PeerAct

namespace PeerState

/-- A poll goes on, or the service acts on its result. -/
def polled (s : PeerState) (nowUnix : UInt64) : AdmissionRead ⊕ LocalPeerAdmission → PeerState
  | .inl next => { s with service := .reading next }
  | .inr .opened => { s with service := .writing Device.DEVICE_PEER_HEARTBEAT false }
  | .inr .closed =>
    { s with
      service := .writing Device.DEVICE_PEER_ADMISSION_CLOSED true
      closes := some (nowUnix, s.world) }
  | .inr .invalid => { s with service := .returned }

/-- A gate that is found open is noted. -/
def noted (s : PeerState) : AdmissionRead → AdmissionRead ⊕ LocalPeerAdmission → PeerState
  | .gate _ binding, .inr .opened => { s with opens := (binding, s.world) :: s.opens }
  | _, _ => s

/-- `fail_closed_device_peer_loss` begins. -/
def lose (s : PeerState) (error : BridgeError) : PeerState :=
  { s with observer := .clearing error, sup := s.sup.revoke }

/-- The buffer has these bytes. -/
def received (s : PeerState) (connected : Bool) (heartbeat : Bytes) : PeerState :=
  if heartbeat.length < DEVICE_PEER_HEARTBEAT.length then
    { s with observer := .reading connected heartbeat }
  else
    match decodeHeartbeat heartbeat with
    | .ok .alive => { s with observer := .reading true [], heard := s.heard + 1 }
    | .ok .admissionClosed =>
      { s with observer := .returned .admissionClosed, sup := s.sup.revoke }
    | .error e => s.lose e

/-- The write has `rest` left after these bytes. -/
def wrote (s : PeerState) (bytes rest : Bytes) (closing : Bool) : PeerState :=
  { s with
    wire := s.wire ++ bytes
    service := if rest = [] then if closing then .returned else .ticking
      else .writing rest closing }

end PeerState

variable (P : Platform)

inductive PeerStep : PeerState → PeerAct → PeerState → Prop where
  -- other processes, and the other tasks of the bridge; nobody activates a generation
  | device {s w' k} : Change P s.world w' k → PeerStep s (.device k) { s with world := w' }
  | lease {s op} : op.isActivate = false →
      PeerStep s (.lease op) { s with sup := (s.sup.leaseOp op).1 }
  | sendStop {s} : PeerStep s .sendStop { s with stop := true }
  -- the service
  | tick {s} : s.service = .ticking → PeerStep s .tick { s with service := .reading .credential }
  | read {s r nowUnix} : s.service = .reading r →
      PeerStep s (.read nowUnix)
        ((s.noted r (r.next P nowUnix s.world.store)).polled nowUnix
          (r.next P nowUnix s.world.store))
  | write {s rest closing n} : s.service = .writing rest closing → 0 < n → n ≤ rest.length →
      PeerStep s (.write n) (s.wrote (rest.take n) (rest.drop n) closing)
  | abort {s} : s.service ≠ .returned → PeerStep s .abort { s with service := .returned }
  -- the observer
  | refuse {s} {fault : ConnectFault} : s.observer = .reading false [] →
      PeerStep s (.refuse fault) (s.lose fault.error)
  | receive {s connected heartbeat n} : s.observer = .reading connected heartbeat → 0 < n →
      n ≤ s.wire.length → heartbeat.length + n ≤ DEVICE_PEER_HEARTBEAT.length →
      PeerStep s (.receive n)
        ({ s with wire := s.wire.drop n }.received connected (heartbeat ++ s.wire.take n))
  | eof {s connected heartbeat} : s.observer = .reading connected heartbeat → s.wire = [] →
      s.service = .returned → PeerStep s .eof (s.lose heartbeatLost)
  | fault {s connected heartbeat} : s.observer = .reading connected heartbeat →
      PeerStep s .fault (s.lose heartbeatLost)
  | timeout {s connected heartbeat} : s.observer = .reading connected heartbeat →
      PeerStep s .timeout (s.lose heartbeatTimedOut)
  | stop {s heartbeat} : s.observer = .reading true heartbeat → s.stop = true →
      PeerStep s .stop { s with observer := .returned .stopped }
  -- `clear_active_binding` may fail, and `stop_binding` comes back in any case
  | clear {s e removed} : s.observer = .clearing e →
      PeerStep s (.clear removed)
        { s with
          observer := .stopping e
          world := if removed then
            s.world.stored { s.world.store with activeBinding := none } else s.world }
  | stopBinding {s e} : s.observer = .stopping e →
      PeerStep s .stopBinding { s with observer := .returned (.lost e) }

/-- What a read leaves as it is. -/
theorem PeerState.received_frame (s : PeerState) (connected : Bool) (heartbeat : Bytes) :
    (s.received connected heartbeat).opens = s.opens ∧
      (s.received connected heartbeat).closes = s.closes ∧
      (s.received connected heartbeat).service = s.service ∧
      (s.received connected heartbeat).wire = s.wire := by
  simp only [received]
  split
  · exact ⟨rfl, rfl, rfl, rfl⟩
  · split <;> exact ⟨rfl, rfl, rfl, rfl⟩

theorem PeerState.received_going (s : PeerState) (connected : Bool) (heartbeat : Bytes) :
    (s.received connected heartbeat).observer ≠ .returned .stopped := by
  simp only [received]
  split
  · simp
  · split <;> simp [lose]

theorem PeerState.noted_eq (s : PeerState) (r : AdmissionRead)
    {x : AdmissionRead ⊕ LocalPeerAdmission} (h : x ≠ .inr .opened) : s.noted r x = s := by
  unfold noted
  split
  · exact absurd rfl h
  · rfl

/-- A connection has just been accepted. -/
def peers : System PeerAct PeerState where
  init := fun s => s.service = .ticking ∧ s.wire = [] ∧ s.observer = .reading false [] ∧
    s.stop = false ∧ s.opens = [] ∧ s.closes = none ∧ s.heard = 0
  step := PeerStep P

/-! ## The stream -/

namespace PeerState

/-- What the polls have decided, less what has been heard. -/
def owed (s : PeerState) : Bytes :=
  (List.replicate (s.opens.length - s.heard) DEVICE_PEER_HEARTBEAT).flatten ++
    if s.closes.isSome then DEVICE_PEER_ADMISSION_CLOSED else []

/-- The bytes in the buffer, behind it, and yet to be written. -/
def coming (s : PeerState) (heartbeat : Bytes) : Bytes := heartbeat ++ s.wire ++ s.service.rest

end PeerState

/-- Only an aborted service leaves something owed out. -/
structure Framed (s : PeerState) : Prop where
  heard_le : s.heard ≤ s.opens.length
  short : ∀ c b, s.observer = .reading c b → b.length < DEVICE_PEER_HEARTBEAT.length
  coming : ∀ c b, s.observer = .reading c b → s.coming b <+: s.owed
  whole : ∀ c b, s.observer = .reading c b → s.service ≠ .returned → s.coming b = s.owed
  closing : s.closes.isSome = true → s.service = .returned ∨ ∃ rest, s.service = .writing rest true
  writing : ∀ rest closing, s.service = .writing rest closing →
    rest ≠ [] ∧ rest.length ≤ DEVICE_PEER_HEARTBEAT.length

/-- A message at the head of a stream, and what is behind it. -/
theorem prefix_message {a b m more : Bytes} (h : a ++ b <+: m ++ more) (hl : a.length = m.length) :
    a = m ∧ b <+: more := by
  obtain ⟨t, ht⟩ := h
  rw [List.append_assoc] at ht
  obtain ⟨ha, hb⟩ := List.append_inj ht hl
  exact ⟨ha, t, hb⟩

theorem take_append_drop_left (b wire rest : Bytes) (n : Nat) :
    b ++ wire.take n ++ (wire.drop n ++ rest) = b ++ wire ++ rest := by
  rw [List.append_assoc b, ← List.append_assoc (wire.take n), List.take_append_drop,
    List.append_assoc]

namespace Framed

variable {s : PeerState}

/-- The next message of the stream is a heartbeat that is owed, or the last one. -/
theorem message (h : Framed s) {c : Bool} {b : Bytes} {n : Nat} (ho : s.observer = .reading c b)
    (hn : n ≤ s.wire.length) (hl : b.length + n = DEVICE_PEER_HEARTBEAT.length) :
    (b ++ s.wire.take n = DEVICE_PEER_HEARTBEAT ∧ s.heard < s.opens.length) ∨
      (b ++ s.wire.take n = DEVICE_PEER_ADMISSION_CLOSED ∧ s.closes.isSome = true) := by
  have hlen : (b ++ s.wire.take n).length = DEVICE_PEER_HEARTBEAT.length := by
    simp only [List.length_append, List.length_take]
    omega
  have hc := h.coming c b ho
  rw [PeerState.coming, ← take_append_drop_left b s.wire s.service.rest n, PeerState.owed] at hc
  cases hk : s.opens.length - s.heard with
  | zero =>
    rw [hk, List.replicate_zero, List.flatten_nil, List.nil_append] at hc
    cases hs : s.closes.isSome with
    | false =>
      rw [hs, if_neg (by simp), List.prefix_nil] at hc
      rw [(List.append_eq_nil_iff.mp hc).1] at hlen
      cases hlen
    | true =>
      rw [hs, if_pos rfl, ← List.append_nil DEVICE_PEER_ADMISSION_CLOSED] at hc
      exact .inr ⟨(prefix_message hc hlen).1, rfl⟩
  | succ k =>
    rw [hk, List.replicate_succ, List.flatten_cons, List.append_assoc DEVICE_PEER_HEARTBEAT] at hc
    exact .inl ⟨(prefix_message hc hlen).1, by omega⟩

/-- A heartbeat is taken off the stream. -/
theorem hear {b w t : Bytes} {k m : Nat} (hk : k < m)
    (h : b ++ w = (List.replicate (m - k) DEVICE_PEER_HEARTBEAT).flatten ++ t)
    (hb : b = DEVICE_PEER_HEARTBEAT) :
    w = (List.replicate (m - (k + 1)) DEVICE_PEER_HEARTBEAT).flatten ++ t := by
  obtain ⟨j, hj⟩ : ∃ j, m - k = j + 1 := ⟨m - k - 1, by omega⟩
  have hj' : m - (k + 1) = j := by omega
  rw [hj, List.replicate_succ, List.flatten_cons, List.append_assoc, hb] at h
  rw [hj']
  exact List.append_cancel_left h

/-- An observer that no longer reads owes nothing to the stream. -/
theorem unread (h : Framed s) {o : ObserverPoint} (ho : ∀ c b, o ≠ .reading c b)
    (world : Device.World) (wire : Bytes) (sup : Supervisor) :
    Framed { s with observer := o, world := world, wire := wire, sup := sup } where
  heard_le := h.heard_le
  short := fun c b hb => absurd hb (ho c b)
  coming := fun c b hb => absurd hb (ho c b)
  whole := fun c b hb => absurd hb (ho c b)
  closing := h.closing
  writing := h.writing

theorem closes_none (h : Framed s) (hr : s.service ≠ .returned)
    (hw : ∀ rest, s.service ≠ .writing rest true) : s.closes = none := by
  cases hs : s.closes with
  | none => rfl
  | some w =>
    rcases h.closing (by rw [hs]; rfl) with h | ⟨rest, h⟩
    · exact absurd h hr
    · exact absurd h (hw rest)

theorem tick (h : Framed s) (hs : s.service = .ticking) {r : AdmissionRead} :
    Framed { s with service := .reading r } where
  heard_le := h.heard_le
  short := h.short
  coming := fun c b hb => by
    simpa [PeerState.coming, PeerState.owed, hs, ServicePoint.rest] using h.coming c b hb
  whole := fun c b hb _ => by
    simpa [PeerState.coming, PeerState.owed, hs, ServicePoint.rest] using
      h.whole c b hb (by simp [hs])
  closing := fun hc => by
    have hn := h.closes_none (by simp [hs]) (by simp [hs])
    simp [hn] at hc
  writing := by simp

/-- The service stops where it is. -/
theorem abort (h : Framed s) (hs : s.service ≠ .returned) :
    Framed { s with service := .returned } where
  heard_le := h.heard_le
  short := h.short
  coming := fun c b hb => by
    have hw := h.whole c b hb hs
    have hp : b ++ s.wire <+: s.owed := ⟨s.service.rest, hw⟩
    simpa [PeerState.coming, PeerState.owed, ServicePoint.rest] using hp
  whole := fun c b hb hr => absurd rfl hr
  closing := fun _ => .inl rfl
  writing := by simp

theorem read (h : Framed s) {r : AdmissionRead} (hs : s.service = .reading r) (nowUnix : UInt64) :
    Framed ((s.noted r (r.next P nowUnix s.world.store)).polled nowUnix
      (r.next P nowUnix s.world.store)) := by
  have hn := h.closes_none (by simp [hs]) (by simp [hs])
  have hrest : s.service.rest = [] := by rw [hs]; rfl
  have hne : s.service ≠ .returned := by simp [hs]
  have hwhole : ∀ c b, s.observer = .reading c b → b ++ s.wire =
      (List.replicate (s.opens.length - s.heard) DEVICE_PEER_HEARTBEAT).flatten := by
    intro c b hb
    simpa [PeerState.coming, PeerState.owed, hrest, hn] using h.whole c b hb hne
  cases hr : r.next P nowUnix s.world.store with
  | inl next =>
    rw [s.noted_eq r (by simp)]
    constructor
    · exact h.heard_le
    · exact h.short
    · intro c b hb
      simp [PeerState.polled, PeerState.coming, PeerState.owed, ServicePoint.rest, hn,
        hwhole c b hb]
    · intro c b hb _
      simp [PeerState.polled, PeerState.coming, PeerState.owed, ServicePoint.rest, hn,
        hwhole c b hb]
    · simp [PeerState.polled, hn]
    · simp [PeerState.polled]
  | inr result =>
    cases result with
    | opened =>
      obtain ⟨credential, binding, rfl, -⟩ := AdmissionRead.opened hr
      have hle := h.heard_le
      have hwrite : ∀ c b, s.observer = .reading c b →
          b ++ s.wire ++ DEVICE_PEER_HEARTBEAT =
            (List.replicate (s.opens.length + 1 - s.heard) DEVICE_PEER_HEARTBEAT).flatten := by
        intro c b hb
        have hk : s.opens.length + 1 - s.heard = s.opens.length - s.heard + 1 := by omega
        rw [hwhole c b hb, hk, List.replicate_succ', List.flatten_append, List.flatten_singleton]
      constructor
      · show s.heard ≤ s.opens.length + 1
        omega
      · exact h.short
      · intro c b hb
        have hw := hwrite c b hb
        rw [List.append_assoc] at hw
        simp [PeerState.polled, PeerState.noted, PeerState.coming, PeerState.owed,
          ServicePoint.rest, hn, hw]
      · intro c b hb _
        simpa [PeerState.polled, PeerState.noted, PeerState.coming, PeerState.owed,
          ServicePoint.rest, hn] using hwrite c b hb
      · simp [PeerState.polled, PeerState.noted, hn]
      · intro rest closing hw
        cases hw
        decide
    | closed =>
      rw [s.noted_eq r (by simp)]
      constructor
      · exact h.heard_le
      · exact h.short
      · intro c b hb
        simp only [PeerState.polled, PeerState.coming, PeerState.owed, ServicePoint.rest,
          hwhole c b hb, Option.isSome_some, if_true]
        exact List.prefix_refl _
      · intro c b hb _
        simp only [PeerState.polled, PeerState.coming, PeerState.owed, ServicePoint.rest,
          hwhole c b hb, Option.isSome_some, if_true]
        rfl
      · exact fun _ => .inr ⟨_, rfl⟩
      · intro rest closing hw
        cases hw
        decide
    | invalid =>
      rw [s.noted_eq r (by simp)]
      exact h.abort hne

/-- Bytes are read: fewer than a message, a heartbeat that is owed, or the last message. -/
theorem receive (h : Framed s) {c : Bool} {b : Bytes} {n : Nat} (ho : s.observer = .reading c b)
    (hn : n ≤ s.wire.length) (hl : b.length + n ≤ DEVICE_PEER_HEARTBEAT.length) :
    let s' := { s with wire := s.wire.drop n }.received c (b ++ s.wire.take n)
    Framed s' ∧ s'.observer.error = none ∧
      (s'.observer.gaveUp = true → s'.sup = s.sup.revoke ∧ s.closes.isSome = true) := by
  have hlen : (b ++ s.wire.take n).length = b.length + n := by
    rw [List.length_append, List.length_take, Nat.min_eq_left hn]
  intro s'
  by_cases hshort : b.length + n < DEVICE_PEER_HEARTBEAT.length
  · have hs' : s' = { s with
        wire := s.wire.drop n, observer := .reading c (b ++ s.wire.take n) } :=
      if_pos (by rw [hlen]; exact hshort)
    have hcoming : s'.coming (b ++ s.wire.take n) = s.coming b := by
      rw [hs']
      exact (List.append_assoc _ _ _).trans (take_append_drop_left b s.wire s.service.rest n)
    rw [hs'] at hcoming ⊢
    refine ⟨⟨h.heard_le, ?_, ?_, ?_, h.closing, h.writing⟩, rfl, by simp [ObserverPoint.gaveUp]⟩
    · intro c' b' hb'
      cases hb'
      rw [hlen]
      exact hshort
    · intro c' b' hb'
      cases hb'
      rw [hcoming]
      exact h.coming c b ho
    · intro c' b' hb' hne
      cases hb'
      rw [hcoming]
      exact h.whole c b ho hne
  · rcases h.message ho hn (by omega) with ⟨hb, hlt⟩ | ⟨hb, hclosed⟩
    · have hs' : s' = { s with
          wire := s.wire.drop n, observer := .reading true [], heard := s.heard + 1 } := by
        show PeerState.received _ _ _ = _
        rw [PeerState.received, if_neg (by rw [hlen]; exact hshort), hb]
        rfl
      rw [hs']
      refine ⟨⟨hlt, ?_, ?_, ?_, h.closing, h.writing⟩, rfl, by simp [ObserverPoint.gaveUp]⟩
      · intro c' b' hb'
        cases hb'
        decide
      · intro c' b' hb'
        cases hb'
        obtain ⟨t, ht⟩ := h.coming c b ho
        rw [PeerState.coming, ← take_append_drop_left b s.wire s.service.rest n,
          List.append_assoc] at ht
        refine ⟨t, ?_⟩
        simpa [PeerState.coming, PeerState.owed] using hear hlt ht hb
      · intro c' b' hb' hne
        cases hb'
        have hw := h.whole c b ho hne
        rw [PeerState.coming, ← take_append_drop_left b s.wire s.service.rest n] at hw
        simpa [PeerState.coming, PeerState.owed] using hear hlt hw hb
    · have hs' : s' = { s with
          wire := s.wire.drop n, observer := .returned .admissionClosed, sup := s.sup.revoke } := by
        show PeerState.received _ _ _ = _
        rw [PeerState.received, if_neg (by rw [hlen]; exact hshort), hb]
        rfl
      rw [hs']
      exact ⟨h.unread (by simp) _ _ _, rfl, fun _ => ⟨rfl, hclosed⟩⟩

theorem write (h : Framed s) {rest : Bytes} {closing : Bool} {n : Nat}
    (hs : s.service = .writing rest closing) :
    Framed (s.wrote (rest.take n) (rest.drop n) closing) := by
  have hne : s.service ≠ .returned := by simp [hs]
  have hwhole : ∀ c b, s.observer = .reading c b →
      b ++ (s.wire ++ rest.take n) ++ rest.drop n = s.owed := by
    intro c b hb
    rw [List.append_assoc, List.append_assoc, List.take_append_drop, ← List.append_assoc]
    simpa [PeerState.coming, hs, ServicePoint.rest] using h.whole c b hb hne
  have hrest : (s.wrote (rest.take n) (rest.drop n) closing).service.rest = rest.drop n := by
    simp only [PeerState.wrote]
    split
    · rename_i hd
      rw [hd]
      cases closing <;> rfl
    · rfl
  constructor
  · exact h.heard_le
  · exact h.short
  · intro c b hb
    rw [PeerState.coming, hrest]
    exact (hwhole c b hb).symm ▸ List.prefix_refl _
  · intro c b hb _
    rw [PeerState.coming, hrest]
    exact hwhole c b hb
  · intro hc
    simp only [PeerState.wrote]
    rcases h.closing hc with h | ⟨rest', h⟩
    · exact absurd h hne
    · rw [hs] at h
      cases h
      split
      · exact .inl rfl
      · exact .inr ⟨_, rfl⟩
  · intro rest' closing' hw
    simp only [PeerState.wrote] at hw
    split at hw
    · cases closing <;> cases hw
    · rename_i hd
      cases hw
      have hle := (h.writing rest closing hs).2
      exact ⟨hd, by rw [List.length_drop]; omega⟩

end Framed

/-! ## Safety -/

/-- The polls that found the gate open or admission closed did, and an observer that has given up
has revoked the lease. -/
structure PeerInv (P : Platform) (s : PeerState) : Prop where
  framed : Framed s
  opens : ∀ o ∈ s.opens, OpenTo o.2.store o.1.bindingId
  closes : ∀ o, s.closes = some o → FoundClosed P o.1 o.2.store
  revoked : s.observer.gaveUp = true → s.sup.lease.revoked = true
  told : s.observer = .returned .admissionClosed → s.closes.isSome = true
  error : s.observer.error ≠ some heartbeatMalformed
  stopped : s.observer = .returned .stopped → s.stop = true

/-- No operation but an activation ends a revocation. -/
theorem leaseOp_revoked {s : Supervisor} {op : LeaseOp} (hop : op.isActivate = false)
    (h : s.lease.revoked = true) : (s.leaseOp op).1.lease.revoked = true := by
  cases op with
  | update generation leaseUntil absoluteTtlUntil healthy =>
    by_cases hr : s.updateRejected generation leaseUntil absoluteTtlUntil
    · obtain ⟨e, he⟩ := Supervisor.updateLease_rejected hr healthy
      rw [Supervisor.leaseOp, he]
      exact h
    · rw [Supervisor.leaseOp, Supervisor.updateLease_accepted hr healthy]
      exact h
  | markFailed grace now =>
    rcases s.markRenewalFailed_cases grace now with
      ⟨_, e, he⟩ | ⟨_, _, _, he, _⟩ | ⟨_, hr, _⟩ | ⟨_, hr, _⟩
    · rw [Supervisor.leaseOp, he]
      exact h
    · rw [Supervisor.leaseOp, he]
      rfl
    · rw [h] at hr
      cases hr
    · rw [h] at hr
      cases hr
  | revoke => rfl
  | resume now => simpa [Supervisor.leaseOp] using h
  | activate generation now => cases hop

section

variable {P} {s s' : PeerState}

theorem ConnectFault.error_ne (fault : ConnectFault) : fault.error ≠ heartbeatMalformed := by
  cases fault <;> decide

theorem PeerInv.lose (h : PeerInv P s) {e : BridgeError} (he : e ≠ heartbeatMalformed) :
    PeerInv P (s.lose e) where
  framed := h.framed.unread (by simp) _ _ _
  opens := h.opens
  closes := h.closes
  revoked := fun _ => rfl
  told := by simp [PeerState.lose]
  error := by simpa [PeerState.lose, ObserverPoint.error] using he
  stopped := by simp [PeerState.lose]

theorem PeerInv.read (h : PeerInv P s) {r : AdmissionRead} (hs : s.service = .reading r)
    (nowUnix : UInt64) :
    PeerInv P ((s.noted r (r.next P nowUnix s.world.store)).polled nowUnix
      (r.next P nowUnix s.world.store)) := by
  have hframed := h.framed.read (P := P) hs nowUnix
  cases hr : r.next P nowUnix s.world.store with
  | inl next =>
    rw [hr, s.noted_eq r (by simp)] at hframed
    rw [s.noted_eq r (by simp)]
    exact ⟨hframed, h.opens, h.closes, h.revoked, h.told, h.error, h.stopped⟩
  | inr result =>
    rw [hr] at hframed
    cases result with
    | opened =>
      obtain ⟨credential, binding, rfl, hopen⟩ := AdmissionRead.opened hr
      refine ⟨hframed, ?_, h.closes, h.revoked, h.told, h.error, h.stopped⟩
      intro o ho
      rcases List.mem_cons.mp ho with rfl | ho
      · exact Device.openTo_of_isOpen hopen
      · exact h.opens o ho
    | closed =>
      rw [s.noted_eq r (by simp)] at hframed ⊢
      refine ⟨hframed, h.opens, ?_, h.revoked, fun _ => rfl, h.error, h.stopped⟩
      intro o ho
      cases ho
      exact AdmissionRead.closed hr
    | invalid =>
      rw [s.noted_eq r (by simp)] at hframed ⊢
      exact ⟨hframed, h.opens, h.closes, h.revoked, h.told, h.error, h.stopped⟩

theorem PeerInv.step {a : PeerAct} (h : PeerInv P s) (hs : PeerStep P s a s') : PeerInv P s' := by
  have hf := h.framed
  cases hs with
  | device hc =>
    exact ⟨⟨hf.heard_le, hf.short, hf.coming, hf.whole, hf.closing, hf.writing⟩, h.opens, h.closes,
      h.revoked, h.told, h.error, h.stopped⟩
  | lease hop =>
    exact ⟨⟨hf.heard_le, hf.short, hf.coming, hf.whole, hf.closing, hf.writing⟩, h.opens, h.closes,
      fun hg => leaseOp_revoked hop (h.revoked hg), h.told, h.error, h.stopped⟩
  | sendStop =>
    exact ⟨⟨hf.heard_le, hf.short, hf.coming, hf.whole, hf.closing, hf.writing⟩, h.opens, h.closes,
      h.revoked, h.told, h.error, fun _ => rfl⟩
  | tick ht => exact ⟨hf.tick ht, h.opens, h.closes, h.revoked, h.told, h.error, h.stopped⟩
  | read hr => exact h.read hr _
  | write hw hpos hle =>
    exact ⟨hf.write hw, h.opens, h.closes, h.revoked, h.told, h.error, h.stopped⟩
  | abort ha => exact ⟨hf.abort ha, h.opens, h.closes, h.revoked, h.told, h.error, h.stopped⟩
  | refuse ho => exact h.lose (ConnectFault.error_ne _)
  | receive ho hpos hle hl =>
    obtain ⟨hframed, herror, hgave⟩ := hf.receive ho hle hl
    obtain ⟨hopens, hcloses, -⟩ := PeerState.received_frame { s with wire := s.wire.drop _ } _ _
    refine ⟨hframed, ?_, ?_, ?_, ?_, ?_, ?_⟩
    · rw [hopens]
      exact h.opens
    · rw [hcloses]
      exact h.closes
    · intro hg
      rw [(hgave hg).1]
      rfl
    · intro ht
      rw [hcloses]
      exact (hgave (by rw [ht]; rfl)).2
    · rw [herror]
      simp
    · intro ht
      exact absurd ht (PeerState.received_going _ _ _)
  | eof ho hwire hret => exact h.lose (by decide)
  | fault ho => exact h.lose (by decide)
  | timeout ho => exact h.lose (by decide)
  | stop ho hstop =>
    refine ⟨hf.unread (by simp) _ _ _, h.opens, h.closes, ?_, ?_, ?_, fun _ => hstop⟩
    · simp [ObserverPoint.gaveUp]
    · simp
    · simp [ObserverPoint.error]
  | clear ho =>
    have he := h.error
    have hr := h.revoked
    rw [ho] at he hr
    exact ⟨hf.unread (by simp) _ _ _, h.opens, h.closes, fun _ => hr rfl, by simp, he, by simp⟩
  | stopBinding ho =>
    have he := h.error
    have hr := h.revoked
    rw [ho] at he hr
    exact ⟨hf.unread (by simp) _ _ _, h.opens, h.closes, fun _ => hr rfl, by simp, he, by simp⟩

end

theorem PeerInv.reachable {P : Platform} {s : PeerState} (h : (peers P).Reachable s) :
    PeerInv P s := by
  refine System.invariant ?_ ?_ h
  · rintro s ⟨hservice, hwire, hobserver, hstop, hopens, hcloses, hheard⟩
    refine ⟨?_, ?_, ?_, ?_, ?_, ?_, ?_⟩
    · constructor <;>
        simp [hservice, hwire, hobserver, hopens, hcloses, hheard, PeerState.coming,
          PeerState.owed, ServicePoint.rest, DEVICE_PEER_HEARTBEAT]
    · simp [hopens]
    · simp [hcloses]
    · simp [hobserver, ObserverPoint.gaveUp]
    · simp [hobserver]
    · simp [hobserver, ObserverPoint.error]
    · simp [hobserver]
  · intro s a s' hi hs
    exact hi.step hs

/-- A revoked lease admits nothing. -/
theorem Supervisor.admits_nothing {s : Supervisor} (h : s.lease.revoked = true) :
    (∀ now, s.admitIssue now = .error .revoked) ∧ ∀ e now, s.checkRemote e now ≠ .ok () := by
  constructor
  · intro now
    simp [admitIssue, LeaseState.admitAt, h]
  · intro e now hc
    have hu := (checkRemote_ok hc).unrevoked
    rw [h] at hu
    cases hu

/-- In every run of the service, the observer and everybody around them: the observer has heard no
more heartbeats than polls have found the gate open to the stored handoff; it has been told that
admission is closed only if a poll has found so; it has read nothing malformed; and once it has
given up, nothing is admitted any more. -/
theorem peer_fails_closed {s : PeerState} (h : (peers P).Reachable s) :
    (s.heard ≤ s.opens.length ∧ ∀ o ∈ s.opens, OpenTo o.2.store o.1.bindingId) ∧
    (s.observer = .returned .admissionClosed →
      ∃ now w, s.closes = some (now, w) ∧ FoundClosed P now w.store) ∧
    s.observer.error ≠ some heartbeatMalformed ∧
    (s.observer.gaveUp = true → (∀ now, s.sup.admitIssue now = .error .revoked) ∧
      ∀ e now, s.sup.checkRemote e now ≠ .ok ()) := by
  have hi := PeerInv.reachable h
  refine ⟨⟨hi.framed.heard_le, hi.opens⟩, ?_, hi.error, fun hg => ?_⟩
  · intro ht
    obtain ⟨⟨now, w⟩, hc⟩ := Option.isSome_iff_exists.mp (hi.told ht)
    exact ⟨now, w, hc, hi.closes _ hc⟩
  · exact Supervisor.admits_nothing (hi.revoked hg)

/-- The service of a device that is not registered has just accepted the bridge. -/
def unregistered : PeerState :=
  ⟨⟨Device.Store.empty, []⟩, .ticking, [], .reading false [],
    .fresh .development ⟨4, 0, false, []⟩ 0 0, false, [], none, 0⟩

theorem unregistered_reachable : (peers Device.samplePlatform).Reachable unregistered :=
  .start ⟨rfl, rfl, rfl, rfl, rfl, rfl, rfl⟩

/-- Its poll finds no credential, and the bridge is told so. -/
theorem peer_fails_closed_unregistered : ∃ s : PeerState,
    s.observer = .returned .admissionClosed ∧
    (∃ now w, s.closes = some (now, w) ∧ FoundClosed Device.samplePlatform now w.store) ∧
    ∀ now, s.sup.admitIssue now = .error .revoked := by
  have h1 := unregistered_reachable.next .tick (.tick rfl)
  have h2 := h1.next (.read 0) (.read rfl)
  have h3 := h2.next (.write 5) (.write rfl (by decide) (by decide))
  have h4 := h3.next (.receive 5) (.receive rfl (by decide) (by decide) (by decide))
  have h := peer_fails_closed _ h4
  exact ⟨_, rfl, h.2.1 rfl, (h.2.2.2 rfl).1⟩

/-! ## Once the gate is shut -/

/-- At most so many steps are left of the service, with those in which its bytes are read, -/
def serviceWork : ServicePoint → Nat
  | .ticking => 14
  | .reading r => 10 + r.left
  | .writing rest closing => 2 * rest.length + if closing then 0 else 14
  | .returned => 0

/-- and of the observer, with nothing to read. -/
def ObserverPoint.work : ObserverPoint → Nat
  | reading _ _ => 3
  | clearing _ => 2
  | stopping _ => 1
  | returned _ => 0

theorem ObserverPoint.work_le (o : ObserverPoint) : o.work ≤ 3 := by
  cases o <;> simp [work]

def PeerState.work (s : PeerState) : Nat := serviceWork s.service + s.wire.length + s.observer.work

section

variable {P} {s s' : PeerState}

theorem PeerInv.work_le (h : PeerInv P s) : s.work ≤ 27 + s.wire.length := by
  have ho := s.observer.work_le
  have hs : serviceWork s.service ≤ 24 := by
    cases hp : s.service with
    | ticking => simp [serviceWork]
    | reading r => cases r <;> simp [serviceWork, AdmissionRead.left]
    | writing rest closing =>
      have hle := (h.framed.writing rest closing hp).2
      simp only [DEVICE_PEER_HEARTBEAT, List.length_cons, List.length_nil] at hle
      simp only [serviceWork]
      split <;> omega
    | returned => simp [serviceWork]
  rw [PeerState.work]
  omega

/-- With the gate shut a poll ends without a heartbeat. -/
theorem poll_work (hw : Shut s.world) (r : AdmissionRead) (nowUnix : UInt64) :
    let s' := (s.noted r (r.next P nowUnix s.world.store)).polled nowUnix
      (r.next P nowUnix s.world.store)
    serviceWork s'.service < 10 + r.left ∧ s'.opens = s.opens ∧ s'.wire = s.wire ∧
      s'.observer = s.observer := by
  have hpos : 0 < r.left := by cases r <;> simp [AdmissionRead.left]
  have hshut : r.next P nowUnix s.world.store ≠ .inr .opened := AdmissionRead.shut hw r
  rw [s.noted_eq r hshut]
  cases hr : r.next P nowUnix s.world.store with
  | inl next =>
    have hlt := AdmissionRead.left_next hr
    exact ⟨Nat.add_lt_add_left hlt 10, rfl, rfl, rfl⟩
  | inr result =>
    cases result with
    | opened => exact absurd hr hshut
    | closed => exact ⟨by simp [PeerState.polled, serviceWork, DEVICE_PEER_ADMISSION_CLOSED, hpos],
        rfl, rfl, rfl⟩
    | invalid => exact ⟨by simp [PeerState.polled, serviceWork], rfl, rfl, rfl⟩

/-- Each step of the two loops is one less to come. -/
theorem PeerInv.work_step {a : PeerAct} (h : PeerInv P s) (hw : Shut s.world)
    (hs : PeerStep P s a s') : s'.work + a.own.toNat ≤ s.work ∧ s'.opens = s.opens := by
  cases hs with
  | device hc => exact ⟨Nat.le_refl _, rfl⟩
  | lease hop => exact ⟨Nat.le_refl _, rfl⟩
  | sendStop => exact ⟨Nat.le_refl _, rfl⟩
  | tick ht =>
    refine ⟨?_, rfl⟩
    simp only [PeerState.work, ht, serviceWork, AdmissionRead.left, PeerAct.own, Bool.toNat_true]
    omega
  | @read r nowUnix hr =>
    obtain ⟨hlt, hopens, hwire, hobserver⟩ := poll_work (P := P) hw r nowUnix
    refine ⟨?_, hopens⟩
    rw [PeerState.work, PeerState.work, hwire, hobserver, hr]
    simp only [serviceWork, PeerAct.own, Bool.toNat_true] at hlt ⊢
    omega
  | @write rest closing n hwrite hpos hle =>
    refine ⟨?_, rfl⟩
    have hservice : serviceWork (s.wrote (rest.take n) (rest.drop n) closing).service ≤
        2 * (rest.length - n) + if closing then 0 else 14 := by
      simp only [PeerState.wrote]
      split
      · cases closing <;> simp [serviceWork]
      · simp [serviceWork]
    have hwire : (s.wrote (rest.take n) (rest.drop n) closing).wire.length =
        s.wire.length + n := by
      simp [PeerState.wrote, Nat.min_eq_left hle]
    have hobserver : (s.wrote (rest.take n) (rest.drop n) closing).observer = s.observer := rfl
    rw [PeerState.work, PeerState.work, hwire, hobserver, hwrite]
    simp only [serviceWork, PeerAct.own, Bool.toNat_true] at hservice ⊢
    omega
  | abort ha =>
    refine ⟨?_, rfl⟩
    have hpos : 0 < serviceWork s.service := by
      cases hp : s.service with
      | writing rest closing =>
        have hne := List.length_pos_of_ne_nil (h.framed.writing rest closing hp).1
        simp only [serviceWork]
        omega
      | returned => exact absurd hp ha
      | _ => simp [serviceWork]
    have hafter : ({ s with service := .returned } : PeerState).work =
        s.wire.length + s.observer.work := by
      simp [PeerState.work, serviceWork]
    rw [hafter, PeerState.work]
    simp only [PeerAct.own, Bool.toNat_true]
    omega
  | refuse ho => exact ⟨by simp [PeerState.work, PeerState.lose, ho, ObserverPoint.work,
      PeerAct.own], rfl⟩
  | @receive connected heartbeat n ho hpos hle hl =>
    obtain ⟨hopens, -, hservice, hwire⟩ :=
      PeerState.received_frame { s with wire := s.wire.drop n } connected
        (heartbeat ++ s.wire.take n)
    refine ⟨?_, hopens⟩
    have hbefore : s.observer.work = 3 := by rw [ho]; rfl
    have hafter := ObserverPoint.work_le ({ s with wire := s.wire.drop n }.received connected
      (heartbeat ++ s.wire.take n)).observer
    rw [PeerState.work, PeerState.work, hservice, hwire, hbefore, List.length_drop]
    simp only [PeerAct.own, Bool.toNat_true]
    omega
  | eof ho hwire hret => exact ⟨by simp [PeerState.work, PeerState.lose, ho, ObserverPoint.work,
      PeerAct.own], rfl⟩
  | fault ho => exact ⟨by simp [PeerState.work, PeerState.lose, ho, ObserverPoint.work,
      PeerAct.own], rfl⟩
  | timeout ho => exact ⟨by simp [PeerState.work, PeerState.lose, ho, ObserverPoint.work,
      PeerAct.own], rfl⟩
  | stop ho hstop => exact ⟨by simp [PeerState.work, ho, ObserverPoint.work, PeerAct.own], rfl⟩
  | clear ho => exact ⟨by simp [PeerState.work, ho, ObserverPoint.work, PeerAct.own], rfl⟩
  | stopBinding ho => exact ⟨by simp [PeerState.work, ho, ObserverPoint.work, PeerAct.own], rfl⟩

/-- Some loop can go on until the observer has returned. -/
theorem PeerInv.goes_on (h : PeerInv P s) (ho : ∀ outcome, s.observer ≠ .returned outcome) :
    ∃ a s', a.quiet = true ∧ PeerStep P s a s' := by
  cases hobserver : s.observer with
  | clearing e => exact ⟨.clear true, _, rfl, .clear hobserver⟩
  | stopping e => exact ⟨.stopBinding, _, rfl, .stopBinding hobserver⟩
  | returned outcome => exact absurd hobserver (ho outcome)
  | reading connected heartbeat =>
    by_cases hwire : s.wire = []
    · cases hservice : s.service with
      | ticking => exact ⟨.tick, _, rfl, .tick hservice⟩
      | reading r => exact ⟨.read 0, _, rfl, .read hservice⟩
      | writing rest closing =>
        have hne := List.length_pos_of_ne_nil (h.framed.writing rest closing hservice).1
        exact ⟨.write 1, _, rfl, .write hservice Nat.one_pos hne⟩
      | returned => exact ⟨.eof, _, rfl, .eof hobserver hwire hservice⟩
    · have hpos := List.length_pos_of_ne_nil hwire
      have hshort := h.framed.short connected heartbeat hobserver
      exact ⟨.receive 1, _, rfl, .receive hobserver Nat.one_pos hpos hshort⟩

end

/-- From any state on, as long as the gate is shut: no poll finds it open, so no heartbeat is heard
that was not on its way already; the two loops take boundedly many steps; and they come to rest,
no fault interfering, only when the observer has returned, told to stop or with nothing admitted
any more. -/
theorem peer_reacts {s s' : PeerState} {n : Nat} (h : (peers P).Reachable s)
    (hrun : Counted ((peers P).restrict fun s _ => Shut s.world) PeerAct.own s n s') :
    s'.opens = s.opens ∧ s'.heard ≤ s.opens.length ∧ n ≤ 27 + s.wire.length ∧
    ((∀ a s'', a.quiet = true → ¬ PeerStep P s' a s'') →
      (∃ outcome, s'.observer = .returned outcome) ∧
      (s'.stop = true ∨ ((∀ now, s'.sup.admitIssue now = .error .revoked) ∧
        ∀ e now, s'.sup.checkRemote e now ≠ .ok ()))) := by
  have hi := PeerInv.reachable h
  have hstep : ∀ r a r', PeerInv P r ∧ r.opens = s.opens →
      ((peers P).restrict fun s _ => Shut s.world).step r a r' →
      (PeerInv P r' ∧ r'.opens = s.opens) ∧ r'.work + a.own.toNat ≤ r.work := by
    rintro r a r' ⟨hr, ho⟩ ⟨hs, hw⟩
    obtain ⟨hwork, hopens⟩ := hr.work_step hw hs
    exact ⟨⟨hr.step hs, hopens.trans ho⟩, hwork⟩
  obtain ⟨⟨hi', hopens⟩, hn⟩ := hrun.bound (fun r a r' hr hs => (hstep r a r' hr hs).1)
    (fun r a r' hr hs => (hstep r a r' hr hs).2) ⟨hi, rfl⟩
  have hwork := hi.work_le
  refine ⟨hopens, hopens ▸ hi'.framed.heard_le, by omega, fun hrest => ?_⟩
  have hreturned : ∃ outcome, s'.observer = .returned outcome := by
    by_contra hno
    obtain ⟨a, s'', hq, hs⟩ := hi'.goes_on fun outcome he => hno ⟨outcome, he⟩
    exact hrest a s'' hq hs
  refine ⟨hreturned, ?_⟩
  obtain ⟨outcome, ho⟩ := hreturned
  cases outcome with
  | stopped => exact .inl (hi'.stopped ho)
  | admissionClosed => exact .inr (Supervisor.admits_nothing (hi'.revoked (by rw [ho]; rfl)))
  | lost e => exact .inr (Supervisor.admits_nothing (hi'.revoked (by rw [ho]; rfl)))

/-- The gate of an unregistered device is shut, and four steps bring both loops to their end. -/
theorem peer_reacts_unregistered : ∃ s' : PeerState, s'.observer = .returned .admissionClosed ∧
    s'.opens = [] ∧ s'.heard ≤ 0 ∧ 4 ≤ 27 + unregistered.wire.length := by
  have hshut : Shut unregistered.world := by
    rintro b ⟨r, hr, -⟩
    cases hr
  have h0 : Counted ((peers Device.samplePlatform).restrict fun s _ => Shut s.world) PeerAct.own
      unregistered 0 unregistered := .refl
  have h1 := h0.snoc .tick ⟨.tick rfl, hshut⟩ rfl
  have h2 := h1.snoc (.read 0) ⟨.read rfl, hshut⟩ rfl
  have h3 := h2.snoc (.write 5) ⟨.write rfl (by decide) (by decide), hshut⟩ rfl
  have h4 := h3.snoc (.receive 5)
    ⟨.receive rfl (by decide) (by decide) (by decide), hshut⟩ rfl
  have h := peer_reacts _ unregistered_reachable h4
  exact ⟨_, rfl, h.1, h.2.1, h.2.2.1⟩

end Bridge
end EgoBridge
