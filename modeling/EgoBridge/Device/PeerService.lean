import EgoBridge.Device.Admission

/-!
# Device.PeerService

The loop in which the device service serves one bridge, and what it finds at each tick.

`local_peer_admission` reads three files, one after the other, and other commands may change the
store between two of its reads.

* `AdmissionRead`      — the reads of one tick.
* `localPeerAdmission` — all of them on a store at rest.
* `FoundClosed`        — what a store is like when a read reports that admission is closed.
-/

namespace EgoBridge
namespace Device

open Protocol Json Crash

def DEVICE_PEER_HEARTBEAT : Bytes := [0x45, 0x47, 0x42, 0x31, 0x0a]

/-- Signals local admission closure so the Bridge revokes in-memory work. -/
def DEVICE_PEER_ADMISSION_CLOSED : Bytes := [0x45, 0x47, 0x42, 0x30, 0x0a]

inductive LocalPeerAdmission where
  | opened
  | closed
  | invalid
  deriving DecidableEq

/-- What `local_peer_admission` reads next. -/
inductive AdmissionRead where
  | credential
  | binding (credential : CommunityCredential)
  | gate (credential : CommunityCredential) (binding : ActiveBinding)

variable (P : Platform)

/-- A read leads to the next one or to the result. -/
def AdmissionRead.next (nowUnix : UInt64) (s : Store) :
    AdmissionRead → AdmissionRead ⊕ LocalPeerAdmission
  | .credential =>
    match s.load P nowUnix with
    | .ok c => .inl (.binding c)
    | .error .missing => .inr .closed
    | .error _ => .inr .invalid
  | .binding c =>
    match s.loadActiveBinding c.deviceId with
    | .ok b => .inl (.gate c b)
    | .error .missing => .inr .closed
    | .error _ => .inr .invalid
  | .gate c b =>
    match s.localAdmissionIsOpen c.deviceId b with
    | .ok true => .inr .opened
    | .ok false => .inr .closed
    | .error _ => .inr .invalid

/-- `local_peer_admission`, while nobody changes the store. -/
def localPeerAdmission (nowUnix : UInt64) (s : Store) : LocalPeerAdmission :=
  match s.load P nowUnix with
  | .error .missing => .closed
  | .error _ => .invalid
  | .ok credential =>
    match s.loadActiveBinding credential.deviceId with
    | .error .missing => .closed
    | .error _ => .invalid
    | .ok binding =>
      match s.localAdmissionIsOpen credential.deviceId binding with
      | .ok true => .opened
      | .ok false => .closed
      | .error _ => .invalid

/-- Where the loop of `serve_device_peer_inner` is. What it writes may go out in pieces. -/
inductive ServicePoint where
  | ticking
  | reading (next : AdmissionRead)
  | writing (rest : Bytes) (closing : Bool)
  | returned

/-- The bytes of the present write that are not out yet. -/
def ServicePoint.rest : ServicePoint → Bytes
  | .writing rest _ => rest
  | _ => []

/-- Some read finds its file missing, or the gate not open. -/
def FoundClosed (nowUnix : UInt64) (s : Store) : Prop :=
  s.load P nowUnix = .error .missing ∨
  (∃ deviceId, s.loadActiveBinding deviceId = .error .missing) ∨
  ∃ deviceId binding, s.localAdmissionIsOpen deviceId binding = .ok false

section

variable {P} {nowUnix : UInt64} {s : Store}

theorem AdmissionRead.opened {r : AdmissionRead} (h : r.next P nowUnix s = .inr .opened) :
    ∃ credential binding, r = .gate credential binding ∧
      s.localAdmissionIsOpen credential.deviceId binding = .ok true := by
  cases r with
  | credential =>
    simp only [AdmissionRead.next] at h
    split at h <;> simp at h
  | binding c =>
    simp only [AdmissionRead.next] at h
    split at h <;> simp at h
  | gate c b =>
    simp only [AdmissionRead.next] at h
    split at h
    · rename_i hopen
      exact ⟨c, b, rfl, hopen⟩
    · simp at h
    · simp at h

theorem AdmissionRead.closed {r : AdmissionRead} (h : r.next P nowUnix s = .inr .closed) :
    FoundClosed P nowUnix s := by
  cases r with
  | credential =>
    simp only [AdmissionRead.next] at h
    split at h
    · simp at h
    · rename_i hmissing
      exact .inl hmissing
    · simp at h
  | binding c =>
    simp only [AdmissionRead.next] at h
    split at h
    · simp at h
    · rename_i hmissing
      exact .inr (.inl ⟨_, hmissing⟩)
    · simp at h
  | gate c b =>
    simp only [AdmissionRead.next] at h
    split at h
    · simp at h
    · rename_i hshut
      exact .inr (.inr ⟨_, _, hshut⟩)
    · simp at h

/-- The reads come in order, and there are three at most. -/
def AdmissionRead.left : AdmissionRead → Nat
  | .credential => 3
  | .binding _ => 2
  | .gate _ _ => 1

theorem AdmissionRead.left_next {r r' : AdmissionRead} (h : r.next P nowUnix s = .inl r') :
    r'.left < r.left := by
  cases r with
  | credential =>
    simp only [AdmissionRead.next] at h
    split at h
    · cases h
      simp [AdmissionRead.left]
    · simp at h
    · simp at h
  | binding c =>
    simp only [AdmissionRead.next] at h
    split at h
    · cases h
      simp [AdmissionRead.left]
    · simp at h
    · simp at h
  | gate c b =>
    simp only [AdmissionRead.next] at h
    split at h <;> simp at h

/-- With the gate shut no read ends in a heartbeat. -/
theorem AdmissionRead.shut {w : World} (hw : Shut w) (r : AdmissionRead) :
    r.next P nowUnix w.store ≠ .inr .opened := by
  intro h
  obtain ⟨_, binding, -, hopen⟩ := AdmissionRead.opened h
  exact hw binding.bindingId (openTo_of_isOpen hopen)

/-- The reads of a store at rest. -/
theorem localPeerAdmission_reads : localPeerAdmission P nowUnix s =
    match AdmissionRead.credential.next P nowUnix s with
    | .inr result => result
    | .inl read =>
      match read.next P nowUnix s with
      | .inr result => result
      | .inl read =>
        match read.next P nowUnix s with
        | .inr result => result
        | .inl _ => .invalid := by
  simp only [localPeerAdmission, AdmissionRead.next]
  cases hload : s.load P nowUnix with
  | error e => cases e <;> rfl
  | ok credential =>
    simp only []
    cases hbinding : s.loadActiveBinding credential.deviceId with
    | error e => cases e <;> rfl
    | ok binding =>
      simp only []
      cases s.localAdmissionIsOpen credential.deviceId binding with
      | error e => rfl
      | ok isOpen => cases isOpen <;> rfl

end

end Device
end EgoBridge
