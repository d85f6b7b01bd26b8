import EgoBridge.Bridge.Supervisor
import EgoBridge.Json.Decode
import EgoBridge.Json.Size

/-!
# Bridge.StateStore

The ledger of the highest relay sequence number, on a disk whose operations may fail.

A rename is atomic. It is durable once the directory is synced; until then a crash may bring the
contents back that it replaced.

* `load_persisted`         — what was persisted is loaded.
* `persistRemoteSequence_cases` — persisting leaves the ledger alone, or puts the new number
  into it, and if it succeeds the number is all that is left after a crash.
-/

namespace EgoBridge
namespace Bridge

open Protocol Json

structure RemoteSequenceState where
  version : UInt32
  highestSequence : UInt64
  deriving DecidableEq

namespace RemoteSequenceState

def members (s : RemoteSequenceState) : List (String × Json) :=
  [("version", ofU32 s.version), ("highest_sequence", ofU64 s.highestSequence)]

def toJson (s : RemoteSequenceState) : Json := .obj s.members

def names : List String := ["version", "highest_sequence"]

def ofJson (v : Json) : Option RemoteSequenceState := do
  let ms ← fields names v
  let version ← required ms "version" asU32
  let highestSequence ← required ms "highest_sequence" asU64
  some { version, highestSequence }

theorem codec (s : RemoteSequenceState) : Codec toJson ofJson 1 s where
  strict := by simp [toJson, members, Strict, StrictMembers]
  inRange := by simp [toJson, members, InRange, InRangeMembers]
  nesting := by simp [toJson, members, nesting, nestingMembers]
  read := by
    obtain ⟨ms, hf, hl⟩ := fields_canonical names s.members (by simp [members])
      (by simp [members, names])
    refine reads hf ?_
    refine reads (required_u32 hl (k := "version") rfl) ?_
    refine reads (required_u64 hl (k := "highest_sequence") rfl) ?_
    rfl

end RemoteSequenceState

/-! ## The disk -/

/-- What the ledger's path shows, and what a crash may leave there instead: the contents that were
replaced by a rename that is not durable yet, latest first. -/
structure LedgerDisk where
  visible : Option Bytes
  older : List (Option Bytes)

namespace LedgerDisk

def survivors (d : LedgerDisk) : List (Option Bytes) := d.visible :: d.older

/-- No ledger has been written. -/
def empty : LedgerDisk := ⟨none, []⟩

def renamed (d : LedgerDisk) (bytes : Bytes) : LedgerDisk := ⟨some bytes, d.survivors⟩

def synced (d : LedgerDisk) : LedgerDisk := ⟨d.visible, []⟩

end LedgerDisk

/-- What the system answers while the ledger is loaded. -/
structure LoadIo where
  found : Except BridgeError Unit
  validated : Except BridgeError Unit
  read : Except BridgeError Unit

def loadRemoteSequence (content : Option Bytes) (io : LoadIo) : Except BridgeError UInt64 := do
  io.found
  match content with
  | none => .ok 0
  | some bytes => do
    io.validated
    io.read
    if 256 < (bytes.take 257).length then
      .error (.protocolMessage "remote sequence ledger is too large")
    else
      match parseStrictJson RemoteSequenceState.ofJson (bytes.take 257) with
      | .error _ => .error (.protocolMessage "remote sequence ledger is malformed")
      | .ok state =>
        if state.version ≠ 1 then
          .error (.protocolMessage "remote sequence ledger version is unsupported")
        else .ok state.highestSequence

/-- What the system answers while the ledger is persisted. `created i` is the attempt `i` to create
a temporary file: false is a name that is taken. -/
structure PersistIo where
  checked : Except BridgeError Unit
  created : Nat → Except BridgeError Bool
  written : Except BridgeError Unit
  renamed : Except BridgeError Unit
  validated : Except BridgeError Unit
  synced : Except BridgeError Unit

/-- The attempts from `i` on. -/
def createTemporary (created : Nat → Except BridgeError Bool) (i : Nat) :
    Nat → Except BridgeError Unit
  | 0 => .error (.protocolMessage "remote sequence ledger temporary path collision")
  | attempts + 1 =>
    match created i with
    | .error e => .error e
    | .ok true => .ok ()
    | .ok false => createTemporary created (i + 1) attempts

def ledgerBytes (sequence : UInt64) : Bytes :=
  canonicalJson (RemoteSequenceState.mk 1 sequence).toJson

def persistRemoteSequence (d : LedgerDisk) (sequence : UInt64) (io : PersistIo) :
    LedgerDisk × Except BridgeError Unit :=
  match io.checked with
  | .error e => (d, .error e)
  | .ok () =>
    match createTemporary io.created 0 8 with
    | .error e => (d, .error e)
    | .ok () =>
      match io.written with
      | .error e => (d, .error e)
      | .ok () =>
        match io.renamed with
        | .error e => (d, .error e)
        | .ok () =>
          let d := d.renamed (ledgerBytes sequence)
          match io.validated with
          | .error e => (d, .error e)
          | .ok () =>
            match io.synced with
            | .error e => (d, .error e)
            | .ok () => (d.synced, .ok ())

/-! ## What the ledger holds -/

/-- The system without a fault. -/
def LoadIo.sound : LoadIo := ⟨.ok (), .ok (), .ok ()⟩

def PersistIo.sound : PersistIo := ⟨.ok (), fun _ => .ok true, .ok (), .ok (), .ok (), .ok ()⟩

/-- A process that meets no fault loads the number `n`. -/
def Holds (content : Option Bytes) (n : UInt64) : Prop :=
  loadRemoteSequence content .sound = .ok n

/-- The number that the ledger's content stands for, if it stands for one. -/
def ledgerNumber (content : Option Bytes) : Option UInt64 :=
  (loadRemoteSequence content .sound).toOption

theorem decimalSize_le_of_lt {n : Nat} (h : n < 2 ^ 64) : decimalSize n ≤ 20 :=
  (Nat.length_toDigits_le_iff (by decide) (by decide)).mpr (h.trans (by decide))

theorem ledgerBytes_length (n : UInt64) : (ledgerBytes n).length ≤ 256 := by
  have h := decimalSize_le_of_lt n.toNat_lt
  have hl : (ledgerBytes n).length = 33 + decimalSize n.toNat := by
    rw [ledgerBytes, canonicalJson_length, RemoteSequenceState.toJson, size_obj]
    simp only [membersSize, RemoteSequenceState.members, List.map_cons, List.map_nil,
      List.sum_cons, List.sum_nil, size_ofU64, size_ofU32,
      show escapedSize "version" = 7 from rfl, show escapedSize "highest_sequence" = 16 from rfl,
      show decimalSize (1 : UInt32).toNat = 1 from rfl]
    omega
  omega

/-- No ledger holds 0. -/
theorem holds_nothing : Holds none 0 := rfl

theorem load_persisted (n : UInt64) : Holds (some (ledgerBytes n)) n := by
  have hl := ledgerBytes_length n
  have hp : parseStrictJson RemoteSequenceState.ofJson (ledgerBytes n) = .ok ⟨1, n⟩ :=
    (RemoteSequenceState.mk 1 n).codec.parse (by decide)
  rw [Holds, loadRemoteSequence]
  dsimp only [LoadIo.sound]
  rw [ok_bind, ok_bind, ok_bind, List.take_of_length_le (by omega), if_neg (by omega), hp]
  dsimp only
  rw [if_neg (by decide)]

theorem ledgerNumber_eq {content : Option Bytes} {n : UInt64} (h : Holds content n) :
    ledgerNumber content = some n := by
  rw [ledgerNumber, h]
  rfl

/-- Whatever the system answers, what is loaded is what the ledger holds. -/
theorem load_ok {content : Option Bytes} {n m : UInt64} {io : LoadIo} (h : Holds content n)
    (hl : loadRemoteSequence content io = .ok m) : m = n := by
  obtain ⟨_, _, hl⟩ := bind_ok hl
  obtain ⟨_, _, hp⟩ := bind_ok h
  cases content with
  | none =>
    cases hl
    cases hp
    rfl
  | some bytes =>
    obtain ⟨_, _, hl⟩ := bind_ok hl
    obtain ⟨_, _, hl⟩ := bind_ok hl
    obtain ⟨_, _, hp⟩ := bind_ok hp
    obtain ⟨_, _, hp⟩ := bind_ok hp
    rw [hl] at hp
    cases hp
    rfl

/-- Persisting leaves the ledger alone, or puts the new number into it. If it succeeds, the number
is all that is left after a crash. Which of these it is does not depend on the ledger. -/
theorem persistRemoteSequence_cases (sequence : UInt64) (io : PersistIo) :
    (∃ e, ∀ d, persistRemoteSequence d sequence io = (d, .error e)) ∨
    (∃ e, ∀ d, persistRemoteSequence d sequence io =
      (d.renamed (ledgerBytes sequence), .error e)) ∨
    ∀ d, persistRemoteSequence d sequence io = (⟨some (ledgerBytes sequence), []⟩, .ok ()) := by
  unfold persistRemoteSequence
  cases io.checked with
  | error e => exact .inl ⟨e, fun _ => rfl⟩
  | ok u =>
    dsimp only
    cases createTemporary io.created 0 8 with
    | error e => exact .inl ⟨e, fun _ => rfl⟩
    | ok u =>
      dsimp only
      cases io.written with
      | error e => exact .inl ⟨e, fun _ => rfl⟩
      | ok u =>
        dsimp only
        cases io.renamed with
        | error e => exact .inl ⟨e, fun _ => rfl⟩
        | ok u =>
          dsimp only
          cases io.validated with
          | error e => exact .inr (.inl ⟨e, fun _ => rfl⟩)
          | ok u =>
            dsimp only
            cases io.synced with
            | error e => exact .inr (.inl ⟨e, fun _ => rfl⟩)
            | ok u => exact .inr (.inr fun _ => rfl)

end Bridge
end EgoBridge
