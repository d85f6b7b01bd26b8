import EgoBridge.Device.Texts
import EgoBridge.Lib.Files

/-!
# Device.Directory

The store's directory as the file system shows it: what kind of file is at a name, whose it is,
its links, its mode and its bytes.

* `Node.Owned`     — a file that `validate_owner_file_metadata` accepts.
* `Directory.readOwnerFile`, `localAdmissionIsOpen` — what a reader makes of the directory when no
  call fails.
* `isOpen_closed`  — a gate whose file says closed, or is not there, is open to nobody.
-/

namespace EgoBridge
namespace Device

open Protocol Json Files

def LOCAL_ADMISSION_FILE_NAME : String := "ego-browser-local-admission.json"

/-- Only known state files are migrated; unknown files remain untouched. -/
def DEVICE_STORE_STATE_FILES : List String :=
  ["ego-browser-credential.json", "ego-browser-device-key.bin", "ego-browser-device-metadata.json",
    "ego-browser-device-key.pending.bin", "ego-browser-pending-rotation.json",
    "ego-browser-pending-registration.json", "ego-browser-policy.json",
    ".ego-browser-policy.lock", "ego-browser-active-binding.json",
    "ego-browser-local-admission.json", ".ego-browser-registration.lock"]

/-! ## Metadata -/

inductive FileType where
  | regular
  | directory
  | symlink
  | socket
  | other
  deriving DecidableEq

structure Metadata where
  fileType : FileType
  uid : Nat
  nlink : Nat
  mode : Nat
  deriving DecidableEq

structure Node where
  metadata : Metadata
  bytes : Bytes
  deriving DecidableEq

abbrev Directory := Name → Option Node

/-- Who runs the client, and under which file mode creation mask. -/
structure User where
  euid : Nat
  umask : Nat

namespace User

/-- The mode of what is created with `mode`. -/
def masked (u : User) (mode : Nat) : Nat := mode &&& (0o777 ^^^ (u.umask &&& 0o777))

variable (u : User)

def validateOwnerFileMetadata (m : Metadata) : Except CredentialError Unit :=
  if m.fileType ≠ .regular then .error .invalidPath
  else if m.uid ≠ u.euid ∨ m.nlink ≠ 1 ∨ m.mode &&& 0o777 ≠ 0o600 then .error .unsafePermissions
  else .ok ()

/-- The check of a file that is read, cleared, or has just been written. -/
def checkOwnerFile (m : Metadata) : Except CredentialError Unit :=
  if m.fileType = .symlink ∨ m.fileType ≠ .regular then .error .invalidPath
  else u.validateOwnerFileMetadata m

def validateStoreDirectoryMetadata (m : Metadata) : Except CredentialError Unit :=
  if m.fileType = .symlink ∨ m.fileType ≠ .directory then .error .invalidPath
  else if m.uid ≠ u.euid ∨ m.mode &&& 0o077 ≠ 0 then .error .unsafePermissions
  else .ok ()

/-- A file of the user's own that nobody else may touch. -/
def Owns (n : Node) : Prop := u.validateOwnerFileMetadata n.metadata = .ok ()

instance (n : Node) : Decidable (u.Owns n) :=
  inferInstanceAs (Decidable (u.validateOwnerFileMetadata n.metadata = .ok ()))

theorem owns_iff {n : Node} :
    u.Owns n ↔ n.metadata.fileType = .regular ∧ n.metadata.uid = u.euid ∧ n.metadata.nlink = 1 ∧
      n.metadata.mode &&& 0o777 = 0o600 := by
  unfold Owns validateOwnerFileMetadata
  split_ifs with h h'
  · simp [h]
  · simp only [false_iff, not_and]
    tauto
  · tauto

theorem checkOwnerFile_ok {n : Node} : u.checkOwnerFile n.metadata = .ok () ↔ u.Owns n := by
  unfold checkOwnerFile
  split_ifs with h
  · simp only [owns_iff, false_iff]
    rintro ⟨ht, -⟩
    simp [ht] at h
  · exact Iff.rfl

/-- A file as it is created for the store. -/
def created (bytes : Bytes) : Node := ⟨⟨.regular, u.euid, 1, u.masked 0o600⟩, bytes⟩

/-- Whether a created file is the owner's to read and to write depends on the mask alone. -/
theorem owns_created (b b' : Bytes) : u.Owns (u.created b) ↔ u.Owns (u.created b') := by
  simp only [owns_iff, created]

end User

/-! ## Reading -/

namespace Directory

variable (u : User)

def readOwnerFile (d : Directory) (name : String) : Except CredentialError Bytes :=
  match d (.text name) with
  | none => .error .missing
  | some n =>
    match u.checkOwnerFile n.metadata with
    | .error e => .error e
    | .ok _ => if MAX_CREDENTIAL_BYTES < n.bytes.length then .error .tooLarge else .ok n.bytes

/-- Reads the gate while preserving missing or corrupt states for diagnostics. -/
def loadLocalAdmission (d : Directory) : Except CredentialError LocalAdmissionRecord :=
  match d.readOwnerFile u LOCAL_ADMISSION_FILE_NAME with
  | .error e => .error e
  | .ok bytes =>
    if 16 * 1024 < bytes.length then .error .tooLarge
    else
      match parseStrictJson LocalAdmissionRecord.ofJson bytes with
      | .error _ => .error .malformed
      | .ok r => if ¬ validLocalAdmissionRecord r then .error .malformed else .ok r

/-- Returns whether an exact active binding has a valid local admission record. -/
def localAdmissionIsOpen (d : Directory) (deviceId : String) (binding : ActiveBinding) :
    Except CredentialError Bool :=
  match d.loadLocalAdmission u with
  | .error .missing => .ok false
  | .error e => .error e
  | .ok r =>
    .ok (r.state = LOCAL_ADMISSION_OPEN && r.deviceId = some deviceId &&
      r.bindingId = some binding.bindingId && r.bindingGeneration = some binding.generation)

/-- The gate is open to no binding. -/
def Closed (d : Directory) : Prop :=
  ∀ deviceId binding, d.localAdmissionIsOpen u deviceId binding = .ok false

variable {u}

theorem readOwnerFile_owns {d : Directory} {name : String} {n : Node}
    (h : d (.text name) = some n) (hn : u.Owns n) (hs : n.bytes.length ≤ MAX_CREDENTIAL_BYTES) :
    d.readOwnerFile u name = .ok n.bytes := by
  simp [readOwnerFile, h, u.checkOwnerFile_ok.mpr hn, Nat.not_lt.mpr hs]

/-- What `write_local_admission` has written is read back. -/
theorem loadLocalAdmission_text {d : Directory} {n : Node} {r : LocalAdmissionRecord}
    (h : d (.text LOCAL_ADMISSION_FILE_NAME) = some n) (hn : u.Owns n)
    (hb : n.bytes = LocalAdmissionRecord.format.text r) (hr : validLocalAdmissionRecord r = true) :
    d.loadLocalAdmission u = .ok r := by
  have hlen : n.bytes.length ≤ 16 * 1024 := by
    rw [hb]
    exact (utf8_ofList_length _).trans_le (size_localAdmissionRecord hr)
  have hread := readOwnerFile_owns h hn (hlen.trans (by decide))
  have hp : parseStrictJson LocalAdmissionRecord.ofJson n.bytes = .ok r := by
    rw [hb]
    exact parseStrictJson_render (LocalAdmissionRecord.format.strict r)
      (LocalAdmissionRecord.format.inRange r) (LocalAdmissionRecord.format.nesting r)
      (LocalAdmissionRecord.ofJson_toJson r)
  rw [loadLocalAdmission, hread]
  simp only [Nat.not_lt.mpr hlen, ↓reduceIte, hp, hr, not_true_eq_false]

/-- The gate's file says that it is closed. -/
def SaysClosed (u : User) (d : Directory) : Prop :=
  ∃ n r, d (.text LOCAL_ADMISSION_FILE_NAME) = some n ∧ u.Owns n ∧
    n.bytes = LocalAdmissionRecord.format.text r ∧ validLocalAdmissionRecord r = true ∧
    r.state = LOCAL_ADMISSION_CLOSED

theorem closed_of_says {d : Directory} (h : SaysClosed u d) : d.Closed u := by
  obtain ⟨n, r, hd, hn, hb, hr, hs⟩ := h
  intro deviceId binding
  rw [localAdmissionIsOpen, loadLocalAdmission_text hd hn hb hr]
  simp [hs, LOCAL_ADMISSION_CLOSED, LOCAL_ADMISSION_OPEN]

theorem closed_of_missing {d : Directory} (h : d (.text LOCAL_ADMISSION_FILE_NAME) = none) :
    d.Closed u := by
  intro deviceId binding
  simp [localAdmissionIsOpen, loadLocalAdmission, readOwnerFile, h]

end Directory

/-- The records of a store and a directory that holds their texts have the same gate. -/
theorem localAdmissionIsOpen_text {u : User} {d : Directory} {s : Store}
    (h : d (.text LOCAL_ADMISSION_FILE_NAME) =
      s.localAdmission.map fun r => u.created (LocalAdmissionRecord.format.text r))
    (hu : u.Owns (u.created [])) (deviceId : String) (binding : ActiveBinding) :
    d.localAdmissionIsOpen u deviceId binding = s.localAdmissionIsOpen deviceId binding := by
  have hload : d.loadLocalAdmission u = s.loadLocalAdmission := by
    cases hs : s.localAdmission with
    | none =>
      rw [hs, Option.map_none] at h
      simp [Directory.loadLocalAdmission, Directory.readOwnerFile, h, Store.loadLocalAdmission, hs,
        ownerFile]
    | some r =>
      rw [hs, Option.map_some] at h
      have hlen : (LocalAdmissionRecord.format.text r).length = r.toJson.size :=
        utf8_ofList_length _
      have hp : parseStrictJson LocalAdmissionRecord.ofJson (LocalAdmissionRecord.format.text r) =
          .ok r :=
        parseStrictJson_render (LocalAdmissionRecord.format.strict r)
          (LocalAdmissionRecord.format.inRange r) (LocalAdmissionRecord.format.nesting r)
          (LocalAdmissionRecord.ofJson_toJson r)
      have hn := (u.owns_created [] (LocalAdmissionRecord.format.text r)).mp hu
      rw [Store.loadLocalAdmission, hs]
      by_cases hmax : MAX_CREDENTIAL_BYTES < r.toJson.size
      · rw [ownerFile_large (f := fun r : LocalAdmissionRecord => r.toJson.size) hmax]
        have hr : d.readOwnerFile u LOCAL_ADMISSION_FILE_NAME = .error .tooLarge := by
          rw [Directory.readOwnerFile, h]
          simp only [u.checkOwnerFile_ok.mpr hn]
          exact if_pos (hlen ▸ hmax)
        rw [Directory.loadLocalAdmission, hr]
      · have hr := Directory.readOwnerFile_owns h hn (hlen.trans_le (Nat.not_lt.mp hmax))
        rw [ownerFile_some (f := fun r : LocalAdmissionRecord => r.toJson.size) (Nat.not_lt.mp hmax),
          Directory.loadLocalAdmission, hr]
        simp only [User.created, hlen, hp]
  cases hs : s.loadLocalAdmission with
  | ok r => simp only [Directory.localAdmissionIsOpen, Store.localAdmissionIsOpen, hload, hs]
  | error e =>
    cases e <;> simp only [Directory.localAdmissionIsOpen, Store.localAdmissionIsOpen, hload, hs]

end Device
end EgoBridge
