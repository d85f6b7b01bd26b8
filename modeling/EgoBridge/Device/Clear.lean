import EgoBridge.Device.Directory
import EgoBridge.Device.ReadBack

/-!
# Device.Clear

Clearing the store, call by call: any call to the system may fail, and the client may be
interrupted between any two of them.

A name that is written or unlinked may show what it showed before after a crash, until the
directory has been synced.

* `clear`            — closes the gate, validates every file, then deletes them one by one.
* `wp_readOwnerFile`, `atomicOwnerWrite_outcome` — the calls of a reading come to the directory's
  reader, and those of a write to the store's write in one step.
* `Safe`             — what holds wherever a clearing is interrupted, fails or ends.
* `clear_ordered`    — nothing is deleted before everything has been validated, nor while the gate
  may be open, and a later clearing takes away what one has left.
-/

namespace EgoBridge
namespace Device
namespace Clearing

open Protocol Json Crash Files

/-! ## Calls -/

inductive Operation where
  | symlinkMetadata
  | openFile
  | read
  | createNew
  | writeAll
  | syncAll
  | rename
  | removeFile
  | syncDirectory

inductive Ask where
  | now
  | encryptionKey
  | suffix
  | fails (operation : Operation) (name : String)

def Ask.Answer : Ask → Type
  | .now => UInt64
  | .encryptionKey => Key
  | .suffix => UInt64
  | .fails _ _ => Bool

/-- `older` is what a name may show after a crash beside what it shows now. -/
structure Disk where
  visible : Directory
  older : Name → List (Option Node)

namespace Disk

def put (k : Disk) (name : String) (n : Option Node) : Disk where
  visible := Function.update k.visible (.text name) n
  older := Function.update k.older (.text name) (k.visible (.text name) :: k.older (.text name))

def synced (k : Disk) : Disk := ⟨k.visible, fun _ => []⟩

/-- A directory that a crash may leave. -/
def Survivor (k : Disk) (d : Directory) : Prop :=
  ∀ name, d name = k.visible name ∨ d name ∈ k.older name

/-- What is found after a crash is all there is. -/
def found (d : Directory) : Disk := ⟨d, fun _ => []⟩

end Disk

/-- What clearing has come to at a file. -/
inductive Event where
  | refused (name : String) (error : CredentialError)
  | deleting (name : String)

structure Scene where
  disk : Disk
  log : List Event

def Scene.logged (w : Scene) (event : Event) : Scene := { w with log := event :: w.log }

def Scene.stored (w : Scene) (disk : Disk) : Scene := { w with disk }

def Scene.start (disk : Disk) : Scene := ⟨disk, []⟩

abbrev Command (α : Type) := Cmd Ask.Answer Scene CredentialError α

abbrev Probe (α : Type) := Crash.Probe Ask.Answer Scene CredentialError α

abbrev Surroundings := Answers Ask.Answer Scene

def fail {α : Type} (error : CredentialError) : Probe α := Probe.throw error

def ask (q : Ask) : Probe q.Answer := Probe.query q

def lift {α : Type} : Except CredentialError α → Probe α := Probe.ofExcept

def fails (operation : Operation) (name : String) : Probe Bool := ask (.fails operation name)

def visible (name : String) : Probe (Option Node) := do
  pure ((← Probe.get).disk.visible (.text name))

def put (name : String) (n : Option Node) : Command Unit :=
  Cmd.update fun w => w.stored (w.disk.put name n)

def record (event : Event) : Command Unit := Cmd.update (·.logged event)

variable (P : Platform) (u : User)

/-! ## Reading -/

/-- `symlink_metadata`, with no file as `none`. -/
def symlinkMetadata (name : String) : Probe (Option Node) := do
  if ← fails .symlinkMetadata name then fail .io
  visible name

def readOwnerFile (name : String) : Probe Bytes := do
  match ← symlinkMetadata name with
  | none => fail .missing
  | some n =>
    lift (u.checkOwnerFile n.metadata)
    if ← fails .openFile name then fail .io
    if ← fails .read name then fail .io
    if MAX_CREDENTIAL_BYTES < n.bytes.length then fail .tooLarge
    pure n.bytes

/-- Loads expired credential metadata only for fresh user-authenticated recovery. -/
def loadForRotation : Probe CommunityCredential := do
  let bytes ← readOwnerFile u "ego-browser-credential.json"
  match parseStrictJson CommunityCredential.ofJson bytes with
  | .error _ => fail .malformed
  | .ok c =>
    if ¬ validCommunityCredential P c none then fail .malformed
    pure c

def loadIdentityMetadata : Probe StoredIdentityMetadata := do
  let bytes ← readOwnerFile u "ego-browser-device-metadata.json"
  match parseStrictJson StoredIdentityMetadata.ofJson bytes with
  | .error _ => fail .malformed
  | .ok m =>
    if ¬ validStoredIdentityMetadata P m then fail .malformed
    pure m

/-- The generation of the private key, if its file can be read. -/
def loadIdentity : Probe UInt64 := do
  let bytes ← readOwnerFile u "ego-browser-device-key.bin"
  let file ← lift (decodeIdentity bytes)
  if file.encryptionKey = none then
    let _ ← ask .encryptionKey
  pure file.generation

/-! ## The gate -/

/-- The identity a credential or the retained metadata names, if its key can be read. -/
def localIdentityReference : Probe (Option String × Option UInt64) := do
  let fromMetadata : Probe (Option String × Option UInt64) := do
    match ← (loadIdentityMetadata P u).attempt with
    | .error _ => pure (none, none)
    | .ok metadata =>
      match ← (loadIdentity u).attempt with
      | .error _ => pure (none, none)
      | .ok generation => pure (some metadata.deviceId, some generation)
  match ← (loadForRotation P u).attempt with
  | .error _ => fromMetadata
  | .ok credential =>
    match ← (loadIdentity u).attempt with
    | .error _ => fromMetadata
    | .ok generation => pure (some credential.deviceId, some generation)

def localAdmissionRecord (state : String) : Probe LocalAdmissionRecord := do
  let (deviceId, deviceGeneration) ← localIdentityReference P u
  pure ⟨1, state, deviceId, deviceGeneration, none, none, ← ask .now⟩

/-- `.ego-browser-{label}-{suffix:x}`. -/
def temporary (label : String) (suffix : UInt64) : String :=
  ".ego-browser-" ++ label ++ "-" ++ String.ofList (Nat.toDigits 16 suffix.toNat)

/-- The temporary file is filled and takes the place of the destination. -/
def replace (source destination : String) (bytes : Bytes) : Command Unit := do
  if ← fails .writeAll source then fail .io
  put source (some (u.created bytes))
  if ← fails .syncAll source then fail .io
  if ← fails .rename destination then fail .io
  -- Nothing but a directory can stand in the way.
  if (← visible destination).any (·.metadata.fileType = .directory) then fail .io
  Cmd.update fun w => w.stored ((w.disk.put destination (some (u.created bytes))).put source none)
  match ← symlinkMetadata destination with
  | none => fail .io
  | some n =>
    lift (u.checkOwnerFile n.metadata)
  if ← fails .syncDirectory destination then fail .io
  Cmd.update fun w => w.stored w.disk.synced

def atomicOwnerWrite (destination : String) (bytes : Bytes) (label : String) : Command Unit := do
  let source := temporary label (← ask .suffix)
  if ← fails .createNew source then fail .io
  if (← visible source).isSome then fail .io
  put source (some (u.created []))
  match ← (replace u source destination bytes).attempt with
  | .ok () => pure ()
  | .error e =>
    -- A temporary file that cannot be removed stays.
    if ¬ (← fails .removeFile source) then put source none
    fail e

def writeLocalAdmission (r : LocalAdmissionRecord) : Command Unit := do
  if ¬ validLocalAdmissionRecord r then fail .malformed
  atomicOwnerWrite u LOCAL_ADMISSION_FILE_NAME (LocalAdmissionRecord.format.text r)
    "local-admission"

/-- Closes admission idempotently while retaining identity metadata for setup. -/
def closeLocalAdmission : Command Unit := do
  writeLocalAdmission u (← localAdmissionRecord P u LOCAL_ADMISSION_CLOSED)

/-! ## Clearing -/

/-- The files that are cleared, in their order: the gate is the last. -/
def paths : List String :=
  ["ego-browser-credential.json", "ego-browser-device-key.bin", "ego-browser-device-metadata.json",
    "ego-browser-device-key.pending.bin", "ego-browser-pending-rotation.json",
    "ego-browser-pending-registration.json", "ego-browser-policy.json",
    ".ego-browser-policy.lock", "ego-browser-active-binding.json", LOCAL_ADMISSION_FILE_NAME]

def validateFile (name : String) : Probe Unit := do
  match ← symlinkMetadata name with
  | none => pure ()
  | some n => lift (u.checkOwnerFile n.metadata)

def validateFiles : List String → Command Unit
  | [] => pure ()
  | name :: names => do
    match ← (validateFile u name).attempt with
    | .ok () => validateFiles names
    | .error e =>
      record (.refused name e)
      fail e

/-- `remove_file`, where a missing file is no failure and a directory is one. -/
def removeFile (name : String) : Command Unit := do
  if ← fails .removeFile name then fail .io
  match ← visible name with
  | none => pure ()
  | some n =>
    if n.metadata.fileType = .directory then fail .io
    put name none

def removeFiles : List String → Command Unit
  | [] => pure ()
  | name :: names => do
    record (.deleting name)
    removeFile name
    removeFiles names

/-- Remove credentials after explicit revoke/unenroll. -/
def clear : Command Unit := do
  closeLocalAdmission P u
  validateFiles u paths
  removeFiles paths

/-! ## Rules -/

section

variable {E : Surroundings} {I : Scene → Prop} {F : CredentialError → Scene → Prop} {α : Type}
  {w : Scene}

@[simp] theorem wp_fail (e : CredentialError) {R : α → Scene → Prop} :
    Cmd.wp E I F (liftM (fail e : Probe α)) R w = F e w := rfl

@[simp] theorem wp_ask (q : Ask) {R : q.Answer → Scene → Prop} :
    Cmd.wp E I F (liftM (ask q)) R w = (I w ∧ ∀ a, E w q a → R a w) := rfl

@[simp] theorem wp_fails (operation : Operation) (name : String) {R : Bool → Scene → Prop} :
    Cmd.wp E I F (liftM (fails operation name)) R w =
      (I w ∧ ∀ b : Bool, E w (.fails operation name) b → R b w) := rfl

@[simp] theorem wp_visible (name : String) {R : Option Node → Scene → Prop} :
    Cmd.wp E I F (liftM (visible name)) R w = R (w.disk.visible (.text name)) w := rfl

@[simp] theorem wp_put (name : String) (n : Option Node) {R : Unit → Scene → Prop} :
    Cmd.wp E I F (put name n) R w = (I w ∧ R () (w.stored (w.disk.put name n))) := rfl

@[simp] theorem wp_record (event : Event) {R : Unit → Scene → Prop} :
    Cmd.wp E I F (record event) R w = (I w ∧ R () (w.logged event)) := rfl

theorem wp_lift {x : Except CredentialError α} {R : α → Scene → Prop}
    (hF : ∀ e, x = .error e → F e w) (hR : ∀ a, x = .ok a → R a w) :
    Cmd.wp E I F (liftM (lift x)) R w := by
  cases x with
  | ok a => exact hR a rfl
  | error e => exact hF e rfl

theorem wp_symlinkMetadata {name : String} {R : Option Node → Scene → Prop} (hI : I w)
    (hF : E w (.fails .symlinkMetadata name) true → F .io w)
    (hR : R (w.disk.visible (.text name)) w) :
    Cmd.wp E I F (liftM (symlinkMetadata name)) R w := by
  simp only [symlinkMetadata, probe_bind, probe_ite, Cmd.wp_bind, Cmd.wp_ite, wp_fails, wp_fail,
    wp_visible]
  refine ⟨hI, ?_⟩
  intro b hb
  cases b with
  | true => exact ⟨fun _ => hF hb, fun h => absurd rfl h⟩
  | false => exact ⟨fun h => (by cases h), fun _ => hR⟩

/-- A call that may fail, in front of the rest. -/
theorem wp_check {operation : Operation} {name : String} {e : CredentialError} {p : Command α}
    {R : α → Scene → Prop} (hI : I w) (hF : E w (.fails operation name) true → F e w)
    (hR : Cmd.wp E I F p R w) :
    Cmd.wp E I F (do
      if ← fails operation name then fail e
      p) R w := by
  simp only [Cmd.wp_bind, Cmd.wp_ite, wp_fails, wp_fail]
  refine ⟨hI, ?_⟩
  intro b hb
  cases b with
  | true => exact ⟨fun _ => hF hb, fun h => absurd rfl h⟩
  | false => exact ⟨fun h => (by cases h), fun _ => hR⟩

/-- Where no call fails, a file is read as the directory shows it. -/
theorem wp_readOwnerFile {name : String} {R : Bytes → Scene → Prop} (hI : I w)
    (hE : ∀ operation, ¬ E w (.fails operation name) true)
    (hF : ∀ e, w.disk.visible.readOwnerFile u name = .error e → F e w)
    (hR : ∀ b, w.disk.visible.readOwnerFile u name = .ok b → R b w) :
    Cmd.wp E I F (liftM (readOwnerFile u name)) R w := by
  rw [readOwnerFile, probe_bind, Cmd.wp_bind]
  refine wp_symlinkMetadata hI (fun hb => absurd hb (hE _)) ?_
  cases hn : w.disk.visible (.text name) with
  | none => exact hF _ (by simp [Directory.readOwnerFile, hn])
  | some n =>
    simp only [Directory.readOwnerFile, hn] at hF hR
    rw [probe_bind, Cmd.wp_bind]
    refine wp_lift (fun e he => hF e (by rw [he])) ?_
    intro _ hv
    rw [hv] at hF hR
    simp only [probe_bind, probe_ite, probe_pure, Cmd.wp_bind, Cmd.wp_ite, wp_fails, wp_fail,
      Cmd.wp_pure]
    have hcalm : ∀ operation b, E w (.fails operation name) b → b = false := by
      intro operation b hb
      cases b with
      | false => rfl
      | true => exact absurd hb (hE operation)
    refine ⟨hI, fun b hb => ?_⟩
    rw [hcalm _ b hb]
    refine ⟨fun h => (by cases h), fun _ => ⟨hI, fun b hb => ?_⟩⟩
    rw [hcalm _ b hb]
    refine ⟨fun h => (by cases h), fun _ => ⟨fun hs => hF _ (if_pos hs), ?_⟩⟩
    exact fun hs => hR _ (if_neg hs)

/-! ## Closing the gate -/

theorem wp_loadForRotation (hI : I w) {R : CommunityCredential → Scene → Prop} (hF : ∀ e, F e w)
    (hR : ∀ c, validCommunityCredential P c none = true → R c w) :
    Cmd.wp E I F (liftM (loadForRotation P u)) R w := by
  rw [loadForRotation, probe_bind, Cmd.wp_bind]
  refine Probe.wp _ hI (fun e _ => hF e) ?_
  intro bytes _
  cases parseStrictJson CommunityCredential.ofJson bytes with
  | error e => exact hF _
  | ok c =>
    simp only [probe_bind, probe_ite, Cmd.wp_bind, Cmd.wp_ite, wp_fail]
    refine ⟨fun _ => hF _, fun h => hR c (not_not.mp h)⟩

theorem wp_loadIdentityMetadata (hI : I w) {R : StoredIdentityMetadata → Scene → Prop}
    (hF : ∀ e, F e w) (hR : ∀ m, validStoredIdentityMetadata P m = true → R m w) :
    Cmd.wp E I F (liftM (loadIdentityMetadata P u)) R w := by
  rw [loadIdentityMetadata, probe_bind, Cmd.wp_bind]
  refine Probe.wp _ hI (fun e _ => hF e) ?_
  intro bytes _
  cases parseStrictJson StoredIdentityMetadata.ofJson bytes with
  | error e => exact hF _
  | ok m =>
    simp only [probe_bind, probe_ite, Cmd.wp_bind, Cmd.wp_ite, wp_fail]
    refine ⟨fun _ => hF _, fun h => hR m (not_not.mp h)⟩

theorem wp_loadIdentity (hI : I w) {R : UInt64 → Scene → Prop} (hF : ∀ e, F e w)
    (hR : ∀ n, n ≠ 0 → R n w) : Cmd.wp E I F (liftM (loadIdentity u)) R w := by
  rw [loadIdentity, probe_bind, Cmd.wp_bind]
  refine Probe.wp _ hI (fun e _ => hF e) ?_
  intro bytes _
  rw [probe_bind, Cmd.wp_bind]
  refine wp_lift (fun _ _ => hF _) ?_
  intro file hfile
  have hg := decodeIdentity_generation hfile
  simp only [probe_bind, probe_ite, Cmd.wp_bind, Cmd.wp_ite, wp_ask, probe_pure, Cmd.wp_pure]
  exact ⟨fun _ => ⟨hI, fun _ _ => hR _ hg⟩, fun _ => hR _ hg⟩

/-- Whatever the files are, the reference is one a record can hold. -/
theorem wp_localIdentityReference (hI : I w) {R : Option String × Option UInt64 → Scene → Prop}
    (hR : ∀ id generation, Option.all isApiId id = true → generation ≠ some 0 →
      R (id, generation) w) :
    Cmd.wp E I F (liftM (localIdentityReference P u)) R w := by
  have hnone : R (none, none) w := hR none none rfl (by simp)
  have hmetadata : Cmd.wp E I F (liftM (do
      match ← (loadIdentityMetadata P u).attempt with
      | .error _ => pure (none, none)
      | .ok metadata =>
        match ← (loadIdentity u).attempt with
        | .error _ => pure (none, none)
        | .ok generation => pure (some metadata.deviceId, some generation))) R w := by
    rw [probe_bind, Cmd.wp_bind, probe_attempt, Cmd.wp_attempt]
    refine wp_loadIdentityMetadata P u hI (fun _ => hnone) ?_
    intro m hm
    rw [probe_bind, Cmd.wp_bind, probe_attempt, Cmd.wp_attempt]
    refine wp_loadIdentity u hI (fun _ => hnone) ?_
    intro n hn
    simp only [validStoredIdentityMetadata, Bool.and_eq_true] at hm
    refine hR _ _ ?_ (by simpa using hn)
    simp [hm]
  rw [localIdentityReference, probe_bind, Cmd.wp_bind, probe_attempt, Cmd.wp_attempt]
  refine wp_loadForRotation P u hI (fun _ => hmetadata) ?_
  intro c hc
  rw [probe_bind, Cmd.wp_bind, probe_attempt, Cmd.wp_attempt]
  refine wp_loadIdentity u hI (fun _ => hmetadata) ?_
  intro n hn
  simp only [validCommunityCredential, Bool.and_eq_true] at hc
  refine hR _ _ ?_ (by simpa using hn)
  simp [hc]

/-- What the steps of a write keep, and `T` is what makes it fail. -/
structure Writes (E : Surroundings) (I : Scene → Prop) (T : Prop) (destination label : String)
    (bytes : Bytes) : Prop where
  put_temporary : ∀ w x n, I w → I (w.stored (w.disk.put (temporary label x) n))
  put_destination : ∀ w, I w → I (w.stored (w.disk.put destination (some (u.created bytes))))
  synced : ∀ w, I w → I (w.stored w.disk.synced)
  fault : ∀ w operation name, I w → E w (.fails operation name) true → T
  blocked : ∀ w n, I w → w.disk.visible (.text destination) = some n →
    n.metadata.fileType = .directory → T
  masked : ¬ u.Owns (u.created bytes) → T

/-- The file is there, and is durable. -/
def Written (destination : String) (bytes : Bytes) (k : Disk) : Prop :=
  k.visible (.text destination) = some (u.created bytes) ∧ u.Owns (u.created bytes) ∧
    k.older = fun _ => []

variable {u} {T : Prop} {destination label : String} {bytes : Bytes}

theorem wp_replace (hw : Writes u E I T destination label bytes) {x : UInt64}
    (hne : temporary label x ≠ destination) (hI : I w) :
    Cmd.wp E I (fun _ w => I w ∧ T) (replace u (temporary label x) destination bytes)
      (fun _ w => I w ∧ Written u destination bytes w.disk) w := by
  have hfault : ∀ {w operation name}, I w → E w (.fails operation name) true → I w ∧ T :=
    fun h hb => ⟨h, hw.fault _ _ _ h hb⟩
  refine wp_check hI (hfault hI) ?_
  rw [Cmd.wp_bind, wp_put]
  refine ⟨hI, ?_⟩
  have hI₁ := hw.put_temporary w x (some (u.created bytes)) hI
  generalize w.stored (w.disk.put (temporary label x) (some (u.created bytes))) = w₁ at hI₁ ⊢
  refine wp_check hI₁ (hfault hI₁) ?_
  refine wp_check hI₁ (hfault hI₁) ?_
  rw [Cmd.wp_bind, wp_visible]
  dsimp only
  rw [Cmd.wp_ite]
  constructor
  · intro h
    rw [Cmd.wp_bind, wp_fail]
    cases hn : w₁.disk.visible (.text destination) with
    | none => simp [hn] at h
    | some n => exact ⟨hI₁, hw.blocked w₁ n hI₁ hn (by simpa [hn] using h)⟩
  intro _
  rw [Cmd.wp_bind, Cmd.wp_update]
  refine ⟨hI₁, ?_⟩
  have hI₂ : I (w₁.stored ((w₁.disk.put destination (some (u.created bytes))).put
      (temporary label x) none)) := hw.put_temporary _ x none (hw.put_destination w₁ hI₁)
  have hn : ((w₁.disk.put destination (some (u.created bytes))).put (temporary label x)
      none).visible (.text destination) = some (u.created bytes) := by
    simp [Disk.put, Function.update_of_ne, hne.symm]
  generalize (w₁.disk.put destination (some (u.created bytes))).put (temporary label x) none = k₂
    at hI₂ hn ⊢
  rw [Cmd.wp_bind]
  refine wp_symlinkMetadata hI₂ (hfault hI₂) ?_
  rw [Scene.stored, hn]
  dsimp only
  rw [Cmd.wp_bind]
  refine wp_lift ?_ ?_
  · intro e he
    refine ⟨hI₂, hw.masked fun ho => ?_⟩
    rw [u.checkOwnerFile_ok.mpr ho] at he
    cases he
  intro _ hv
  refine wp_check hI₂ (hfault hI₂) ?_
  rw [Cmd.wp_update]
  exact ⟨hI₂, hw.synced _ hI₂, hn, u.checkOwnerFile_ok.mp hv, rfl⟩

theorem wp_atomicOwnerWrite (hw : Writes u E I T destination label bytes)
    (hne : ∀ x, temporary label x ≠ destination) (hI : I w)
    (htaken : ∀ x, E w .suffix x →
      (w.disk.visible (.text (temporary label x))).isSome = true → T) :
    Cmd.wp E I (fun _ w => I w ∧ T) (atomicOwnerWrite u destination bytes label)
      (fun _ w => I w ∧ Written u destination bytes w.disk) w := by
  rw [atomicOwnerWrite, Cmd.wp_bind, wp_ask]
  refine ⟨hI, ?_⟩
  intro x hx
  refine wp_check hI (fun hb => ⟨hI, hw.fault _ _ _ hI hb⟩) ?_
  rw [Cmd.wp_bind, wp_visible]
  dsimp only
  rw [Cmd.wp_ite]
  refine ⟨fun h => ⟨hI, htaken x hx h⟩, fun _ => ?_⟩
  rw [Cmd.wp_bind, wp_put]
  refine ⟨hI, ?_⟩
  have hI₁ := hw.put_temporary w x (some (u.created [])) hI
  rw [Cmd.wp_bind, Cmd.wp_attempt]
  refine Cmd.wp_mono (fun _ h => h) ?_ (fun _ _ h => h) (wp_replace hw (hne x) hI₁)
  rintro e w₁ ⟨hI', hT⟩
  simp only [Cmd.wp_bind, Cmd.wp_ite, wp_fails, wp_fail, wp_put]
  exact ⟨hI', fun b _ => ⟨fun _ => ⟨hI', hw.put_temporary w₁ x none hI', hT⟩, fun _ => ⟨hI', hT⟩⟩⟩

variable (u destination label bytes) in
/-- What a write of the store in one step may make of the files, beside the temporary names. -/
structure Outcome (k₀ : Disk) (outcome : WriteOutcome) (k : Disk) : Prop where
  elsewhere : ∀ name, name ≠ .text destination → (∀ x, name ≠ .text (temporary label x)) →
    k.visible name = k₀.visible name
  lost : ∀ fault, outcome = .lost fault →
    k.visible (.text destination) = k₀.visible (.text destination)
  there : (∀ fault, outcome ≠ .lost fault) →
    k.visible (.text destination) = some (u.created bytes)

theorem Outcome.of_lost {k₀ k : Disk}
    (he : ∀ name, name ≠ .text destination → (∀ x, name ≠ .text (temporary label x)) →
      k.visible name = k₀.visible name)
    (h : k.visible (.text destination) = k₀.visible (.text destination)) :
    Outcome u destination label bytes k₀ (.lost .io) k :=
  ⟨he, fun _ _ => h, fun hl => absurd rfl (hl .io)⟩

theorem Outcome.of_kept {k₀ k : Disk}
    (he : ∀ name, name ≠ .text destination → (∀ x, name ≠ .text (temporary label x)) →
      k.visible name = k₀.visible name)
    (h : k.visible (.text destination) = some (u.created bytes)) :
    Outcome u destination label bytes k₀ (.kept .io) k :=
  ⟨he, fun _ hl => (by cases hl), fun _ => h⟩

/-- Call by call a write has the outcomes that it has in one step, and the first of them where it
succeeds; an interruption leaves one of the others. -/
theorem atomicOwnerWrite_outcome (hne : ∀ x, temporary label x ≠ destination) :
    Cmd.wp E (fun w' => ∃ outcome, Outcome u destination label bytes w.disk outcome w'.disk)
      (fun _ w' => ∃ outcome, Outcome u destination label bytes w.disk outcome w'.disk)
      (atomicOwnerWrite u destination bytes label)
      (fun _ w' => Outcome u destination label bytes w.disk .written w'.disk) w := by
  have hw : Writes u E
      (fun w' => ∃ outcome, Outcome u destination label bytes w.disk outcome w'.disk) True
      destination label bytes := by
    refine ⟨?_, ?_, ?_, fun _ _ _ _ _ => trivial, fun _ _ _ _ _ => trivial,
      fun _ => trivial⟩
    · rintro w' x n ⟨outcome, h⟩
      have hother : ∀ name, name ≠ .text (temporary label x) →
          (w'.disk.put (temporary label x) n).visible name = w'.disk.visible name :=
        fun _ h => Function.update_of_ne h _ _
      have hdest : Name.text destination ≠ .text (temporary label x) :=
        fun hx => hne x (Name.text.inj hx).symm
      refine ⟨outcome, fun name hd ht => ?_, fun fault hl => ?_, fun hl => ?_⟩
      · exact (hother name (ht x)).trans (h.elsewhere name hd ht)
      · exact (hother _ hdest).trans (h.lost fault hl)
      · exact (hother _ hdest).trans (h.there hl)
    · rintro w' ⟨outcome, h⟩
      refine ⟨.kept .io, .of_kept (fun name hd ht => ?_) (Function.update_self ..)⟩
      exact (Function.update_of_ne hd _ _).trans (h.elsewhere name hd ht)
    · rintro w' ⟨outcome, h⟩
      exact ⟨outcome, h.elsewhere, h.lost, h.there⟩
  refine Cmd.wp_mono (fun _ h => h) (fun _ _ h => h.1) ?_
    (wp_atomicOwnerWrite hw hne ⟨.lost .io, .of_lost (fun _ _ _ => rfl) rfl⟩ fun _ _ _ => trivial)
  rintro _ w' ⟨⟨outcome, h⟩, hwritten, -⟩
  exact ⟨h.elsewhere, fun _ hl => (by cases hl), fun _ => hwritten⟩

theorem temporary_notMem (x : UInt64) : temporary "local-admission" x ∉ paths := by
  have hp : ∀ name ∈ paths, ¬ ".ego-browser-local-admission-".toList <+: name.toList := by decide
  intro h
  exact hp _ h ⟨(String.ofList (Nat.toDigits 16 x.toNat)).toList, by simp [temporary]⟩

theorem gate_mem : LOCAL_ADMISSION_FILE_NAME ∈ paths := by decide

variable (u) in
/-- Nothing is deleted: only the gate's file may have been written anew. -/
def Kept (k₀ k : Disk) : Prop :=
  ∀ name ∈ paths, k.visible (.text name) = k₀.visible (.text name) ∨
    name = LOCAL_ADMISSION_FILE_NAME ∧ ∃ b, k.visible (.text name) = some (u.created b)

theorem Kept.refl (k : Disk) : Kept u k k := fun _ _ => .inl rfl

theorem Kept.put_temporary {k₀ k : Disk} (h : Kept u k₀ k) (x : UInt64) (n : Option Node) :
    Kept u k₀ (k.put (temporary "local-admission" x) n) := by
  intro name hname
  have hne : Name.text name ≠ .text (temporary "local-admission" x) := by
    rintro ⟨⟩
    exact temporary_notMem x hname
  simp only [Disk.put, Function.update_of_ne hne]
  exact h name hname

theorem Kept.put_gate {k₀ k : Disk} (h : Kept u k₀ k) (b : Bytes) :
    Kept u k₀ (k.put LOCAL_ADMISSION_FILE_NAME (some (u.created b))) := by
  intro name hname
  by_cases hg : name = LOCAL_ADMISSION_FILE_NAME
  · exact .inr ⟨hg, b, by simp [hg, Disk.put]⟩
  · have hne : Name.text name ≠ .text LOCAL_ADMISSION_FILE_NAME := fun h => hg (by cases h; rfl)
    simp only [Disk.put, Function.update_of_ne hne]
    exact h name hname

/-- What keeps a clearing from coming to its end, `T`: a call that fails, a temporary name that is
taken, a clock that stands at zero, a mask that takes the owner's rights, a file that is not the
owner's alone. -/
structure Hinders (u : User) (E : Surroundings) (k₀ : Disk) (T : Prop) : Prop where
  fault : ∀ w operation name, E w (.fails operation name) true → T
  taken : ∀ w x, w.disk = k₀ → E w .suffix x →
    (k₀.visible (.text (temporary "local-admission" x))).isSome = true → T
  clock : ∀ w, E w .now (0 : UInt64) → T
  masked : ¬ u.Owns (u.created []) → T
  invalid : ∀ name ∈ paths, ∀ n, k₀.visible (.text name) = some n → ¬ u.Owns n → T

theorem hinders_true (E : Surroundings) (k₀ : Disk) : Hinders u E k₀ True :=
  ⟨fun _ _ _ _ => trivial, fun _ _ _ _ _ => trivial, fun _ _ => trivial, fun _ => trivial,
    fun _ _ _ _ _ => trivial⟩

variable {k₀ : Disk}

/-- Before anything is deleted. -/
def Closing (u : User) (k₀ : Disk) (w : Scene) : Prop := Kept u k₀ w.disk ∧ w.log = []

theorem Hinders.writes (h : Hinders u E k₀ T) (bytes : Bytes) :
    Writes u E (Closing u k₀) T LOCAL_ADMISSION_FILE_NAME "local-admission" bytes where
  put_temporary w x n hw := ⟨hw.1.put_temporary x n, hw.2⟩
  put_destination w hw := ⟨hw.1.put_gate bytes, hw.2⟩
  synced w hw := hw
  fault w operation name _ hb := h.fault w operation name hb
  blocked w n hw hn hd := by
    have hd' : ¬ u.Owns n := fun ho => by simp [(u.owns_iff.mp ho).1] at hd
    rcases hw.1 _ gate_mem with hk | ⟨-, b, hk⟩
    · exact h.invalid _ gate_mem n (hk ▸ hn) hd'
    · rw [hk] at hn
      cases hn
      simp [User.created] at hd
  masked hu := h.masked fun ho => hu ((u.owns_created _ _).mp ho)

theorem wp_closeLocalAdmission (P : Platform) (h : Hinders u E k₀ T) :
    Cmd.wp E (Closing u k₀) (fun _ w => Closing u k₀ w ∧ T) (closeLocalAdmission P u)
      (fun _ w => Closing u k₀ w ∧ Directory.SaysClosed u w.disk.visible ∧
        u.Owns (u.created []) ∧ w.disk.older = fun _ => []) (.start k₀) := by
  have hw : Closing u k₀ (.start k₀) := ⟨.refl k₀, rfl⟩
  rw [closeLocalAdmission, Cmd.wp_bind, localAdmissionRecord, probe_bind, Cmd.wp_bind]
  refine wp_localIdentityReference P u hw ?_
  intro id generation hid hgeneration
  rw [probe_bind, Cmd.wp_bind, wp_ask]
  refine ⟨hw, ?_⟩
  intro (t : UInt64) ht
  simp only [probe_pure, Cmd.wp_pure, writeLocalAdmission, Cmd.wp_bind, Cmd.wp_ite, wp_fail]
  constructor
  · intro hr
    refine ⟨hw, h.clock (.start k₀) ?_⟩
    have ht0 : t = (0 : UInt64) := by
      by_contra hne
      exact hr (by simp [validLocalAdmissionRecord, LOCAL_ADMISSION_CLOSED, LOCAL_ADMISSION_OPEN,
        LOCAL_ADMISSION_READY, hid, hgeneration, hne])
    exact ht0 ▸ ht
  · intro hr
    refine Cmd.wp_post (wp_atomicOwnerWrite (h.writes _) ?_ hw fun x => h.taken (.start k₀) x rfl) ?_
    · intro x hx
      exact temporary_notMem x (hx ▸ gate_mem)
    · rintro _ w₁ ⟨hw₁, hv, ho, hold⟩
      exact ⟨hw₁, ⟨_, _, hv, ho, rfl, not_not.mp hr, rfl⟩, (u.owns_created _ _).mp ho, hold⟩

/-! ## Validating and deleting -/

theorem wp_validateFile {name : String} (hfault : ∀ o s, E w (.fails o s) true → T)
    (hinvalid : ∀ n, w.disk.visible (.text name) = some n → ¬ u.Owns n → T) :
    Cmd.wp E (· = w) (fun _ w' => w' = w ∧ T) (liftM (validateFile u name) : Command Unit)
      (fun _ w' => w' = w ∧ ∀ n, w.disk.visible (.text name) = some n → u.Owns n) w := by
  rw [validateFile, probe_bind, Cmd.wp_bind]
  refine wp_symlinkMetadata rfl (fun hb => ⟨rfl, hfault _ _ hb⟩) ?_
  cases hn : w.disk.visible (.text name) with
  | none => exact ⟨rfl, fun _ h => (by cases h)⟩
  | some n =>
    refine wp_lift ?_ ?_
    · intro e he
      refine ⟨rfl, hinvalid n hn fun ho => ?_⟩
      rw [u.checkOwnerFile_ok.mpr ho] at he
      cases he
    · intro _ hv
      refine ⟨rfl, fun m hm => ?_⟩
      cases hm
      exact u.checkOwnerFile_ok.mp hv

/-- Either every file passes and nothing has changed, or a file is refused and nothing else has. -/
theorem wp_validateFiles {names : List String} (hfault : ∀ o s, E w (.fails o s) true → T)
    (hinvalid : ∀ name ∈ names, ∀ n, w.disk.visible (.text name) = some n → ¬ u.Owns n → T) :
    Cmd.wp E (· = w) (fun _ w' => (∃ name e, w' = w.logged (.refused name e)) ∧ T)
      (validateFiles u names)
      (fun _ w' => w' = w ∧ ∀ name ∈ names, ∀ n, w.disk.visible (.text name) = some n → u.Owns n)
      w := by
  induction names with
  | nil => exact ⟨rfl, fun _ h => absurd h List.not_mem_nil⟩
  | cons name names ih =>
    rw [validateFiles, Cmd.wp_bind, probe_attempt, Cmd.wp_attempt]
    have hi := hinvalid name List.mem_cons_self
    refine Cmd.wp_mono (fun _ h => h) ?_ ?_ (wp_validateFile hfault hi)
    · rintro e _ ⟨rfl, hT⟩
      exact ⟨rfl, ⟨name, e, rfl⟩, hT⟩
    · rintro _ _ ⟨rfl, ho⟩
      refine Cmd.wp_post (ih fun name h => hinvalid name (List.mem_cons_of_mem _ h)) ?_
      rintro _ _ ⟨rfl, hall⟩
      exact ⟨rfl, List.forall_mem_cons.mpr ⟨ho, hall⟩⟩

/-- Some files of `k₁` are gone, and may come back after a crash. -/
def Deleting (k₁ k : Disk) : Prop :=
  ∀ name, (k.visible name = k₁.visible name ∨ k.visible name = none) ∧
    ∀ x ∈ k.older name, x = k₁.visible name ∨ x = none

theorem Deleting.put {k₁ k : Disk} (h : Deleting k₁ k) (name : String) :
    Deleting k₁ (k.put name none) := by
  intro name'
  by_cases hne : name' = .text name
  · subst hne
    refine ⟨.inr (by simp [Disk.put]), ?_⟩
    intro x hx
    simp only [Disk.put, Function.update_self, List.mem_cons] at hx
    rcases hx with rfl | hx
    · exact (h _).1
    · exact (h _).2 x hx
  · simp only [Disk.put, Function.update_of_ne hne]
    exact h name'

/-- What a crash leaves of a deletion is a part of what there was. -/
theorem Deleting.survivor {k₁ k : Disk} (h : Deleting k₁ k) {d : Directory} (hd : k.Survivor d)
    (name : Name) : d name = k₁.visible name ∨ d name = none := by
  rcases hd name with he | hm
  · rw [he]
    exact (h name).1
  · exact (h name).2 _ hm

/-- The deletion of `names`, begun from `k₁` after everything has been validated. -/
def Removing (k₁ : Disk) (w : Scene) : Prop :=
  Deleting k₁ w.disk ∧ ∀ name e, .refused name e ∉ w.log

theorem Removing.logged {k₁ : Disk} (h : Removing k₁ w) (name : String) :
    Removing k₁ (w.logged (.deleting name)) := by
  refine ⟨h.1, fun name' e hm => ?_⟩
  rcases List.mem_cons.mp hm with he | hm
  · cases he
  · exact h.2 name' e hm

theorem wp_removeFiles {k₁ : Disk} {names : List String}
    (hfault : ∀ w o s, E w (.fails o s) true → T)
    (hinvalid : ∀ name ∈ names, ∀ n, k₁.visible (.text name) = some n →
      n.metadata.fileType ≠ .directory) (hw : Removing k₁ w) :
    Cmd.wp E (Removing k₁) (fun _ w' => Removing k₁ w' ∧ T) (removeFiles names)
      (fun _ w' => Removing k₁ w' ∧ (∀ name ∈ names, w'.disk.visible (.text name) = none) ∧
        (∀ name, w.disk.visible name = none → w'.disk.visible name = none) ∧
        (∀ name ∈ names, .deleting name ∈ w'.log) ∧ w.log ⊆ w'.log) w := by
  induction names generalizing w with
  | nil =>
    exact ⟨hw, fun _ h => absurd h List.not_mem_nil, fun _ h => h,
      fun _ h => absurd h List.not_mem_nil, List.Subset.refl _⟩
  | cons name names ih =>
    have hrest : ∀ {w₁ : Scene}, Removing k₁ w₁ → w₁.log = (w.logged (.deleting name)).log →
        w₁.disk.visible (.text name) = none →
        (∀ name, w.disk.visible name = none → w₁.disk.visible name = none) →
        Cmd.wp E (Removing k₁) (fun _ w' => Removing k₁ w' ∧ T) (removeFiles names)
          (fun _ w' => Removing k₁ w' ∧
            (∀ n ∈ name :: names, w'.disk.visible (.text n) = none) ∧
            (∀ name, w.disk.visible name = none → w'.disk.visible name = none) ∧
            (∀ n ∈ name :: names, .deleting n ∈ w'.log) ∧ w.log ⊆ w'.log) w₁ := by
      intro w₁ hw₁ hlog hnone hmono
      refine Cmd.wp_post (ih (fun n h => hinvalid n (List.mem_cons_of_mem _ h)) hw₁) ?_
      rintro _ w' ⟨hw', hn, hm, hd, hl⟩
      refine ⟨hw', List.forall_mem_cons.mpr ⟨hm _ hnone, hn⟩, fun n h => hm n (hmono n h),
        List.forall_mem_cons.mpr ⟨hl ?_, hd⟩, fun e he => hl ?_⟩
      · rw [hlog]
        exact List.mem_cons_self
      · rw [hlog]
        exact List.mem_cons_of_mem _ he
    have hw₁ := hw.logged name
    rw [removeFiles, Cmd.wp_bind, wp_record]
    refine ⟨hw, ?_⟩
    rw [Cmd.wp_bind, removeFile]
    refine wp_check hw₁ (fun hb => ⟨hw₁, hfault _ _ _ hb⟩) ?_
    rw [Cmd.wp_bind, wp_visible]
    cases hn : (w.logged (.deleting name)).disk.visible (.text name) with
    | none => exact hrest hw₁ rfl hn fun _ h => h
    | some n =>
      have hdir : n.metadata.fileType ≠ .directory := by
        rcases (hw.1 (.text name)).1 with he | he
        · exact hinvalid name List.mem_cons_self n (he ▸ hn)
        · rw [Scene.logged, he] at hn
          cases hn
      simp only [Cmd.wp_bind, Cmd.wp_ite, wp_fail, wp_put]
      refine ⟨fun h => absurd h hdir, fun _ => ⟨hw₁, ?_⟩⟩
      refine hrest ⟨hw.1.put name, hw₁.2⟩ rfl (by simp [Scene.stored, Disk.put]) ?_
      intro name' h
      by_cases hne : name' = .text name
      · simp [hne, Scene.stored, Disk.put]
      · simpa [Scene.stored, Scene.logged, Disk.put, Function.update_of_ne hne] using h

/-! ## A whole clearing -/

variable (u) in
/-- Every file of the store is the owner's alone, as is what the owner creates. -/
def Valid (k : Disk) : Prop :=
  u.Owns (u.created []) ∧ ∀ name ∈ paths, ∀ n, k.visible (.text name) = some n → u.Owns n

variable (u) in
/-- What holds wherever a clearing of `k₀` is interrupted, fails or ends. -/
inductive Safe (k₀ : Disk) (w : Scene) : Prop
  | before (hk : Kept u k₀ w.disk) (hl : ∀ name, .deleting name ∉ w.log)
  | after (k₁ : Disk) (hk : Kept u k₀ k₁) (hc : Directory.SaysClosed u k₁.visible)
      (hv : Valid u k₁) (hr : Removing k₁ w)

def Cleared (k : Disk) : Prop := ∀ name ∈ paths, k.visible (.text name) = none

theorem Closing.safe (h : Closing u k₀ w) : Safe u k₀ w :=
  .before h.1 (by simp [h.2])

/-- Every file of a directory that is being cleared is the owner's, but for the gate's. -/
theorem Hinders.invalid_of_closing (h : Hinders u E k₀ T) (hw : Closing u k₀ w) {name : String}
    (hname : name ∈ paths) {n : Node} (hn : w.disk.visible (.text name) = some n)
    (ho : ¬ u.Owns n) : T := by
  rcases hw.1 name hname with hk | ⟨-, b, hk⟩
  · exact h.invalid name hname n (hk ▸ hn) ho
  · rw [hk] at hn
    cases hn
    exact h.masked fun hc => ho ((u.owns_created _ _).mp hc)

theorem wp_clear (P : Platform) (h : Hinders u E k₀ T) :
    Cmd.wp E (Safe u k₀) (fun _ w => Safe u k₀ w ∧ T) (clear P u)
      (fun _ w => Safe u k₀ w ∧ Cleared w.disk ∧ ∀ name ∈ paths, .deleting name ∈ w.log)
      (.start k₀) := by
  rw [clear, Cmd.wp_bind]
  refine Cmd.wp_mono (fun _ h => h.safe) (fun _ _ h => ⟨h.1.safe, h.2⟩) ?_
    (wp_closeLocalAdmission P h)
  rintro - w₁ ⟨hw₁, hc, hm, hold⟩
  rw [Cmd.wp_bind]
  refine Cmd.wp_mono ?_ ?_ ?_ (wp_validateFiles (h.fault w₁)
    fun name hname n hn ho => h.invalid_of_closing hw₁ hname hn ho)
  · rintro _ rfl
    exact hw₁.safe
  · rintro _ _ ⟨⟨name, e, rfl⟩, hT⟩
    exact ⟨.before hw₁.1 (by simp [Scene.logged, hw₁.2]), hT⟩
  rintro - w₂ ⟨hw₂, ho⟩
  rw [hw₂]
  have hstart : Removing w₁.disk w₁ := by
    refine ⟨fun name => ⟨.inl rfl, ?_⟩, by simp [hw₁.2]⟩
    simp [hold]
  refine Cmd.wp_mono (fun _ h => .after _ hw₁.1 hc ⟨hm, ho⟩ h)
    (fun _ _ h => ⟨.after _ hw₁.1 hc ⟨hm, ho⟩ h.1, h.2⟩) ?_ (wp_removeFiles h.fault ?_ hstart)
  · rintro - w₃ ⟨hr, hn, -, hd, -⟩
    exact ⟨.after _ hw₁.1 hc ⟨hm, ho⟩ hr, hn, hd⟩
  · intro name hname n hn hdir
    simp [(u.owns_iff.mp (ho name hname n hn)).1] at hdir

/-! ## Clearing again -/

/-- No call fails, the clock is past its start, and a temporary name is not one of `k₀`. -/
structure Faultless (E : Surroundings) (k₀ : Disk) : Prop where
  answers : ∀ w q, ∃ a, E w q a
  works : ∀ w operation name, ¬ E w (.fails operation name) true
  fresh : ∀ w x, w.disk = k₀ → E w .suffix x →
    k₀.visible (.text (temporary "local-admission" x)) = none
  clock : ∀ w, ¬ E w .now (0 : UInt64)

theorem Faultless.hinders (h : Faultless E k₀) (hk : Valid u k₀) : Hinders u E k₀ False where
  fault w operation name := h.works w operation name
  taken w x hw hx hs := by simp [h.fresh w x hw hx] at hs
  clock := h.clock
  masked := fun hm => hm hk.1
  invalid name hname n hn ho := ho (hk.2 name hname n hn)

theorem clear_returns (P : Platform) (h : Faultless E k₀) (hk : Valid u k₀) :
    ∃ w, Cmd.Returns E (clear P u) (.start k₀) () w ∧ Cleared w.disk ∧
      ∀ name ∈ paths, .deleting name ∈ w.log := by
  obtain ⟨_, w, hr, hc⟩ := Cmd.exists_returns h.answers (Cmd.wp_mono (fun _ _ => trivial)
    (fun _ _ h => h.2) (fun _ _ h => h.2) (wp_clear P (h.hinders hk)))
  exact ⟨w, hr, hc⟩

/-- A later clearing, once it meets no error, has taken everything away; and where no call fails
it does come to its end. -/
def Resumable (P : Platform) (u : User) (k : Disk) : Prop :=
  (∀ E w, Cmd.Returns E (clear P u) (.start k) () w → Cleared w.disk) ∧
  ∀ E, Faultless E k → ∃ w, Cmd.Returns E (clear P u) (.start k) () w

theorem resumable_of_valid (P : Platform) {k : Disk} (hk : Valid u k) : Resumable P u k := by
  constructor
  · intro E w hr
    exact (Cmd.wp_returns hr (wp_clear P (hinders_true E k))).2.1
  · intro E hE
    obtain ⟨w, hr, -⟩ := clear_returns P hE hk
    exact ⟨w, hr⟩

/-! ## What a clearing leaves -/

section

variable {k₁ : Disk} (hv : Valid u k₁) (hr : Removing k₁ w)

include hv in
theorem Valid.part {d : Directory} (hd : ∀ name, d name = k₁.visible name ∨ d name = none) :
    Valid u (.found d) := by
  refine ⟨hv.1, fun name hname n hn => ?_⟩
  rcases hd (.text name) with he | he
  · exact hv.2 name hname n (he.symm.trans hn)
  · exact absurd (he.symm.trans hn) (by simp)

theorem closed_part (hc : Directory.SaysClosed u k₁.visible) {d : Directory}
    (hd : ∀ name, d name = k₁.visible name ∨ d name = none) : d.Closed u := by
  rcases hd (.text LOCAL_ADMISSION_FILE_NAME) with he | he
  · obtain ⟨n, r, hn, h⟩ := hc
    exact Directory.closed_of_says ⟨n, r, he.trans hn, h⟩
  · exact Directory.closed_of_missing he

end

/-- A file that was there is gone. -/
def Deleted (k₀ k : Disk) (name : String) : Prop :=
  k₀.visible (.text name) ≠ none ∧ k.visible (.text name) = none

theorem Kept.not_deleted {k : Disk} (h : Kept u k₀ k) {name : String} (hname : name ∈ paths) :
    ¬ Deleted k₀ k name := by
  rintro ⟨h0, h1⟩
  rcases h name hname with he | ⟨-, b, he⟩
  · exact h0 (he.symm.trans h1)
  · rw [he] at h1
    cases h1

/-- Wherever a clearing is interrupted, fails or ends: a file that has failed its check, then or
before, has kept every file from being deleted; when a file is gone, or its deletion has begun, the
gate is closed, also after a crash; and from there a later clearing takes away what is left. -/
theorem clear_ordered (P : Platform) {w : Scene} (h : Cmd.Passes E (clear P u) (.start k₀) w) :
    ((∃ name e, .refused name e ∈ w.log) → ∀ name ∈ paths, ¬ Deleted k₀ w.disk name) ∧
    ((∃ name ∈ paths, name ≠ LOCAL_ADMISSION_FILE_NAME ∧
        ∃ n, k₀.visible (.text name) = some n ∧ ¬ u.Owns n) →
      ∀ name ∈ paths, ¬ Deleted k₀ w.disk name) ∧
    ((∃ name ∈ paths, Deleted k₀ w.disk name) → ∀ d, w.disk.Survivor d → d.Closed u) ∧
    ((∃ name, .deleting name ∈ w.log) → Resumable P u w.disk ∧
      ∀ d, w.disk.Survivor d → d.Closed u ∧ Resumable P u (.found d)) := by
  have hs := Cmd.wp_passes h (wp_clear P (hinders_true E k₀)) (fun _ _ h => h.1) (fun _ _ h => h.1)
  cases hs with
  | before hk hl =>
    refine ⟨fun _ _ hname => hk.not_deleted hname, fun _ _ hname => hk.not_deleted hname, ?_, ?_⟩
    · rintro ⟨name, hname, hd⟩
      exact absurd hd (hk.not_deleted hname)
    · rintro ⟨name, hname⟩
      exact absurd hname (hl name)
  | after k₁ hk hc hv hr =>
    refine ⟨?_, ?_, fun _ d hd => closed_part hc (hr.1.survivor hd), fun _ => ⟨?_, fun d hd => ?_⟩⟩
    · rintro ⟨name, e, hm⟩
      exact absurd hm (hr.2 name e)
    · rintro ⟨name, hname, hne, n, hn, ho⟩
      rcases hk name hname with he | ⟨hg, -⟩
      · exact absurd (hv.2 name hname n (he.trans hn)) ho
      · exact absurd hg hne
    · have hpart := hv.part fun name => (hr.1 name).1
      exact resumable_of_valid P ⟨hpart.1, hpart.2⟩
    · have hpart := hr.1.survivor hd
      exact ⟨closed_part hc hpart, resumable_of_valid P (hv.part hpart)⟩

/-! ## A clearing to its end -/

def owner : User := ⟨1000, 0o022⟩

/-- A store with all its files, and an open gate. -/
def fullStore : Disk :=
  .found fun
    | .text name =>
      if name = LOCAL_ADMISSION_FILE_NAME then
        some (owner.created (LocalAdmissionRecord.format.text
          ⟨1, LOCAL_ADMISSION_OPEN, some "device-1", some 1, some "binding-1", some 1, 1⟩))
      else if name ∈ paths then some (owner.created [])
      else none
    | _ => none

/-- Surroundings in which nothing goes wrong. -/
def calm : Surroundings := fun _ q a =>
  match q, a with
  | .now, a => a = (1 : UInt64)
  | .suffix, a => a = (1 : UInt64)
  | .fails _ _, a => a = false
  | .encryptionKey, _ => True

theorem calm_faultless : Faultless calm fullStore where
  answers w q := by
    cases q with
    | now => exact ⟨(1 : UInt64), rfl⟩
    | suffix => exact ⟨(1 : UInt64), rfl⟩
    | fails o s => exact ⟨false, rfl⟩
    | encryptionKey => exact ⟨⟨List.replicate 32 0, List.length_replicate⟩, trivial⟩
  works w o s h := by cases h
  fresh w x _ _ := by
    have hnew := temporary_notMem x
    have hgate : temporary "local-admission" x ≠ LOCAL_ADMISSION_FILE_NAME := by
      intro h
      exact hnew (h ▸ gate_mem)
    simp [fullStore, Disk.found, hgate, hnew]
  clock w h := by
    have h' : (0 : UInt64) = 1 := h
    exact absurd h' (by decide)

theorem fullStore_valid : Valid owner fullStore := by
  have hempty : owner.Owns (owner.created []) := by decide
  have howns : ∀ bytes, owner.Owns (owner.created bytes) :=
    fun bytes => (owner.owns_created [] bytes).mp hempty
  refine ⟨hempty, fun name hname n hn => ?_⟩
  simp only [fullStore, Disk.found, hname, if_true] at hn
  split at hn <;> cases hn <;> exact howns _

theorem clear_ordered_full : ∃ w : Scene, (∀ name ∈ paths, Deleted fullStore w.disk name) ∧
    Resumable idlePlatform owner w.disk ∧
    ∀ d, w.disk.Survivor d → d.Closed owner ∧ Resumable idlePlatform owner (.found d) := by
  obtain ⟨w, hr, hc, hd⟩ := clear_returns idlePlatform calm_faultless fullStore_valid
  refine ⟨w, fun name hname => ⟨?_, hc name hname⟩, ?_⟩
  · simp only [fullStore, Disk.found, hname, if_true]
    split <;> simp
  · exact (clear_ordered idlePlatform ⟨_, hr⟩).2.2.2 ⟨_, hd _ gate_mem⟩

end

end Clearing
end Device
end EgoBridge
