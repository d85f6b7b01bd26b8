import Mathlib.Data.Set.Finite.Lattice
import EgoBridge.Device.Directory

/-!
# Device.Migration

Moving a legacy store into the canonical directory, call by call: any call to the system may fail,
and the client may be interrupted between any two of them.

* `migrateLegacyDeviceStore` — validates everything, makes the directory, renames the files.
* `Disk.moved`, `Disk.settled` — where a migration has got to, and what it comes to.
* `wp_of_idle`, `wp_of_ready`, `wp_of_accepted` — what it does to two directories: nothing, or it
  moves the files, or it makes the canonical directory first.
-/

namespace EgoBridge
namespace Device
namespace Migration

open Protocol Json Crash Files

/-! ## Disks -/

def FiniteDirectory (d : Directory) : Prop := {name | d name ≠ none}.Finite

/-- What is at a path, a directory or not. -/
@[ext]
structure Folder where
  metadata : Metadata
  entries : Directory
  finite : FiniteDirectory entries

theorem finite_empty : FiniteDirectory fun _ => none := by
  simp [FiniteDirectory]

theorem finite_without {d : Directory} (h : FiniteDirectory d) (names : List String) :
    FiniteDirectory fun name => if name ∈ names.map .text then none else d name := by
  refine h.subset ?_
  intro name hn
  simp only [Set.mem_ofPred_eq, ne_eq, ite_eq_left_iff, not_forall] at hn
  exact hn.2

theorem finite_adding {d e : Directory} (hd : FiniteDirectory d) (he : FiniteDirectory e)
    (names : List String) :
    FiniteDirectory fun name => if name ∈ names.map .text then e name else d name := by
  refine (hd.union he).subset ?_
  intro name hn
  simp only [Set.mem_ofPred_eq, ne_eq] at hn
  split at hn
  · exact .inr hn
  · exact .inl hn

namespace Folder

def without (f : Folder) (names : List String) : Folder where
  metadata := f.metadata
  entries := fun name => if name ∈ names.map .text then none else f.entries name
  finite := finite_without f.finite names

/-- The folder with files of another. -/
def adding (f g : Folder) (names : List String) : Folder where
  metadata := f.metadata
  entries := fun name => if name ∈ names.map .text then g.entries name else f.entries name
  finite := finite_adding f.finite g.finite names

def withMode (f : Folder) (mode : Nat) : Folder :=
  { f with metadata := { f.metadata with mode } }

end Folder

/-- `missing`: how many directories above the canonical one are not there. -/
@[ext]
structure Disk where
  dirs : String → Option Folder
  missing : Nat

namespace Disk

def files (k : Disk) (path : String) (name : Name) : Option Node :=
  (k.dirs path).bind (·.entries name)

def put (k : Disk) (path : String) (f : Option Folder) : Disk :=
  { k with dirs := Function.update k.dirs path f }

@[simp] theorem put_self (k : Disk) (path : String) (f : Option Folder) :
    (k.put path f).dirs path = f :=
  Function.update_self ..

theorem put_of_ne {path other : String} (h : other ≠ path) (k : Disk) (f : Option Folder) :
    (k.put path f).dirs other = k.dirs other :=
  Function.update_of_ne h ..

/-- The names `read_dir` may come by, in its order. -/
def Lists (k : Disk) (path : String) (names : List Name) : Prop :=
  names.Nodup ∧ ∀ name, name ∈ names ↔ k.files path name ≠ none

end Disk

/-! ## Calls -/

inductive Operation where
  | symlinkMetadata (path : String)
  | entryMetadata (path : String) (name : Name)
  | readDir (path : String)
  | createDirAll
  | createDir (path : String)
  | setPermissions (path : String)
  | rename (name : String)
  | removeDir (path : String)

inductive Ask where
  | entries (path : String)
  | fails (operation : Operation)

def Ask.Answer : Ask → Type
  | .entries _ => List Name
  | .fails _ => Bool

abbrev Command (α : Type) := Cmd Ask.Answer Disk CredentialError α

abbrev Probe (α : Type) := Crash.Probe Ask.Answer Disk CredentialError α

abbrev Surroundings := Answers Ask.Answer Disk

/-- A file system in which the operations of `may` can fail. -/
def surroundings (may : Operation → Prop) : Surroundings := fun k q a =>
  match q, a with
  | .entries path, names => k.Lists path names
  | .fails operation, failed => failed = true → may operation

def fail {α : Type} (error : CredentialError) : Probe α := Probe.throw error

def ask (q : Ask) : Probe q.Answer := Probe.query q

def lift {α : Type} : Except CredentialError α → Probe α := Probe.ofExcept

def fails (operation : Operation) : Probe Bool := ask (.fails operation)

/-! ## Migrating -/

variable (u : User)

/-- `symlink_metadata`, with nothing there as `none`. -/
def symlinkMetadata (path : String) : Probe (Option Folder) := do
  if ← fails (.symlinkMetadata path) then fail .io
  pure ((← Probe.get).dirs path)

/-- `symlink_metadata` of an entry. -/
def entryMetadata (path : String) (name : Name) : Probe Node := do
  if ← fails (.entryMetadata path name) then fail .io
  match (← Probe.get).files path name with
  | none => fail .io
  | some n => pure n

def entries (path : String) : Probe (List Name) := ask (.entries path)

def readDir (path : String) : Probe (List Name) := do
  if ← fails (.readDir path) then fail .io
  entries path

def SERVICE_SOCKET : String := "device-service.sock"

def validateServiceSocket (m : Metadata) : Except CredentialError Unit :=
  if m.fileType = .symlink ∨ m.fileType ≠ .socket then .error .invalidPath else .ok ()

def validateLegacyStoreEntry (name : String) (m : Metadata) : Except CredentialError Unit :=
  if name = SERVICE_SOCKET then validateServiceSocket m
  else if name ∈ DEVICE_STORE_STATE_FILES then u.validateOwnerFileMetadata m
  else if m.fileType = .symlink then .error .invalidPath
  else .ok ()

def validateLegacyStoreEntries (legacy : String) : List Name → Probe Unit
  | [] => pure ()
  | name :: names => do
    match name.toStr with
    | none => fail .invalidPath
    | some text =>
      let n ← entryMetadata legacy name
      lift (validateLegacyStoreEntry u text n.metadata)
      validateLegacyStoreEntries legacy names

/-- `create_dir_all` of the parent, from the top. -/
def createDirAll : Nat → Command Unit
  | 0 => pure ()
  | missing + 1 => do
    if ← fails .createDirAll then fail .io
    Cmd.update fun k => { k with missing }
    createDirAll missing

/-- A directory as `create_dir` makes it. -/
def createdDirectory : Folder :=
  ⟨⟨.directory, u.euid, 2, u.masked 0o777⟩, fun _ => none, finite_empty⟩

def createDir (canonical : String) : Command Unit := do
  if ← fails (.createDir canonical) then fail .io
  match (← Cmd.get).dirs canonical with
  | some _ => pure ()
  | none =>
    Cmd.update fun k => k.put canonical (some (createdDirectory u))
    if ← fails (.setPermissions canonical) then fail .io
    Cmd.update fun k => k.put canonical ((k.dirs canonical).map (·.withMode 0o700))

/-- The canonical directory is there and nobody else's. -/
def ensureCanonical (canonical : String) : Command Unit := do
  match ← symlinkMetadata canonical with
  | some f => lift (u.validateStoreDirectoryMetadata f.metadata)
  | none =>
    createDirAll (← Cmd.get).missing
    createDir u canonical
    match ← symlinkMetadata canonical with
    | none => fail .io
    | some f => lift (u.validateStoreDirectoryMetadata f.metadata)

/-- `symlink_metadata(..).is_ok()`: a call that fails finds nothing. -/
def isThere (path : String) (name : Name) : Probe Bool := do
  if ← fails (.entryMetadata path name) then pure false
  else pure ((← Probe.get).files path name).isSome

def movable (legacy canonical : String) : List Name → Probe (List String)
  | [] => pure []
  | name :: names => do
    match name.toStr with
    | none => fail .invalidPath
    | some text =>
      let n ← entryMetadata legacy name
      if text = SERVICE_SOCKET then
        -- Never migrate a live service socket.
        lift (validateServiceSocket n.metadata)
        movable legacy canonical names
      else if text ∉ DEVICE_STORE_STATE_FILES then movable legacy canonical names
      else
        lift (u.validateOwnerFileMetadata n.metadata)
        if ← isThere canonical name then fail .invalidPath
        let rest ← movable legacy canonical names
        pure (text :: rest)

/-- The files of these names have been renamed into the canonical directory. -/
def Disk.moved (k : Disk) (legacy canonical : String) (names : List String) : Disk :=
  match k.dirs legacy, k.dirs canonical with
  | some l, some c =>
    (k.put legacy (some (l.without names))).put canonical (some (c.adding l names))
  | _, _ => k

def renames (legacy canonical : String) : List String → Command Unit
  | [] => pure ()
  | name :: names => do
    if ← fails (.rename name) then fail .io
    let k ← Cmd.get
    if (k.files legacy (.text name)).isNone ∨
        (k.files canonical (.text name)).any (·.metadata.fileType = .directory) then
      fail .io
    Cmd.update fun k => k.moved legacy canonical [name]
    renames legacy canonical names

/-- `remove_dir`, of which only an empty directory is removed and no failure is reported. -/
def removeDir (path : String) : Command Unit := do
  if ← fails (.removeDir path) then pure ()
  else if (← entries path).isEmpty then Cmd.update fun k => k.put path none
  else pure ()

/-- Migrates known legacy state without overwriting a canonical store. -/
def migrateLegacyDeviceStore (legacy canonical : String) : Command Unit := do
  if legacy = canonical then pure ()
  else
    match ← symlinkMetadata legacy with
    | none => pure ()
    | some f =>
      lift (u.validateStoreDirectoryMetadata f.metadata)
      validateLegacyStoreEntries u legacy (← readDir legacy)
      ensureCanonical u canonical
      let names ← movable u legacy canonical (← readDir legacy)
      renames legacy canonical names
      removeDir legacy

/-! ## Rules -/

section

variable {may : Operation → Prop} {I : Disk → Prop} {F : CredentialError → Disk → Prop} {α : Type}
  {k : Disk} {u : User}

@[simp] theorem wp_fail (e : CredentialError) {E : Surroundings} {R : α → Disk → Prop} :
    Cmd.wp E I F (liftM (fail e : Probe α)) R k = F e k := rfl

@[simp] theorem wp_state {E : Surroundings} {R : Disk → Disk → Prop} :
    Cmd.wp E I F (liftM (Probe.get : Probe Disk)) R k = R k k := rfl

/-- A call that may fail. -/
theorem wp_fails {operation : Operation} {R : Bool → Disk → Prop} (hI : I k)
    (hT : may operation → R true k) (hR : R false k) :
    Cmd.wp (surroundings may) I F (liftM (fails operation)) R k := by
  refine ⟨hI, ?_⟩
  intro b hb
  cases b with
  | true => exact hT (hb rfl)
  | false => exact hR

theorem wp_entries {path : String} {R : List Name → Disk → Prop} (hI : I k)
    (hR : ∀ names, k.Lists path names → R names k) :
    Cmd.wp (surroundings may) I F (liftM (entries path)) R k :=
  ⟨hI, fun names hn => hR names hn⟩

theorem wp_lift {E : Surroundings} {x : Except CredentialError α} {R : α → Disk → Prop}
    (hF : ∀ e, x = .error e → F e k) (hR : ∀ a, x = .ok a → R a k) :
    Cmd.wp E I F (liftM (lift x)) R k := by
  cases x with
  | ok a => exact hR a rfl
  | error e => exact hF e rfl

theorem wp_check {operation : Operation} {p : Command α} {R : α → Disk → Prop} (hI : I k)
    (hF : may operation → F .io k) (hR : Cmd.wp (surroundings may) I F p R k) :
    Cmd.wp (surroundings may) I F (do
      if ← fails operation then fail .io
      p) R k := by
  rw [Cmd.wp_bind]
  refine wp_fails hI (fun h => ?_) ?_
  · rw [Cmd.wp_ite]
    exact ⟨fun _ => hF h, fun h => absurd rfl h⟩
  · rw [Cmd.wp_ite]
    exact ⟨fun h => (by cases h), fun _ => hR⟩

theorem wp_checkProbe {operation : Operation} {p : Probe α} {R : α → Disk → Prop} (hI : I k)
    (hF : may operation → F .io k) (hR : Cmd.wp (surroundings may) I F (liftM p) R k) :
    Cmd.wp (surroundings may) I F (liftM (do
      if ← fails operation then fail .io
      p : Probe α)) R k := by
  rw [probe_bind, Cmd.wp_bind]
  refine wp_fails hI (fun h => ?_) ?_
  · rw [probe_ite, Cmd.wp_ite]
    exact ⟨fun _ => hF h, fun h => absurd rfl h⟩
  · rw [probe_ite, Cmd.wp_ite]
    exact ⟨fun h => (by cases h), fun _ => hR⟩

theorem wp_symlinkMetadata {path : String} {R : Option Folder → Disk → Prop} (hI : I k)
    (hF : may (.symlinkMetadata path) → F .io k) (hR : R (k.dirs path) k) :
    Cmd.wp (surroundings may) I F (liftM (symlinkMetadata path)) R k :=
  wp_checkProbe hI hF hR

theorem wp_readDir {path : String} {R : List Name → Disk → Prop} (hI : I k)
    (hF : may (.readDir path) → F .io k) (hR : ∀ names, k.Lists path names → R names k) :
    Cmd.wp (surroundings may) I F (liftM (readDir path)) R k :=
  wp_checkProbe hI hF (wp_entries hI hR)

theorem wp_entryMetadata {path : String} {name : Name} {n : Node} {R : Node → Disk → Prop}
    (hn : k.files path name = some n) (hI : I k)
    (hF : may (.entryMetadata path name) → F .io k) (hR : R n k) :
    Cmd.wp (surroundings may) I F (liftM (entryMetadata path name)) R k := by
  refine wp_checkProbe hI hF ?_
  rw [probe_bind, Cmd.wp_bind, wp_state, hn]
  exact hR

theorem wp_isThere {path : String} {name : Name} {R : Bool → Disk → Prop} (hI : I k)
    (hsee : ¬ may (.entryMetadata path name)) (hR : R (k.files path name).isSome k) :
    Cmd.wp (surroundings may) I F (liftM (isThere path name)) R k := by
  rw [isThere, probe_bind, Cmd.wp_bind]
  refine wp_fails hI (fun h => absurd h hsee) ?_
  exact hR

end

/-! ## Moved files -/

theorem text_mem_map {t : String} {names : List String} :
    Name.text t ∈ names.map .text ↔ t ∈ names := by
  simp

theorem Folder.without_text (f : Folder) (names : List String) (t : String) :
    (f.without names).entries (.text t) = if t ∈ names then none else f.entries (.text t) := by
  simp only [without, text_mem_map]

theorem Folder.adding_text (f g : Folder) (names : List String) (t : String) :
    (f.adding g names).entries (.text t) =
      if t ∈ names then g.entries (.text t) else f.entries (.text t) := by
  simp only [adding, text_mem_map]

theorem Folder.without_append (f : Folder) (names more : List String) :
    (f.without names).without more = f.without (names ++ more) := by
  ext1
  · rfl
  · funext name
    simp only [without, List.map_append, List.mem_append]
    by_cases h : name ∈ more.map .text <;> simp [h]

theorem Folder.adding_append {f g : Folder} {names more : List String}
    (h : ∀ t ∈ more, t ∉ names) :
    (f.adding g names).adding (g.without names) more = f.adding g (names ++ more) := by
  ext1
  · rfl
  · funext name
    simp only [without, adding, List.map_append, List.mem_append]
    by_cases hm : name ∈ more.map .text
    · have hn : name ∉ names.map .text := by
        obtain ⟨t, ht, rfl⟩ := List.mem_map.mp hm
        intro hn
        obtain ⟨t', ht', he⟩ := List.mem_map.mp hn
        cases he
        exact h t ht ht'
      simp [hm, hn]
    · simp [hm]

section

variable {k : Disk} {legacy canonical : String} {l c : Folder}

namespace Disk

variable (hne : legacy ≠ canonical) (hl : k.dirs legacy = some l) (hc : k.dirs canonical = some c)

include hl hc

theorem moved_eq (names : List String) : k.moved legacy canonical names =
    (k.put legacy (some (l.without names))).put canonical (some (c.adding l names)) := by
  rw [moved, hl, hc]

theorem moved_canonical (names : List String) :
    (k.moved legacy canonical names).dirs canonical = some (c.adding l names) := by
  rw [moved_eq hl hc, put_self]

theorem moved_nil : k.moved legacy canonical [] = k := by
  rw [moved_eq hl hc]
  have hl' : l.without [] = l := by
    ext1
    · rfl
    · simp [Folder.without]
  have hc' : c.adding l [] = c := by
    ext1
    · rfl
    · simp [Folder.adding]
  rw [hl', hc', put, put, ← hl, Function.update_eq_self, ← hc, Function.update_eq_self]

include hne

theorem moved_legacy (names : List String) :
    (k.moved legacy canonical names).dirs legacy = some (l.without names) := by
  rw [moved_eq hl hc, put_of_ne hne, put_self]

theorem moved_moved {names more : List String} (h : ∀ t ∈ more, t ∉ names) :
    (k.moved legacy canonical names).moved legacy canonical more =
      k.moved legacy canonical (names ++ more) := by
  rw [moved_eq (moved_legacy hne hl hc names) (moved_canonical hl hc names), moved_eq hl hc,
    moved_eq hl hc, Folder.without_append, Folder.adding_append h]
  ext1
  · funext path
    simp only [put, Function.update_apply]
    split_ifs <;> rfl
  · rfl

end Disk

theorem Disk.moved_congr {names more : List String} (h : ∀ t, t ∈ names ↔ t ∈ more) :
    k.moved legacy canonical names = k.moved legacy canonical more := by
  have hm : ∀ name : Name, name ∈ names.map .text ↔ name ∈ more.map .text := by
    intro name
    simp only [List.mem_map, h]
  have hl : ∀ f : Folder, f.without names = f.without more := by
    intro f
    ext1
    · rfl
    · funext name
      simp only [Folder.without, hm]
  have hc : ∀ f g : Folder, f.adding g names = f.adding g more := by
    intro f g
    ext1
    · rfl
    · funext name
      simp only [Folder.adding, hm]
  simp only [moved, hl, hc]

end

/-- The known files of a directory. -/
def Disk.stateFiles (k : Disk) (path : String) : List String :=
  DEVICE_STORE_STATE_FILES.filter fun t => (k.files path (.text t)).isSome

open Classical in
/-- The directory is gone if nothing is left in it. -/
noncomputable def Disk.tidied (k : Disk) (path : String) : Disk :=
  if ∀ name, k.files path name = none then k.put path none else k

/-- What a migration comes to. -/
noncomputable def Disk.settled (k : Disk) (legacy canonical : String) : Disk :=
  (k.moved legacy canonical (k.stateFiles legacy)).tidied legacy

/-- Where a migration may have got to. -/
def Between (legacy canonical : String) (k k' : Disk) : Prop :=
  (∃ names, (∀ t ∈ names, t ∈ k.stateFiles legacy) ∧ k' = k.moved legacy canonical names) ∨
    k' = k.settled legacy canonical

/-- A directory of which every entry is accepted. -/
structure Accepted (u : User) (legacy : String) (k : Disk) (l : Folder) : Prop where
  there : k.dirs legacy = some l
  directory : u.validateStoreDirectoryMetadata l.metadata = .ok ()
  entries : ∀ name n, l.entries name = some n →
    ∃ text, name = .text text ∧ validateLegacyStoreEntry u text n.metadata = .ok ()

/-- Two directories between which the files can be moved. -/
structure Ready (u : User) (legacy canonical : String) (k : Disk) (l c : Folder) : Prop where
  ne : legacy ≠ canonical
  accepted : Accepted u legacy k l
  there : k.dirs canonical = some c
  directory : u.validateStoreDirectoryMetadata c.metadata = .ok ()
  apart : ∀ t ∈ DEVICE_STORE_STATE_FILES, l.entries (.text t) ≠ none → c.entries (.text t) = none

section

variable {u : User} {k k' : Disk} {legacy canonical : String} {l c : Folder}

theorem files_of_dirs {f : Folder} {path : String} (h : k.dirs path = some f) (name : Name) :
    k.files path name = f.entries name := by
  rw [Disk.files, h, Option.bind_some]

theorem mem_stateFiles {t : String} : t ∈ k.stateFiles legacy ↔
    t ∈ DEVICE_STORE_STATE_FILES ∧ k.files legacy (.text t) ≠ none := by
  rw [Disk.stateFiles, List.mem_filter, Option.isSome_iff_ne_none]

theorem mem_stateFiles_moved (hne : legacy ≠ canonical) (hl : k.dirs legacy = some l)
    (hc : k.dirs canonical = some c) {t : String} {names : List String} :
    t ∈ (k.moved legacy canonical names).stateFiles legacy ↔
      t ∈ k.stateFiles legacy ∧ t ∉ names := by
  rw [mem_stateFiles, mem_stateFiles, files_of_dirs (Disk.moved_legacy hne hl hc names),
    files_of_dirs hl, Folder.without_text]
  split_ifs with h <;> simp [h]

theorem moved_rest (hne : legacy ≠ canonical) (hl : k.dirs legacy = some l)
    (hc : k.dirs canonical = some c) {names : List String}
    (h : ∀ t ∈ names, t ∈ k.stateFiles legacy) :
    (k.moved legacy canonical names).moved legacy canonical
        ((k.moved legacy canonical names).stateFiles legacy) =
      k.moved legacy canonical (k.stateFiles legacy) := by
  have hmem : ∀ t, t ∈ (k.moved legacy canonical names).stateFiles legacy ↔
      t ∈ k.stateFiles legacy ∧ t ∉ names :=
    fun t => mem_stateFiles_moved hne hl hc
  rw [Disk.moved_moved hne hl hc fun t ht => ((hmem t).mp ht).2]
  refine Disk.moved_congr fun t => ?_
  rw [List.mem_append, hmem]
  constructor
  · rintro (ht | ht)
    · exact h t ht
    · exact ht.1
  · intro ht
    by_cases hn : t ∈ names
    · exact .inl hn
    · exact .inr ⟨ht, hn⟩

theorem settled_moved (hne : legacy ≠ canonical) (hl : k.dirs legacy = some l)
    (hc : k.dirs canonical = some c) {names : List String}
    (h : ∀ t ∈ names, t ∈ k.stateFiles legacy) :
    (k.moved legacy canonical names).settled legacy canonical = k.settled legacy canonical := by
  rw [Disk.settled, moved_rest hne hl hc h, Disk.settled]

theorem Ready.moved (h : Ready u legacy canonical k l c) (names : List String) :
    Ready u legacy canonical (k.moved legacy canonical names) (l.without names)
      (c.adding l names) where
  ne := h.ne
  accepted :=
    { there := Disk.moved_legacy h.ne h.accepted.there h.there names
      directory := h.accepted.directory
      entries := by
        intro name n he
        simp only [Folder.without] at he
        split at he
        · cases he
        · exact h.accepted.entries name n he }
  there := Disk.moved_canonical h.accepted.there h.there names
  directory := h.directory
  apart := by
    intro t ht he
    rw [Folder.without_text] at he
    rw [Folder.adding_text]
    by_cases hm : t ∈ names
    · exact absurd (if_pos hm) he
    · rw [if_neg hm] at he ⊢
      exact h.apart t ht he

theorem between_moved (h : Ready u legacy canonical k l c) {names : List String}
    (hn : ∀ t ∈ names, t ∈ k.stateFiles legacy)
    (hb : Between legacy canonical (k.moved legacy canonical names) k') :
    Between legacy canonical k k' := by
  have hl := h.accepted.there
  rcases hb with ⟨more, hm, rfl⟩ | rfl
  · have hmem := fun t ht => (mem_stateFiles_moved h.ne hl h.there).mp (hm t ht)
    refine .inl ⟨names ++ more, ?_, Disk.moved_moved h.ne hl h.there fun t ht => (hmem t ht).2⟩
    intro t ht
    rcases List.mem_append.mp ht with ht | ht
    · exact hn t ht
    · exact (hmem t ht).1
  · exact .inr (settled_moved h.ne hl h.there hn)

/-- Wherever a migration is left, the directories are still such, or it is done. -/
theorem between_cases (hb : Between legacy canonical k k') :
    (∃ names, (∀ t ∈ names, t ∈ k.stateFiles legacy) ∧
      k' = k.moved legacy canonical names) ∨
    k' = k.settled legacy canonical ∧ k'.dirs legacy = none := by
  rcases hb with hb | rfl
  · exact .inl hb
  · by_cases he : ∀ name, (k.moved legacy canonical (k.stateFiles legacy)).files legacy name = none
    · refine .inr ⟨rfl, ?_⟩
      rw [Disk.settled, Disk.tidied, if_pos he, Disk.put_self]
    · refine .inl ⟨k.stateFiles legacy, fun t ht => ht, ?_⟩
      rw [Disk.settled, Disk.tidied, if_neg he]

end

/-! ## A run -/

/-- The known files of a listing. -/
def stateNames (names : List Name) : List String :=
  names.filterMap fun name => name.toStr.filter fun t => decide (t ∈ DEVICE_STORE_STATE_FILES)

theorem stateNames_text (t : String) (names : List Name) :
    stateNames (.text t :: names) =
      if t ∈ DEVICE_STORE_STATE_FILES then t :: stateNames names else stateNames names := by
  by_cases h : t ∈ DEVICE_STORE_STATE_FILES
  · rw [if_pos h, stateNames, List.filterMap_cons_some (b := t)]
    · rfl
    · rw [Name.toStr, Option.filter_some, if_pos (decide_eq_true h)]
  · rw [if_neg h, stateNames, List.filterMap_cons_none]
    · rfl
    · rw [Name.toStr, Option.filter_some, if_neg (by simpa using h)]

theorem mem_stateNames {names : List Name} {t : String} :
    t ∈ stateNames names ↔ .text t ∈ names ∧ t ∈ DEVICE_STORE_STATE_FILES := by
  simp only [stateNames, List.mem_filterMap, Option.filter_eq_some_iff, decide_eq_true_eq]
  constructor
  · rintro ⟨name, hn, ht, hs⟩
    cases name with
    | text t' =>
      cases ht
      exact ⟨hn, hs⟩
    | other bytes => cases ht
  · rintro ⟨hn, hs⟩
    exact ⟨_, hn, rfl, hs⟩

theorem nodup_stateNames {names : List Name} (h : names.Nodup) : (stateNames names).Nodup := by
  refine h.filterMap ?_
  intro name name' t ht ht'
  simp only [Option.mem_def, Option.filter_eq_some_iff] at ht ht'
  cases name with
  | text t =>
    cases ht.1
    cases name' with
    | text t' =>
      cases ht'.1
      rfl
    | other bytes => cases ht'.1
  | other bytes => cases ht.1

/-- An entry that a migration accepts. -/
def Valid (u : User) (k : Disk) (path : String) (name : Name) : Prop :=
  ∃ text n, name = .text text ∧ k.files path name = some n ∧
    validateLegacyStoreEntry u text n.metadata = .ok ()

section

variable {may : Operation → Prop} {I : Disk → Prop} {F : CredentialError → Disk → Prop}
  {u : User} {k : Disk} {legacy canonical : String}

theorem wp_validateLegacyStoreEntries {names : List Name} {R : Unit → Disk → Prop} (hI : I k)
    (hn : ∀ name ∈ names, k.files legacy name ≠ none) (hF : (∃ operation, may operation) → F .io k)
    (hbad : (∃ name ∈ names, ¬ Valid u k legacy name) → ∀ e, F e k)
    (hR : (∀ name ∈ names, Valid u k legacy name) → R () k) :
    Cmd.wp (surroundings may) I F (liftM (validateLegacyStoreEntries u legacy names)) R k := by
  induction names with
  | nil => exact hR (by simp)
  | cons name names ih =>
    simp only [List.forall_mem_cons] at hn
    obtain ⟨n, hnode⟩ := Option.ne_none_iff_exists'.mp hn.1
    cases name with
    | other bytes =>
      refine hbad ⟨.other bytes, by simp, ?_⟩ _
      rintro ⟨text, n, hname, -⟩
      cases hname
    | text text =>
      have hbad' : ∀ {e}, validateLegacyStoreEntry u text n.metadata = .error e →
          ∀ e, F e k := by
        intro e he
        refine hbad ⟨.text text, by simp, ?_⟩
        rintro ⟨text', n', hname, hn', hv⟩
        cases hname
        rw [hnode] at hn'
        cases hn'
        rw [he] at hv
        cases hv
      simp only [validateLegacyStoreEntries, Name.toStr, probe_bind, Cmd.wp_bind]
      refine wp_entryMetadata hnode hI (fun h => hF ⟨_, h⟩) ?_
      refine wp_lift (fun e he => hbad' he e) fun _ hv => ?_
      refine ih hn.2 ?_ ?_
      · rintro ⟨name, hm, hx⟩
        exact hbad ⟨name, List.mem_cons_of_mem _ hm, hx⟩
      · intro hall
        refine hR ?_
        simp only [List.forall_mem_cons]
        exact ⟨⟨text, n, rfl, hnode, hv⟩, hall⟩

theorem wp_movable {names : List Name} {R : List String → Disk → Prop} (hI : I k)
    (hsee : ∀ name, ¬ may (.entryMetadata canonical name))
    (hn : ∀ name ∈ names, Valid u k legacy name) (hF : (∃ operation, may operation) → F .io k)
    (hbad : (∃ t ∈ stateNames names, k.files canonical (.text t) ≠ none) → ∀ e, F e k)
    (hR : (∀ t ∈ stateNames names, k.files canonical (.text t) = none) →
      R (stateNames names) k) :
    Cmd.wp (surroundings may) I F (liftM (movable u legacy canonical names)) R k := by
  induction names generalizing R with
  | nil => exact hR (by simp [stateNames])
  | cons name names ih =>
    simp only [List.forall_mem_cons] at hn
    obtain ⟨⟨text, n, rfl, hnode, hv⟩, hall⟩ := hn
    rw [stateNames_text] at hbad hR
    simp only [movable, Name.toStr, probe_bind, Cmd.wp_bind]
    refine wp_entryMetadata hnode hI (fun h => hF ⟨_, h⟩) ?_
    simp only [probe_ite, probe_bind, Cmd.wp_ite, Cmd.wp_bind]
    unfold validateLegacyStoreEntry at hv
    refine ⟨fun hs => ?_, fun hs => ⟨fun ht => ?_, fun ht => ?_⟩⟩
    · rw [if_pos hs] at hv
      have ht : text ∉ DEVICE_STORE_STATE_FILES := by
        rw [hs]
        decide
      rw [if_neg ht] at hbad hR
      refine wp_lift (fun e he => ?_) fun _ _ => ih hall hbad hR
      rw [hv] at he
      cases he
    · rw [if_neg ht] at hbad hR
      exact ih hall hbad hR
    · rw [not_not] at ht
      rw [if_pos ht] at hbad hR
      simp only [if_neg hs, if_pos ht] at hv
      refine wp_lift (fun e he => ?_) fun _ _ => ?_
      · rw [hv] at he
        cases he
      refine wp_isThere hI (hsee _) ?_
      refine ⟨fun h => ?_, fun h => ?_⟩
      · refine hbad ⟨text, by simp, ?_⟩ _
        intro hnone
        rw [hnone] at h
        cases h
      · have hnone : k.files canonical (.text text) = none := by
          simpa using h
        refine ih hall ?_ ?_
        · rintro ⟨t, hm, hx⟩
          exact hbad ⟨t, List.mem_cons_of_mem _ hm, hx⟩
        · intro hfree
          refine hR ?_
          simp only [List.forall_mem_cons]
          exact ⟨hnone, hfree⟩

variable {l c : Folder}

theorem wp_renames (h : Ready u legacy canonical k l c) {done names : List String}
    {R : Unit → Disk → Prop} (hnd : (done ++ names).Nodup)
    (hn : ∀ t ∈ done ++ names, t ∈ k.stateFiles legacy)
    (hI : ∀ k', Between legacy canonical k k' → I k')
    (hF : (∃ operation, may operation) → ∀ k', Between legacy canonical k k' → F .io k')
    (hR : R () (k.moved legacy canonical (done ++ names))) :
    Cmd.wp (surroundings may) I F (renames legacy canonical names) R
      (k.moved legacy canonical done) := by
  induction names generalizing done with
  | nil =>
    rw [List.append_nil] at hR
    exact hR
  | cons name names ih =>
    have hl := h.accepted.there
    have hb : Between legacy canonical k (k.moved legacy canonical done) :=
      .inl ⟨done, fun t ht => hn t (List.mem_append_left _ ht), rfl⟩
    have hname : name ∉ done := by
      intro hd
      exact List.disjoint_of_nodup_append hnd hd (by simp)
    obtain ⟨hknown, hthere⟩ := mem_stateFiles.mp (hn name (by simp))
    rw [files_of_dirs hl] at hthere
    have hsource : (k.moved legacy canonical done).files legacy (.text name) ≠ none := by
      rw [files_of_dirs (Disk.moved_legacy h.ne hl h.there done), Folder.without_text,
        if_neg hname]
      exact hthere
    have hfree : (k.moved legacy canonical done).files canonical (.text name) = none := by
      rw [files_of_dirs (Disk.moved_canonical hl h.there done), Folder.adding_text,
        if_neg hname]
      exact h.apart name hknown hthere
    rw [renames]
    refine wp_check (hI _ hb) (fun hm => hF ⟨_, hm⟩ _ hb) ?_
    simp only [Cmd.wp_bind, Cmd.wp_get, Cmd.wp_ite, Cmd.wp_update]
    refine ⟨?_, fun _ => ⟨hI _ hb, ?_⟩⟩
    · rintro (hnone | hdir)
      · exact absurd (Option.isNone_iff_eq_none.mp hnone) hsource
      · rw [hfree] at hdir
        cases hdir
    · have hmore : done ++ name :: names = done ++ [name] ++ names := by simp
      rw [hmore] at hnd hn hR
      rw [Disk.moved_moved h.ne hl h.there (by simpa using hname)]
      exact ih hnd hn hR

theorem wp_removeDir {R : Unit → Disk → Prop} (hI : I k)
    (hR : (∃ operation, may operation) → R () k) (htidy : R () (k.tidied legacy)) :
    Cmd.wp (surroundings may) I F (removeDir legacy) R k := by
  rw [removeDir, Cmd.wp_bind]
  refine wp_fails hI (fun hm => ?_) ?_
  · rw [Cmd.wp_ite]
    exact ⟨fun _ => hR ⟨_, hm⟩, fun h => absurd rfl h⟩
  · rw [Cmd.wp_ite]
    refine ⟨fun h => (by cases h), fun _ => ?_⟩
    rw [Cmd.wp_bind]
    refine wp_entries hI fun names hn => ?_
    have hempty : names.isEmpty = true ↔ ∀ name, k.files legacy name = none := by
      rw [List.isEmpty_iff, List.eq_nil_iff_forall_not_mem]
      simp only [hn.2, not_not]
    rw [Cmd.wp_ite]
    refine ⟨fun he => ⟨hI, ?_⟩, fun he => ?_⟩
    · rw [Disk.tidied, if_pos (hempty.mp he)] at htidy
      exact htidy
    · rw [Disk.tidied, if_neg fun h => he (hempty.mpr h)] at htidy
      exact htidy

/-- The files are moved, and the empty directory is removed. -/
theorem wp_transfer (h : Ready u legacy canonical k l c)
    (hsee : ∀ name, ¬ may (.entryMetadata canonical name)) {R : Unit → Disk → Prop}
    (hI : ∀ k', Between legacy canonical k k' → I k')
    (hF : (∃ operation, may operation) → ∀ k', Between legacy canonical k k' → F .io k')
    (hR : (∃ operation, may operation) →
      R () (k.moved legacy canonical (k.stateFiles legacy)))
    (hend : R () (k.settled legacy canonical)) :
    Cmd.wp (surroundings may) I F (do
      let names ← movable u legacy canonical (← readDir legacy)
      renames legacy canonical names
      removeDir legacy) R k := by
  have hl := h.accepted.there
  have hnil := Disk.moved_nil hl h.there
  have hk : Between legacy canonical k k := .inl ⟨[], by simp, hnil.symm⟩
  rw [Cmd.wp_bind]
  refine wp_readDir (hI _ hk) (fun hm => hF ⟨_, hm⟩ _ hk) fun names hn => ?_
  have hknown : ∀ t, t ∈ stateNames names ↔ t ∈ k.stateFiles legacy := by
    intro t
    rw [mem_stateNames, mem_stateFiles, hn.2, and_comm]
  have hvalid : ∀ name ∈ names, Valid u k legacy name := by
    intro name hname
    obtain ⟨n, hnode⟩ := Option.ne_none_iff_exists'.mp ((hn.2 name).mp hname)
    obtain ⟨text, ht, hv⟩ := h.accepted.entries name n ((files_of_dirs hl name).symm.trans hnode)
    exact ⟨text, n, ht, hnode, hv⟩
  rw [Cmd.wp_bind]
  refine wp_movable (hI _ hk) hsee hvalid (fun hm => hF hm _ hk) ?_ fun _ => ?_
  · rintro ⟨t, ht, hthere⟩
    obtain ⟨hs, hf⟩ := mem_stateFiles.mp ((hknown t).mp ht)
    rw [files_of_dirs h.there] at hthere
    rw [files_of_dirs hl] at hf
    exact absurd (h.apart t hs hf) hthere
  have hall : k.moved legacy canonical (stateNames names) =
      k.moved legacy canonical (k.stateFiles legacy) :=
    Disk.moved_congr hknown
  have hb : Between legacy canonical k (k.moved legacy canonical (stateNames names)) :=
    .inl ⟨_, fun t ht => (hknown t).mp ht, rfl⟩
  rw [Cmd.wp_bind]
  have hw : Cmd.wp (surroundings may) I F (renames legacy canonical (stateNames names))
      (fun _ k' => Cmd.wp (surroundings may) I F (removeDir legacy) R k')
      (k.moved legacy canonical []) := by
    refine wp_renames h (nodup_stateNames hn.1) (fun t ht => (hknown t).mp ht) hI hF ?_
    refine wp_removeDir (hI _ hb) (fun hm => ?_) ?_
    · rw [List.nil_append, hall]
      exact hR hm
    · rw [List.nil_append, hall]
      exact hend
  rw [hnil] at hw
  exact hw

/-- A conflict is found before anything is moved. -/
theorem wp_conflict (ha : Accepted u legacy k l)
    (hsee : ∀ name, ¬ may (.entryMetadata canonical name)) {R : Unit → Disk → Prop} (hI : I k)
    (hF : ∀ e, F e k) (hc : ∃ t ∈ k.stateFiles legacy, k.files canonical (.text t) ≠ none) :
    Cmd.wp (surroundings may) I F (do
      let names ← movable u legacy canonical (← readDir legacy)
      renames legacy canonical names
      removeDir legacy) R k := by
  rw [Cmd.wp_bind]
  refine wp_readDir hI (fun _ => hF _) fun names hn => ?_
  have hvalid : ∀ name ∈ names, Valid u k legacy name := by
    intro name hname
    obtain ⟨n, hnode⟩ := Option.ne_none_iff_exists'.mp ((hn.2 name).mp hname)
    obtain ⟨text, ht, hv⟩ := ha.entries name n ((files_of_dirs ha.there name).symm.trans hnode)
    exact ⟨text, n, ht, hnode, hv⟩
  rw [Cmd.wp_bind]
  refine wp_movable hI hsee hvalid (fun _ => hF _) (fun _ => hF) fun hfree => ?_
  obtain ⟨t, ht, hthere⟩ := hc
  obtain ⟨hs, hf⟩ := mem_stateFiles.mp ht
  exact absurd (hfree t (mem_stateNames.mpr ⟨(hn.2 _).mpr hf, hs⟩)) hthere

/-! ## The canonical directory -/

/-- The canonical directory has been made with the mode. -/
def Disk.made (k : Disk) (u : User) (canonical : String) (mode : Nat) : Disk :=
  { k with missing := 0 }.put canonical (some ((createdDirectory u).withMode mode))

theorem wp_createDirAll {R : Unit → Disk → Prop} (hI : ∀ missing, I { k with missing })
    (hF : (∃ operation, may operation) → ∀ missing, F .io { k with missing })
    (hR : R () { k with missing := 0 }) {missing : Nat} :
    Cmd.wp (surroundings may) I F (createDirAll missing) R { k with missing } := by
  induction missing with
  | zero => exact hR
  | succ missing ih =>
    rw [createDirAll]
    refine wp_check (hI _) (fun hm => hF ⟨_, hm⟩ _) ?_
    rw [Cmd.wp_bind, Cmd.wp_update]
    exact ⟨hI _, ih⟩

theorem validate_made (u : User) :
    u.validateStoreDirectoryMetadata ((createdDirectory u).withMode 0o700).metadata = .ok () := by
  simp [User.validateStoreDirectoryMetadata, Folder.withMode, createdDirectory]

theorem wp_ensureCanonical_none {R : Unit → Disk → Prop} (hc : k.dirs canonical = none)
    (hearly : ∀ missing, I { k with missing })
    (hraw : I (k.made u canonical (u.masked 0o777))) (hmade : I (k.made u canonical 0o700))
    (hFearly : (∃ operation, may operation) → ∀ missing, F .io { k with missing })
    (hFraw : (∃ operation, may operation) → F .io (k.made u canonical (u.masked 0o777)))
    (hFmade : (∃ operation, may operation) → F .io (k.made u canonical 0o700))
    (hR : R () (k.made u canonical 0o700)) :
    Cmd.wp (surroundings may) I F (ensureCanonical u canonical) R k := by
  have hk : I k := hearly k.missing
  rw [ensureCanonical, Cmd.wp_bind]
  refine wp_symlinkMetadata hk (fun hm => hFearly ⟨_, hm⟩ k.missing) ?_
  simp only [hc, Cmd.wp_bind, Cmd.wp_get]
  refine wp_createDirAll (k := k) hearly hFearly ?_
  rw [createDir]
  refine wp_check (hearly 0) (fun hm => hFearly ⟨_, hm⟩ 0) ?_
  simp only [Cmd.wp_bind, Cmd.wp_get, hc, Cmd.wp_update]
  refine ⟨hearly 0, ?_⟩
  have hput : Disk.put { k with missing := 0 } canonical (some (createdDirectory u)) =
      k.made u canonical (u.masked 0o777) := rfl
  rw [hput]
  refine wp_fails hraw (fun hm => ?_) ?_
  · rw [Cmd.wp_ite]
    exact ⟨fun _ => hFraw ⟨_, hm⟩, fun h => absurd rfl h⟩
  rw [Cmd.wp_ite]
  refine ⟨fun h => (by cases h), fun _ => ⟨hraw, ?_⟩⟩
  have hchmod : (k.made u canonical (u.masked 0o777)).put canonical
      (((k.made u canonical (u.masked 0o777)).dirs canonical).map (·.withMode 0o700)) =
      k.made u canonical 0o700 := by
    rw [Disk.made, Disk.put_self]
    ext1
    · exact Function.update_idem ..
    · rfl
  simp only [Cmd.wp_done]
  rw [hchmod]
  refine wp_symlinkMetadata hmade (fun hm => hFmade ⟨_, hm⟩) ?_
  have hthere : (k.made u canonical 0o700).dirs canonical =
      some ((createdDirectory u).withMode 0o700) := Disk.put_self ..
  simp only [hthere]
  refine wp_lift (fun e he => ?_) fun _ _ => hR
  rw [validate_made] at he
  cases he

theorem wp_ensureCanonical_some {R : Unit → Disk → Prop} (hc : k.dirs canonical = some c)
    (hI : I k) (hF : (∃ operation, may operation) → F .io k)
    (hbad : u.validateStoreDirectoryMetadata c.metadata ≠ .ok () → ∀ e, F e k)
    (hR : u.validateStoreDirectoryMetadata c.metadata = .ok () → R () k) :
    Cmd.wp (surroundings may) I F (ensureCanonical u canonical) R k := by
  rw [ensureCanonical, Cmd.wp_bind]
  refine wp_symlinkMetadata hI (fun hm => hF ⟨_, hm⟩) ?_
  simp only [hc]
  refine wp_lift (fun e he => hbad ?_ e) fun _ h => hR h
  rw [he]
  exact fun h => by cases h

/-! ## The whole migration -/

theorem wp_idle {R : Unit → Disk → Prop} (h : legacy = canonical ∨ k.dirs legacy = none) (hI : I k)
    (hF : (∃ operation, may operation) → F .io k) (hR : R () k) :
    Cmd.wp (surroundings may) I F (migrateLegacyDeviceStore u legacy canonical) R k := by
  rw [migrateLegacyDeviceStore, Cmd.wp_ite]
  refine ⟨fun _ => hR, fun hne => ?_⟩
  have hnone := h.resolve_left hne
  rw [Cmd.wp_bind]
  refine wp_symlinkMetadata hI (fun hm => hF ⟨_, hm⟩) ?_
  rw [hnone]
  exact hR

/-- The legacy directory is validated first. -/
theorem wp_migrate {R : Unit → Disk → Prop} (hne : legacy ≠ canonical)
    (hl : k.dirs legacy = some l) (hI : I k) (hF : (∃ operation, may operation) → F .io k)
    (hbad : ¬ Accepted u legacy k l → ∀ e, F e k)
    (hrest : Accepted u legacy k l → Cmd.wp (surroundings may) I F (ensureCanonical u canonical)
      (fun _ => Cmd.wp (surroundings may) I F (do
        let names ← movable u legacy canonical (← readDir legacy)
        renames legacy canonical names
        removeDir legacy) R) k) :
    Cmd.wp (surroundings may) I F (migrateLegacyDeviceStore u legacy canonical) R k := by
  rw [migrateLegacyDeviceStore, if_neg hne, Cmd.wp_bind]
  refine wp_symlinkMetadata hI (fun hm => hF ⟨_, hm⟩) ?_
  simp only [hl]
  rw [Cmd.wp_bind]
  refine wp_lift (fun e he => hbad ?_ e) fun _ hdirectory => ?_
  · intro ha
    rw [ha.directory] at he
    cases he
  rw [Cmd.wp_bind]
  refine wp_readDir hI (fun hm => hF ⟨_, hm⟩) fun names hn => ?_
  rw [Cmd.wp_bind]
  refine wp_validateLegacyStoreEntries hI (fun name hname => (hn.2 name).mp hname) hF ?_ ?_
  · rintro ⟨name, hname, hx⟩
    refine hbad fun ha => hx ?_
    obtain ⟨n, hnode⟩ := Option.ne_none_iff_exists'.mp ((hn.2 name).mp hname)
    obtain ⟨text, ht, hv⟩ := ha.entries name n ((files_of_dirs hl name).symm.trans hnode)
    exact ⟨text, n, ht, hnode, hv⟩
  · intro hvalid
    rw [Cmd.wp_bind]
    refine hrest ⟨hl, hdirectory, ?_⟩
    intro name n hnode
    rw [← files_of_dirs hl] at hnode
    have hname : name ∈ names := (hn.2 name).mpr (by rw [hnode]; exact Option.some_ne_none n)
    obtain ⟨text, n', ht, hnode', hv⟩ := hvalid name hname
    rw [hnode] at hnode'
    cases hnode'
    exact ⟨text, ht, hv⟩

/-- Nothing is there to be moved, or what is there is refused. -/
def Idle (u : User) (legacy canonical : String) (k : Disk) : Prop :=
  legacy = canonical ∨ (∀ l, ¬ Accepted u legacy k l) ∨
    ∃ c, k.dirs canonical = some c ∧ (u.validateStoreDirectoryMetadata c.metadata ≠ .ok () ∨
      ∃ t ∈ k.stateFiles legacy, k.files canonical (.text t) ≠ none)

theorem idle_or_ready (u : User) (legacy canonical : String) (k : Disk) :
    Idle u legacy canonical k ∨ (∃ l c, Ready u legacy canonical k l c) ∨
      legacy ≠ canonical ∧ (∃ l, Accepted u legacy k l) ∧ k.dirs canonical = none := by
  by_cases hne : legacy = canonical
  · exact .inl (.inl hne)
  by_cases ha : ∃ l, Accepted u legacy k l
  · obtain ⟨l, ha⟩ := ha
    cases hc : k.dirs canonical with
    | none => exact .inr (.inr ⟨hne, ⟨l, ha⟩, rfl⟩)
    | some c =>
      by_cases hd : u.validateStoreDirectoryMetadata c.metadata = .ok ()
      · by_cases hx : ∃ t ∈ k.stateFiles legacy, k.files canonical (.text t) ≠ none
        · exact .inl (.inr (.inr ⟨c, hc, .inr hx⟩))
        · refine .inr (.inl ⟨l, c, hne, ha, hc, hd, ?_⟩)
          intro t ht hl
          by_contra hcon
          refine hx ⟨t, mem_stateFiles.mpr ⟨ht, ?_⟩, ?_⟩
          · rwa [files_of_dirs ha.there]
          · rwa [files_of_dirs hc]
      · exact .inl (.inr (.inr ⟨c, hc, .inl hd⟩))
  · exact .inl (.inr (.inl fun l hl => ha ⟨l, hl⟩))

theorem wp_of_idle (hsee : ∀ name, ¬ may (.entryMetadata canonical name))
    (h : Idle u legacy canonical k) {R : Unit → Disk → Prop} (hI : I k) (hF : ∀ e, F e k)
    (hR : legacy = canonical ∨ k.dirs legacy = none → R () k) :
    Cmd.wp (surroundings may) I F (migrateLegacyDeviceStore u legacy canonical) R k := by
  by_cases hne : legacy = canonical
  · exact wp_idle (.inl hne) hI (fun _ => hF _) (hR (.inl hne))
  cases hl : k.dirs legacy with
  | none => exact wp_idle (.inr hl) hI (fun _ => hF _) (hR (.inr hl))
  | some l =>
    refine wp_migrate hne hl hI (fun _ => hF _) (fun _ => hF) fun ha => ?_
    obtain ⟨c, hc, hbad⟩ := (h.resolve_left hne).resolve_left fun h => h l ha
    refine wp_ensureCanonical_some hc hI (fun _ => hF _) (fun _ => hF) fun hd => ?_
    exact wp_conflict ha hsee hI hF (hbad.resolve_left fun h => h hd)

theorem wp_of_ready (hsee : ∀ name, ¬ may (.entryMetadata canonical name))
    (h : Ready u legacy canonical k l c) {R : Unit → Disk → Prop}
    (hI : ∀ k', Between legacy canonical k k' → I k')
    (hF : (∃ operation, may operation) → ∀ k', Between legacy canonical k k' → F .io k')
    (hR : (∃ operation, may operation) →
      R () (k.moved legacy canonical (k.stateFiles legacy)))
    (hend : R () (k.settled legacy canonical)) :
    Cmd.wp (surroundings may) I F (migrateLegacyDeviceStore u legacy canonical) R k := by
  have hk : Between legacy canonical k k :=
    .inl ⟨[], by simp, (Disk.moved_nil h.accepted.there h.there).symm⟩
  refine wp_migrate h.ne h.accepted.there (hI _ hk) (fun hm => hF hm _ hk)
    (fun hn => absurd h.accepted hn) fun _ => ?_
  refine wp_ensureCanonical_some h.there (hI _ hk) (fun hm => hF hm _ hk)
    (fun hn => absurd h.directory hn) fun _ => ?_
  exact wp_transfer h hsee hI hF hR hend

/-- The canonical directory that is made is one to move files into. -/
theorem Accepted.made (ha : Accepted u legacy k l) (hne : legacy ≠ canonical) :
    Ready u legacy canonical (k.made u canonical 0o700) l
      ((createdDirectory u).withMode 0o700) where
  ne := hne
  accepted :=
    { there := (Disk.put_of_ne hne _ _).trans ha.there
      directory := ha.directory
      entries := ha.entries }
  there := Disk.put_self ..
  directory := validate_made u
  apart := fun _ _ _ => rfl

theorem wp_of_accepted (hsee : ∀ name, ¬ may (.entryMetadata canonical name))
    (ha : Accepted u legacy k l) (hne : legacy ≠ canonical) (hc : k.dirs canonical = none)
    {R : Unit → Disk → Prop} (hearly : ∀ missing, I { k with missing })
    (hraw : I (k.made u canonical (u.masked 0o777)))
    (hI : ∀ k', Between legacy canonical (k.made u canonical 0o700) k' → I k')
    (hF : (∃ operation, may operation) → ∀ e k', I k' → F e k')
    (hR : (∃ operation, may operation) → ∀ k',
      k' = (k.made u canonical 0o700).moved legacy canonical (k.stateFiles legacy) → R () k')
    (hend : R () ((k.made u canonical 0o700).settled legacy canonical)) :
    Cmd.wp (surroundings may) I F (migrateLegacyDeviceStore u legacy canonical) R k := by
  have hready : Ready u legacy canonical (k.made u canonical 0o700) l
      ((createdDirectory u).withMode 0o700) :=
    ha.made hne
  have hmade : I (k.made u canonical 0o700) :=
    hI _ (.inl ⟨[], by simp, (Disk.moved_nil hready.accepted.there hready.there).symm⟩)
  refine wp_migrate hne ha.there (hearly _) (fun hm => hF hm _ _ (hearly _))
    (fun hn => absurd ha hn) fun _ => ?_
  refine wp_ensureCanonical_none hc hearly hraw hmade (fun hm missing => hF hm _ _ (hearly missing))
    (fun hm => hF hm _ _ hraw) (fun hm => hF hm _ _ hmade) ?_
  refine wp_transfer hready hsee hI (fun hm k' hb => hF hm _ _ (hI k' hb)) (fun hm => ?_) hend
  refine hR hm _ (Disk.moved_congr fun t => ?_)
  rw [mem_stateFiles, mem_stateFiles, files_of_dirs hready.accepted.there, files_of_dirs ha.there]

end

end Migration
end Device
end EgoBridge
