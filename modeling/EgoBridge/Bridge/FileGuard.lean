import Mathlib.Data.List.Nodup
import EgoBridge.Lib.Run
import EgoBridge.Protocol.Allowlist

/-!
# Bridge.FileGuard

The guard a helper asks for files: uploads are copied to the request's own directory, downloads are
written at a staging path and moved to their destination on commit.

* `guardSystem`        — one guard, its helper and the disk, over any sequence of requests.
* `budget_accounted`   — what has been charged is what has succeeded, within the limits.
* `staging_removed`    — no staging path outlives the guard, where every commit names its own.
* `mismatched_leaks`   — a commit that names another path leaves the staged file behind.
-/

namespace EgoBridge
namespace Bridge

open Files Protocol Run

structure FileGuardBudget where
  totalBytes : Nat := 0
  fileCount : Nat := 0
  deriving DecidableEq

/-- One more file, of so many bytes. -/
def FileGuardBudget.charge (b : FileGuardBudget) (size : Nat) : FileGuardBudget :=
  { totalBytes := saturatingAdd64 b.totalBytes size, fileCount := saturatingAdd64 b.fileCount 1 }

structure PreparedDownload where
  stagingPath : List Name
  destination : ValidatedOutputPath

/-- `downloads` has each token once. -/
structure FileGuardState where
  budget : FileGuardBudget := {}
  downloads : List (String × PreparedDownload) := []

inductive GuardError where
  | protocolMessage (text : String)
  | io
  deriving DecidableEq

/-- What the system gives one request: faults, the inode of a new file, a fresh opaque id. -/
structure Supplies where
  faults : Faults
  inode : Nat × Nat
  opaqueId : String

def newDirectory (inode : Nat × Nat) : Node :=
  { kind := .directory, identity := inode, links := 2, owned := true, writable := true, bytes := [] }

def newFile (inode : Nat × Nat) (bytes : Bytes) : Node :=
  { kind := .regular, identity := inode, links := 1, owned := true, writable := true, bytes }

/-- `create_dir`, then `create_new` below it. The directory's permissions are set in between: if they
cannot be, that is a fault of `create_new` here. -/
def stageFile (d : Disk) (io : Faults) (inode : Nat × Nat) (directory : List Name) (name : Name)
    (bytes : Bytes) : Except GuardError Unit × Disk :=
  if io .createDirectory ∨ (d.lstat directory).isSome ∨
      d.chain [] directory.dropLast = false then (.error .io, d)
  else
    let d := d.set directory (newDirectory inode)
    if io .createFile ∨ (d (directory ++ [name])).isSome then (.error .io, d)
    else
      let d := d.set (directory ++ [name]) (newFile inode bytes)
      (if io .write then .error .io else .ok (), d)

def stageAllowlistedInput (a : Allowlist) (stagingRoot : List Name) (s : FileGuardState) (d : Disk)
    (x : Supplies) (requested : Path) : Except GuardError String × FileGuardState × Disk :=
  match a.openInput d x.faults requested s.budget.totalBytes s.budget.fileCount with
  | .error _ => (.error (.protocolMessage "helper file path rejected"), s, d)
  | .ok input =>
    match input.path.getLast? with
    | none => (.error (.protocolMessage "helper file name is invalid"), s, d)
    | some fileName =>
      if x.faults .read then (.error (.protocolMessage "helper file read failed"), s, d)
      else
        let directory := stagingRoot ++ [.text ("upload-" ++ toString (s.budget.fileCount + 1))]
        match stageFile d x.faults x.inode directory fileName input.bytes with
        | (.error e, d) => (.error e, s, d)
        | (.ok (), d) =>
          let s := { s with budget := s.budget.charge input.sizeBytes }
          match textOf (directory ++ [fileName]) with
          | some text => (.ok text, s, d)
          | none => (.error (.protocolMessage "helper staging path is invalid"), s, d)

def prepareAllowlistedOutput (a : Allowlist) (s : FileGuardState) (d : Disk) (x : Supplies)
    (requested : Path) : Except GuardError (String × String) × FileGuardState :=
  if 2 ^ 64 ≤ s.budget.fileCount + s.downloads.length then
    (.error (.protocolMessage "helper output count rejected"), s)
  else
    match a.validateOutput d x.faults requested s.budget.totalBytes
        (s.budget.fileCount + s.downloads.length) 0 with
    | .error _ => (.error (.protocolMessage "helper output path rejected"), s)
    | .ok destination =>
      match destination.stagingPath x.opaqueId with
      | .error _ => (.error (.protocolMessage "helper staging path is invalid"), s)
      | .ok stagingPath =>
        let s := { s with downloads := (x.opaqueId, ⟨stagingPath, destination⟩) :: s.downloads }
        match textOf stagingPath with
        | some text => (.ok (text, x.opaqueId), s)
        | none => (.error (.protocolMessage "helper staging path is invalid"), s)

def removeToken (token : String) (downloads : List (String × PreparedDownload)) :
    List (String × PreparedDownload) :=
  downloads.filter (·.1 ≠ token)

/-- The part of a commit between taking the token and removing the staged file. -/
def installStaged (a : Allowlist) (s : FileGuardState) (d : Disk) (x : Supplies) (staged : Path)
    (destination : ValidatedOutputPath) : Except GuardError Unit × FileGuardState × Disk :=
  match a.openInput d x.faults staged s.budget.totalBytes s.budget.fileCount with
  | .error _ => (.error (.protocolMessage "helper output limit rejected"), s, d)
  | .ok input =>
    if x.faults .read then (.error (.protocolMessage "helper output changed"), s, d)
    else
      match destination.replaceAtomically d x.faults input.bytes x.inode with
      | (.error _, d) => (.error (.protocolMessage "helper output changed"), s, d)
      | (.ok (), d) =>
        (.ok (), { s with budget := s.budget.charge input.sizeBytes }, d)

def commitAllowlistedOutput (a : Allowlist) (s : FileGuardState) (d : Disk) (x : Supplies)
    (staged : Path) (token : String) : Except GuardError String × FileGuardState × Disk :=
  match s.downloads.lookup token with
  | none => (.error (.protocolMessage "helper output token rejected"), s, d)
  | some prepared =>
    let s := { s with downloads := removeToken token s.downloads }
    if (Path.ofNames prepared.stagingPath).same staged = false then
      (.error (.protocolMessage "helper staging path rejected"), s, d)
    else
      let (result, s, d) := installStaged a s d x staged prepared.destination
      let d := prepared.destination.removeStaging d token
      match result with
      | .error e => (.error e, s, d)
      | .ok () =>
        match textOf prepared.destination.path with
        | some text => (.ok text, s, d)
        | none => (.error (.protocolMessage "helper output path is invalid"), s, d)

structure FileGuardRequest where
  operation : String
  path : String
  token : Option String
  deriving DecidableEq

/-- A request's result: the path and the token of the response, or `none` for a refusal. -/
abbrev Answer := Option (String × Option String)

/-- `handle_file_guard_connection`, once the request is read. -/
def handleRequest (a : Allowlist) (stagingRoot : List Name) (s : FileGuardState) (d : Disk)
    (x : Supplies) (q : FileGuardRequest) : Answer × FileGuardState × Disk :=
  if q.path = "" ∨ 4096 < (utf8 q.path).length then (none, s, d)
  else if q.operation = "upload" then
    let (r, s, d) := stageAllowlistedInput a stagingRoot s d x (.ofText q.path)
    (r.toOption.map fun p => (p, none), s, d)
  else if q.operation = "prepare_download" ∧ q.token = none then
    let (r, s) := prepareAllowlistedOutput a s d x (.ofText q.path)
    (r.toOption.map fun p => (p.1, some p.2), s, d)
  else if q.operation = "commit_download" then
    let (r, s, d) := commitAllowlistedOutput a s d x (.ofText q.path) (q.token.getD "")
    (r.toOption.map fun p => (p, none), s, d)
  else (none, s, d)

/-- The cleanup at the end of `run_file_guard`. -/
def removeAll (d : Disk) : List (String × PreparedDownload) → Disk
  | [] => d
  | (token, download) :: rest => removeAll (download.destination.removeStaging d token) rest

/-! ## One guard and its helper -/

structure GuardWorld where
  guard : FileGuardState := {}
  disk : Disk
  stopped : Bool := false
  /-- The staging paths handed out. -/
  handed : List (List Name) := []
  /-- The sizes of the uploads and commits that succeeded, the last one first. -/
  charged : List Nat := []

inductive GuardEvent where
  | request (q : FileGuardRequest) (x : Supplies)
  /-- The helper writes a file at a path it was handed. -/
  | create (p : List Name) (inode : Nat × Nat) (bytes : Bytes)
  | stop

def fileSize (d : Disk) (p : Path) : Nat :=
  match p.names? with
  | some names => (d names).elim 0 fun n => n.bytes.length
  | none => 0

def GuardWorld.served (a : Allowlist) (stagingRoot : List Name) (w : GuardWorld)
    (q : FileGuardRequest) (x : Supplies) : GuardWorld :=
  let (answer, s, d) := handleRequest a stagingRoot w.guard w.disk x q
  { w with
    guard := s
    disk := d
    handed :=
      match answer with
      | some (_, some _) => (s.downloads.head?.map (·.2.stagingPath)).toList ++ w.handed
      | _ => w.handed
    charged :=
      match answer with
      | some (_, none) => fileSize w.disk (.ofText q.path) :: w.charged
      | _ => w.charged }

inductive GuardStep (a : Allowlist) (stagingRoot : List Name) :
    GuardWorld → GuardEvent → GuardWorld → Prop where
  | request {w q x} : w.stopped = false → x.opaqueId ∉ w.guard.downloads.map Prod.fst →
      GuardStep a stagingRoot w (.request q x) (w.served a stagingRoot q x)
  | create {w p inode bytes} : p ∈ w.handed → w.disk.isDir p = false →
      GuardStep a stagingRoot w (.create p inode bytes)
        { w with disk := w.disk.set p (newFile inode bytes) }
  | stop {w} :
      GuardStep a stagingRoot w .stop
        { w with stopped := true, guard := { w.guard with downloads := [] },
                 disk := removeAll w.disk w.guard.downloads }

def guardSystem (a : Allowlist) (stagingRoot : List Name) : System GuardEvent GuardWorld where
  init := fun w => ∃ d, w = { disk := d }
  step := GuardStep a stagingRoot

/-! ## The budget -/

/-- `b'` is `b` with a file of `size` bytes charged, which fits the limits. -/
structure Charge (a : Allowlist) (b b' : FileGuardBudget) (size : Nat) : Prop where
  file : size ≤ a.limits.maxFileBytes
  bytes : b'.totalBytes = b.totalBytes + size ∧ b'.totalBytes ≤ a.limits.maxTotalBytes
  count : b'.fileCount = b.fileCount + 1 ∧ b'.fileCount ≤ a.limits.maxFileCount

theorem charge_of_input {a : Allowlist} {d : Disk} {io : Faults} {p : Path} {b : FileGuardBudget}
    {f : ValidatedInputFile} (h : a.openInput d io p b.totalBytes b.fileCount = .ok f) :
    Charge a b (b.charge f.sizeBytes) (fileSize d p) := by
  obtain ⟨hc, hf, ht, hn, n, hd, hs⟩ := Allowlist.openInput_ok h
  have hsize : fileSize d p = f.sizeBytes := by
    simp [fileSize, hn, hd, hs]
  have htotal := a.limits_valid.total_lt
  have hcount := a.limits_valid.count_le
  have h1 : saturatingAdd64 b.totalBytes f.sizeBytes = b.totalBytes + f.sizeBytes := by
    unfold saturatingAdd64
    omega
  have h2 : saturatingAdd64 b.fileCount 1 = b.fileCount + 1 := by
    unfold saturatingAdd64
    omega
  rw [hsize]
  refine ⟨hf, ⟨h1, ?_⟩, h2, ?_⟩
  · rw [FileGuardBudget.charge, h1]
    exact ht
  · rw [FileGuardBudget.charge, h2]
    exact hc

/-- An upload is charged exactly where it succeeds. -/
theorem stage_budget {a : Allowlist} {root : List Name} (hroot : Textual root) {s s' : FileGuardState}
    {d d' : Disk} {x : Supplies} {t : String} {r : Except GuardError String}
    (h : stageAllowlistedInput a root s d x (.ofText t) = (r, s', d')) :
    s'.downloads = s.downloads ∧
      (∀ u, r = .ok u → Charge a s.budget s'.budget (fileSize d (.ofText t))) ∧
      (∀ e, r = .error e → s'.budget = s.budget) := by
  unfold stageAllowlistedInput at h
  split at h
  · cases h
    exact ⟨rfl, nofun, fun _ _ => rfl⟩
  rename_i input hi
  split at h
  · cases h
    exact ⟨rfl, nofun, fun _ _ => rfl⟩
  rename_i name hname
  split at h
  · cases h
    exact ⟨rfl, nofun, fun _ _ => rfl⟩
  simp only at h
  split at h
  · cases h
    exact ⟨rfl, nofun, fun _ _ => rfl⟩
  split at h
  · cases h
    exact ⟨rfl, fun _ _ => charge_of_input hi, nofun⟩
  · rename_i htext
    -- the path of the copy is text: the root is, and the name was cut from the request's text
    obtain ⟨-, -, -, hn, -⟩ := Allowlist.openInput_ok hi
    have hp := names_ofText hn name (List.mem_of_getLast? hname)
    obtain ⟨u, hu⟩ := @textOf_textual (root ++
        [.text ("upload-" ++ toString (s.budget.fileCount + 1))] ++ [name]) (by
      intro n hn
      simp only [List.mem_append, List.mem_singleton] at hn
      rcases hn with (hn | rfl) | rfl
      · exact hroot n hn
      · exact ⟨_, rfl⟩
      · exact hp)
    rw [hu] at htext
    cases htext

theorem prepare_budget {a : Allowlist} {s s' : FileGuardState} {d : Disk} {x : Supplies} {p : Path}
    {r : Except GuardError (String × String)} (h : prepareAllowlistedOutput a s d x p = (r, s')) :
    s'.budget = s.budget := by
  unfold prepareAllowlistedOutput at h
  split at h
  · cases h; rfl
  split at h
  · cases h; rfl
  split at h
  · cases h; rfl
  simp only at h
  split at h
  · cases h; rfl
  · cases h; rfl

theorem install_budget {a : Allowlist} {s s' : FileGuardState} {d d' : Disk} {x : Supplies} {p : Path}
    {v : ValidatedOutputPath} {r : Except GuardError Unit}
    (h : installStaged a s d x p v = (r, s', d')) :
    s'.downloads = s.downloads ∧
      (∀ u, r = .ok u → Charge a s.budget s'.budget (fileSize d p)) ∧
      (∀ e, r = .error e → s'.budget = s.budget) := by
  unfold installStaged at h
  split at h
  · cases h
    exact ⟨rfl, nofun, fun _ _ => rfl⟩
  rename_i input hi
  split at h
  · cases h
    exact ⟨rfl, nofun, fun _ _ => rfl⟩
  split at h
  · cases h
    exact ⟨rfl, nofun, fun _ _ => rfl⟩
  · cases h
    exact ⟨rfl, fun _ _ => charge_of_input hi, nofun⟩

/-- Every destination can be named in a response. -/
def TextualDestinations (s : FileGuardState) : Prop :=
  ∀ t ∈ s.downloads, Textual t.2.destination.path

/-- A commit is charged exactly where it succeeds. -/
theorem commit_budget {a : Allowlist} {s s' : FileGuardState} (hs : TextualDestinations s)
    {d d' : Disk} {x : Supplies} {p : Path} {token : String} {r : Except GuardError String}
    (h : commitAllowlistedOutput a s d x p token = (r, s', d')) :
    (s'.downloads = s.downloads ∨ s'.downloads = removeToken token s.downloads) ∧
      (∀ u, r = .ok u → Charge a s.budget s'.budget (fileSize d p)) ∧
      (∀ e, r = .error e → s'.budget = s.budget) := by
  unfold commitAllowlistedOutput at h
  split at h
  · cases h
    exact ⟨.inl rfl, nofun, fun _ _ => rfl⟩
  rename_i prepared hl
  simp only at h
  split at h
  · cases h
    exact ⟨.inr rfl, nofun, fun _ _ => rfl⟩
  rcases hi : installStaged a { s with downloads := removeToken token s.downloads } d x p
    prepared.destination with ⟨result, s1, d1⟩
  obtain ⟨hdown, hb⟩ := install_budget hi
  rw [hi] at h
  simp only at h
  split at h
  · cases h
    exact ⟨.inr hdown, nofun, fun _ _ => hb.2 _ rfl⟩
  split at h
  · cases h
    exact ⟨.inr hdown, fun _ _ => hb.1 _ rfl, nofun⟩
  · rename_i htext
    obtain ⟨l, r, he, -⟩ := List.lookup_eq_some_iff.mp hl
    have hmem : (token, prepared) ∈ s.downloads := by simp [he]
    obtain ⟨u, hu⟩ := textOf_textual (hs _ hmem)
    rw [hu] at htext
    cases htext

theorem prepare_downloads {a : Allowlist} {s s' : FileGuardState} {d : Disk} {x : Supplies} {t : String}
    {r : Except GuardError (String × String)} (hs : TextualDestinations s)
    (h : prepareAllowlistedOutput a s d x (.ofText t) = (r, s')) :
    TextualDestinations s' ∧ (s'.downloads.length ≤ a.limits.maxFileCount ∨
      s'.downloads = s.downloads) := by
  unfold prepareAllowlistedOutput at h
  split at h
  · cases h
    exact ⟨hs, .inr rfl⟩
  split at h
  · cases h
    exact ⟨hs, .inr rfl⟩
  rename_i v hv
  obtain ⟨hcount, hpath, ⟨parent, hparent, hnames⟩, hname, -⟩ := Allowlist.validateOutput_ok hv
  have htext : Textual v.path := by
    intro n hn
    rw [hpath] at hn
    rcases List.mem_append.mp hn with hn | hn
    · exact parts_textual _ _ n (mem_of_parent hparent (mem_names hnames hn))
    · rw [List.mem_singleton.mp hn]
      exact parts_textual _ _ _ (mem_of_fileName hname)
  split at h
  · cases h
    exact ⟨hs, .inr rfl⟩
  rename_i stagingPath hst
  have hnew : TextualDestinations
      { s with downloads := (x.opaqueId, ⟨stagingPath, v⟩) :: s.downloads } := by
    intro t ht
    rcases List.mem_cons.mp ht with rfl | ht
    · exact htext
    · exact hs t ht
  have hlen : s.downloads.length + 1 ≤ a.limits.maxFileCount := by omega
  simp only at h
  split at h
  · cases h
    exact ⟨hnew, .inl hlen⟩
  · cases h
    exact ⟨hnew, .inl hlen⟩

theorem TextualDestinations.sub {s s' : FileGuardState} (h : TextualDestinations s)
    (hd : ∀ t ∈ s'.downloads, t ∈ s.downloads) : TextualDestinations s' :=
  fun t ht => h t (hd t ht)

/-- Only an upload or a commit is charged, where it succeeds. -/
theorem handle_budget {a : Allowlist} {root : List Name} (hroot : Textual root)
    {s s' : FileGuardState} (hs : TextualDestinations s) {d d' : Disk} {x : Supplies}
    {q : FileGuardRequest} {r : Answer} (h : handleRequest a root s d x q = (r, s', d')) :
    TextualDestinations s' ∧
      (s'.downloads.length ≤ s.downloads.length ∨ s'.downloads.length ≤ a.limits.maxFileCount) ∧
      (∀ t, r = some (t, none) → Charge a s.budget s'.budget (fileSize d (.ofText q.path))) ∧
      ((∀ t, r ≠ some (t, none)) → s'.budget = s.budget) := by
  unfold handleRequest at h
  split at h
  · cases h
    exact ⟨hs, .inl (Nat.le_refl _), nofun, fun _ => rfl⟩
  split at h
  · rcases hst : stageAllowlistedInput a root s d x (.ofText q.path) with ⟨res, s1, d1⟩
    rw [hst] at h
    cases h
    obtain ⟨hdown, hok, herr⟩ := stage_budget hroot hst
    refine ⟨hs.sub (by rw [hdown]; exact fun _ h => h), .inl (by rw [hdown]), ?_, ?_⟩
    · intro t ht
      cases res with
      | error e => simp [Except.toOption] at ht
      | ok u => exact hok u rfl
    · intro hne
      cases res with
      | error e => exact herr e rfl
      | ok u => exact absurd rfl (hne u)
  split at h
  · rcases hp : prepareAllowlistedOutput a s d x (.ofText q.path) with ⟨res, s1⟩
    rw [hp] at h
    cases h
    obtain ⟨htext, hlen⟩ := prepare_downloads hs hp
    refine ⟨htext, ?_, ?_, fun _ => prepare_budget hp⟩
    · rcases hlen with hlen | hlen
      · exact .inr hlen
      · exact .inl (by rw [hlen])
    · intro t ht
      cases res with
      | error e => simp [Except.toOption] at ht
      | ok u => simp [Except.toOption] at ht
  split at h
  · rcases hc : commitAllowlistedOutput a s d x (.ofText q.path) (q.token.getD "") with ⟨res, s1, d1⟩
    rw [hc] at h
    cases h
    obtain ⟨hdown, hok, herr⟩ := commit_budget hs hc
    have hsub : ∀ t ∈ s'.downloads, t ∈ s.downloads := by
      intro t ht
      rcases hdown with hd | hd
      · rwa [hd] at ht
      · rw [hd] at ht
        exact (List.mem_filter.mp ht).1
    refine ⟨hs.sub hsub, .inl ?_, ?_, ?_⟩
    · rcases hdown with hd | hd
      · rw [hd]
      · rw [hd]
        exact List.length_filter_le _ _
    · intro t ht
      cases res with
      | error e => simp [Except.toOption] at ht
      | ok u => exact hok u rfl
    · intro hne
      cases res with
      | error e => exact herr e rfl
      | ok u => exact absurd rfl (hne u)
  · cases h
    exact ⟨hs, .inl (Nat.le_refl _), nofun, fun _ => rfl⟩

/-- What is charged is what has succeeded, within the limits. -/
structure Accounted (a : Allowlist) (w : GuardWorld) : Prop where
  bytes : w.guard.budget.totalBytes = w.charged.sum
  bytes_le : w.guard.budget.totalBytes ≤ a.limits.maxTotalBytes
  count : w.guard.budget.fileCount = w.charged.length
  count_le : w.guard.budget.fileCount ≤ a.limits.maxFileCount
  file_le : ∀ n ∈ w.charged, n ≤ a.limits.maxFileBytes

structure BudgetInv (a : Allowlist) (w : GuardWorld) : Prop extends Accounted a w where
  textual : TextualDestinations w.guard
  downloads : w.guard.downloads.length ≤ a.limits.maxFileCount

theorem BudgetInv.step {a : Allowlist} {root : List Name} (hroot : Textual root) {w w' : GuardWorld}
    {e : GuardEvent} (h : BudgetInv a w) (hs : GuardStep a root w e w') : BudgetInv a w' := by
  cases hs with
  | @request q x _ _ =>
    rcases hr : handleRequest a root w.guard w.disk x q with ⟨r, s', d'⟩
    obtain ⟨htext, hlen, hok, hno⟩ := handle_budget hroot h.textual hr
    have hdown : s'.downloads.length ≤ a.limits.maxFileCount :=
      hlen.elim (fun hl => hl.trans h.downloads) id
    unfold GuardWorld.served
    rw [hr]
    rcases r with _ | ⟨t, _ | u⟩
    · have hb := hno nofun
      exact ⟨⟨by simpa [hb] using h.bytes, by simpa [hb] using h.bytes_le,
        by simpa [hb] using h.count, by simpa [hb] using h.count_le, h.file_le⟩, htext, hdown⟩
    · have hc := hok t rfl
      refine ⟨⟨?_, hc.bytes.2, ?_, hc.count.2, ?_⟩, htext, hdown⟩
      · simp only [List.sum_cons, hc.bytes.1, h.bytes]
        omega
      · simp only [List.length_cons, hc.count.1, h.count]
      · intro n hn
        rcases List.mem_cons.mp hn with rfl | hn
        · exact hc.file
        · exact h.file_le n hn
    · have hb := hno (by intro v hv; cases hv)
      exact ⟨⟨by simpa [hb] using h.bytes, by simpa [hb] using h.bytes_le,
        by simpa [hb] using h.count, by simpa [hb] using h.count_le, h.file_le⟩, htext, hdown⟩
  | create _ _ =>
    exact ⟨⟨h.bytes, h.bytes_le, h.count, h.count_le, h.file_le⟩, h.textual, h.downloads⟩
  | stop => exact ⟨⟨h.bytes, h.bytes_le, h.count, h.count_le, h.file_le⟩, nofun, Nat.zero_le _⟩

theorem budget_inv {a : Allowlist} {root : List Name} (hroot : Textual root) {w : GuardWorld}
    (h : (guardSystem a root).Reachable w) : BudgetInv a w := by
  refine System.invariant (I := BudgetInv a) ?_ (fun _ _ _ hi hs => hi.step hroot hs) h
  rintro _ ⟨d, rfl⟩
  exact ⟨⟨rfl, Nat.zero_le _, rfl, Nat.zero_le _, nofun⟩, nofun, Nat.zero_le _⟩

/-- The next request is charged exactly where it is an upload or a commit that succeeds, and no sum
is cut off. -/
structure ChargedExactly (a : Allowlist) (root : List Name) (w : GuardWorld) (q : FileGuardRequest)
    (x : Supplies) : Prop where
  success : ∀ t, (handleRequest a root w.guard w.disk x q).1 = some (t, none) →
    Charge a w.guard.budget (handleRequest a root w.guard w.disk x q).2.1.budget
      (fileSize w.disk (.ofText q.path))
  failure : (∀ t, (handleRequest a root w.guard w.disk x q).1 ≠ some (t, none)) →
    (handleRequest a root w.guard w.disk x q).2.1.budget = w.guard.budget
  no_overflow : w.guard.budget.fileCount + w.guard.downloads.length < 2 ^ 64

/-- In every state of every run of one guard the charged bytes and files are those of the uploads
and commits that succeeded, within the limits; and so it stays with the next request. -/
theorem budget_accounted {a : Allowlist} {root : List Name} (hroot : Textual root) {w : GuardWorld}
    (h : (guardSystem a root).Reachable w) :
    Accounted a w ∧ ∀ q x, ChargedExactly a root w q x := by
  have hi := budget_inv hroot h
  refine ⟨hi.toAccounted, ?_⟩
  intro q x
  rcases hr : handleRequest a root w.guard w.disk x q with ⟨r, s', d'⟩
  obtain ⟨-, -, hok, hno⟩ := handle_budget hroot hi.textual hr
  refine ⟨by rw [hr]; exact hok, by rw [hr]; exact hno, ?_⟩
  have hcount := a.limits_valid.count_le
  have := hi.count_le
  have := hi.downloads
  omega

/-! ## Staged files -/

/-- A download whose staged file the guard can remove. -/
structure Removable (d : Disk) (t : String × PreparedDownload) : Prop where
  opens : t.2.destination.openParent d = .ok ()
  token : stagingName t.1 = .ok (stagingFile t.1)
  staging : t.2.stagingPath = t.2.destination.parentPath ++ [stagingFile t.1]
  target : t.2.destination.path = t.2.destination.parentPath ++ [t.2.destination.fileName]

theorem Removable.grows {d d' : Disk} (hg : d.Grows d') {t : String × PreparedDownload}
    (h : Removable d t) : Removable d' t :=
  ⟨ValidatedOutputPath.openParent_grows hg h.opens, h.token, h.staging, h.target⟩

theorem Removable.remove {d : Disk} {t : String × PreparedDownload} (h : Removable d t) :
    t.2.destination.removeStaging d t.1 = d.unlink t.2.stagingPath := by
  rw [ValidatedOutputPath.removeStaging_of h.opens h.token, h.staging]

/-- A staging path: in a directory that is there, and not a directory itself. -/
structure StagingPlace (d : Disk) (p : List Name) : Prop where
  named : ∃ parent token, p = parent ++ [stagingFile token] ∧ d.isDir parent = true
  file : d.isDir p = false

theorem StagingPlace.grows {d d' : Disk} (hg : d.Grows d') {p : List Name} (h : StagingPlace d p)
    (hp : d'.isDir p = false) : StagingPlace d' p := by
  obtain ⟨parent, token, rfl, hd⟩ := h.named
  exact ⟨⟨parent, token, rfl, hg.isDir hd⟩, hp⟩

theorem upload_ne_staging {root parent : List Name} {token u : String} :
    root ++ [.text ("upload-" ++ u)] ≠ parent ++ [stagingFile token] := by
  intro h
  have hl := List.append_inj_right' h rfl
  have hs := congrArg String.toList (Name.text.inj (List.head_eq_of_cons_eq hl))
  simp at hs

/-- An upload leaves every staging path as it is. -/
theorem stageFile_disk {d d' : Disk} {io : Faults} {inode : Nat × Nat} {root : List Name} {u : String}
    {name : Name} {bytes : Bytes} {r : Except GuardError Unit}
    (h : stageFile d io inode (root ++ [.text ("upload-" ++ u)]) name bytes = (r, d')) :
    d.Grows d' ∧ ∀ p, StagingPlace d p → d' p = d p := by
  unfold stageFile at h
  split at h
  · cases h
    exact ⟨.refl d, fun _ _ => rfl⟩
  rename_i hc
  simp only [not_or] at hc
  obtain ⟨-, hnone, hchain⟩ := hc
  have hdir : d (root ++ [.text ("upload-" ++ u)]) = none := by
    have hroot : d.chain [] root = true := by simpa using hchain
    simpa [Disk.lstat, hroot] using hnone
  generalize hD : root ++ [.text ("upload-" ++ u)] = D at *
  have hD1 : d.Grows (d.set D (newDirectory inode)) := .set _ (by simp [Disk.isDir, hdir])
  have hne : ∀ p, StagingPlace d p → p ≠ D ∧ p ≠ D ++ [name] := by
    intro p hp
    obtain ⟨parent, token, rfl, hparent⟩ := hp.named
    constructor
    · rw [← hD]
      exact fun he => upload_ne_staging he.symm
    · intro he
      have : parent = D := List.append_inj_left' he rfl
      rw [this] at hparent
      simp [Disk.isDir, hdir] at hparent
  simp only at h
  split at h
  · cases h
    exact ⟨hD1, fun p hp => Disk.set_of_ne _ _ (hne p hp).1⟩
  · rename_i hcreate
    cases h
    have hfree : (d.set D (newDirectory inode)).isDir (D ++ [name]) = false := by
      simp only [not_or, Bool.not_eq_true, Option.isSome_eq_false_iff, Option.isNone_iff_eq_none]
        at hcreate
      simp [Disk.isDir, hcreate.2]
    refine ⟨hD1.trans (.set _ hfree), ?_⟩
    intro p hp
    rw [Disk.set_of_ne _ _ (hne p hp).2, Disk.set_of_ne _ _ (hne p hp).1]

/-- What the guard and the disk keep: a staged file belongs to a download that is still prepared. -/
structure StagingInv (w : GuardWorld) : Prop where
  removable : ∀ t ∈ w.guard.downloads, Removable w.disk t
  tokens : (w.guard.downloads.map Prod.fst).Nodup
  place : ∀ p ∈ w.handed, StagingPlace w.disk p
  tracked : ∀ p ∈ w.handed, w.disk p ≠ none → ∃ t ∈ w.guard.downloads, t.2.stagingPath = p

/-- The download's path is named, or nothing was staged; and what is installed is not an earlier
download's staging path. -/
structure OrderlyCommit (w : GuardWorld) (staged : Path) (token : String) (prepared : PreparedDownload) :
    Prop where
  named : (Path.ofNames prepared.stagingPath).same staged = true ∨ w.disk prepared.stagingPath = none
  target : prepared.destination.path ∈ w.handed →
    prepared.destination.path = prepared.stagingPath ∨
      ∃ t ∈ removeToken token w.guard.downloads, t.2.stagingPath = prepared.destination.path

def FileGuardRequest.Commits (q : FileGuardRequest) : Prop :=
  (q.path ≠ "" ∧ (utf8 q.path).length ≤ 4096) ∧ q.operation = "commit_download"

/-- A commit names the path it was handed, files appear at a staging path only while its download is
prepared, and no directory has the name of an id not drawn yet. -/
def Orderly (w : GuardWorld) : GuardEvent → Prop
  | .request q x =>
    (∀ parent, w.disk.isDir (parent ++ [stagingFile x.opaqueId]) = false) ∧
      (q.Commits → ∀ prepared, w.guard.downloads.lookup (q.token.getD "") = some prepared →
        OrderlyCommit w (.ofText q.path) (q.token.getD "") prepared)
  | .create p _ _ => ∃ t ∈ w.guard.downloads, t.2.stagingPath = p
  | .stop => True

theorem stage_staging {a : Allowlist} {root : List Name} {s s' : FileGuardState} {d d' : Disk}
    {x : Supplies} {p : Path} {r : Except GuardError String}
    (h : stageAllowlistedInput a root s d x p = (r, s', d')) :
    s'.downloads = s.downloads ∧ d.Grows d' ∧ ∀ p, StagingPlace d p → d' p = d p := by
  unfold stageAllowlistedInput at h
  split at h
  · cases h
    exact ⟨rfl, .refl d, fun _ _ => rfl⟩
  split at h
  · cases h
    exact ⟨rfl, .refl d, fun _ _ => rfl⟩
  split at h
  · cases h
    exact ⟨rfl, .refl d, fun _ _ => rfl⟩
  simp only at h
  split at h
  · rename_i hst
    cases h
    exact ⟨rfl, stageFile_disk hst⟩
  · rename_i hst
    split at h
    · cases h
      exact ⟨rfl, stageFile_disk hst⟩
    · cases h
      exact ⟨rfl, stageFile_disk hst⟩

theorem prepare_staging {a : Allowlist} {s s' : FileGuardState} {d : Disk} {x : Supplies} {p : Path}
    {r : Except GuardError (String × String)} (h : prepareAllowlistedOutput a s d x p = (r, s')) :
    (s'.downloads = s.downloads ∧ ∃ e, r = .error e) ∨
      ∃ t, s'.downloads = (x.opaqueId, t) :: s.downloads ∧ Removable d (x.opaqueId, t) := by
  unfold prepareAllowlistedOutput at h
  split at h
  · cases h
    exact .inl ⟨rfl, _, rfl⟩
  split at h
  · cases h
    exact .inl ⟨rfl, _, rfl⟩
  rename_i v hv
  split at h
  · cases h
    exact .inl ⟨rfl, _, rfl⟩
  rename_i stagingPath hst
  have hrem : Removable d (x.opaqueId, ⟨stagingPath, v⟩) := by
    obtain ⟨-, hpath, -, -, n, ho, hid⟩ := Allowlist.validateOutput_ok hv
    obtain ⟨name, hname, hst⟩ := bind_ok hst
    cases hst
    have hn := stagingName_ok hname
    subst hn
    refine ⟨ValidatedOutputPath.openParent_of ho hid, hname, ?_, hpath⟩
    simp only [hpath, List.dropLast_concat]
    rfl
  simp only at h
  split at h
  · cases h
    exact .inr ⟨_, rfl, hrem⟩
  · cases h
    exact .inr ⟨_, rfl, hrem⟩

theorem install_disk {a : Allowlist} {s s' : FileGuardState} {d d' : Disk} {x : Supplies} {p : Path}
    {v : ValidatedOutputPath} {r : Except GuardError Unit}
    (h : installStaged a s d x p v = (r, s', d')) :
    s'.downloads = s.downloads ∧
      (d' = d ∨ (d.isDir (v.parentPath ++ [v.fileName]) = false ∧
        ∃ n, n.kind = .regular ∧ d' = d.set (v.parentPath ++ [v.fileName]) n)) := by
  unfold installStaged at h
  split at h
  · cases h
    exact ⟨rfl, .inl rfl⟩
  split at h
  · cases h
    exact ⟨rfl, .inl rfl⟩
  split at h
  · rename_i hr
    cases h
    exact ⟨rfl, ValidatedOutputPath.replaceAtomically_disk hr⟩
  · rename_i hr
    cases h
    exact ⟨rfl, ValidatedOutputPath.replaceAtomically_disk hr⟩

/-- What an upload, or a refused request, does. -/
theorem StagingInv.quiet {w : GuardWorld} (h : StagingInv w) {s' : FileGuardState} {d' : Disk}
    {charged : List Nat} (hdown : s'.downloads = w.guard.downloads) (hg : w.disk.Grows d')
    (hd : ∀ p, StagingPlace w.disk p → d' p = w.disk p) :
    StagingInv { w with guard := s', disk := d', charged } := by
  refine ⟨?_, by simpa only [hdown] using h.tokens, ?_, ?_⟩
  · intro t ht
    exact (h.removable t (hdown ▸ ht)).grows hg
  · intro p hp
    have hplace := h.place p hp
    exact hplace.grows hg ((Disk.isDir_eq_of_eq (hd p hplace)).trans hplace.file)
  · intro p hp hne
    simp only [hdown]
    exact h.tracked p hp (by rwa [← hd p (h.place p hp)])

theorem StagingInv.prepared {w : GuardWorld} (h : StagingInv w) {s' : FileGuardState}
    {token : String} {t : PreparedDownload} {handed : List (List Name)}
    (hdown : s'.downloads = (token, t) :: w.guard.downloads) (hrem : Removable w.disk (token, t))
    (hnew : token ∉ w.guard.downloads.map Prod.fst)
    (hfile : ∀ parent, w.disk.isDir (parent ++ [stagingFile token]) = false)
    (hh : ∀ p ∈ handed, p = t.stagingPath ∨ p ∈ w.handed) {charged : List Nat} :
    StagingInv { w with guard := s', handed, charged } := by
  refine ⟨?_, ?_, ?_, ?_⟩
  · intro u hu
    rw [hdown] at hu
    rcases List.mem_cons.mp hu with rfl | hu
    · exact hrem
    · exact h.removable u hu
  · simp only [hdown, List.map_cons, List.nodup_cons]
    exact ⟨hnew, h.tokens⟩
  · intro p hp
    rcases hh p hp with rfl | hp
    · have hs : t.stagingPath = t.destination.parentPath ++ [stagingFile token] := hrem.staging
      rw [hs]
      exact ⟨⟨_, token, rfl, ValidatedOutputPath.isDir_parentPath hrem.opens⟩, hfile _⟩
    · exact h.place p hp
  · intro p hp hne
    rcases hh p hp with rfl | hp
    · exact ⟨(token, t), by simp [hdown], rfl⟩
    · obtain ⟨u, hu, hs⟩ := h.tracked p hp hne
      exact ⟨u, by simp [hdown, hu], hs⟩

theorem mem_removeToken {token : String} {downloads : List (String × PreparedDownload)}
    {t : String × PreparedDownload} : t ∈ removeToken token downloads ↔ t ∈ downloads ∧ t.1 ≠ token := by
  simp [removeToken]

/-- A commit that names another path, with nothing staged. -/
theorem StagingInv.dropped {w : GuardWorld} (h : StagingInv w) {token : String}
    {prepared : PreparedDownload} (hm : (token, prepared) ∈ w.guard.downloads)
    (hnone : w.disk prepared.stagingPath = none) {s' : FileGuardState}
    (hdown : s'.downloads = removeToken token w.guard.downloads) {charged : List Nat} :
    StagingInv { w with guard := s', charged } := by
  refine ⟨?_, ?_, h.place, ?_⟩
  · intro t ht
    rw [hdown] at ht
    exact h.removable t (mem_removeToken.mp ht).1
  · simp only [hdown]
    exact h.tokens.sublist (List.filter_sublist.map _)
  · intro p hp hne
    obtain ⟨t, ht, rfl⟩ := h.tracked p hp hne
    refine ⟨t, ?_, rfl⟩
    rw [hdown, mem_removeToken]
    refine ⟨ht, ?_⟩
    intro he
    have hmt : t = (token, prepared) :=
      List.inj_on_of_nodup_map h.tokens ht hm he
    rw [hmt] at hne
    exact hne hnone

/-- A commit that names its path: whatever comes of it, the staged file is gone. -/
theorem StagingInv.committed {w : GuardWorld} (h : StagingInv w) {token : String}
    {prepared : PreparedDownload} (hm : (token, prepared) ∈ w.guard.downloads)
    {d1 : Disk} (hd1 : d1 = w.disk ∨
      (w.disk.isDir prepared.destination.path = false ∧
        ∃ n, n.kind = .regular ∧ d1 = w.disk.set prepared.destination.path n))
    (htarget : prepared.destination.path ∈ w.handed →
      prepared.destination.path = prepared.stagingPath ∨
        ∃ t ∈ removeToken token w.guard.downloads, t.2.stagingPath = prepared.destination.path)
    {s' : FileGuardState} (hdown : s'.downloads = removeToken token w.guard.downloads)
    {charged : List Nat} :
    StagingInv { w with guard := s', disk := d1.unlink prepared.stagingPath, charged } := by
  have hg1 : w.disk.Grows d1 := by
    rcases hd1 with rfl | ⟨hdir, n, -, rfl⟩
    · exact .refl _
    · exact .set n hdir
  have hg : w.disk.Grows (d1.unlink prepared.stagingPath) := hg1.trans (.unlink _ _)
  have hdir1 : ∀ p, StagingPlace w.disk p → d1.isDir p = false := by
    intro p hp
    rcases hd1 with rfl | ⟨-, n, hn, rfl⟩
    · exact hp.file
    · by_cases he : p = prepared.destination.path
      · simp [Disk.isDir, he, hn]
      · rw [Disk.isDir_eq_of_eq (Disk.set_of_ne _ n he)]
        exact hp.file
  have hdir2 : ∀ p, StagingPlace w.disk p → (d1.unlink prepared.stagingPath).isDir p = false := by
    intro p hp
    by_cases he : p = prepared.stagingPath
    · subst he
      simp [Disk.isDir, Disk.unlink_self (hdir1 _ hp)]
    · rw [Disk.isDir_eq_of_eq (Disk.unlink_of_ne _ he)]
      exact hdir1 p hp
  refine ⟨?_, ?_, ?_, ?_⟩
  · intro t ht
    rw [hdown] at ht
    exact (h.removable t (mem_removeToken.mp ht).1).grows hg
  · simp only [hdown]
    exact h.tokens.sublist (List.filter_sublist.map _)
  · intro p hp
    exact (h.place p hp).grows hg (hdir2 p (h.place p hp))
  · intro p hp hne
    -- what is at `p` is not the staged file, which is gone
    have hps : p ≠ prepared.stagingPath := by
      rintro rfl
      exact hne (Disk.unlink_self (hdir1 _ (h.place _ hp)))
    simp only [hdown]
    change d1.unlink prepared.stagingPath p ≠ none at hne
    rw [Disk.unlink_of_ne _ hps] at hne
    by_cases hpt : p = prepared.destination.path
    · subst hpt
      exact (htarget hp).resolve_left hps
    · have hne' : w.disk p ≠ none := by
        rcases hd1 with rfl | ⟨-, n, -, rfl⟩
        · exact hne
        · rwa [Disk.set_of_ne _ n hpt] at hne
      obtain ⟨t, ht, rfl⟩ := h.tracked p hp hne'
      refine ⟨t, mem_removeToken.mpr ⟨ht, ?_⟩, rfl⟩
      intro he
      have hmt : t = (token, prepared) := List.inj_on_of_nodup_map h.tokens ht hm he
      rw [hmt] at hps
      exact hps rfl

theorem StagingInv.commit {w : GuardWorld} (h : StagingInv w) {a : Allowlist} {x : Supplies} {p : Path}
    {token : String} {r : Except GuardError String} {s' : FileGuardState} {d' : Disk}
    (hc : commitAllowlistedOutput a w.guard w.disk x p token = (r, s', d'))
    (hok : ∀ prepared, w.guard.downloads.lookup token = some prepared →
      OrderlyCommit w p token prepared) {charged : List Nat} :
    StagingInv { w with guard := s', disk := d', charged } := by
  unfold commitAllowlistedOutput at hc
  split at hc
  · cases hc
    exact h.quiet rfl (.refl _) fun _ _ => rfl
  rename_i prepared hl
  have ho := hok prepared hl
  have hm : (token, prepared) ∈ w.guard.downloads := by
    obtain ⟨l, r, he, -⟩ := List.lookup_eq_some_iff.mp hl
    simp [he]
  simp only at hc
  split at hc
  · rename_i hsame
    cases hc
    exact h.dropped hm (ho.named.resolve_left (by simp [hsame])) rfl
  rcases hi : installStaged a { w.guard with downloads := removeToken token w.guard.downloads }
    w.disk x p prepared.destination with ⟨result, s1, d1⟩
  obtain ⟨hdown, hd1⟩ := install_disk hi
  have hrem := h.removable _ hm
  rw [← hrem.target] at hd1
  have hg1 : w.disk.Grows d1 := by
    rcases hd1 with rfl | ⟨hdir, n, -, rfl⟩
    · exact .refl _
    · exact .set n hdir
  have hdisk : prepared.destination.removeStaging d1 token = d1.unlink prepared.stagingPath :=
    (hrem.grows hg1).remove
  rw [hi] at hc
  simp only [hdisk] at hc
  split at hc
  · cases hc
    exact h.committed hm hd1 ho.target hdown
  split at hc
  · cases hc
    exact h.committed hm hd1 ho.target hdown
  · cases hc
    exact h.committed hm hd1 ho.target hdown

theorem removeAll_spec {d : Disk} {downloads : List (String × PreparedDownload)}
    (hrem : ∀ t ∈ downloads, Removable d t) :
    d.Grows (removeAll d downloads) ∧
      ∀ p, d.isDir p = false → removeAll d downloads p ≠ none →
        d p ≠ none ∧ ∀ t ∈ downloads, t.2.stagingPath ≠ p := by
  induction downloads generalizing d with
  | nil => exact ⟨.refl d, fun p _ h => ⟨h, nofun⟩⟩
  | cons t rest ih =>
    obtain ⟨token, download⟩ := t
    have ht : download.destination.removeStaging d token = d.unlink download.stagingPath :=
      (hrem (token, download) List.mem_cons_self).remove
    have hg : d.Grows (d.unlink download.stagingPath) := .unlink _ _
    obtain ⟨hgr, hrest⟩ := ih (d := d.unlink download.stagingPath) fun u hu =>
      (hrem u (List.mem_cons_of_mem _ hu)).grows hg
    unfold removeAll
    rw [ht]
    refine ⟨hg.trans hgr, ?_⟩
    intro p hdir hne
    by_cases he : p = download.stagingPath
    · subst he
      have hself : d.unlink download.stagingPath download.stagingPath = none := Disk.unlink_self hdir
      exact absurd hself (hrest _ (by simp [Disk.isDir, hself]) hne).1
    · have hdir' : (d.unlink download.stagingPath).isDir p = false := by
        rw [Disk.isDir_eq_of_eq (Disk.unlink_of_ne _ he)]
        exact hdir
      obtain ⟨h1, h2⟩ := hrest p hdir' hne
      rw [Disk.unlink_of_ne _ he] at h1
      refine ⟨h1, ?_⟩
      intro u hu
      rcases List.mem_cons.mp hu with rfl | hu
      · exact fun h => he h.symm
      · exact h2 u hu

theorem StagingInv.step {a : Allowlist} {root : List Name} {w w' : GuardWorld} {e : GuardEvent}
    (h : StagingInv w) (hs : ((guardSystem a root).restrict Orderly).step w e w') :
    StagingInv w' := by
  obtain ⟨hs, hok⟩ := hs
  cases hs with
  | @request q x _ hfresh =>
    obtain ⟨hunused, hcommit⟩ := hok
    unfold GuardWorld.served handleRequest
    by_cases hlen : q.path = "" ∨ 4096 < (utf8 q.path).length
    · rw [if_pos hlen]
      exact h.quiet rfl (.refl _) fun _ _ => rfl
    rw [if_neg hlen]
    by_cases hup : q.operation = "upload"
    · rw [if_pos hup]
      rcases hst : stageAllowlistedInput a root w.guard w.disk x (.ofText q.path) with ⟨r, s', d'⟩
      obtain ⟨hdown, hg, hd⟩ := stage_staging hst
      cases r with
      | error e => exact h.quiet hdown hg hd
      | ok t => exact h.quiet hdown hg hd
    rw [if_neg hup]
    by_cases hprep : q.operation = "prepare_download" ∧ q.token = none
    · rw [if_pos hprep]
      rcases hp : prepareAllowlistedOutput a w.guard w.disk x (.ofText q.path) with ⟨r, s'⟩
      rcases prepare_staging hp with ⟨hdown, e, rfl⟩ | ⟨t, hdown, hrem⟩
      · exact h.quiet hdown (.refl _) fun _ _ => rfl
      · refine h.prepared hdown hrem hfresh hunused ?_
        intro p hp
        cases r with
        | error e => exact .inr hp
        | ok u => simpa [Except.toOption, hdown] using hp
    rw [if_neg hprep]
    by_cases hc : q.operation = "commit_download"
    · rw [if_pos hc]
      rcases hcm : commitAllowlistedOutput a w.guard w.disk x (.ofText q.path) (q.token.getD "")
        with ⟨r, s', d'⟩
      have hcommits : q.Commits := by
        simp only [not_or, not_lt] at hlen
        exact ⟨hlen, hc⟩
      cases r with
      | error e => exact h.commit hcm (hcommit hcommits)
      | ok t => exact h.commit hcm (hcommit hcommits)
    · rw [if_neg hc]
      exact h.quiet rfl (.refl _) fun _ _ => rfl
  | @create p inode bytes hp hdir =>
    have hg : w.disk.Grows (w.disk.set p (newFile inode bytes)) := .set _ hdir
    refine ⟨fun t ht => (h.removable t ht).grows hg, h.tokens, ?_, ?_⟩
    · intro r hr
      refine (h.place r hr).grows hg ?_
      by_cases he : r = p
      · simp [Disk.isDir, he, newFile]
      · rw [Disk.isDir_eq_of_eq (Disk.set_of_ne _ _ he)]
        exact (h.place r hr).file
    · intro r hr hne
      by_cases he : r = p
      · subst he
        exact hok
      · change w.disk.set p (newFile inode bytes) r ≠ none at hne
        rw [Disk.set_of_ne _ _ he] at hne
        exact h.tracked r hr hne
  | stop =>
    obtain ⟨hg, hgone⟩ := removeAll_spec h.removable
    have habsent : ∀ p ∈ w.handed, removeAll w.disk w.guard.downloads p = none := by
      intro p hp
      by_contra hne
      obtain ⟨h1, h2⟩ := hgone p (h.place p hp).file hne
      obtain ⟨t, ht, hs⟩ := h.tracked p hp h1
      exact h2 t ht hs
    refine ⟨nofun, List.nodup_nil, ?_, ?_⟩
    · intro p hp
      exact (h.place p hp).grows hg (by simp [Disk.isDir, habsent p hp])
    · intro p hp hne
      exact absurd (habsent p hp) hne

theorem staging_inv {a : Allowlist} {root : List Name} {w : GuardWorld}
    (h : ((guardSystem a root).restrict Orderly).Reachable w) : StagingInv w := by
  refine System.invariant (I := StagingInv) ?_ (fun _ _ _ hi hs => hi.step hs) h
  rintro _ ⟨d, rfl⟩
  exact ⟨nofun, List.nodup_nil, nofun, nofun⟩

theorem stopped_downloads {a : Allowlist} {root : List Name} {w : GuardWorld}
    (h : (guardSystem a root).Reachable w) (hs : w.stopped = true) : w.guard.downloads = [] := by
  refine System.invariant (I := fun w => w.stopped = true → w.guard.downloads = []) ?_ ?_ h hs
  · rintro _ ⟨d, rfl⟩
    exact nofun
  · intro w e w' hi hst hs
    cases hst with
    | @request q x hrun _ =>
      have : (w.served a root q x).stopped = w.stopped := rfl
      rw [this, hrun] at hs
      cases hs
    | create _ _ => exact hi hs
    | stop => rfl

/-- In every run whose requests and files are orderly, what is at a staging path handed out belongs to
a download that is still prepared; so nothing is at one once the guard has stopped. -/
theorem staging_removed {a : Allowlist} {root : List Name} {w : GuardWorld}
    (h : ((guardSystem a root).restrict Orderly).Reachable w) :
    (∀ p ∈ w.handed, w.disk p ≠ none → ∃ t ∈ w.guard.downloads, t.2.stagingPath = p) ∧
      (w.stopped = true → ∀ p ∈ w.handed, w.disk p = none) := by
  have hi := staging_inv h
  refine ⟨hi.tracked, ?_⟩
  intro hs p hp
  by_contra hne
  obtain ⟨t, ht, -⟩ := hi.tracked p hp hne
  rw [stopped_downloads h.of_restrict hs] at ht
  exact absurd ht List.not_mem_nil

/-! ## Two runs -/

/-- A root `/w` with one file in it, and the staging root `/s`. -/
def sampleDisk : Disk := fun p =>
  if p = [] then some (newDirectory (1, 1))
  else if p = [.text "w"] then some (newDirectory (1, 2))
  else if p = [.text "w", .text "a"] then some (newFile (1, 3) [1, 2, 3])
  else if p = [.text "s"] then some (newDirectory (1, 4))
  else none

def sampleAllowlist : Allowlist :=
  ⟨[([.text "w"], (1, 2))], .default, AllowlistLimits.default_valid⟩

def sampleSupplies (opaqueId : String) : Supplies := ⟨fun _ => false, (1, 9), opaqueId⟩

def sampleFileGuard : System GuardEvent GuardWorld := guardSystem sampleAllowlist [.text "s"]

def sampleGuardStart : GuardWorld := { disk := sampleDisk }

def sampleGuardServed (w : GuardWorld) (q : FileGuardRequest) (opaqueId : String) : GuardWorld :=
  w.served sampleAllowlist [.text "s"] q (sampleSupplies opaqueId)

/-- `/w/a` is uploaded, and its three bytes are charged. -/
theorem budget_accounted_upload :
    Accounted sampleAllowlist (sampleGuardServed sampleGuardStart ⟨"upload", "/w/a", none⟩ "t") ∧
      (sampleGuardServed sampleGuardStart ⟨"upload", "/w/a", none⟩ "t").charged = [3] := by
  have h0 : sampleFileGuard.Reachable sampleGuardStart :=
    .start (S := sampleFileGuard) ⟨sampleDisk, rfl⟩
  have h1 := h0.next (.request ⟨"upload", "/w/a", none⟩ (sampleSupplies "t")) (.request rfl (by decide))
  have hroot : Textual [.text "s"] := fun n hn => ⟨"s", List.mem_singleton.mp hn⟩
  exact ⟨(budget_accounted hroot h1).1, rfl⟩

/-- A download to `/w/b` is prepared. -/
def samplePrepared : GuardWorld :=
  sampleGuardServed sampleGuardStart ⟨"prepare_download", "/w/b", none⟩ "t"

def sampleStaging : List Name := [.text "w", stagingFile "t"]

theorem samplePrepared_handed : sampleStaging ∈ samplePrepared.handed := by decide

theorem samplePrepared_download :
    ∃ t ∈ samplePrepared.guard.downloads, t.2.stagingPath = sampleStaging := by
  have h : sampleStaging ∈ samplePrepared.guard.downloads.map (·.2.stagingPath) := by decide
  exact List.mem_map.mp h

/-- The helper writes the file. -/
def sampleCreated : GuardWorld :=
  { samplePrepared with disk := samplePrepared.disk.set sampleStaging (newFile (1, 8) [7]) }

def GuardWorld.halted (w : GuardWorld) : GuardWorld :=
  { w with stopped := true, guard := { w.guard with downloads := [] },
           disk := removeAll w.disk w.guard.downloads }

theorem sampleDisk_unused (parent : List Name) (id : String) :
    sampleDisk.isDir (parent ++ [stagingFile id]) = false := by
  have hne : ∀ (q : List Name) (s : String), s.toList.head? ≠ some '.' →
      parent ++ [stagingFile id] ≠ q ++ [.text s] := by
    intro q s hs he
    have hl := congrArg String.toList (Name.text.inj (List.head_eq_of_cons_eq
      (List.append_inj_right' he rfl)))
    rw [← hl] at hs
    simp at hs
  have h1 := hne [] "w" (by decide)
  have h2 := hne [.text "w"] "a" (by decide)
  have h3 := hne [] "s" (by decide)
  simp only [List.nil_append, List.cons_append] at h1 h2 h3
  simp [Disk.isDir, sampleDisk, h1, h2, h3]

/-- The guard stops with the download still prepared: the staged file is removed. -/
theorem staging_removed_at_stop : sampleCreated.halted.disk sampleStaging = none := by
  have h0 : (sampleFileGuard.restrict Orderly).Reachable sampleGuardStart :=
    .start (S := sampleFileGuard.restrict Orderly) ⟨sampleDisk, rfl⟩
  have h1 : (sampleFileGuard.restrict Orderly).Reachable samplePrepared :=
    h0.next (.request ⟨"prepare_download", "/w/b", none⟩ (sampleSupplies "t"))
      ⟨.request rfl (by decide), fun parent => sampleDisk_unused parent "t", fun hc =>
        absurd hc.2 (by decide)⟩
  have h2 : (sampleFileGuard.restrict Orderly).Reachable sampleCreated :=
    h1.next (.create sampleStaging (1, 8) [7])
      ⟨.create samplePrepared_handed rfl, samplePrepared_download⟩
  have h3 : (sampleFileGuard.restrict Orderly).Reachable sampleCreated.halted :=
    h2.next .stop ⟨.stop, trivial⟩
  exact (staging_removed h3).2 rfl sampleStaging samplePrepared_handed

/-- The token is taken by a commit that names another path. -/
def sampleMismatched : GuardWorld :=
  sampleGuardServed sampleCreated ⟨"commit_download", "/w/c", some "t"⟩ "u"

/-- The staged file is still there after the guard has stopped. -/
theorem mismatched_leaks :
    ¬ ∀ w, sampleFileGuard.Reachable w → w.stopped = true → ∀ p ∈ w.handed, w.disk p = none := by
  intro h
  have h0 : sampleFileGuard.Reachable sampleGuardStart :=
    .start (S := sampleFileGuard) ⟨sampleDisk, rfl⟩
  have h1 : sampleFileGuard.Reachable samplePrepared :=
    h0.next (.request ⟨"prepare_download", "/w/b", none⟩ (sampleSupplies "t"))
      (.request rfl (by decide))
  have h2 : sampleFileGuard.Reachable sampleCreated :=
    h1.next (.create sampleStaging (1, 8) [7]) (.create samplePrepared_handed rfl)
  have h3 : sampleFileGuard.Reachable sampleMismatched :=
    h2.next (.request ⟨"commit_download", "/w/c", some "t"⟩ (sampleSupplies "u"))
      (.request rfl (by decide))
  have h4 : sampleFileGuard.Reachable sampleMismatched.halted := h3.next .stop .stop
  have hhanded : sampleStaging ∈ sampleMismatched.handed := by decide
  exact absurd (h _ h4 rfl sampleStaging hhanded) (by decide)

end Bridge
end EgoBridge
