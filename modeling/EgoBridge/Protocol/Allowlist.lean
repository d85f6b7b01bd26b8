import EgoBridge.Lib.Files
import EgoBridge.Protocol.Types

/-!
# Protocol.Allowlist

Files a helper may read and write: below a root the user confirmed, no links on the way, within
limits on their number and bytes.

A `Disk` is what the file system holds while one operation runs. `Fault` are the places where the
operating system may still refuse, or where a file may turn out to have changed meanwhile.

* `openInput_ok`      — what an accepted input is.
* `removeStaging_of`  — a staged file goes where its directory is still there.
-/

namespace EgoBridge
namespace Protocol

open Files

def MAX_ALLOWLISTED_FILE_BYTES : Nat := 64 * 1024 * 1024
def MAX_ALLOWLISTED_TOTAL_BYTES : Nat := 256 * 1024 * 1024
def MAX_ALLOWLISTED_FILE_COUNT : Nat := 32

/-- `saturating_add` on 64-bit sizes and counts. -/
def saturatingAdd64 (a b : Nat) : Nat := min (a + b) (2 ^ 64 - 1)

structure AllowlistLimits where
  maxFileBytes : Nat
  maxTotalBytes : Nat
  maxFileCount : Nat
  deriving DecidableEq

/-- What `Allowlist::new` asks of the limits. -/
structure AllowlistLimits.Valid (l : AllowlistLimits) : Prop where
  fileBytes : 0 < l.maxFileBytes ∧ l.maxFileBytes ≤ MAX_ALLOWLISTED_FILE_BYTES
  totalBytes : 0 < l.maxTotalBytes ∧ l.maxTotalBytes ≤ MAX_ALLOWLISTED_TOTAL_BYTES
  fileCount : 0 < l.maxFileCount ∧ l.maxFileCount ≤ MAX_ALLOWLISTED_FILE_COUNT

/-- `AllowlistLimits::default`. -/
def AllowlistLimits.default : AllowlistLimits :=
  ⟨MAX_ALLOWLISTED_FILE_BYTES, MAX_ALLOWLISTED_TOTAL_BYTES, MAX_ALLOWLISTED_FILE_COUNT⟩

theorem AllowlistLimits.default_valid : AllowlistLimits.default.Valid := by
  constructor <;> decide

/-- Canonical roots with the identities they had, and the limits. -/
structure Allowlist where
  roots : List (List Name × (Nat × Nat))
  limits : AllowlistLimits
  limits_valid : limits.Valid

inductive AllowlistError where
  | empty
  | invalidRevision
  | invalidLimits
  | invalidPath
  | outsideRoot
  | parentMissing
  | symlink
  | hardLink
  | nonRegular
  | fileTooLarge
  | totalTooLarge
  | fileCountTooLarge
  | changedDuringOpen
  | io
  deriving DecidableEq

/-- Where an operation may fail besides its own checks. -/
inductive Fault where
  | canonicalize
  | inspect
  | openFile
  | openParent
  | changed
  | read
  | temporary
  | write
  | rename
  | reopen
  | createDirectory
  | createFile
  deriving DecidableEq

abbrev Faults := Fault → Bool

/-! ## File system operations -/

def rejectPathComponents (d : Disk) (p : Path) : Except AllowlistError (List Name) :=
  if p.absolute = false then .error .invalidPath
  else
    match p.names? with
    | none => .error .invalidPath
    | some names =>
      if (List.range names.length).any fun k =>
          (d.lstat (names.take (k + 1))).any (·.kind = .symlink) then
        .error .symlink
      else .ok names

/-- `fs::canonicalize`, of a path without symbolic links. -/
def canonicalize (d : Disk) (io : Faults) (p : Path) (names : List Name) :
    Except AllowlistError (List Name) :=
  match d.lstat names with
  | none => .error .io
  | some n =>
    if io .canonicalize ∨ (p.trailing ∧ n.kind ≠ .directory) then .error .io else .ok names

def canonicalExistingDirectory (d : Disk) (io : Faults) (p : Path) :
    Except AllowlistError (List Name) := do
  let names ← rejectPathComponents d p
  match d.lstat names with
  | none => .error .parentMissing
  | some n => if n.kind ≠ .directory then .error .nonRegular else canonicalize d io p names

/-- The directory at `root ++ rel`, where `root` is still the one it was. -/
def openBeneathDirectory (d : Disk) (root : List Name) (rootIdentity : Nat × Nat)
    (rel : List Name) : Except AllowlistError Node :=
  match d.lstat root with
  | none => .error .io
  | some n =>
    if n.kind ≠ .directory then .error .io
    else if n.identity ≠ rootIdentity then .error .changedDuringOpen
    else if d.chain root rel then
      match d (root ++ rel) with
      | none => .error .io
      | some m => .ok m
    else .error .io

def openBeneath (d : Disk) (io : Faults) (root : List Name) (rootIdentity : Nat × Nat)
    (rel : List Name) : Except AllowlistError Node := do
  let _ ← openBeneathDirectory d root rootIdentity rel.dropLast
  if rel = [] then .error .invalidPath
  else
    match d (root ++ rel) with
    | none => .error .io
    | some n =>
      if n.kind = .symlink then .error .symlink else if io .openFile then .error .io else .ok n

def validateRegularFile (n : Node) : Except AllowlistError Unit :=
  if n.kind ≠ .regular then .error .nonRegular
  else if n.links ≠ 1 then .error .hardLink
  else if n.owned = false then .error .nonRegular
  else .ok ()

/-! ## Tokens -/

def validateOperationToken (token : String) : Bool :=
  token ≠ "" ∧ (utf8 token).length ≤ 128 ∧
    token.toList.all fun c => c.isAlphanum || c = '-' || c = '_'

def stagingName (token : String) : Except AllowlistError Name :=
  if validateOperationToken token then
    .ok (.text (".agent-remote-download-" ++ token ++ ".incoming"))
  else .error .invalidPath

/-! ## Checks against the roots and the limits -/

structure ValidatedInputFile where
  path : List Name
  sizeBytes : Nat
  bytes : Bytes

structure ValidatedOutputPath where
  path : List Name
  targetIdentity : Option (Nat × Nat)
  rootPath : List Name
  rootIdentity : Nat × Nat
  relativeParent : List Name
  parentIdentity : Nat × Nat
  fileName : Name

namespace Allowlist

def checkRequestBudget (a : Allowlist) (total count : Nat) : Except AllowlistError Unit :=
  if a.limits.maxFileCount ≤ count then .error .fileCountTooLarge
  else if a.limits.maxTotalBytes < total then .error .totalTooLarge
  else .ok ()

def inRoot (a : Allowlist) (names : List Name) : Bool := a.roots.any fun r => r.1.isPrefixOf names

/-- The longer of two roots, the later one of two alike. -/
def longer (best : Option (List Name × (Nat × Nat))) (r : List Name × (Nat × Nat)) :
    Option (List Name × (Nat × Nat)) :=
  match best with
  | none => some r
  | some b => if b.1.length ≤ r.1.length then some r else some b

/-- The longest root above `names`, and the rest of `names`. -/
def relativeToRoot (a : Allowlist) (names : List Name) :
    Except AllowlistError (List Name × (Nat × Nat) × List Name) :=
  match (a.roots.filter fun r => r.1.isPrefixOf names).foldl longer none with
  | none => .error .outsideRoot
  | some r => .ok (r.1, r.2, names.drop r.1.length)

def canonicalTarget (a : Allowlist) (d : Disk) (io : Faults) (p : Path) :
    Except AllowlistError (List Name) := do
  let names ← rejectPathComponents d p
  let canonical ← canonicalize d io p names
  if a.inRoot canonical then .ok canonical else .error .outsideRoot

def openInput (a : Allowlist) (d : Disk) (io : Faults) (p : Path) (requestTotal requestCount : Nat) :
    Except AllowlistError ValidatedInputFile := do
  a.checkRequestBudget requestTotal requestCount
  let canonical ← a.canonicalTarget d io p
  let (root, rootIdentity, relative) ← a.relativeToRoot canonical
  let file ← openBeneath d io root rootIdentity relative
  validateRegularFile file
  if a.limits.maxFileBytes < file.bytes.length then .error .fileTooLarge
  else if a.limits.maxTotalBytes < saturatingAdd64 requestTotal file.bytes.length then
    .error .totalTooLarge
  else if io .changed then .error .changedDuringOpen
  else .ok ⟨canonical, file.bytes.length, file.bytes⟩

/-- What is at an output's target now: nothing, or a regular file with no other name. -/
def targetIdentity (d : Disk) (io : Faults) (candidate : List Name) :
    Except AllowlistError (Option (Nat × Nat)) :=
  if io .inspect then .error .io
  else
    match d.lstat candidate with
    | none => .ok none
    | some n => do
      if n.kind = .symlink then .error .symlink
      else
        validateRegularFile n
        .ok (some n.identity)

def validateOutput (a : Allowlist) (d : Disk) (io : Faults) (p : Path)
    (requestTotal requestCount expectedSize : Nat) : Except AllowlistError ValidatedOutputPath := do
  a.checkRequestBudget requestTotal requestCount
  if a.limits.maxFileBytes < expectedSize ∨
      a.limits.maxTotalBytes < saturatingAdd64 requestTotal expectedSize then .error .fileTooLarge
  else
    match p.parent, p.fileName with
    | some parent, some name => do
      let canonicalParent ← canonicalExistingDirectory d io parent
      if a.inRoot canonicalParent = false then .error .outsideRoot
      else
        let candidate := canonicalParent ++ [name]
        let target ← targetIdentity d io candidate
        if a.inRoot candidate = false then .error .outsideRoot
        else
          let (root, rootIdentity, relative) ← a.relativeToRoot canonicalParent
          let handle ← openBeneathDirectory d root rootIdentity relative
          .ok
            { path := candidate, targetIdentity := target, rootPath := root, rootIdentity,
              relativeParent := relative, parentIdentity := handle.identity, fileName := name }
    | _, _ => .error .invalidPath

end Allowlist

/-! ## Output -/

namespace ValidatedOutputPath

def parentPath (v : ValidatedOutputPath) : List Name := v.rootPath ++ v.relativeParent

def stagingPath (v : ValidatedOutputPath) (token : String) : Except AllowlistError (List Name) := do
  let name ← stagingName token
  .ok (v.path.dropLast ++ [name])

def openParent (v : ValidatedOutputPath) (d : Disk) : Except AllowlistError Unit := do
  let parent ← openBeneathDirectory d v.rootPath v.rootIdentity v.relativeParent
  if parent.identity ≠ v.parentIdentity then .error .changedDuringOpen else .ok ()

def validateTargetAt (v : ValidatedOutputPath) (d : Disk) : Except AllowlistError Unit :=
  match d (v.parentPath ++ [v.fileName]) with
  | none => if v.targetIdentity = none then .ok () else .error .changedDuringOpen
  | some n => do
    if n.kind = .symlink then .error .symlink
    else
      validateRegularFile n
      if v.targetIdentity = some n.identity then .ok () else .error .changedDuringOpen

/-- The bytes are written beside the target and renamed over it. The new file's inode is `inode`. The
name beside the target is gone afterwards, as it is unless the new file's metadata cannot be read or
its removal fails; what may still fail after the rename comes too late for the target. -/
def replaceAtomically (v : ValidatedOutputPath) (d : Disk) (io : Faults) (bytes : Bytes)
    (inode : Nat × Nat) : Except AllowlistError Unit × Disk :=
  match (do
      v.openParent d
      if io .openParent then .error .io
      else
        v.validateTargetAt d
        if io .temporary ∨ io .write then .error .io
        else if io .changed then .error .changedDuringOpen
        else if io .rename then .error .io
        else .ok () : Except AllowlistError Unit) with
  | .error e => (.error e, d)
  | .ok () =>
    let installed := d.set (v.parentPath ++ [v.fileName])
      { kind := .regular, identity := inode, links := 1, owned := true, writable := true, bytes }
    (if io .reopen then .error .io else .ok (), installed)

def removeStaging (v : ValidatedOutputPath) (d : Disk) (token : String) : Disk :=
  match v.openParent d, stagingName token with
  | .ok (), .ok name => d.unlink (v.parentPath ++ [name])
  | _, _ => d

end ValidatedOutputPath
/-! ## What the checks say -/

theorem saturatingAdd64_le {a b n : Nat} (h : ¬ n < saturatingAdd64 a b) (hn : n < 2 ^ 64 - 1) :
    a + b ≤ n := by
  unfold saturatingAdd64 at h
  omega

theorem AllowlistLimits.Valid.total_lt {l : AllowlistLimits} (h : l.Valid) :
    l.maxTotalBytes < 2 ^ 64 - 1 := by
  have := h.totalBytes.2
  unfold MAX_ALLOWLISTED_TOTAL_BYTES at this
  omega

theorem AllowlistLimits.Valid.count_le {l : AllowlistLimits} (h : l.Valid) : l.maxFileCount ≤ 32 :=
  h.fileCount.2

theorem rejectPathComponents_ok {d : Disk} {p : Path} {names : List Name}
    (h : rejectPathComponents d p = .ok names) : p.names? = some names := by
  unfold rejectPathComponents at h
  split at h
  · cases h
  split at h
  · cases h
  · rename_i ns hn
    split at h
    · cases h
    · cases h
      exact hn

theorem canonicalize_ok {d : Disk} {io : Faults} {p : Path} {names out : List Name}
    (h : canonicalize d io p names = .ok out) : out = names := by
  unfold canonicalize at h
  split at h
  · cases h
  split at h
  · cases h
  · cases h
    rfl

theorem canonicalExistingDirectory_ok {d : Disk} {io : Faults} {p : Path} {names : List Name}
    (h : canonicalExistingDirectory d io p = .ok names) : p.names? = some names := by
  obtain ⟨ns, hr, h⟩ := bind_ok h
  split at h
  · cases h
  split at h
  · cases h
  · rw [canonicalize_ok h]
    exact rejectPathComponents_ok hr

theorem openBeneathDirectory_ok {d : Disk} {root : List Name} {id : Nat × Nat} {rel : List Name}
    {n : Node} (h : openBeneathDirectory d root id rel = .ok n) :
    (∃ r, d.lstat root = some r ∧ r.kind = .directory ∧ r.identity = id) ∧
      d.chain root rel = true ∧ d (root ++ rel) = some n := by
  unfold openBeneathDirectory at h
  split at h
  · cases h
  rename_i r hr
  split at h
  · cases h
  rename_i hk
  split at h
  · cases h
  rename_i hid
  split at h
  · rename_i hc
    split at h
    · cases h
    · rename_i m hm
      cases h
      exact ⟨⟨r, hr, not_not.mp hk, not_not.mp hid⟩, hc, hm⟩
  · cases h

theorem openBeneathDirectory_of {d : Disk} {root : List Name} {id : Nat × Nat} {rel : List Name}
    {r n : Node} (hr : d.lstat root = some r) (hk : r.kind = .directory) (hid : r.identity = id)
    (hc : d.chain root rel = true) (hn : d (root ++ rel) = some n) :
    openBeneathDirectory d root id rel = .ok n := by
  unfold openBeneathDirectory
  simp [hr, hk, hid, hc, hn]

/-- A directory that is still there is opened again. -/
theorem openBeneathDirectory_grows {d d' : Disk} (hg : d.Grows d') {root : List Name}
    {id : Nat × Nat} {rel : List Name} {n : Node} (h : openBeneathDirectory d root id rel = .ok n) :
    openBeneathDirectory d' root id rel = .ok n := by
  obtain ⟨⟨r, hr, hk, hid⟩, hc, hn⟩ := openBeneathDirectory_ok h
  have hdir : n.kind = .directory := by
    have := Disk.isDir_of_chain root rel hc
    simpa [Disk.isDir, hn] using this
  have hr' : d'.lstat root = some r := by
    unfold Disk.lstat at hr ⊢
    split at hr
    · rename_i h0
      rw [if_pos h0]
      exact hg [] r hr hk
    · rename_i h0
      rw [if_neg h0]
      split at hr
      · rename_i hch
        rw [if_pos (hg.chain [] _ hch)]
        exact hg root r hr hk
      · cases hr
  exact openBeneathDirectory_of hr' hk hid (hg.chain root rel hc) (hg _ n hn hdir)

namespace Allowlist

theorem mem_foldl_longer {rs : List (List Name × (Nat × Nat))} {best : Option (List Name × (Nat × Nat))}
    {r : List Name × (Nat × Nat)} (h : rs.foldl longer best = some r) : best = some r ∨ r ∈ rs := by
  induction rs generalizing best with
  | nil => exact .inl h
  | cons x rs ih =>
    rcases ih h with hb | hr
    · unfold longer at hb
      split at hb
      · cases hb
        exact .inr List.mem_cons_self
      · split at hb
        · cases hb
          exact .inr List.mem_cons_self
        · exact .inl hb
    · exact .inr (List.mem_cons_of_mem _ hr)

theorem relativeToRoot_ok {a : Allowlist} {names root rel : List Name} {id : Nat × Nat}
    (h : a.relativeToRoot names = .ok (root, id, rel)) : root ++ rel = names := by
  unfold relativeToRoot at h
  split at h
  · cases h
  · rename_i r hr
    cases h
    have hp := (mem_foldl_longer hr).resolve_left (by simp)
    have hp := (List.mem_filter.mp hp).2
    exact (List.prefix_iff_eq_append.mp (List.isPrefixOf_iff_prefix.mp hp)).symm ▸ rfl

theorem checkRequestBudget_ok {a : Allowlist} {total count : Nat} {u : Unit}
    (h : a.checkRequestBudget total count = .ok u) :
    count < a.limits.maxFileCount ∧ total ≤ a.limits.maxTotalBytes := by
  unfold checkRequestBudget at h
  split at h
  · cases h
  split at h
  · cases h
  · omega

/-- An accepted input fits what is left of the budget, and is the file at its path. -/
theorem openInput_ok {a : Allowlist} {d : Disk} {io : Faults} {p : Path} {total count : Nat}
    {f : ValidatedInputFile} (h : a.openInput d io p total count = .ok f) :
    count < a.limits.maxFileCount ∧ f.sizeBytes ≤ a.limits.maxFileBytes ∧
      total + f.sizeBytes ≤ a.limits.maxTotalBytes ∧ p.names? = some f.path ∧
      ∃ n, d f.path = some n ∧ f.sizeBytes = n.bytes.length := by
  obtain ⟨_, hb, h⟩ := bind_ok h
  obtain ⟨canonical, hc, h⟩ := bind_ok h
  obtain ⟨⟨root, id, rel⟩, hr, h⟩ := bind_ok h
  obtain ⟨file, ho, h⟩ := bind_ok h
  obtain ⟨_, -, h⟩ := bind_ok h
  split at h
  · cases h
  rename_i hsize
  split at h
  · cases h
  rename_i htotal
  split at h
  · cases h
  cases h
  have hroot := relativeToRoot_ok hr
  have hnames : p.names? = some canonical := by
    obtain ⟨ns, hn, hc⟩ := bind_ok hc
    obtain ⟨out, hcan, hc⟩ := bind_ok hc
    split at hc
    · cases hc
      rw [canonicalize_ok hcan]
      exact rejectPathComponents_ok hn
    · cases hc
  have hfile : d canonical = some file := by
    obtain ⟨_, -, ho⟩ := bind_ok ho
    split at ho
    · cases ho
    split at ho
    · cases ho
    rename_i n hn
    split at ho
    · cases ho
    split at ho
    · cases ho
    cases ho
    rw [← hroot]
    exact hn
  exact ⟨(checkRequestBudget_ok hb).1, not_lt.mp hsize,
    saturatingAdd64_le htotal a.limits_valid.total_lt, hnames, file, hfile, rfl⟩

/-- An accepted output lies in a directory below its root, which can be opened. -/
theorem validateOutput_ok {a : Allowlist} {d : Disk} {io : Faults} {p : Path}
    {total count size : Nat} {v : ValidatedOutputPath}
    (h : a.validateOutput d io p total count size = .ok v) :
    count < a.limits.maxFileCount ∧ v.path = v.rootPath ++ v.relativeParent ++ [v.fileName] ∧
      (∃ parent, p.parent = some parent ∧ parent.names? = some (v.rootPath ++ v.relativeParent)) ∧
      p.fileName = some v.fileName ∧
      ∃ n, openBeneathDirectory d v.rootPath v.rootIdentity v.relativeParent = .ok n ∧
        n.identity = v.parentIdentity := by
  obtain ⟨_, hb, h⟩ := bind_ok h
  split at h
  · cases h
  split at h
  · rename_i parent name hp hn
    obtain ⟨canonicalParent, hc, h⟩ := bind_ok h
    split at h
    · cases h
    obtain ⟨target, -, h⟩ := bind_ok h
    split at h
    · cases h
    obtain ⟨⟨root, id, rel⟩, hr, h⟩ := bind_ok h
    obtain ⟨handle, ho, h⟩ := bind_ok h
    cases h
    have hroot := relativeToRoot_ok hr
    refine ⟨(checkRequestBudget_ok hb).1, ?_, ⟨parent, hp, ?_⟩, hn, handle, ho, rfl⟩
    · rw [hroot]
    · rw [hroot]
      exact canonicalExistingDirectory_ok hc
  · cases h

end Allowlist

/-! ## Staged files -/

/-- The name a download is staged under. -/
def stagingFile (token : String) : Name := .text (".agent-remote-download-" ++ token ++ ".incoming")

theorem stagingName_ok {token : String} {n : Name} (h : stagingName token = .ok n) :
    n = stagingFile token := by
  unfold stagingName at h
  split at h
  · cases h
    rfl
  · cases h

namespace ValidatedOutputPath

theorem openParent_ok {v : ValidatedOutputPath} {d : Disk} (h : v.openParent d = .ok ()) :
    ∃ n, openBeneathDirectory d v.rootPath v.rootIdentity v.relativeParent = .ok n ∧
      n.identity = v.parentIdentity := by
  obtain ⟨n, hn, h⟩ := bind_ok h
  split at h
  · cases h
  · rename_i hid
    exact ⟨n, hn, not_not.mp hid⟩

theorem openParent_of {v : ValidatedOutputPath} {d : Disk} {n : Node}
    (h : openBeneathDirectory d v.rootPath v.rootIdentity v.relativeParent = .ok n)
    (hid : n.identity = v.parentIdentity) : v.openParent d = .ok () := by
  unfold openParent
  rw [h, ok_bind]
  simp [hid]

theorem openParent_grows {v : ValidatedOutputPath} {d d' : Disk} (hg : d.Grows d')
    (h : v.openParent d = .ok ()) : v.openParent d' = .ok () := by
  obtain ⟨n, hn, hid⟩ := openParent_ok h
  exact openParent_of (openBeneathDirectory_grows hg hn) hid

theorem isDir_parentPath {v : ValidatedOutputPath} {d : Disk} (h : v.openParent d = .ok ()) :
    d.isDir v.parentPath = true := by
  obtain ⟨n, hn, -⟩ := openParent_ok h
  exact Disk.isDir_of_chain _ _ (openBeneathDirectory_ok hn).2.1

/-- A replacement changes the target alone, and never a directory. -/
theorem replaceAtomically_disk {v : ValidatedOutputPath} {d d' : Disk} {io : Faults} {bytes : Bytes}
    {inode : Nat × Nat} {r : Except AllowlistError Unit}
    (h : v.replaceAtomically d io bytes inode = (r, d')) :
    d' = d ∨ (d.isDir (v.parentPath ++ [v.fileName]) = false ∧
      ∃ n, n.kind = .regular ∧ d' = d.set (v.parentPath ++ [v.fileName]) n) := by
  unfold replaceAtomically at h
  split at h
  · cases h
    exact .inl rfl
  · rename_i hc
    cases h
    refine .inr ⟨?_, _, rfl, rfl⟩
    obtain ⟨_, -, hc⟩ := bind_ok hc
    split at hc
    · cases hc
    obtain ⟨_, ht, -⟩ := bind_ok hc
    unfold validateTargetAt at ht
    split at ht
    · rename_i hn
      simp [Disk.isDir, hn]
    · rename_i n hn
      split at ht
      · cases ht
      obtain ⟨_, hreg, -⟩ := bind_ok ht
      unfold validateRegularFile at hreg
      split at hreg
      · cases hreg
      · rename_i hk
        simp [Disk.isDir, hn, not_not.mp hk]

/-- A staged file goes where its directory is still there. -/
theorem removeStaging_of {v : ValidatedOutputPath} {d : Disk} {token : String} {n : Name}
    (h : v.openParent d = .ok ()) (hn : stagingName token = .ok n) :
    v.removeStaging d token = d.unlink (v.parentPath ++ [n]) := by
  unfold removeStaging
  rw [h, hn]

end ValidatedOutputPath
end Protocol
end EgoBridge
