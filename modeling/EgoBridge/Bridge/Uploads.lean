import EgoBridge.Bridge.FileGuard

/-!
# Bridge.Uploads

Uploads that fail, and the requests after them.

An upload is copied to a directory whose number is one above the files charged so far. Nothing
removes the directory when the copy fails, and nothing is charged then, so that the next upload
finds its directory taken.

* `stage_before`         — an upload that fails up to `create_dir` changes nothing.
* `uploads_blocked`      — one that fails after it blocks all uploads, until something is charged.
* `failed_upload_usable` — a failed upload is as if it had never been made exactly if it did not
  get past `create_dir`.
-/

namespace EgoBridge
namespace Bridge

open Files Protocol Run

def uploadDirectory (stagingRoot : List Name) (s : FileGuardState) : List Name :=
  stagingRoot ++ [.text ("upload-" ++ toString (s.budget.fileCount + 1))]

/-- Everything up to `create_dir` succeeds. -/
structure CreatesDirectory (a : Allowlist) (stagingRoot : List Name) (s : FileGuardState) (d : Disk)
    (x : Supplies) (p : Path) : Prop where
  opened : ∃ input name,
    a.openInput d x.faults p s.budget.totalBytes s.budget.fileCount = .ok input ∧
      input.path.getLast? = some name
  read : x.faults .read = false
  created : x.faults .createDirectory = false
  absent : d.lstat (uploadDirectory stagingRoot s) = none
  parent : d.chain [] stagingRoot = true

/-- The answers to requests made one after the other. -/
def answers (a : Allowlist) (stagingRoot : List Name) :
    FileGuardState → Disk → List (FileGuardRequest × Supplies) → List Answer
  | _, _, [] => []
  | s, d, (q, x) :: rest =>
    let (answer, s, d) := handleRequest a stagingRoot s d x q
    answer :: answers a stagingRoot s d rest

/-- A request leaves the guard as if it had never been made. -/
structure AsIfNever (a : Allowlist) (stagingRoot : List Name) (s s' : FileGuardState)
    (d d' : Disk) : Prop where
  budget : s'.budget = s.budget
  tokens : s'.downloads = s.downloads
  /-- The private directory, with all that is in it. -/
  directory : ∀ rel, d' (stagingRoot ++ rel) = d (stagingRoot ++ rel)
  later : ∀ requests, answers a stagingRoot s' d' requests = answers a stagingRoot s d requests

section

variable {a : Allowlist} {root : List Name} {s s' : FileGuardState} {d d' : Disk} {x : Supplies}
  {p : Path}

theorem AsIfNever.refl : AsIfNever a root s s d d := ⟨rfl, rfl, fun _ => rfl, fun _ => rfl⟩

theorem stageFile_refused {directory : List Name} {name : Name} {bytes : Bytes} {inode : Nat × Nat}
    {io : Faults}
    (h : io .createDirectory = true ∨ d.lstat directory ≠ none ∨
      d.chain [] directory.dropLast = false) :
    stageFile d io inode directory name bytes = (.error .io, d) := by
  unfold stageFile
  rw [if_pos]
  exact h.imp id (Or.imp_left Option.isSome_iff_ne_none.mpr)

theorem stage_before (h : ¬ CreatesDirectory a root s d x p) :
    ∃ e, stageAllowlistedInput a root s d x p = (.error e, s, d) := by
  unfold stageAllowlistedInput
  cases ho : a.openInput d x.faults p s.budget.totalBytes s.budget.fileCount with
  | error e => exact ⟨_, rfl⟩
  | ok input =>
    dsimp only
    cases hn : input.path.getLast? with
    | none => exact ⟨_, rfl⟩
    | some name =>
      dsimp only
      split
      · exact ⟨_, rfl⟩
      · rename_i hread
        have hrefused : x.faults .createDirectory = true ∨
            d.lstat (uploadDirectory root s) ≠ none ∨
              d.chain [] (uploadDirectory root s).dropLast = false := by
          by_contra hall
          simp only [not_or, not_not, Bool.not_eq_true, Bool.not_eq_false] at hall hread
          obtain ⟨hcreate, habsent, hparent⟩ := hall
          rw [uploadDirectory, List.dropLast_concat] at hparent
          exact h ⟨⟨input, name, ho, hn⟩, hread, hcreate, habsent, hparent⟩
        rw [uploadDirectory] at hrefused
        rw [stageFile_refused hrefused]
        exact ⟨_, rfl⟩

theorem lstat_of_chain (hc : d.chain [] root = true) (n : Name) :
    d.lstat (root ++ [n]) = d (root ++ [n]) := by
  rw [Disk.lstat, if_neg (by simp), List.dropLast_concat, if_pos hc]

theorem stageFile_created {directory : List Name} {name : Name} {bytes : Bytes} {inode : Nat × Nat}
    {io : Faults} (hcreate : io .createDirectory = false) (habsent : d.lstat directory = none)
    (hparent : d.chain [] directory.dropLast = true) :
    (stageFile d io inode directory name bytes).2 directory = some (newDirectory inode) := by
  have hne : directory ≠ directory ++ [name] := fun h => by simpa using congrArg List.length h
  unfold stageFile
  rw [if_neg (by simp [hcreate, habsent, hparent])]
  dsimp only
  split
  · exact Disk.set_self _ _ _
  · dsimp only
    rw [Disk.set_of_ne _ _ hne]
    exact Disk.set_self _ _ _

/-- The directory is there afterwards, whatever became of the copy. -/
theorem stage_after (h : CreatesDirectory a root s d x p) :
    (stageAllowlistedInput a root s d x p).2.2 (uploadDirectory root s) =
      some (newDirectory x.inode) := by
  obtain ⟨⟨input, name, ho, hn⟩, hread, hcreate, habsent, hparent⟩ := h
  have hparent : d.chain [] (uploadDirectory root s).dropLast = true := by
    rw [uploadDirectory, List.dropLast_concat]
    exact hparent
  have hdir : (stageFile d x.faults x.inode (uploadDirectory root s) name input.bytes).2
      (uploadDirectory root s) = some (newDirectory x.inode) :=
    stageFile_created hcreate habsent hparent
  rw [uploadDirectory] at hdir
  unfold stageAllowlistedInput uploadDirectory
  rw [ho]
  dsimp only
  rw [hn]
  dsimp only
  rw [if_neg (by simp [hread])]
  split
  · rename_i hst
    rw [hst] at hdir
    exact hdir
  · rename_i hst
    rw [hst] at hdir
    split
    · exact hdir
    · exact hdir

/-- While its directory is there, no upload succeeds. -/
theorem stage_taken (hdir : d (uploadDirectory root s) ≠ none) (x : Supplies) (p : Path) :
    ∃ e, stageAllowlistedInput a root s d x p = (.error e, s, d) := by
  refine stage_before fun h => hdir ?_
  have habsent := h.absent
  rwa [uploadDirectory, lstat_of_chain h.parent] at habsent

/-- After a failure past `create_dir`, all uploads fail until a file is charged. -/
theorem uploads_blocked {t : String} (hroot : Textual root)
    (hc : CreatesDirectory a root s d x (.ofText t)) {e : GuardError}
    (h : stageAllowlistedInput a root s d x (.ofText t) = (.error e, s', d')) (y : Supplies)
    (p : Path) : ∃ e, stageAllowlistedInput a root s' d' y p = (.error e, s', d') := by
  have hbudget : s'.budget = s.budget := (stage_budget hroot h).2.2 e rfl
  have hdir := stage_after hc
  rw [h] at hdir
  have hsame : uploadDirectory root s' = uploadDirectory root s := by
    rw [uploadDirectory, hbudget]
    rfl
  refine stage_taken (fun hnone => ?_) y p
  rw [hsame] at hnone
  exact absurd (hnone.symm.trans hdir) (by simp)

/-- **A failed upload is as if it had never been made** exactly if it fails up to `create_dir`. -/
theorem failed_upload_usable {e : GuardError}
    (h : stageAllowlistedInput a root s d x p = (.error e, s', d')) :
    AsIfNever a root s s' d d' ↔ ¬ CreatesDirectory a root s d x p := by
  constructor
  · intro hsame hc
    have hdir := stage_after hc
    rw [h] at hdir
    have habsent := hc.absent
    rw [uploadDirectory, lstat_of_chain hc.parent] at habsent
    have hkept := hsame.directory [.text ("upload-" ++ toString (s.budget.fileCount + 1))]
    rw [habsent] at hkept
    exact absurd (hkept.symm.trans hdir) (by simp)
  · intro hc
    obtain ⟨e', he⟩ := stage_before hc
    rw [he] at h
    cases h
    exact .refl

end

/-! ## Two failures -/

def faultySupplies (fault : Fault) : Supplies := ⟨fun f => f = fault, (1, 9), "t"⟩

/-- An upload of `/w/a` that meets this fault. -/
def failedUpload (fault : Fault) : Except GuardError String × FileGuardState × Disk :=
  stageAllowlistedInput sampleAllowlist [.text "s"] {} sampleDisk (faultySupplies fault)
    (.ofText "/w/a")

/-- Its directory cannot be made, or the copy in it cannot be written. -/
theorem failed_upload_usable_faults :
    AsIfNever sampleAllowlist [.text "s"] {} (failedUpload .createDirectory).2.1 sampleDisk
        (failedUpload .createDirectory).2.2 ∧
      ¬ AsIfNever sampleAllowlist [.text "s"] {} (failedUpload .write).2.1 sampleDisk
        (failedUpload .write).2.2 := by
  have hdirectory : (failedUpload .createDirectory).1 = .error .io := rfl
  have hwrite : (failedUpload .write).1 = .error .io := rfl
  have hcreates : CreatesDirectory sampleAllowlist [.text "s"] {} sampleDisk
      (faultySupplies .write) (.ofText "/w/a") :=
    ⟨⟨_, _, rfl, rfl⟩, rfl, rfl, rfl, rfl⟩
  refine ⟨(failed_upload_usable (Prod.ext hdirectory rfl)).mpr ?_, fun h => ?_⟩
  · intro hc
    cases hc.created
  · exact (failed_upload_usable (Prod.ext hwrite rfl)).mp h hcreates

def sampleUpload : List (FileGuardRequest × Supplies) :=
  [(⟨"upload", "/w/a", none⟩, sampleSupplies "t")]

/-- It could be written before, and not again. -/
theorem failed_upload_sticks :
    ¬ ∀ (w : GuardWorld) (x : Supplies) (p : Path) (e : GuardError) (s' : FileGuardState)
      (d' : Disk), sampleFileGuard.Reachable w →
      stageAllowlistedInput sampleAllowlist [.text "s"] w.guard w.disk x p = (.error e, s', d') →
      AsIfNever sampleAllowlist [.text "s"] w.guard s' w.disk d' := by
  intro hall
  have hr : sampleFileGuard.Reachable sampleGuardStart :=
    .start (S := sampleFileGuard) ⟨sampleDisk, rfl⟩
  have hfailed : (failedUpload .write).1 = .error .io := rfl
  have hafter := hall _ (faultySupplies .write) (.ofText "/w/a") .io (failedUpload .write).2.1
    (failedUpload .write).2.2 hr (Prod.ext hfailed rfl)
  have hlater : answers sampleAllowlist [.text "s"] (failedUpload .write).2.1
      (failedUpload .write).2.2 sampleUpload =
      answers sampleAllowlist [.text "s"] {} sampleDisk sampleUpload := hafter.later sampleUpload
  have hbefore : answers sampleAllowlist [.text "s"] {} sampleDisk sampleUpload =
      [some ("/s/upload-1/a", none)] := rfl
  have hrefused : answers sampleAllowlist [.text "s"] (failedUpload .write).2.1
      (failedUpload .write).2.2 sampleUpload = [none] := rfl
  rw [hbefore, hrefused] at hlater
  cases hlater

end Bridge
end EgoBridge
