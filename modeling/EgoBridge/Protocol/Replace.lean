import EgoBridge.Protocol.Opens

/-!
# Protocol.Replace

The steps of an atomic replacement, each of which may fail.

* `replaceSteps_none`      — a replacement never returns exactly if the target is a FIFO.
* `replaceSteps_unbegun`, `replaceSteps_begun` — what it returns and leaves behind, by the steps
  that fail.
* `replaceSteps_coarse`    — where nothing is left beside the target, it is a `replaceAtomically`.
-/

namespace EgoBridge
namespace Protocol

open Files

inductive ReplaceFault where
  | openParent
  | inspect
  | create
  /-- Reading the new file's metadata. -/
  | stat
  | write
  | permissions
  | sync
  | reinspect
  | rename
  | syncParent
  | reopen
  | restat
  | unlink
  deriving DecidableEq

/-- What the system gives a replacement: faults, how much is written before writing fails, the
random part of the temporary file's name, and its inode. -/
structure ReplaceSupplies where
  fault : ReplaceFault → Bool
  written : Nat
  unique : String
  inode : Nat × Nat

def ReplaceSupplies.failsLate (y : ReplaceSupplies) : Bool :=
  y.fault .syncParent || y.fault .reopen || y.fault .restat

def commitFile (token unique : String) : Name :=
  .text (".agent-remote-download-" ++ token ++ "-" ++ unique ++ ".commit")

def commitName (token unique : String) : Except AllowlistError Name :=
  if validateOperationToken token then .ok (commitFile token unique) else .error .invalidPath

def temporaryFile (inode : Nat × Nat) (bytes : Bytes) : Node :=
  { kind := .regular, identity := inode, links := 1, owned := true, writable := true, bytes }

/-- The same faults but for a replacement, which is refused, or fails late. -/
def Faults.replacing (io : Faults) (refused late : Bool) : Faults
  | .openParent => refused
  | .temporary => false
  | .write => false
  | .rename => false
  | .reopen => late
  | fault => io fault

namespace ValidatedOutputPath

/-- The closure of `replace_atomically`: from writing the temporary file to checking what has been
installed. -/
def installSteps (v : ValidatedOutputPath) (d : Disk) (y : ReplaceSupplies) (bytes : Bytes)
    (temporary : List Name) : Option (Except AllowlistError Unit × Disk) :=
  if y.fault .write then
    some (.error .io, d.set temporary (temporaryFile y.inode (bytes.take y.written)))
  else
    let d := d.set temporary (temporaryFile y.inode bytes)
    if y.fault .permissions ∨ y.fault .sync then some (.error .io, d)
    else
      match v.validateTargetBlocking d (y.fault .reinspect) with
      | none => none
      | some (.error e) => some (.error e, d)
      | some (.ok ()) =>
        if y.fault .rename then some (.error .io, d)
        else
          let d := d.rename temporary v.target
          if y.fault .syncParent then some (.error .io, d)
          else
            match openOutputAt d (y.fault .reopen) v.target with
            | none => none
            | some (.error e) => some (.error e, d)
            | some (.ok installed) =>
              if y.fault .restat then some (.error .io, d)
              else
                match validateRegularFile installed with
                | .error e => some (.error e, d)
                | .ok () =>
                  if installed.identity ≠ y.inode then some (.error .changedDuringOpen, d)
                  else some (.ok (), d)

/-- `replace_atomically`. -/
def replaceSteps (v : ValidatedOutputPath) (d : Disk) (y : ReplaceSupplies) (bytes : Bytes)
    (token : String) : Option (Except AllowlistError Unit × Disk) :=
  match v.openParent d with
  | .error e => some (.error e, d)
  | .ok () =>
    if y.fault .openParent then some (.error .io, d)
    else
      match v.validateTargetBlocking d (y.fault .inspect) with
      | none => none
      | some (.error e) => some (.error e, d)
      | some (.ok ()) =>
        match commitName token y.unique with
        | .error e => some (.error e, d)
        | .ok name =>
          let temporary := v.parentPath ++ [name]
          if (d temporary).isSome then some (.error .changedDuringOpen, d)
          else if y.fault .create then some (.error .io, d)
          else
            let d := d.set temporary (temporaryFile y.inode [])
            if y.fault .stat then some (.error .io, d)
            else
              match v.installSteps d y bytes temporary with
              | none => none
              | some (.ok (), d) => some (.ok (), d)
              | some (.error e, d) =>
                some (.error e, if y.fault .unlink then d else d.unlink temporary)

def temporary (v : ValidatedOutputPath) (y : ReplaceSupplies) (token : String) : List Name :=
  v.parentPath ++ [commitFile token y.unique]

structure Opens (v : ValidatedOutputPath) (d : Disk) (y : ReplaceSupplies) : Prop where
  parent : v.openParent d = .ok ()
  allowed : y.fault .openParent = false

structure Begins (v : ValidatedOutputPath) (d : Disk) (y : ReplaceSupplies) (token : String) :
    Prop extends v.Opens d y where
  inspected : y.fault .inspect = false
  target : v.checkTarget (d v.target) = .ok ()
  named : validateOperationToken token = true
  unused : d (v.temporary y token) = none
  created : y.fault .create = false

def FailsEarly (v : ValidatedOutputPath) (y : ReplaceSupplies) (token : String) : Prop :=
  y.fault .write ∨ y.fault .permissions ∨ y.fault .sync ∨ y.fault .reinspect ∨
    v.temporary y token = v.target ∨ y.fault .rename

/-- A file is left beside the target. -/
def LeavesTemporary (v : ValidatedOutputPath) (d : Disk) (y : ReplaceSupplies) (token : String) :
    Prop :=
  v.Begins d y token ∧ (y.fault .stat = true ∨ v.FailsEarly y token ∧ y.fault .unlink = true)

/-! ## Between the temporary file and its removal -/

section

variable {v : ValidatedOutputPath} {d : Disk} {y : ReplaceSupplies} {token : String}
  {bytes : Bytes} {n : Node}

theorem revalidate_self (hc : v.checkTarget (d v.target) = .ok ())
    (hu : d (v.temporary y token) = none) (he : v.temporary y token = v.target) (fault : Bool) :
    ∃ e, v.validateTargetBlocking (d.set (v.temporary y token) (temporaryFile y.inode bytes)) fault =
      some (.error e) := by
  rw [he] at hu ⊢
  have hid := (checkTarget_ok hc).1
  rw [hu] at hid
  rcases hv : v.validateTargetBlocking (d.set v.target (temporaryFile y.inode bytes)) fault
    with _ | _ | _
  · obtain ⟨-, n, hn, hk⟩ := validateTargetBlocking_none.mp hv
    rw [Disk.set_self] at hn
    cases hn
    cases hk
  · exact ⟨_, rfl⟩
  · have hc := (checkTarget_ok (validateTargetBlocking_ok.mp hv).2).1
    rw [hid, Disk.set_self] at hc
    cases hc

theorem revalidate (hc : v.checkTarget (d v.target) = .ok ())
    (he : v.temporary y token ≠ v.target) :
    v.validateTargetBlocking (d.set (v.temporary y token) n) false = some (.ok ()) := by
  rw [validateTargetBlocking_ok, Disk.set_of_ne d n he.symm]
  exact ⟨rfl, hc⟩

theorem revalidate_fault (d : Disk) (v : ValidatedOutputPath) :
    v.validateTargetBlocking d true = some (.error .io) := rfl

theorem installSteps_early (hc : v.checkTarget (d v.target) = .ok ())
    (hu : d (v.temporary y token) = none) (he : v.FailsEarly y token) :
    ∃ e m, m.kind = .regular ∧
      v.installSteps (d.set (v.temporary y token) n) y bytes (v.temporary y token) =
        some (.error e, d.set (v.temporary y token) m) := by
  unfold installSteps
  rw [Disk.set_set, Disk.set_set]
  by_cases hw : y.fault .write = true
  · rw [if_pos hw]
    exact ⟨_, _, rfl, rfl⟩
  rw [if_neg hw]
  by_cases hp : y.fault .permissions = true ∨ y.fault .sync = true
  · dsimp only
    rw [if_pos hp]
    exact ⟨_, _, rfl, rfl⟩
  dsimp only
  rw [if_neg hp]
  obtain ⟨h1, h2⟩ := not_or.mp hp
  by_cases hself : v.temporary y token = v.target
  · obtain ⟨e, he⟩ := revalidate_self hc hu hself (y.fault .reinspect)
    rw [he]
    exact ⟨_, _, rfl, rfl⟩
  by_cases hr : y.fault .reinspect = true
  · rw [hr, revalidate_fault]
    exact ⟨_, _, rfl, rfl⟩
  rw [Bool.not_eq_true] at hr
  rw [hr, revalidate hc hself]
  dsimp only
  have hrename : y.fault .rename = true := by
    simpa [FailsEarly, hw, h1, h2, hr, hself] using he
  rw [if_pos hrename]
  exact ⟨_, _, rfl, rfl⟩

theorem installSteps_renamed (hc : v.checkTarget (d v.target) = .ok ())
    (hu : d (v.temporary y token) = none) (he : ¬ v.FailsEarly y token) :
    v.installSteps (d.set (v.temporary y token) n) y bytes (v.temporary y token) =
      some (if y.failsLate then .error .io else .ok (),
        d.set v.target (temporaryFile y.inode bytes)) := by
  simp only [FailsEarly, not_or, Bool.not_eq_true] at he
  obtain ⟨hw, hp, hs, hr, hself, hn⟩ := he
  unfold installSteps
  rw [Disk.set_set, Disk.set_set, hw, hp, hs, hr, hn, if_neg Bool.false_ne_true]
  dsimp only
  rw [if_neg (by simp), revalidate hc hself]
  dsimp only
  rw [if_neg Bool.false_ne_true, Disk.rename_set _ _ hu]
  cases h1 : y.fault .syncParent with
  | true => simp [ReplaceSupplies.failsLate, h1]
  | false =>
    rw [if_neg Bool.false_ne_true]
    cases h2 : y.fault .reopen with
    | true => simp [ReplaceSupplies.failsLate, h2, openOutputAt]
    | false =>
      rw [openOutputAt_regular (Disk.set_self _ _ _) rfl]
      dsimp only
      cases h3 : y.fault .restat with
      | true => simp [ReplaceSupplies.failsLate, h3]
      | false =>
        -- the file that was renamed is the one that was made
        have hv : validateRegularFile (temporaryFile y.inode bytes) = .ok () := rfl
        have hid : (temporaryFile y.inode bytes).identity = y.inode := rfl
        rw [if_neg Bool.false_ne_true, hv]
        dsimp only
        rw [if_neg (not_not.mpr hid)]
        simp [ReplaceSupplies.failsLate, h1, h2, h3]

/-! ## A whole replacement -/

theorem replaceSteps_unbegun (hb : ¬ v.Begins d y token) :
    (v.replaceSteps d y bytes token = none ∧ v.Opens d y ∧ v.TargetBlocks d (y.fault .inspect)) ∨
      ∃ e, v.replaceSteps d y bytes token = some (.error e, d) := by
  unfold replaceSteps
  split
  · exact .inr ⟨_, rfl⟩
  rename_i hparent
  split
  · exact .inr ⟨_, rfl⟩
  rename_i hallowed
  rw [Bool.not_eq_true] at hallowed
  split
  · rename_i hnone
    exact .inl ⟨rfl, ⟨hparent, hallowed⟩, validateTargetBlocking_none.mp hnone⟩
  · exact .inr ⟨_, rfl⟩
  rename_i htarget
  obtain ⟨hinspected, htarget⟩ := validateTargetBlocking_ok.mp htarget
  split
  · exact .inr ⟨_, rfl⟩
  rename_i name hname
  unfold commitName at hname
  split at hname
  · rename_i htoken
    cases hname
    dsimp only
    split
    · exact .inr ⟨_, rfl⟩
    rename_i hunused
    split
    · exact .inr ⟨_, rfl⟩
    · rename_i hcreated
      rw [Bool.not_eq_true] at hcreated
      exact absurd ⟨⟨hparent, hallowed⟩, hinspected, htarget, htoken,
        Option.not_isSome_iff_eq_none.mp hunused, hcreated⟩ hb
  · cases hname

theorem replaceSteps_begins (hb : v.Begins d y token) :
    v.replaceSteps d y bytes token =
      if y.fault .stat then
        some (.error .io, d.set (v.temporary y token) (temporaryFile y.inode []))
      else
        match v.installSteps (d.set (v.temporary y token) (temporaryFile y.inode [])) y bytes
            (v.temporary y token) with
        | none => none
        | some (.ok (), d) => some (.ok (), d)
        | some (.error e, d) =>
          some (.error e, if y.fault .unlink then d else d.unlink (v.temporary y token)) := by
  have hname : commitName token y.unique = .ok (commitFile token y.unique) := if_pos hb.named
  have hunused : d (v.parentPath ++ [commitFile token y.unique]) = none := hb.unused
  rw [replaceSteps, hb.parent]
  dsimp only
  rw [hb.allowed, if_neg Bool.false_ne_true,
    validateTargetBlocking_ok.mpr ⟨hb.inspected, hb.target⟩, hname]
  dsimp only
  rw [hunused, if_neg (by simp), hb.created, if_neg Bool.false_ne_true]
  rfl

theorem replaceSteps_stat (hb : v.Begins d y token) (hf : y.fault .stat = true) :
    v.replaceSteps d y bytes token =
      some (.error .io, d.set (v.temporary y token) (temporaryFile y.inode [])) := by
  rw [replaceSteps_begins hb, if_pos hf]

theorem replaceSteps_early (hb : v.Begins d y token) (hf : y.fault .stat = false)
    (he : v.FailsEarly y token) :
    ∃ e m, v.replaceSteps d y bytes token =
      some (.error e, if y.fault .unlink then d.set (v.temporary y token) m else d) := by
  obtain ⟨e, m, hm, hi⟩ := installSteps_early hb.target hb.unused he
  rw [replaceSteps_begins hb, hf, if_neg Bool.false_ne_true, hi]
  dsimp only
  rw [Disk.unlink_set hb.unused (by rw [hm]; exact nofun)]
  exact ⟨e, m, rfl⟩

/-- The file is renamed: it is there, whatever is reported. -/
theorem replaceSteps_renamed (hb : v.Begins d y token) (hf : y.fault .stat = false)
    (he : ¬ v.FailsEarly y token) :
    v.replaceSteps d y bytes token =
      some (if y.failsLate then .error .io else .ok (),
        d.set v.target (temporaryFile y.inode bytes)) := by
  have hself : v.temporary y token ≠ v.target := fun h =>
    he (.inr (.inr (.inr (.inr (.inl h)))))
  rw [replaceSteps_begins hb, hf, if_neg Bool.false_ne_true,
    installSteps_renamed hb.target hb.unused he]
  cases y.failsLate with
  | false => rfl
  | true =>
    simp only [↓reduceIte]
    have hgone : (d.set v.target (temporaryFile y.inode bytes)) (v.temporary y token) = none := by
      rw [Disk.set_of_ne d _ hself, hb.unused]
    rw [Disk.unlink_none hgone, ite_self]

/-- A replacement never returns exactly if it comes to a target that is a FIFO. -/
theorem replaceSteps_none :
    v.replaceSteps d y bytes token = none ↔ v.Opens d y ∧ v.TargetBlocks d (y.fault .inspect) := by
  constructor
  · intro h
    by_cases hb : v.Begins d y token
    · cases hf : y.fault .stat with
      | true =>
        rw [replaceSteps_stat hb hf] at h
        cases h
      | false =>
        by_cases he : v.FailsEarly y token
        · obtain ⟨e, m, hr⟩ := replaceSteps_early hb hf he
          rw [hr] at h
          cases h
        · rw [replaceSteps_renamed hb hf he] at h
          cases h
    · rcases replaceSteps_unbegun hb with ⟨-, hopens⟩ | ⟨e, hr⟩
      · exact hopens
      · rw [hr] at h
        cases h
  · rintro ⟨hopens, hblocks⟩
    rw [replaceSteps, hopens.parent]
    dsimp only
    rw [hopens.allowed, if_neg Bool.false_ne_true, validateTargetBlocking_none.mpr hblocks]

/-! ## One step for a whole replacement -/

theorem replaceAtomically_refused (v : ValidatedOutputPath) (d : Disk) (io : Faults) (late : Bool)
    (bytes : Bytes) (inode : Nat × Nat) :
    ∃ e, v.replaceAtomically d (io.replacing true late) bytes inode = (.error e, d) := by
  unfold replaceAtomically
  cases v.openParent d with
  | error e => exact ⟨e, rfl⟩
  | ok u => exact ⟨.io, rfl⟩

theorem replaceAtomically_renamed (hb : v.Begins d y token) {io : Faults}
    (hc : io .changed = false) (late : Bool) (inode : Nat × Nat) :
    v.replaceAtomically d (io.replacing false late) bytes inode =
      (if late then .error .io else .ok (), d.set v.target (temporaryFile inode bytes)) := by
  have hchanged : io.replacing false late .changed = false := hc
  unfold replaceAtomically
  rw [hb.parent, checkTarget_eq.mp hb.target, hchanged]
  cases late with
  | true => rfl
  | false => rfl

/-- A replacement that leaves nothing beside the target is one of `replaceAtomically`, with a fault
there at the opening or after the rename. -/
theorem replaceSteps_coarse {io : Faults} (hc : io .changed = false)
    {r : Except AllowlistError Unit} {d' : Disk}
    (h : v.replaceSteps d y bytes token = some (r, d')) (hl : ¬ v.LeavesTemporary d y token) :
    ∃ refused late r', v.replaceAtomically d (io.replacing refused late) bytes y.inode = (r', d') ∧
      (r = .ok () ↔ r' = .ok ()) := by
  have hrefused : (∃ e, v.replaceSteps d y bytes token = some (.error e, d)) →
      ∃ refused late r', v.replaceAtomically d (io.replacing refused late) bytes y.inode =
        (r', d') ∧ (r = .ok () ↔ r' = .ok ()) := by
    rintro ⟨e, he⟩
    rw [he] at h
    cases h
    obtain ⟨e', he'⟩ := replaceAtomically_refused v d io false bytes y.inode
    exact ⟨true, false, _, he', nofun, nofun⟩
  by_cases hb : v.Begins d y token
  · simp only [LeavesTemporary, hb, true_and, not_or, not_and, Bool.not_eq_true] at hl
    by_cases he : v.FailsEarly y token
    · obtain ⟨e, m, hr⟩ := replaceSteps_early hb hl.1 he
      rw [hl.2 he, if_neg Bool.false_ne_true] at hr
      exact hrefused ⟨e, hr⟩
    · rw [replaceSteps_renamed hb hl.1 he] at h
      cases h
      exact ⟨false, _, _, replaceAtomically_renamed hb hc y.failsLate y.inode, Iff.rfl⟩
  · rcases replaceSteps_unbegun hb with ⟨hn, -⟩ | hr
    · rw [hn] at h
      cases h
    · exact hrefused hr

end

end ValidatedOutputPath
end Protocol
end EgoBridge
