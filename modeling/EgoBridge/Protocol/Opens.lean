import EgoBridge.Protocol.Allowlist

/-!
# Protocol.Opens

The opens of the allowlist, on a file system where opening a FIFO never returns.

An operation is `none` if it never returns, and `some` result otherwise. Opening a directory asks
for one, and creating a file asks for a new one, so neither ever waits for a FIFO; opening a file
for reading or writing does, since its kind is looked at once it is open.

* `openInputBlocking_eq` — opening an input never returns exactly if a FIFO is opened.
* `validateTargetBlocking_none` — so it is for looking at an output's target.
-/

namespace EgoBridge
namespace Protocol

open Files

/-! ## Inputs -/

/-- `open_beneath`, for reading. -/
def openBeneathBlocking (d : Disk) (io : Faults) (root : List Name) (rootIdentity : Nat × Nat)
    (rel : List Name) : Option (Except AllowlistError Node) :=
  match openBeneathDirectory d root rootIdentity rel.dropLast with
  | .error e => some (.error e)
  | .ok _ =>
    if rel = [] then some (.error .invalidPath)
    else
      match d (root ++ rel) with
      | none => some (.error .io)
      | some n =>
        if n.kind = .symlink then some (.error .symlink)
        else if io .openFile then some (.error .io)
        else if n.kind = .fifo then none
        else some (.ok n)

structure OpensFifo (d : Disk) (io : Faults) (root : List Name) (rootIdentity : Nat × Nat)
    (rel : List Name) : Prop where
  parent : ∃ m, openBeneathDirectory d root rootIdentity rel.dropLast = .ok m
  name : rel ≠ []
  allowed : io .openFile = false
  fifo : ∃ n, d (root ++ rel) = some n ∧ n.kind = .fifo

theorem openBeneathBlocking_none {d : Disk} {io : Faults} {root rel : List Name}
    {id : Nat × Nat} : openBeneathBlocking d io root id rel = none ↔ OpensFifo d io root id rel := by
  unfold openBeneathBlocking
  constructor
  · intro h
    split at h
    · cases h
    · rename_i m hm
      split at h
      · cases h
      · rename_i hrel
        split at h
        · cases h
        · rename_i n hn
          split at h
          · cases h
          split at h
          · cases h
          · rename_i hio
            split at h
            · rename_i hk
              exact ⟨⟨m, hm⟩, hrel, by simpa using hio, n, hn, hk⟩
            · cases h
  · rintro ⟨⟨m, hm⟩, hrel, hio, n, hn, hk⟩
    rw [hm]
    dsimp only
    rw [if_neg hrel, hn]
    dsimp only
    rw [if_neg (by rw [hk]; exact nofun), if_neg (by simp [hio]), if_pos hk]

theorem openBeneathBlocking_some {d : Disk} {io : Faults} {root rel : List Name}
    {id : Nat × Nat} {r : Except AllowlistError Node}
    (h : openBeneathBlocking d io root id rel = some r) : r = openBeneath d io root id rel := by
  unfold openBeneathBlocking at h
  unfold openBeneath
  cases hm : openBeneathDirectory d root id rel.dropLast with
  | error e =>
    rw [hm] at h
    cases h
    rfl
  | ok m =>
    rw [hm] at h
    dsimp only at h
    rw [ok_bind]
    by_cases hrel : rel = []
    · rw [if_pos hrel] at h ⊢
      exact (Option.some.inj h).symm
    rw [if_neg hrel] at h ⊢
    cases hn : d (root ++ rel) with
    | none =>
      rw [hn] at h
      exact (Option.some.inj h).symm
    | some n =>
      rw [hn] at h
      dsimp only at h ⊢
      by_cases hk : n.kind = .symlink
      · rw [if_pos hk] at h ⊢
        exact (Option.some.inj h).symm
      rw [if_neg hk] at h ⊢
      by_cases hio : io .openFile = true
      · rw [if_pos hio] at h ⊢
        exact (Option.some.inj h).symm
      rw [if_neg hio] at h ⊢
      by_cases hf : n.kind = .fifo
      · rw [if_pos hf] at h
        cases h
      · rw [if_neg hf] at h
        exact (Option.some.inj h).symm

namespace Allowlist

/-- `open_input` up to the open. -/
def locateInput (a : Allowlist) (d : Disk) (io : Faults) (p : Path)
    (requestTotal requestCount : Nat) :
    Except AllowlistError (List Name × List Name × (Nat × Nat) × List Name) := do
  a.checkRequestBudget requestTotal requestCount
  let canonical ← a.canonicalTarget d io p
  let (root, rootIdentity, relative) ← a.relativeToRoot canonical
  .ok (canonical, root, rootIdentity, relative)

/-- `open_input` after the open. -/
def checkInput (a : Allowlist) (io : Faults) (requestTotal : Nat) (canonical : List Name)
    (file : Node) : Except AllowlistError ValidatedInputFile := do
  validateRegularFile file
  if a.limits.maxFileBytes < file.bytes.length then .error .fileTooLarge
  else if a.limits.maxTotalBytes < saturatingAdd64 requestTotal file.bytes.length then
    .error .totalTooLarge
  else if io .changed then .error .changedDuringOpen
  else .ok ⟨canonical, file.bytes.length, file.bytes⟩

def openInputBlocking (a : Allowlist) (d : Disk) (io : Faults) (p : Path)
    (requestTotal requestCount : Nat) : Option (Except AllowlistError ValidatedInputFile) :=
  match a.locateInput d io p requestTotal requestCount with
  | .error e => some (.error e)
  | .ok (canonical, root, rootIdentity, relative) =>
    (openBeneathBlocking d io root rootIdentity relative).map fun r => do
      let file ← r
      a.checkInput io requestTotal canonical file

def InputBlocks (a : Allowlist) (d : Disk) (io : Faults) (p : Path) (requestTotal requestCount : Nat) :
    Prop :=
  ∃ canonical root rootIdentity relative,
    a.locateInput d io p requestTotal requestCount =
      .ok (canonical, root, rootIdentity, relative) ∧
    OpensFifo d io root rootIdentity relative

theorem openInput_located (a : Allowlist) (d : Disk) (io : Faults) (p : Path) (total count : Nat) :
    a.openInput d io p total count = (do
      let (canonical, root, rootIdentity, relative) ← a.locateInput d io p total count
      let file ← openBeneath d io root rootIdentity relative
      a.checkInput io total canonical file) := by
  unfold openInput locateInput checkInput
  cases a.checkRequestBudget total count with
  | error e => rfl
  | ok u =>
    cases a.canonicalTarget d io p with
    | error e => rfl
    | ok canonical =>
      simp only [ok_bind]
      cases a.relativeToRoot canonical with
      | error e => rfl
      | ok r => rfl

/-- An accepted input holds the bytes of the file at its path. -/
theorem openInput_bytes {a : Allowlist} {d : Disk} {io : Faults} {p : Path} {total count : Nat}
    {f : ValidatedInputFile} (h : a.openInput d io p total count = .ok f) :
    f.sizeBytes = f.bytes.length ∧ ∃ n, d f.path = some n ∧ n.bytes = f.bytes := by
  rw [openInput_located] at h
  obtain ⟨⟨canonical, root, id, rel⟩, hl, h⟩ := bind_ok h
  obtain ⟨file, ho, h⟩ := bind_ok h
  obtain ⟨_, -, h⟩ := bind_ok h
  have hroot : root ++ rel = canonical := by
    obtain ⟨_, -, hl⟩ := bind_ok hl
    obtain ⟨c, -, hl⟩ := bind_ok hl
    obtain ⟨⟨r, i, rl⟩, hr, hl⟩ := bind_ok hl
    cases hl
    exact relativeToRoot_ok hr
  have hfile : d (root ++ rel) = some file := by
    obtain ⟨_, -, ho⟩ := bind_ok ho
    split at ho
    · cases ho
    split at ho
    · cases ho
    rename_i n hn
    split at ho
    · cases ho
    split at ho
    · cases ho
    cases ho
    exact hn
  rw [hroot] at hfile
  split at h
  · cases h
  split at h
  · cases h
  split at h
  · cases h
  cases h
  exact ⟨rfl, file, hfile, rfl⟩

theorem openInput_unchanged {a : Allowlist} {d : Disk} {io : Faults} {p : Path}
    {total count : Nat} {f : ValidatedInputFile} (h : a.openInput d io p total count = .ok f) :
    io .changed = false := by
  rw [openInput_located] at h
  obtain ⟨⟨canonical, root, id, rel⟩, -, h⟩ := bind_ok h
  obtain ⟨file, -, h⟩ := bind_ok h
  obtain ⟨_, -, h⟩ := bind_ok h
  split at h
  · cases h
  split at h
  · cases h
  split at h
  · cases h
  · rename_i hc
    exact Bool.eq_false_iff.mpr hc

/-- Opening an input never returns exactly if it opens a FIFO. -/
theorem openInputBlocking_eq (a : Allowlist) (d : Disk) (io : Faults) (p : Path)
    (total count : Nat) :
    (a.openInputBlocking d io p total count = none ↔ a.InputBlocks d io p total count) ∧
      ∀ r, a.openInputBlocking d io p total count = some r →
        r = a.openInput d io p total count := by
  rw [openInput_located]
  unfold openInputBlocking InputBlocks
  cases hl : a.locateInput d io p total count with
  | error e =>
    refine ⟨⟨nofun, ?_⟩, ?_⟩
    · rintro ⟨_, _, _, _, h, -⟩
      cases h
    · intro r h
      cases h
      rfl
  | ok x =>
    obtain ⟨canonical, root, id, rel⟩ := x
    dsimp only
    rw [Option.map_eq_none_iff, openBeneathBlocking_none]
    refine ⟨⟨fun h => ⟨_, _, _, _, rfl, h⟩, ?_⟩, ?_⟩
    · rintro ⟨_, _, _, _, heq, h⟩
      cases heq
      exact h
    · intro r h
      obtain ⟨r', hr', rfl⟩ := Option.map_eq_some_iff.mp h
      rw [openBeneathBlocking_some hr']
      rfl

end Allowlist

/-! ## Outputs -/

/-- `open_output_at` of a file that is there, for writing. -/
def openOutputAt (d : Disk) (fault : Bool) (p : List Name) : Option (Except AllowlistError Node) :=
  if fault then some (.error .io)
  else
    match d p with
    | none => some (.error .io)
    | some n =>
      if n.kind = .symlink then some (.error .symlink)
      else if n.kind = .directory then some (.error .io)
      else if n.kind = .fifo then none
      else some (.ok n)

def inspectOutputAt (d : Disk) (fault : Bool) (p : List Name) :
    Option (Except AllowlistError (Option Node)) :=
  if fault then some (.error .io)
  else
    match d p with
    | none => some (.ok none)
    | some _ => (openOutputAt d false p).map (·.map some)

theorem openOutputAt_regular {d : Disk} {p : List Name} {n : Node} (hn : d p = some n)
    (hk : n.kind = .regular) : openOutputAt d false p = some (.ok n) := by
  simp [openOutputAt, hn, hk]

theorem inspectOutputAt_none {d : Disk} {fault : Bool} {p : List Name} :
    inspectOutputAt d fault p = none ↔ fault = false ∧ ∃ n, d p = some n ∧ n.kind = .fifo := by
  unfold inspectOutputAt openOutputAt
  constructor
  · intro h
    split at h
    · cases h
    rename_i hf
    split at h
    · cases h
    rename_i n hn
    rw [Option.map_eq_none_iff, if_neg Bool.false_ne_true] at h
    dsimp only at h
    split at h
    · cases h
    split at h
    · cases h
    split at h
    · rename_i hk
      exact ⟨by simpa using hf, n, hn, hk⟩
    · cases h
  · rintro ⟨rfl, n, hn, hk⟩
    simp [hn, hk]

namespace ValidatedOutputPath

def target (v : ValidatedOutputPath) : List Name := v.parentPath ++ [v.fileName]

/-- What `validate_target_at` asks of what it has found. -/
def checkTarget (v : ValidatedOutputPath) : Option Node → Except AllowlistError Unit
  | none => if v.targetIdentity = none then .ok () else .error .changedDuringOpen
  | some n => do
    validateRegularFile n
    if v.targetIdentity = some n.identity then .ok () else .error .changedDuringOpen

/-- `validate_target_at`. -/
def validateTargetBlocking (v : ValidatedOutputPath) (d : Disk) (fault : Bool) :
    Option (Except AllowlistError Unit) :=
  (inspectOutputAt d fault v.target).map fun r => do v.checkTarget (← r)

/-- The target is a FIFO, and is opened. -/
def TargetBlocks (v : ValidatedOutputPath) (d : Disk) (fault : Bool) : Prop :=
  fault = false ∧ ∃ n, d v.target = some n ∧ n.kind = .fifo

theorem validateTargetBlocking_none {v : ValidatedOutputPath} {d : Disk} {fault : Bool} :
    v.validateTargetBlocking d fault = none ↔ v.TargetBlocks d fault := by
  rw [validateTargetBlocking, Option.map_eq_none_iff, inspectOutputAt_none, TargetBlocks]

theorem checkTarget_ok {v : ValidatedOutputPath} {t : Option Node} (h : v.checkTarget t = .ok ()) :
    v.targetIdentity = t.map (·.identity) ∧ ∀ n, t = some n → n.kind = .regular := by
  cases t with
  | none =>
    rw [checkTarget] at h
    split at h
    · rename_i hid
      exact ⟨hid, nofun⟩
    · cases h
  | some n =>
    obtain ⟨_, hreg, h⟩ := bind_ok h
    split at h
    · rename_i hid
      refine ⟨hid, ?_⟩
      rintro _ ⟨⟩
      unfold validateRegularFile at hreg
      split at hreg
      · cases hreg
      · rename_i hk
        exact not_not.mp hk
    · cases h

theorem validateTargetBlocking_ok {v : ValidatedOutputPath} {d : Disk} {fault : Bool} :
    v.validateTargetBlocking d fault = some (.ok ()) ↔
      fault = false ∧ v.checkTarget (d v.target) = .ok () := by
  unfold validateTargetBlocking inspectOutputAt
  cases fault with
  | true =>
    refine ⟨?_, fun h => absurd h.1 (by decide)⟩
    intro h
    simp only [if_pos, Option.map_some, Option.some.injEq] at h
    cases h
  | false =>
    rw [if_neg Bool.false_ne_true]
    cases hn : d v.target with
    | none => simp only [Option.map_some, Option.some.injEq, ok_bind, true_and]
    | some n =>
      constructor
      · intro h
        refine ⟨rfl, ?_⟩
        unfold openOutputAt at h
        rw [if_neg Bool.false_ne_true, hn] at h
        dsimp only at h
        split at h
        · simp only [Option.map_some, Option.some.injEq] at h
          cases h
        split at h
        · simp only [Option.map_some, Option.some.injEq] at h
          cases h
        split at h
        · cases h
        · simpa only [Option.map_some, Option.some.injEq, Except.map, ok_bind] using h
      · rintro ⟨-, h⟩
        have hk := (checkTarget_ok h).2 n rfl
        rw [openOutputAt_regular hn hk]
        simpa only [Option.map_some, Option.some.injEq, Except.map, ok_bind] using h

/-- The checks are those of `validateTargetAt`. -/
theorem checkTarget_eq {v : ValidatedOutputPath} {d : Disk} :
    v.checkTarget (d v.target) = .ok () ↔ v.validateTargetAt d = .ok () := by
  rw [validateTargetAt, ← target]
  cases hn : d v.target with
  | none => rfl
  | some n =>
    dsimp only [checkTarget]
    by_cases hs : n.kind = .symlink
    · rw [if_pos hs]
      refine ⟨?_, nofun⟩
      intro h
      rw [(checkTarget_ok (t := some n) h).2 n rfl] at hs
      cases hs
    · rw [if_neg hs]

end ValidatedOutputPath

end Protocol
end EgoBridge
