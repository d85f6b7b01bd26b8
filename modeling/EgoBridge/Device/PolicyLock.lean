import EgoBridge.Device.Policy
import EgoBridge.Lib.LockFile

/-!
# Device.PolicyLock

Policy updates of any number of processes on one store.

A transaction (`begin_policy_update`) or a single call (`commit_policy_update`) opens the lock file,
checks that it still has its name and locks it, the one without waiting. A commit then reads the
policy file, compares, and renames the next document over it. `clear` removes the store's files one
by one, the policy and the lock file among them, and takes no lock.

What a process prepares is any update: `prepare_allowlist_update` and its like only read.

* `State.Inv` — between its comparison and its rename a process holds the lock, and the policy file
  is the one it has read.
* `commits_swap` — as long as `clear` removes neither file under a process, every commit replaces
  the document it was prepared against, in the file that was read.
* `cleared_lock_loses_update` — a lock file that is removed while it is held lets two updates run
  at once.
-/

namespace EgoBridge
namespace Device
namespace PolicyLock

open Protocol

/-! ## Model -/

/-- A policy document in a file of its own: every rename brings a new file. -/
structure PolicyFile where
  document : LocalPolicy
  inode : Nat
  deriving DecidableEq

/-- `load_policy_document`, on the file at the policy's path. -/
def loadPolicyFile (file : Option PolicyFile) : Except CredentialError LocalPolicy :=
  Store.loadPolicyDocument { Store.empty with policy := file.map (·.document) }

/-- The paths `clear` removes. -/
inductive ClearPath where
  | credential
  | key
  | identityMetadata
  | pendingKeyRotation
  | pendingRotationMetadata
  | pendingRegistration
  | policy
  | policyLock
  | activeBinding
  | localAdmission
  deriving DecidableEq

def clearPaths : List ClearPath :=
  [.credential, .key, .identityMetadata, .pendingKeyRotation, .pendingRotationMetadata,
    .pendingRegistration, .policy, .policyLock, .activeBinding, .localAdmission]

/-- What a process is doing. `held` says that a commit is one of a transaction. -/
inductive Job where
  | idle
  | transaction
  | committing (held : Bool) (update : PreparedPolicyUpdate)
  | replacing (held : Bool) (update : PreparedPolicyUpdate) (found : Option PolicyFile)
  | returning
  | clearing (rest : List ClearPath)

/-- A call that begins with the lock. -/
def Job.locks : Job → Bool
  | transaction => true
  | committing held _ => !held
  | _ => false

def Job.isReplacing : Job → Bool
  | replacing _ _ _ => true
  | _ => false

/-- A rename: the file the process had read, and the file it replaced. -/
structure Commit (ι : Type) where
  process : ι
  update : PreparedPolicyUpdate
  found : Option PolicyFile
  replaced : Option PolicyFile

structure State (ι : Type) where
  lock : LockFile.State ι
  job : ι → Job
  policy : Option PolicyFile
  fresh : Nat
  log : List (Commit ι)

inductive Act (ι : Type) where
  | begin (p : ι)
  | commitDirectly (p : ι) (update : PreparedPolicyUpdate)
  | clear (p : ι)
  | openLock (p : ι)
  | validate (p : ι)
  | flock (p : ι)
  | commit (p : ι) (update : PreparedPolicyUpdate)
  | compare (p : ι)
  | rename (p : ι)
  | refuse (p : ι)
  | remove (p : ι)
  | leave (p : ι)

namespace State

variable {ι : Type} [DecidableEq ι]

def setJob (s : State ι) (p : ι) (job : Job) : State ι :=
  { s with job := Function.update s.job p job }

def removed (s : State ι) : ClearPath → State ι
  | .policy => { s with policy := none }
  | .policyLock => { s with lock := s.lock.unlink }
  | _ => s

/-- One step of one process. It fails, is interrupted, or returns by `leave`; a lock that is held
makes a transaction leave and a single call wait. -/
def step (s : State ι) : Act ι → Option (State ι)
  | .begin p =>
    match s.job p with
    | .idle => some (s.setJob p .transaction)
    | _ => none
  | .commitDirectly p update =>
    match s.job p with
    | .idle => some (s.setJob p (.committing false update))
    | _ => none
  | .clear p =>
    match s.job p with
    | .idle => some (s.setJob p (.clearing clearPaths))
    | _ => none
  | .openLock p =>
    if (s.job p).locks ∧ s.lock.handle p = .closed then
      some { s with lock := s.lock.openFile p }
    else none
  | .validate p =>
    if (s.job p).locks then (s.lock.check p).map fun lock => { s with lock } else none
  | .flock p =>
    if (s.job p).locks then (s.lock.lock p).map fun lock => { s with lock } else none
  | .commit p update =>
    match s.job p, s.lock.handle p with
    | .transaction, .locked _ => some (s.setJob p (.committing true update))
    | _, _ => none
  | .compare p =>
    match s.job p, s.lock.handle p with
    | .committing held update, .locked _ =>
      if loadPolicyFile s.policy = .ok update.previous ∧
          checkedSucc update.previous.policyRevision = some update.next.policyRevision then
        some (s.setJob p (.replacing held update s.policy))
      else none
    | _, _ => none
  | .rename p =>
    match s.job p with
    | .replacing held update found =>
      some { s.setJob p (if held then .transaction else .returning) with
        policy := some ⟨update.next, s.fresh⟩
        fresh := s.fresh + 1
        log := ⟨p, update, found, s.policy⟩ :: s.log }
    | _ => none
  | .refuse p =>
    match s.job p with
    | .committing true _ => some (s.setJob p .transaction)
    | .replacing true _ _ => some (s.setJob p .transaction)
    | _ => none
  | .remove p =>
    match s.job p with
    | .clearing (path :: rest) => some ((s.removed path).setJob p (.clearing rest))
    | _ => none
  | .leave p => some { s.setJob p .idle with lock := s.lock.close p }

@[simp] theorem setJob_lock (s : State ι) (p : ι) (job : Job) : (s.setJob p job).lock = s.lock := rfl
@[simp] theorem setJob_policy (s : State ι) (p : ι) (job : Job) :
    (s.setJob p job).policy = s.policy := rfl
@[simp] theorem setJob_log (s : State ι) (p : ι) (job : Job) : (s.setJob p job).log = s.log := rfl
@[simp] theorem setJob_self (s : State ι) (p : ι) (job : Job) : (s.setJob p job).job p = job :=
  Function.update_self _ _ _
theorem setJob_ne (s : State ι) {p q : ι} (job : Job) (hq : q ≠ p) :
    (s.setJob p job).job q = s.job q :=
  Function.update_of_ne hq _ _

end State

/-- No process is at work; the store may hold a policy and a lock file. -/
structure State.Start {ι : Type} (s : State ι) : Prop where
  job : ∀ p, s.job p = .idle
  handle : ∀ p, s.lock.handle p = .closed
  holder : ∀ i, s.lock.holder i = none
  log : s.log = []

def system (ι : Type) [DecidableEq ι] : Run.System (Act ι) (State ι) where
  init := State.Start
  step := fun s a s' => s.step a = some s'

/-- `clear` removes the policy while nobody is about to replace it, and the lock file while nobody
has checked it. -/
def Undisturbed {ι : Type} (s : State ι) : Act ι → Prop
  | .remove p =>
    match s.job p with
    | .clearing (.policy :: _) => s.policy.isSome → ∀ q, (s.job q).isReplacing = false
    | .clearing (.policyLock :: _) => ∀ q, (s.lock.handle q).inUse = none
    | _ => True
  | _ => True

/-! ## Exclusion -/

/-- The update was prepared against a document and is its successor. -/
def Follows (file : Option PolicyFile) (update : PreparedPolicyUpdate) : Prop :=
  loadPolicyFile file = .ok update.previous ∧
    checkedSucc update.previous.policyRevision = some update.next.policyRevision

/-- The commit replaced the very file its process had read, whose document it was prepared
against, by the next revision. -/
def Commit.Swaps {ι : Type} (c : Commit ι) : Prop :=
  c.replaced = c.found ∧ Follows c.replaced c.update

namespace State

variable {ι : Type}

structure Inv (s : State ι) : Prop where
  lock : s.lock.Sound
  replacing : ∀ p held update found, s.job p = .replacing held update found →
    (∃ i, s.lock.handle p = .locked i) ∧ s.policy = found ∧ Follows found update
  log : ∀ c ∈ s.log, c.Swaps

theorem Start.inv {s : State ι} (h : s.Start) : s.Inv := by
  refine ⟨⟨?_, ?_⟩, ?_, ?_⟩
  · intro p i hi
    rw [h.handle p] at hi
    cases hi
  · intro p i hi
    rw [h.handle p] at hi
    cases hi
  · intro p held update found hj
    rw [h.job p] at hj
    cases hj
  · rw [h.log]
    exact List.forall_mem_nil _

/-- A step of one process that replaces nothing and is not about to. -/
theorem Inv.move {s s' : State ι} (h : s.Inv) (p : ι) (hlock : s'.lock.Sound)
    (hpolicy : s'.policy = s.policy) (hlog : s'.log = s.log)
    (hp : (s'.job p).isReplacing = false)
    (hq : ∀ q, q ≠ p → s'.job q = s.job q ∧ s'.lock.handle q = s.lock.handle q) : s'.Inv := by
  refine ⟨hlock, ?_, by rw [hlog]; exact h.log⟩
  intro q held update found hj
  by_cases hqp : q = p
  · rw [hqp] at hj
    rw [hj] at hp
    cases hp
  · rw [(hq q hqp).1] at hj
    rw [(hq q hqp).2, hpolicy]
    exact h.replacing q held update found hj

/-- Nobody else is about to replace the policy while a process holds the lock. -/
theorem Inv.alone {s : State ι} (h : s.Inv) {p : ι} {i : Nat} (hp : s.lock.handle p = .locked i)
    {q : ι} (hq : q ≠ p) : (s.job q).isReplacing = false := by
  cases hj : s.job q with
  | replacing held update found =>
    obtain ⟨⟨j, hjl⟩, -⟩ := h.replacing q held update found hj
    exact (hq (h.lock.exclusive hjl hp)).elim
  | _ => rfl

theorem not_replacing_of_locks {job : Job} (h : job.locks = true) : job.isReplacing = false := by
  cases job with
  | replacing held update found => cases h
  | _ => rfl

/-- A step on the lock file by a process that has not got the lock yet. -/
theorem Inv.lockStep {s : State ι} (h : s.Inv) {p : ι} (hp : (s.job p).locks = true)
    {lock : LockFile.State ι} (hs : lock.Sound)
    (hq : ∀ q, q ≠ p → lock.handle q = s.lock.handle q) : { s with lock := lock }.Inv :=
  h.move p hs rfl rfl (not_replacing_of_locks hp) fun q hqp => ⟨rfl, hq q hqp⟩

variable [DecidableEq ι]

theorem Inv.setJob {s : State ι} (h : s.Inv) (p : ι) {job : Job} (hj : job.isReplacing = false) :
    (s.setJob p job).Inv := by
  refine h.move p h.lock rfl rfl (by rw [setJob_self]; exact hj) ?_
  intro q hq
  exact ⟨setJob_ne s job hq, rfl⟩

theorem Inv.compare {s s' : State ι} {p : ι} (h : s.Inv) (hs : s.step (.compare p) = some s') :
    s'.Inv := by
  simp only [step] at hs
  split at hs
  · rename_i held update i hj hl
    split_ifs at hs with hf
    cases hs
    refine ⟨h.lock, ?_, h.log⟩
    intro q held' update' found hq
    by_cases hqp : q = p
    · subst hqp
      rw [setJob_self] at hq
      cases hq
      exact ⟨⟨i, hl⟩, rfl, hf⟩
    · rw [setJob_ne s _ hqp] at hq
      exact h.replacing q held' update' found hq
  · cases hs

theorem Inv.rename {s s' : State ι} {p : ι} (h : s.Inv) (hs : s.step (.rename p) = some s') :
    s'.Inv := by
  simp only [step] at hs
  split at hs
  · rename_i held update found hj
    cases hs
    obtain ⟨⟨i, hl⟩, hfound, hfollows⟩ := h.replacing p held update found hj
    refine ⟨h.lock, ?_, ?_⟩
    · intro q held' update' found' hq
      by_cases hqp : q = p
      · subst hqp
        have hq : (if held then Job.transaction else .returning) =
            .replacing held' update' found' := (setJob_self s q _).symm.trans hq
        cases held
        · cases hq
        · cases hq
      · have hq : s.job q = .replacing held' update' found' := (setJob_ne s _ hqp).symm.trans hq
        have halone := h.alone hl hqp
        rw [hq] at halone
        cases halone
    · intro c hc
      rcases List.mem_cons.mp hc with rfl | hc
      · refine ⟨hfound, ?_⟩
        show Follows s.policy update
        rw [hfound]
        exact hfollows
      · exact h.log c hc
  · cases hs

theorem Inv.remove {s s' : State ι} {p : ι} (h : s.Inv) (hok : Undisturbed s (.remove p))
    (hs : s.step (.remove p) = some s') : s'.Inv := by
  simp only [step] at hs
  split at hs
  · rename_i path rest hj
    cases hs
    refine Inv.setJob ?_ p rfl
    rw [Undisturbed, hj] at hok
    cases path with
    | policy =>
      refine ⟨h.lock, ?_, h.log⟩
      intro q held update found hq
      have hq : s.job q = .replacing held update found := hq
      obtain ⟨hl, hfound, hfollows⟩ := h.replacing q held update found hq
      refine ⟨hl, ?_, hfollows⟩
      cases hpolicy : s.policy with
      | none => exact hpolicy.symm.trans hfound
      | some file =>
        have hn := hok (by rw [hpolicy]; rfl) q
        rw [hq] at hn
        cases hn
    | policyLock => exact ⟨h.lock.unlink hok, h.replacing, h.log⟩
    | _ => exact h
  · cases hs

/-- What one step keeps. -/
theorem Inv.step {s s' : State ι} {a : Act ι} (h : s.Inv) (hok : Undisturbed s a)
    (hs : s.step a = some s') : s'.Inv := by
  cases a with
  | compare p => exact h.compare hs
  | rename p => exact h.rename hs
  | remove p => exact h.remove hok hs
  | begin p =>
    simp only [State.step] at hs
    split at hs
    · cases hs
      exact h.setJob p rfl
    · cases hs
  | commitDirectly p update =>
    simp only [State.step] at hs
    split at hs
    · cases hs
      exact h.setJob p rfl
    · cases hs
  | clear p =>
    simp only [State.step] at hs
    split at hs
    · cases hs
      exact h.setJob p rfl
    · cases hs
  | openLock p =>
    simp only [State.step] at hs
    split_ifs at hs with hp
    cases hs
    exact h.lockStep hp.1 h.lock.openFile fun q hq => s.lock.openFile_handle hq
  | validate p =>
    simp only [State.step] at hs
    split_ifs at hs with hp
    obtain ⟨lock, hl, rfl⟩ := Option.map_eq_some_iff.mp hs
    exact h.lockStep hp (h.lock.check hl) fun q hq => LockFile.State.check_handle hl hq
  | flock p =>
    simp only [State.step] at hs
    split_ifs at hs with hp
    obtain ⟨lock, hl, rfl⟩ := Option.map_eq_some_iff.mp hs
    exact h.lockStep hp (h.lock.lock hl) fun q hq => LockFile.State.lock_handle hl hq
  | commit p update =>
    simp only [State.step] at hs
    split at hs
    · cases hs
      exact h.setJob p rfl
    · cases hs
  | refuse p =>
    simp only [State.step] at hs
    split at hs
    · cases hs
      exact h.setJob p rfl
    · cases hs
      exact h.setJob p rfl
    · cases hs
  | leave p =>
    cases hs
    refine h.move p h.lock.close rfl rfl ?_ ?_
    · rw [show ({ s.setJob p .idle with lock := s.lock.close p } : State ι).job p = .idle from
        setJob_self s p _]
      rfl
    · exact fun q hq => ⟨setJob_ne s _ hq, s.lock.close_handle hq⟩

end State

/-- In every run in which `clear` removes neither file under a process, each commit replaces the
file its process has read, with the document its update was prepared against, by that document's
next revision. -/
theorem commits_swap {ι : Type} [DecidableEq ι] {s : State ι}
    (h : ((system ι).restrict Undisturbed).Reachable s) : ∀ c ∈ s.log, c.Swaps :=
  (Run.System.invariant (S := (system ι).restrict Undisturbed) (I := State.Inv)
    (fun _ h0 => h0.inv) (fun _ _ _ hi hst => hi.step hst.2 hst.1) h).log

/-! ## Two runs -/

def State.run {ι : Type} [DecidableEq ι] (s : State ι) : List (Act ι) → Option (State ι)
  | [] => some s
  | a :: acts => (s.step a).bind fun s' => s'.run acts

theorem reachable_run {ι : Type} [DecidableEq ι] {ok : State ι → Act ι → Prop}
    {acts : List (Act ι)} (hok : ∀ a ∈ acts, ∀ s, ok s a) {s s' : State ι}
    (h : ((system ι).restrict ok).Reachable s) (hr : s.run acts = some s') :
    ((system ι).restrict ok).Reachable s' := by
  induction acts generalizing s with
  | nil =>
    cases hr
    exact h
  | cons a acts ih =>
    obtain ⟨s1, h1, hr⟩ := Option.bind_eq_some_iff.mp hr
    exact ih (fun b hb => hok b (List.mem_cons_of_mem a hb))
      (h.next a ⟨h1, hok a List.mem_cons_self s⟩) hr

/-- A store without a policy and without a lock file. -/
def emptyState : State Nat :=
  ⟨⟨none, 0, fun _ => none, fun _ => .closed⟩, fun _ => .idle, none, 0, []⟩

theorem emptyState_start : emptyState.Start :=
  ⟨fun _ => rfl, fun _ => rfl, fun _ => rfl, rfl⟩

/-- The first update of a store, to a learning bundle. -/
def firstUpdate (root : String) : PreparedPolicyUpdate :=
  ⟨default, { (default : LocalPolicy) with policyRevision := 2, learningBundleRoot := some root }⟩

def oneCommit : List (Act Nat) :=
  [.begin 0, .openLock 0, .validate 0, .flock 0, .commit 0 (firstUpdate "/a"), .compare 0,
    .rename 0, .leave 0]

theorem oneCommit_log : (emptyState.run oneCommit).map (·.log) =
    some [⟨0, firstUpdate "/a", none, none⟩] := by
  rfl

theorem oneCommit_swaps : ∃ s : State Nat, s.log = [⟨0, firstUpdate "/a", none, none⟩] ∧
    ∀ c ∈ s.log, c.Swaps := by
  obtain ⟨s, hr, hlog⟩ := Option.map_eq_some_iff.mp oneCommit_log
  have hok : ∀ a ∈ oneCommit, ∀ s, Undisturbed s a := by
    simp [oneCommit, Undisturbed]
  exact ⟨s, hlog, commits_swap
    (reachable_run hok (.start (S := (system Nat).restrict Undisturbed) emptyState_start) hr)⟩

/-- The lock file is removed between a comparison and its rename. -/
def clearedUnderLock : List (Act Nat) :=
  [.commitDirectly 0 (firstUpdate "/a"), .openLock 0, .validate 0, .flock 0, .compare 0,
    .clear 1, .remove 1, .remove 1, .remove 1, .remove 1, .remove 1, .remove 1, .remove 1,
    .remove 1, .begin 2, .openLock 2, .validate 2, .flock 2, .commit 2 (firstUpdate "/b"),
    .compare 2, .rename 2, .rename 0]

theorem clearedUnderLock_log : (emptyState.run clearedUnderLock).map (·.log) =
    some [⟨0, firstUpdate "/a", none, some ⟨(firstUpdate "/b").next, 0⟩⟩,
      ⟨2, firstUpdate "/b", none, none⟩] := by
  rfl

/-- A commit replaces a committed update that its process has not read. -/
theorem cleared_lock_loses_update :
    ∃ s : State Nat, (system Nat).Reachable s ∧ ∃ c ∈ s.log, ∃ d ∈ s.log, c.process ≠ d.process ∧
      c.replaced.map (·.document) = some d.update.next ∧ c.found = none ∧ ¬ c.Swaps := by
  obtain ⟨s, hr, hlog⟩ := Option.map_eq_some_iff.mp clearedUnderLock_log
  have hreach := @reachable_run Nat _ (fun _ _ => True) clearedUnderLock (fun _ _ _ => trivial) _ _
    (.start (S := (system Nat).restrict fun _ _ => True) emptyState_start) hr
  refine ⟨s, hreach.of_restrict, ?_⟩
  rw [hlog]
  refine ⟨_, List.mem_cons_self, _, List.mem_cons_of_mem _ List.mem_cons_self, by decide, rfl, rfl,
    ?_⟩
  rintro ⟨h, -⟩
  cases h

end PolicyLock
end Device
end EgoBridge
