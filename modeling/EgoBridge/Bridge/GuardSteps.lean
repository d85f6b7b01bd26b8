import EgoBridge.Bridge.FileGuard
import EgoBridge.Protocol.Replace

/-!
# Bridge.GuardSteps

The guard's requests on a tree with FIFOs, whose opening never returns. A request holds the lock of
the guard's state from its start to its end, and stopping the guard takes that lock.

* `handleSteps_none`   — a request never returns exactly if it opens a FIFO.
* `handleSteps_coarse` — one that returns, and leaves nothing beside its target, is one of
  `handleRequest`.
* `guard_responsive`   — a guard whose requests open no FIFO can always be stopped.
* `guard_hangs`        — one that is asked to upload a FIFO cannot.
-/

namespace EgoBridge
namespace Bridge

open Files Protocol Run

/-- `stage_allowlisted_input`: its copy is made with `create_new`, and waits for nothing. -/
def stageSteps (a : Allowlist) (stagingRoot : List Name) (s : FileGuardState) (d : Disk)
    (x : Supplies) (requested : Path) :
    Option (Except GuardError String × FileGuardState × Disk) :=
  (a.openInputBlocking d x.faults requested s.budget.totalBytes s.budget.fileCount).map fun _ =>
    stageAllowlistedInput a stagingRoot s d x requested

/-- The part of a commit between taking the token and removing the staged file. -/
def installStagedSteps (a : Allowlist) (s : FileGuardState) (d : Disk) (x : Supplies)
    (y : ReplaceSupplies) (staged : Path) (destination : ValidatedOutputPath) (token : String) :
    Option (Except GuardError Unit × FileGuardState × Disk) :=
  match a.openInputBlocking d x.faults staged s.budget.totalBytes s.budget.fileCount with
  | none => none
  | some (.error _) => some (.error (.protocolMessage "helper output limit rejected"), s, d)
  | some (.ok input) =>
    if x.faults .read then some (.error (.protocolMessage "helper output changed"), s, d)
    else
      match destination.replaceSteps d y input.bytes token with
      | none => none
      | some (.error _, d) => some (.error (.protocolMessage "helper output changed"), s, d)
      | some (.ok (), d) =>
        some (.ok (), { s with budget := s.budget.charge input.sizeBytes }, d)

/-- `commit_allowlisted_output`. -/
def commitSteps (a : Allowlist) (s : FileGuardState) (d : Disk) (x : Supplies) (y : ReplaceSupplies)
    (staged : Path) (token : String) :
    Option (Except GuardError String × FileGuardState × Disk) :=
  match s.downloads.lookup token with
  | none => some (.error (.protocolMessage "helper output token rejected"), s, d)
  | some prepared =>
    let s := { s with downloads := removeToken token s.downloads }
    if (Path.ofNames prepared.stagingPath).same staged = false then
      some (.error (.protocolMessage "helper staging path rejected"), s, d)
    else
      (installStagedSteps a s d x y staged prepared.destination token).map fun (result, s, d) =>
        let d := prepared.destination.removeStaging d token
        match result with
        | .error e => (.error e, s, d)
        | .ok () =>
          match textOf prepared.destination.path with
          | some text => (.ok text, s, d)
          | none => (.error (.protocolMessage "helper output path is invalid"), s, d)

/-- `handle_file_guard_connection`, once the request is read. -/
def handleSteps (a : Allowlist) (stagingRoot : List Name) (s : FileGuardState) (d : Disk)
    (x : Supplies) (y : ReplaceSupplies) (q : FileGuardRequest) :
    Option (Answer × FileGuardState × Disk) :=
  if q.path = "" ∨ 4096 < (utf8 q.path).length then some (none, s, d)
  else if q.operation = "upload" then
    (stageSteps a stagingRoot s d x (.ofText q.path)).map fun (r, s, d) =>
      (r.toOption.map fun p => (p, none), s, d)
  else if q.operation = "prepare_download" ∧ q.token = none then
    let (r, s) := prepareAllowlistedOutput a s d x (.ofText q.path)
    some (r.toOption.map fun p => (p.1, some p.2), s, d)
  else if q.operation = "commit_download" then
    (commitSteps a s d x y (.ofText q.path) (q.token.getD "")).map fun (r, s, d) =>
      (r.toOption.map fun p => (p, none), s, d)
  else some (none, s, d)

/-! ## Requests that never return -/

def CommitHitsFifo (a : Allowlist) (s : FileGuardState) (d : Disk) (x : Supplies)
    (y : ReplaceSupplies) (staged : Path) (token : String) : Prop :=
  ∃ prepared, s.downloads.lookup token = some prepared ∧
    (Path.ofNames prepared.stagingPath).same staged = true ∧
    (a.InputBlocks d x.faults staged s.budget.totalBytes s.budget.fileCount ∨
      (∃ input, a.openInput d x.faults staged s.budget.totalBytes s.budget.fileCount = .ok input) ∧
        x.faults .read = false ∧ prepared.destination.Opens d y ∧
        prepared.destination.TargetBlocks d (y.fault .inspect))

def HitsFifo (a : Allowlist) (s : FileGuardState) (d : Disk) (x : Supplies) (y : ReplaceSupplies)
    (q : FileGuardRequest) : Prop :=
  q.path ≠ "" ∧ (utf8 q.path).length ≤ 4096 ∧
    (q.operation = "upload" ∧
        a.InputBlocks d x.faults (.ofText q.path) s.budget.totalBytes s.budget.fileCount ∨
      q.operation = "commit_download" ∧
        CommitHitsFifo a s d x y (.ofText q.path) (q.token.getD ""))

section

variable {a : Allowlist} {root : List Name} {s : FileGuardState} {d : Disk} {x : Supplies}
  {y : ReplaceSupplies} {p : Path} {token : String}

theorem installStagedSteps_none {v : ValidatedOutputPath} :
    installStagedSteps a s d x y p v token = none ↔
      a.InputBlocks d x.faults p s.budget.totalBytes s.budget.fileCount ∨
        (∃ input, a.openInput d x.faults p s.budget.totalBytes s.budget.fileCount = .ok input) ∧
          x.faults .read = false ∧ v.Opens d y ∧ v.TargetBlocks d (y.fault .inspect) := by
  obtain ⟨hnone, hsome⟩ :=
    a.openInputBlocking_eq d x.faults p s.budget.totalBytes s.budget.fileCount
  unfold installStagedSteps
  rcases ho : a.openInputBlocking d x.faults p s.budget.totalBytes s.budget.fileCount
    with _ | _ | input
  · exact ⟨fun _ => .inl (hnone.mp ho), fun _ => rfl⟩
  · refine ⟨nofun, ?_⟩
    rintro (hb | ⟨⟨input, hi⟩, -⟩)
    · rw [hnone.mpr hb] at ho
      cases ho
    · rw [← hsome _ ho] at hi
      cases hi
  · have hi := hsome _ ho
    have hopen : ¬ a.InputBlocks d x.faults p s.budget.totalBytes s.budget.fileCount := by
      intro hb
      rw [hnone.mpr hb] at ho
      cases ho
    dsimp only
    by_cases hread : x.faults .read = true
    · rw [if_pos hread]
      refine ⟨nofun, ?_⟩
      rintro (hb | ⟨-, hr, -⟩)
      · exact absurd hb hopen
      · rw [hread] at hr
        cases hr
    rw [if_neg hread]
    rw [Bool.not_eq_true] at hread
    have hreplace : v.replaceSteps d y input.bytes token = none ↔
        v.Opens d y ∧ v.TargetBlocks d (y.fault .inspect) :=
      ValidatedOutputPath.replaceSteps_none
    constructor
    · intro h
      split at h
      · rename_i hn
        exact .inr ⟨⟨input, hi.symm⟩, hread, hreplace.mp hn⟩
      · cases h
      · cases h
    · rintro (hb | ⟨-, -, hv⟩)
      · exact absurd hb hopen
      · rw [hreplace.mpr hv]

theorem commitSteps_none :
    commitSteps a s d x y p token = none ↔ CommitHitsFifo a s d x y p token := by
  unfold commitSteps CommitHitsFifo
  cases hl : s.downloads.lookup token with
  | none =>
    refine ⟨nofun, ?_⟩
    rintro ⟨prepared, h, -⟩
    cases h
  | some prepared =>
    dsimp only
    by_cases hsame : (Path.ofNames prepared.stagingPath).same p = true
    · rw [if_neg (by simp [hsame]), Option.map_eq_none_iff, installStagedSteps_none]
      refine ⟨fun h => ⟨prepared, rfl, hsame, h⟩, ?_⟩
      rintro ⟨_, ⟨⟩, -, h⟩
      exact h
    · rw [if_pos (by simpa using hsame)]
      refine ⟨nofun, ?_⟩
      rintro ⟨_, ⟨⟩, h, -⟩
      exact absurd h hsame

theorem handleSteps_none {q : FileGuardRequest} :
    handleSteps a root s d x y q = none ↔ HitsFifo a s d x y q := by
  unfold handleSteps HitsFifo
  by_cases hlen : q.path = "" ∨ 4096 < (utf8 q.path).length
  · rw [if_pos hlen]
    refine ⟨nofun, ?_⟩
    rintro ⟨h1, h2, -⟩
    exact absurd hlen (not_or.mpr ⟨h1, Nat.not_lt.mpr h2⟩)
  rw [if_neg hlen]
  obtain ⟨h1, h2⟩ := not_or.mp hlen
  have h2 := Nat.not_lt.mp h2
  by_cases hup : q.operation = "upload"
  · rw [if_pos hup, Option.map_eq_none_iff, stageSteps, Option.map_eq_none_iff,
      (a.openInputBlocking_eq _ _ _ _ _).1]
    refine ⟨fun h => ⟨h1, h2, .inl ⟨hup, h⟩⟩, ?_⟩
    rintro ⟨-, -, ⟨-, h⟩ | ⟨hc, -⟩⟩
    · exact h
    · rw [hup] at hc
      exact absurd hc (by decide)
  rw [if_neg hup]
  by_cases hprep : q.operation = "prepare_download" ∧ q.token = none
  · rw [if_pos hprep]
    refine ⟨nofun, ?_⟩
    rintro ⟨-, -, ⟨hc, -⟩ | ⟨hc, -⟩⟩
    · exact absurd hc hup
    · rw [hprep.1] at hc
      exact absurd hc (by decide)
  rw [if_neg hprep]
  by_cases hcommit : q.operation = "commit_download"
  · rw [if_pos hcommit, Option.map_eq_none_iff, commitSteps_none]
    refine ⟨fun h => ⟨h1, h2, .inr ⟨hcommit, h⟩⟩, ?_⟩
    rintro ⟨-, -, ⟨hc, -⟩ | ⟨-, h⟩⟩
    · exact absurd hc hup
    · exact h
  · rw [if_neg hcommit]
    refine ⟨nofun, ?_⟩
    rintro ⟨-, -, ⟨hc, -⟩ | ⟨hc, -⟩⟩
    · exact absurd hc hup
    · exact absurd hc hcommit

end

/-! ## Requests that return -/

/-- A commit of `token` removes the temporary file that it made. -/
def CommitCleans (s : FileGuardState) (d : Disk) (y : ReplaceSupplies) (token : String) : Prop :=
  ∀ prepared, s.downloads.lookup token = some prepared →
    ¬ prepared.destination.LeavesTemporary d y token

section

variable {a : Allowlist} {root : List Name} {s s' : FileGuardState} {d d' : Disk} {x : Supplies}
  {y : ReplaceSupplies} {p : Path} {token : String}

def Supplies.replacing (x : Supplies) (y : ReplaceSupplies) (refused late : Bool) : Supplies :=
  { x with faults := x.faults.replacing refused late, inode := y.inode }

theorem stageSteps_coarse {r : Except GuardError String}
    (h : stageSteps a root s d x p = some (r, s', d')) :
    stageAllowlistedInput a root s d x p = (r, s', d') := by
  obtain ⟨-, -, h⟩ := Option.map_eq_some_iff.mp h
  exact h

theorem installStagedSteps_coarse {v : ValidatedOutputPath} {r : Except GuardError Unit}
    (h : installStagedSteps a s d x y p v token = some (r, s', d'))
    (hl : ¬ v.LeavesTemporary d y token) :
    ∃ refused late, installStaged a s d (x.replacing y refused late) p v = (r, s', d') := by
  have hread (refused late : Bool) :
      (x.replacing y refused late).faults .read = x.faults .read := rfl
  have hopen (refused late : Bool) :
      a.openInput d (x.replacing y refused late).faults p s.budget.totalBytes s.budget.fileCount =
        a.openInput d x.faults p s.budget.totalBytes s.budget.fileCount := rfl
  unfold installStagedSteps at h
  unfold installStaged
  cases ho : a.openInputBlocking d x.faults p s.budget.totalBytes s.budget.fileCount with
  | none =>
    rw [ho] at h
    cases h
  | some opened =>
    have hi := (a.openInputBlocking_eq d x.faults p s.budget.totalBytes s.budget.fileCount).2 _ ho
    rw [ho] at h
    cases opened with
    | error e =>
      cases h
      refine ⟨false, false, ?_⟩
      rw [hopen, ← hi]
    | ok input =>
      simp only at h
      cases hf : x.faults .read with
      | true =>
        rw [hf, if_pos rfl] at h
        cases h
        refine ⟨false, false, ?_⟩
        simp only [hopen, ← hi, hread, hf, if_true]
      | false =>
        rw [hf, if_neg Bool.false_ne_true] at h
        cases hr : v.replaceSteps d y input.bytes token with
        | none =>
          rw [hr] at h
          cases h
        | some replaced =>
          obtain ⟨r1, d1⟩ := replaced
          have hchanged := Allowlist.openInput_unchanged hi.symm
          obtain ⟨refused, late, r', hr', hok⟩ :=
            ValidatedOutputPath.replaceSteps_coarse hchanged hr hl
          rw [hr] at h
          refine ⟨refused, late, ?_⟩
          have hinstall : v.replaceAtomically d (x.replacing y refused late).faults input.bytes
              (x.replacing y refused late).inode = (r', d1) := hr'
          simp only [hopen, ← hi, hread, hf, Bool.false_eq_true, if_false, hinstall]
          cases r1 with
          | ok u =>
            cases h
            rw [hok.mp rfl]
          | error e =>
            cases h
            cases r' with
            | ok u => cases hok.mpr rfl
            | error e' => rfl

theorem commitSteps_coarse {r : Except GuardError String}
    (h : commitSteps a s d x y p token = some (r, s', d')) (hl : CommitCleans s d y token) :
    ∃ x' : Supplies, x'.opaqueId = x.opaqueId ∧
      commitAllowlistedOutput a s d x' p token = (r, s', d') := by
  unfold commitSteps at h
  unfold commitAllowlistedOutput
  cases hp : s.downloads.lookup token with
  | none =>
    rw [hp] at h
    cases h
    exact ⟨x, rfl, rfl⟩
  | some prepared =>
    rw [hp] at h
    simp only at h ⊢
    by_cases hsame : (Path.ofNames prepared.stagingPath).same p = false
    · rw [if_pos hsame] at h
      cases h
      exact ⟨x, rfl, if_pos hsame⟩
    · rw [if_neg hsame] at h
      obtain ⟨⟨r1, s1, d1⟩, hinstall, h⟩ := Option.map_eq_some_iff.mp h
      obtain ⟨refused, late, hcoarse⟩ := installStagedSteps_coarse hinstall (hl prepared hp)
      refine ⟨x.replacing y refused late, rfl, ?_⟩
      rw [if_neg hsame, hcoarse]
      exact h

/-- A request that returns, and does not leave a temporary file, is one of `handleRequest`. -/
theorem handleSteps_coarse {q : FileGuardRequest} {answer : Answer}
    (h : handleSteps a root s d x y q = some (answer, s', d'))
    (hl : q.operation = "commit_download" → CommitCleans s d y (q.token.getD "")) :
    ∃ x' : Supplies, x'.opaqueId = x.opaqueId ∧
      handleRequest a root s d x' q = (answer, s', d') := by
  unfold handleSteps at h
  unfold handleRequest
  by_cases hlen : q.path = "" ∨ 4096 < (utf8 q.path).length
  · rw [if_pos hlen] at h
    cases h
    exact ⟨x, rfl, if_pos hlen⟩
  simp only [if_neg hlen] at h ⊢
  by_cases hup : q.operation = "upload"
  · rw [if_pos hup] at h
    obtain ⟨⟨r, s1, d1⟩, hstage, h⟩ := Option.map_eq_some_iff.mp h
    refine ⟨x, rfl, ?_⟩
    rw [if_pos hup, stageSteps_coarse hstage]
    exact h
  simp only [if_neg hup] at h ⊢
  by_cases hprep : q.operation = "prepare_download" ∧ q.token = none
  · rw [if_pos hprep] at h
    refine ⟨x, rfl, ?_⟩
    rw [if_pos hprep]
    exact Option.some.inj h
  simp only [if_neg hprep] at h ⊢
  by_cases hcommit : q.operation = "commit_download"
  · rw [if_pos hcommit] at h
    obtain ⟨⟨r, s1, d1⟩, hc, h⟩ := Option.map_eq_some_iff.mp h
    obtain ⟨x', hid, hx'⟩ := commitSteps_coarse hc (hl hcommit)
    refine ⟨x', hid, ?_⟩
    rw [if_pos hcommit, hx']
    exact h
  · rw [if_neg hcommit] at h
    cases h
    exact ⟨x, rfl, if_neg hcommit⟩

end

/-! ## A guard, a script and the run they belong to -/

structure StepsWorld where
  guard : FileGuardState := {}
  disk : Disk
  /-- A request holds the lock, and never returns. -/
  held : Bool := false
  stopped : Bool := false
  released : Bool := false

inductive StepsEvent where
  | request (q : FileGuardRequest) (x : Supplies) (y : ReplaceSupplies)
  | tree (d : Disk)
  | stop
  | release

/-- Requests come one at a time, and `stop` waits for the lock. -/
inductive StepsStep (a : Allowlist) (stagingRoot : List Name) :
    StepsWorld → StepsEvent → StepsWorld → Prop where
  | finish {w q x y answer s d} : w.stopped = false → w.held = false →
      x.opaqueId ∉ w.guard.downloads.map Prod.fst →
      handleSteps a stagingRoot w.guard w.disk x y q = some (answer, s, d) →
      StepsStep a stagingRoot w (.request q x y) { w with guard := s, disk := d }
  | hang {w q x y} : w.stopped = false → w.held = false →
      x.opaqueId ∉ w.guard.downloads.map Prod.fst →
      handleSteps a stagingRoot w.guard w.disk x y q = none →
      StepsStep a stagingRoot w (.request q x y) { w with held := true }
  | tree {w d} : StepsStep a stagingRoot w (.tree d) { w with disk := d }
  | stop {w} : w.stopped = false → w.held = false →
      StepsStep a stagingRoot w .stop
        { w with stopped := true, guard := { w.guard with downloads := [] },
                 disk := removeAll w.disk w.guard.downloads }
  | release {w} : w.stopped = true →
      StepsStep a stagingRoot w .release { w with released := true }

def guardSteps (a : Allowlist) (stagingRoot : List Name) : System StepsEvent StepsWorld where
  init := fun w => ∃ d, w = { disk := d }
  step := StepsStep a stagingRoot

structure Responsive (a : Allowlist) (stagingRoot : List Name) (w : StepsWorld) : Prop where
  finished : w.held = false
  stops : w.stopped = false → ∃ w' w'', (guardSteps a stagingRoot).step w .stop w' ∧
    (guardSteps a stagingRoot).step w' .release w'' ∧ w''.released = true

def AvoidsFifo (a : Allowlist) (w : StepsWorld) : StepsEvent → Prop
  | .request q x y => ¬ HitsFifo a w.guard w.disk x y q
  | _ => True

theorem Responsive.of_free {a : Allowlist} {root : List Name} {w : StepsWorld}
    (h : w.held = false) : Responsive a root w :=
  ⟨h, fun hs => ⟨_, _, .stop hs h, .release rfl, rfl⟩⟩

theorem held_step {a : Allowlist} {root : List Name} {w w' : StepsWorld} {e : StepsEvent}
    (h : w.held = false) (hs : ((guardSteps a root).restrict (AvoidsFifo a)).step w e w') :
    w'.held = false := by
  obtain ⟨hs, hok⟩ := hs
  cases hs with
  | finish => exact h
  | hang _ _ _ hnone => exact absurd (handleSteps_none.mp hnone) hok
  | tree => exact h
  | stop => exact h
  | release => exact h

/-- In every run whose requests open no FIFO, every request finishes and the guard can be stopped;
and a request that opens one, in whatever state, never returns. -/
theorem guard_responsive (a : Allowlist) (stagingRoot : List Name) :
    (∀ w, ((guardSteps a stagingRoot).restrict (AvoidsFifo a)).Reachable w →
      Responsive a stagingRoot w) ∧
    ∀ s d x y q, handleSteps a stagingRoot s d x y q = none ↔ HitsFifo a s d x y q := by
  refine ⟨?_, fun _ _ _ _ _ => handleSteps_none⟩
  intro w h
  refine .of_free (System.invariant (I := fun w => w.held = false) ?_ ?_ h)
  · rintro _ ⟨d, rfl⟩
    rfl
  · exact fun _ _ _ hi hs => held_step hi hs

def fifoDisk : Disk :=
  sampleDisk.set [.text "w", .text "p"]
    { kind := .fifo, identity := (1, 5), links := 1, owned := true, writable := true, bytes := [] }

def quietReplace : ReplaceSupplies := ⟨fun _ => false, 0, "0", (1, 10)⟩

theorem guard_responsive_beside :
    ∃ w, ((guardSteps sampleAllowlist [.text "s"]).restrict
        (AvoidsFifo sampleAllowlist)).Reachable w ∧
      w.guard.budget.fileCount = 1 ∧ Responsive sampleAllowlist [.text "s"] w := by
  have h0 : ((guardSteps sampleAllowlist [.text "s"]).restrict
      (AvoidsFifo sampleAllowlist)).Reachable { disk := fifoDisk } :=
    .start (S := (guardSteps sampleAllowlist [.text "s"]).restrict _) ⟨fifoDisk, rfl⟩
  have hcount : (handleSteps sampleAllowlist [.text "s"] {} fifoDisk (sampleSupplies "t")
      quietReplace ⟨"upload", "/w/a", none⟩).map (·.2.1.budget.fileCount) = some 1 :=
    rfl
  obtain ⟨⟨answer, s, d⟩, hr, hcount⟩ := Option.map_eq_some_iff.mp hcount
  have havoids : AvoidsFifo sampleAllowlist { disk := fifoDisk }
      (.request ⟨"upload", "/w/a", none⟩ (sampleSupplies "t") quietReplace) := by
    intro hf
    rw [handleSteps_none.mpr hf] at hr
    cases hr
  have h1 := h0.next _ ⟨.finish rfl rfl (by simp) hr, havoids⟩
  exact ⟨_, h1, hcount, (guard_responsive sampleAllowlist [.text "s"]).1 _ h1⟩

/-- The FIFO's upload never returns, and the guard is never stopped. -/
theorem guard_hangs :
    ¬ ∀ (a : Allowlist) (root : List Name) (w : StepsWorld),
      (guardSteps a root).Reachable w → Responsive a root w := by
  intro h
  have h0 : (guardSteps sampleAllowlist [.text "s"]).Reachable { disk := fifoDisk } :=
    .start (S := guardSteps sampleAllowlist [.text "s"]) ⟨fifoDisk, rfl⟩
  have hnone : handleSteps sampleAllowlist [.text "s"] {} fifoDisk (sampleSupplies "t") quietReplace
      ⟨"upload", "/w/p", none⟩ = none := by
    have : (handleSteps sampleAllowlist [.text "s"] {} fifoDisk (sampleSupplies "t") quietReplace
        ⟨"upload", "/w/p", none⟩).isNone := rfl
    exact Option.isNone_iff_eq_none.mp this
  have h1 := h0.next (.request ⟨"upload", "/w/p", none⟩ (sampleSupplies "t") quietReplace)
    (.hang rfl rfl (by simp) hnone)
  exact absurd (h _ _ _ h1).finished (by decide)

end Bridge
end EgoBridge
