import EgoBridge.Bridge.GuardSteps

/-!
# Bridge.Commits

What a commit does to its destination when a step of the replacement fails.

* `Handed`                 — what a prepared download is, in every state of the guard.
* `commitSteps_cases`      — the ways a commit ends.
* `commit_all_or_nothing`  — a commit is all or nothing exactly if it does not miss: it fails after
  the rename, or leaves the temporary file.
* `synced_too_late`        — a directory that cannot be synced is reported after the rename.
-/

namespace EgoBridge
namespace Bridge

open Files Protocol Run

/-- The bytes at a path, if there is a file. -/
def content (d : Disk) (p : List Name) : Option Bytes := (d p).map (·.bytes)

/-! ## Prepared downloads -/

/-- A download the guard has handed out. -/
structure Handed (t : String × PreparedDownload) : Prop where
  staging : t.2.stagingPath = t.2.destination.parentPath ++ [stagingFile t.1]
  target : t.2.destination.path = t.2.destination.target
  text : Textual t.2.destination.path
  /-- The destination was named before the token was drawn. -/
  fresh : t.2.destination.fileName ≠ stagingFile t.1

/-- An opaque id is in no name that was there before it. -/
def FreshIds : StepsWorld → StepsEvent → Prop
  | _, .request q x _ => (Path.ofText q.path).fileName ≠ some (stagingFile x.opaqueId)
  | _, _ => True

section

variable {a : Allowlist} {root : List Name} {s s' : FileGuardState} {d d' : Disk} {x : Supplies}
  {y : ReplaceSupplies} {p : Path} {token : String}

theorem prepare_named {r : Except GuardError (String × String)}
    (h : prepareAllowlistedOutput a s d x p = (r, s')) :
    s'.downloads = s.downloads ∨ ∃ t, s'.downloads = (x.opaqueId, t) :: s.downloads ∧
      p.fileName = some t.destination.fileName := by
  unfold prepareAllowlistedOutput at h
  split at h
  · cases h
    exact .inl rfl
  split at h
  · cases h
    exact .inl rfl
  rename_i v hv
  obtain ⟨-, -, -, hname, -⟩ := Allowlist.validateOutput_ok hv
  split at h
  · cases h
    exact .inl rfl
  simp only at h
  split at h
  · cases h
    exact .inr ⟨_, rfl, hname⟩
  · cases h
    exact .inr ⟨_, rfl, hname⟩

theorem prepare_handed {text : String} {r : Except GuardError (String × String)}
    (hs : ∀ t ∈ s.downloads, Handed t)
    (hfresh : (Path.ofText text).fileName ≠ some (stagingFile x.opaqueId))
    (h : prepareAllowlistedOutput a s d x (.ofText text) = (r, s')) :
    ∀ t ∈ s'.downloads, Handed t := by
  have htexts : TextualDestinations s := fun t ht => (hs t ht).text
  rcases prepare_named h with hdown | ⟨t, hdown, hname⟩
  · rw [hdown]
    exact hs
  rw [hdown]
  intro u hu
  rcases List.mem_cons.mp hu with rfl | hu
  · have hrem : Removable d (x.opaqueId, t) := by
      rcases prepare_staging h with ⟨hsame, -⟩ | ⟨t', ht', hrem⟩
      · exact absurd (hdown.symm.trans hsame) (List.cons_ne_self _ _)
      · cases (List.cons.inj (hdown.symm.trans ht')).1
        exact hrem
    have htext := (prepare_downloads htexts h).1 (x.opaqueId, t) (by simp [hdown])
    refine ⟨hrem.staging, hrem.target, htext, ?_⟩
    intro he
    exact hfresh (hname.trans (congrArg some he))
  · exact hs u hu

theorem installStagedSteps_downloads {v : ValidatedOutputPath} {r : Except GuardError Unit}
    (h : installStagedSteps a s d x y p v token = some (r, s', d')) :
    s'.downloads = s.downloads := by
  unfold installStagedSteps at h
  split at h
  · cases h
  · cases h
    rfl
  split at h
  · cases h
    rfl
  split at h
  · cases h
  · cases h
    rfl
  · cases h
    rfl

theorem commitSteps_downloads {r : Except GuardError String}
    (h : commitSteps a s d x y p token = some (r, s', d')) : s'.downloads ⊆ s.downloads := by
  unfold commitSteps at h
  split at h
  · cases h
    exact List.Subset.refl _
  dsimp only at h
  split at h
  · cases h
    exact List.filter_sublist.subset
  obtain ⟨⟨result, s1, d1⟩, hi, h⟩ := Option.map_eq_some_iff.mp h
  have hdown : s1.downloads ⊆ s.downloads := by
    rw [installStagedSteps_downloads hi]
    exact List.filter_sublist.subset
  dsimp only at h
  split at h
  · cases h
    exact hdown
  split at h
  · cases h
    exact hdown
  · cases h
    exact hdown

theorem handle_handed {answer : Answer} {q : FileGuardRequest}
    (hs : ∀ t ∈ s.downloads, Handed t)
    (hfresh : (Path.ofText q.path).fileName ≠ some (stagingFile x.opaqueId))
    (h : handleSteps a root s d x y q = some (answer, s', d')) :
    ∀ t ∈ s'.downloads, Handed t := by
  unfold handleSteps at h
  split at h
  · cases h
    exact hs
  split at h
  · obtain ⟨⟨r, s1, d1⟩, hst, h⟩ := Option.map_eq_some_iff.mp h
    obtain ⟨_, -, hst⟩ := Option.map_eq_some_iff.mp hst
    cases h
    rw [(stage_staging hst).1]
    exact hs
  split at h
  · rcases hp : prepareAllowlistedOutput a s d x (.ofText q.path) with ⟨r, s1⟩
    rw [hp] at h
    cases h
    exact prepare_handed hs hfresh hp
  split at h
  · obtain ⟨⟨r, s1, d1⟩, hc, h⟩ := Option.map_eq_some_iff.mp h
    cases h
    exact fun t ht => hs t (commitSteps_downloads hc ht)
  · cases h
    exact hs

theorem handed_of_reachable {w : StepsWorld}
    (h : ((guardSteps a root).restrict FreshIds).Reachable w) :
    ∀ t ∈ w.guard.downloads, Handed t := by
  refine System.invariant (I := fun w => ∀ t ∈ w.guard.downloads, Handed t) ?_ ?_ h
  · rintro _ ⟨d, rfl⟩
    exact nofun
  · rintro w e w' hi ⟨hs, hfresh⟩
    cases hs with
    | finish _ _ _ hr => exact handle_handed hi hfresh hr
    | hang => exact hi
    | tree => exact hi
    | stop => exact nofun
    | release => exact hi

end

/-! ## Commits -/

/-- A commit that returns is all or nothing: it fails with the destination's content, the budget and
the temporary name as they were, or it succeeds with the staged bytes at the destination, charged
once, and no temporary file. -/
structure AllOrNothing (a : Allowlist) (s s' : FileGuardState) (d d' : Disk)
    (prepared : PreparedDownload) (temporary : List Name) (r : Except GuardError String) : Prop where
  nothing : ∀ e, r = .error e →
    content d' prepared.destination.target = content d prepared.destination.target ∧
      s'.budget = s.budget ∧ d' temporary = d temporary
  all : ∀ u, r = .ok u → ∃ bytes, content d prepared.stagingPath = some bytes ∧
    content d' prepared.destination.target = some bytes ∧
      Charge a s.budget s'.budget bytes.length ∧ d' temporary = none

/-- A fault that a commit reports too late, or does not undo: after the rename, unless the
destination held the staged bytes before; at reading the new temporary file's metadata; or at
removing it, after another one. -/
def Misses (a : Allowlist) (s : FileGuardState) (d : Disk) (x : Supplies) (y : ReplaceSupplies)
    (staged : Path) (token : String) (prepared : PreparedDownload) : Prop :=
  (Path.ofNames prepared.stagingPath).same staged = true ∧
    ∃ input, a.openInput d x.faults staged s.budget.totalBytes s.budget.fileCount = .ok input ∧
      x.faults .read = false ∧ prepared.destination.Begins d y token ∧
      (prepared.destination.LeavesTemporary d y token ∨
        ¬ prepared.destination.FailsEarly y token ∧ y.failsLate = true ∧
          content d prepared.destination.target ≠ content d prepared.stagingPath)

section

variable {a : Allowlist} {s s' : FileGuardState} {d d' d1 : Disk} {x : Supplies}
  {y : ReplaceSupplies} {p : Path} {token : String} {prepared : PreparedDownload}

theorem removeStaging_of_ne (v : ValidatedOutputPath) (d : Disk) {p : List Name}
    (h : p ≠ v.parentPath ++ [stagingFile token]) : v.removeStaging d token p = d p := by
  unfold ValidatedOutputPath.removeStaging
  cases v.openParent d with
  | error e => rfl
  | ok u =>
    cases hname : stagingName token with
    | error e => rfl
    | ok name =>
      rw [← stagingName_ok hname] at h
      exact Disk.unlink_of_ne d h

theorem commitFile_ne_stagingFile (token unique other : String) :
    commitFile token unique ≠ stagingFile other := by
  intro h
  -- one ends in `.commit`, the other in `.incoming`
  have h := congrArg String.toList (Name.text.inj h)
  simp only [String.toList_append] at h
  have h := congrArg List.reverse h
  simp at h

theorem temporary_ne (v : ValidatedOutputPath) (y : ReplaceSupplies) (token : String) :
    v.temporary y token ≠ v.parentPath ++ [stagingFile token] := by
  intro h
  exact commitFile_ne_stagingFile _ _ _ (List.cons.inj (List.append_cancel_left h)).1

theorem Handed.target_ne (h : Handed (token, prepared)) :
    prepared.destination.target ≠ prepared.destination.parentPath ++ [stagingFile token] := by
  intro he
  exact h.fresh (List.cons.inj (List.append_cancel_left he)).1

/-- The staged file is removed beside the target and the temporary file. -/
theorem allOrNothing_error (h : Handed (token, prepared)) {e : GuardError} :
    AllOrNothing a s s' d (prepared.destination.removeStaging d1 token) prepared
        (prepared.destination.temporary y token) (.error e) ↔
      content d1 prepared.destination.target = content d prepared.destination.target ∧
        s'.budget = s.budget ∧
        d1 (prepared.destination.temporary y token) = d (prepared.destination.temporary y token) := by
  have htarget := removeStaging_of_ne prepared.destination d1 h.target_ne
  have htemporary := removeStaging_of_ne prepared.destination d1
    (temporary_ne prepared.destination y token)
  constructor
  · intro ha
    have := ha.nothing e rfl
    rwa [content, htarget, htemporary] at this
  · intro ha
    refine ⟨fun _ _ => ?_, nofun⟩
    rwa [content, htarget, htemporary]

/-- The staged file of a commit that names its own path. -/
theorem openInput_staged (hsame : (Path.ofNames prepared.stagingPath).same p = true)
    {f : ValidatedInputFile}
    (h : a.openInput d x.faults p s.budget.totalBytes s.budget.fileCount = .ok f) :
    content d prepared.stagingPath = some f.bytes ∧
      Charge a s.budget (s.budget.charge f.sizeBytes) f.bytes.length := by
  obtain ⟨-, -, -, hnames, n, hd, -⟩ := Allowlist.openInput_ok h
  obtain ⟨hsize, m, hm, hbytes⟩ := Allowlist.openInput_bytes h
  have hpath : p.names? = some prepared.stagingPath := by
    have hc : p.components = prepared.stagingPath.map .normal := by
      exact (of_decide_eq_true hsame).2.symm
    have := names_map_normal p.absolute p.trailing prepared.stagingPath
    rwa [← hc] at this
  rw [← Option.some.inj (hpath.symm.trans hnames)] at hm
  have hfile : fileSize d p = f.bytes.length := by
    simp [fileSize, hpath, hm, hbytes]
  refine ⟨by rw [content, hm, Option.map_some, hbytes], ?_⟩
  rw [← hfile]
  exact charge_of_input h

theorem misses_iff (hsame : (Path.ofNames prepared.stagingPath).same p = true)
    {input : ValidatedInputFile}
    (hi : a.openInput d x.faults p s.budget.totalBytes s.budget.fileCount = .ok input)
    (hread : x.faults .read = false) :
    Misses a s d x y p token prepared ↔ prepared.destination.Begins d y token ∧
      (prepared.destination.LeavesTemporary d y token ∨
        ¬ prepared.destination.FailsEarly y token ∧ y.failsLate = true ∧
          content d prepared.destination.target ≠ content d prepared.stagingPath) := by
  constructor
  · rintro ⟨-, -, -, -, hb, hm⟩
    exact ⟨hb, hm⟩
  · rintro ⟨hb, hm⟩
    exact ⟨hsame, input, hi, hread, hb, hm⟩

/-- How the replacement in a commit ends, and whether that is a miss. -/
theorem replace_exact (hsame : (Path.ofNames prepared.stagingPath).same p = true)
    {input : ValidatedInputFile}
    (hi : a.openInput d x.faults p s.budget.totalBytes s.budget.fileCount = .ok input)
    (hread : x.faults .read = false) {r : Except AllowlistError Unit}
    (hr : prepared.destination.replaceSteps d y input.bytes token = some (r, d1)) :
    (r = .ok () ∧ ¬ Misses a s d x y p token prepared ∧
        content d1 prepared.destination.target = some input.bytes ∧
        d1 (prepared.destination.temporary y token) = none) ∨
      ((∃ e, r = .error e) ∧ ((content d1 prepared.destination.target =
            content d prepared.destination.target ∧
          d1 (prepared.destination.temporary y token) =
            d (prepared.destination.temporary y token)) ↔
        ¬ Misses a s d x y p token prepared)) := by
  rw [misses_iff hsame hi hread]
  by_cases hb : prepared.destination.Begins d y token
  swap
  · rcases ValidatedOutputPath.replaceSteps_unbegun hb with ⟨hn, -⟩ | ⟨e, he⟩
    · rw [hn] at hr
      cases hr
    · rw [he] at hr
      cases hr
      exact .inr ⟨⟨e, rfl⟩, iff_of_true ⟨rfl, rfl⟩ fun hm => hb hm.1⟩
  have hunused := hb.unused
  cases hstat : y.fault .stat with
  | true =>
    rw [ValidatedOutputPath.replaceSteps_stat hb hstat] at hr
    cases hr
    refine .inr ⟨⟨_, rfl⟩, iff_of_false ?_ (not_not.mpr ⟨hb, .inl ⟨hb, .inl hstat⟩⟩)⟩
    rintro ⟨-, ht⟩
    rw [Disk.set_self, hunused] at ht
    cases ht
  | false =>
    by_cases hearly : prepared.destination.FailsEarly y token
    · obtain ⟨e, m, he⟩ := ValidatedOutputPath.replaceSteps_early hb hstat
        hearly
      rw [he] at hr
      cases hr
      refine .inr ⟨⟨e, rfl⟩, ?_⟩
      cases hun : y.fault .unlink with
      | true =>
        refine iff_of_false ?_ (not_not.mpr ⟨hb, .inl ⟨hb, .inr ⟨hearly, hun⟩⟩⟩)
        rintro ⟨-, ht⟩
        rw [if_pos rfl, Disk.set_self, hunused] at ht
        cases ht
      | false =>
        refine iff_of_true ⟨rfl, rfl⟩ ?_
        rintro ⟨-, ⟨-, hleft⟩ | ⟨hnot, -⟩⟩
        · rcases hleft with h | ⟨-, h⟩
          · rw [hstat] at h
            cases h
          · rw [hun] at h
            cases h
        · exact hnot hearly
    · have hself : prepared.destination.temporary y token ≠ prepared.destination.target := fun h =>
        hearly (.inr (.inr (.inr (.inr (.inl h)))))
      have hleft : ¬ prepared.destination.LeavesTemporary d y token := by
        rintro ⟨-, h | ⟨h, -⟩⟩
        · rw [hstat] at h
          cases h
        · exact hearly h
      have hnew : content (d.set prepared.destination.target (temporaryFile y.inode input.bytes))
          prepared.destination.target = some input.bytes := by
        rw [content, Disk.set_self]
        rfl
      have htemporary : d.set prepared.destination.target (temporaryFile y.inode input.bytes)
          (prepared.destination.temporary y token) = none := by
        rw [Disk.set_of_ne d _ hself, hunused]
      rw [ValidatedOutputPath.replaceSteps_renamed hb hstat hearly] at hr
      cases hr
      cases hlate : y.failsLate with
      | false =>
        refine .inl ⟨rfl, ?_, hnew, htemporary⟩
        rintro ⟨-, h | ⟨-, h, -⟩⟩
        · exact hleft h
        · cases h
      | true =>
        refine .inr ⟨⟨_, rfl⟩, ?_⟩
        rw [hnew, htemporary, hunused, (openInput_staged hsame hi).1]
        simp only [and_true, hb, true_and, hleft, false_or, hearly, not_false_eq_true, not_not,
          ne_eq, eq_comm]

/-- A commit is all or nothing exactly if it does not miss. -/
theorem commit_exact (hh : Handed (token, prepared)) (hl : s.downloads.lookup token = some prepared)
    {r : Except GuardError String} (hc : commitSteps a s d x y p token = some (r, s', d')) :
    AllOrNothing a s s' d d' prepared (prepared.destination.temporary y token) r ↔
      ¬ Misses a s d x y p token prepared := by
  unfold commitSteps at hc
  rw [hl] at hc
  dsimp only at hc
  by_cases hsame : (Path.ofNames prepared.stagingPath).same p = true
  swap
  · rw [if_pos (by simpa using hsame)] at hc
    cases hc
    exact iff_of_true ⟨fun _ _ => ⟨rfl, rfl, rfl⟩, nofun⟩ fun hm => hsame hm.1
  rw [if_neg (by simp [hsame])] at hc
  obtain ⟨⟨result, s1, d1⟩, hi, hc⟩ := Option.map_eq_some_iff.mp hc
  unfold installStagedSteps at hi
  dsimp only at hi
  have hopen := (a.openInputBlocking_eq d x.faults p s.budget.totalBytes s.budget.fileCount).2
  rcases ho : a.openInputBlocking d x.faults p s.budget.totalBytes s.budget.fileCount
    with _ | _ | input
  · rw [ho] at hi
    cases hi
  · rw [ho] at hi
    cases hi
    cases hc
    rw [allOrNothing_error hh]
    refine iff_of_true ⟨rfl, rfl, rfl⟩ ?_
    rintro ⟨-, input, h, -⟩
    rw [← hopen _ ho] at h
    cases h
  have hinput := (hopen _ ho).symm
  rw [ho] at hi
  dsimp only at hi
  by_cases hread : x.faults .read = true
  · rw [if_pos hread] at hi
    cases hi
    cases hc
    rw [allOrNothing_error hh]
    refine iff_of_true ⟨rfl, rfl, rfl⟩ ?_
    rintro ⟨-, -, -, h, -⟩
    rw [hread] at h
    cases h
  rw [if_neg hread] at hi
  rw [Bool.not_eq_true] at hread
  rcases hr : prepared.destination.replaceSteps d y input.bytes token with _ | ⟨_ | _, d2⟩
  · rw [hr] at hi
    cases hi
  · rw [hr] at hi
    cases hi
    cases hc
    rcases replace_exact hsame hinput hread hr with ⟨h, -⟩ | ⟨-, h⟩
    · cases h
    · rw [allOrNothing_error hh, ← h]
      simp only [true_and]
  · rw [hr] at hi
    cases hi
    obtain ⟨text, htext⟩ := textOf_textual hh.text
    dsimp only at hc
    rw [htext] at hc
    cases hc
    rcases replace_exact hsame hinput hread hr with ⟨-, hm, hnew, hgone⟩ | ⟨⟨_, h⟩, -⟩
    · obtain ⟨hstaged, hcharge⟩ := openInput_staged hsame hinput
      refine iff_of_true ⟨nofun, fun _ _ => ⟨input.bytes, hstaged, ?_, hcharge, ?_⟩⟩ hm
      · rw [content, removeStaging_of_ne _ _ hh.target_ne]
        exact hnew
      · rw [removeStaging_of_ne _ _ (temporary_ne _ _ _)]
        exact hgone
    · cases h

end

/-- In every state of the guard, a commit that returns is all or nothing exactly if it does not
miss. -/
theorem commit_all_or_nothing {a : Allowlist} {root : List Name} {w : StepsWorld}
    (h : ((guardSteps a root).restrict FreshIds).Reachable w) {x : Supplies} {y : ReplaceSupplies}
    {staged : Path} {token : String} {prepared : PreparedDownload}
    (hl : w.guard.downloads.lookup token = some prepared) {r : Except GuardError String}
    {s' : FileGuardState} {d' : Disk}
    (hc : commitSteps a w.guard w.disk x y staged token = some (r, s', d')) :
    AllOrNothing a w.guard s' w.disk d' prepared (prepared.destination.temporary y token) r ↔
      ¬ Misses a w.guard w.disk x y staged token prepared := by
  obtain ⟨l, rest, he, -⟩ := List.lookup_eq_some_iff.mp hl
  have hh : Handed (token, prepared) := handed_of_reachable h (token, prepared) (by simp [he])
  exact commit_exact hh hl hc

/-! ## Two commits -/

/-- A download to `/w/b` is prepared, and its seven bytes are staged. -/
def committing : StepsWorld where
  guard := (prepareAllowlistedOutput sampleAllowlist {} sampleDisk (sampleSupplies "t")
    (.ofText "/w/b")).2
  disk := sampleDisk.set sampleStaging (newFile (1, 8) [1, 2, 3, 4, 5, 6, 7])

theorem committing_reachable :
    ((guardSteps sampleAllowlist [.text "s"]).restrict FreshIds).Reachable committing := by
  have h0 : ((guardSteps sampleAllowlist [.text "s"]).restrict FreshIds).Reachable
      { disk := sampleDisk } :=
    .start (S := (guardSteps sampleAllowlist [.text "s"]).restrict FreshIds) ⟨sampleDisk, rfl⟩
  have hr : ∃ answer, handleSteps sampleAllowlist [.text "s"] {} sampleDisk (sampleSupplies "t")
      quietReplace ⟨"prepare_download", "/w/b", none⟩ =
        some (answer, committing.guard, sampleDisk) := by
    unfold handleSteps
    rw [if_neg (by decide), if_neg (by decide), if_pos (by decide)]
    exact ⟨_, rfl⟩
  obtain ⟨answer, hr⟩ := hr
  have hfresh : (Path.ofText "/w/b").fileName ≠ some (stagingFile "t") := by decide
  have h1 := h0.next (.request ⟨"prepare_download", "/w/b", none⟩ (sampleSupplies "t") quietReplace)
    ⟨.finish rfl rfl (by simp) hr, hfresh⟩
  exact h1.next (.tree committing.disk) ⟨.tree, trivial⟩

/-- Whether a commit succeeds, and the destination's content before and after it. -/
def commitOutcome (a : Allowlist) (w : StepsWorld) (x : Supplies) (y : ReplaceSupplies)
    (staged : Path) (token : String) : Option (Bool × Option Bytes × Option Bytes) := do
  let prepared ← w.guard.downloads.lookup token
  let (r, _, d) ← commitSteps a w.guard w.disk x y staged token
  some (r.toOption.isSome, content w.disk prepared.destination.target,
    content d prepared.destination.target)

theorem commitOutcome_some {a : Allowlist} {w : StepsWorld} {x : Supplies} {y : ReplaceSupplies}
    {staged : Path} {token : String} {ok : Bool} {before after : Option Bytes}
    (h : commitOutcome a w x y staged token = some (ok, before, after)) :
    ∃ prepared r s d, w.guard.downloads.lookup token = some prepared ∧
      commitSteps a w.guard w.disk x y staged token = some (r, s, d) ∧
      r.toOption.isSome = ok ∧ content w.disk prepared.destination.target = before ∧
      content d prepared.destination.target = after := by
  obtain ⟨prepared, hl, h⟩ := Option.bind_eq_some_iff.mp h
  obtain ⟨⟨r, s, d⟩, hc, h⟩ := Option.bind_eq_some_iff.mp h
  cases h
  exact ⟨prepared, r, s, d, hl, hc, rfl, rfl, rfl⟩

/-- The sample commit. -/
def sampleOutcome (y : ReplaceSupplies) : Option (Bool × Option Bytes × Option Bytes) :=
  commitOutcome sampleAllowlist committing (sampleSupplies "u") y (.ofNames sampleStaging) "t"

/-- A commit without faults. -/
theorem commit_all_or_nothing_quiet :
    ∃ prepared r s d, r.toOption.isSome = true ∧ content d prepared.destination.target =
        some [1, 2, 3, 4, 5, 6, 7] ∧
      AllOrNothing sampleAllowlist committing.guard s committing.disk d prepared
        (prepared.destination.temporary quietReplace "t") r := by
  have hout : sampleOutcome quietReplace = some (true, none, some [1, 2, 3, 4, 5, 6, 7]) :=
    rfl
  obtain ⟨prepared, r, s, d, hl, hc, hok, -, hafter⟩ := commitOutcome_some hout
  refine ⟨prepared, r, s, d, hok, hafter, (commit_all_or_nothing committing_reachable hl hc).mpr ?_⟩
  rintro ⟨-, -, -, -, -, ⟨-, h | ⟨-, h⟩⟩ | ⟨-, h, -⟩⟩
  · cases h
  · cases h
  · cases h

/-- The directory cannot be synced once the file has been renamed. -/
def unsynced : ReplaceSupplies := { quietReplace with fault := fun f => f = .syncParent }

/-- The commit fails, and the destination holds the staged bytes. -/
theorem synced_too_late :
    ¬ ∀ (a : Allowlist) (root : List Name) (w : StepsWorld),
      ((guardSteps a root).restrict FreshIds).Reachable w →
      ∀ (x : Supplies) (y : ReplaceSupplies) (staged : Path) (token : String)
        (prepared : PreparedDownload), w.guard.downloads.lookup token = some prepared →
      ∀ (r : Except GuardError String) (s' : FileGuardState) (d' : Disk),
        commitSteps a w.guard w.disk x y staged token = some (r, s', d') →
        AllOrNothing a w.guard s' w.disk d' prepared (prepared.destination.temporary y token) r := by
  intro h
  have hout : sampleOutcome unsynced = some (false, none, some [1, 2, 3, 4, 5, 6, 7]) :=
    rfl
  obtain ⟨prepared, r, s, d, hl, hc, hok, hbefore, hafter⟩ := commitOutcome_some hout
  have hall := h _ _ _ committing_reachable _ _ _ _ _ hl _ _ _ hc
  cases r with
  | ok u => cases hok
  | error e =>
    have := (hall.nothing e rfl).1
    rw [hbefore, hafter] at this
    cases this

end Bridge
end EgoBridge
