import EgoBridge.Bridge.RunProcess

/-!
# Bridge.RunHonest

What `run_process` reports, over every interleaving with its surroundings.

* `Stable`       — what no step of the surroundings changes.
* `PhaseOk`      — what the function knows at each of its phases.
* `output_texts` — the two texts are read off what the readers collected.
* `run_honest`   — no success unless the child ran to its end, was read to the end, and both
                   signals were down behind it.
-/

namespace EgoBridge
namespace Bridge
namespace RunProcess

open Protocol Run

/-! ## What the surroundings cannot change -/

namespace RunState

@[simp] theorem setPipe_pipe (s : RunState) (k : Channel) (p : Pipe) :
    (s.setPipe k p).pipe k = p := by
  cases k <;> rfl

theorem setPipe_pipe_ne (s : RunState) {k k' : Channel} (p : Pipe) (h : k' ≠ k) :
    (s.setPipe k p).pipe k' = s.pipe k' := by
  cases k <;> cases k' <;> first | rfl | exact absurd rfl h

/-- A step of the surroundings, seen from the function. -/
structure Stable (s s' : RunState) : Prop where
  phase : s'.phase = s.phase
  acted : s'.acted = s.acted
  childExited : s'.childExited = s.childExited
  checked : s'.checked = s.checked
  checkedRequest : s'.checkedRequest = s.checkedRequest
  output : s'.output = s.output
  child : s.child.isExited = true → s'.child = s.child
  kept : ∀ k, (s.pipe k).Kept (s'.pipe k)
  sound : ∀ k, (s'.pipe k).Sound (maximum k)

theorem stable_setPipe {s : RunState} (hs : ∀ k, (s.pipe k).Sound (maximum k)) {k : Channel}
    {p : Pipe} (hp : p.Sound (maximum k)) (hk : (s.pipe k).Kept p) : Stable s (s.setPipe k p) := by
  have hother : ∀ k', k' ≠ k → (s.setPipe k p).pipe k' = s.pipe k' :=
    fun k' h => setPipe_pipe_ne s p h
  constructor
  case child => exact fun _ => by cases k <;> rfl
  case kept =>
    intro k'
    by_cases h : k' = k
    · subst h
      rwa [setPipe_pipe]
    · rw [hother k' h]
      exact Pipe.kept_of_task rfl
  case sound =>
    intro k'
    by_cases h : k' = k
    · subst h
      rwa [setPipe_pipe]
    · rw [hother k' h]
      exact hs k'
  all_goals cases k <;> rfl

/-- A change outside the pipes and the child. -/
theorem stable_rest {s s' : RunState} (hs : ∀ k, (s.pipe k).Sound (maximum k))
    (h : s' = { s with
      events := s'.events, cancellation := s'.cancellation
      requestCancellation := s'.requestCancellation, deadline := s'.deadline }) :
    Stable s s' := by
  have hpipe : ∀ k, s'.pipe k = s.pipe k := by
    intro k
    rw [h]
    cases k <;> rfl
  constructor
  case child =>
    intro _
    rw [h]
  case kept =>
    intro k
    rw [hpipe]
    exact Pipe.kept_of_task rfl
  case sound =>
    intro k
    rw [hpipe]
    exact hs k
  all_goals rw [h]

theorem Stable.trans {s s' s'' : RunState} (h : Stable s s') (h' : Stable s' s'') :
    Stable s s'' where
  phase := h'.phase.trans h.phase
  acted := h'.acted.trans h.acted
  childExited := h'.childExited.trans h.childExited
  checked := h'.checked.trans h.checked
  checkedRequest := h'.checkedRequest.trans h.checkedRequest
  output := h'.output.trans h.output
  child := fun he => (h'.child (by rw [h.child he]; exact he)).trans (h.child he)
  kept := fun k => ⟨fun hu => (h'.kept k).unspawned ((h.kept k).unspawned hu),
    fun c hc => (h'.kept k).capture c ((h.kept k).capture c hc)⟩
  sound := h'.sound

theorem reads_stable {s s' : RunState} (hs : ∀ k, (s.pipe k).Sound (maximum k)) {k : Channel}
    {r : Option (Pipe × List ReaderEvent)}
    (hr : ∀ p events, r = some (p, events) → p.Sound (maximum k) ∧ (s.pipe k).Kept p)
    (h : s.reads k r = some s') : Stable s s' := by
  unfold reads at h
  rw [Option.map_eq_some_iff] at h
  obtain ⟨⟨p, events⟩, hp, rfl⟩ := h
  obtain ⟨hsound, hkept⟩ := hr p events hp
  have h1 := stable_setPipe hs hsound hkept
  exact h1.trans (stable_rest h1.sound rfl)

/-- Whatever the surroundings do. -/
theorem surround_stable {s s' : RunState} {e : Surrounding}
    (hs : ∀ k, (s.pipe k).Sound (maximum k)) (h : s.surround e = some s') : Stable s s' := by
  cases e with
  | write k bytes =>
    simp only [surround] at h
    split at h
    · cases h
    · rw [Option.map_eq_some_iff] at h
      obtain ⟨p, hp, rfl⟩ := h
      obtain ⟨hsound, hkept⟩ := (hs k).write hp
      exact stable_setPipe hs hsound hkept
  | close k =>
    simp only [surround] at h
    split at h
    · cases h
    · cases h
      exact stable_setPipe hs (hs k).close (Pipe.kept_of_task rfl)
  | exit code =>
    simp only [surround] at h
    split at h
    · rename_i hrun
      cases h
      refine ⟨rfl, rfl, rfl, rfl, rfl, rfl, ?_, ?_, ?_⟩
      · intro he
        rw [hrun] at he
        cases he
      · intro k
        cases k <;> exact Pipe.kept_of_task rfl
      · intro k
        cases k
        · exact hs .stdout
        · exact hs .stderr
    · cases h
  | signal up =>
    cases h
    exact stable_rest hs rfl
  | signalGone =>
    cases h
    exact stable_rest hs rfl
  | request up =>
    cases h
    exact stable_rest hs rfl
  | requestGone =>
    cases h
    exact stable_rest hs rfl
  | deadline =>
    cases h
    exact stable_rest hs rfl
  | read k n => exact reads_stable hs (fun p events hp => (hs k).read hp) h
  | readFails k => exact reads_stable hs (fun p events hp => (hs k).readFails hp) h
  | panic k =>
    simp only [surround] at h
    rw [Option.map_eq_some_iff] at h
    obtain ⟨p, hp, rfl⟩ := h
    obtain ⟨hsound, hkept⟩ := Pipe.sound_panic hp
    exact stable_setPipe hs hsound hkept

/-! ## What the function knows -/

/-- How the loop ended, for the status it left. -/
def Ended (s : RunState) : Option ExecutionStatus → Prop
  | none => s.acted = none ∧ s.childExited = true
  | some status => s.childExited = false ∧ ∃ stop : Stop, s.acted = some stop ∧ stop.status = status

/-- The loop has ended, with the child dead. -/
structure Over (s : RunState) (status : Option ExecutionStatus) : Prop where
  child : s.child.isExited = true
  ended : s.Ended status

structure Joined (s : RunState) (stdout stderr : BoundedCapture) : Prop where
  stdout : s.stdout.task.capture = some stdout
  stderr : s.stderr.task.capture = some stderr

/-- What the looks behind the child saw, if there was cause to look. -/
def Looked (s : RunState) (status : Option ExecutionStatus) (cancelled : Bool) : Prop :=
  status = none → s.checked = some cancelled

def LookedTwice (s : RunState) (status : Option ExecutionStatus)
    (cancelled requestCancelled : Bool) : Prop :=
  status = none → cancelled = false → s.checkedRequest = some requestCancelled


structure Concluded (s : RunState) (status : Option ExecutionStatus)
    (stdout stderr : BoundedCapture) (cancelled requestCancelled : Bool)
    (artifacts : Option (List ArtifactDescriptor)) : Prop where
  loopOver : s.Over status
  joined : s.Joined stdout stderr
  looked : s.Looked status cancelled
  lookedTwice : s.LookedTwice status cancelled requestCancelled
  output : s.output = some ⟨Bridge.conclude status cancelled requestCancelled stdout stderr
    s.child.code artifacts, fromUtf8Lossy stdout.bytes, fromUtf8Lossy stderr.bytes⟩

/-- Before the readers are spawned. -/
structure Idle (s : RunState) : Prop where
  stdout : s.stdout.task = .unspawned
  stderr : s.stderr.task = .unspawned

structure Undecided (s : RunState) : Prop where
  acted : s.acted = none
  childExited : s.childExited = false

/-- An early return. -/
structure Early (s : RunState) (status : ExecutionStatus) : Prop where
  undecided : s.Undecided
  idle : s.Idle
  failed : ranToEnd status = false
  output : s.output = some ⟨⟨status, none, []⟩, "", ""⟩

/-- What holds at each phase. -/
def PhaseOk (s : RunState) : Prop :=
  match s.phase with
  | .subscribe => s.Undecided ∧ s.Idle
  | .subscribeRequest => s.Undecided ∧ s.Idle
  | .setup => s.Undecided ∧ s.Idle
  | .spawned => s.Undecided ∧ s.Idle
  | .spawnedRequest => s.Undecided ∧ s.Idle
  | .feed => s.Undecided ∧ s.Idle
  | .poll => s.Undecided
  | .select => s.Undecided
  | .terminate _ => s.Undecided
  | .join status => s.Over status
  | .check status stdout stderr => s.Over status ∧ s.Joined stdout stderr
  | .checkRequest status stdout stderr cancelled =>
    s.Over status ∧ s.Joined stdout stderr ∧ s.Looked status cancelled
  | .conclude status stdout stderr cancelled requestCancelled =>
    s.Over status ∧ s.Joined stdout stderr ∧ s.Looked status cancelled ∧
      s.LookedTwice status cancelled requestCancelled
  | .finished =>
    (∃ status, s.Early status) ∨ ∃ status stdout stderr cancelled requestCancelled artifacts,
      s.Concluded status stdout stderr cancelled requestCancelled artifacts

section

variable {s s' : RunState} (h : Stable s s')

include h

theorem Stable.undecided (hu : s.Undecided) : s'.Undecided :=
  ⟨h.acted.trans hu.acted, h.childExited.trans hu.childExited⟩

theorem Stable.idle (hi : s.Idle) : s'.Idle :=
  ⟨(h.kept .stdout).unspawned hi.stdout, (h.kept .stderr).unspawned hi.stderr⟩

theorem Stable.loopOver {status : Option ExecutionStatus} (ho : s.Over status) : s'.Over status := by
  refine ⟨by rw [h.child ho.child]; exact ho.child, ?_⟩
  have he := ho.ended
  cases status with
  | none => exact ⟨h.acted.trans he.1, h.childExited.trans he.2⟩
  | some status =>
    obtain ⟨hc, stop, ha, hst⟩ := he
    exact ⟨h.childExited.trans hc, stop, h.acted.trans ha, hst⟩

theorem Stable.joined {stdout stderr : BoundedCapture} (hj : s.Joined stdout stderr) :
    s'.Joined stdout stderr :=
  ⟨(h.kept .stdout).capture _ hj.stdout, (h.kept .stderr).capture _ hj.stderr⟩

theorem Stable.looked {status : Option ExecutionStatus} {cancelled : Bool}
    (hl : s.Looked status cancelled) : s'.Looked status cancelled :=
  fun hn => h.checked.trans (hl hn)

theorem Stable.lookedTwice {status : Option ExecutionStatus} {cancelled requestCancelled : Bool}
    (hl : s.LookedTwice status cancelled requestCancelled) :
    s'.LookedTwice status cancelled requestCancelled :=
  fun hn hc => h.checkedRequest.trans (hl hn hc)

theorem Stable.phaseOk (ho : s.PhaseOk) : s'.PhaseOk := by
  unfold PhaseOk at ho ⊢
  rw [h.phase]
  cases hp : s.phase with
  | poll => rw [hp] at ho; exact h.undecided ho
  | select => rw [hp] at ho; exact h.undecided ho
  | terminate stop => rw [hp] at ho; exact h.undecided ho
  | join status => rw [hp] at ho; exact h.loopOver ho
  | check status stdout stderr => rw [hp] at ho; exact ⟨h.loopOver ho.1, h.joined ho.2⟩
  | checkRequest status stdout stderr cancelled =>
    rw [hp] at ho
    exact ⟨h.loopOver ho.1, h.joined ho.2.1, h.looked ho.2.2⟩
  | conclude status stdout stderr cancelled requestCancelled =>
    rw [hp] at ho
    exact ⟨h.loopOver ho.1, h.joined ho.2.1, h.looked ho.2.2.1, h.lookedTwice ho.2.2.2⟩
  | finished =>
    rw [hp] at ho
    rcases ho with ⟨status, he⟩ |
      ⟨status, stdout, stderr, cancelled, requestCancelled, artifacts, hc⟩
    · exact .inl ⟨status, h.undecided he.undecided, h.idle he.idle, he.failed,
        h.output.trans he.output⟩
    · refine .inr ⟨status, stdout, stderr, cancelled, requestCancelled, artifacts,
        h.loopOver hc.loopOver, h.joined hc.joined, h.looked hc.looked, h.lookedTwice hc.lookedTwice, ?_⟩
      rw [h.output, h.child hc.loopOver.child]
      exact hc.output
  | _ =>
    rw [hp] at ho
    exact ⟨h.undecided ho.1, h.idle ho.2⟩

end

/-! ## The function's steps -/

theorem giveUp_ok {s : RunState} (child : Child) {status : ExecutionStatus}
    (ho : s.Undecided ∧ s.Idle) (hst : ranToEnd status = false) :
    ({ s with child := child }.giveUp status).PhaseOk :=
  .inl ⟨status, ⟨ho.1.acted, ho.1.childExited⟩, ⟨ho.2.stdout, ho.2.stderr⟩, hst, rfl⟩

theorem select_ok {s s' : RunState} {branch : Branch} (hu : s.Undecided)
    (h : s.select branch = some s') : s'.PhaseOk := by
  cases branch with
  | event =>
    simp only [select] at h
    split at h
    · split at h
      · cases h
        exact ⟨hu.acted, hu.childExited⟩
      · cases h
        exact ⟨hu.acted, hu.childExited⟩
      · split at h
        · cases h
          exact ⟨hu.acted, hu.childExited⟩
        · cases h
    · cases h
  | signal =>
    simp only [select] at h
    split at h
    · cases h
      unfold PhaseOk
      cases s.cancellation.up <;> exact ⟨hu.acted, hu.childExited⟩
    · split at h
      · cases h
        exact ⟨hu.acted, hu.childExited⟩
      · cases h
  | request =>
    simp only [select] at h
    split at h
    · cases h
      unfold PhaseOk
      cases s.requestCancellation.up <;> exact ⟨hu.acted, hu.childExited⟩
    · split at h
      · cases h
        exact ⟨hu.acted, hu.childExited⟩
      · cases h
  | deadline =>
    simp only [select] at h
    split at h
    · cases h
      exact ⟨hu.acted, hu.childExited⟩
    · cases h
  | tick =>
    cases h
    exact ⟨hu.acted, hu.childExited⟩

theorem isExited_killed (c : Child) : c.killed.isExited = true := by
  cases c <;> rfl

theorem setupFailures_failed {status : ExecutionStatus} (h : status ∈ setupFailures) :
    ranToEnd status = false := by
  simp only [setupFailures, List.mem_cons, List.not_mem_nil, or_false] at h
  rcases h with rfl | rfl | rfl | rfl <;> rfl

theorem advance_ok {s s' : RunState} {found : Found} (ho : s.PhaseOk)
    (h : s.advance found = some s') : s'.PhaseOk := by
  unfold PhaseOk at ho
  unfold advance at h
  split at h
  case h_1 hp =>
    rw [hp] at ho
    cases h
    split
    · exact giveUp_ok s.child ho rfl
    · exact ⟨⟨ho.1.acted, ho.1.childExited⟩, ⟨ho.2.stdout, ho.2.stderr⟩⟩
  case h_2 hp =>
    rw [hp] at ho
    cases h
    split
    · exact giveUp_ok s.child ho rfl
    · exact ⟨⟨ho.1.acted, ho.1.childExited⟩, ⟨ho.2.stdout, ho.2.stderr⟩⟩
  case h_3 hp =>
    rw [hp] at ho
    cases h
    exact ⟨⟨ho.1.acted, ho.1.childExited⟩, ⟨ho.2.stdout, ho.2.stderr⟩⟩
  case h_4 hp =>
    rw [hp] at ho
    split at h
    · rename_i hf
      cases h
      exact giveUp_ok s.child ho (setupFailures_failed hf)
    · cases h
  case h_5 hp =>
    rw [hp] at ho
    cases h
    split
    · exact giveUp_ok _ ho rfl
    · exact ⟨⟨ho.1.acted, ho.1.childExited⟩, ⟨ho.2.stdout, ho.2.stderr⟩⟩
  case h_6 hp =>
    rw [hp] at ho
    cases h
    split
    · exact giveUp_ok _ ho rfl
    · exact ⟨⟨ho.1.acted, ho.1.childExited⟩, ⟨ho.2.stdout, ho.2.stderr⟩⟩
  case h_7 hp =>
    rw [hp] at ho
    cases h
    exact ⟨ho.1.acted, ho.1.childExited⟩
  case h_8 hp =>
    rw [hp] at ho
    cases h
    exact giveUp_ok _ ho rfl
  case h_9 hp =>
    rw [hp] at ho
    cases h
    exact ⟨ho.acted, ho.childExited⟩
  case h_10 hp =>
    rw [hp] at ho
    cases h
    split
    · rename_i he
      exact ⟨he, ho.acted, rfl⟩
    · exact ⟨ho.acted, ho.childExited⟩
  case h_11 hp =>
    rw [hp] at ho
    exact select_ok ho h
  case h_12 stop hp =>
    rw [hp] at ho
    cases h
    exact ⟨isExited_killed _, ho.childExited, stop, rfl, rfl⟩
  case h_13 status hp =>
    rw [hp] at ho
    split at h
    · rename_i stdout stderr hout herr
      cases h
      exact ⟨⟨ho.child, ho.ended⟩, ⟨hout, herr⟩⟩
    · cases h
  case h_14 status stdout stderr hp =>
    rw [hp] at ho
    cases h
    refine ⟨⟨ho.1.child, ho.1.ended⟩, ⟨ho.2.stdout, ho.2.stderr⟩, ?_⟩
    intro hn
    subst hn
    rfl
  case h_15 status stdout stderr cancelled hp =>
    rw [hp] at ho
    cases h
    refine ⟨⟨ho.1.child, ho.1.ended⟩, ⟨ho.2.1.stdout, ho.2.1.stderr⟩, ho.2.2, ?_⟩
    intro hn hc
    subst hn hc
    rfl
  case h_16 status stdout stderr cancelled requestCancelled artifacts hp =>
    rw [hp] at ho
    cases h
    exact .inr ⟨status, stdout, stderr, cancelled, requestCancelled, artifacts,
      ⟨ho.1.child, ho.1.ended⟩, ⟨ho.2.1.stdout, ho.2.1.stderr⟩, ho.2.2.1, ho.2.2.2, rfl⟩
  case h_17 => cases h

/-- What a step of the function leaves alone, but for the one that spawns the readers. -/
structure Frame (s s' : RunState) : Prop where
  pipe : ∀ k, s'.pipe k = s.pipe k
  output : s'.phase ≠ .finished → s'.output = s.output

theorem frame_rest {s s' : RunState} (h : s' = { s with
    phase := s'.phase, child := s'.child, events := s'.events, channelOpen := s'.channelOpen
    cancellation := s'.cancellation, requestCancellation := s'.requestCancellation
    acted := s'.acted, childExited := s'.childExited, checked := s'.checked
    checkedRequest := s'.checkedRequest }) : Frame s s' := by
  constructor
  · intro k
    rw [h]
    cases k <;> rfl
  · intro _
    rw [h]

theorem select_frame {s s' : RunState} {branch : Branch} (h : s.select branch = some s') :
    Frame s s' := by
  unfold select at h
  split at h
  · split at h
    · split at h
      · cases h; exact frame_rest rfl
      · cases h; exact frame_rest rfl
      · split at h
        · cases h; exact frame_rest rfl
        · cases h
    · cases h
  · split at h
    · cases h; exact frame_rest rfl
    · split at h
      · cases h; exact frame_rest rfl
      · cases h
  · split at h
    · cases h; exact frame_rest rfl
    · split at h
      · cases h; exact frame_rest rfl
      · cases h
  · split at h
    · cases h; exact frame_rest rfl
    · cases h
  · cases h; exact frame_rest rfl

theorem giveUp_frame {s : RunState} (child : Child) (status : ExecutionStatus) :
    Frame s ({ s with child := child }.giveUp status) :=
  ⟨fun k => by cases k <;> rfl, fun h => absurd rfl h⟩

theorem advance_frame {s s' : RunState} {found : Found} (h : s.advance found = some s') :
    Frame s s' ∨ s.phase = .feed ∧ s' = { s with
      phase := .poll
      stdout := { s.stdout with task := .reading [] }
      stderr := { s.stderr with task := .reading [] } } := by
  unfold advance at h
  split at h
  case h_7 hp =>
    cases h
    exact .inr ⟨hp, rfl⟩
  case h_17 => cases h
  all_goals left
  case h_4 =>
    split at h
    · cases h
      exact giveUp_frame s.child _
    · cases h
  case h_8 =>
    cases h
    exact giveUp_frame _ _
  case h_11 => exact select_frame h
  case h_13 =>
    split at h
    · cases h
      exact frame_rest rfl
    · cases h
  case h_16 =>
    cases h
    exact ⟨fun k => by cases k <;> rfl, fun h => absurd rfl h⟩
  all_goals
    cases h
    try split
  all_goals first | exact frame_rest rfl | exact giveUp_frame _ _

end RunState

structure Inv (s : RunState) : Prop where
  sound : ∀ k, (s.pipe k).Sound (maximum k)
  phase : s.PhaseOk
  output : s.phase ≠ .finished → s.output = none

theorem inv_start (cancellation requestCancellation : Watch) :
    Inv (.start cancellation requestCancellation) := by
  refine ⟨fun k => ?_, ⟨⟨rfl, rfl⟩, ⟨rfl, rfl⟩⟩, fun _ => rfl⟩
  cases k <;> exact Pipe.sound_new _

theorem Inv.surround {s s' : RunState} {e : Surrounding} (hi : Inv s)
    (h : s.surround e = some s') : Inv s' := by
  have hs := RunState.surround_stable hi.sound h
  refine ⟨hs.sound, hs.phaseOk hi.phase, ?_⟩
  rw [hs.phase, hs.output]
  exact hi.output

theorem Inv.advance {s s' : RunState} {found : Found} (hi : Inv s)
    (h : s.advance found = some s') : Inv s' := by
  have hphase := RunState.advance_ok hi.phase h
  have hrunning : s.phase ≠ .finished := by
    intro hf
    simp [RunState.advance, hf] at h
  rcases RunState.advance_frame h with hf | ⟨hp, rfl⟩
  · refine ⟨fun k => ?_, hphase, fun hn => ?_⟩
    · rw [hf.pipe]
      exact hi.sound k
    · rw [hf.output hn]
      exact hi.output hrunning
  · have hidle : s.Undecided ∧ s.Idle := by
      have ho := hi.phase
      unfold RunState.PhaseOk at ho
      rwa [hp] at ho
    refine ⟨fun k => ?_, hphase, fun _ => hi.output hrunning⟩
    cases k with
    | stdout => exact (hi.sound .stdout).spawn hidle.2.stdout
    | stderr => exact (hi.sound .stderr).spawn hidle.2.stderr

theorem inv_reachable {s : RunState} (h : system.Reachable s) : Inv s := by
  refine System.invariant ?_ ?_ h
  · rintro s ⟨cancellation, requestCancellation, rfl⟩
    exact inv_start cancellation requestCancellation
  · rintro s (e | found) s' hi hst
    · exact hi.surround hst
    · exact hi.advance hst

/-! ## What is reported -/

/-- What the reader of a pipe has collected. -/
def Pipe.collected (p : Pipe) : Bytes :=
  match p.task.capture with
  | some c => c.bytes
  | none => []

theorem Pipe.collected_of {p : Pipe} {c : BoundedCapture} (h : p.task.capture = some c) :
    p.collected = c.bytes := by
  rw [Pipe.collected, h]

/-- Read to its end. -/
structure Pipe.Drained (p : Pipe) : Prop where
  unread : p.unread = []
  closed : p.closed = true
  collected : p.collected = p.written

theorem Pipe.Sound.drained {maximum : Nat} {p : Pipe} {c : BoundedCapture}
    (h : p.Sound maximum) (hc : p.task.capture = some c) (he : c.exceeded = false)
    (hf : c.failed = false) : p.Drained := by
  obtain ⟨hb, hu, hcl⟩ := (h.capture c hc).2 he hf
  exact ⟨hu, hcl, (p.collected_of hc).trans hb⟩

/-- The runs that have returned. -/
theorem returned {s : RunState} (h : system.Reachable s) {r : Output} (hr : s.output = some r) :
    (∃ status, s.Early status) ∨ ∃ status stdout stderr cancelled requestCancelled artifacts,
      s.Concluded status stdout stderr cancelled requestCancelled artifacts := by
  have hi := inv_reachable h
  have hp : s.phase = .finished := by
    by_contra hne
    rw [hi.output hne] at hr
    cases hr
  have ho := hi.phase
  unfold RunState.PhaseOk at ho
  rwa [hp] at ho

/-- The two texts are read off what the readers collected. -/
theorem output_texts {s : RunState} (h : system.Reachable s) {r : Output}
    (hr : s.output = some r) :
    r.stdout = fromUtf8Lossy s.stdout.collected ∧ r.stderr = fromUtf8Lossy s.stderr.collected := by
  rcases returned h hr with ⟨status, he⟩ |
    ⟨status, stdout, stderr, cancelled, requestCancelled, artifacts, hc⟩
  · have hempty : fromUtf8Lossy [] = "" := by simp [fromUtf8Lossy, utf8Pieces_nil]
    rw [he.output] at hr
    cases hr
    simp [Pipe.collected, he.idle.stdout, he.idle.stderr, ReaderTask.capture, hempty]
  · rw [hc.output] at hr
    cases hr
    rw [Pipe.collected_of hc.joined.stdout, Pipe.collected_of hc.joined.stderr]
    exact ⟨rfl, rfl⟩

theorem Stop.status_failed (stop : Stop) : ranToEnd stop.status = false := by
  cases stop <;> rfl

/-- A success is concluded from a child that exited by itself, silent signals and whole captures. -/
theorem conclude_ranToEnd {status : Option ExecutionStatus} {cancelled requestCancelled : Bool}
    {stdout stderr : BoundedCapture} {code : Option Int32}
    {artifacts : Option (List ArtifactDescriptor)} (hst : ∀ st ∈ status, ranToEnd st = false)
    (h : ranToEnd
      (Bridge.conclude status cancelled requestCancelled stdout stderr code artifacts).status) :
    status = none ∧ cancelled = false ∧ requestCancelled = false ∧
      (stdout.exceeded = false ∧ stdout.failed = false) ∧
      stderr.exceeded = false ∧ stderr.failed = false := by
  cases status with
  | some st =>
    rw [conclude_some, hst st rfl] at h
    cases h
  | none =>
    cases hc : cancelled with
    | true =>
      rw [hc, conclude_cancelled] at h
      cases h
    | false =>
      cases hrc : requestCancelled with
      | true =>
        rw [hc, hrc] at h
        simp [Bridge.conclude, ranToEnd] at h
      | false =>
        rw [hc, hrc] at h
        cases he : stdout.exceeded <;> cases hf : stdout.failed <;>
          cases he' : stderr.exceeded <;> cases hf' : stderr.failed <;>
          simp [Bridge.conclude, ranToEnd, he, hf, he', hf'] at h ⊢

theorem conclude_completed {status : Option ExecutionStatus} {cancelled requestCancelled : Bool}
    {stdout stderr : BoundedCapture} {code : Option Int32}
    {artifacts : Option (List ArtifactDescriptor)} (hst : ∀ st ∈ status, ranToEnd st = false)
    (h : (Bridge.conclude status cancelled requestCancelled stdout stderr code artifacts).status =
      .completed) : code = some 0 := by
  have hr : ranToEnd
      (Bridge.conclude status cancelled requestCancelled stdout stderr code artifacts).status := by
    rw [h]
    rfl
  obtain ⟨rfl, rfl, rfl, ⟨he, hf⟩, he', hf'⟩ := conclude_ranToEnd hst hr
  cases artifacts with
  | none => simp [Bridge.conclude, he, hf, he', hf'] at h
  | some artifacts => simpa [Bridge.conclude, he, hf, he', hf'] using h

theorem RunState.Concluded.failed {s : RunState} {status : Option ExecutionStatus}
    {stdout stderr : BoundedCapture} {cancelled requestCancelled : Bool}
    {artifacts : Option (List ArtifactDescriptor)}
    (h : s.Concluded status stdout stderr cancelled requestCancelled artifacts) :
    ∀ st ∈ status, ranToEnd st = false := by
  rintro st rfl
  obtain ⟨-, stop, -, rfl⟩ := h.loopOver.ended
  exact stop.status_failed

/-- A success was concluded with nothing against it, from two pipes read to their ends. -/
theorem success {s : RunState} (h : system.Reachable s) {r : Output} (hr : s.output = some r)
    (hran : ranToEnd r.result.status = true) :
    s.stdout.Drained ∧ s.stderr.Drained ∧ ∃ stdout stderr artifacts,
      s.Concluded none stdout stderr false false artifacts ∧
        r.result = Bridge.conclude none false false stdout stderr s.child.code artifacts := by
  have hsound := (inv_reachable h).sound
  rcases returned h hr with ⟨status, he⟩ |
    ⟨status, stdout, stderr, cancelled, requestCancelled, artifacts, hc⟩
  · have hout := he.output
    rw [hr] at hout
    cases hout
    cases he.failed.symm.trans hran
  · have hres : r.result = Bridge.conclude status cancelled requestCancelled stdout stderr
        s.child.code artifacts := by
      have hout := hc.output
      rw [hr] at hout
      cases hout
      rfl
    rw [hres] at hran
    obtain ⟨rfl, rfl, rfl, ⟨he, hf⟩, he', hf'⟩ := conclude_ranToEnd hc.failed hran
    exact ⟨(hsound .stdout).drained hc.joined.stdout he hf,
      (hsound .stderr).drained hc.joined.stderr he' hf', stdout, stderr, artifacts, hc, hres⟩

/-- A child that exited by itself, behind which a look saw a signal up. -/
theorem exited_cancelled {s : RunState} (h : system.Reachable s) {r : Output}
    (hr : s.output = some r) (hx : s.childExited = true) :
    ∃ cancelled, s.checked = some cancelled ∧
      (cancelled = true → r.result.status = .bindingRevoked) ∧
      (cancelled = false → ∃ requestCancelled, s.checkedRequest = some requestCancelled ∧
        (requestCancelled = true → r.result.status = .cancelled)) := by
  rcases returned h hr with ⟨status, he⟩ |
    ⟨status, stdout, stderr, cancelled, requestCancelled, artifacts, hc⟩
  · rw [he.undecided.childExited] at hx
    cases hx
  · cases status with
    | some st =>
      rw [hc.loopOver.ended.1] at hx
      cases hx
    | none =>
      have hout := hc.output
      rw [hr] at hout
      cases hout
      refine ⟨cancelled, hc.looked rfl, ?_, ?_⟩
      · rintro rfl
        simp [Bridge.conclude]
      · rintro rfl
        refine ⟨requestCancelled, hc.lookedTwice rfl rfl, ?_⟩
        rintro rfl
        simp [Bridge.conclude]

/-- No false success: a run that reports one acted on nothing, read both pipes to the end and saw
both signals down behind the dead child. A child that exited by itself is reported as cancelled
if a look behind it saw a signal up, the binding's before the request's. -/
theorem run_honest {s : RunState} (h : system.Reachable s) {r : Output} (hr : s.output = some r) :
    (r.result.status = .completed ∨ r.result.status = .scriptError →
      s.acted = none ∧ s.childExited = true ∧ s.child.isExited = true ∧
      s.stdout.Drained ∧ s.stderr.Drained ∧
      r.stdout = fromUtf8Lossy s.stdout.written ∧ r.stderr = fromUtf8Lossy s.stderr.written ∧
      s.checked = some false ∧ s.checkedRequest = some false ∧
      (r.result.status = .completed → s.child.code = some 0)) ∧
    (s.childExited = true → ∃ cancelled, s.checked = some cancelled ∧
      (cancelled = true → r.result.status = .bindingRevoked) ∧
      (cancelled = false → ∃ requestCancelled, s.checkedRequest = some requestCancelled ∧
        (requestCancelled = true → r.result.status = .cancelled))) := by
  refine ⟨?_, exited_cancelled h hr⟩
  intro hrun
  have hran : ranToEnd r.result.status = true := by
    rcases hrun with h | h <;> rw [h] <;> rfl
  obtain ⟨hd, hd', stdout, stderr, artifacts, hc, hres⟩ := success h hr hran
  obtain ⟨hstdout, hstderr⟩ := output_texts h hr
  rw [hd.collected] at hstdout
  rw [hd'.collected] at hstderr
  refine ⟨hc.loopOver.ended.1, hc.loopOver.ended.2, hc.loopOver.child, hd, hd', hstdout, hstderr,
    hc.looked rfl, hc.lookedTwice rfl rfl, ?_⟩
  intro hcompleted
  rw [hres] at hcompleted
  exact conclude_completed hc.failed hcompleted

/-! ## Runs that succeed -/

theorem reads_quiet {s : RunState} {k : Channel} {p : Pipe} {n : Nat}
    (h : (s.pipe k).read (maximum k) n = some (p, [])) :
    s.surround (.read k n) = some (s.setPipe k p) := by
  simp only [RunState.surround, RunState.reads, h, Option.map_some, List.append_nil]
  cases k <;> rfl

/-- A reader at a closed pipe may read to its end, one byte at a time. -/
theorem reachable_drain {k : Channel} {written unread : Bytes} {s : RunState}
    (h : system.Reachable s) (output : Bytes)
    (hp : s.pipe k = ⟨written, unread, true, .reading output⟩)
    (hl : output.length + unread.length ≤ maximum k) :
    system.Reachable (s.setPipe k
      ⟨written, [], true, .finished ⟨output ++ unread, false, false⟩⟩) := by
  induction unread generalizing s output with
  | nil =>
    refine h.next (.inl (.read k 0)) (reads_quiet ?_)
    rw [hp, List.append_nil]
    rfl
  | cons b unread ih =>
    rw [List.length_cons] at hl
    have hread : (s.pipe k).read (maximum k) 0 =
        some (⟨written, unread, true, .reading (output ++ [b])⟩, []) := by
      have hfit : ¬ output.length + (0 + 1) > maximum k := by omega
      simp only [hp, Pipe.read, Pipe.atHand, Bool.true_eq_false, and_false, if_false]
      simp [readBounded, hfit]
    have h' := h.next (.inl (.read k 0)) (reads_quiet hread)
    have := ih h' (output ++ [b]) (RunState.setPipe_pipe _ _ _)
      (by rw [List.length_append, List.length_singleton]; omega)
    rw [List.append_assoc] at this
    cases k <;> exact this

def quietSignal : Watch := ⟨false, false, false⟩

/-- A run whose child has written, closed its pipes and exited. -/
def exitedRun (stdout stderr : Bytes) : RunState :=
  { RunState.start quietSignal quietSignal with
    phase := .poll
    child := .exited (some 0)
    stdout := ⟨stdout, stdout, true, .reading []⟩
    stderr := ⟨stderr, stderr, true, .reading []⟩ }

theorem exitedRun_reachable (stdout stderr : Bytes) :
    system.Reachable (exitedRun stdout stderr) := by
  have h0 : system.Reachable (RunState.start quietSignal quietSignal) := .start ⟨_, _, rfl⟩
  have h1 := h0.next (.inr .look) rfl
  have h2 := h1.next (.inr .look) rfl
  have h3 := h2.next (.inr (.prepared none)) rfl
  have h4 := h3.next (.inr .look) rfl
  have h5 := h4.next (.inr .look) rfl
  have h6 := h5.next (.inr (.fed true)) rfl
  have h7 := h6.next (.inl (.write .stdout stdout)) rfl
  have h8 := h7.next (.inl (.write .stderr stderr)) rfl
  have h9 := h8.next (.inl (.close .stdout)) rfl
  have h10 := h9.next (.inl (.close .stderr)) rfl
  exact h10.next (.inl (.exit (some 0))) rfl

/-- What the run ends as. -/
def completedRun (stdout stderr : Bytes) : RunState :=
  { exitedRun stdout stderr with
    phase := .finished
    stdout := ⟨stdout, [], true, .finished ⟨stdout, false, false⟩⟩
    stderr := ⟨stderr, [], true, .finished ⟨stderr, false, false⟩⟩
    childExited := true
    checked := some false
    checkedRequest := some false
    output := some ⟨⟨.completed, some 0, []⟩, fromUtf8Lossy stdout, fromUtf8Lossy stderr⟩ }

/-- Whatever a child writes within the caps, it may complete. -/
theorem completedRun_reachable (stdout stderr : Bytes) (ho : stdout.length ≤ MAX_STDOUT_BYTES)
    (he : stderr.length ≤ MAX_STDERR_BYTES) : system.Reachable (completedRun stdout stderr) := by
  have h0 := exitedRun_reachable stdout stderr
  have h1 := reachable_drain (k := .stdout) h0 [] rfl (by simpa [maximum] using ho)
  have h2 := reachable_drain (k := .stderr) h1 [] rfl (by simpa [maximum] using he)
  have h3 := h2.next (.inr (.waited false)) rfl
  have h4 := h3.next (.inr .joined) rfl
  have h5 := h4.next (.inr .look) rfl
  have h6 := h5.next (.inr .look) rfl
  exact h6.next (.inr (.collected (some []))) rfl

/-- A child that writes a line and exits. -/
theorem run_honest_completed :
    (completedRun [104, 105] []).acted = none ∧
      (completedRun [104, 105] []).checked = some false := by
  have h := run_honest (completedRun_reachable [104, 105] [] (by decide) (by decide)) rfl
  obtain ⟨ha, -, -, -, -, -, -, hc, -⟩ := h.1 (.inl rfl)
  exact ⟨ha, hc⟩

end RunProcess
end Bridge
end EgoBridge
