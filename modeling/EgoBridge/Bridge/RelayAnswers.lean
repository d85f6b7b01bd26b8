import EgoBridge.Bridge.RelaySession

/-!
# Bridge.RelayAnswers

Which frames the relay sessions of a bridge answer, read off the log of a run.

* `Proper`       — every event of a log follows what must have happened before it.
* `Ledger`       — the executions under way are those accepted and not yet answered.
* `answers_once` — every reachable log is proper, and no request is answered twice.
-/

namespace EgoBridge
namespace Bridge

open Protocol Json Run

namespace SessionEvent

/-- What must have happened before an event. -/
def Justified (log : List SessionEvent) : SessionEvent → Prop
  | .accepted id frame => ∀ i f, .accepted i f ∈ log → i < id ∧ f.sequence < frame.sequence
  | .completed id => (∃ frame, .accepted id frame ∈ log) ∧ .completed id ∉ log
  | .looked id _ => .completed id ∈ log
  | .sent id response => .looked id false ∈ log ∧ (∀ r, .sent id r ∉ log) ∧
    ∃ frame, .accepted id frame ∈ log ∧ Replies response frame

/-- The request a response is for. -/
def reply : SessionEvent → Option RemoteRequestKey
  | .sent _ response => some (.fromEnvelope response)
  | _ => none

end SessionEvent

def Proper : List SessionEvent → Prop
  | [] => True
  | x :: log => x.Justified log ∧ Proper log

theorem Proper.sent {log : List SessionEvent} (hp : Proper log) {id : Nat}
    {response : OuterEnvelope} (h : .sent id response ∈ log) :
    ∃ frame, .accepted id frame ∈ log ∧ Replies response frame := by
  induction log with
  | nil => cases h
  | cons x log ih =>
    rcases List.mem_cons.mp h with rfl | h
    · obtain ⟨-, -, frame, hf, hr⟩ := hp.1
      exact ⟨frame, List.mem_cons_of_mem _ hf, hr⟩
    · obtain ⟨frame, hf, hr⟩ := ih hp.2 h
      exact ⟨frame, List.mem_cons_of_mem _ hf, hr⟩

theorem Proper.completed {log : List SessionEvent} (hp : Proper log) {id : Nat}
    (h : .completed id ∈ log) : ∃ frame, .accepted id frame ∈ log := by
  induction log with
  | nil => cases h
  | cons x log ih =>
    rcases List.mem_cons.mp h with rfl | h
    · obtain ⟨⟨frame, hf⟩, -⟩ := hp.1
      exact ⟨frame, List.mem_cons_of_mem _ hf⟩
    · obtain ⟨frame, hf⟩ := ih hp.2 h
      exact ⟨frame, List.mem_cons_of_mem _ hf⟩

/-- Sequence numbers tell the accepted frames apart. -/
theorem Proper.accepted_inj {log : List SessionEvent} (hp : Proper log) {i j : Nat}
    {f g : OuterEnvelope} (hi : .accepted i f ∈ log) (hj : .accepted j g ∈ log)
    (he : f.sequence = g.sequence) : i = j := by
  induction log with
  | nil => cases hi
  | cons x log ih =>
    rcases List.mem_cons.mp hi with hx | hi'
    · subst hx
      rcases List.mem_cons.mp hj with hy | hj'
      · cases hy
        rfl
      · have hlt := (hp.1 j g hj').2
        rw [he] at hlt
        exact absurd hlt (UInt64.lt_irrefl _)
    · rcases List.mem_cons.mp hj with hy | hj'
      · subst hy
        have hlt := (hp.1 i f hi').2
        rw [he] at hlt
        exact absurd hlt (UInt64.lt_irrefl _)
      · exact ih hp.2 hi' hj'

theorem Proper.replies_nodup {log : List SessionEvent} (hp : Proper log) :
    (log.filterMap SessionEvent.reply).Nodup := by
  induction log with
  | nil => exact .nil
  | cons x log ih =>
    cases x with
    | sent id response =>
      refine List.nodup_cons.mpr ⟨fun hm => ?_, ih hp.2⟩
      obtain ⟨y, hy, hr⟩ := List.mem_filterMap.mp hm
      cases y with
      | sent j other =>
        obtain ⟨-, hunsent, frame, hf, hreply⟩ := hp.1
        obtain ⟨frame', hf', hreply'⟩ := hp.2.sent hy
        have hkey : RemoteRequestKey.fromEnvelope frame' = .fromEnvelope frame := by
          rw [← hreply.key, ← hreply'.key]
          exact Option.some.inj hr
        have hseq : frame'.sequence = frame.sequence := congrArg RemoteRequestKey.sequence hkey
        have hij : j = id := hp.2.accepted_inj hf' hf hseq
        exact hunsent other (hij ▸ hy)
      | _ => cases hr
    | _ => exact ih hp.2

/-- What an execution will answer, it answers to this frame. -/
def RemoteExecution.For (frame : OuterEnvelope) : RemoteExecution → Prop
  | .answered response => Replies response frame
  | .running _ _ e _ => e = frame

theorem RemoteExecution.For.resolve {c : Primitives} {frame response : OuterEnvelope}
    {execution : RemoteExecution} (hf : execution.For frame) {e : TaskEnd}
    (h : execution.resolve c e = .returned (.ok response)) : Replies response frame := by
  cases execution with
  | answered r =>
    cases h
    exact hf
  | running request guard e' key =>
    cases e with
    | panic => cases h
    | process result stdout stderr durationMs nonce =>
      have hs := TaskResult.returned.inj h
      exact hf ▸ sealResponse_replies hs

/-- What the log says about an execution whose answer has not been sent. -/
structure Task.Logged (log : List SessionEvent) (t : Task) : Prop where
  accepted : .accepted t.id t.frame ∈ log
  unsent : ∀ r, .sent t.id r ∉ log
  completed : t.result ≠ none ↔ .completed t.id ∈ log
  execution : t.execution.For t.frame
  replies : ∀ r, t.result = some (.returned (.ok r)) → Replies r t.frame

def SessionEvent.id : SessionEvent → Nat
  | .accepted id _ => id
  | .completed id => id
  | .looked id _ => id
  | .sent id _ => id

theorem Task.Logged.cons {log : List SessionEvent} {t : Task} (h : t.Logged log) {x : SessionEvent}
    (hx : x.id ≠ t.id ∨ ∃ i b, x = .looked i b) : t.Logged (x :: log) where
  accepted := List.mem_cons_of_mem _ h.accepted
  unsent := fun r hr => by
    rcases List.mem_cons.mp hr with rfl | hr
    · obtain hx | ⟨i, b, hx⟩ := hx
      · exact hx rfl
      · cases hx
    · exact h.unsent r hr
  completed := by
    rw [h.completed, List.mem_cons]
    refine ⟨.inr, fun hc => ?_⟩
    rcases hc with rfl | hc
    · obtain hx | ⟨i, b, hx⟩ := hx
      · exact absurd rfl hx
      · cases hx
    · exact hc
  execution := h.execution
  replies := h.replies

namespace OutboundPhase

/-- The execution whose answer the session is about to send. -/
def task : OutboundPhase → Option Task
  | .session (.completed t _) => some t
  | .session (.checked t _) => some t
  | _ => none

def Sound (log : List SessionEvent) : OutboundPhase → Prop
  | .session (.completed t response) => t.result = some (.returned (.ok response))
  | .session (.checked t response) =>
    t.result = some (.returned (.ok response)) ∧ .looked t.id false ∈ log
  | _ => True

theorem Sound.cons {log : List SessionEvent} {phase : OutboundPhase} (h : phase.Sound log)
    (x : SessionEvent) : phase.Sound (x :: log) := by
  unfold Sound at h ⊢
  split at h
  · exact h
  · exact ⟨h.1, List.mem_cons_of_mem _ h.2⟩
  · trivial

theorem Sound.idle {log : List SessionEvent} {phase : OutboundPhase} (h : phase.task = none) :
    phase.Sound log := by
  unfold task at h
  unfold Sound
  split <;> simp_all

end OutboundPhase

def OutboundState.tasks (s : OutboundState) : List Task := s.phase.task.toList ++ s.pending

structure Ledger (s : OutboundState) : Prop where
  proper : Proper s.log
  tasks : ∀ t ∈ s.tasks, t.Logged s.log
  apart : (s.tasks.map Task.id).Nodup
  recorded : ∀ id frame, .accepted id frame ∈ s.log →
    id < s.spawned ∧ frame.sequence ≤ s.sup.highestRemoteSequence
  sound : s.phase.Sound s.log

namespace Ledger

variable {s : OutboundState}

/-- A step without an event: some executions are forgotten, and the session goes on. -/
theorem move (hi : Ledger s) {sup : Supervisor} {phase : OutboundPhase} {pending : List Task}
    (hh : s.sup.highestRemoteSequence ≤ sup.highestRemoteSequence)
    (ht : (phase.task.toList ++ pending).Subperm s.tasks) (hp : phase.Sound s.log) :
    Ledger ⟨sup, phase, pending, s.spawned, s.log⟩ where
  proper := hi.proper
  tasks := fun t hm => hi.tasks t (ht.subset hm)
  apart := by
    obtain ⟨l, hl, hsub⟩ := ht
    exact (hl.map Task.id).nodup_iff.mp (hi.apart.sublist (hsub.map Task.id))
  recorded := fun id frame hm =>
    ⟨(hi.recorded id frame hm).1, UInt64.le_trans (hi.recorded id frame hm).2 hh⟩
  sound := hp

theorem settle (hi : Ledger s) {sup : Supervisor} {phase : OutboundPhase}
    (hh : s.sup.highestRemoteSequence ≤ sup.highestRemoteSequence) (ht : phase.task = none) :
    Ledger ⟨sup, phase, s.pending, s.spawned, s.log⟩ := by
  refine hi.move hh ?_ (.idle ht)
  rw [ht]
  exact (List.sublist_append_right _ _).subperm

theorem goto (hi : Ledger s) {p : SessionPoint} (ht : (OutboundPhase.session p).task = none) :
    Ledger (s.goto p) := hi.settle (UInt64.le_refl _) ht

theorem leave (hi : Ledger s) (exit : SessionExit) : Ledger (s.leave exit) :=
  hi.settle (UInt64.le_refl _) rfl

theorem look (hi : Ledger s) {p : SessionPoint} (ht : (OutboundPhase.session p).task = none) :
    Ledger (s.look p) := by
  unfold OutboundState.look
  split
  · exact hi.leave _
  · exact hi.goto ht

theorem mem_task (s : OutboundState) {t : Task} (h : s.phase.task = some t) : t ∈ s.tasks := by
  simp [OutboundState.tasks, h]

/-- The other executions have other numbers. -/
theorem apart_of_task (hi : Ledger s) {t x : Task} (h : s.phase.task = some t)
    (hx : x ∈ s.pending) : t.id ≠ x.id := by
  have ha := hi.apart
  rw [OutboundState.tasks, h, Option.toList_some, List.singleton_append, List.map_cons,
    List.nodup_cons] at ha
  exact fun he => ha.1 (he ▸ List.mem_map_of_mem hx)

theorem take (hi : Ledger s) {l r : List Task} {t : Task} {result : TaskResult}
    (hphase : s.phase = .session .select) (hp : s.pending = l ++ t :: r)
    (ht : t.result = some result) : Ledger ({ s with pending := l ++ r }.taken t result) := by
  have htasks : s.tasks = l ++ t :: r := by rw [OutboundState.tasks, hphase, hp]; rfl
  have hsub : (l ++ r).Subperm s.tasks := by
    rw [htasks]
    exact ((List.sublist_cons_self t r).append_left l).subperm
  cases result with
  | returned result =>
    cases result with
    | ok response =>
      have hperm : (t :: (l ++ r)).Subperm s.tasks := by
        rw [htasks]
        exact List.perm_middle.symm.subperm
      exact hi.move (UInt64.le_refl _) hperm ht
    | error error => exact hi.move (UInt64.le_refl _) hsub trivial
  | panicked => exact hi.move (UInt64.le_refl _) hsub trivial

theorem recheck (hi : Ledger s) {t : Task} {response : OuterEnvelope}
    (hphase : s.phase = .session (.completed t response)) : Ledger (s.recheck t response) := by
  have htask : s.phase.task = some t := by rw [hphase]; rfl
  have hresult : t.result = some (.returned (.ok response)) := by
    have := hi.sound
    rw [hphase] at this
    exact this
  have hcompleted : .completed t.id ∈ s.log :=
    (hi.tasks t (mem_task s htask)).completed.mp (by simp [hresult])
  have hlooked : Ledger { s with log := .looked t.id s.sup.cancelled :: s.log } := by
    refine ⟨⟨hcompleted, hi.proper⟩, fun x hx => (hi.tasks x hx).cons (.inr ⟨_, _, rfl⟩), hi.apart,
      fun id frame hm => hi.recorded id frame ?_, hi.sound.cons _⟩
    rcases List.mem_cons.mp hm with he | hm
    · cases he
    · exact hm
  unfold OutboundState.recheck OutboundState.look
  split
  · exact hlooked.leave _
  · rename_i hc
    simp only [Bool.not_eq_true] at hc
    refine hlooked.move (UInt64.le_refl _) ?_ ⟨hresult, ?_⟩
    · rw [OutboundState.tasks, htask]
      exact .refl _
    · rw [hc]
      exact List.mem_cons_self

theorem send (hi : Ledger s) {t : Task} {response : OuterEnvelope} {ok : Bool}
    (hphase : s.phase = .session (.checked t response)) : Ledger (s.send t response ok) := by
  unfold OutboundState.send
  split
  · have htask : s.phase.task = some t := by rw [hphase]; rfl
    have hlogged := hi.tasks t (mem_task s htask)
    obtain ⟨hresult, hlooked⟩ : t.result = some (.returned (.ok response)) ∧
        .looked t.id false ∈ s.log := by
      have := hi.sound
      rw [hphase] at this
      exact this
    refine ⟨⟨⟨hlooked, hlogged.unsent, t.frame, hlogged.accepted, hlogged.replies _ hresult⟩,
      hi.proper⟩, fun x hx => ?_, ?_, fun id frame hm => hi.recorded id frame ?_, trivial⟩
    · exact (hi.tasks x (List.mem_append_right _ hx)).cons (.inl (hi.apart_of_task htask hx))
    · exact hi.apart.sublist ((List.sublist_append_right _ _).map Task.id)
    · rcases List.mem_cons.mp hm with he | hm
      · cases he
      · exact hm
  · exact hi.leave _

/-- An execution drops its guard or comes to its result. -/
theorem replace (hi : Ledger s) {l r : List Task} {t t' : Task} {sup : Supervisor}
    {log : List SessionEvent} (hl : s.pending = l ++ t :: r) (hid : t'.id = t.id)
    (hh : sup.highestRemoteSequence = s.sup.highestRemoteSequence) (hp : Proper log)
    (hothers : ∀ x ∈ s.tasks, x.id ≠ t.id → x.Logged log) (ht : t'.Logged log)
    (hacc : ∀ id frame, .accepted id frame ∈ log → .accepted id frame ∈ s.log)
    (hsound : s.phase.Sound log) : Ledger ⟨sup, s.phase, l ++ t' :: r, s.spawned, log⟩ := by
  have htasks : s.tasks = (s.phase.task.toList ++ l) ++ t :: r := by
    rw [OutboundState.tasks, hl, List.append_assoc]
  have hnew : s.phase.task.toList ++ (l ++ t' :: r) = (s.phase.task.toList ++ l) ++ t' :: r := by
    rw [List.append_assoc]
  have hids : ((s.phase.task.toList ++ (l ++ t' :: r)).map Task.id) = s.tasks.map Task.id := by
    rw [hnew, htasks]
    simp [hid]
  refine ⟨hp, fun x hx => ?_, ?_, fun id frame hm => ?_, hsound⟩
  · change x ∈ s.phase.task.toList ++ (l ++ t' :: r) at hx
    rw [hnew, List.mem_append, List.mem_cons] at hx
    by_cases he : x = t'
    · exact he ▸ ht
    · have hx : x ∈ s.phase.task.toList ++ l ∨ x ∈ r := by tauto
      refine hothers x ?_ ?_
      · rw [htasks, List.mem_append, List.mem_cons]
        tauto
      · have ha := hi.apart
        rw [htasks, List.map_append, List.map_cons, List.nodup_append, List.nodup_cons] at ha
        obtain ⟨-, ⟨htr, -⟩, hdis⟩ := ha
        rintro hxt
        rcases hx with hx | hx
        · exact hdis _ (List.mem_map_of_mem hx) _ List.mem_cons_self hxt
        · exact htr (hxt ▸ List.mem_map_of_mem hx)
  · change ((s.phase.task.toList ++ (l ++ t' :: r)).map Task.id).Nodup
    rw [hids]
    exact hi.apart
  · change id < s.spawned ∧ frame.sequence ≤ sup.highestRemoteSequence
    rw [hh]
    exact hi.recorded id frame (hacc id frame hm)

theorem release (hi : Ledger s) {l r : List Task} {t : Task} (hl : s.pending = l ++ t :: r)
    (guard : PermitGuard) :
    Ledger { s with
      sup := s.sup.dropGuard guard
      pending := l ++ { t with guarded := false } :: r } := by
  have ht := hi.tasks t (by simp [OutboundState.tasks, hl])
  exact hi.replace hl rfl rfl hi.proper (fun x hx _ => hi.tasks x hx)
    ⟨ht.accepted, ht.unsent, ht.completed, ht.execution, ht.replies⟩ (fun _ _ h => h) hi.sound

theorem complete (hi : Ledger s) {l r : List Task} {t : Task} (hl : s.pending = l ++ t :: r)
    (hr : t.result = none) (c : Primitives) (e : TaskEnd) :
    Ledger { s with
      pending := l ++ { t with result := some (t.execution.resolve c e) } :: r
      log := .completed t.id :: s.log } := by
  have ht := hi.tasks t (by simp [OutboundState.tasks, hl])
  have hfresh : .completed t.id ∉ s.log := fun hm => ht.completed.mpr hm hr
  refine hi.replace hl rfl rfl ⟨⟨⟨t.frame, ht.accepted⟩, hfresh⟩, hi.proper⟩
    (fun x hx hne => (hi.tasks x hx).cons (.inl hne.symm)) ⟨?_, ?_, ?_, ht.execution, ?_⟩ ?_
    (hi.sound.cons _)
  · exact List.mem_cons_of_mem _ ht.accepted
  · intro response hm
    rcases List.mem_cons.mp hm with he | hm
    · cases he
    · exact ht.unsent response hm
  · exact iff_of_true (by simp) List.mem_cons_self
  · intro response h
    exact ht.execution.resolve (Option.some.inj h)
  · intro id frame hm
    rcases List.mem_cons.mp hm with he | hm
    · cases he
    · exact hm

theorem spawn (hi : Ledger s) {frame : OuterEnvelope} {sup : Supervisor}
    {execution : RemoteExecution} (hphase : s.phase.task = none)
    (hlt : s.sup.highestRemoteSequence < frame.sequence)
    (hh : sup.highestRemoteSequence = frame.sequence) (hf : execution.For frame) :
    Ledger (s.spawn sup frame execution) := by
  have htasks : s.tasks = s.pending := by rw [OutboundState.tasks, hphase]; rfl
  have hid : ∀ t ∈ s.pending, t.id < s.spawned := fun t ht =>
    (hi.recorded t.id t.frame (hi.tasks t (htasks ▸ ht)).accepted).1
  have hnew : ∀ f, .accepted s.spawned f ∉ s.log := fun f hm =>
    Nat.lt_irrefl _ (hi.recorded s.spawned f hm).1
  refine ⟨⟨fun i f hm => ?_, hi.proper⟩, fun t ht => ?_, ?_, fun id f hm => ?_, trivial⟩
  · obtain ⟨h1, h2⟩ := hi.recorded i f hm
    exact ⟨h1, UInt64.lt_of_le_of_lt h2 hlt⟩
  · rcases List.mem_cons.mp ht with rfl | ht
    · refine ⟨List.mem_cons_self, fun r hm => ?_, iff_of_false (by simp) fun hm => ?_, hf, nofun⟩
      · rcases List.mem_cons.mp hm with he | hm
        · cases he
        · obtain ⟨f, hf, -⟩ := hi.proper.sent hm
          exact hnew f hf
      · rcases List.mem_cons.mp hm with he | hm
        · cases he
        · obtain ⟨f, hf⟩ := hi.proper.completed hm
          exact hnew f hf
    · exact (hi.tasks t (htasks ▸ ht)).cons (.inl (Nat.ne_of_gt (hid t ht)))
  · refine List.nodup_cons.mpr ⟨fun hm => ?_, ?_⟩
    · obtain ⟨t, ht, he⟩ := List.mem_map.mp hm
      exact Nat.ne_of_lt (hid t ht) he
    · have ha := hi.apart
      rw [htasks] at ha
      exact ha
  · rcases List.mem_cons.mp hm with he | hm
    · cases he
      exact ⟨Nat.lt_succ_self _, UInt64.le_of_eq hh.symm⟩
    · obtain ⟨h1, h2⟩ := hi.recorded id f hm
      exact ⟨Nat.lt_succ_of_lt h1, UInt64.le_trans h2 (hh ▸ UInt64.le_of_lt hlt)⟩

theorem handleFrame (c : Primitives) (secret : Key) (hi : Ledger s)
    (hphase : s.phase.task = none) (i : PrepareInput) (frame : OuterEnvelope) :
    Ledger (s.handleFrame c secret i frame) := by
  unfold OutboundState.handleFrame
  split
  · obtain ⟨registry, hc⟩ := s.sup.cancelRemoteRequest_effect c frame
    split
    all_goals
      rename_i h
      rw [h] at hc
      subst hc
      exact hi.settle (UInt64.le_refl _) rfl
  · split
    · exact hi.leave _
    · split
      · exact hi.leave _
      · have he := s.sup.prepare_effect c frame secret i
        split
        · rename_i sup error h
          rw [h] at he
          cases he with
          | unreserved => exact hi.settle (UInt64.le_refl _) rfl
          | reserved hlt hl =>
            cases hl with
            | refused => exact hi.settle (UInt64.le_of_lt hlt) rfl
        · rename_i sup execution h
          rw [h] at he
          cases he with
          | reserved hlt hl =>
            cases hl with
            | answered _ hr => exact hi.spawn hphase hlt rfl hr
            | running => exact hi.spawn hphase hlt rfl rfl

theorem step {c : Primitives} {secret : Key} {a : OutboundAct} {s' : OutboundState}
    (hi : Ledger s) (hs : OutboundStep c secret s a s') : Ledger s' := by
  cases hs with
  | look => exact hi.look rfl
  | changed => exact hi.look rfl
  | take hp hl hr => exact hi.take hp hl hr
  | recheck hp => exact hi.recheck hp
  | send hp => exact hi.send hp
  | receive hp =>
    rename_i i m
    cases m with
    | binary bytes =>
      unfold OutboundState.receive
      dsimp only
      split
      · exact hi.leave _
      · exact hi.handleFrame c secret (by rw [hp]; rfl) i _
    | ping sent =>
      cases sent with
      | true => exact hi.goto rfl
      | false => exact hi.leave _
    | pong => exact hi.goto rfl
    | closed => exact hi.leave _
    | text => exact hi.leave _
  | cancel => exact hi.settle (UInt64.le_refl _) rfl
  | reap hp hl =>
    refine hi.move (UInt64.le_refl _) ?_ hi.sound
    rw [OutboundState.tasks, hl]
    exact (((List.sublist_cons_self _ _).append_left _).append_left _).subperm
  | clear => exact hi.settle (UInt64.le_refl _) rfl
  | release hl => exact hi.release hl _
  | complete hl _ hr => exact hi.complete hl hr c _
  | other => exact hi.move (UInt64.le_refl _) (.refl _) hi.sound
  | connect =>
    unfold OutboundState.connect
    split
    · exact hi.goto rfl
    · unfold Supervisor.resumeAfterReconnect
      cases s.sup.resumeCheck _ with
      | error e => exact hi.settle (UInt64.le_refl _) rfl
      | ok u => exact hi.settle (UInt64.le_refl _) rfl
  | after =>
    unfold OutboundState.after
    split
    · refine hi.settle (UInt64.le_refl _) ?_
      split <;> rfl
    · exact hi.settle (UInt64.le_refl _) rfl
  | shutdown => exact hi.settle (UInt64.le_refl _) rfl
  | stop => exact hi.settle (UInt64.le_refl _) rfl

theorem reachable {c : Primitives} {secret : Key} (h : (outbound c secret).Reachable s) :
    Ledger s := by
  refine System.invariant ?_ (fun s a s' hi hs => hi.step hs) h
  rintro s ⟨-, hphase, hnil, -, hlog⟩
  have htasks : s.tasks = [] := by rw [OutboundState.tasks, hphase, hnil]; rfl
  refine ⟨?_, ?_, ?_, ?_, .idle (by rw [hphase]; rfl)⟩
  · rw [hlog]
    trivial
  · simp [htasks]
  · simp [htasks]
  · simp [hlog]

end Ledger

/-- **Answers.** Over all sessions of a bridge a response follows a look that found the signal
lowered, which follows the end of its own execution, and no request is answered twice. -/
theorem answers_once {c : Primitives} {secret : Key} {s : OutboundState}
    (h : (outbound c secret).Reachable s) :
    Proper s.log ∧ (s.log.filterMap SessionEvent.reply).Nodup :=
  ⟨(Ledger.reachable h).proper, (Ledger.reachable h).proper.replies_nodup⟩

/-- The request is answered. -/
theorem answers_once_sample : ∃ s : OutboundState, Proper s.log ∧
    s.log.filterMap SessionEvent.reply = [.fromEnvelope sampleEnvelope] ∧
    (s.log.filterMap SessionEvent.reply).Nodup := by
  obtain ⟨sup, hlowered, h⟩ := sample_spawned
  let inner := processResponse ⟨.completed, some 0, []⟩ "" "" 0 sampleEnvelope
  obtain ⟨text, htext⟩ := plainCipher_lawful.total sampleKey sampleNonce.bytes
    (aadForOuter (responseEnvelope sampleEnvelope (canonicalJson inner.toJson).length))
    (canonicalJson inner.toJson) (by
      rw [canonicalJson_length]
      decide +kernel)
  have hseal := (sealResponse_ok plainCipher_lawful rfl).mpr ⟨text, htext, rfl⟩
  have hlook : (⟨sup, .session .top, [sampleTask], 1, [.accepted 0 sampleEnvelope]⟩ :
      OutboundState).look .select =
        ⟨sup, .session .select, [sampleTask], 1, [.accepted 0 sampleEnvelope]⟩ := by
    rw [OutboundState.look, if_neg (by simp [hlowered])]
    rfl
  have h1 := h.next .look (.look rfl)
  rw [hlook] at h1
  have h4 := h1.next (.release sampleTask) (.release (l := []) rfl rfl)
  have h5 := h4.next (.complete { sampleTask with guarded := false }
    (.process ⟨.completed, some 0, []⟩ "" "" 0 sampleNonce)) (.complete (l := []) rfl rfl rfl)
  have h6 := h5.next (.take _) (.take (l := []) rfl rfl (by
    rw [sampleTask, RemoteExecution.resolve, hseal]))
  have h7 := h6.next .recheck (.recheck rfl)
  rw [OutboundState.recheck, OutboundState.look, if_neg (by
    change ¬ sup.cancelled = true
    simp [hlowered])] at h7
  have h8 := h7.next (.send true) (.send rfl)
  exact ⟨_, (answers_once h8).1, rfl, (answers_once h8).2⟩

end Bridge
end EgoBridge
