import EgoBridge.Bridge.RelaySession

/-!
# Bridge.Teardown

What a relay session leaves behind.

* `Teardown`          — the guards held are those of the pending executions, and between two
  sessions there are none.
* `lowers`            — only a connection made again lowers the signal.
* `session_torn_down` — a session that has returned left nothing behind, and a connection made
  again finds nothing.
-/

namespace EgoBridge
namespace Bridge

open Protocol Run

namespace OutboundPhase

/-- No session is running, and none was left without cleaning up. -/
def between : OutboundPhase → Prop
  | .dialing _ => True
  | .session (.returned _) => True
  | _ => False

/-- A session has raised the signal and not begun again. -/
def raised : OutboundPhase → Prop
  | .dialing first => first = false
  | .session (.reaping _) => True
  | .session (.returned _) => True
  | _ => False

end OutboundPhase

def heldBy (tasks : List Task) : List Held := tasks.filterMap Task.held

theorem heldBy_append (l r : List Task) : heldBy (l ++ r) = heldBy l ++ heldBy r :=
  List.filterMap_append

theorem heldBy_cons_none {t : Task} (h : t.held = none) (r : List Task) :
    heldBy (t :: r) = heldBy r := List.filterMap_cons_none h

theorem heldBy_cons_some {t : Task} {h : Held} (ht : t.held = some h) (r : List Task) :
    heldBy (t :: r) = h :: heldBy r := List.filterMap_cons_some ht

structure Teardown (maximum : Nat) (s : OutboundState) : Prop where
  limit : s.sup.config.maxParallelRequests = maximum
  locks : Locks.Inv maximum ⟨s.sup.scheduler, heldBy s.pending⟩
  resolved : ∀ t ∈ s.pending, t.result ≠ none → t.held = none
  window : s.pending.length ≤ maximum + 1
  between : s.phase.between → s.pending = [] ∧ s.sup.activeRemoteRequests = ∅
  raised : s.phase.raised → s.sup.cancelled = true

namespace Teardown

variable {maximum : Nat} {s : OutboundState}

/-- A step that leaves the executions and the locks alone, inside a session. -/
theorem within (hi : Teardown maximum s) {sup : Supervisor} {phase : OutboundPhase}
    {spawned : Nat} {log : List SessionEvent} (hm : sup.config = s.sup.config)
    (hs : sup.scheduler = s.sup.scheduler) (hb : ¬ phase.between)
    (hr : phase.raised → sup.cancelled = true) :
    Teardown maximum ⟨sup, phase, s.pending, spawned, log⟩ where
  limit := hm ▸ hi.limit
  locks := hs ▸ hi.locks
  resolved := hi.resolved
  window := hi.window
  between := fun h => absurd h hb
  raised := hr

theorem goto (hi : Teardown maximum s) {p : SessionPoint}
    (hb : ¬ (OutboundPhase.session p).between) (hr : ¬ (OutboundPhase.session p).raised) :
    Teardown maximum (s.goto p) := hi.within rfl rfl hb fun h => absurd h hr

theorem leave (hi : Teardown maximum s) (exit : SessionExit) : Teardown maximum (s.leave exit) :=
  hi.within rfl rfl not_false not_false.elim

theorem look (hi : Teardown maximum s) {p : SessionPoint}
    (hb : ¬ (OutboundPhase.session p).between) (hr : ¬ (OutboundPhase.session p).raised) :
    Teardown maximum (s.look p) := by
  unfold OutboundState.look
  split
  · exact hi.leave _
  · exact hi.goto hb hr

/-- The result of an execution is taken: it holds no guard any more. -/
theorem remove (hi : Teardown maximum s) {l r : List Task} {t : Task}
    (hp : s.pending = l ++ t :: r) (ht : t.result ≠ none) :
    Teardown maximum { s with pending := l ++ r } where
  limit := hi.limit
  locks := by
    have hn : t.held = none := hi.resolved t (by simp [hp]) ht
    have hl := hi.locks
    rw [hp, heldBy_append, heldBy_cons_none hn] at hl
    dsimp only
    rw [heldBy_append]
    exact hl
  resolved := fun x hx => hi.resolved x (by
    rw [hp]
    simp only [List.mem_append, List.mem_cons] at hx ⊢
    tauto)
  window := by
    have hw := hi.window
    rw [hp] at hw
    simp only [List.length_append, List.length_cons] at hw ⊢
    omega
  between := fun h => by
    have := (hi.between h).1
    rw [hp] at this
    simp at this
  raised := hi.raised

/-- An execution drops its guard, or comes to its result. -/
theorem replace (hi : Teardown maximum s) {l r : List Task} {t t' : Task} {scheduler : Scheduler}
    {log : List SessionEvent} (hp : s.pending = l ++ t :: r)
    (hl : Locks.Inv maximum ⟨scheduler, heldBy (l ++ t' :: r)⟩) (ht : t'.held = none) :
    Teardown maximum
      ⟨{ s.sup with scheduler := scheduler }, s.phase, l ++ t' :: r, s.spawned, log⟩ where
  limit := hi.limit
  locks := hl
  resolved := fun x hx hr => by
    rcases List.mem_append.mp hx with hx | hx
    · exact hi.resolved x (by simp [hp, hx]) hr
    · rcases List.mem_cons.mp hx with rfl | hx
      · exact ht
      · exact hi.resolved x (by simp [hp, hx]) hr
  window := by
    have hw := hi.window
    rw [hp] at hw
    simpa using hw
  between := fun h => by
    have := (hi.between h).1
    rw [hp] at this
    simp at this
  raised := hi.raised

theorem release (hi : Teardown maximum s) {l r : List Task} {t : Task} {h : Held}
    (hp : s.pending = l ++ t :: r) (ht : t.held = some h) :
    Locks.Inv maximum ⟨s.sup.scheduler.release h.guard,
      heldBy (l ++ { t with guarded := false } :: r)⟩ := by
  have hl := hi.locks
  rw [hp, heldBy_append, heldBy_cons_some ht] at hl
  rw [heldBy_append, heldBy_cons_none rfl]
  exact hl.dropped

theorem launched (hi : Teardown maximum s) {frame : OuterEnvelope} {q : UInt64} {sup : Supervisor}
    {execution : RemoteExecution} (hw : s.pending.length ≤ maximum) (cancelled : Bool)
    (he : Supervisor.Launched { s.sup with highestRemoteSequence := q } frame sup (.ok execution)) :
    Teardown maximum (s.spawn (sup.sendCancel cancelled) frame execution) := by
  have hb : ∀ t ∈ (⟨s.spawned, frame, execution, true, none⟩ : Task) :: s.pending,
      t.result ≠ none → t.held = none := by
    intro t ht hr
    rcases List.mem_cons.mp ht with rfl | ht
    · exact absurd rfl hr
    · exact hi.resolved t ht hr
  cases he with
  | answered ht hr =>
    refine ⟨hi.limit, ?_, hb, Nat.succ_le_succ hw, not_false.elim, not_false.elim⟩
    exact ht.inv hi.locks
  | running hacq =>
    refine ⟨hi.limit, ?_, hb, Nat.succ_le_succ hw, not_false.elim, not_false.elim⟩
    exact hi.locks.acquired (RequestScope.normalized_normal _ _ _) hacq

theorem handleFrame (c : Primitives) (secret : Key) (hi : Teardown maximum s) (i : PrepareInput)
    (frame : OuterEnvelope) : Teardown maximum (s.handleFrame c secret i frame) := by
  unfold OutboundState.handleFrame
  split
  · obtain ⟨registry, hc⟩ := s.sup.cancelRemoteRequest_effect c frame
    split
    · rename_i sup error h
      rw [h] at hc
      subst hc
      exact hi.within rfl rfl not_false not_false.elim
    · rename_i sup error h
      rw [h] at hc
      subst hc
      exact hi.within rfl rfl not_false not_false.elim
  · split
    · exact hi.leave _
    · split
      · exact hi.leave _
      · rename_i hw
        rw [hi.limit] at hw
        have he := s.sup.prepare_effect c frame secret i
        split
        · rename_i sup error h
          rw [h] at he
          cases he with
          | unreserved => exact hi.within rfl rfl not_false not_false.elim
          | reserved hlt hl =>
            cases hl with
            | refused ht =>
              exact ⟨hi.limit, ht.inv hi.locks, hi.resolved, hi.window, not_false.elim,
                not_false.elim⟩
        · rename_i sup execution h
          rw [h] at he
          cases he with
          | reserved hlt hl => exact hi.launched (by omega) _ hl

theorem step {c : Primitives} {secret : Key} {a : OutboundAct} {s' : OutboundState}
    (hi : Teardown maximum s) (hs : OutboundStep c secret s a s') : Teardown maximum s' := by
  cases hs with
  | look hp => exact hi.look not_false not_false
  | changed hp => exact hi.look not_false not_false
  | take hp hl hr =>
    have hrem := hi.remove hl (by simp [hr])
    rename_i result
    cases result with
    | returned result =>
      cases result with
      | ok response => exact hrem.goto not_false not_false
      | error error => exact hrem.leave _
    | panicked => exact hrem.leave _
  | recheck hp =>
    exact (hi.within rfl rfl not_false not_false.elim : Teardown maximum
      ⟨s.sup, .session .top, s.pending, s.spawned, _⟩).look not_false not_false
  | send hp =>
    unfold OutboundState.send
    split
    · exact hi.within rfl rfl not_false not_false.elim
    · exact hi.leave _
  | receive hp =>
    rename_i i m
    cases m with
    | binary bytes =>
      unfold OutboundState.receive
      dsimp only
      split
      · exact hi.leave _
      · exact hi.handleFrame c secret i _
    | ping sent =>
      cases sent with
      | true => exact hi.goto not_false not_false
      | false => exact hi.leave _
    | pong => exact hi.goto not_false not_false
    | closed => exact hi.leave _
    | text => exact hi.leave _
  | cancel hp => exact hi.within rfl rfl not_false fun _ => rfl
  | reap hp hl hr => exact hi.remove hl (by simp [hr])
  | clear hp hnil =>
    exact ⟨hi.limit, hi.locks, hi.resolved, hi.window, fun _ => ⟨hnil, rfl⟩,
      fun _ => hi.raised (by rw [hp]; trivial)⟩
  | release hl hh => exact hi.replace hl (hi.release hl hh) rfl
  | complete hl hh hr =>
    rename_i l r t e
    have hnew : heldBy ({ t with result := some (t.execution.resolve c e) } :: r) = heldBy r :=
      heldBy_cons_none hh r
    have hlocks := hi.locks
    rw [hl, heldBy_append, heldBy_cons_none hh] at hlocks
    refine hi.replace hl ?_ hh
    rw [heldBy_append, hnew]
    exact hlocks
  | other =>
    exact ⟨hi.limit, hi.locks, hi.resolved, hi.window, hi.between,
      fun h => by simp [OutboundState.other, hi.raised h]⟩
  | connect hp =>
    unfold OutboundState.connect
    split
    · exact hi.goto not_false not_false
    · unfold Supervisor.resumeAfterReconnect
      cases s.sup.resumeCheck _ with
      | error e => exact hi.within rfl rfl not_false not_false.elim
      | ok u => exact hi.within rfl rfl not_false not_false.elim
  | after hp =>
    have hb := hi.between (by rw [hp]; trivial)
    have hr := hi.raised (by rw [hp]; trivial)
    unfold OutboundState.after
    split
    · split
      · exact hi.within rfl rfl not_false not_false.elim
      · exact ⟨hi.limit, hi.locks, hi.resolved, hi.window, fun _ => hb, fun _ => hr⟩
    · exact hi.within rfl rfl not_false not_false.elim
  | shutdown => exact hi.within rfl rfl not_false not_false.elim
  | stop => exact hi.within rfl rfl not_false not_false.elim

end Teardown

/-- Nothing of a session is left. -/
structure OutboundState.Idle (s : OutboundState) : Prop where
  finished : s.pending = []
  unregistered : s.sup.activeRemoteRequests = ∅
  unlocked : Scheduler.new s.sup.config.maxParallelRequests = .ok s.sup.scheduler

/-- Without guards the scheduler is as it was made. -/
theorem Teardown.idle {maximum : Nat} {s : OutboundState} (hi : Teardown maximum s)
    (hb : s.phase.between) : s.Idle := by
  obtain ⟨hnil, hreg⟩ := hi.between hb
  have hl := hi.locks
  rw [hnil] at hl
  have hactive : s.sup.scheduler.active = 0 := hl.count
  have hkeys : s.sup.scheduler.keys = [] := hl.keys.eq_nil
  have hbinding : s.sup.scheduler.bindingHeld = false := by
    rw [Bool.eq_false_iff]
    intro h
    obtain ⟨_, hm, -⟩ := hl.alone_iff.mp h
    cases hm
  refine ⟨hnil, hreg, ?_⟩
  rw [hi.limit, hl.new, ← hactive, ← hkeys, ← hbinding]

theorem Teardown.start {s : OutboundState} {config : BridgeConfig} {highest now : UInt64}
    (hnew : Supervisor.new config highest now = .ok s.sup) (hphase : s.phase = .dialing true)
    (hnil : s.pending = []) : Teardown config.maxParallelRequests s := by
  unfold Supervisor.new at hnew
  split at hnew
  · cases hnew
  · split at hnew
    · cases hnew
    · rename_i scheduler hs
      have hsup : Supervisor.fresh config scheduler highest now = s.sup := Except.ok.inj hnew
      have hlocks : Locks.Inv config.maxParallelRequests ⟨scheduler, []⟩ :=
        .reachable (.start ⟨hs, rfl⟩)
      refine ⟨by rw [← hsup]; rfl, ?_, ?_, ?_, fun _ => ⟨hnil, by rw [← hsup]; rfl⟩, ?_⟩
      · rw [hnil, ← hsup]
        exact hlocks
      · simp [hnil]
      · simp [hnil]
      · simp [hphase, OutboundPhase.raised]

theorem Teardown.reachable {c : Primitives} {secret : Key} {s : OutboundState}
    (h : (outbound c secret).Reachable s) : Teardown s.sup.config.maxParallelRequests s := by
  have hi : ∃ maximum, Teardown maximum s := by
    refine System.invariant (I := fun s => ∃ maximum, Teardown maximum s) ?_ ?_ h
    · rintro s ⟨⟨config, highest, now, hnew⟩, hphase, hnil, -⟩
      exact ⟨_, .start hnew hphase hnil⟩
    · rintro s a s' ⟨maximum, hi⟩ hs
      exact ⟨maximum, hi.step hs⟩
  obtain ⟨maximum, hi⟩ := hi
  exact hi.limit ▸ hi

theorem OutboundState.receive_cancelled (c : Primitives) (secret : Key) (s : OutboundState)
    (i : PrepareInput) (m : RelayMessage) (h : s.sup.cancelled = true) :
    (s.receive c secret i m).sup.cancelled = true := by
  cases m with
  | binary bytes =>
    unfold receive
    dsimp only
    split
    · exact h
    · rename_i frame _
      unfold handleFrame
      split
      · obtain ⟨registry, hc⟩ := s.sup.cancelRemoteRequest_effect c frame
        split <;> (rename_i hr; rw [hr] at hc; subst hc; exact h)
      · split
        · exact h
        · split
          · exact h
          · have hp := (s.sup.prepare_effect c frame secret i).cancelled
            split
            all_goals
              rename_i hr
              rw [hr, h] at hp
              dsimp only at hp
              simp [leave, spawn, hp]
  | ping sent => cases sent <;> exact h
  | pong => exact h
  | closed => exact h
  | text => exact h

theorem OutboundState.look_sup (s : OutboundState) (p : SessionPoint) : (s.look p).sup = s.sup := by
  unfold look
  split <;> rfl

/-- Only a connection made again lowers the signal. -/
theorem OutboundStep.lowers {c : Primitives} {secret : Key} {s s' : OutboundState}
    {a : OutboundAct} (hs : OutboundStep c secret s a s') (h : s.sup.cancelled = true)
    (h' : s'.sup.cancelled = false) : s.phase = .dialing false := by
  have hkept : s'.sup.cancelled = s.sup.cancelled → s.phase = .dialing false := by
    intro he
    rw [he, h] at h'
    cases h'
  cases hs with
  | look => exact hkept (by rw [OutboundState.look_sup])
  | changed => exact hkept (by rw [OutboundState.look_sup])
  | take =>
    rename_i result _ _ _
    cases result with
    | returned result => cases result <;> exact hkept rfl
    | panicked => exact hkept rfl
  | recheck =>
    refine hkept ?_
    unfold OutboundState.recheck
    rw [OutboundState.look_sup]
  | send =>
    refine hkept ?_
    unfold OutboundState.send
    split <;> rfl
  | receive =>
    rw [OutboundState.receive_cancelled c secret s _ _ h] at h'
    cases h'
  | cancel => cases h'
  | reap => exact hkept rfl
  | clear => exact hkept rfl
  | release => exact hkept rfl
  | complete => exact hkept rfl
  | other => simp [OutboundState.other, h] at h'
  | connect hp =>
    rename_i first _
    cases first with
    | true => exact hkept rfl
    | false => exact hp
  | after =>
    refine hkept ?_
    unfold OutboundState.after
    split <;> rfl
  | shutdown => cases h'
  | stop => exact hkept rfl

/-- **Teardown.** In every state a session's window is bounded. Whenever a session has returned, by
any exit, the signal is raised, its executions have finished, no lock is held and no request is
registered; and a step that lowers the signal starts from such a state. -/
theorem session_torn_down {c : Primitives} {secret : Key} {s : OutboundState}
    (h : (outbound c secret).Reachable s) :
    s.pending.length ≤ s.sup.config.maxParallelRequests + 1 ∧
    (∀ exit, s.phase = .session (.returned exit) → s.sup.cancelled = true ∧ s.Idle) ∧
    ∀ a s', OutboundStep c secret s a s' → s.sup.cancelled = true → s'.sup.cancelled = false →
      s.Idle := by
  have hi := Teardown.reachable h
  refine ⟨hi.window, fun exit hp => ?_, fun a s' hs hr hl => ?_⟩
  · exact ⟨hi.raised (by rw [hp]; trivial), hi.idle (by rw [hp]; trivial)⟩
  · exact hi.idle (by rw [hs.lowers hr hl]; trivial)

/-- The relay closes the connection, and the request runs to its end. -/
theorem session_torn_down_closed : ∃ s : OutboundState,
    s.phase = .session (.returned (.ok .disconnected)) ∧
    s.spawned = 1 ∧ s.sup.cancelled = true ∧ s.Idle := by
  obtain ⟨sup, hlowered, h⟩ := sample_spawned
  let i : PrepareInput := ⟨0, .ok (), false, sampleNonce⟩
  have hlook : (⟨sup, .session .top, [sampleTask], 1, [.accepted 0 sampleEnvelope]⟩ :
      OutboundState).look .select =
        ⟨sup, .session .select, [sampleTask], 1, [.accepted 0 sampleEnvelope]⟩ := by
    rw [OutboundState.look, if_neg (by simp [hlowered])]
    rfl
  have h1 := h.next .look (.look rfl)
  rw [hlook] at h1
  have h2 := h1.next (.receive i .closed) (.receive rfl)
  have h3 := h2.next .cancel (.cancel rfl)
  have h4 := h3.next (.release sampleTask) (.release (l := []) rfl rfl)
  have h5 := h4.next (.complete { sampleTask with guarded := false } .panic)
    (.complete (l := []) rfl rfl rfl)
  have h6 := h5.next (.reap _) (.reap (l := []) rfl rfl rfl)
  have h7 := h6.next .clear (.clear rfl rfl)
  exact ⟨_, rfl, rfl, (session_torn_down h7).2.1 _ rfl⟩

end Bridge
end EgoBridge
