import EgoBridge.Bridge.Execution
import EgoBridge.Bridge.Revocation

/-!
# Bridge.Outlive

Executions among control calls: whether one can succeed after its authorization has ended.

* `Tracked`          — an execution with a record of what hit it: `hit` says that between its
                       admission and the reaping of its child a revocation raised the signal or a
                       newer generation was activated.
* `sparesExecutions` — the signal is not lowered, and no generation activated, on an execution
                       that a revocation has hit and that may still succeed, nor a generation on a
                       running one.
* `no_late_success`  — then no execution that was hit returns `Completed` or `ScriptError`.
* `outlived_of_unspared` — and after a step outside the condition one may.
-/

namespace EgoBridge
namespace Bridge

open Protocol Relation Run

structure Tracked where
  exec : Execution
  raisesAtAdmission : Nat
  hit : Bool

namespace Tracked

/-- The execution goes on; note the raises at its admission, and what hit it at its reaping. -/
def follow (t : Tracked) (s : ControlState) (e : Execution) : Tracked where
  exec := e
  raisesAtAdmission :=
    if t.exec.stage.isAdmitted then t.raisesAtAdmission else s.raises
  hit :=
    if e.stage.isReaped then
      s.raises ≠ t.raisesAtAdmission || s.sup.lease.generation ≠ e.generation
    else t.hit

end Tracked

structure Returned where
  tracked : Tracked
  result : ExecResult

structure WorkState where
  control : ControlState
  returned : List Returned

inductive WorkSec : WorkState → ControlCall ⊕ Tracked → UInt64 ⊕ ExecInput → WorkState →
    Option (ControlCall ⊕ Tracked) → Prop where
  | control {s : WorkState} {k : ControlCall} {now : UInt64} {control : ControlState}
      {k' : Option ControlCall} : s.control.control now k = (control, k') →
      WorkSec s (.inl k) (.inl now) { s with control := control } (k'.map .inl)
  | goes {s : WorkState} {t : Tracked} {i : ExecInput} {e : Execution} :
      t.exec.next s.control.sup i = some (.inl e) →
      WorkSec s (.inr t) (.inr i) s (some (.inr (t.follow s.control e)))
  | returns {s : WorkState} {t : Tracked} {i : ExecInput} {r : ExecResult} :
      t.exec.next s.control.sup i = some (.inr r) →
      WorkSec s (.inr t) (.inr i) { s with returned := ⟨t, r⟩ :: s.returned } none

def isStart : ControlCall ⊕ Tracked → Bool
  | .inl k => k.isStart
  | .inr t => t.exec.stage = .entry

def workObject : Object (UInt64 ⊕ ExecInput) WorkState (ControlCall ⊕ Tracked) where
  init := fun s => controlObject.init s.control ∧ s.returned = []
  start := fun k => isStart k = true
  sec := WorkSec

/-- Nothing hit the execution that it may still outlive: no revocation has raised the signal since
its admission, or, its child reaped, before the reaping. One that is terminated counts as spared. -/
def Tracked.spared (s : ControlState) (t : Tracked) : Prop :=
  (t.exec.stage.isRunning = true → s.raises = t.raisesAtAdmission) ∧
    (t.exec.stage.isReaped = true → t.hit = false)

/-- A resume lowers the signal, and a newer generation is activated, only while every execution is
spared; and the activation only while none is running. -/
def sparesExecutions (c : Config WorkState (ControlCall ⊕ Tracked)) :
    Act (UInt64 ⊕ ExecInput) (ControlCall ⊕ Tracked) → Prop
  | .advance (.inl (.resumeSend _)) _ => ∀ t, .inr t ∈ c.calls → t.spared c.shared.control
  | .advance (.inl (.activate generation)) _ =>
    c.shared.control.sup.lease.generation < generation →
      ∀ t, .inr t ∈ c.calls →
        t.spared c.shared.control ∧ t.exec.stage.isRunning = false
  | _ => True

/-! ## The invariant -/

structure TrackOk (s : ControlState) (t : Tracked) : Prop where
  joinOk : t.exec.JoinOk
  before : t.exec.stage.isRunning = true → t.raisesAtAdmission ≤ s.raises
  raised : t.exec.stage.isRunning = true → s.raises ≠ t.raisesAtAdmission →
    s.sup.cancelled = true
  generation : t.exec.stage.isRunning = true → s.sup.lease.generation = t.exec.generation
  hit : t.exec.stage.isReaped = true → t.hit = true → s.sup.cancelled = true

structure WorkInv (c : Config WorkState (ControlCall ⊕ Tracked)) : Prop where
  calls : ∀ t, .inr t ∈ c.calls → TrackOk c.shared.control t
  returned : ∀ r ∈ c.shared.returned, r.tracked.hit = true → r.result.isSuccess = false

/-- A section of a control call lowers the signal, in a resume or in an activation that
succeeds, or it counts every raise and keeps a raised signal. -/
theorem control_cases {s s' : ControlState} {now : UInt64} {k : ControlCall}
    {k' : Option ControlCall} (h : s.control now k = (s', k')) :
    (s'.raises = s.raises ∧
      ((∃ n, k = .resumeSend n ∧ s'.sup.lease.generation = s.sup.lease.generation) ∨
        ∃ generation, k = .activate generation ∧ s.sup.lease.generation < generation)) ∨
    (s.raises ≤ s'.raises ∧ (s'.raises ≠ s.raises → s'.sup.cancelled = true) ∧
      (s.sup.cancelled = true → s'.sup.cancelled = true) ∧
      s'.sup.lease.generation = s.sup.lease.generation) := by
  cases k with
  | revoke => cases h; exact .inr ⟨Nat.le_refl _, fun h => absurd rfl h, id, rfl⟩
  | revokeIssued => cases h; exact .inr ⟨Nat.le_refl _, fun h => absurd rfl h, id, rfl⟩
  | revokeConsumed => cases h; exact .inr ⟨Nat.le_refl _, fun h => absurd rfl h, id, rfl⟩
  | revokeSend => cases h; exact .inr ⟨Nat.le_succ _, fun _ => rfl, fun _ => rfl, rfl⟩
  | cancel => cases h; exact .inr ⟨Nat.le_refl _, fun h => absurd rfl h, fun _ => rfl, rfl⟩
  | resume =>
    simp only [ControlState.control] at h
    split at h <;> cases h <;> exact .inr ⟨Nat.le_refl _, fun h => absurd rfl h, id, rfl⟩
  | resumeSend n => cases h; exact .inl ⟨rfl, .inl ⟨n, rfl, rfl⟩⟩
  | update generation leaseUntil absoluteTtlUntil healthy =>
    cases h
    refine .inr ⟨Nat.le_refl _, fun h => absurd rfl h, ?_, ?_⟩
    · rw [(updateLease_revoked s.sup generation leaseUntil absoluteTtlUntil healthy).2]
      exact id
    · simp only [Supervisor.updateLease]
      split
      · rfl
      · split <;> rfl
  | markFailed grace =>
    simp only [ControlState.control] at h
    rcases s.sup.markRenewalFailed_cases grace now with
      ⟨_, e, he⟩ | ⟨_, hr, _, he, _⟩ | ⟨_, hr, _, _, _, he⟩ | ⟨_, hr, _, _, _, he⟩
    · simp only [he] at h
      rw [if_neg (fun hc => by rw [hc.1] at hc; cases hc.2)] at h
      cases h
      exact .inr ⟨Nat.le_refl _, fun h => absurd rfl h, id, rfl⟩
    · rw [he] at h
      rw [if_pos ⟨hr, rfl⟩] at h
      cases h
      exact .inr ⟨Nat.le_succ _, fun _ => rfl, fun _ => rfl, rfl⟩
    · simp [he, hr] at h
      cases h.1
      exact .inr ⟨Nat.le_refl _, fun h => absurd rfl h, id, rfl⟩
    · simp [he, hr] at h
      cases h.1
      exact .inr ⟨Nat.le_refl _, fun h => absurd rfl h, id, rfl⟩
  | activate generation =>
    simp only [ControlState.control] at h
    rcases s.sup.activateGeneration_cases generation now with ⟨e, he⟩ | ⟨hlt, he⟩
    · simp only [he] at h
      cases h
      exact .inr ⟨Nat.le_refl _, fun h => absurd rfl h, id, rfl⟩
    · simp only [he] at h
      cases h
      exact .inl ⟨rfl, .inr ⟨generation, rfl, hlt⟩⟩

theorem TrackOk.lowered {s s' : ControlState} {t : Tracked} (ht : TrackOk s t)
    (he : s'.raises = s.raises) (hspare : t.spared s)
    (hgen : t.exec.stage.isRunning = true →
      s'.sup.lease.generation = s.sup.lease.generation) : TrackOk s' t where
  joinOk := ht.joinOk
  before := he ▸ ht.before
  raised := fun hr hne => absurd (he.trans (hspare.1 hr)) hne
  generation := fun hr => (hgen hr).trans (ht.generation hr)
  hit := by
    intro hr hh
    rw [hspare.2 hr] at hh
    cases hh

theorem TrackOk.kept {s s' : ControlState} {t : Tracked} (ht : TrackOk s t)
    (hle : s.raises ≤ s'.raises) (hup : s'.raises ≠ s.raises → s'.sup.cancelled = true)
    (hkeep : s.sup.cancelled = true → s'.sup.cancelled = true)
    (hgen : s'.sup.lease.generation = s.sup.lease.generation) : TrackOk s' t where
  joinOk := ht.joinOk
  before := fun hr => Nat.le_trans (ht.before hr) hle
  raised := by
    intro hr hne
    by_cases hs : s'.raises = s.raises
    · exact hkeep (ht.raised hr (hs ▸ hne))
    · exact hup hs
  generation := fun hr => hgen.trans (ht.generation hr)
  hit := fun hr hh => hkeep (ht.hit hr hh)

theorem TrackOk.control {s s' : ControlState} {t : Tracked} (ht : TrackOk s t) {now : UInt64}
    {k : ControlCall} {k' : Option ControlCall} (h : s.control now k = (s', k'))
    (hresume : ∀ n, k = .resumeSend n → t.spared s)
    (hactivate : ∀ generation, k = .activate generation → s.sup.lease.generation < generation →
      t.spared s ∧ t.exec.stage.isRunning = false) : TrackOk s' t := by
  cases control_cases h with
  | inl hl =>
    obtain ⟨he, hk⟩ := hl
    cases hk with
    | inl hk =>
      obtain ⟨n, rfl, hgen⟩ := hk
      exact ht.lowered he (hresume n rfl) (fun _ => hgen)
    | inr hk =>
      obtain ⟨generation, rfl, hlt⟩ := hk
      obtain ⟨hspare, hrun⟩ := hactivate _ rfl hlt
      refine ht.lowered he hspare ?_
      intro hr
      rw [hrun] at hr
      cases hr
  | inr hk =>
    obtain ⟨hle, hup, hkeep, hgen⟩ := hk
    exact ht.kept hle hup hkeep hgen

theorem isAdmitted_of_isRunning {stage : ExecStage} (h : stage.isRunning = true) :
    stage.isAdmitted = true := by
  cases stage with
  | join status => cases h
  | _ => exact h

theorem TrackOk.follow {s : ControlState} {t : Tracked} (ht : TrackOk s t) {i : ExecInput}
    {e : Execution} (h : t.exec.next s.sup i = some (.inl e)) : TrackOk s (t.follow s e) := by
  have hg := Execution.next_goes h
  have hrun (ha : t.exec.stage.isAdmitted = true) : t.exec.stage.isRunning = true :=
    hg.running.trans ha
  refine ⟨hg.joinOk, ?_, ?_, ?_, ?_⟩
  · intro _
    simp only [Tracked.follow]
    split
    · exact ht.before (hrun ‹_›)
    · exact Nat.le_refl _
  · intro _ hne
    simp only [Tracked.follow] at hne
    split at hne
    · exact ht.raised (hrun ‹_›) hne
    · exact absurd rfl hne
  · intro hr
    simp only [Tracked.follow] at hr ⊢
    rw [hg.generation]
    cases hadm : t.exec.stage.isAdmitted with
    | true => exact ht.generation (hrun hadm)
    | false => exact (hg.admits hadm (isAdmitted_of_isRunning hr)).symm
  · -- the child is reaped here: what hit the execution has raised the signal
    intro hr hh
    simp only [Tracked.follow] at hr hh
    rw [if_pos hr] at hh
    have hrunning := hrun (hg.reaps hr)
    rw [hg.generation, ht.generation hrunning] at hh
    exact ht.raised hrunning (by simpa using hh)

theorem WorkInv.step {c c' : Config WorkState (ControlCall ⊕ Tracked)}
    {a : Act (UInt64 ⊕ ExecInput) (ControlCall ⊕ Tracked)} (hi : WorkInv c)
    (hs : workObject.system.step c a c') (hok : sparesExecutions c a) : WorkInv c' := by
  cases hs with
  | spawn hstart =>
    rename_i s ks k
    refine ⟨?_, hi.returned⟩
    intro t ht
    cases List.mem_cons.mp ht with
    | inl he =>
      subst he
      have hstage : t.exec.stage = .entry := by simpa [workObject, isStart] using hstart
      refine ⟨?_, ?_, ?_, ?_, ?_⟩ <;>
        simp [Execution.JoinOk, hstage, ExecStage.isRunning, ExecStage.isAdmitted,
          ExecStage.isReaped]
    | inr ht => exact hi.calls t ht
  | advance hsec =>
    rename_i s s' l r k x k'
    cases hsec with
    | control h =>
      rename_i k now control k'
      refine ⟨?_, hi.returned⟩
      intro t ht
      have hm := (mem_before_advance (.inl k) ht).resolve_left (by cases k' <;> nofun)
      refine (hi.calls t hm).control h ?_ ?_
      · rintro n rfl
        exact hok t hm
      · rintro generation rfl hlt
        exact hok hlt t hm
    | goes h =>
      rename_i t i e
      refine ⟨?_, hi.returned⟩
      intro u hu
      cases mem_before_advance (.inr t) hu with
      | inl he =>
        cases he
        exact (hi.calls t (by simp)).follow h
      | inr hu => exact hi.calls u hu
    | returns h =>
      rename_i t i res
      have ht := hi.calls t (by simp)
      refine ⟨fun u hu => hi.calls u ((mem_before_advance (.inr t) hu).resolve_left nofun), ?_⟩
      intro x hx hhit
      cases List.mem_cons.mp hx with
      | inr hx => exact hi.returned x hx hhit
      | inl hx =>
        subst hx
        cases hsucc : res.isSuccess with
        | false => rfl
        | true =>
          obtain ⟨hj, hdown⟩ := Execution.next_success ht.joinOk h hsucc
          have hreaped : t.exec.stage.isReaped = true := by rw [hj]; rfl
          have hup := ht.hit hreaped hhit
          rw [hdown] at hup
          cases hup

theorem WorkInv.reachable {c : Config WorkState (ControlCall ⊕ Tracked)}
    (h : (workObject.system.restrict sparesExecutions).Reachable c) : WorkInv c := by
  refine System.invariant (S := workObject.system.restrict sparesExecutions) (I := WorkInv)
    ?_ (fun _ _ _ hi hs => hi.step hs.1 hs.2) h
  rintro ⟨s, ks⟩ ⟨⟨_, hr⟩, hk⟩
  simp only at hr hk
  subst hk
  exact ⟨nofun, by simp [hr]⟩

/-- **No success after the authorization has ended**, in every run that spares the executions. -/
theorem no_late_success {c : Config WorkState (ControlCall ⊕ Tracked)}
    (h : (workObject.system.restrict sparesExecutions).Reachable c) :
    ∀ r ∈ c.shared.returned, r.tracked.hit = true → r.result.isSuccess = false :=
  (WorkInv.reachable h).returned

/-! ## What a step outside the condition leads to -/

/-- The execution after some of its stages, while nothing else moves. -/
def Tracked.runs (s : ControlState) : Tracked → List ExecInput → Option Tracked
  | t, [] => some t
  | t, i :: is =>
    match t.exec.next s.sup i with
    | some (.inl e) => runs s (t.follow s e) is
    | _ => none

theorem runs_steps {s : WorkState} {l r : List (ControlCall ⊕ Tracked)} (is : List ExecInput) :
    ∀ {t t' : Tracked}, t.runs s.control is = some t' →
      ReflTransGen (fun c c' => ∃ a, (workObject.system.restrict sparesExecutions).step c a c')
        ⟨s, l ++ .inr t :: r⟩ ⟨s, l ++ .inr t' :: r⟩ := by
  induction is with
  | nil =>
    intro t t' hr
    cases hr
    exact .refl
  | cons i is ih =>
    intro t t' hr
    simp only [Tracked.runs] at hr
    split at hr
    · rename_i e he
      have hstep : workObject.system.step ⟨s, l ++ .inr t :: r⟩ (.advance (.inr t) (.inr i))
          ⟨s, l ++ .inr (t.follow s.control e) :: r⟩ := by
        have h := Object.Step.advance (O := workObject) (l := l) (r := r) (.goes he)
        rwa [Option.toList_some, List.append_assoc, List.singleton_append] at h
      exact .head ⟨_, hstep, trivial⟩ (ih hr)
    · cases hr

theorem Tracked.runs_append {s : ControlState} {is js : List ExecInput} : ∀ {t t' : Tracked},
    t.runs s is = some t' → t.runs s (is ++ js) = t'.runs s js := by
  induction is with
  | nil =>
    intro t t' h
    cases h
    rfl
  | cons i is ih =>
    intro t t' h
    rw [List.cons_append]
    simp only [runs] at h ⊢
    split at h
    · exact ih h
    · cases h

/-- From its arrival to the first poll of its child. -/
def untilPoll : List ExecInput :=
  [.done, .clock 0, .done, .done, .done, .done, .request false, .done, .done, .request false, .done]

theorem Tracked.runs_cons {s : ControlState} {t t' : Tracked} {i : ExecInput} {is : List ExecInput}
    {e : Execution} (h : t.exec.next s.sup i = some (.inl e))
    (hr : (t.follow s e).runs s is = some t') : t.runs s (i :: is) = some t' := by
  rw [runs, h]
  exact hr

/-- With the signal down, a running execution can come to the poll of its child. -/
theorem Tracked.polls {s : ControlState} (hdown : s.sup.cancelled = false) {t : Tracked}
    (hrun : t.exec.stage.isRunning = true) :
    ∃ is, t.runs s is = some { t with exec := { t.exec with stage := .poll } } := by
  obtain ⟨⟨path, generation, stage⟩, raisesAtAdmission, hit⟩ := t
  have hup : ¬ s.sup.cancelled = true := by simp [hdown]
  have hspawned : runs s ⟨⟨path, generation, .spawned⟩, raisesAtAdmission, hit⟩
      (untilPoll.drop 8) = some ⟨⟨path, generation, .poll⟩, raisesAtAdmission, hit⟩ :=
    runs_cons (if_neg hup) rfl
  have hsubscribe : runs s ⟨⟨path, generation, .subscribe⟩, raisesAtAdmission, hit⟩
      (untilPoll.drop 5) = some ⟨⟨path, generation, .poll⟩, raisesAtAdmission, hit⟩ :=
    runs_cons (if_neg hup) hspawned
  have hrecheck : runs s ⟨⟨path, generation, .recheck⟩, raisesAtAdmission, hit⟩
      (untilPoll.drop 3) = some ⟨⟨path, generation, .poll⟩, raisesAtAdmission, hit⟩ :=
    runs_cons (if_neg hup) hsubscribe
  cases stage with
  | entry => cases hrun
  | lease => cases hrun
  | join status => cases hrun
  | prepare => exact ⟨untilPoll.drop 2, hrecheck⟩
  | recheck => exact ⟨_, hrecheck⟩
  | launch => exact ⟨untilPoll.drop 4, hsubscribe⟩
  | subscribe => exact ⟨_, hsubscribe⟩
  | subscribeRequest => exact ⟨untilPoll.drop 6, hspawned⟩
  | setup => exact ⟨untilPoll.drop 7, hspawned⟩
  | spawned => exact ⟨_, hspawned⟩
  | spawnedRequest => exact ⟨untilPoll.drop 9, rfl⟩
  | feed => exact ⟨untilPoll.drop 10, rfl⟩
  | poll => exact ⟨[], rfl⟩
  | select => exact ⟨[.event .tick], rfl⟩

/-- There its child may exit by itself. -/
theorem Tracked.joins {s : ControlState} (hdown : s.sup.cancelled = false) {t : Tracked}
    (hrun : t.exec.stage.isRunning = true) :
    ∃ is t', t.runs s is = some t' ∧ t'.exec.stage = .join none ∧
      t'.hit = (s.raises ≠ t.raisesAtAdmission || s.sup.lease.generation ≠ t.exec.generation) := by
  obtain ⟨is, his⟩ := Tracked.polls hdown hrun
  exact ⟨is ++ [.exited], _, (runs_append his).trans rfl, rfl, rfl⟩

/-- The execution was hit and may still succeed. -/
def Tracked.outliving (s : ControlState) (t : Tracked) : Prop :=
  (t.exec.stage.isRunning = true ∧
    (s.raises ≠ t.raisesAtAdmission ∨ s.sup.lease.generation ≠ t.exec.generation)) ∨
    (t.exec.stage.isReaped = true ∧ t.hit = true)

theorem Tracked.outliving.outlives {s : WorkState} {t : Tracked} (h : t.outliving s.control)
    (hdown : s.control.sup.cancelled = false) {l r : List (ControlCall ⊕ Tracked)} :
    ∃ c, ReflTransGen (fun c c' => ∃ a, workObject.system.step c a c') ⟨s, l ++ .inr t :: r⟩ c ∧
      ∃ r ∈ c.shared.returned, r.tracked.hit = true ∧ r.result.isSuccess = true := by
  have hjoin : ∃ is t', t.runs s.control is = some t' ∧ t'.exec.stage = .join none ∧
      t'.hit = true := by
    cases h with
    | inl h =>
      obtain ⟨is, t', hruns, hstage, hhit⟩ := Tracked.joins hdown h.1
      exact ⟨is, t', hruns, hstage, hhit.trans (by simpa using h.2)⟩
    | inr h =>
      refine ⟨[], t, rfl, ?_, h.2⟩
      have hreaped := h.1
      cases hs : t.exec.stage with
      | join status => 
        rw [hs] at hreaped
        cases status with
        | none => rfl
        | some status => cases hreaped
      | _ =>
        rw [hs] at hreaped
        cases hreaped
  obtain ⟨is, t', hruns, hstage, hhit⟩ := hjoin
  have hsteps : ReflTransGen (fun c c' => ∃ a, workObject.system.step c a c')
      ⟨s, l ++ .inr t :: r⟩ ⟨s, l ++ .inr t' :: r⟩ := by
    refine ReflTransGen.mono ?_ _ _ (runs_steps (l := l) (r := r) is hruns)
    rintro c c' ⟨a, ha⟩
    exact ⟨a, ha.1⟩
  have hends : t'.exec.next s.control.sup
      (.finish false ⟨[], false, false⟩ ⟨[], false, false⟩ (some 0) (some [])) =
      some (.inr (.answered .completed)) := by
    simp [Execution.next, hstage, hdown, conclude]
  exact ⟨_, hsteps.tail ⟨_, .advance (.returns hends)⟩, _, List.mem_cons_self, hhit, rfl⟩

theorem Tracked.outliving_of_unspared {s s' : ControlState} (he : s'.raises = s.raises)
    {t : Tracked} (h : ¬ t.spared s) : t.outliving s' := by
  cases not_and_or.mp h with
  | inl h =>
    obtain ⟨hrun, hne⟩ := Classical.not_imp.mp h
    exact .inl ⟨hrun, .inl (he ▸ hne)⟩
  | inr h =>
    obtain ⟨hreaped, hhit⟩ := Classical.not_imp.mp h
    exact .inr ⟨hreaped, by simpa using hhit⟩

/-- The condition is exact: after a step outside it, an execution that was hit can go on to a
success. -/
theorem outlived_of_unspared {c c' : Config WorkState (ControlCall ⊕ Tracked)}
    {a : Act (UInt64 ⊕ ExecInput) (ControlCall ⊕ Tracked)}
    (hreach : (workObject.system.restrict sparesExecutions).Reachable c)
    (hs : workObject.system.step c a c') (hno : ¬ sparesExecutions c a) :
    ∃ c'', ReflTransGen (fun c c' => ∃ a, workObject.system.step c a c') c' c'' ∧
      ∃ r ∈ c''.shared.returned, r.tracked.hit = true ∧ r.result.isSuccess = true := by
  have hi := WorkInv.reachable hreach
  cases hs with
  | spawn hstart => exact absurd trivial hno
  | advance hsec =>
    rename_i s s' l r k x k'
    cases hsec with
    | goes h => exact absurd trivial hno
    | returns h => exact absurd trivial hno
    | control h =>
      rename_i k now control k'
      -- the signal is down afterwards, and some execution that was hit is still there
      suffices hsuff : control.sup.cancelled = false ∧ k' = none ∧
          ∃ t, .inr t ∈ l ++ r ∧ t.outliving control by
        obtain ⟨hdown, rfl, t, hm, ht⟩ := hsuff
        obtain ⟨l', r', hlr⟩ := List.append_of_mem hm
        simp only [Option.map_none, Option.toList_none, List.append_nil, hlr]
        exact ht.outlives hdown
      have hmem {t : Tracked} (hm : .inr t ∈ l ++ .inl k :: r) : .inr t ∈ l ++ r := by
        simpa using hm
      cases k with
      | resumeSend n =>
        cases h
        simp only [sparesExecutions, not_forall] at hno
        obtain ⟨t, hm, hns⟩ := hno
        exact ⟨rfl, rfl, t, hmem hm, Tracked.outliving_of_unspared rfl hns⟩
      | activate generation =>
        simp only [sparesExecutions, not_forall] at hno
        obtain ⟨hlt, t, hm, hns⟩ := hno
        simp only [ControlState.control, Supervisor.activateGeneration_newer hlt] at h
        cases h
        refine ⟨rfl, rfl, t, hmem hm, ?_⟩
        cases not_and_or.mp hns with
        | inl hns => exact Tracked.outliving_of_unspared rfl hns
        | inr hrun =>
          have hrun : t.exec.stage.isRunning = true := by simpa using hrun
          refine .inl ⟨hrun, .inr ?_⟩
          rw [← (hi.calls t hm).generation hrun]
          exact (UInt64.ne_of_lt hlt).symm
      | _ => exact absurd trivial hno

theorem runs_reachable {s : WorkState} {r : List (ControlCall ⊕ Tracked)} {t t' : Tracked}
    (is : List ExecInput) (h : (workObject.system.restrict sparesExecutions).Reachable ⟨s, .inr t :: r⟩)
    (hr : t.runs s.control is = some t') :
    (workObject.system.restrict sparesExecutions).Reachable ⟨s, .inr t' :: r⟩ := by
  obtain ⟨s0, h0, hs⟩ := h
  exact ⟨s0, h0, hs.trans (runs_steps (l := []) is hr)⟩

/-! ## Two runs -/

def workStart : Config WorkState (ControlCall ⊕ Tracked) := ⟨⟨controlStart.shared, []⟩, []⟩

def localExecution : Tracked := ⟨⟨.execute, 1, .entry⟩, 0, false⟩

theorem polling_reachable :
    (workObject.system.restrict sparesExecutions).Reachable
      ⟨workStart.shared, [.inr ⟨⟨.execute, 1, .poll⟩, 0, false⟩]⟩ := by
  have h0 : (workObject.system.restrict sparesExecutions).Reachable workStart :=
    .start ⟨⟨controlStart_init.1, rfl⟩, rfl⟩
  have h1 := Object.spawned_ok h0 (k := .inr localExecution) rfl trivial
  exact runs_reachable untilPoll h1 rfl

/-- A revocation while the child runs: its natural exit is answered with `BindingRevoked`. -/
theorem no_late_success_revoked :
    (ExecResult.answered (conclude none true false ⟨[], false, false⟩ ⟨[], false, false⟩ (some 0)
      (some [])).status).isSuccess = false := by
  have h1 := Object.spawned_ok polling_reachable (k := .inl .revoke) rfl trivial
  have h2 := Object.advanced_ok h1 (.inl 0) (.control rfl) trivial
  have h3 := Object.advanced_ok h2 (.inl 0) (.control rfl) trivial
  have h4 := Object.advanced_ok h3 (.inl 0) (.control rfl) trivial
  have h5 := Object.advanced_ok h4 (.inl 0) (.control rfl) trivial
  have h6 := Object.advanced_ok h5 (.inr .exited) (.goes rfl) trivial
  have h7 := Object.advanced_ok h6
    (.inr (.finish false ⟨[], false, false⟩ ⟨[], false, false⟩ (some 0) (some [])))
    (.returns rfl) trivial
  exact no_late_success h7 _ (List.mem_singleton.mpr rfl) rfl

/-- A newer generation is activated while the child runs. The signal stays down, and the old
generation's execution completes. -/
theorem activation_outlived :
    ∃ c, workObject.system.Reachable c ∧
      ∃ r ∈ c.shared.returned, r.tracked.hit = true ∧ r.result = .answered .completed := by
  have h1 := Object.spawned polling_reachable.of_restrict (k := .inl (.activate 2)) rfl
  have h2 := Object.advanced h1 (.inl 0) (.control rfl)
  have h3 := Object.advanced h2 (.inr .exited) (.goes rfl)
  have h4 := Object.advanced h3
    (.inr (.finish false ⟨[], false, false⟩ ⟨[], false, false⟩ (some 0) (some []))) (.returns rfl)
  exact ⟨_, h4, _, List.mem_singleton.mpr rfl, rfl, rfl⟩

end Bridge
end EgoBridge
