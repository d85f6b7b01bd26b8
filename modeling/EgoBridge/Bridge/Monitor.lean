import EgoBridge.Protocol.Types

/-!
# Bridge.Monitor

The Task Space monitor: the script that polls who owns the Task Space, and the loop that waits for
the script's exit code.

* `watch_iff`     — the script exits at the first observation that is a takeover or an anomaly.
* `watch_idle`    — the observations that leave it as it is.
* `monitor_exact` — both, for every list of observations.
* `takenOver_iff` — what the loop reports of them, if it is not stopped.
-/

namespace EgoBridge
namespace Bridge
namespace Monitor

open Protocol

def TASK_SPACE_MONITOR_TAKEOVER_EXIT_CODE : Int32 := 73

/-- The code the script exits with on what it does not expect. -/
def ANOMALY_EXIT_CODE : Int32 := 74

/-- A listed Task Space. A property that is no string is absent. -/
structure TaskSpace where
  name : Option String
  taskId : Option String
  ownership : Option String
  deriving DecidableEq

/-- One answer of `listTaskSpaces`. An entry may be `null`. -/
abbrev Observation := List (Option TaskSpace)

inductive Polled where
  | exit (code : Int32)
  | again (agentControlObserved : Bool)
  deriving DecidableEq

section

variable (taskSpace : String)

/-- `spaces.filter`. -/
def matching (o : Observation) : List TaskSpace :=
  o.reduceOption.filter fun space => space.name = some taskSpace || space.taskId = some taskSpace

def poll (agentControlObserved : Bool) (o : Observation) : Polled :=
  match matching taskSpace o with
  | [] => .again agentControlObserved
  | [space] =>
    if space.ownership = some "agent" then .again true
    else if agentControlObserved ∧
        (space.ownership = some "agentDelegatedToUser" ∨ space.ownership = some "user") then
      .exit TASK_SPACE_MONITOR_TAKEOVER_EXIT_CODE
    else if space.ownership ≠ some "agentDelegatedToUser" ∧ space.ownership ≠ some "user" then
      .exit ANOMALY_EXIT_CODE
    else .again agentControlObserved
  | _ :: _ :: _ => .exit ANOMALY_EXIT_CODE

/-- The script over the answers it gets: the number of the answer it exits at and its code, or
whether it has observed the agent in control. -/
def watch (agentControlObserved : Bool) : List Observation → Bool ⊕ (Nat × Int32)
  | [] => .inl agentControlObserved
  | o :: rest =>
    match poll taskSpace agentControlObserved o with
    | .exit code => .inr (0, code)
    | .again agentControlObserved =>
      (watch agentControlObserved rest).map id fun (i, code) => (i + 1, code)

/-- `task_space_monitor_script`, over the answers it gets. -/
def taskSpaceMonitorScript (observations : List Observation) :
    Option (Bool ⊕ (Nat × Int32)) :=
  if ¬ isDedicatedTaskSpace taskSpace then none else some (watch taskSpace false observations)

/-! ## Observations -/

def Missing (o : Observation) : Prop := matching taskSpace o = []

def AgentOwned (o : Observation) : Prop :=
  ∃ space, matching taskSpace o = [space] ∧ space.ownership = some "agent"

def UserOwned (o : Observation) : Prop :=
  ∃ space, matching taskSpace o = [space] ∧
    (space.ownership = some "user" ∨ space.ownership = some "agentDelegatedToUser")

def Anomalous (o : Observation) : Prop :=
  1 < (matching taskSpace o).length ∨ ∃ space, matching taskSpace o = [space] ∧
    space.ownership ≠ some "agent" ∧ space.ownership ≠ some "user" ∧
    space.ownership ≠ some "agentDelegatedToUser"

/-- The user's, when the agent's before. -/
def Takeover (observations : List Observation) (i : Nat) : Prop :=
  (∃ o, observations[i]? = some o ∧ UserOwned taskSpace o) ∧
    ∃ j o, j < i ∧ observations[j]? = some o ∧ AgentOwned taskSpace o

/-- The same for a script that may have observed the agent in control already. -/
def TakeoverFrom (agentControlObserved : Bool) (observations : List Observation) (i : Nat) : Prop :=
  (∃ o, observations[i]? = some o ∧ UserOwned taskSpace o) ∧
    (agentControlObserved = true ∨
      ∃ j o, j < i ∧ observations[j]? = some o ∧ AgentOwned taskSpace o)

def AnomalyAt (observations : List Observation) (i : Nat) : Prop :=
  ∃ o, observations[i]? = some o ∧ Anomalous taskSpace o

/-- An observation to stop at, and how. -/
def StopsFrom (agentControlObserved : Bool) (observations : List Observation) (i : Nat)
    (code : Int32) : Prop :=
  code = TASK_SPACE_MONITOR_TAKEOVER_EXIT_CODE ∧
      TakeoverFrom taskSpace agentControlObserved observations i ∨
    code = ANOMALY_EXIT_CODE ∧ AnomalyAt taskSpace observations i

/-! ## One observation -/

theorem poll_missing {o : Observation} (h : Missing taskSpace o) (armed : Bool) :
    poll taskSpace armed o = .again armed := by
  rw [Missing] at h
  rw [poll, h]

theorem poll_agentOwned {o : Observation} (h : AgentOwned taskSpace o) (armed : Bool) :
    poll taskSpace armed o = .again true := by
  obtain ⟨space, hm, ho⟩ := h
  simp only [poll, hm, ho, if_true]

theorem poll_userOwned {o : Observation} (h : UserOwned taskSpace o) (armed : Bool) :
    poll taskSpace armed o =
      if armed then .exit TASK_SPACE_MONITOR_TAKEOVER_EXIT_CODE else .again armed := by
  obtain ⟨space, hm, ho | ho⟩ := h
  · cases armed <;> simp [poll, hm, ho]
  · cases armed <;> simp [poll, hm, ho]

theorem poll_anomalous {o : Observation} (h : Anomalous taskSpace o) (armed : Bool) :
    poll taskSpace armed o = .exit ANOMALY_EXIT_CODE := by
  rcases h with h | ⟨space, hm, hagent, huser, hdelegated⟩
  · rw [poll]
    split
    · rename_i hm
      rw [hm] at h
      simp at h
    · rename_i hm
      rw [hm] at h
      simp at h
    · rfl
  · simp [poll, hm, hagent, huser, hdelegated]

theorem observation_cases (o : Observation) : Missing taskSpace o ∨ AgentOwned taskSpace o ∨
    UserOwned taskSpace o ∨ Anomalous taskSpace o := by
  unfold Missing AgentOwned UserOwned Anomalous
  cases matching taskSpace o with
  | nil => exact .inl rfl
  | cons space rest =>
    cases rest with
    | cons other rest => exact .inr (.inr (.inr (.inl (by simp))))
    | nil =>
      by_cases hagent : space.ownership = some "agent"
      · exact .inr (.inl ⟨space, rfl, hagent⟩)
      · by_cases huser : space.ownership = some "user" ∨
            space.ownership = some "agentDelegatedToUser"
        · exact .inr (.inr (.inl ⟨space, rfl, huser⟩))
        · rw [not_or] at huser
          exact .inr (.inr (.inr (.inr ⟨space, rfl, hagent, huser.1, huser.2⟩)))

theorem poll_exit_iff {armed : Bool} {o : Observation} {code : Int32} :
    poll taskSpace armed o = .exit code ↔
      code = TASK_SPACE_MONITOR_TAKEOVER_EXIT_CODE ∧ UserOwned taskSpace o ∧ armed = true ∨
        code = ANOMALY_EXIT_CODE ∧ Anomalous taskSpace o := by
  constructor
  · intro h
    rcases observation_cases taskSpace o with ho | ho | ho | ho
    · rw [poll_missing taskSpace ho] at h
      cases h
    · rw [poll_agentOwned taskSpace ho] at h
      cases h
    · rw [poll_userOwned taskSpace ho] at h
      cases armed with
      | false => simp at h
      | true =>
        simp only [if_true, Polled.exit.injEq] at h
        exact .inl ⟨h.symm, ho, rfl⟩
    · rw [poll_anomalous taskSpace ho, Polled.exit.injEq] at h
      exact .inr ⟨h.symm, ho⟩
  · rintro (⟨rfl, ho, rfl⟩ | ⟨rfl, ho⟩)
    · rw [poll_userOwned taskSpace ho, if_pos rfl]
    · exact poll_anomalous taskSpace ho armed

/-- A round that goes on is armed by the agent's control only, and never disarmed. -/
theorem poll_again {armed armed' : Bool} {o : Observation}
    (h : poll taskSpace armed o = .again armed') :
    armed' = true ↔ armed = true ∨ AgentOwned taskSpace o := by
  have hnone : poll taskSpace false o = .again false → ¬ AgentOwned taskSpace o := by
    intro hf ho
    rw [poll_agentOwned taskSpace ho] at hf
    cases hf
  rcases observation_cases taskSpace o with ho | ho | ho | ho
  · have hagent := hnone (poll_missing taskSpace ho false)
    rw [poll_missing taskSpace ho, Polled.again.injEq] at h
    simp [h, hagent]
  · rw [poll_agentOwned taskSpace ho, Polled.again.injEq] at h
    simp [← h, ho]
  · have hagent := hnone (by rw [poll_userOwned taskSpace ho]; rfl)
    rw [poll_userOwned taskSpace ho] at h
    cases armed with
    | false =>
      simp only [Bool.false_eq_true, if_false, Polled.again.injEq] at h
      simp [← h, hagent]
    | true => simp at h
  · rw [poll_anomalous taskSpace ho] at h
    cases h

/-! ## The script -/

theorem stopsFrom_zero {armed : Bool} {o : Observation} {rest : List Observation} {code : Int32} :
    StopsFrom taskSpace armed (o :: rest) 0 code ↔ poll taskSpace armed o = .exit code := by
  rw [poll_exit_iff]
  simp [StopsFrom, TakeoverFrom, AnomalyAt]

theorem stopsFrom_succ {armed armed' : Bool} {o : Observation} {rest : List Observation} {i : Nat}
    {code : Int32} (h : poll taskSpace armed o = .again armed') :
    StopsFrom taskSpace armed (o :: rest) (i + 1) code ↔
      StopsFrom taskSpace armed' rest i code := by
  have hearlier : (∃ j o', j < i + 1 ∧ (o :: rest)[j]? = some o' ∧ AgentOwned taskSpace o') ↔
      AgentOwned taskSpace o ∨ ∃ j o', j < i ∧ rest[j]? = some o' ∧ AgentOwned taskSpace o' := by
    constructor
    · rintro ⟨j, o', hj, ho', hagent⟩
      cases j with
      | zero =>
        rw [List.getElem?_cons_zero, Option.some.injEq] at ho'
        exact .inl (ho' ▸ hagent)
      | succ j => exact .inr ⟨j, o', Nat.lt_of_succ_lt_succ hj, ho', hagent⟩
    · rintro (hagent | ⟨j, o', hj, ho', hagent⟩)
      · exact ⟨0, o, Nat.succ_pos i, rfl, hagent⟩
      · exact ⟨j + 1, o', Nat.succ_lt_succ hj, ho', hagent⟩
  simp only [StopsFrom, TakeoverFrom, AnomalyAt, List.getElem?_cons_succ, hearlier,
    poll_again taskSpace h, or_assoc]

/-- The script exits where it first has to. -/
theorem watch_iff {armed : Bool} {observations : List Observation} {i : Nat} {code : Int32} :
    watch taskSpace armed observations = .inr (i, code) ↔
      StopsFrom taskSpace armed observations i code ∧
        ∀ j < i, ∀ c, ¬ StopsFrom taskSpace armed observations j c := by
  induction observations generalizing armed i with
  | nil => simp [watch, StopsFrom, TakeoverFrom, AnomalyAt]
  | cons o rest ih =>
    rw [watch]
    cases hp : poll taskSpace armed o with
    | exit c =>
      have h0 : StopsFrom taskSpace armed (o :: rest) 0 c := (stopsFrom_zero taskSpace).mpr hp
      cases i with
      | zero =>
        rw [stopsFrom_zero, hp]
        simp
      | succ i =>
        constructor
        · intro h
          simp at h
        · intro h
          exact absurd h0 (h.2 0 (Nat.succ_pos i) c)
    | again armed' =>
      cases i with
      | zero =>
        rw [stopsFrom_zero, hp]
        cases hw : watch taskSpace armed' rest <;> simp [hw]
      | succ i =>
        have hmap : (watch taskSpace armed' rest).map id (fun (i, code) => (i + 1, code)) =
            .inr (i + 1, code) ↔ watch taskSpace armed' rest = .inr (i, code) := by
          cases watch taskSpace armed' rest with
          | inl armed => simp
          | inr x => simp [Prod.ext_iff]
        rw [hmap, ih, stopsFrom_succ taskSpace hp]
        refine and_congr_right fun _ => ?_
        constructor
        · intro h j hj c
          cases j with
          | zero =>
            rw [stopsFrom_zero, hp]
            simp
          | succ j =>
            rw [stopsFrom_succ taskSpace hp]
            exact h j (Nat.lt_of_succ_lt_succ hj) c
        · intro h j hj c
          have := h (j + 1) (Nat.succ_lt_succ hj) c
          rwa [stopsFrom_succ taskSpace hp] at this

theorem watch_append (armed : Bool) (before after : List Observation) :
    watch taskSpace armed (before ++ after) =
      match watch taskSpace armed before with
      | .inl armed' => (watch taskSpace armed' after).map id
          fun (i, code) => (i + before.length, code)
      | .inr x => .inr x := by
  induction before generalizing armed with
  | nil =>
    rw [List.nil_append]
    cases hw : watch taskSpace armed after <;> simp [watch, hw]
  | cons o before ih =>
    rw [List.cons_append, watch, watch]
    cases hp : poll taskSpace armed o with
    | exit code => rfl
    | again armed' =>
      dsimp only
      rw [ih]
      cases hb : watch taskSpace armed' before with
      | inr x => rfl
      | inl armed'' =>
        cases ha : watch taskSpace armed'' after with
        | inl _ => simp [ha]
        | inr x => simp [ha, Nat.add_assoc]

/-- A script that goes on is armed if and only if it has observed the agent in control. -/
theorem watch_armed {armed armed' : Bool} {observations : List Observation}
    (h : watch taskSpace armed observations = .inl armed') :
    armed' = true ↔ armed = true ∨ ∃ o ∈ observations, AgentOwned taskSpace o := by
  induction observations generalizing armed with
  | nil =>
    rw [watch, Sum.inl.injEq] at h
    simp [h]
  | cons o rest ih =>
    rw [watch] at h
    cases hp : poll taskSpace armed o with
    | exit code =>
      rw [hp] at h
      cases h
    | again next =>
      rw [hp] at h
      dsimp only at h
      cases hw : watch taskSpace next rest with
      | inr x =>
        rw [hw] at h
        cases h
      | inl last =>
        rw [hw] at h
        simp only [Sum.map_inl, id_eq, Sum.inl.injEq] at h
        subst h
        rw [ih hw, poll_again taskSpace hp]
        simp only [List.mem_cons, exists_eq_or_imp, or_assoc]

/-- An observation that neither stops the script nor disarms it. -/
theorem watch_idle {seen : List Observation} {o : Observation}
    (h : Missing taskSpace o ∨
      UserOwned taskSpace o ∧ ∀ o' ∈ seen, ¬ AgentOwned taskSpace o') :
    watch taskSpace false (seen ++ [o]) = watch taskSpace false seen := by
  rw [watch_append]
  cases hw : watch taskSpace false seen with
  | inr x => rfl
  | inl armed =>
    have hpoll : poll taskSpace armed o = .again armed := by
      rcases h with h | ⟨h, hseen⟩
      · exact poll_missing taskSpace h armed
      · have harmed : armed = false := by
          rw [← Bool.not_eq_true, watch_armed taskSpace hw]
          rintro (hf | ⟨o', ho', hagent⟩)
          · cases hf
          · exact hseen o' ho' hagent
        rw [poll_userOwned taskSpace h, harmed]
        rfl
    simp [watch, hpoll]

theorem stopsFrom_false {observations : List Observation} {i : Nat} :
    (∀ c, ¬ StopsFrom taskSpace false observations i c) ↔
      ¬ Takeover taskSpace observations i ∧ ¬ AnomalyAt taskSpace observations i := by
  simp only [StopsFrom, TakeoverFrom, Takeover, Bool.false_eq_true, false_or]
  constructor
  · intro h
    exact ⟨fun ht => h _ (.inl ⟨rfl, ht⟩), fun ha => h _ (.inr ⟨rfl, ha⟩)⟩
  · rintro ⟨ht, ha⟩ c (⟨-, h⟩ | ⟨-, h⟩)
    · exact ht h
    · exact ha h

theorem watch_takeover {observations : List Observation} {i : Nat} :
    watch taskSpace false observations = .inr (i, TASK_SPACE_MONITOR_TAKEOVER_EXIT_CODE) ↔
      Takeover taskSpace observations i ∧
        ∀ j < i, ¬ Takeover taskSpace observations j ∧ ¬ AnomalyAt taskSpace observations j := by
  have hne : TASK_SPACE_MONITOR_TAKEOVER_EXIT_CODE ≠ ANOMALY_EXIT_CODE := by decide
  rw [watch_iff]
  simp only [stopsFrom_false]
  refine and_congr_left fun _ => ?_
  simp [StopsFrom, TakeoverFrom, Takeover, hne]

theorem watch_anomaly {observations : List Observation} {i : Nat} :
    watch taskSpace false observations = .inr (i, ANOMALY_EXIT_CODE) ↔
      AnomalyAt taskSpace observations i ∧
        ∀ j < i, ¬ Takeover taskSpace observations j ∧ ¬ AnomalyAt taskSpace observations j := by
  have hne : ANOMALY_EXIT_CODE ≠ TASK_SPACE_MONITOR_TAKEOVER_EXIT_CODE := by decide
  rw [watch_iff]
  simp only [stopsFrom_false]
  refine and_congr_left fun _ => ?_
  simp [StopsFrom, hne]

/-- The script exits at the first takeover or anomaly with the code of it, and is neither stopped
nor disarmed by an observation without the Task Space, or of the user before the agent. -/
theorem monitor_exact (observations : List Observation) :
    (∀ i, watch taskSpace false observations =
        .inr (i, TASK_SPACE_MONITOR_TAKEOVER_EXIT_CODE) ↔
      Takeover taskSpace observations i ∧
        ∀ j < i, ¬ Takeover taskSpace observations j ∧ ¬ AnomalyAt taskSpace observations j) ∧
    (∀ i, watch taskSpace false observations = .inr (i, ANOMALY_EXIT_CODE) ↔
      AnomalyAt taskSpace observations i ∧
        ∀ j < i, ¬ Takeover taskSpace observations j ∧ ¬ AnomalyAt taskSpace observations j) ∧
    (∀ i code, watch taskSpace false observations = .inr (i, code) →
      code = TASK_SPACE_MONITOR_TAKEOVER_EXIT_CODE ∨ code = ANOMALY_EXIT_CODE) ∧
    ∀ seen o, Missing taskSpace o ∨
        UserOwned taskSpace o ∧ (∀ o' ∈ seen, ¬ AgentOwned taskSpace o') →
      watch taskSpace false (seen ++ [o]) = watch taskSpace false seen := by
  refine ⟨fun i => watch_takeover taskSpace, fun i => watch_anomaly taskSpace, ?_,
    fun seen o h => watch_idle taskSpace h⟩
  intro i code h
  rcases ((watch_iff taskSpace).mp h).1 with h | h
  · exact .inl h.1
  · exact .inr h.1

end

/-! ## The loop -/

inductive TaskSpaceMonitorOutcome where
  | stopped
  | takenOver
  | unavailable
  deriving DecidableEq, Repr

inductive LoopEvent where
  /-- The script's process has ended, with a code if it was not by a signal. -/
  | exited (code : Option Int32)
  | stopChanged (gone up : Bool)
  deriving DecidableEq

/-- The loop of `run_task_space_monitor`. -/
def runTaskSpaceMonitor : List LoopEvent → Option TaskSpaceMonitorOutcome
  | [] => none
  | .exited code :: _ =>
    some (if code = some TASK_SPACE_MONITOR_TAKEOVER_EXIT_CODE then .takenOver else .unavailable)
  | .stopChanged gone up :: rest =>
    if gone || up then some .stopped else runTaskSpaceMonitor rest

/-- The loop is stopped, or reads the end of the process. -/
theorem loop_outcome {events : List LoopEvent} {outcome : TaskSpaceMonitorOutcome}
    (h : runTaskSpaceMonitor events = some outcome) : outcome = .stopped ∨
      ∃ code, .exited code ∈ events ∧
        (outcome = .takenOver ↔ code = some TASK_SPACE_MONITOR_TAKEOVER_EXIT_CODE) := by
  induction events with
  | nil => cases h
  | cons e events ih =>
    cases e with
    | exited code =>
      refine .inr ⟨code, List.mem_cons_self, ?_⟩
      rw [runTaskSpaceMonitor, Option.some.injEq] at h
      rw [← h]
      by_cases hc : code = some TASK_SPACE_MONITOR_TAKEOVER_EXIT_CODE
      · simp [hc]
      · simp [hc]
    | stopChanged gone up =>
      rw [runTaskSpaceMonitor] at h
      by_cases hs : (gone || up) = true
      · rw [if_pos hs] at h
        cases h
        exact .inl rfl
      · rw [if_neg hs] at h
        rcases ih h with hstopped | ⟨code, hmem, hcode⟩
        · exact .inl hstopped
        · exact .inr ⟨code, List.mem_cons_of_mem _ hmem, hcode⟩

/-! ## The script and the loop together -/

/-- How the process of a script ends: with the code it exits with; or, while the script goes on,
from outside or in an error, with any but the takeover's. -/
def Ends : Bool ⊕ (Nat × Int32) → Option Int32 → Prop
  | .inr (_, own), code => code = some own
  | .inl _, code => code ≠ some TASK_SPACE_MONITOR_TAKEOVER_EXIT_CODE

/-- `run_task_space_monitor`, where the process can be started: the script gets `observations`, the
loop `events`. -/
inductive Monitors (taskSpace : String) (observations : List Observation)
    (events : List LoopEvent) : TaskSpaceMonitorOutcome → Prop where
  | refused : taskSpaceMonitorScript taskSpace observations = none →
      Monitors taskSpace observations events .unavailable
  | ended {script outcome} : taskSpaceMonitorScript taskSpace observations = some script →
      (∀ code, .exited code ∈ events → Ends script code) →
      runTaskSpaceMonitor events = some outcome → Monitors taskSpace observations events outcome

/-- An observation is a takeover, and none before it is one or an anomaly. -/
def TakenOverFirst (taskSpace : String) (observations : List Observation) : Prop :=
  ∃ i, Takeover taskSpace observations i ∧
    ∀ j < i, ¬ Takeover taskSpace observations j ∧ ¬ AnomalyAt taskSpace observations j

theorem watch_takenOver {taskSpace : String} {observations : List Observation} :
    (∃ i, watch taskSpace false observations = .inr (i, TASK_SPACE_MONITOR_TAKEOVER_EXIT_CODE)) ↔
      TakenOverFirst taskSpace observations :=
  exists_congr fun _ => watch_takeover taskSpace

theorem ends_takenOver {taskSpace : String} {observations : List Observation} {code : Option Int32}
    (h : Ends (watch taskSpace false observations) code) :
    code = some TASK_SPACE_MONITOR_TAKEOVER_EXIT_CODE ↔ TakenOverFirst taskSpace observations := by
  rw [← watch_takenOver]
  cases hw : watch taskSpace false observations with
  | inl armed =>
    rw [hw] at h
    simp [show code ≠ some TASK_SPACE_MONITOR_TAKEOVER_EXIT_CODE from h]
  | inr x =>
    rw [hw] at h
    obtain ⟨i, own⟩ := x
    simp [show code = some own from h]

/-- A monitor that is not stopped reports a takeover exactly if its script has seen one first. -/
theorem takenOver_iff {taskSpace : String} {observations : List Observation}
    {events : List LoopEvent} {outcome : TaskSpaceMonitorOutcome}
    (h : Monitors taskSpace observations events outcome) (hs : outcome ≠ .stopped) :
    outcome = .takenOver ↔
      isDedicatedTaskSpace taskSpace = true ∧ TakenOverFirst taskSpace observations := by
  cases h with
  | refused hnone =>
    have hname : ¬ isDedicatedTaskSpace taskSpace = true := by
      intro hd
      simp [taskSpaceMonitorScript, hd] at hnone
    simp [hname]
  | ended hscript hends hloop =>
    obtain ⟨hname, rfl⟩ : isDedicatedTaskSpace taskSpace = true ∧
        watch taskSpace false observations = _ := by
      simpa [taskSpaceMonitorScript] using hscript
    rcases loop_outcome hloop with hstopped | ⟨code, hmem, hcode⟩
    · exact absurd hstopped hs
    · rw [hcode, ends_takenOver (hends code hmem)]
      simp [hname]

end Monitor
end Bridge
end EgoBridge
