import EgoBridge.Bridge.Registry
import EgoBridge.Bridge.StateStore

/-!
# Bridge.AtMostOnce

Relay requests over any number of processes that share one ledger.

A process runs any calls, interleaved at their locks, and ends at any point. A crash of the machine
may also take back a rename that was not durable. Persisting holds the lock of the highest number,
so it is one section of a call here; a crash in the middle of it is a crash after one that failed
at that point.

* `section_cases`       — what a section does to the highest number and to the ledger.
* `LedgerInv`           — a number is used once, and every ledger a crash leaves is above it.
* `remote_at_most_once` — no number is admitted twice, in any run.
-/

namespace EgoBridge
namespace Bridge

open Protocol Run

structure LedgerWorld where
  process : Option (Config RegistryState RegistryCall)
  disk : LedgerDisk
  /-- What happened in earlier processes, latest first. -/
  past : List RegistryEvent

def LedgerWorld.events (w : LedgerWorld) : List RegistryEvent :=
  match w.process with
  | none => w.past
  | some cfg => cfg.shared.log ++ w.past

/-- The disk after a section of a call, and what persisting the number returns to it. -/
def sectionDisk (s : RegistryState) (d : LedgerDisk) (io : PersistIo) :
    RegistryCall → LedgerDisk × Except BridgeError Unit
  | .prepareReserve e _ =>
    if e.sequence ≤ s.sup.highestRemoteSequence then (d, .ok ())
    else persistRemoteSequence d e.sequence io
  | _ => (d, .ok ())

inductive LedgerAct where
  | start (config : BridgeConfig) (now : UInt64) (io : LoadIo)
  | spawn (k : RegistryCall)
  | advance (k : RegistryCall) (i : RegistryInput) (io : PersistIo)
  /-- The process ends, with all its calls, -/
  | stop
  /-- or the machine does, and leaves this ledger. -/
  | crash (content : Option Bytes)

inductive LedgerStep (c : Primitives) : LedgerWorld → LedgerAct → LedgerWorld → Prop
  | start {d : LedgerDisk} {past : List RegistryEvent} {config : BridgeConfig}
      {now highest : UInt64} {io : LoadIo} {sup : Supervisor} :
      loadRemoteSequence d.visible io = .ok highest → Supervisor.new config highest now = .ok sup →
      LedgerStep c ⟨none, d, past⟩ (.start config now io) ⟨some ⟨⟨sup, ∅, [], []⟩, []⟩, d, past⟩
  | spawn {s : RegistryState} {ks : List RegistryCall} {d : LedgerDisk} {past : List RegistryEvent}
      {k : RegistryCall} :
      k.isStart = true →
      LedgerStep c ⟨some ⟨s, ks⟩, d, past⟩ (.spawn k) ⟨some ⟨s, k :: ks⟩, d, past⟩
  | advance {s s' : RegistryState} {l r : List RegistryCall} {k : RegistryCall}
      {k' : Option RegistryCall} {d : LedgerDisk} {past : List RegistryEvent} {i : RegistryInput}
      {io : PersistIo} :
      s.run c { i with persisted := (sectionDisk s d io k).2 } k = (s', k') →
      LedgerStep c ⟨some ⟨s, l ++ k :: r⟩, d, past⟩ (.advance k i io)
        ⟨some ⟨s', l ++ k'.toList ++ r⟩, (sectionDisk s d io k).1, past⟩
  | stop {cfg : Config RegistryState RegistryCall} {d : LedgerDisk} {past : List RegistryEvent} :
      LedgerStep c ⟨some cfg, d, past⟩ .stop ⟨none, d, cfg.shared.log ++ past⟩
  | crash {w : LedgerWorld} {content : Option Bytes} :
      content ∈ w.disk.survivors →
      LedgerStep c w (.crash content) ⟨none, ⟨content, []⟩, w.events⟩

/-- A run begins without a process, on any ledger that can be loaded. -/
def ledgerRuns (c : Primitives) : System LedgerAct LedgerWorld where
  init := fun w => w.process = none ∧ w.past = [] ∧ w.disk.older = [] ∧
    ∃ n, Holds w.disk.visible n
  step := LedgerStep c

/-! ## What a section does to the ledger -/

theorem RegistryState.run_highest {c : Primitives} {s s' : RegistryState} {i : RegistryInput}
    {k : RegistryCall} {k' : Option RegistryCall} (h : s.run c i k = (s', k'))
    (hk : ∀ e secret, k ≠ .prepareReserve e secret) :
    s'.sup.highestRemoteSequence = s.sup.highestRemoteSequence := by
  cases k with
  | prepareReserve e secret => exact (hk e secret rfl).elim
  | prepareAcquire e key request =>
    obtain ⟨scheduler, ha⟩ := s.sup.acquireRemote_fst e request
    simp only [run, refuse] at h
    split at h
    · split at h <;> cases h <;> rfl
    · rename_i sup guard hg
      rw [hg] at ha
      cases ha
      cases h
      rfl
  | prepareOpen e secret =>
    simp only [run, refuse] at h
    split at h
    · cases h
      rfl
    · split at h <;> cases h <;> rfl
    · cases h
      rfl
  | prepareRecheck e key guard =>
    simp only [run, refuse] at h
    split at h
    · split at h <;> cases h <;> rfl
    · cases h
      rfl
  | prepareRegister e key guard =>
    simp only [run] at h
    split at h <;> cases h <;> rfl
  | cancelLookup e =>
    simp only [run] at h
    split at h
    · cases h
      rfl
    · split at h <;> cases h <;> rfl
  | prepare e secret =>
    simp only [run] at h
    split at h <;> cases h <;> rfl
  | prepareLease e secret =>
    simp only [run] at h
    split at h <;> cases h <;> rfl
  | cancel e =>
    simp only [run] at h
    split at h <;> cases h <;> rfl
  | cancelLease e =>
    simp only [run] at h
    split at h <;> cases h <;> rfl
  | cancelSend e channel =>
    cases h
    rfl
  | finish response =>
    cases h
    rfl
  | clear =>
    cases h
    rfl
  | other =>
    cases h
    rfl

/-- A section leaves the highest number and the ledger, or fails to raise them, or raises both. -/
theorem section_cases {c : Primitives} {s s' : RegistryState} {i : RegistryInput}
    {k : RegistryCall} {k' : Option RegistryCall} {d : LedgerDisk} {io : PersistIo}
    (h : s.run c { i with persisted := (sectionDisk s d io k).2 } k = (s', k')) :
    (s'.sup.highestRemoteSequence = s.sup.highestRemoteSequence ∧
      ((sectionDisk s d io k).1 = d ∨
        ∃ q, s.sup.highestRemoteSequence < q ∧
          (sectionDisk s d io k).1 = d.renamed (ledgerBytes q))) ∨
    (∃ q, s.sup.highestRemoteSequence < q ∧ s'.sup.highestRemoteSequence = q ∧
      (sectionDisk s d io k).1 = ⟨some (ledgerBytes q), []⟩) := by
  by_cases hk : ∃ e secret, k = .prepareReserve e secret
  · obtain ⟨e, secret, rfl⟩ := hk
    simp only [RegistryState.run, Supervisor.reserveRemoteSequence] at h
    by_cases hle : e.sequence ≤ s.sup.highestRemoteSequence
    · rw [if_pos hle] at h
      cases h
      refine .inl ⟨rfl, .inl ?_⟩
      rw [sectionDisk, if_pos hle]
    · have hd : sectionDisk s d io (.prepareReserve e secret) =
          persistRemoteSequence d e.sequence io := if_neg hle
      rw [hd] at h ⊢
      rw [if_neg hle] at h
      rcases persistRemoteSequence_cases e.sequence io with ⟨x, hp⟩ | ⟨x, hp⟩ | hp
      · rw [hp d] at h ⊢
        cases h
        exact .inl ⟨rfl, .inl rfl⟩
      · rw [hp d] at h ⊢
        cases h
        exact .inl ⟨rfl, .inr ⟨_, UInt64.not_le.mp hle, rfl⟩⟩
      · rw [hp d] at h ⊢
        cases h
        exact .inr ⟨_, UInt64.not_le.mp hle, rfl, rfl⟩
  · have hk' : ∀ e secret, k ≠ .prepareReserve e secret := fun e secret he => hk ⟨e, secret, he⟩
    refine .inl ⟨RegistryState.run_highest h hk', .inl ?_⟩
    cases k with
    | prepareReserve e secret => exact (hk' e secret rfl).elim
    | _ => rfl

/-! ## Uses of a number -/

def pastCount (past : List RegistryEvent) (q : UInt64) : Nat :=
  ((answeredKeys past).map RemoteRequestKey.sequence).count q

namespace LedgerWorld

/-- The calls that have reserved the number `q`, and the answers with it in any process. -/
def count (w : LedgerWorld) (q : UInt64) : Nat :=
  match w.process with
  | none => pastCount w.past q
  | some cfg => numberCount cfg q + pastCount w.past q

def admitted (w : LedgerWorld) : List UInt64 :=
  w.events.filterMap fun x =>
    match x with
    | .admitted key _ => some key.sequence
    | _ => none

end LedgerWorld

theorem pastCount_append (log past : List RegistryEvent) (q : UInt64) :
    pastCount (log ++ past) q = pastCount log q + pastCount past q := by
  rw [pastCount, answeredKeys, List.filterMap_append, List.map_append, List.count_append]
  rfl

theorem pastCount_le_numberCount (cfg : Config RegistryState RegistryCall) (q : UInt64) :
    pastCount cfg.shared.log q ≤ numberCount cfg q :=
  Nat.le_add_left _ _

/-- Whatever calls are lost with a process, the answers stay. -/
theorem LedgerWorld.events_count (w : LedgerWorld) (q : UInt64) :
    pastCount w.events q ≤ w.count q := by
  obtain ⟨process, disk, past⟩ := w
  cases process with
  | none => exact Nat.le_refl _
  | some cfg =>
    show pastCount (cfg.shared.log ++ past) q ≤ numberCount cfg q + pastCount past q
    rw [pastCount_append]
    exact Nat.add_le_add_right (pastCount_le_numberCount cfg q) _

theorem admitted_sublist (log : List RegistryEvent) :
    (log.filterMap fun x =>
      match x with
      | .admitted key _ => some key.sequence
      | _ => none).Sublist ((answeredKeys log).map RemoteRequestKey.sequence) := by
  induction log with
  | nil => exact .slnil
  | cons x log ih =>
    cases x with
    | admitted key request => exact ih.cons_cons _
    | refused key => exact ih.cons _
    | raised e => exact ih
    | finished key => exact ih
    | cleared => exact ih

/-- An admission is a use of its number. -/
theorem LedgerWorld.count_admitted (w : LedgerWorld) (q : UInt64) :
    w.admitted.count q ≤ w.count q :=
  Nat.le_trans ((admitted_sublist w.events).count_le q) (w.events_count q)

/-! ## The invariant -/

structure LedgerInv (w : LedgerWorld) : Prop where
  once : ∀ q, w.count q ≤ 1
  /-- Every ledger a crash may leave is above every number used, -/
  ledger : ∀ content ∈ w.disk.survivors, ∃ n, Holds content n ∧ ∀ q, w.count q ≠ 0 → q ≤ n
  /-- the one that a process would load is also above the highest number in memory, -/
  visible : ∀ cfg, w.process = some cfg →
    ∃ n, Holds w.disk.visible n ∧ cfg.shared.sup.highestRemoteSequence ≤ n
  /-- and that is above every number used. -/
  highest : ∀ cfg, w.process = some cfg →
    ∀ q, w.count q ≤ if q ≤ cfg.shared.sup.highestRemoteSequence then 1 else 0

theorem LedgerInv.start {d : LedgerDisk} {past : List RegistryEvent} {config : BridgeConfig}
    {now highest : UInt64} {io : LoadIo} {sup : Supervisor} (hi : LedgerInv ⟨none, d, past⟩)
    (hl : loadRemoteSequence d.visible io = .ok highest)
    (hn : Supervisor.new config highest now = .ok sup) :
    LedgerInv ⟨some ⟨⟨sup, ∅, [], []⟩, []⟩, d, past⟩ := by
  obtain ⟨scheduler, rfl⟩ := Supervisor.new_ok hn
  have hcount : ∀ q, LedgerWorld.count
      ⟨some ⟨⟨.fresh config scheduler highest now, ∅, [], []⟩, []⟩, d, past⟩ q =
        LedgerWorld.count ⟨none, d, past⟩ q := fun q => Nat.zero_add _
  obtain ⟨n, hn, habove⟩ := hi.ledger d.visible List.mem_cons_self
  have hload := load_ok hn hl
  subst hload
  refine ⟨fun q => hcount q ▸ hi.once q, ?_, ?_, ?_⟩
  · intro content hc
    obtain ⟨n, hn, habove⟩ := hi.ledger content hc
    exact ⟨n, hn, fun q hq => habove q (hcount q ▸ hq)⟩
  · rintro cfg ⟨⟩
    exact ⟨_, hn, UInt64.le_refl _⟩
  · rintro cfg ⟨⟩ q
    rw [hcount q]
    split
    · exact hi.once q
    · rename_i hq
      by_contra hne
      exact hq (habove q (by omega))

/-- What happens to no call, no ledger and no highest number keeps the invariant. -/
theorem LedgerInv.spawn {s : RegistryState} {ks : List RegistryCall} {d : LedgerDisk}
    {past : List RegistryEvent} {k : RegistryCall} (hi : LedgerInv ⟨some ⟨s, ks⟩, d, past⟩)
    (hk : k.isStart = true) : LedgerInv ⟨some ⟨s, k :: ks⟩, d, past⟩ := by
  have hpend : k.pending = none := by cases k <;> first | rfl | cases hk
  have hcount : ∀ q, LedgerWorld.count ⟨some ⟨s, k :: ks⟩, d, past⟩ q =
      LedgerWorld.count ⟨some ⟨s, ks⟩, d, past⟩ q := by
    intro q
    simp [LedgerWorld.count, numberCount, hpend]
  refine ⟨fun q => hcount q ▸ hi.once q, ?_, ?_, ?_⟩
  · intro content hc
    obtain ⟨n, hn, habove⟩ := hi.ledger content hc
    exact ⟨n, hn, fun q hq => habove q (hcount q ▸ hq)⟩
  · rintro cfg ⟨⟩
    exact hi.visible ⟨s, ks⟩ rfl
  · rintro cfg ⟨⟩ q
    rw [hcount q]
    exact hi.highest ⟨s, ks⟩ rfl q

/-- The end of a process, by a crash or not. -/
theorem LedgerInv.ended {w : LedgerWorld} {d : LedgerDisk} (hi : LedgerInv w)
    (hd : ∀ content ∈ d.survivors, content ∈ w.disk.survivors) :
    LedgerInv ⟨none, d, w.events⟩ := by
  refine ⟨fun q => Nat.le_trans (w.events_count q) (hi.once q), ?_, ?_, ?_⟩
  · intro content hc
    obtain ⟨n, hn, habove⟩ := hi.ledger content (hd content hc)
    refine ⟨n, hn, fun q hq => habove q fun h0 => hq ?_⟩
    exact Nat.le_zero.mp (h0 ▸ w.events_count q)
  · intro cfg h
    cases h
  · intro cfg h
    cases h

/-- A section that does not raise the highest number uses none. -/
theorem count_of_highest {c : Primitives} {s s' : RegistryState} {l r : List RegistryCall}
    {k : RegistryCall} {k' : Option RegistryCall} {d : LedgerDisk}
    (he : RegistryEffect c s k s' k')
    (hsame : s'.sup.highestRemoteSequence = s.sup.highestRemoteSequence) (d' : LedgerDisk)
    (past : List RegistryEvent) (q : UInt64) :
    LedgerWorld.count ⟨some ⟨s', l ++ k'.toList ++ r⟩, d', past⟩ q ≤
      LedgerWorld.count ⟨some ⟨s, l ++ k :: r⟩, d, past⟩ q := by
  have hc := numberCount_step (l := l) (r := r) he q
  rw [if_neg] at hc
  · exact Nat.add_le_add_right hc _
  · rintro ⟨hlt, heq⟩
    rw [heq, hsame] at hlt
    exact UInt64.lt_irrefl _ hlt

theorem LedgerInv.advance {c : Primitives} {s s' : RegistryState} {l r : List RegistryCall}
    {k : RegistryCall} {k' : Option RegistryCall} {d : LedgerDisk} {past : List RegistryEvent}
    {i : RegistryInput} {io : PersistIo} (hi : LedgerInv ⟨some ⟨s, l ++ k :: r⟩, d, past⟩)
    (h : s.run c { i with persisted := (sectionDisk s d io k).2 } k = (s', k')) :
    LedgerInv ⟨some ⟨s', l ++ k'.toList ++ r⟩, (sectionDisk s d io k).1, past⟩ := by
  have he := RegistryState.run_effect h
  generalize hd' : (sectionDisk s d io k).1 = d'
  have hnumbers : ∀ q, LedgerWorld.count ⟨some ⟨s', l ++ k'.toList ++ r⟩, d', past⟩ q ≤
      if q ≤ s'.sup.highestRemoteSequence then 1 else 0 :=
    numbers_step he (pastCount past) (hi.highest _ rfl)
  have huses : ∀ q, LedgerWorld.count ⟨some ⟨s', l ++ k'.toList ++ r⟩, d', past⟩ q ≠ 0 →
      q ≤ s'.sup.highestRemoteSequence := by
    intro q hq
    by_contra hle
    have h0 := hnumbers q
    rw [if_neg hle] at h0
    exact hq (Nat.le_zero.mp h0)
  have hcases := section_cases h
  rw [hd'] at hcases
  obtain ⟨n, hn, hle⟩ := hi.visible _ rfl
  refine ⟨fun q => Nat.le_trans (hnumbers q) (by split <;> omega), ?_, ?_, ?_⟩
  · intro content hc
    rcases hcases with ⟨hsame, hd⟩ | ⟨q, hq, hsup, hd⟩
    · -- no number is used that was not used before
      have hold : content ∈ d.survivors →
          ∃ n, Holds content n ∧ ∀ q, LedgerWorld.count
            ⟨some ⟨s', l ++ k'.toList ++ r⟩, d', past⟩ q ≠ 0 → q ≤ n := by
        intro hc
        obtain ⟨n, hn, habove⟩ := hi.ledger content hc
        refine ⟨n, hn, fun q hq => habove q fun h0 => hq ?_⟩
        have hc' := count_of_highest (l := l) (r := r) (d := d) he hsame d' past q
        exact Nat.le_zero.mp (h0 ▸ hc')
      rcases hd with rfl | ⟨q, hq, rfl⟩
      · exact hold hc
      · cases List.mem_cons.mp hc with
        | inl hnew =>
          refine ⟨q, hnew ▸ load_persisted q, fun p hp => UInt64.le_trans (huses p hp) ?_⟩
          exact hsame ▸ UInt64.le_of_lt hq
        | inr hc => exact hold hc
    · subst hd
      cases List.mem_singleton.mp hc
      exact ⟨q, load_persisted q, fun p hp => hsup ▸ huses p hp⟩
  · rintro cfg ⟨⟩
    rcases hcases with ⟨hsame, rfl | ⟨q, hq, rfl⟩⟩ | ⟨q, hq, hsup, rfl⟩
    · exact ⟨n, hn, hsame ▸ hle⟩
    · exact ⟨q, load_persisted q, hsame ▸ UInt64.le_of_lt hq⟩
    · exact ⟨q, load_persisted q, UInt64.le_of_eq hsup⟩
  · rintro cfg ⟨⟩ q
    exact hnumbers q

theorem LedgerInv.reachable {c : Primitives} {w : LedgerWorld}
    (h : (ledgerRuns c).Reachable w) : LedgerInv w := by
  refine System.invariant ?_ ?_ h
  · rintro ⟨process, ⟨visible, older⟩, past⟩ ⟨hp, hpast, hd, n, hn⟩
    dsimp only at hp hpast hd hn
    subst hp hpast hd
    refine ⟨fun q => Nat.zero_le _, ?_, ?_, ?_⟩
    · intro content hc
      cases List.mem_singleton.mp hc
      exact ⟨n, hn, fun q hq => absurd rfl hq⟩
    · intro cfg h
      cases h
    · intro cfg h
      cases h
  · intro w a w' hi hs
    cases hs with
    | start hl hn => exact hi.start hl hn
    | spawn hk => exact hi.spawn hk
    | advance hsec => exact hi.advance hsec
    | stop => exact hi.ended fun _ hc => hc
    | crash hc =>
      refine hi.ended fun content h => ?_
      cases List.mem_singleton.mp h
      exact hc

/-! ## The result -/

/-- **No number is admitted twice**, in any interleaving of any calls, with any faults of the disk
and any crashes. The ledger is at or above the highest number in memory, which is at or above every
number ever admitted. -/
theorem remote_at_most_once {c : Primitives} {w : LedgerWorld} (h : (ledgerRuns c).Reachable w) :
    w.admitted.Nodup ∧
    ∃ n, ledgerNumber w.disk.visible = some n ∧
      (∀ q ∈ w.admitted, q ≤ n) ∧
      ∀ cfg, w.process = some cfg →
        cfg.shared.sup.highestRemoteSequence ≤ n ∧
        ∀ q ∈ w.admitted, q ≤ cfg.shared.sup.highestRemoteSequence := by
  have hi := LedgerInv.reachable h
  have hused : ∀ q ∈ w.admitted, 0 < w.count q := fun q hq =>
    Nat.lt_of_lt_of_le (List.count_pos_iff.mpr hq) (w.count_admitted q)
  obtain ⟨n, hn, habove⟩ := hi.ledger w.disk.visible List.mem_cons_self
  refine ⟨?_, n, ledgerNumber_eq hn, fun q hq => habove q (Nat.ne_of_gt (hused q hq)), ?_⟩
  · exact List.nodup_iff_count_le_one.mpr fun q => Nat.le_trans (w.count_admitted q) (hi.once q)
  · intro cfg hcfg
    refine ⟨?_, fun q hq => ?_⟩
    · obtain ⟨m, hm, hle⟩ := hi.visible cfg hcfg
      have hmn := (ledgerNumber_eq hm).symm.trans (ledgerNumber_eq hn)
      cases hmn
      exact hle
    · by_contra hle
      have h0 := hi.highest cfg hcfg q
      rw [if_neg hle] at h0
      exact absurd (hused q hq) (Nat.not_lt.mpr h0)

/-! ## One request on a new ledger -/

def sampleLedger : LedgerDisk := ⟨some (ledgerBytes 1), []⟩

theorem sampleLedger_persisted :
    sectionDisk registryStart .empty .sound (.prepareReserve sampleEnvelope sampleKey) =
      (sampleLedger, .ok ()) := rfl

/-- A section of the only call, on a disk without a fault. -/
theorem ledger_advanced {s s' : RegistryState} {k : RegistryCall} {k' : Option RegistryCall}
    {d d' : LedgerDisk} {past : List RegistryEvent}
    (h : (ledgerRuns plainCipher).Reachable ⟨some ⟨s, [k]⟩, d, past⟩)
    (hd : sectionDisk s d .sound k = (d', .ok ()))
    (hs : s.run plainCipher sampleRegistryInput k = (s', k')) :
    (ledgerRuns plainCipher).Reachable ⟨some ⟨s', k'.toList ++ []⟩, d', past⟩ := by
  have hi : ({ sampleRegistryInput with persisted := (sectionDisk s d .sound k).2 } :
      RegistryInput) = sampleRegistryInput := by
    rw [hd]
    rfl
  have hrun : s.run plainCipher
      { sampleRegistryInput with persisted := (sectionDisk s d .sound k).2 } k = (s', k') :=
    hi ▸ hs
  have hdisk : (sectionDisk s d .sound k).1 = d' := congrArg Prod.fst hd
  exact hdisk ▸ h.next (.advance k sampleRegistryInput .sound) (.advance (l := []) hrun)

theorem ledgerAdmitted_reachable :
    (ledgerRuns plainCipher).Reachable ⟨some ⟨registryAdmitted, []⟩, sampleLedger, []⟩ := by
  have h0 : (ledgerRuns plainCipher).Reachable ⟨none, .empty, []⟩ :=
    .start ⟨rfl, rfl, rfl, 0, holds_nothing⟩
  have h1 : (ledgerRuns plainCipher).Reachable ⟨some ⟨registryStart, []⟩, .empty, []⟩ :=
    h0.next (.start .bound 0 .sound) (.start rfl rfl)
  have h2 := h1.next (.spawn (.prepare sampleEnvelope sampleKey)) (.spawn rfl)
  have h3 := ledger_advanced h2 rfl registry_entered
  have h4 := ledger_advanced h3 rfl registry_leased
  have h5 := ledger_advanced h4 sampleLedger_persisted registry_reserved
  have h6 := ledger_advanced h5 rfl registry_opened
  have h7 := ledger_advanced h6 rfl registry_guarded
  have h8 := ledger_advanced h7 rfl registry_rechecked
  exact ledger_advanced h8 rfl registry_registered

/-- The request is admitted, and the ledger is at its number. -/
theorem remote_at_most_once_sample :
    LedgerWorld.admitted ⟨some ⟨registryAdmitted, []⟩, sampleLedger, []⟩ = [1] ∧
      ∃ n, ledgerNumber sampleLedger.visible = some n ∧ 1 ≤ n := by
  obtain ⟨-, n, hn, hle, -⟩ := remote_at_most_once ledgerAdmitted_reachable
  exact ⟨rfl, n, hn, hle 1 List.mem_cons_self⟩

end Bridge
end EgoBridge
