import EgoBridge.Bridge.Relay
import EgoBridge.Bridge.StateStore

/-!
# Bridge.Forged

Relay requests that fail authentication, among others that do not.

The number of a request is reserved before anything is decrypted, so a forged request uses up its
number. Two runs that differ only in forged requests are compared here: deliveries one at a time,
with restarts and anything else the supervisor does in between.

* `deliver_forged`      — a forged request changes nothing but the highest number and the ledger,
  and these only if it passes the checks of what is not encrypted with a new number.
* `Above.run`           — a reserved number, and every number below it, is refused from then on.
* `Harmless`            — no forged request reserves the number of a request that comes later.
* `forged_reserve_only` — then the other requests fare as they do without the forged ones.
-/

namespace EgoBridge
namespace Bridge

open Protocol Json

/-- An envelope that arrives, and what the system answers while it is prepared. -/
structure Delivery where
  envelope : OuterEnvelope
  secret : Key
  now : UInt64
  io : PersistIo
  cancelledLater : Bool
  nonce : Nonce

namespace Delivery

def sequence (d : Delivery) : UInt64 := d.envelope.sequence

/-- The session key does not unwrap, or the payload does not open under it. -/
def Forged (c : Primitives) (d : Delivery) : Prop :=
  (∃ x, unwrapSessionKey c d.envelope.keyWrap d.secret d.envelope.bindingId d.envelope.generation
    d.envelope.requestId d.envelope.sequence = .error x) ∨
  ∃ key ciphertext nonce tag x,
    unwrapSessionKey c d.envelope.keyWrap d.secret d.envelope.bindingId d.envelope.generation
      d.envelope.requestId d.envelope.sequence = .ok key ∧
    d.envelope.decodedPayload = .ok (ciphertext, nonce, tag) ∧
    c.openDetached key nonce ciphertext tag (aadForOuter d.envelope) = .error x

end Delivery

structure RelayWorld where
  process : Option Supervisor
  disk : LedgerDisk

inductive RelayAct where
  | deliver (d : Delivery)
  /-- A delivery that the other run is without. -/
  | forged (d : Delivery)
  /-- A new process, after a crash that lost what was not durable or after none. -/
  | restart (lost : Bool) (config : BridgeConfig) (now : UInt64)
  /-- Whatever else happens to the supervisor. -/
  | other (s : Supervisor)

/-- What is at the ledger's path after a crash that loses what it can. -/
def LedgerDisk.durable (d : LedgerDisk) : Option Bytes := d.older.getLastD d.visible

namespace RelayWorld

/-- The disk after a delivery, and what persisting the number returns to it. -/
def relayDisk (s : Supervisor) (disk : LedgerDisk) (d : Delivery) :
    LedgerDisk × Except BridgeError Unit :=
  match s.checkRemote d.envelope d.now with
  | .error e => (disk, .error e)
  | .ok () =>
    if d.envelope.sequence ≤ s.highestRemoteSequence then (disk, .ok ())
    else persistRemoteSequence disk d.envelope.sequence d.io

/-- Without a process nothing is answered. -/
def deliver (c : Primitives) (w : RelayWorld) (d : Delivery) :
    RelayWorld × Option (Except BridgeError RemoteExecution) :=
  match w.process with
  | none => (w, none)
  | some s =>
    let disk := relayDisk s w.disk d
    let result := s.prepareRemoteExecution c d.envelope d.secret d.now disk.2 d.cancelledLater
      d.nonce
    (⟨some result.1, disk.1⟩, some result.2)

def started (disk : LedgerDisk) (config : BridgeConfig) (now : UInt64) : RelayWorld :=
  match loadRemoteSequence disk.visible .sound with
  | .error _ => ⟨none, disk⟩
  | .ok highest =>
    match Supervisor.new config highest now with
    | .error _ => ⟨none, disk⟩
    | .ok s => ⟨some s, disk⟩

/-- The world after an act, and the answer to a delivery that is in both runs. -/
def act (c : Primitives) (w : RelayWorld) :
    RelayAct → RelayWorld × List (Option (Except BridgeError RemoteExecution))
  | .deliver d => ((w.deliver c d).1, [(w.deliver c d).2])
  | .forged d => ((w.deliver c d).1, [])
  | .restart true config now => (started ⟨w.disk.durable, []⟩ config now, [])
  | .restart false config now => (started w.disk config now, [])
  | .other s' =>
    (⟨w.process.map fun s =>
        { s' with config := s.config, highestRemoteSequence := s.highestRemoteSequence },
      w.disk⟩, [])

def run (c : Primitives) (w : RelayWorld) :
    List RelayAct → RelayWorld × List (Option (Except BridgeError RemoteExecution))
  | [] => (w, [])
  | a :: acts =>
    let r := run c (w.act c a).1 acts
    (r.1, (w.act c a).2 ++ r.2)

end RelayWorld

/-- The run without the forged deliveries. -/
def withoutForged (acts : List RelayAct) : List RelayAct :=
  acts.filter fun a =>
    match a with
    | .forged _ => false
    | _ => true

/-! ## One delivery -/

namespace RelayWorld

variable {c : Primitives} {w : RelayWorld} {s : Supervisor} {d : Delivery}

theorem deliver_refused {x : BridgeError} (hp : w.process = some s)
    (hc : s.checkRemote d.envelope d.now = .error x) :
    w.deliver c d = (w, some (.error x)) := by
  obtain ⟨process, disk⟩ := w
  cases hp
  simp only [deliver, relayDisk, Supervisor.prepareRemoteExecution, hc]

theorem deliver_replay (hp : w.process = some s)
    (hc : s.checkRemote d.envelope d.now = .ok ()) (hle : d.sequence ≤ s.highestRemoteSequence) :
    w.deliver c d = (w, some (.error .replay)) := by
  obtain ⟨process, disk⟩ := w
  cases hp
  have hle : d.envelope.sequence ≤ s.highestRemoteSequence := hle
  simp only [deliver, relayDisk, Supervisor.prepareRemoteExecution, hc,
    Supervisor.reserveRemoteSequence, if_pos hle]

/-- The number could not be persisted. -/
theorem deliver_failed {x : BridgeError} {disk : LedgerDisk} (hp : w.process = some s)
    (hc : s.checkRemote d.envelope d.now = .ok ()) (hlt : s.highestRemoteSequence < d.sequence)
    (hd : persistRemoteSequence w.disk d.sequence d.io = (disk, .error x)) :
    w.deliver c d = (⟨some s, disk⟩, some (.error x)) := by
  obtain ⟨process, disk⟩ := w
  cases hp
  have hlt : ¬ d.envelope.sequence ≤ s.highestRemoteSequence := UInt64.not_le.mpr hlt
  have hd : persistRemoteSequence disk d.envelope.sequence d.io = _ := hd
  simp only [deliver, relayDisk, Supervisor.prepareRemoteExecution, hc,
    Supervisor.reserveRemoteSequence, if_neg hlt, hd]

theorem deliver_reserved {disk : LedgerDisk} (hp : w.process = some s)
    (hc : s.checkRemote d.envelope d.now = .ok ()) (hlt : s.highestRemoteSequence < d.sequence)
    (hd : persistRemoteSequence w.disk d.sequence d.io = (disk, .ok ())) :
    w.deliver c d =
      let r := ({ s with highestRemoteSequence := d.sequence } : Supervisor).launchRemote c
        d.envelope d.secret d.cancelledLater d.nonce
      (⟨some r.1, disk⟩, some r.2) := by
  obtain ⟨process, disk⟩ := w
  cases hp
  have hlt : ¬ d.envelope.sequence ≤ s.highestRemoteSequence := UInt64.not_le.mpr hlt
  have hd : persistRemoteSequence disk d.envelope.sequence d.io = _ := hd
  simp only [deliver, relayDisk, Supervisor.prepareRemoteExecution, hc,
    Supervisor.reserveRemoteSequence, if_neg hlt, hd]
  rfl

/-- The envelope passes the checks of what is not encrypted, and its number is a new one. -/
def Reserves (w : RelayWorld) (d : Delivery) : Prop :=
  ∃ s, w.process = some s ∧ s.checkRemote d.envelope d.now = .ok () ∧
    s.highestRemoteSequence < d.sequence

theorem launch_forged (hf : d.Forged c) (s : Supervisor) :
    ∃ x, s.launchRemote c d.envelope d.secret d.cancelledLater d.nonce = (s, .error x) := by
  have ho : ∃ x, openRemote c s.config d.envelope d.secret = .error x := by
    cases hf with
    | inl hf =>
      obtain ⟨x, hx⟩ := hf
      refine ⟨.protocol x, ?_⟩
      rw [openRemote, hx]
      rfl
    | inr hf =>
      obtain ⟨key, ciphertext, nonce, tag, x, hk, hp, hx⟩ := hf
      refine ⟨.protocol x, ?_⟩
      rw [openRemote, hk, orProtocol, ok_bind, hp, orProtocol, ok_bind]
      dsimp only
      rw [hx]
      rfl
  obtain ⟨x, hx⟩ := ho
  refine ⟨x, ?_⟩
  simp only [Supervisor.launchRemote, hx]

/-- A forged envelope is refused. It changes nothing but the highest number and the ledger. -/
theorem deliver_forged (hf : d.Forged c) (hp : w.process = some s) :
    (∃ x, (w.deliver c d).2 = some (.error x)) ∧
    (¬ w.Reserves d → (w.deliver c d).1 = w) ∧
    (w.Reserves d → (w.deliver c d).1 = w ∨
      (w.deliver c d).1 = ⟨some s, w.disk.renamed (ledgerBytes d.sequence)⟩ ∨
      (w.deliver c d).1 = ⟨some { s with highestRemoteSequence := d.sequence },
        ⟨some (ledgerBytes d.sequence), []⟩⟩) := by
  cases hc : s.checkRemote d.envelope d.now with
  | error x =>
    rw [deliver_refused hp hc]
    exact ⟨⟨x, rfl⟩, fun _ => rfl, fun _ => .inl rfl⟩
  | ok u =>
    by_cases hlt : s.highestRemoteSequence < d.sequence
    · have hr : w.Reserves d := ⟨s, hp, hc, hlt⟩
      rcases persistRemoteSequence_cases d.sequence d.io with ⟨x, hd⟩ | ⟨x, hd⟩ | hd
      · rw [deliver_failed hp hc hlt (hd _)]
        refine ⟨⟨x, rfl⟩, fun h => absurd hr h, fun _ => .inl ?_⟩
        rw [← hp]
      · rw [deliver_failed hp hc hlt (hd _)]
        exact ⟨⟨x, rfl⟩, fun h => absurd hr h, fun _ => .inr (.inl rfl)⟩
      · rw [deliver_reserved hp hc hlt (hd _)]
        obtain ⟨x, hx⟩ := launch_forged hf { s with highestRemoteSequence := d.sequence }
        dsimp only
        rw [hx]
        exact ⟨⟨x, rfl⟩, fun h => absurd hr h, fun _ => .inr (.inr rfl)⟩
    · rw [deliver_replay hp hc (UInt64.not_lt.mp hlt)]
      exact ⟨⟨_, rfl⟩, fun _ => rfl, fun _ => .inl rfl⟩

theorem launch_highest (s : Supervisor) (e : OuterEnvelope) (secret : Key)
    (cancelledLater : Bool) (nonce : Nonce) :
    (s.launchRemote c e secret cancelledLater nonce).1.highestRemoteSequence =
      s.highestRemoteSequence := by
  unfold Supervisor.launchRemote
  split
  · rfl
  · rfl
  · rename_i key request _
    obtain ⟨scheduler, ha⟩ := s.acquireRemote_fst e request
    split
    · rename_i s1 status hg
      rw [hg] at ha
      cases ha
      rfl
    · rename_i s1 guard hg
      rw [hg] at ha
      cases ha
      split
      · rfl
      · unfold Supervisor.registerRemote
        split <;> split at * <;> rename_i h <;> cases h <;> rfl

/-! ## Numbers stay used -/

/-- Every number up to `q` is used, here and in every process to come. -/
structure Above (q : UInt64) (w : RelayWorld) : Prop where
  process : ∀ s, w.process = some s → q ≤ s.highestRemoteSequence
  ledger : ∀ content ∈ w.disk.survivors, ∃ n, Holds content n ∧ q ≤ n

variable {q : UInt64}

theorem durable_mem (d : LedgerDisk) : d.durable ∈ d.survivors := by
  obtain ⟨visible, older⟩ := d
  cases older with
  | nil => exact List.mem_cons_self
  | cons x xs =>
    refine List.mem_cons_of_mem _ ?_
    show (x :: xs).getLastD visible ∈ x :: xs
    rw [List.getLastD_eq_getLast?, List.getLast?_eq_some_getLast (by simp), Option.getD_some]
    exact List.getLast_mem _

theorem durable_renamed (d : LedgerDisk) (bytes : Bytes) : (d.renamed bytes).durable = d.durable :=
  List.getLastD_cons

theorem Above.started {disk : LedgerDisk}
    (hd : ∀ content ∈ disk.survivors, ∃ n, Holds content n ∧ q ≤ n) (config : BridgeConfig)
    (now : UInt64) : Above q (started disk config now) := by
  obtain ⟨n, hn, hq⟩ := hd disk.visible List.mem_cons_self
  have hl : loadRemoteSequence disk.visible .sound = .ok n := hn
  rw [RelayWorld.started, hl]
  dsimp only
  cases hs : Supervisor.new config n now with
  | error x =>
    refine ⟨?_, hd⟩
    intro s hp
    cases hp
  | ok s =>
    obtain ⟨scheduler, rfl⟩ := Supervisor.new_ok hs
    refine ⟨?_, hd⟩
    intro s hp
    cases hp
    exact hq

/-- A number is refused once it is used, whatever the envelope is. -/
theorem Above.refuses (h : Above q w) (hle : d.sequence ≤ q) (hp : w.process = some s) :
    (w.deliver c d).1 = w ∧ ∃ x, (w.deliver c d).2 = some (.error x) ∧
      (s.checkRemote d.envelope d.now = .ok () → x = .replay) := by
  cases hc : s.checkRemote d.envelope d.now with
  | error x =>
    rw [deliver_refused hp hc]
    exact ⟨rfl, x, rfl, nofun⟩
  | ok u =>
    rw [deliver_replay hp hc (UInt64.le_trans hle (h.process s hp))]
    exact ⟨rfl, _, rfl, fun _ => rfl⟩

theorem Above.deliver (h : Above q w) (d : Delivery) : Above q (w.deliver c d).1 := by
  cases hp : w.process with
  | none =>
    rw [RelayWorld.deliver, hp]
    exact h
  | some s =>
    have hs := h.process s hp
    cases hc : s.checkRemote d.envelope d.now with
    | error x => rw [deliver_refused hp hc]; exact h
    | ok u =>
      by_cases hlt : s.highestRemoteSequence < d.sequence
      · have hq : q ≤ d.sequence := UInt64.le_trans hs (UInt64.le_of_lt hlt)
        rcases persistRemoteSequence_cases d.sequence d.io with ⟨x, hd⟩ | ⟨x, hd⟩ | hd
        · rw [deliver_failed hp hc hlt (hd _), ← hp]
          exact h
        · rw [deliver_failed hp hc hlt (hd _), ← hp]
          refine ⟨h.process, fun content hmem => ?_⟩
          cases List.mem_cons.mp hmem with
          | inl heq => exact ⟨_, heq ▸ load_persisted _, hq⟩
          | inr hmem => exact h.ledger content hmem
        · rw [deliver_reserved hp hc hlt (hd _)]
          constructor
          · rintro _ ⟨⟩
            rw [launch_highest]
            exact hq
          · intro content hmem
            cases List.mem_singleton.mp hmem
            exact ⟨_, load_persisted _, hq⟩
      · rw [deliver_replay hp hc (UInt64.not_lt.mp hlt)]
        exact h

theorem Above.act (h : Above q w) (a : RelayAct) : Above q (w.act c a).1 := by
  cases a with
  | deliver d => exact h.deliver d
  | forged d => exact h.deliver d
  | restart lost config now =>
    cases lost with
    | false => exact .started h.ledger config now
    | true =>
      refine .started (fun content hmem => ?_) config now
      cases List.mem_singleton.mp hmem
      exact h.ledger _ (durable_mem w.disk)
  | other s' =>
    refine ⟨?_, h.ledger⟩
    intro t ht
    obtain ⟨s, hs, rfl⟩ := Option.map_eq_some_iff.mp ht
    exact h.process s hs

theorem Above.run (h : Above q w) (acts : List RelayAct) : Above q (w.run c acts).1 := by
  induction acts generalizing w with
  | nil => exact h
  | cons a acts ih => exact ih (h.act a)

/-- A number that was reserved is used. -/
theorem above_reserved (hr : w.Reserves d)
    (hd : (persistRemoteSequence w.disk d.sequence d.io).2 = .ok ()) :
    Above d.sequence (w.deliver c d).1 := by
  obtain ⟨s, hp, hc, hlt⟩ := hr
  have hd : persistRemoteSequence w.disk d.sequence d.io =
      (⟨some (ledgerBytes d.sequence), []⟩, .ok ()) := by
    rcases persistRemoteSequence_cases d.sequence d.io with ⟨x, hx⟩ | ⟨x, hx⟩ | hx
    · rw [hx] at hd
      cases hd
    · rw [hx] at hd
      cases hd
    · exact hx _
  rw [deliver_reserved hp hc hlt hd]
  constructor
  · rintro _ ⟨⟩
    rw [launch_highest]
    exact UInt64.le_refl _
  · intro content hmem
    cases List.mem_singleton.mp hmem
    exact ⟨_, load_persisted _, UInt64.le_refl _⟩

/-! ## Two runs -/

/-- The numbers that the memory and the ledger hold. -/
def Has (w : RelayWorld) (n : UInt64) : Prop :=
  (∃ s, w.process = some s ∧ n = s.highestRemoteSequence) ∨
    ∃ content ∈ w.disk.survivors, Holds content n

/-- A forged envelope that reserves its number takes one that is not held yet, and that none of the
later envelopes has or is below, unless they are replays anyhow. -/
def Harmless (c : Primitives) : RelayWorld → List RelayAct → Prop
  | _, [] => True
  | w, a :: acts =>
    (∀ d, a = .forged d → w.Reserves d →
      (∀ n, w.Has n → n ≤ d.sequence) ∧
      ∀ d', .deliver d' ∈ acts → d.sequence < d'.sequence ∨ ∀ n, w.Has n → d'.sequence ≤ n) ∧
    Harmless c (w.act c a).1 acts

/-- `x` is at least `x0`, and none of the envelopes to come has a number between them. -/
structure Clear (acts : List RelayAct) (x0 x : UInt64) : Prop where
  le : x0 ≤ x
  replayed : ∀ d, .deliver d ∈ acts → d.sequence ≤ x → d.sequence ≤ x0

/-- The run with the forged envelopes, and the run without them. -/
structure Near (acts : List RelayAct) (w w0 : RelayWorld) : Prop where
  process : (w.process = none ∧ w0.process = none) ∨
    ∃ s x, w0.process = some s ∧ w.process = some { s with highestRemoteSequence := x } ∧
      Clear acts s.highestRemoteSequence x
  visible : ∃ n0 n, Holds w0.disk.visible n0 ∧ Holds w.disk.visible n ∧ Clear acts n0 n
  durable : ∃ n0 n, Holds w0.disk.durable n0 ∧ Holds w.disk.durable n ∧ Clear acts n0 n

variable {a : RelayAct} {acts : List RelayAct} {w0 : RelayWorld}

theorem Clear.refl (acts : List RelayAct) (x : UInt64) : Clear acts x x :=
  ⟨UInt64.le_refl x, fun _ _ h => h⟩

theorem Clear.tail {x0 x : UInt64} (h : Clear (a :: acts) x0 x) : Clear acts x0 x :=
  ⟨h.le, fun d hd => h.replayed d (List.mem_cons_of_mem _ hd)⟩

/-- A forged number takes the place of `x`. -/
theorem Clear.raise {x0 x : UInt64} (h : Clear acts x0 x) (hle : x ≤ q)
    (hq : ∀ d, .deliver d ∈ acts → q < d.sequence ∨ d.sequence ≤ x) : Clear acts x0 q := by
  refine ⟨UInt64.le_trans h.le hle, fun d hd hdq => ?_⟩
  cases hq d hd with
  | inl hlt => exact absurd hdq (UInt64.not_le.mpr hlt)
  | inr hle => exact h.replayed d hd hle

theorem Near.tail (h : Near (a :: acts) w w0) : Near acts w w0 where
  process := by
    rcases h.process with hnone | ⟨s, x, hs, hx, hclear⟩
    · exact .inl hnone
    · exact .inr ⟨s, x, hs, hx, hclear.tail⟩
  visible := by
    obtain ⟨n0, n, hn0, hn, hclear⟩ := h.visible
    exact ⟨n0, n, hn0, hn, hclear.tail⟩
  durable := by
    obtain ⟨n0, n, hn0, hn, hclear⟩ := h.durable
    exact ⟨n0, n, hn0, hn, hclear.tail⟩

/-- Any world whose ledger can be loaded is near itself. -/
theorem Near.refl (acts : List RelayAct) (hw : ∀ content ∈ w.disk.survivors, ∃ n, Holds content n) :
    Near acts w w where
  process := by
    cases hp : w.process with
    | none => exact .inl ⟨rfl, rfl⟩
    | some s => exact .inr ⟨s, s.highestRemoteSequence, rfl, rfl, .refl _ _⟩
  visible := by
    obtain ⟨n, hn⟩ := hw w.disk.visible List.mem_cons_self
    exact ⟨n, n, hn, hn, .refl _ _⟩
  durable := by
    obtain ⟨n, hn⟩ := hw w.disk.durable (durable_mem w.disk)
    exact ⟨n, n, hn, hn, .refl _ _⟩

/-- A forged envelope is in the first run only. -/
theorem Near.forged (h : Near acts w w0) (hf : d.Forged c)
    (hh : w.Reserves d → (∀ n, w.Has n → n ≤ d.sequence) ∧
      ∀ d', .deliver d' ∈ acts → d.sequence < d'.sequence ∨ ∀ n, w.Has n → d'.sequence ≤ n) :
    Near acts (w.deliver c d).1 w0 := by
  rcases h.process with ⟨hnone, -⟩ | ⟨s, x, hs, hx, hclear⟩
  · rw [RelayWorld.deliver, hnone]
    exact h
  obtain ⟨-, hquiet, hloud⟩ := deliver_forged hf hx
  by_cases hr : w.Reserves d
  · obtain ⟨hheld, hlater⟩ := hh hr
    have hraise : ∀ {n0 n : UInt64}, w.Has n → Clear acts n0 n → Clear acts n0 d.sequence := by
      intro n0 n hn hclear
      exact hclear.raise (hheld n hn) fun d' hd' => (hlater d' hd').imp id fun hle => hle n hn
    obtain ⟨v0, v, hv0, hv, hvisible⟩ := h.visible
    have hvisible := hraise (.inr ⟨_, List.mem_cons_self, hv⟩) hvisible
    rcases hloud hr with hw | hw | hw
    · rw [hw]
      exact h
    · rw [hw]
      refine ⟨.inr ⟨s, x, hs, rfl, hclear⟩, ⟨v0, _, hv0, load_persisted _, hvisible⟩, ?_⟩
      rw [durable_renamed]
      exact h.durable
    · rw [hw]
      obtain ⟨u0, u, hu0, hu, hdurable⟩ := h.durable
      have hdurable := hraise (.inr ⟨_, durable_mem w.disk, hu⟩) hdurable
      have hmemory := hraise (.inl ⟨_, hx, rfl⟩) hclear
      exact ⟨.inr ⟨s, d.sequence, hs, rfl, hmemory⟩, ⟨v0, _, hv0, load_persisted _, hvisible⟩,
        ⟨u0, _, hu0, load_persisted _, hdurable⟩⟩
  · rw [hquiet hr]
    exact h

/-- Any other envelope is in both, and is answered the same. -/
theorem Near.deliver (h : Near (.deliver d :: acts) w w0) :
    (w.deliver c d).2 = (w0.deliver c d).2 ∧ Near acts (w.deliver c d).1 (w0.deliver c d).1 := by
  rcases h.process with ⟨hnone, hnone0⟩ | ⟨s, x, hs, hx, hclear⟩
  · rw [RelayWorld.deliver, RelayWorld.deliver, hnone, hnone0]
    exact ⟨rfl, h.tail⟩
  cases hc : s.checkRemote d.envelope d.now with
  | error y =>
    rw [deliver_refused hs hc, deliver_refused hx hc]
    exact ⟨rfl, h.tail⟩
  | ok u =>
    by_cases hlt : x < d.sequence
    · have hlt0 : s.highestRemoteSequence < d.sequence := UInt64.lt_of_le_of_lt hclear.le hlt
      rcases persistRemoteSequence_cases d.sequence d.io with ⟨y, hd⟩ | ⟨y, hd⟩ | hd
      · rw [deliver_failed hs hc hlt0 (hd _), deliver_failed hx hc hlt (hd _), ← hs, ← hx]
        exact ⟨rfl, h.tail⟩
      · rw [deliver_failed hs hc hlt0 (hd _), deliver_failed hx hc hlt (hd _)]
        refine ⟨rfl, .inr ⟨s, x, rfl, rfl, hclear.tail⟩,
          ⟨_, _, load_persisted _, load_persisted _, .refl _ _⟩, ?_⟩
        dsimp only
        rw [durable_renamed, durable_renamed]
        exact h.tail.durable
      · rw [deliver_reserved hs hc hlt0 (hd _), deliver_reserved hx hc hlt (hd _)]
        refine ⟨rfl, .inr ⟨_, _, rfl, rfl, .refl _ _⟩,
          ⟨_, _, load_persisted _, load_persisted _, .refl _ _⟩,
          ⟨_, _, load_persisted _, load_persisted _, .refl _ _⟩⟩
    · have hle : d.sequence ≤ x := UInt64.not_lt.mp hlt
      rw [deliver_replay hs hc (hclear.replayed d List.mem_cons_self hle),
        deliver_replay hx hc hle]
      exact ⟨rfl, h.tail⟩

/-- A new supervisor depends on the ledger in its highest number only. -/
theorem new_highest (config : BridgeConfig) (n0 n now : UInt64) :
    Supervisor.new config n now =
      (Supervisor.new config n0 now).map fun s => { s with highestRemoteSequence := n } := by
  unfold Supervisor.new
  split
  · rfl
  · cases Scheduler.new config.maxParallelRequests with
    | error x => rfl
    | ok scheduler => rfl

theorem Near.started (disk disk0 : LedgerDisk) {n0 n : UInt64}
    (hn0 : Holds disk0.visible n0) (hn : Holds disk.visible n) (hclear : Clear acts n0 n)
    (hdurable : ∃ n0 n, Holds disk0.durable n0 ∧ Holds disk.durable n ∧ Clear acts n0 n)
    (config : BridgeConfig) (now : UInt64) :
    Near acts (started disk config now) (started disk0 config now) := by
  have hvisible : ∃ n0 n, Holds disk0.visible n0 ∧ Holds disk.visible n ∧ Clear acts n0 n :=
    ⟨n0, n, hn0, hn, hclear⟩
  have hl0 : loadRemoteSequence disk0.visible .sound = .ok n0 := hn0
  have hl : loadRemoteSequence disk.visible .sound = .ok n := hn
  rw [RelayWorld.started, RelayWorld.started, hl0, hl]
  dsimp only
  rw [new_highest config n0 n now]
  cases hs : Supervisor.new config n0 now with
  | error x => exact ⟨.inl ⟨rfl, rfl⟩, hvisible, hdurable⟩
  | ok s =>
    obtain ⟨scheduler, rfl⟩ := Supervisor.new_ok hs
    exact ⟨.inr ⟨_, n, rfl, rfl, hclear⟩, hvisible, hdurable⟩

theorem Near.restart (h : Near acts w w0) (lost : Bool) (config : BridgeConfig) (now : UInt64) :
    Near acts (w.act c (.restart lost config now)).1 (w0.act c (.restart lost config now)).1 := by
  obtain ⟨n0, n, hn0, hn, hclear⟩ := h.visible
  obtain ⟨m0, m, hm0, hm, hdurable⟩ := h.durable
  cases lost with
  | false => exact .started w.disk w0.disk hn0 hn hclear h.durable config now
  | true =>
    exact .started ⟨w.disk.durable, []⟩ ⟨w0.disk.durable, []⟩ hm0 hm hdurable
      ⟨m0, m, hm0, hm, hdurable⟩ config now

theorem Near.other (h : Near acts w w0) (s' : Supervisor) :
    Near acts (w.act c (.other s')).1 (w0.act c (.other s')).1 where
  process := by
    rcases h.process with ⟨hnone, hnone0⟩ | ⟨s, x, hs, hx, hclear⟩
    · exact .inl ⟨by rw [RelayWorld.act, hnone]; rfl, by rw [RelayWorld.act, hnone0]; rfl⟩
    · refine .inr ⟨{ s' with
        config := s.config
        highestRemoteSequence := s.highestRemoteSequence }, x, ?_, ?_, hclear⟩
      · rw [RelayWorld.act, hs]
        rfl
      · rw [RelayWorld.act, hx]
        rfl
  visible := h.visible
  durable := h.durable

theorem Near.run (h : Near acts w w0) (hf : ∀ d, .forged d ∈ acts → d.Forged c)
    (hh : Harmless c w acts) : (w.run c acts).2 = (w0.run c (withoutForged acts)).2 := by
  induction acts generalizing w w0 with
  | nil => rfl
  | cons a acts ih =>
    obtain ⟨hhere, hh⟩ := hh
    have hf' : ∀ d, .forged d ∈ acts → d.Forged c := fun d hd => hf d (List.mem_cons_of_mem _ hd)
    cases a with
    | forged d =>
      exact ih (h.tail.forged (hf d List.mem_cons_self) (hhere d rfl)) hf' hh
    | deliver d =>
      obtain ⟨heq, hnear⟩ := h.deliver (c := c)
      show [(w.deliver c d).2] ++ _ = [(w0.deliver c d).2] ++ _
      rw [heq]
      exact congrArg _ (ih hnear hf' hh)
    | restart lost config now =>
      have hrun := ih (h.tail.restart (c := c) lost config now) hf' hh
      cases lost with
      | false => exact hrun
      | true => exact hrun
    | other s' => exact ih (h.tail.other s') hf' hh

end RelayWorld

/-- **A forged envelope reserves its number and does no more.** One that fails a check of what is
not encrypted, or comes with an old number, changes nothing. One that passes raises the highest
number and the ledger to its own, and then every envelope up to it is refused, in every process to
come. If no forged envelope takes the number of one that comes later, the others are answered as
they are without the forged ones. -/
theorem forged_reserve_only {c : Primitives} {w : RelayWorld} {acts : List RelayAct}
    (hw : ∀ content ∈ w.disk.survivors, ∃ n, Holds content n)
    (hf : ∀ d, .forged d ∈ acts → d.Forged c) :
    (∀ (w : RelayWorld) (s : Supervisor) (d : Delivery), w.process = some s → d.Forged c →
      (∃ x, (w.deliver c d).2 = some (.error x)) ∧
      (¬ w.Reserves d → (w.deliver c d).1 = w) ∧
      (w.Reserves d → (w.deliver c d).1 = w ∨
        (w.deliver c d).1 = ⟨some s, w.disk.renamed (ledgerBytes d.sequence)⟩ ∨
        (w.deliver c d).1 = ⟨some { s with highestRemoteSequence := d.sequence },
          ⟨some (ledgerBytes d.sequence), []⟩⟩)) ∧
    (∀ (w : RelayWorld) (d : Delivery), w.Reserves d →
      (persistRemoteSequence w.disk d.sequence d.io).2 = .ok () →
      ∀ (later : List RelayAct) (s : Supervisor) (d' : Delivery),
        ((w.deliver c d).1.run c later).1.process = some s → d'.sequence ≤ d.sequence →
        ∃ x, (((w.deliver c d).1.run c later).1.deliver c d').2 = some (.error x) ∧
          (s.checkRemote d'.envelope d'.now = .ok () → x = .replay)) ∧
    (w.Harmless c acts → (w.run c acts).2 = (w.run c (withoutForged acts)).2) := by
  refine ⟨fun w s d hp hf => RelayWorld.deliver_forged hf hp, ?_, ?_⟩
  · intro w d hr hd later s d' hp hle
    exact (((RelayWorld.above_reserved hr hd).run later).refuses hle hp).2
  · intro hh
    exact (RelayWorld.Near.refl acts hw).run hf hh

/-! ## A forged envelope with the last number -/

def forgedEnvelope : OuterEnvelope := { sampleEnvelope with sequence := 18446744073709551615 }

def forgedDelivery : Delivery := ⟨forgedEnvelope, sampleKey, 0, .sound, false, sampleNonce⟩

def sampleDelivery : Delivery := ⟨sampleEnvelope, sampleKey, 0, .sound, false, sampleNonce⟩

def sampleRelay : RelayWorld := ⟨some sampleSupervisor, .empty⟩

def forgedFirst : List RelayAct := [.forged forgedDelivery, .deliver sampleDelivery]

def forgedLast : List RelayAct := [.deliver sampleDelivery, .forged forgedDelivery]

theorem forgedEnvelope_valid : forgedEnvelope.Valid (16 * 1024 * 1024) :=
  { sampleEnvelope_valid with
    sequence := by decide
    payload := by
      obtain ⟨ciphertext, nonce, tag, hcarries, hlengths⟩ := sampleEnvelope_valid.payload
      exact ⟨ciphertext, nonce, tag, ⟨hcarries.ciphertext, hcarries.nonce, hcarries.tag⟩, hlengths⟩
    wireSize := by
      rw [OuterEnvelope.wireSize_eq]
      simp only [forgedEnvelope, sampleEnvelope, encodeB64url_size, sampleRequest_length]
      decide }

theorem forgedEnvelope_checked : sampleSupervisor.checkRemote forgedEnvelope 0 = .ok () := by
  have hw : forgedEnvelope.validateKeyWrap = .ok () := by
    rw [OuterEnvelope.validateKeyWrap, if_neg (by decide), forgedEnvelope, sampleEnvelope_wrap,
      decodeB64_encodeB64url]
    rfl
  rw [Supervisor.checkRemote, OuterEnvelope.validate_ok.mpr forgedEnvelope_valid, orProtocol,
    ok_bind, hw, orProtocol, ok_bind]
  rfl

/-- Its key was wrapped for another number. -/
theorem forgedDelivery_forged : forgedDelivery.Forged samplePrimitives := by
  have hnone : ∀ key nonce text,
      samplePrimitives.decrypt key nonce (keyWrapTranscript "b1" 1 "r1" 18446744073709551615)
        text = none := by
    intro key nonce text
    simp only [samplePrimitives, Option.map_eq_none_iff, List.find?_eq_none]
    intro x hx
    simp only [List.mem_cons, List.not_mem_nil, or_false] at hx
    simp only [decide_eq_true_eq]
    rintro ⟨-, -, haad, -⟩
    rcases hx with rfl | rfl
    · exact absurd haad (aadForOuter_ne_transcript _ _ _ _ _)
    · obtain ⟨-, -, -, hseq⟩ := keyWrapTranscript_injective (by decide) (by decide) haad
      cases hseq
  refine .inl ⟨.authenticationFailed, ?_⟩
  show unwrapSessionKey samplePrimitives sampleEnvelope.keyWrap sampleKey "b1" 1 "r1"
    18446744073709551615 = _
  rw [sampleEnvelope_wrap, unwrapSessionKey_encode (by decide), if_neg (by decide), hnone]

theorem sampleDelivery_running :
    (sampleRelay.deliver samplePrimitives sampleDelivery).2 =
      some (.ok (.running sampleRequest ⟨["binding"], true, 1, "r1"⟩ sampleEnvelope
        sampleKey)) := by
  have hd : (RelayWorld.relayDisk sampleSupervisor .empty sampleDelivery).2 = .ok () := by
    have hc : sampleSupervisor.checkRemote sampleDelivery.envelope sampleDelivery.now = .ok () :=
      sampleEnvelope_checked
    rw [RelayWorld.relayDisk, hc]
    rfl
  refine congrArg some ?_
  show (sampleSupervisor.prepareRemoteExecution samplePrimitives sampleEnvelope sampleKey 0
    (RelayWorld.relayDisk sampleSupervisor .empty sampleDelivery).2 false sampleNonce).2 = _
  rw [hd]
  exact sample_running

theorem sampleRelay_readable : ∀ content ∈ sampleRelay.disk.survivors, ∃ n, Holds content n := by
  intro content hc
  cases List.mem_singleton.mp hc
  exact ⟨0, holds_nothing⟩

/-- A request is refused as a replay after a forged one, and is not without it. -/
theorem forged_interferes :
    ¬ ∀ (c : Primitives) (w : RelayWorld) (acts : List RelayAct),
      (∀ content ∈ w.disk.survivors, ∃ n, Holds content n) →
      (∀ d, .forged d ∈ acts → d.Forged c) →
      (w.run c acts).2 = (w.run c (withoutForged acts)).2 := by
  intro h
  have hforged : ∀ d, .forged d ∈ forgedFirst → d.Forged samplePrimitives := by
    intro d hd
    cases hd with
    | head => exact forgedDelivery_forged
    | tail _ hd => cases hd with | tail _ hd => cases hd
  have heq := h samplePrimitives sampleRelay forgedFirst sampleRelay_readable hforged
  have hr : sampleRelay.Reserves forgedDelivery := ⟨_, rfl, forgedEnvelope_checked, by decide⟩
  have habove := RelayWorld.above_reserved (c := samplePrimitives) hr rfl
  obtain ⟨x, hlaunch⟩ := RelayWorld.launch_forged forgedDelivery_forged
    { sampleSupervisor with highestRemoteSequence := forgedDelivery.sequence }
  have hw := RelayWorld.deliver_reserved (c := samplePrimitives) (w := sampleRelay)
    (d := forgedDelivery) rfl forgedEnvelope_checked (by decide) rfl
  dsimp only at hw
  rw [hlaunch] at hw
  rw [hw] at habove
  obtain ⟨-, y, hy, -⟩ :=
    habove.refuses (c := samplePrimitives) (d := sampleDelivery) (by decide) rfl
  have heq : [((sampleRelay.deliver samplePrimitives forgedDelivery).1.deliver samplePrimitives
      sampleDelivery).2] = [(sampleRelay.deliver samplePrimitives sampleDelivery).2] := heq
  rw [hw, hy, sampleDelivery_running] at heq
  cases heq

/-- Before it, the request is started. -/
theorem forged_reserve_only_sample :
    (sampleRelay.run samplePrimitives forgedLast).2 =
      [some (.ok (.running sampleRequest ⟨["binding"], true, 1, "r1"⟩ sampleEnvelope
        sampleKey))] := by
  have hforged : ∀ d, .forged d ∈ forgedLast → d.Forged samplePrimitives := by
    intro d hd
    cases hd with
    | tail _ hd =>
      cases hd with
      | head => exact forgedDelivery_forged
      | tail _ hd => cases hd
  have hharmless : sampleRelay.Harmless samplePrimitives forgedLast := by
    refine ⟨fun d hd => (by cases hd), ?_, trivial⟩
    rintro _ ⟨⟩ -
    refine ⟨fun n _ => ?_, fun d' hd' => absurd hd' List.not_mem_nil⟩
    have hn := n.toNat_lt
    exact UInt64.le_iff_toNat_le.mpr (Nat.le_of_lt_succ hn)
  rw [(forged_reserve_only sampleRelay_readable hforged).2.2 hharmless]
  exact congrArg (· :: []) sampleDelivery_running

end Bridge
end EgoBridge
