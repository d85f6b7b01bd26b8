import EgoBridge.Bridge.Relay
import EgoBridge.Lib.Calls

/-!
# Bridge.Registry

The registry of running relay requests, with any number of calls of `prepare_remote_execution`,
`cancel_remote_request`, `finish_remote_request` and `clear_remote_requests` interleaved at their
locks, and with anything else the supervisor does in between.

A request's own signal is a channel. The registry keeps a sender of it, and a cancellation clones
that sender under the registry's lock and uses it later, when the entry may be gone.

* `checkRemote_sections`, `checkCancel_sections` — the sections before the registry, in a row, are
  the checks of `Bridge.Remote`.
* `live`               — the requests admitted and not finished or cleared since.
* `RegistryEffect`     — the seven things a section can do.
* `RegistryInv`        — a number is with one call or answered once, and the registry is `live`.
* `cancellation_exact` — the registry is exact, and so is a cancellation.
-/

namespace EgoBridge
namespace Bridge

open Protocol Json Run

namespace Supervisor

/-- `prepare_remote_execution` up to its lease section. -/
def enterRemote (s : Supervisor) (e : OuterEnvelope) : Except BridgeError Unit := do
  orProtocol (e.validate (16 * 1024 * 1024))
  orProtocol e.validateKeyWrap
  if e.messageType ≠ .execute ∨ e.direction ≠ .request then
    .error (.protocolMessage "invalid remote execute envelope")
  else if s.cancelled then .error .revoked
  else if e.bindingId ≠ s.config.bindingId then
    .error (.protocolMessage "remote envelope binding does not match bridge configuration")
  else .ok ()

/-- `cancel_remote_request` up to its lease section. -/
def enterCancel (s : Supervisor) (e : OuterEnvelope) : Except BridgeError Unit := do
  orProtocol (e.validate (16 * 1024 * 1024))
  if e.messageType ≠ .cancel ∨ e.direction ≠ .request ∨ ¬ e.keyWrap.isEmpty ∨
      e.bindingId ≠ s.config.bindingId then
    .error (.protocolMessage "invalid remote cancel envelope")
  else .ok ()

theorem checkRemote_sections (s : Supervisor) (e : OuterEnvelope) (now : UInt64) :
    s.checkRemote e now = (do s.enterRemote e; Execution.leaseAdmits s e.generation now) := by
  unfold checkRemote enterRemote
  cases orProtocol (e.validate (16 * 1024 * 1024)) with
  | error x => rfl
  | ok u =>
    cases orProtocol e.validateKeyWrap with
    | error x => rfl
    | ok u =>
      simp only [ok_bind]
      split
      · rfl
      · split
        · rfl
        · split <;> rfl

theorem checkCancel_sections (s : Supervisor) (e : OuterEnvelope) :
    s.checkCancel e = (do s.enterCancel e; Execution.leaseAccepts s e.generation) := by
  unfold checkCancel enterCancel
  cases orProtocol (e.validate (16 * 1024 * 1024)) with
  | error x => rfl
  | ok u =>
    simp only [ok_bind]
    split <;> rfl

end Supervisor

/-- An answer is forgotten under the key of its request. -/
theorem sealResponse_key {c : Primitives} {inner : InnerExecuteResponse}
    {request response : OuterEnvelope} {key : Key} {nonce : Nonce}
    (h : sealResponse c inner request key nonce = .ok response) :
    RemoteRequestKey.fromEnvelope response = .fromEnvelope request := by
  unfold sealResponse at h
  dsimp only at h
  split at h
  · cases h
  · cases h
    rfl

/-! ## Calls -/

/-- What the registry keeps of a request: the channel of its signal, and its session key. -/
structure Registered where
  channel : Nat
  sessionKey : Key
  deriving DecidableEq

inductive RegistryEvent where
  /-- A request was registered, and is being executed, -/
  | admitted (key : RemoteRequestKey) (request : Registered)
  /-- or it is answered without. -/
  | refused (key : RemoteRequestKey)
  /-- The cancellation `e` has been sent to a channel. -/
  | raised (e : OuterEnvelope)
  | finished (key : RemoteRequestKey)
  | cleared
  deriving DecidableEq

/-- The registry stands apart from the rest of the supervisor here. -/
structure RegistryState where
  sup : Supervisor
  registry : Finmap (fun _ : RemoteRequestKey => Registered)
  /-- The values of the channels, in the order they were made. -/
  signals : List Bool
  /-- What has happened, latest first. -/
  log : List RegistryEvent

inductive RegistryCall where
  | prepare (e : OuterEnvelope) (secret : Key)
  | prepareLease (e : OuterEnvelope) (secret : Key)
  | prepareReserve (e : OuterEnvelope) (secret : Key)
  | prepareOpen (e : OuterEnvelope) (secret : Key)
  | prepareAcquire (e : OuterEnvelope) (key : Key) (request : InnerExecuteRequest)
  | prepareRecheck (e : OuterEnvelope) (key : Key) (guard : PermitGuard)
  | prepareRegister (e : OuterEnvelope) (key : Key) (guard : PermitGuard)
  | cancel (e : OuterEnvelope)
  | cancelLease (e : OuterEnvelope)
  | cancelLookup (e : OuterEnvelope)
  | cancelSend (e : OuterEnvelope) (channel : Nat)
  | finish (response : OuterEnvelope)
  | clear
  /-- Whatever else happens to the supervisor. -/
  | other

namespace RegistryCall

def isStart : RegistryCall → Bool
  | .prepare _ _ => true
  | .cancel _ => true
  | .finish _ => true
  | .clear => true
  | .other => true
  | _ => false

/-- The number a request has reserved, until it is answered. -/
def pending : RegistryCall → Option UInt64
  | .prepareOpen e _ => some e.sequence
  | .prepareAcquire e _ _ => some e.sequence
  | .prepareRecheck e _ _ => some e.sequence
  | .prepareRegister e _ _ => some e.sequence
  | _ => none

/-- The cancellation this call has authenticated, and where it will send it. -/
def sends : RegistryCall → Option (OuterEnvelope × Nat)
  | .cancelSend e channel => some (e, channel)
  | _ => none

end RegistryCall

/-- What a section reads besides the shared state. -/
structure RegistryInput where
  now : UInt64
  persisted : Except BridgeError Unit
  nonce : Nonce
  /-- The supervisor after something else happened to it. -/
  other : Supervisor

namespace RegistryState

def event (s : RegistryState) (x : RegistryEvent) : RegistryState := { s with log := x :: s.log }

/-- A request that is not executed is answered with a status, if that can be sealed. -/
def refuse (c : Primitives) (s : RegistryState) (e : OuterEnvelope) (status : ExecutionStatus)
    (key : Key) (nonce : Nonce) : RegistryState × Option RegistryCall :=
  match sealStatusResponse c status e key nonce with
  | .error _ => (s, none)
  | .ok _ => (s.event (.refused (.fromEnvelope e)), none)

def register (s : RegistryState) (e : OuterEnvelope) (key : Key) : RegistryState :=
  { s with
    registry := s.registry.insert (.fromEnvelope e) ⟨s.signals.length, key⟩
    signals := s.signals ++ [false] }.event (.admitted (.fromEnvelope e) ⟨s.signals.length, key⟩)

/-- The next section of a call, and the rest of it. -/
def run (c : Primitives) (s : RegistryState) (i : RegistryInput) :
    RegistryCall → RegistryState × Option RegistryCall
  | .prepare e secret =>
    match s.sup.enterRemote e with
    | .error _ => (s, none)
    | .ok () => (s, some (.prepareLease e secret))
  | .prepareLease e secret =>
    match Execution.leaseAdmits s.sup e.generation i.now with
    | .error _ => (s, none)
    | .ok () => (s, some (.prepareReserve e secret))
  | .prepareReserve e secret =>
    match s.sup.reserveRemoteSequence e.sequence i.persisted with
    | (_, .error _) => (s, none)
    | (sup, .ok ()) => ({ s with sup := sup }, some (.prepareOpen e secret))
  | .prepareOpen e secret =>
    match openRemote c s.sup.config e secret with
    | .error _ => (s, none)
    | .ok (key, none) => s.refuse c e .protocolError key i.nonce
    | .ok (key, some request) => (s, some (.prepareAcquire e key request))
  | .prepareAcquire e key request =>
    match s.sup.acquireRemote e request with
    | (_, .error status) => s.refuse c e status key i.nonce
    | (sup, .ok guard) => ({ s with sup := sup }, some (.prepareRecheck e key guard))
  | .prepareRecheck e key guard =>
    if s.sup.cancelled then
      { s with sup := s.sup.dropGuard guard }.refuse c e .bindingRevoked key i.nonce
    else (s, some (.prepareRegister e key guard))
  | .prepareRegister e key guard =>
    if .fromEnvelope e ∈ s.registry then ({ s with sup := s.sup.dropGuard guard }, none)
    else (s.register e key, none)
  | .cancel e =>
    match s.sup.enterCancel e with
    | .error _ => (s, none)
    | .ok () => (s, some (.cancelLease e))
  | .cancelLease e =>
    match Execution.leaseAccepts s.sup e.generation with
    | .error _ => (s, none)
    | .ok () => (s, some (.cancelLookup e))
  | .cancelLookup e =>
    match s.registry.lookup (.fromEnvelope e) with
    | none => (s, none)
    | some active =>
      match openCancel c e active.sessionKey with
      | .error _ => (s, none)
      | .ok _ => (s, some (.cancelSend e active.channel))
  | .cancelSend e channel =>
    ({ s with signals := s.signals.set channel true }.event (.raised e), none)
  | .finish response =>
    ({ s with registry := s.registry.erase (.fromEnvelope response) }.event
      (.finished (.fromEnvelope response)), none)
  | .clear => ({ s with registry := ∅ }.event .cleared, none)
  | .other =>
    ({ s with
        sup :=
          { i.other with
            config := s.sup.config
            highestRemoteSequence := s.sup.highestRemoteSequence } }, none)

end RegistryState

def registryObject (c : Primitives) : Object RegistryInput RegistryState RegistryCall where
  init := fun s => (∃ config highest now, Supervisor.new config highest now = .ok s.sup) ∧
    s.registry = ∅ ∧ s.signals = [] ∧ s.log = []
  start := fun k => k.isStart = true
  sec := fun s k i s' k' => s.run c i k = (s', k')

/-! ## What one section does -/

/-- `e` is a cancellation sealed under the session key of this request. -/
def Authenticates (c : Primitives) (e : OuterEnvelope) (request : Registered) : Prop :=
  ∃ cancel, openCancel c e request.sessionKey = .ok cancel

inductive RegistryEffect (c : Primitives) (s : RegistryState) (k : RegistryCall)
    (s' : RegistryState) (k' : Option RegistryCall) : Prop where
  | quiet (registry : s'.registry = s.registry) (signals : s'.signals = s.signals)
      (highest : s'.sup.highestRemoteSequence = s.sup.highestRemoteSequence) (log : s'.log = s.log)
      (pending : k'.bind RegistryCall.pending = none ∨ k'.bind RegistryCall.pending = k.pending)
      (sends : ∀ e n, k'.bind RegistryCall.sends = some (e, n) →
        ∃ r, s.registry.lookup (.fromEnvelope e) = some r ∧ r.channel = n ∧ Authenticates c e r)
  | reserve (q : UInt64) (higher : s.sup.highestRemoteSequence < q)
      (registry : s'.registry = s.registry) (signals : s'.signals = s.signals)
      (highest : s'.sup.highestRemoteSequence = q) (log : s'.log = s.log)
      (hk : k.pending = none) (pending : k'.bind RegistryCall.pending = some q)
      (sends : k'.bind RegistryCall.sends = none)
  | refuse (e : OuterEnvelope) (hk : k.pending = some e.sequence) (hk' : k' = none)
      (registry : s'.registry = s.registry) (signals : s'.signals = s.signals)
      (highest : s'.sup.highestRemoteSequence = s.sup.highestRemoteSequence)
      (log : s'.log = .refused (.fromEnvelope e) :: s.log)
  | register (e : OuterEnvelope) (key : Key) (hk : k.pending = some e.sequence) (hk' : k' = none)
      (state : s' = s.register e key)
  | send (e : OuterEnvelope) (n : Nat) (i : RegistryInput) (hk : k = .cancelSend e n)
      (hk' : k' = none)
      (state : s' = { s with signals := s.signals.set n true, log := .raised e :: s.log })
  | finish (response : OuterEnvelope) (hk : k = .finish response) (hk' : k' = none)
      (state : s' = { s with
        registry := s.registry.erase (.fromEnvelope response)
        log := .finished (.fromEnvelope response) :: s.log })
  | clear (hk : k = .clear) (hk' : k' = none)
      (state : s' = { s with registry := ∅, log := .cleared :: s.log })

namespace RegistryState

variable {c : Primitives} {s s' : RegistryState} {k : RegistryCall} {k' : Option RegistryCall}

theorem run_prepare {i : RegistryInput} {e : OuterEnvelope} {secret : Key}
    (h : s.sup.enterRemote e = .ok ()) :
    s.run c i (.prepare e secret) = (s, some (.prepareLease e secret)) := by
  simp only [run, h]

theorem run_open {i : RegistryInput} {e : OuterEnvelope} {secret key : Key}
    {request : InnerExecuteRequest}
    (h : openRemote c s.sup.config e secret = .ok (key, some request)) :
    s.run c i (.prepareOpen e secret) = (s, some (.prepareAcquire e key request)) := by
  simp only [run, h]

theorem run_cancel {i : RegistryInput} {e : OuterEnvelope} (h : s.sup.enterCancel e = .ok ()) :
    s.run c i (.cancel e) = (s, some (.cancelLease e)) := by
  simp only [run, h]

theorem refuse_effect {e : OuterEnvelope} {status : ExecutionStatus} {key : Key} {nonce : Nonce}
    (hk : k.pending = some e.sequence) {sup : Supervisor}
    (hsup : sup.highestRemoteSequence = s.sup.highestRemoteSequence)
    (h : ({ s with sup := sup } : RegistryState).refuse c e status key nonce = (s', k')) :
    RegistryEffect c s k s' k' := by
  unfold refuse at h
  split at h
  · cases h
    exact .quiet rfl rfl hsup rfl (.inl rfl) nofun
  · cases h
    exact .refuse e hk rfl rfl rfl hsup rfl

theorem run_effect {i : RegistryInput} (h : s.run c i k = (s', k')) :
    RegistryEffect c s k s' k' := by
  cases k with
  | prepare e secret =>
    simp only [run] at h
    split at h <;> cases h <;> exact .quiet rfl rfl rfl rfl (.inl rfl) nofun
  | prepareLease e secret =>
    simp only [run] at h
    split at h <;> cases h <;> exact .quiet rfl rfl rfl rfl (.inl rfl) nofun
  | prepareReserve e secret =>
    simp only [run] at h
    split at h
    · cases h
      exact .quiet rfl rfl rfl rfl (.inl rfl) nofun
    · rename_i sup hr
      obtain ⟨hlt, -, rfl⟩ := Supervisor.reserveRemoteSequence_ok hr
      cases h
      exact .reserve e.sequence hlt rfl rfl rfl rfl rfl rfl rfl
  | prepareOpen e secret =>
    simp only [run] at h
    split at h
    · cases h
      exact .quiet rfl rfl rfl rfl (.inl rfl) nofun
    · exact refuse_effect rfl rfl h
    · cases h
      exact .quiet rfl rfl rfl rfl (.inr rfl) nofun
  | prepareAcquire e key request =>
    simp only [run] at h
    obtain ⟨scheduler, ha⟩ := s.sup.acquireRemote_fst e request
    split at h
    · exact refuse_effect rfl rfl h
    · rename_i sup guard hg
      rw [hg] at ha
      cases ha
      cases h
      exact .quiet rfl rfl rfl rfl (.inr rfl) nofun
  | prepareRecheck e key guard =>
    simp only [run] at h
    have hsup : (s.sup.dropGuard guard).highestRemoteSequence = s.sup.highestRemoteSequence := rfl
    split at h
    · exact refuse_effect rfl hsup h
    · cases h
      exact .quiet rfl rfl rfl rfl (.inr rfl) nofun
  | prepareRegister e key guard =>
    simp only [run] at h
    split at h
    · cases h
      exact .quiet rfl rfl rfl rfl (.inl rfl) nofun
    · cases h
      exact .register e key rfl rfl rfl
  | cancel e =>
    simp only [run] at h
    split at h <;> cases h <;> exact .quiet rfl rfl rfl rfl (.inl rfl) nofun
  | cancelLease e =>
    simp only [run] at h
    split at h <;> cases h <;> exact .quiet rfl rfl rfl rfl (.inl rfl) nofun
  | cancelLookup e =>
    simp only [run] at h
    split at h
    · cases h
      exact .quiet rfl rfl rfl rfl (.inl rfl) nofun
    · rename_i active hl
      split at h
      · cases h
        exact .quiet rfl rfl rfl rfl (.inl rfl) nofun
      · rename_i cancel ho
        cases h
        refine .quiet rfl rfl rfl rfl (.inl rfl) fun e' n hs => ?_
        cases hs
        exact ⟨active, hl, rfl, cancel, ho⟩
  | cancelSend e n => cases h; exact .send e n i rfl rfl rfl
  | finish response => cases h; exact .finish response rfl rfl rfl
  | clear => cases h; exact .clear rfl rfl rfl
  | other => cases h; exact .quiet rfl rfl rfl rfl (.inl rfl) nofun

end RegistryState

/-! ## The invariant -/

/-- The registration of a key: its last admission, unless it was finished or cleared since. -/
def live : List RegistryEvent → RemoteRequestKey → Option Registered
  | [], _ => none
  | .admitted key request :: log, key' => if key' = key then some request else live log key'
  | .finished key :: log, key' => if key' = key then none else live log key'
  | .cleared :: _, _ => none
  | .refused _ :: log, key' => live log key'
  | .raised _ :: log, key' => live log key'

namespace RegistryEvent

/-- The request an event answers. -/
def answers : RegistryEvent → Option RemoteRequestKey
  | .admitted key _ => some key
  | .refused key => some key
  | _ => none

def channel : RegistryEvent → Option Nat
  | .admitted _ request => some request.channel
  | _ => none

end RegistryEvent

def answeredKeys (log : List RegistryEvent) : List RemoteRequestKey :=
  log.filterMap RegistryEvent.answers

def madeChannels (log : List RegistryEvent) : List Nat := log.filterMap RegistryEvent.channel

/-- Two entries of a list with one image, all images being different, are the same. -/
theorem filterMap_injOn {α β : Type} {f : α → Option β} {xs : List α} (h : (xs.filterMap f).Nodup)
    {x y : α} {b : β} (hx : x ∈ xs) (hy : y ∈ xs) (hfx : f x = some b) (hfy : f y = some b) :
    x = y := by
  by_contra hne
  have hp := List.pairwise_filterMap.mp h
  have hsymm : Std.Symm fun a a' => ∀ b, f a = some b → ∀ b', f a' = some b' → b ≠ b' :=
    ⟨fun a a' h b hb b' hb' => (h b' hb' b hb).symm⟩
  exact hp.forall hx hy hne b hfx b hfy rfl

/-- The calls that have reserved the number `q`, and the answers with it. -/
def numberCount (cfg : Config RegistryState RegistryCall) (q : UInt64) : Nat :=
  (cfg.calls.countP fun k => k.pending = some q) +
    ((answeredKeys cfg.shared.log).map RemoteRequestKey.sequence).count q

structure RegistryInv (c : Primitives) (cfg : Config RegistryState RegistryCall) : Prop where
  numbers : ∀ q, numberCount cfg q ≤ if q ≤ cfg.shared.sup.highestRemoteSequence then 1 else 0
  registry : ∀ key, cfg.shared.registry.lookup key = live cfg.shared.log key
  channels : madeChannels cfg.shared.log = (List.range cfg.shared.signals.length).reverse
  signals : ∀ key request, .admitted key request ∈ cfg.shared.log →
    (cfg.shared.signals[request.channel]? = some true ↔
      ∃ e, .raised e ∈ cfg.shared.log ∧ .fromEnvelope e = key)
  raised : ∀ e, .raised e ∈ cfg.shared.log →
    ∃ request, .admitted (.fromEnvelope e) request ∈ cfg.shared.log ∧ Authenticates c e request
  sends : ∀ k e n, k ∈ cfg.calls → k.sends = some (e, n) →
    ∃ request, .admitted (.fromEnvelope e) request ∈ cfg.shared.log ∧ request.channel = n ∧
      Authenticates c e request

theorem admitted_of_live {log : List RegistryEvent} {key : RemoteRequestKey}
    {request : Registered} (h : live log key = some request) : .admitted key request ∈ log := by
  induction log with
  | nil => cases h
  | cons x log ih =>
    cases x with
    | admitted key' request' =>
      rw [live] at h
      split at h
      · rename_i heq
        cases h
        rw [heq]
        exact List.mem_cons_self
      · exact List.mem_cons_of_mem _ (ih h)
    | finished key' =>
      rw [live] at h
      split at h
      · cases h
      · exact List.mem_cons_of_mem _ (ih h)
    | cleared => cases h
    | refused key' => exact List.mem_cons_of_mem _ (ih h)
    | raised e => exact List.mem_cons_of_mem _ (ih h)

theorem mem_answeredKeys {log : List RegistryEvent} {x : RegistryEvent} {key : RemoteRequestKey}
    (hx : x ∈ log) (h : x.answers = some key) : key ∈ answeredKeys log :=
  List.mem_filterMap.mpr ⟨x, hx, h⟩

section

variable {c : Primitives} {l r : List RegistryCall} {k : RegistryCall} {k' : Option RegistryCall}
  {s s' : RegistryState}

theorem RegistryInv.answeredKeys_nodup {cfg : Config RegistryState RegistryCall}
    (hi : RegistryInv c cfg) : (answeredKeys cfg.shared.log).Nodup := by
  refine List.Nodup.of_map RemoteRequestKey.sequence (List.nodup_iff_count_le_one.mpr fun q => ?_)
  have h := hi.numbers q
  unfold numberCount at h
  split at h <;> omega

/-- A request under way has not been answered. -/
theorem RegistryInv.unanswered (hi : RegistryInv c ⟨s, l ++ k :: r⟩) {key : RemoteRequestKey}
    (hk : k.pending = some key.sequence) : key ∉ answeredKeys s.log := by
  intro hmem
  have h := hi.numbers key.sequence
  have hp : 0 < (l ++ k :: r).countP fun k => k.pending = some key.sequence :=
    List.countP_pos_iff.mpr ⟨k, by simp, by simpa using hk⟩
  have ha : 0 < ((answeredKeys s.log).map RemoteRequestKey.sequence).count key.sequence :=
    List.count_pos_iff.mpr (List.mem_map_of_mem hmem)
  unfold numberCount at h
  dsimp only at h
  split at h <;> omega

theorem pendingNumber_advance (q : UInt64) (l r : List RegistryCall) (k : RegistryCall)
    (k' : Option RegistryCall) :
    (l ++ k'.toList ++ r).countP (fun k => k.pending = some q) +
        (if k.pending = some q then 1 else 0) =
      (l ++ k :: r).countP (fun k => k.pending = some q) +
        (if k'.bind RegistryCall.pending = some q then 1 else 0) := by
  have h := countP_advance (fun k => decide (RegistryCall.pending k = some q)) l r k k'
  have hk : k'.any (fun k => decide (k.pending = some q)) =
      decide (k'.bind RegistryCall.pending = some q) := by cases k' <;> simp
  rw [hk] at h
  simpa only [Bool.toNat, Bool.cond_decide] using h

theorem highest_step (he : RegistryEffect c s k s' k') :
    s'.sup.highestRemoteSequence = s.sup.highestRemoteSequence ∨
      s.sup.highestRemoteSequence < s'.sup.highestRemoteSequence := by
  cases he with
  | quiet registry signals highest log pending sends => exact .inl highest
  | reserve q higher registry signals highest log hk pending sends => exact .inr (highest ▸ higher)
  | refuse e hk hk' registry signals highest log => exact .inl highest
  | register e key hk hk' state =>
    subst state
    exact .inl rfl
  | send e n i hk hk' state =>
    subst state
    exact .inl rfl
  | finish response hk hk' state =>
    subst state
    exact .inl rfl
  | clear hk hk' state =>
    subst state
    exact .inl rfl

/-- Only the reservation adds a use of a number, and it takes a new one. -/
theorem numberCount_step (he : RegistryEffect c s k s' k') (q : UInt64) :
    numberCount ⟨s', l ++ k'.toList ++ r⟩ q ≤ numberCount ⟨s, l ++ k :: r⟩ q +
      if s.sup.highestRemoteSequence < q ∧ q = s'.sup.highestRemoteSequence then 1 else 0 := by
  have hp := pendingNumber_advance q l r k k'
  unfold numberCount
  dsimp only
  cases he with
  | quiet registry signals highest log pending sends =>
    refine Nat.le_trans ?_ (Nat.le_add_right _ _)
    rw [log]
    rcases pending with h0 | h0
    · simp only [h0, reduceCtorEq, if_false] at hp
      omega
    · rw [h0] at hp
      omega
  | reserve q0 higher registry signals highest log hk pending sends =>
    rw [highest, log]
    simp only [hk, pending, reduceCtorEq, if_false, Option.some.injEq] at hp
    by_cases h0 : q0 = q
    · subst h0
      rw [if_pos ⟨higher, rfl⟩]
      simp only [if_true] at hp
      omega
    · refine Nat.le_trans ?_ (Nat.le_add_right _ _)
      simp only [h0, if_false] at hp
      omega
  | refuse e hk hk' registry signals highest log =>
    subst hk'
    have ha : answeredKeys (.refused (.fromEnvelope e) :: s.log) =
        .fromEnvelope e :: answeredKeys s.log := rfl
    refine Nat.le_trans ?_ (Nat.le_add_right _ _)
    simp only [hk, Option.bind_none, reduceCtorEq, if_false, Option.some.injEq] at hp
    rw [log, ha, List.map_cons, List.count_cons]
    simp only [RemoteRequestKey.fromEnvelope, beq_iff_eq]
    omega
  | register e key hk hk' state =>
    subst hk' state
    have ha : answeredKeys (s.register e key).log =
        .fromEnvelope e :: answeredKeys s.log := rfl
    refine Nat.le_trans ?_ (Nat.le_add_right _ _)
    simp only [hk, Option.bind_none, reduceCtorEq, if_false, Option.some.injEq] at hp
    rw [ha, List.map_cons, List.count_cons]
    simp only [RemoteRequestKey.fromEnvelope, beq_iff_eq]
    omega
  | send e n i hk hk' state =>
    subst hk hk' state
    exact Nat.le_trans (Nat.le_of_eq (congrArg (· + _) hp)) (Nat.le_add_right _ _)
  | finish response hk hk' state =>
    subst hk hk' state
    exact Nat.le_trans (Nat.le_of_eq (congrArg (· + _) hp)) (Nat.le_add_right _ _)
  | clear hk hk' state =>
    subst hk hk' state
    exact Nat.le_trans (Nat.le_of_eq (congrArg (· + _) hp)) (Nat.le_add_right _ _)

/-- A number is used once, and only up to the highest one. `past` are uses before this process. -/
theorem numbers_step (he : RegistryEffect c s k s' k') (past : UInt64 → Nat)
    (hn : ∀ q, numberCount ⟨s, l ++ k :: r⟩ q + past q ≤
      if q ≤ s.sup.highestRemoteSequence then 1 else 0) (q : UInt64) :
    numberCount ⟨s', l ++ k'.toList ++ r⟩ q + past q ≤
      if q ≤ s'.sup.highestRemoteSequence then 1 else 0 := by
  have hq := hn q
  have hc := numberCount_step (l := l) (r := r) he q
  split at hc
  · rename_i hnew
    rw [if_neg (UInt64.not_le.mpr hnew.1)] at hq
    rw [if_pos (UInt64.le_of_eq hnew.2)]
    omega
  · refine Nat.le_trans (Nat.le_trans (by omega) hq) ?_
    split
    · rename_i hle
      rw [if_pos]
      rcases highest_step he with h | h
      · exact h ▸ hle
      · exact UInt64.le_trans hle (UInt64.le_of_lt h)
    · exact Nat.zero_le _

theorem registry_step (he : RegistryEffect c s k s' k')
    (hr : ∀ key, s.registry.lookup key = live s.log key) (key : RemoteRequestKey) :
    s'.registry.lookup key = live s'.log key := by
  cases he with
  | quiet registry signals highest log pending sends => rw [registry, log, hr]
  | reserve q higher registry signals highest log hk pending sends => rw [registry, log, hr]
  | refuse e hk hk' registry signals highest log => rw [registry, log, hr, live]
  | register e key0 hk hk' state =>
    subst state
    show (s.registry.insert _ _).lookup key = live (_ :: s.log) key
    rw [live]
    by_cases h : key = .fromEnvelope e
    · rw [if_pos h, h, Finmap.lookup_insert]
    · rw [if_neg h, Finmap.lookup_insert_of_ne _ h, hr]
  | send e n i hk hk' state =>
    subst state
    exact hr key
  | finish response hk hk' state =>
    subst state
    show (s.registry.erase _).lookup key = live (_ :: s.log) key
    rw [live]
    by_cases h : key = .fromEnvelope response
    · rw [if_pos h, h, Finmap.lookup_erase]
    · rw [if_neg h, Finmap.lookup_erase_ne h, hr]
  | clear hk hk' state =>
    subst state
    exact Finmap.lookup_empty key

theorem channels_step (he : RegistryEffect c s k s' k')
    (hc : madeChannels s.log = (List.range s.signals.length).reverse) :
    madeChannels s'.log = (List.range s'.signals.length).reverse := by
  cases he with
  | quiet registry signals highest log pending sends => rw [signals, log, hc]
  | reserve q higher registry signals highest log hk pending sends => rw [signals, log, hc]
  | refuse e hk hk' registry signals highest log =>
    rw [signals, log, ← hc]
    rfl
  | register e key hk hk' state =>
    subst state
    show s.signals.length :: madeChannels s.log = (List.range (s.signals ++ [false]).length).reverse
    rw [hc, List.length_append, List.length_singleton, List.range_succ, List.reverse_append,
      List.reverse_singleton, List.singleton_append]
  | send e n i hk hk' state =>
    subst state
    show madeChannels s.log = (List.range (s.signals.set n true).length).reverse
    rw [List.length_set, hc]
  | finish response hk hk' state => subst state; exact hc
  | clear hk hk' state => subst state; exact hc

/-- What is in the log stays there. -/
theorem log_step (he : RegistryEffect c s k s' k') : ∀ x ∈ s.log, x ∈ s'.log := by
  intro x hx
  cases he with
  | quiet registry signals highest log pending sends => rwa [log]
  | reserve q higher registry signals highest log hk pending sends => rwa [log]
  | refuse e hk hk' registry signals highest log => rw [log]; exact List.mem_cons_of_mem _ hx
  | register e key hk hk' state => subst state; exact List.mem_cons_of_mem _ hx
  | send e n i hk hk' state => subst state; exact List.mem_cons_of_mem _ hx
  | finish response hk hk' state => subst state; exact List.mem_cons_of_mem _ hx
  | clear hk hk' state => subst state; exact List.mem_cons_of_mem _ hx

theorem RegistryInv.channel_lt {cfg : Config RegistryState RegistryCall} (hi : RegistryInv c cfg)
    {key : RemoteRequestKey} {request : Registered}
    (h : .admitted key request ∈ cfg.shared.log) :
    request.channel < cfg.shared.signals.length := by
  have hm : request.channel ∈ madeChannels cfg.shared.log := List.mem_filterMap.mpr ⟨_, h, rfl⟩
  rw [hi.channels] at hm
  exact List.mem_range.mp (List.mem_reverse.mp hm)

/-- A channel belongs to one admission. -/
theorem RegistryInv.channel_inj {cfg : Config RegistryState RegistryCall} (hi : RegistryInv c cfg)
    {key key' : RemoteRequestKey} {request request' : Registered}
    (h : .admitted key request ∈ cfg.shared.log) (h' : .admitted key' request' ∈ cfg.shared.log)
    (hc : request'.channel = request.channel) : key' = key ∧ request' = request := by
  have hn : (madeChannels cfg.shared.log).Nodup := by
    rw [hi.channels]
    exact List.nodup_reverse.mpr List.nodup_range
  have hinj := filterMap_injOn hn h' h (congrArg some hc) rfl
  cases hinj
  exact ⟨rfl, rfl⟩

/-- A key is admitted at most once. -/
theorem RegistryInv.admitted_inj {cfg : Config RegistryState RegistryCall} (hi : RegistryInv c cfg)
    {key : RemoteRequestKey} {request request' : Registered}
    (h : .admitted key request ∈ cfg.shared.log)
    (h' : .admitted key request' ∈ cfg.shared.log) : request' = request := by
  have hinj := filterMap_injOn hi.answeredKeys_nodup h' h rfl rfl
  cases hinj
  rfl

theorem signals_step (hi : RegistryInv c ⟨s, l ++ k :: r⟩) (he : RegistryEffect c s k s' k')
    {key : RemoteRequestKey} {request : Registered} (h : .admitted key request ∈ s'.log) :
    s'.signals[request.channel]? = some true ↔ ∃ e, .raised e ∈ s'.log ∧ .fromEnvelope e = key := by
  cases he with
  | quiet registry signals highest log pending sends =>
    rw [log] at h
    rw [signals, log]
    exact hi.signals key request h
  | reserve q higher registry signals highest log hk pending sends =>
    rw [log] at h
    rw [signals, log]
    exact hi.signals key request h
  | refuse e hk hk' registry signals highest log =>
    rw [log] at h
    rw [signals, log]
    simpa using hi.signals key request ((List.mem_cons.mp h).resolve_left nofun)
  | register e sessionKey hk hk' state =>
    subst state
    show (s.signals ++ [false])[request.channel]? = some true ↔
      ∃ e', RegistryEvent.raised e' ∈ RegistryEvent.admitted _ _ :: s.log ∧ _
    cases List.mem_cons.mp h with
    | inl heq =>
      -- its key is new, so no cancellation has named it
      cases heq
      have hnew : RemoteRequestKey.fromEnvelope e ∉ _ := hi.unanswered hk
      rw [List.getElem?_concat_length]
      refine ⟨nofun, ?_⟩
      rintro ⟨e', he', hkey⟩
      obtain ⟨request, hadm, -⟩ := hi.raised e' ((List.mem_cons.mp he').resolve_left nofun)
      rw [hkey] at hadm
      exact absurd (mem_answeredKeys hadm rfl) hnew
    | inr hmem =>
      rw [List.getElem?_append_left (hi.channel_lt hmem)]
      simpa using hi.signals key request hmem
  | send e n i hk hk' state =>
    subst state
    have hmem : .admitted key request ∈ s.log := (List.mem_cons.mp h).resolve_left nofun
    obtain ⟨named, hadm, hn, -⟩ := hi.sends k e n (by simp) (by rw [hk]; rfl)
    have hlt := hi.channel_lt hmem
    show (s.signals.set n true)[request.channel]? = some true ↔
      ∃ e', RegistryEvent.raised e' ∈ RegistryEvent.raised e :: s.log ∧ _
    by_cases hch : n = request.channel
    · obtain ⟨hkey, -⟩ := hi.channel_inj hmem hadm (hn.trans hch)
      rw [hch, List.getElem?_set_self hlt]
      exact iff_of_true rfl ⟨e, List.mem_cons_self, hkey⟩
    · rw [List.getElem?_set_ne hch]
      have hne : .fromEnvelope e ≠ key := by
        intro hkey
        rw [hkey] at hadm
        exact hch (hn.symm.trans (congrArg Registered.channel (hi.admitted_inj hmem hadm)))
      rw [hi.signals key request hmem]
      constructor
      · rintro ⟨e', he', hkey⟩
        exact ⟨e', List.mem_cons_of_mem _ he', hkey⟩
      · rintro ⟨e', he', hkey⟩
        cases List.mem_cons.mp he' with
        | inl heq => cases heq; exact absurd hkey hne
        | inr hmem' => exact ⟨e', hmem', hkey⟩
  | finish response hk hk' state =>
    subst state
    simpa using hi.signals key request ((List.mem_cons.mp h).resolve_left nofun)
  | clear hk hk' state =>
    subst state
    simpa using hi.signals key request ((List.mem_cons.mp h).resolve_left nofun)

theorem raised_step (he : RegistryEffect c s k s' k') {e : OuterEnvelope}
    (h : .raised e ∈ s'.log) :
    .raised e ∈ s.log ∨ ∃ n, k = .cancelSend e n := by
  cases he with
  | quiet registry signals highest log pending sends => rw [log] at h; exact .inl h
  | reserve q higher registry signals highest log hk pending sends => rw [log] at h; exact .inl h
  | refuse e' hk hk' registry signals highest log =>
    rw [log] at h
    exact .inl ((List.mem_cons.mp h).resolve_left nofun)
  | register e' key hk hk' state => subst state; exact .inl ((List.mem_cons.mp h).resolve_left nofun)
  | send e' n i hk hk' state =>
    subst state
    cases List.mem_cons.mp h with
    | inl heq => cases heq; exact .inr ⟨n, hk⟩
    | inr hmem => exact .inl hmem
  | finish response hk hk' state => subst state; exact .inl ((List.mem_cons.mp h).resolve_left nofun)
  | clear hk hk' state => subst state; exact .inl ((List.mem_cons.mp h).resolve_left nofun)

/-- A call about to send has looked up the request it names. -/
theorem sends_step (hi : RegistryInv c ⟨s, l ++ k :: r⟩) (he : RegistryEffect c s k s' k')
    {e : OuterEnvelope} {n : Nat} (h : k'.bind RegistryCall.sends = some (e, n)) :
    ∃ request, .admitted (.fromEnvelope e) request ∈ s.log ∧ request.channel = n ∧
      Authenticates c e request := by
  cases he with
  | quiet registry signals highest log pending sends =>
    obtain ⟨request, hl, hn, ha⟩ := sends e n h
    have hlive := hi.registry (.fromEnvelope e)
    dsimp only at hlive
    rw [hl] at hlive
    exact ⟨request, admitted_of_live hlive.symm, hn, ha⟩
  | reserve q higher registry signals highest log hk pending sends => rw [sends] at h; cases h
  | refuse e' hk hk' registry signals highest log => rw [hk'] at h; cases h
  | register e' key hk hk' state => rw [hk'] at h; cases h
  | send e' n i hk hk' state => rw [hk'] at h; cases h
  | finish response hk hk' state => rw [hk'] at h; cases h
  | clear hk hk' state => rw [hk'] at h; cases h

theorem RegistryInv.advance {i : RegistryInput} (hi : RegistryInv c ⟨s, l ++ k :: r⟩)
    (h : s.run c i k = (s', k')) : RegistryInv c ⟨s', l ++ k'.toList ++ r⟩ := by
  have he := RegistryState.run_effect h
  refine ⟨numbers_step he (fun _ => 0) hi.numbers, registry_step he hi.registry,
    channels_step he hi.channels, fun _ _ hx => signals_step hi he hx, ?_, ?_⟩
  · intro e hx
    cases raised_step he hx with
    | inl hold =>
      obtain ⟨request, hadm, ha⟩ := hi.raised e hold
      exact ⟨request, log_step he _ hadm, ha⟩
    | inr hsend =>
      obtain ⟨n, hk⟩ := hsend
      obtain ⟨request, hadm, -, ha⟩ := hi.sends k e n (by simp) (by rw [hk]; rfl)
      exact ⟨request, log_step he _ hadm, ha⟩
  · intro x e n hx hs
    cases mem_before_advance k hx with
    | inl hk' =>
      subst hk'
      obtain ⟨request, hadm, hn, ha⟩ := sends_step hi he hs
      exact ⟨request, log_step he _ hadm, hn, ha⟩
    | inr hx' =>
      obtain ⟨request, hadm, hn, ha⟩ := hi.sends x e n hx' hs
      exact ⟨request, log_step he _ hadm, hn, ha⟩

end

theorem RegistryInv.reachable {c : Primitives} {cfg : Config RegistryState RegistryCall}
    (h : (registryObject c).system.Reachable cfg) : RegistryInv c cfg := by
  refine System.invariant ?_ ?_ h
  · rintro ⟨s, calls⟩ ⟨⟨-, hreg, hsig, hlog⟩, hcalls⟩
    obtain ⟨sup, registry, signals, log⟩ := s
    dsimp only at hreg hsig hlog hcalls
    subst hreg hsig hlog hcalls
    refine ⟨fun q => Nat.zero_le _, fun key => Finmap.lookup_empty key, rfl, ?_, ?_, ?_⟩
    · exact fun key request h => absurd h List.not_mem_nil
    · exact fun e h => absurd h List.not_mem_nil
    · exact fun k e n h => absurd h List.not_mem_nil
  · intro cfg a cfg' hi hs
    cases hs with
    | @spawn s ks k hstart =>
      have hstart : k.isStart = true := hstart
      have hpend : k.pending = none := by cases k <;> first | rfl | cases hstart
      have hsends : k.sends = none := by cases k <;> first | rfl | cases hstart
      refine ⟨?_, hi.registry, hi.channels, hi.signals, hi.raised, ?_⟩
      · intro q
        have hq := hi.numbers q
        simpa [numberCount, List.countP_cons, hpend] using hq
      · intro x e n hx hs
        cases List.mem_cons.mp hx with
        | inl h => rw [h, hsends] at hs; cases hs
        | inr h => exact hi.sends x e n h hs
    | advance hsec => exact hi.advance hsec

/-! ## Cancellations -/

/-- The registry's section of a cancellation. -/
theorem cancelLookup_cases (c : Primitives) (s : RegistryState) (i : RegistryInput)
    (e : OuterEnvelope) :
    (∃ request, s.registry.lookup (.fromEnvelope e) = some request ∧ Authenticates c e request ∧
      s.run c i (.cancelLookup e) = (s, some (.cancelSend e request.channel))) ∨
    ((∀ request, s.registry.lookup (.fromEnvelope e) = some request →
      ¬ Authenticates c e request) ∧ s.run c i (.cancelLookup e) = (s, none)) := by
  simp only [RegistryState.run]
  cases hl : s.registry.lookup (.fromEnvelope e) with
  | none => exact .inr ⟨nofun, rfl⟩
  | some request =>
    cases ho : openCancel c e request.sessionKey with
    | ok cancel =>
      refine .inl ⟨request, rfl, ⟨cancel, ho⟩, ?_⟩
      simp only [ho]
    | error error =>
      refine .inr ⟨?_, ?_⟩
      · rintro _ ⟨⟩ ⟨cancel, hc⟩
        rw [ho] at hc
        cases hc
      · simp only [ho]

theorem cancel_quiet (c : Primitives) (s : RegistryState) (i : RegistryInput) (e : OuterEnvelope) :
    (s.run c i (.cancel e)).1 = s ∧ (s.run c i (.cancelLease e)).1 = s := by
  simp only [RegistryState.run]
  constructor <;> split <;> rfl

/-- A registration is taken away by its own answer or by a clearance. -/
theorem registration_kept {c : Primitives} {l r : List RegistryCall} {k : RegistryCall}
    {k' : Option RegistryCall} {s s' : RegistryState} (hi : RegistryInv c ⟨s, l ++ k :: r⟩)
    (he : RegistryEffect c s k s' k') {key : RemoteRequestKey} {request : Registered}
    (h : s.registry.lookup key = some request) :
    s'.registry.lookup key = some request ∨
      (∃ response, k = .finish response ∧ .fromEnvelope response = key) ∨ k = .clear := by
  cases he with
  | quiet registry signals highest log pending sends => exact .inl (by rw [registry, h])
  | reserve q higher registry signals highest log hk pending sends =>
    exact .inl (by rw [registry, h])
  | refuse e hk hk' registry signals highest log => exact .inl (by rw [registry, h])
  | register e sessionKey hk hk' state =>
    -- the request being registered is a new one
    have hnew : RemoteRequestKey.fromEnvelope e ∉ _ := hi.unanswered hk
    have hlive := hi.registry key
    dsimp only at hlive
    rw [h] at hlive
    have hne : key ≠ .fromEnvelope e := by
      intro heq
      subst heq
      exact hnew (mem_answeredKeys (admitted_of_live hlive.symm) rfl)
    subst state
    exact .inl ((Finmap.lookup_insert_of_ne _ hne).trans h)
  | send e n i hk hk' state =>
    subst state
    exact .inl h
  | finish response hk hk' state =>
    subst state
    by_cases hkey : key = .fromEnvelope response
    · exact .inr (.inl ⟨response, hk, hkey.symm⟩)
    · exact .inl ((Finmap.lookup_erase_ne hkey).trans h)
  | clear hk hk' state => exact .inr (.inr hk)

/-- **A cancellation reaches exactly its request**, and an answer takes away exactly its own
registration. -/
theorem cancellation_exact {c : Primitives} {cfg : Config RegistryState RegistryCall}
    (h : (registryObject c).system.Reachable cfg) :
    (answeredKeys cfg.shared.log).Nodup ∧
    (∀ key, cfg.shared.registry.lookup key = live cfg.shared.log key ∧
      (.refused key ∈ cfg.shared.log → cfg.shared.registry.lookup key = none)) ∧
    (∀ key request, .admitted key request ∈ cfg.shared.log →
      (cfg.shared.signals[request.channel]? = some true ↔
        ∃ e, .raised e ∈ cfg.shared.log ∧ .fromEnvelope e = key)) ∧
    (∀ e, .raised e ∈ cfg.shared.log → ∃ request,
      .admitted (.fromEnvelope e) request ∈ cfg.shared.log ∧ Authenticates c e request) ∧
    (∀ e i,
      (cfg.shared.run c i (.cancel e)).1 = cfg.shared ∧
      (cfg.shared.run c i (.cancelLease e)).1 = cfg.shared ∧
      ((∃ request, cfg.shared.registry.lookup (.fromEnvelope e) = some request ∧
          Authenticates c e request ∧
          cfg.shared.run c i (.cancelLookup e) =
            (cfg.shared, some (.cancelSend e request.channel))) ∨
        ((∀ request, cfg.shared.registry.lookup (.fromEnvelope e) = some request →
            ¬ Authenticates c e request) ∧
          cfg.shared.run c i (.cancelLookup e) = (cfg.shared, none)))) ∧
    (∀ a cfg', (registryObject c).system.step cfg a cfg' →
      (∀ e n i, a = .advance (.cancelSend e n) i →
        cfg'.shared.sup = cfg.shared.sup ∧ cfg'.shared.registry = cfg.shared.registry ∧
        ∃ request, .admitted (.fromEnvelope e) request ∈ cfg.shared.log ∧
          Authenticates c e request ∧
          cfg'.shared.signals = cfg.shared.signals.set request.channel true) ∧
      (∀ key request, cfg.shared.registry.lookup key = some request →
        cfg'.shared.registry.lookup key = some request ∨
          (∃ response i, a = .advance (.finish response) i ∧ .fromEnvelope response = key) ∨
          ∃ i, a = .advance .clear i)) ∧
    (∀ inner request key nonce response, sealResponse c inner request key nonce = .ok response →
      RemoteRequestKey.fromEnvelope response = .fromEnvelope request) := by
  have hi := RegistryInv.reachable h
  refine ⟨hi.answeredKeys_nodup, fun key => ⟨hi.registry key, ?_⟩, hi.signals, hi.raised,
    fun e i => ⟨(cancel_quiet c _ i e).1, (cancel_quiet c _ i e).2, cancelLookup_cases c _ i e⟩,
    ?_, fun _ _ _ _ _ hs => sealResponse_key hs⟩
  · intro hrefused
    have hr := hi.registry key
    cases hl : live cfg.shared.log key with
    | none => rw [hr, hl]
    | some request =>
      have hinj := filterMap_injOn hi.answeredKeys_nodup hrefused (admitted_of_live hl) rfl rfl
      cases hinj
  · intro a cfg' hs
    cases hs with
    | spawn hstart =>
      refine ⟨?_, fun _ _ hk => .inl hk⟩
      intro e n i ha
      cases ha
    | @advance s s' l r k i k' hsec =>
      have hsec : s.run c i k = (s', k') := hsec
      have he := RegistryState.run_effect hsec
      refine ⟨?_, fun key request hk => ?_⟩
      · rintro e n _ ⟨⟩
        obtain ⟨request, hadm, hn, ha⟩ := hi.sends (.cancelSend e n) e n (by simp) rfl
        cases hsec
        exact ⟨rfl, rfl, request, hadm, ha, by rw [hn]; rfl⟩
      · rcases registration_kept hi he hk with hkept | ⟨response, rfl, hkey⟩ | rfl
        · exact .inl hkept
        · exact .inr (.inl ⟨response, i, rfl, hkey⟩)
        · exact .inr (.inr ⟨i, rfl⟩)

/-! ## One request, started and cancelled -/

def sampleCancel : InnerCancelRequest where
  protocol := INNER_PROTOCOL_VERSION
  messageType := .cancel
  requestId := "r1"
  sequence := 1

def sampleCancelText : Bytes := canonicalJson sampleCancel.toJson

/-- The cancellation of `sampleEnvelope`. -/
def sampleCancelEnvelope : OuterEnvelope :=
  { sampleEnvelope with
    messageType := .cancel
    payloadBytes := sampleCancelText.length
    ciphertext := encodeB64url sampleCancelText
    keyWrap := "" }

def registryStart : RegistryState := ⟨sampleSupervisor, ∅, [], []⟩

def sampleRegistryInput : RegistryInput := ⟨0, .ok (), sampleNonce, sampleSupervisor⟩

theorem sampleEnvelope_unwraps_plain :
    unwrapSessionKey plainCipher sampleEnvelope.keyWrap sampleKey sampleEnvelope.bindingId
      sampleEnvelope.generation sampleEnvelope.requestId sampleEnvelope.sequence =
        .ok sampleKey := by
  rw [sampleEnvelope_wrap]
  exact unwrapSessionKey_tuple (by decide) (by decide) (plainCipher_opens _ _ _ _)

theorem sampleEnvelope_opened_plain :
    openRemote plainCipher sampleSupervisor.config sampleEnvelope sampleKey =
      .ok (sampleKey, some sampleRequest) := by
  refine openRemote_sealed sampleEnvelope_unwraps_plain sampleEnvelope_carries
    sampleNonce.length_eq List.length_replicate ?_ sampleRequest_valid (by decide) (by decide) rfl
  rw [plainCipher_opens, Message.plaintext]

theorem sampleCancel_carries : sampleCancelEnvelope.Carries sampleCancelText sampleNonce.bytes
    (List.replicate 16 0) where
  ciphertext := by rw [sampleCancelEnvelope, decodeB64_encodeB64url]
  nonce := sampleEnvelope_carries.nonce
  tag := sampleEnvelope_carries.tag

theorem sampleCancelText_length : sampleCancelText.length = 89 := by
  rw [sampleCancelText, canonicalJson_length]
  rfl

theorem sampleCancel_valid : sampleCancelEnvelope.Valid (16 * 1024 * 1024) where
  protocol := rfl
  channel := rfl
  relayBindingKind := rfl
  typed := .inl ⟨rfl, .inr rfl⟩
  requestId := by decide
  bindingId := by decide
  generation := by decide
  sequence := by decide
  payloadBytes := by
    show sampleCancelText.length ≤ 16 * 1024 * 1024
    rw [sampleCancelText_length]
    decide
  payload := by
    refine ⟨_, _, _, sampleCancel_carries, rfl, by decide, rfl, fun h => ?_⟩
    have hl := sampleCancelText_length
    rw [h] at hl
    cases hl
  keyWrap := .inl rfl
  wireSize := by
    rw [OuterEnvelope.wireSize_eq]
    simp only [sampleCancelEnvelope, sampleEnvelope, encodeB64url_size, sampleCancelText_length]
    decide

theorem sampleCancel_authenticates :
    Authenticates plainCipher sampleCancelEnvelope ⟨0, sampleKey⟩ := by
  have hopen : plainCipher.openDetached sampleKey sampleNonce.bytes sampleCancelText
      (List.replicate 16 0) (aadForOuter sampleCancelEnvelope) = .ok sampleCancelText := by
    rw [Primitives.openDetached, if_neg (by decide), plainCipher_opens]
  have hparse : parseStrictJson InnerCancelRequest.ofJson sampleCancelText = .ok sampleCancel :=
    sampleCancel.codec.parse (by decide)
  refine ⟨sampleCancel, ?_⟩
  rw [openCancel, sampleCancel_carries.decodedPayload, orProtocol, ok_bind]
  dsimp only
  rw [hopen, orProtocol, ok_bind, hparse]
  rfl

theorem sampleEnvelope_entered :
    sampleSupervisor.enterRemote sampleEnvelope = .ok () ∧
      Execution.leaseAdmits sampleSupervisor sampleEnvelope.generation 0 = .ok () := by
  have h := sampleEnvelope_checked
  rw [Supervisor.checkRemote_sections] at h
  obtain ⟨_, hentered, hadmitted⟩ := bind_ok h
  exact ⟨hentered, hadmitted⟩

def registryReserved : RegistryState :=
  ⟨{ sampleSupervisor with highestRemoteSequence := 1 }, ∅, [], []⟩

/-- The supervisor that runs the request. -/
def registrySupervisor : Supervisor :=
  (registryReserved.sup.acquireRemote sampleEnvelope sampleRequest).1

def registryGuarded : RegistryState := ⟨registrySupervisor, ∅, [], []⟩

def registryAdmitted : RegistryState where
  sup := registrySupervisor
  registry := Finmap.insert (.fromEnvelope sampleEnvelope) ⟨0, sampleKey⟩ ∅
  signals := [false]
  log := [.admitted (.fromEnvelope sampleEnvelope) ⟨0, sampleKey⟩]

def sampleGuard : PermitGuard := ⟨["binding"], true, 1, "r1"⟩

theorem registry_entered :
    registryStart.run plainCipher sampleRegistryInput (.prepare sampleEnvelope sampleKey) =
      (registryStart, some (.prepareLease sampleEnvelope sampleKey)) :=
  RegistryState.run_prepare sampleEnvelope_entered.1

theorem registry_leased :
    registryStart.run plainCipher sampleRegistryInput (.prepareLease sampleEnvelope sampleKey) =
      (registryStart, some (.prepareReserve sampleEnvelope sampleKey)) := by
  simp only [RegistryState.run, registryStart, sampleRegistryInput, sampleEnvelope_entered.2]

theorem registry_reserved :
    registryStart.run plainCipher sampleRegistryInput (.prepareReserve sampleEnvelope sampleKey) =
      (registryReserved, some (.prepareOpen sampleEnvelope sampleKey)) := rfl

theorem registry_opened :
    registryReserved.run plainCipher sampleRegistryInput (.prepareOpen sampleEnvelope sampleKey) =
      (registryReserved, some (.prepareAcquire sampleEnvelope sampleKey sampleRequest)) :=
  RegistryState.run_open sampleEnvelope_opened_plain

theorem registry_guarded :
    registryReserved.run plainCipher sampleRegistryInput
      (.prepareAcquire sampleEnvelope sampleKey sampleRequest) =
        (registryGuarded, some (.prepareRecheck sampleEnvelope sampleKey sampleGuard)) := rfl

theorem registry_rechecked :
    registryGuarded.run plainCipher sampleRegistryInput
      (.prepareRecheck sampleEnvelope sampleKey sampleGuard) =
        (registryGuarded, some (.prepareRegister sampleEnvelope sampleKey sampleGuard)) := rfl

theorem registry_registered :
    registryGuarded.run plainCipher sampleRegistryInput
      (.prepareRegister sampleEnvelope sampleKey sampleGuard) = (registryAdmitted, none) := by
  rw [RegistryState.run]
  exact if_neg Finmap.notMem_empty

theorem registryAdmitted_reachable :
    (registryObject plainCipher).system.Reachable ⟨registryAdmitted, []⟩ := by
  have h0 : (registryObject plainCipher).system.Reachable ⟨registryStart, []⟩ :=
    .start ⟨⟨⟨.bound, 0, 0, rfl⟩, rfl, rfl, rfl⟩, rfl⟩
  have h1 := Object.spawned h0 (k := .prepare sampleEnvelope sampleKey) rfl
  have h2 := Object.advanced h1 sampleRegistryInput registry_entered
  have h3 := Object.advanced h2 sampleRegistryInput registry_leased
  have h4 := Object.advanced h3 sampleRegistryInput registry_reserved
  have h5 := Object.advanced h4 sampleRegistryInput registry_opened
  have h6 := Object.advanced h5 sampleRegistryInput registry_guarded
  have h7 := Object.advanced h6 sampleRegistryInput registry_rechecked
  exact Object.advanced h7 sampleRegistryInput registry_registered

def registryCancelled : RegistryState :=
  { registryAdmitted with
    signals := [true]
    log := .raised sampleCancelEnvelope :: registryAdmitted.log }

theorem sampleCancel_entered :
    registrySupervisor.enterCancel sampleCancelEnvelope = .ok () := by
  rw [Supervisor.enterCancel, OuterEnvelope.validate_ok.mpr sampleCancel_valid, orProtocol,
    ok_bind]
  rfl

theorem registryCancelled_reachable :
    (registryObject plainCipher).system.Reachable ⟨registryCancelled, []⟩ := by
  let i := sampleRegistryInput
  have h1 := Object.spawned registryAdmitted_reachable (k := .cancel sampleCancelEnvelope) rfl
  have hentered : registryAdmitted.run plainCipher i (.cancel sampleCancelEnvelope) =
      (registryAdmitted, some (.cancelLease sampleCancelEnvelope)) :=
    RegistryState.run_cancel sampleCancel_entered
  have h2 := Object.advanced h1 i hentered
  have hleased : registryAdmitted.run plainCipher i (.cancelLease sampleCancelEnvelope) =
      (registryAdmitted, some (.cancelLookup sampleCancelEnvelope)) := rfl
  have h3 := Object.advanced h2 i hleased
  have hlookup : registryAdmitted.registry.lookup (.fromEnvelope sampleCancelEnvelope) =
      some ⟨0, sampleKey⟩ := Finmap.lookup_insert _
  have hfound : registryAdmitted.run plainCipher i (.cancelLookup sampleCancelEnvelope) =
      (registryAdmitted, some (.cancelSend sampleCancelEnvelope 0)) := by
    rcases cancelLookup_cases plainCipher registryAdmitted i sampleCancelEnvelope with
      ⟨request, hl, -, hrun⟩ | ⟨hnone, -⟩
    · rw [hlookup] at hl
      cases hl
      exact hrun
    · exact absurd sampleCancel_authenticates (hnone _ hlookup)
  have h4 := Object.advanced h3 i hfound
  have hsent : registryAdmitted.run plainCipher i (.cancelSend sampleCancelEnvelope 0) =
      (registryCancelled, none) := rfl
  exact Object.advanced h4 i hsent

/-- The request above is running with its signal up. -/
theorem cancellation_exact_sample :
    registryCancelled.registry.lookup (.fromEnvelope sampleEnvelope) = some ⟨0, sampleKey⟩ ∧
      registryCancelled.signals[0]? = some true := by
  have hadm : .admitted (.fromEnvelope sampleEnvelope) ⟨0, sampleKey⟩ ∈ registryCancelled.log := by
    simp [registryCancelled, registryAdmitted]
  have h := (cancellation_exact registryCancelled_reachable).2.2.1 _ _ hadm
  exact ⟨Finmap.lookup_insert _,
    h.mpr ⟨sampleCancelEnvelope, by simp [registryCancelled], rfl⟩⟩

end Bridge
end EgoBridge
