import EgoBridge.Bridge.Remote

/-!
# Bridge.Relay

What a relay can make of the envelopes it carries, when sealing is ideal.

A `World` is everything ever sealed, by whom, with the session keys the endpoints generated and
what the relay knows. `Ideal` says that an opened text was sealed, that the endpoints and the
bridge seal as their programs do, and that the relay seals with what it knows.

* `running_sealed`   — a request started under a secret key of an endpoint is the one that
                       endpoint sealed, with the same routing, and wrapped the key for.
* `cancelled_sealed` — a request running under such a key is cancelled only by a cancellation
                       that endpoint sealed for it.
* `relay_cannot_alter` — both.
-/

namespace EgoBridge
namespace Bridge

open Protocol Json

inductive Message where
  | execute (request : InnerExecuteRequest)
  | cancel (request : InnerCancelRequest)
  | response (response : InnerExecuteResponse)

def Message.plaintext : Message → Bytes
  | .execute r => canonicalJson r.toJson
  | .cancel r => canonicalJson r.toJson
  | .response r => canonicalJson r.toJson

inductive Party where
  | endpoint (id : Nat)
  | bridge
  | relay

/-- One use of the cipher. -/
inductive Sealing where
  | payload (key : Key) (outer : OuterEnvelope) (message : Message) (nonce : Bytes)
  | keyWrap (wrapKey sessionKey : Key) (bindingId : String) (generation : UInt64)
      (requestId : String) (sequence : UInt64) (nonce : Bytes)
  | other (key : Key) (nonce aad plaintext : Bytes)

namespace Sealing

def key : Sealing → Key
  | .payload key _ _ _ => key
  | .keyWrap wrapKey _ _ _ _ _ _ => wrapKey
  | .other key _ _ _ => key

def nonce : Sealing → Bytes
  | .payload _ _ _ nonce => nonce
  | .keyWrap _ _ _ _ _ _ nonce => nonce
  | .other _ nonce _ _ => nonce

def aad : Sealing → Bytes
  | .payload _ outer _ _ => aadForOuter outer
  | .keyWrap _ _ bindingId generation requestId sequence _ =>
    keyWrapTranscript bindingId generation requestId sequence
  | .other _ _ aad _ => aad

def plaintext : Sealing → Bytes
  | .payload _ _ message _ => message.plaintext
  | .keyWrap _ sessionKey _ _ _ _ _ => sessionKey.bytes
  | .other _ _ _ plaintext => plaintext

end Sealing

structure World where
  crypto : Primitives
  sealedBy : Party → Sealing → Prop
  /-- The session keys each endpoint has generated. -/
  generated : Nat → Key → Prop
  relayKnows : Bytes → Prop

/-- What an endpoint seals: its own messages under its own keys, and the wraps of these keys, for
binding ids that an envelope may carry. -/
def World.endpointSeals (w : World) (id : Nat) : Sealing → Prop
  | .payload key _ _ _ => w.generated id key
  | .keyWrap _ sessionKey bindingId _ _ _ _ =>
    w.generated id sessionKey ∧ validTextId bindingId 128 = true
  | .other _ _ _ _ => False

/-- What the bridge seals: answers. -/
def bridgeSeals : Sealing → Prop
  | .payload _ outer (.response _) _ => ∃ request size, outer = responseEnvelope request size
  | _ => False

structure World.Ideal (w : World) : Prop where
  sealed_of_opened : ∀ {key : Key} {nonce aad text plaintext : Bytes},
    w.crypto.decrypt key nonce aad text = some plaintext →
      ∃ party x, w.sealedBy party x ∧ x.key = key ∧ x.nonce = nonce ∧ x.aad = aad ∧
        x.plaintext = plaintext
  endpoint : ∀ {id : Nat} {x : Sealing}, w.sealedBy (.endpoint id) x → w.endpointSeals id x
  bridge : ∀ {x : Sealing}, w.sealedBy .bridge x → bridgeSeals x
  relay : ∀ {x : Sealing}, w.sealedBy .relay x →
    w.relayKnows x.key.bytes ∧ w.relayKnows x.plaintext
  fresh : ∀ {i j : Nat} {key : Key}, w.generated i key → w.generated j key → i = j

/-- An endpoint generated the key, and the relay does not know it. -/
structure World.Secret (w : World) (id : Nat) (key : Key) : Prop where
  generated : w.generated id key
  unknown : ¬ w.relayKnows key.bytes

/-! ## Texts of one type are not texts of another -/

/-- A sealed message that reads as an execute request is that request. -/
theorem Message.eq_execute {m : Message} {request : InnerExecuteRequest}
    (h : parseStrictJson InnerExecuteRequest.ofJson m.plaintext = .ok request) :
    m = .execute request := by
  cases m with
  | execute r =>
    rw [Message.plaintext, r.codec.parse (by decide)] at h
    cases h
    rfl
  | cancel r =>
    rw [Message.plaintext] at h
    refine absurd h (r.codec.not_parsed (by decide) ?_)
    rw [InnerExecuteRequest.ofJson, InnerCancelRequest.toJson,
      fields_unknown (k := "request_id") (by simp [InnerCancelRequest.members])
        (by simp [InnerExecuteRequest.names])]
    rfl
  | response r =>
    rw [Message.plaintext] at h
    refine absurd h (r.codec.not_parsed (by decide) ?_)
    rw [InnerExecuteRequest.ofJson, InnerExecuteResponse.toJson,
      fields_unknown (k := "request_id") (by simp [InnerExecuteResponse.members])
        (by simp [InnerExecuteRequest.names])]
    rfl

theorem Message.eq_cancel {m : Message} {request : InnerCancelRequest}
    (h : parseStrictJson InnerCancelRequest.ofJson m.plaintext = .ok request) :
    m = .cancel request := by
  cases m with
  | cancel r =>
    rw [Message.plaintext, r.codec.parse (by decide)] at h
    cases h
    rfl
  | execute r =>
    rw [Message.plaintext] at h
    refine absurd h (r.codec.not_parsed (by decide) ?_)
    rw [InnerCancelRequest.ofJson, InnerExecuteRequest.toJson,
      fields_unknown (k := "script") (by simp [InnerExecuteRequest.members])
        (by simp [InnerCancelRequest.names])]
    rfl
  | response r =>
    rw [Message.plaintext] at h
    refine absurd h (r.codec.not_parsed (by decide) ?_)
    rw [InnerCancelRequest.ofJson, InnerExecuteResponse.toJson,
      fields_unknown (k := "status") (by simp [InnerExecuteResponse.members])
        (by simp [InnerCancelRequest.names])]
    rfl

/-! ## What opened was sealed by the endpoint -/

section

variable {w : World} (hw : w.Ideal) {id : Nat} {key : Key} (hk : w.Secret id key)

include hw hk

/-- A request envelope that opens under a secret key carries a message of the key's endpoint. -/
theorem opened_sealed {e : OuterEnvelope} {plaintext : Bytes} (hd : e.direction = .request)
    (h : Opens w.crypto key e plaintext) :
    ∃ outer message nonce, w.sealedBy (.endpoint id) (.payload key outer message nonce) ∧
      outer.SameRouting e ∧ message.plaintext = plaintext := by
  obtain ⟨_, nonce, _, _, hdec⟩ := h
  obtain ⟨party, x, hx, hkey, _, haad, hpt⟩ := hw.sealed_of_opened hdec
  cases party with
  | relay =>
    obtain ⟨hknown, _⟩ := hw.relay hx
    rw [hkey] at hknown
    exact absurd hknown hk.unknown
  | bridge =>
    have hb := hw.bridge hx
    cases x with
    | payload k outer message n =>
      cases message with
      | response r =>
        -- an answer has the other direction
        obtain ⟨request, size, rfl⟩ := hb
        have hdir := (aadForOuter_injective haad).direction
        rw [hd] at hdir
        cases hdir
      | execute r => cases hb
      | cancel r => cases hb
    | keyWrap => cases hb
    | other => cases hb
  | endpoint j =>
    have he := hw.endpoint hx
    cases x with
    | payload k outer message n =>
      cases hkey
      cases hw.fresh he hk.generated
      exact ⟨outer, message, n, hx, aadForOuter_injective haad, hpt⟩
    | keyWrap => exact absurd haad.symm (aadForOuter_ne_transcript e _ _ _ _)
    | other => cases he

/-- A secret key is unwrapped only for the request it was wrapped for. -/
theorem unwrapped_sealed {encoded : String} {secret : Key} {bindingId requestId : String}
    {generation sequence : UInt64} (hv : validTextId bindingId 128 = true)
    (h : unwrapSessionKey w.crypto encoded secret bindingId generation requestId sequence =
      .ok key) :
    ∃ wrapKey nonce, w.sealedBy (.endpoint id)
      (.keyWrap wrapKey key bindingId generation requestId sequence nonce) := by
  obtain ⟨wrapKey, nonce, text, hdec⟩ := unwrapSessionKey_ok h
  obtain ⟨party, x, hx, hkey, _, haad, hpt⟩ := hw.sealed_of_opened hdec
  cases party with
  | relay =>
    obtain ⟨_, hknown⟩ := hw.relay hx
    rw [hpt] at hknown
    exact absurd hknown hk.unknown
  | bridge =>
    have hb := hw.bridge hx
    cases x with
    | payload => exact absurd haad (aadForOuter_ne_transcript _ _ _ _ _)
    | keyWrap => cases hb
    | other => cases hb
  | endpoint j =>
    have he := hw.endpoint hx
    cases x with
    | payload => exact absurd haad (aadForOuter_ne_transcript _ _ _ _ _)
    | keyWrap wk sk b g r s n =>
      obtain ⟨hgen, hvb⟩ := he
      obtain ⟨rfl, rfl, rfl, rfl⟩ := keyWrapTranscript_injective (zero_notMem_of_validTextId hvb)
        (zero_notMem_of_validTextId hv) haad
      cases Key.ext hpt
      cases hw.fresh hgen hk.generated
      exact ⟨wk, n, hx⟩
    | other => cases he

/-- A request started under a secret key is the one its endpoint sealed with this routing, and
its key was wrapped for exactly this request. -/
theorem running_sealed {s s' : Supervisor} {e e' : OuterEnvelope} {encryptionSecret : Key}
    {now : UInt64} {persisted : Except BridgeError Unit} {cancelledLater : Bool} {nonce : Nonce}
    {request : InnerExecuteRequest} {guard : PermitGuard}
    (h : s.prepareRemoteExecution w.crypto e encryptionSecret now persisted cancelledLater nonce =
      (s', .ok (.running request guard e' key))) :
    e.messageType = .execute ∧ e.direction = .request ∧
    (∃ outer n, w.sealedBy (.endpoint id) (.payload key outer (.execute request) n) ∧
      outer.SameRouting e) ∧
    (∃ wrapKey n, w.sealedBy (.endpoint id)
      (.keyWrap wrapKey key e.bindingId e.generation e.requestId e.sequence n)) ∧
    s'.activeRemoteRequests.lookup (.fromEnvelope e) = some ⟨false, key⟩ := by
  obtain ⟨hc, _, ho, _, hreg⟩ := Supervisor.prepare_running h
  obtain ⟨hu, ⟨plaintext, hopen, hparse⟩, _, _⟩ := openRemote_some ho
  obtain ⟨outer, message, n, hx, hr, rfl⟩ := opened_sealed hw hk hc.direction hopen
  cases Message.eq_execute hparse
  exact ⟨hc.messageType, hc.direction, ⟨outer, n, hx, hr⟩,
    unwrapped_sealed hw hk hc.valid.bindingId hu, hreg⟩

/-- A request running under a secret key is cancelled only by a cancellation its endpoint sealed
for this request. -/
theorem cancelled_sealed {s s' : Supervisor} {e : OuterEnvelope} {active : ActiveRemoteRequest}
    (ha : s.activeRemoteRequests.lookup (.fromEnvelope e) = some active)
    (hkey : active.sessionKey = key) (h : s.cancelRemoteRequest w.crypto e = (s', .ok true)) :
    e.messageType = .cancel ∧
    ∃ outer cancel n, w.sealedBy (.endpoint id) (.payload key outer (.cancel cancel) n) ∧
      outer.SameRouting e ∧ cancel.requestId = e.requestId ∧ cancel.sequence = e.sequence := by
  obtain ⟨hc, active', cancel, ha', ho⟩ := cancel_accepted h
  rw [ha] at ha'
  cases ha'
  rw [hkey] at ho
  obtain ⟨⟨plaintext, hopen, hparse⟩, _, hid, hseq⟩ := openCancel_ok ho
  obtain ⟨outer, message, n, hx, hr, rfl⟩ := opened_sealed hw hk hc.direction hopen
  cases Message.eq_cancel hparse
  exact ⟨hc.messageType, outer, cancel, n, hx, hr, hid, hseq⟩

end

/-- **A relay cannot alter, re-route or re-type a request.** What is started under a secret key
is what its endpoint sealed, with the same routing, and wrapped the key for; and what runs under
it is cancelled only by a cancellation its endpoint sealed for it. -/
theorem relay_cannot_alter (w : World) (hw : w.Ideal) (id : Nat) (key : Key)
    (hk : w.Secret id key) :
    (∀ {s s' : Supervisor} {e e' : OuterEnvelope} {encryptionSecret : Key} {now : UInt64}
      {persisted : Except BridgeError Unit} {cancelledLater : Bool} {nonce : Nonce}
      {request : InnerExecuteRequest} {guard : PermitGuard},
      s.prepareRemoteExecution w.crypto e encryptionSecret now persisted cancelledLater nonce =
        (s', .ok (.running request guard e' key)) →
      e.messageType = .execute ∧ e.direction = .request ∧
      (∃ outer n, w.sealedBy (.endpoint id) (.payload key outer (.execute request) n) ∧
        outer.SameRouting e) ∧
      (∃ wrapKey n, w.sealedBy (.endpoint id)
        (.keyWrap wrapKey key e.bindingId e.generation e.requestId e.sequence n)) ∧
      s'.activeRemoteRequests.lookup (.fromEnvelope e) = some ⟨false, key⟩) ∧
    (∀ {s s' : Supervisor} {e : OuterEnvelope} {active : ActiveRemoteRequest},
      s.activeRemoteRequests.lookup (.fromEnvelope e) = some active → active.sessionKey = key →
      s.cancelRemoteRequest w.crypto e = (s', .ok true) →
      e.messageType = .cancel ∧
      ∃ outer cancel n, w.sealedBy (.endpoint id) (.payload key outer (.cancel cancel) n) ∧
        outer.SameRouting e ∧ cancel.requestId = e.requestId ∧ cancel.sequence = e.sequence) :=
  ⟨fun h => running_sealed hw hk h, fun ha hkey h => cancelled_sealed hw hk ha hkey h⟩

/-! ## One request -/

def sampleRequest : InnerExecuteRequest where
  protocol := INNER_PROTOCOL_VERSION
  messageType := .execute
  script := "1"
  timeoutMs := 1000
  cwdLabel := "work"
  defaultTaskSpace := "agent-remote:development"
  concurrencyMode := .binding
  taskSpaceScope := none
  tabScope := none
  allowlistRevision := 1
  learningBundleDigest := none

def sampleKey : Key := ⟨List.replicate 32 1, ones_length⟩

def sampleWrapKey : Key := ⟨List.replicate 32 3, rfl⟩

def sampleNonce : Nonce := ⟨List.replicate 12 0, zeroNonce_length⟩

/-- The request, sealed under a cipher that only adds a tag of zeros. -/
def sampleEnvelope : OuterEnvelope where
  protocol := PROTOCOL_VERSION
  channel := "ego_browser_bridge"
  relayBindingKind := "ego_browser"
  messageType := .execute
  requestId := "r1"
  bindingId := "b1"
  generation := 1
  sequence := 1
  direction := .request
  payloadBytes := 280
  nonce := encodeB64url sampleNonce.bytes
  ciphertext := encodeB64url (Message.execute sampleRequest).plaintext
  authTag := encodeB64url (List.replicate 16 0)
  keyWrap := encodeB64url
    (sampleKey.bytes ++ sampleNonce.bytes ++ (sampleKey.bytes ++ List.replicate 16 0))

def samplePayload : Sealing :=
  .payload sampleKey sampleEnvelope (.execute sampleRequest) sampleNonce.bytes

def sampleWrap : Sealing :=
  .keyWrap sampleWrapKey sampleKey "b1" 1 "r1" 1 sampleNonce.bytes

def samplePrimitives : Primitives where
  encrypt := fun _ _ _ message => some (message ++ List.replicate 16 0)
  decrypt := fun key nonce aad text =>
    ([samplePayload, sampleWrap].find? fun x =>
      x.key = key ∧ x.nonce = nonce ∧ x.aad = aad ∧ text = x.plaintext ++ List.replicate 16 0).map
        Sealing.plaintext
  diffieHellman := fun _ peer => peer
  publicKey := fun secret => secret
  sha256 := fun _ => sampleWrapKey

def sampleWorld : World where
  crypto := samplePrimitives
  sealedBy := fun party x =>
    match party with
    | .endpoint 0 => x ∈ [samplePayload, sampleWrap]
    | _ => False
  generated := fun id key => id = 0 ∧ key = sampleKey
  relayKnows := fun _ => False

theorem sampleWorld_ideal : sampleWorld.Ideal where
  sealed_of_opened := by
    intro key nonce aad text plaintext h
    obtain ⟨x, hx, rfl⟩ := Option.map_eq_some_iff.mp h
    have hp := List.find?_some hx
    simp only [decide_eq_true_eq] at hp
    exact ⟨.endpoint 0, x, List.mem_of_find?_eq_some hx, hp.1, hp.2.1, hp.2.2.1, rfl⟩
  endpoint := by
    intro id x hx
    cases id with
    | succ => cases hx
    | zero =>
      simp only [sampleWorld, List.mem_cons, List.not_mem_nil, or_false] at hx
      cases hx with
      | inl h => exact h ▸ ⟨rfl, rfl⟩
      | inr h => exact h ▸ ⟨⟨rfl, rfl⟩, by decide⟩
  bridge := fun hx => hx.elim
  relay := fun hx => hx.elim
  fresh := fun hi hj => hi.1.trans hj.1.symm

theorem samplePrimitives_decrypt {x : Sealing} (hx : x = samplePayload ∨ x = sampleWrap) :
    samplePrimitives.decrypt x.key x.nonce x.aad (x.plaintext ++ List.replicate 16 0) =
      some x.plaintext := by
  have hne : samplePayload.key ≠ sampleWrap.key := by decide
  cases hx with
  | inl h =>
    subst h
    simp [samplePrimitives]
  | inr h =>
    subst h
    simp [samplePrimitives, hne]

theorem sampleRequest_length : (Message.execute sampleRequest).plaintext.length = 280 := by
  rw [Message.plaintext, canonicalJson_length]
  decide +kernel

theorem sampleEnvelope_wireSize : sampleEnvelope.wireSize ≤ 16 * 1024 * 1024 := by
  rw [OuterEnvelope.wireSize_eq]
  simp only [sampleEnvelope, encodeB64url_size, sampleRequest_length]
  decide +kernel

theorem sampleEnvelope_carries : sampleEnvelope.Carries (Message.execute sampleRequest).plaintext
    sampleNonce.bytes (List.replicate 16 0) where
  ciphertext := by rw [sampleEnvelope, decodeB64_encodeB64url]
  nonce := by rw [sampleEnvelope, decodeB64_encodeB64url]
  tag := by rw [sampleEnvelope, decodeB64_encodeB64url]

theorem sampleEnvelope_wrap : sampleEnvelope.keyWrap = encodeB64url
    (sampleKey.bytes ++ sampleNonce.bytes ++ (sampleKey.bytes ++ List.replicate 16 0)) := by
  rw [sampleEnvelope]

theorem sampleEnvelope_valid : sampleEnvelope.Valid (16 * 1024 * 1024) where
  protocol := rfl
  channel := rfl
  relayBindingKind := rfl
  typed := .inl ⟨rfl, .inl rfl⟩
  requestId := by decide
  bindingId := by decide
  generation := by decide
  sequence := by decide
  payloadBytes := by decide
  payload := by
    refine ⟨_, _, _, sampleEnvelope_carries, rfl, by decide, sampleRequest_length, fun h => ?_⟩
    have hl := sampleRequest_length
    rw [h] at hl
    cases hl
  keyWrap := by
    rw [sampleEnvelope_wrap]
    exact .inr ⟨rfl, _, decodeB64_encodeB64url _, by decide⟩
  wireSize := sampleEnvelope_wireSize

def sampleSupervisor : Supervisor := .fresh .bound ⟨4, 0, false, []⟩ 0 0

theorem sampleEnvelope_checked : sampleSupervisor.checkRemote sampleEnvelope 0 = .ok () := by
  have hw : sampleEnvelope.validateKeyWrap = .ok () := by
    rw [OuterEnvelope.validateKeyWrap, if_neg (by decide), sampleEnvelope_wrap,
      decodeB64_encodeB64url]
    rfl
  rw [Supervisor.checkRemote, OuterEnvelope.validate_ok.mpr sampleEnvelope_valid, orProtocol,
    ok_bind, hw, orProtocol, ok_bind]
  rfl

theorem samplePayload_opens :
    samplePrimitives.decrypt sampleKey sampleNonce.bytes (aadForOuter sampleEnvelope)
      ((Message.execute sampleRequest).plaintext ++ List.replicate 16 0) =
        some (canonicalJson sampleRequest.toJson) := by
  have h := samplePrimitives_decrypt (x := samplePayload) (.inl rfl)
  simp only [samplePayload, Sealing.key, Sealing.nonce, Sealing.aad, Sealing.plaintext] at h
  rw [h, Message.plaintext]

theorem sampleWrap_unwraps :
    unwrapSessionKey samplePrimitives sampleEnvelope.keyWrap sampleKey sampleEnvelope.bindingId
      sampleEnvelope.generation sampleEnvelope.requestId sampleEnvelope.sequence =
        .ok sampleKey := by
  have h := samplePrimitives_decrypt (x := sampleWrap) (.inr rfl)
  simp only [sampleWrap, Sealing.key, Sealing.nonce, Sealing.aad, Sealing.plaintext] at h
  rw [sampleEnvelope_wrap]
  exact unwrapSessionKey_tuple (by decide) (by decide) h

theorem sampleRequest_valid :
    sampleRequest.validate sampleSupervisor.config.capability = .ok () := by
  decide

theorem sampleEnvelope_opened :
    openRemote samplePrimitives sampleSupervisor.config sampleEnvelope sampleKey =
      .ok (sampleKey, some sampleRequest) :=
  openRemote_sealed sampleWrap_unwraps sampleEnvelope_carries sampleNonce.length_eq
    List.length_replicate samplePayload_opens sampleRequest_valid (by decide) (by decide) rfl

theorem sample_running :
    (sampleSupervisor.prepareRemoteExecution samplePrimitives sampleEnvelope sampleKey 0 (.ok ())
      false sampleNonce).2 =
        .ok (.running sampleRequest ⟨["binding"], true, 1, "r1"⟩ sampleEnvelope sampleKey) :=
  Supervisor.prepare_starts sampleEnvelope_checked (by decide) sampleEnvelope_opened rfl
    (Finmap.notMem_empty)

/-- The request above, started and then known to be its endpoint's. -/
theorem relay_cannot_alter_sample :
    ∃ s', sampleSupervisor.prepareRemoteExecution sampleWorld.crypto sampleEnvelope sampleKey 0
        (.ok ()) false sampleNonce =
          (s', .ok (.running sampleRequest ⟨["binding"], true, 1, "r1"⟩ sampleEnvelope sampleKey)) ∧
      (∃ outer n, sampleWorld.sealedBy (.endpoint 0)
          (.payload sampleKey outer (.execute sampleRequest) n) ∧
        outer.SameRouting sampleEnvelope) ∧
      s'.activeRemoteRequests.lookup (.fromEnvelope sampleEnvelope) = some ⟨false, sampleKey⟩ := by
  have hrun := Prod.mk.eta.symm.trans (congrArg (Prod.mk _) sample_running)
  have h := (relay_cannot_alter sampleWorld sampleWorld_ideal 0 sampleKey ⟨⟨rfl, rfl⟩, id⟩).1 hrun
  exact ⟨_, hrun, h.2.2.1, h.2.2.2.2⟩

end Bridge
end EgoBridge
