import EgoBridge.Wrapper.Exchange

/-!
# Wrapper.Call

A run of the wrapper as a call: what it comes to without frames, texts and seals.

* `call`            — the run, in values.
* `perform`         — the bridge's part, on a request under its own permit.
* `execute_refines` — the run in frames is the call, however the frames are cut up on their way and
                      whatever others do to the supervisor meanwhile.
-/

namespace EgoBridge
namespace Wrapper

open Protocol Json Bridge

/-! ## The call -/

/-- What the wrapper checks of a permit, and the request it makes of it. -/
def acceptPermit (a : WrapperArgs) (capability : BridgeCapability) (permit : RequestPermit)
    (now : UInt64) : Except WrapperError InnerExecuteRequest := do
  orWrapper capability.validate
  orWrapper (permit.validate capability now a.script.length)
  checkPermitScope a permit
  let inner ← innerRequestFromPermit a.script a.timeoutMs a.cwdLabel permit
  orWrapper (inner.validate capability)
  .ok inner

/-- The bytes of a request's envelope without a key wrap. -/
def bareRequestSize (permit : RequestPermit) (n : Nat) : Nat :=
  requestEnvelopeSize permit n - (4 * KEY_WRAP_BYTES + 2) / 3

/-- What the bridge does with a request under its own permit. -/
def perform (w : Scene) (s : Supervisor) (permit : RequestPermit) (inner : InnerExecuteRequest) :
    Supervisor × Option InnerExecuteResponse :=
  let s := w.others .entry s
  if s.cancelled then (s, none)
  else
    let s := w.others .lease s
    if permit.generation ≠ s.lease.generation ∨ s.lease.revoked then (s, none)
    else
      let s := w.others .permit s
      if permit.sequence ∉ s.issuedPermits then (s, none)
      else
        let s := s.consumePermit permit.sequence
        if permit.expiresAtUnixMs ≤ w.run.takeMillis then (s, none)
        else
          let s := w.others .recheck s
          if s.cancelled then (s, none)
          else
            let s := (w.others .consume s).markConsumed permit.sequence
            if permit.expiresAtUnixMs ≤ w.run.checkMillis then (s, none)
            else
              let s := w.others .acquire s
              match s.scheduler.tryAcquire permit.generation permit.requestId permit.scope with
              | .error _ => (s, none)
              | .ok (guard, scheduler) =>
                let s := (w.others .consumeAgain { s with scheduler := scheduler }).markConsumed
                  permit.sequence
                let (result, stdout, stderr) := w.run.process inner
                ((w.others .drop s).dropGuard guard,
                  some (processResponse result stdout stderr w.run.durationMs
                    (requestEnvelope permit 0)))

/-- What the wrapper takes of a response. -/
def takeResponse (permit : RequestPermit) (r : InnerExecuteResponse) :
    Except ExecuteError InnerExecuteResponse :=
  if MAX_FRAME_BYTES < envelopeSize (requestEnvelope permit 0) (plaintextSize r) then
    .error .disconnected
  else if permit.maxPayloadBytes < plaintextSize r then
    .error (.protocol "response envelope identity mismatch")
  else if MAX_STDOUT_BYTES < (utf8 r.stdout).length ∨
      MAX_STDERR_BYTES < (utf8 r.stderr).length then
    .error (.protocol "response output exceeds limit")
  else .ok r

/-- What the wrapper makes of the bridge's part. -/
def settle (permit : RequestPermit) :
    Option InnerExecuteResponse → Except ExecuteError InnerExecuteResponse
  | none => .error .disconnected
  | some response => takeResponse permit response

/-- A run, in values. -/
def call (w : Scene) (a : WrapperArgs) (s : Supervisor) :
    Supervisor × Except ExecuteError InnerExecuteResponse :=
  let request := (canonicalJson (permitRequestJson a)).length
  if MAX_FRAME_BYTES < request then (s, .error (.frame (.tooLarge request MAX_FRAME_BYTES)))
  else if ¬ admitsBroker s.config a.startupNonce then (s, .error .disconnected)
  else
    match s.issuePermit (permitRequest a) w.issue.now w.issue.nowMillis w.issue.requestId
        w.issue.key with
    | (s, .error .leaseRenewalRequired) => (s, .error .leaseRenewalRequired)
    | (s, .error _) => (s, .error .unavailable)
    | (s, .ok (key, permit)) =>
      if MAX_FRAME_BYTES <
          (canonicalJson (permitResponse permit key s.config.capability)).length then
        (s, .error .disconnected)
      else
        match acceptPermit a s.config.capability permit w.wrapperNow with
        | .error error => (s, .error (.wrapper error))
        | .ok inner =>
          if MAX_FRAME_BYTES < bareRequestSize permit (requestTextSize inner) then
            (s, .error (.protocol ProtocolError.frameTooLarge.message))
          else
            let (s, response) := perform w s permit inner
            (s, settle permit response)

/-- A run of `ego-browser nodejs`, in values. -/
def executeCall (w : Scene) (env : WrapperEnv) (chunks : List Bytes) (s : Supervisor) :
    Supervisor × Except ExecuteError InnerExecuteResponse :=
  match readArgs env chunks with
  | .error error => (s, .error error)
  | .ok a => if w.connects then call w a s else (s, .error .unavailable)

/-! ## The first frame -/

/-- What `issue_permit` refuses a request with. -/
def issueErrors : List BridgeError :=
  [.protocolMessage "invalid permit request", .protocolMessage "broker startup nonce is invalid",
    .protocolMessage "broker startup nonce was not configured",
    .protocolMessage "script exceeds limit", .protocolMessage "timeout exceeds limit",
    .protocolMessage "invalid cwd label", .revoked, .leaseRenewalRequired, .leaseExpired,
    .protocolMessage "sequence exhausted",
    .protocolMessage "task space scope is not dedicated to the tool session"]

theorem issuePermit_error {s s' : Supervisor} {r : PermitRequest} {now nowMillis : UInt64}
    {requestId : OpaqueId} {key : Key} {error : BridgeError}
    (h : s.issuePermit r now nowMillis requestId key = (s', .error error)) :
    error ∈ issueErrors := by
  unfold Supervisor.issuePermit at h
  split at h
  · rename_i hc
    cases h
    rw [Supervisor.checkIssue, checkPermitRequest] at hc
    repeat' split at hc
    all_goals
      first
        | (cases hc; decide)
        | cases hc
  split at h
  · rename_i ha
    cases h
    unfold Supervisor.admitIssue at ha
    split at ha <;> cases ha <;> decide
  split at h
  · rename_i ht
    cases h
    unfold Supervisor.takeSequence at ht
    split at ht <;> cases ht
    decide
  · unfold Supervisor.storePermit at h
    split at h
    · rename_i hp
      cases h
      unfold permitFor at hp
      dsimp only at hp
      split at hp <;> cases hp
      decide
    · cases h

/-- A refusal fits its frame, and only one of them is about the lease's renewal. -/
theorem issueErrors_text : ∀ error ∈ issueErrors,
    size (permitRefusal error) ≤ SOCKET_FRAME_BYTES ∧
      (error.text = "lease_renewal_required" ↔ error = .leaseRenewalRequired) := by
  decide +kernel

section

variable {a : WrapperArgs} (hs : a.script.length < 2 ^ 64) (s : Supervisor) (w : Wire)
  (i : IssueInput)

include hs

theorem handleFirst_closed (h : admitsBroker s.config a.startupNonce = false) :
    ∃ error, handleFirst s w i (.ok (some (canonicalJson (permitRequestJson a)))) =
      (s, .error error) := by
  obtain ⟨value, hparse, ⟨ms, rfl⟩, -, hnonce, -⟩ := permitRequest_read hs
  obtain ⟨error, he⟩ := brokerValue_closed hparse hnonce h
  exact ⟨error, by rw [handleFirst, he]⟩

theorem handleFirst_request (h : admitsBroker s.config a.startupNonce = true) {s' : Supervisor}
    {issued : Except BridgeError (Key × RequestPermit)}
    (hi : s.issuePermit (permitRequest a) i.now i.nowMillis i.requestId i.key = (s', issued)) :
    handleFirst s w i (.ok (some (canonicalJson (permitRequestJson a)))) =
      (s', answerPermit w s.config.capability issued) := by
  obtain ⟨value, hparse, ⟨ms, rfl⟩, htype, hnonce, hread⟩ := permitRequest_read hs
  simp only [handleFirst, brokerValue_admitted hparse hnonce h, htype, Option.getD_some, if_true,
    parsePermitRequest, hread, hi]

end

/-! ## The request -/

/-- An envelope that is valid but for its size. -/
theorem validate_tooLarge {e : OuterEnvelope} {n m : Nat} (h : e.Valid m) (hn : n < e.wireSize)
    (hk : e.keyWrap = "") : e.validate n = .error .frameTooLarge := by
  by_cases hpay : n < e.payloadBytes
  · have hr : e.validateRouting n = .error .frameTooLarge := by
      rw [OuterEnvelope.validateRouting,
        if_neg (by simp [h.protocol, h.channel, h.relayBindingKind]),
        if_neg (by rcases h.typed with ⟨_, hm | hm⟩ | ⟨_, hm⟩ <;> simp [hm]),
        if_neg (by rcases h.typed with ⟨hd, hm | hm⟩ | ⟨hd, hm⟩ <;> simp [hd, hm]),
        if_neg (by simp [h.requestId]), if_neg (by simp [h.bindingId]),
        if_neg (by simp [h.generation, h.sequence]), if_pos hpay]
    rw [OuterEnvelope.validate, hr]
    rfl
  · have hr : e.validateRouting n = .ok () :=
      OuterEnvelope.validateRouting_ok.mpr { h.toRouted with payloadBytes := Nat.not_lt.mp hpay }
    have hp : e.validatePayload = .ok () := OuterEnvelope.validatePayload_ok.mpr h.payload
    have hd : e.messageType = .execute → e.direction = .request := by
      intro hm
      rcases h.typed with ⟨hd, -⟩ | ⟨-, hm'⟩
      · exact hd
      · rw [hm] at hm'
        cases hm'
    have hf : e.validateFrame n = .error .frameTooLarge := by
      simp only [OuterEnvelope.validateFrame, hk, decodeB64_empty]
      rw [if_neg (by simp; exact hd), if_neg (by simp), if_pos hn]
    rw [OuterEnvelope.validate, hr, ok_bind, hp, ok_bind, hf]

theorem requestFromPermit_eq (c : Primitives) (a : WrapperArgs) (capability : BridgeCapability)
    (permit : RequestPermit) (now : UInt64) (key : Key) (nonce : Nonce) :
    requestFromPermit c a capability permit now key nonce =
      (acceptPermit a capability permit now).bind fun inner =>
        sealRequest c inner permit key nonce := by
  unfold requestFromPermit acceptPermit
  cases orWrapper capability.validate with
  | error e => rfl
  | ok _ =>
    simp only [ok_bind]
    cases orWrapper (permit.validate capability now a.script.length) with
    | error e => rfl
    | ok _ =>
      simp only [ok_bind]
      cases checkPermitScope a permit with
      | error e => rfl
      | ok _ =>
        simp only [ok_bind]
        cases innerRequestFromPermit a.script a.timeoutMs a.cwdLabel permit with
        | error e => rfl
        | ok inner =>
          simp only [ok_bind]
          cases orWrapper (inner.validate capability) with
          | error e => rfl
          | ok _ => rfl

theorem orWrapper_ok {α : Type} {x : Except ProtocolError α} {r : α} (h : orWrapper x = .ok r) :
    x = .ok r := by
  cases x with
  | error e => cases h
  | ok b => cases h; rfl

theorem acceptPermit_ok {a : WrapperArgs} {capability : BridgeCapability} {permit : RequestPermit}
    {now : UInt64} {inner : InnerExecuteRequest}
    (h : acceptPermit a capability permit now = .ok inner) :
    Accepted a capability permit now inner := by
  unfold acceptPermit at h
  obtain ⟨_, h1, h⟩ := bind_ok h
  obtain ⟨_, h2, h⟩ := bind_ok h
  obtain ⟨_, h3, h⟩ := bind_ok h
  obtain ⟨inner', h4, h⟩ := bind_ok h
  obtain ⟨_, h5, h⟩ := bind_ok h
  cases h
  exact ⟨orWrapper_ok h1, orWrapper_ok h2, h3, h4, orWrapper_ok h5⟩

/-- The permit's own frame bounds what is sealed under it. -/
theorem sealed_le {a : WrapperArgs} {capability : BridgeCapability} {permit : RequestPermit}
    {now : UInt64} {inner : InnerExecuteRequest} (h : Accepted a capability permit now inner)
    {key : Key} (hp : (canonicalJson (permitResponse permit key capability)).length ≤
      MAX_FRAME_BYTES) :
    requestTextSize inner ≤ 2 * MAX_FRAME_BYTES := by
  have hbase := h.base_le
  have htab := h.inner_eq.2.2.2
  have hm : MAX_FRAME_BYTES = 16777216 := rfl
  cases ht : permit.tabScope with
  | none =>
    have hsize := requestTextSize_none inner (htab.trans ht)
    omega
  | some tab =>
    have hsize := requestTextSize_tab inner (htab.trans ht)
    have hle : escapedSize tab ≤ (canonicalJson (permitResponse permit key capability)).length := by
      rw [canonicalJson_length, permitResponse, size_obj]
      simp only [membersSize, List.map_cons, List.map_nil, List.sum_cons, List.sum_nil,
        RequestPermit.toJson, size_obj, RequestPermit.members, ht, ofOption, size_str]
      omega
    omega

section

variable {c : Primitives} (hc : c.Lawful) {a : WrapperArgs} {capability : BridgeCapability}
  {permit : RequestPermit} {now : UInt64} {inner : InnerExecuteRequest}
  (h : Accepted a capability permit now inner) (hle : requestTextSize inner ≤ 2 * MAX_FRAME_BYTES)
  (key : Key) (nonce : Nonce)

include hc h hle

theorem sealRequest_sized : ∃ text, c.encrypt key nonce.bytes
      (aadForOuter (requestEnvelope permit (requestTextSize inner))) (canonicalJson inner.toJson) =
        some text ∧
    (MAX_FRAME_BYTES < bareRequestSize permit (requestTextSize inner) →
      sealRequest c inner permit key nonce =
        .error (.protocol ProtocolError.frameTooLarge.message)) ∧
    (bareRequestSize permit (requestTextSize inner) ≤ MAX_FRAME_BYTES →
      sealRequest c inner permit key nonce =
          .ok (sealedRequest permit (requestTextSize inner) nonce text) ∧
        (sealedRequest permit (requestTextSize inner) nonce text).Valid MAX_FRAME_BYTES) := by
  have hn := requestTextSize_eq inner
  have h0 : requestTextSize inner ≠ 0 := by unfold requestTextSize; omega
  obtain ⟨text, ht⟩ := hc.total key nonce.bytes
    (aadForOuter (requestEnvelope permit (requestTextSize inner))) (canonicalJson inner.toJson)
    (by rw [hn]; exact Nat.le_trans hle (by decide))
  have hl : text.length = requestTextSize inner + 16 := by rw [hc.length ht, hn]
  have hw := @sealedRequest_wireSize permit _ nonce _ hl
  have hbare : (sealedRequest permit (requestTextSize inner) nonce text).wireSize =
      bareRequestSize permit (requestTextSize inner) := by
    unfold bareRequestSize
    omega
  have hpayload : requestTextSize inner ≤ bareRequestSize permit (requestTextSize inner) := by
    unfold bareRequestSize requestEnvelopeSize envelopeRest
    omega
  have hvalid : ∀ m, bareRequestSize permit (requestTextSize inner) ≤ m →
      (sealedRequest permit (requestTextSize inner) nonce text).Valid m := by
    intro m hm
    exact sealedRequest_valid (RequestPermit.validate_ok.mp h.permitted) h0 hl
      (Nat.le_trans hpayload hm) (hbare ▸ hm)
  refine ⟨text, ht, fun hbig => ?_, fun hfits => ?_⟩
  · have hv := validate_tooLarge (hvalid _ (Nat.le_refl _)) (hbare ▸ hbig) rfl
    rw [sealRequest_eq hc hn ht, hv]
    rfl
  · have hv := hvalid MAX_FRAME_BYTES hfits
    exact ⟨(sealRequest_ok hc hn).mpr ⟨⟨text, ht, rfl⟩, hv⟩, hv⟩

end

/-! ## The bridge's part -/

theorem utf8_of_ofUtf8? {bytes : Bytes} {text : String} (h : ofUtf8? bytes = some text) :
    utf8 text = bytes := by
  unfold ofUtf8? String.fromUTF8? at h
  split at h
  · cases h
    simp [utf8, String.fromUTF8]
  · cases h

section

variable {c : Primitives} {a : WrapperArgs} {config : BridgeConfig} {permit : RequestPermit}
  {now : UInt64} {inner : InnerExecuteRequest}
  (h : Accepted a config.capability permit now inner)

include h

theorem Accepted.script_eq : utf8 inner.script = a.script := by
  have hb := h.built
  unfold innerRequestFromPermit at hb
  split at hb
  · cases hb
  · rename_i text htext
    cases hb
    exact utf8_of_ofUtf8? htext

theorem Accepted.checkScope_ok : checkScope inner permit = .ok permit.scope := by
  obtain ⟨-, hmode, hspace, htab⟩ := h.inner_eq
  have hn := (RequestPermit.validate_ok.mp h.permitted).normal
  rw [checkScope, hmode, hspace, htab, hn]
  simp [RequestPermit.scope]

/-- Under its own permit a request is refused for nothing but its age. -/
theorem openLocal_sealed (hc : c.Lawful)
    (hspace : permit.defaultTaskSpace = config.defaultTaskSpace)
    {key : Key} {nonce : Nonce} {text : Bytes}
    (ht : c.encrypt key nonce.bytes (aadForOuter (requestEnvelope permit (requestTextSize inner)))
      (canonicalJson inner.toJson) = some text) (t : UInt64) :
    (t < permit.expiresAtUnixMs →
      openLocal c config (sealedRequest permit (requestTextSize inner) nonce text) key permit t =
        .ok (inner, permit.scope)) ∧
    (permit.expiresAtUnixMs ≤ t → ∃ error,
      openLocal c config (sealedRequest permit (requestTextSize inner) nonce text) key permit t =
        .error error) := by
  have hn := requestTextSize_eq inner
  have hl : text.length = requestTextSize inner + 16 := by rw [hc.length ht, hn]
  have hcarries : (sealedRequest permit (requestTextSize inner) nonce text).Carries
      (text.take (requestTextSize inner)) nonce.bytes (text.drop (requestTextSize inner)) :=
    ⟨decodeB64_encodeB64url _, decodeB64_encodeB64url _, decodeB64_encodeB64url _⟩
  have hopen : c.openDetached key nonce.bytes (text.take (requestTextSize inner))
      (text.drop (requestTextSize inner))
      (aadForOuter (sealedRequest permit (requestTextSize inner) nonce text)) =
        .ok (canonicalJson inner.toJson) := by
    have haad : aadForOuter (sealedRequest permit (requestTextSize inner) nonce text) =
      aadForOuter (requestEnvelope permit (requestTextSize inner)) := rfl
    have htag : (text.drop (requestTextSize inner)).length = 16 := by rw [List.length_drop]; omega
    rw [Primitives.openDetached, if_neg (by simp [nonce.length_eq, htag]), haad,
      List.take_append_drop, hc.opens ht]
  have hdefault : inner.defaultTaskSpace = config.defaultTaskSpace := h.inner_eq.1.trans hspace
  have hp := RequestPermit.validate_ok.mp h.permitted
  have hchecks := openLocal_opened hcarries hopen h.valid hdefault permit t
  have hlen : (utf8 inner.script).length ≤ permit.maxScriptBytes := by
    rw [h.script_eq]
    exact hp.script.2.2
  have hmax : permit.maxScriptBytes ≤ MAX_SCRIPT_BYTES := hp.script.2.1
  constructor
  · intro hlt
    have hv : permit.validate config.capability t (utf8 inner.script).length = .ok () := by
      rw [h.script_eq]
      exact RequestPermit.validate_ok.mpr { hp with unexpired := hlt }
    rw [hchecks, hv, orProtocol, Except.bind, if_neg (by omega), h.checkScope_ok]
    rfl
  · intro hle
    cases hv : permit.validate config.capability t (utf8 inner.script).length with
    | error error => exact ⟨.protocol error, by rw [hchecks, hv]; rfl⟩
    | ok u =>
      have hlt := (RequestPermit.validate_ok.mp hv).unexpired
      exact absurd hlt (UInt64.not_lt.mpr hle)

end

/-- A valid request is let in until the signal is up. -/
theorem checkExecute_valid {e : OuterEnvelope} (hv : e.Valid MAX_FRAME_BYTES)
    (ht : e.messageType = .execute) (hd : e.direction = .request) (s : Supervisor) :
    s.checkExecute e = if s.cancelled then .error .revoked else .ok () := by
  have hvalidate : e.validate (16 * 1024 * 1024) = .ok () := OuterEnvelope.validate_ok.mpr hv
  rw [Supervisor.checkExecute, hvalidate, orProtocol, ok_bind, if_neg (by simp [ht, hd])]

/-- A permit is taken by its own request, and is of use until it expires. -/
theorem takePermit_own {s : Supervisor} {issued : IssuedPermit} {key : Key} {e : OuterEnvelope}
    (hl : s.issuedPermits.lookup e.sequence = some issued) (ha : issued.Admits e key) (t : UInt64) :
    s.takePermit e key t = (s.consumePermit e.sequence,
      if issued.permit.expiresAtUnixMs ≤ t then .error .leaseExpired else .ok issued) := by
  simp only [Supervisor.takePermit, hl]
  rw [if_neg (by simp [ha.bindingId, ha.generation, ha.requestId, ha.sequence]),
    if_neg (by simp [ha.key]), if_neg (Nat.not_lt.mpr ha.payload)]
  split <;> rfl

/-- The bridge's two parts leave one supervisor, and have the same answer or none. -/
def Agrees {α β : Type} (x : Supervisor × Except BridgeError α) (y : Supervisor × Option β)
    (answer : β → Option α) : Prop :=
  x.1 = y.1 ∧ x.2.toOption = y.2.bind answer

theorem Agrees.refused {α β : Type} {answer : β → Option α} (s : Supervisor) (error : BridgeError) :
    Agrees (s, .error error) (s, none) answer := ⟨rfl, rfl⟩

/-! ## The response -/

/-- A sealed response is taken for what it is, if its frame fits. -/
theorem sealResponse_taken {c : Primitives} (hc : c.Lawful) {r : InnerExecuteResponse}
    {e : OuterEnvelope} (hv : e.Valid MAX_FRAME_BYTES) (ha : Answers r e) {permit : RequestPermit}
    (hp : Permits permit e) (key : Key) (nonce : Nonce) :
    (MAX_FRAME_BYTES < envelopeSize e (plaintextSize r) →
      ∀ response, sealResponse c r e key nonce = .ok response →
        MAX_FRAME_BYTES < (canonicalJson response.toJson).length) ∧
    (envelopeSize e (plaintextSize r) ≤ MAX_FRAME_BYTES →
      ∃ response, sealResponse c r e key nonce = .ok response ∧
        (canonicalJson response.toJson).length ≤ MAX_FRAME_BYTES ∧
        orExecute (decodeResponse c (canonicalJson response.toJson) key permit) =
          if permit.maxPayloadBytes < plaintextSize r then
            .error (.protocol "response envelope identity mismatch")
          else if MAX_STDOUT_BYTES < (utf8 r.stdout).length ∨
              MAX_STDERR_BYTES < (utf8 r.stderr).length then
            .error (.protocol "response output exceeds limit")
          else .ok r) := by
  have hn := plaintextSize_eq r
  have h0 : plaintextSize r ≠ 0 := by unfold plaintextSize; omega
  have hwire : ∀ text : Bytes, text.length = plaintextSize r + 16 →
      (canonicalJson (sealedEnvelope e (plaintextSize r) nonce text).toJson).length =
        envelopeSize e (plaintextSize r) := by
    intro text hl
    rw [canonicalJson_length]
    exact sealedEnvelope_wireSize hl
  constructor
  · intro hbig response hseal
    obtain ⟨text, ht, rfl⟩ := (sealResponse_ok hc hn).mp hseal
    rw [hwire text (by rw [hc.length ht, hn])]
    exact hbig
  · intro hfits
    have hle : plaintextSize r ≤ MAX_FRAME_BYTES :=
      Nat.le_trans (plaintextSize_le_envelopeSize e _) hfits
    have hb : plaintextSize r < 2 ^ 64 := Nat.lt_of_le_of_lt hle (by decide)
    obtain ⟨text, ht⟩ := hc.total key nonce.bytes
      (aadForOuter (responseEnvelope e (plaintextSize r))) (canonicalJson r.toJson)
      (by rw [hn]; exact Nat.le_trans hle (by decide))
    have hl : text.length = plaintextSize r + 16 := by rw [hc.length ht, hn]
    refine ⟨_, (sealResponse_ok hc hn).mpr ⟨text, ht, rfl⟩, by rw [hwire text hl]; exact hfits, ?_⟩
    have hvalid : (sealedEnvelope e (plaintextSize r) nonce text).validate MAX_FRAME_BYTES =
        .ok () :=
      OuterEnvelope.validate_ok.mpr (sealedEnvelope_valid hv h0 hl hfits)
    have hid : ((sealedEnvelope e (plaintextSize r) nonce text).bindingId ≠ permit.bindingId ∨
        (sealedEnvelope e (plaintextSize r) nonce text).generation ≠ permit.generation ∨
        (sealedEnvelope e (plaintextSize r) nonce text).requestId ≠ permit.requestId ∨
        (sealedEnvelope e (plaintextSize r) nonce text).sequence ≠ permit.sequence ∨
        permit.maxPayloadBytes < (sealedEnvelope e (plaintextSize r) nonce text).payloadBytes) ↔
          permit.maxPayloadBytes < plaintextSize r := by
      simp [sealedEnvelope, responseEnvelope, hp.bindingId, hp.generation, hp.requestId,
        hp.sequence]
    rw [decodeResponse, (OuterEnvelope.codec _ hb).parse (by decide)]
    dsimp only
    rw [decodeEnvelope, hvalid, orWrapper, ok_bind,
      if_neg (by simp [sealedEnvelope, responseEnvelope])]
    simp only [hid]
    by_cases hpay : permit.maxPayloadBytes < plaintextSize r
    · rw [if_pos hpay, if_pos hpay]
      rfl
    rw [if_neg hpay, if_neg hpay, openResponse_sealed hc hn ht, ok_bind, checkResponse,
      if_neg (by simp [ha.protocol, ha.messageType]),
      if_neg (by simp [ha.requestId, ha.sequence, sealedEnvelope, responseEnvelope])]
    split <;> rfl

theorem perform_answers {w : Scene} {s : Supervisor} {permit : RequestPermit}
    {inner : InnerExecuteRequest} {r : InnerExecuteResponse}
    (h : (perform w s permit inner).2 = some r) : Answers r (requestEnvelope permit 0) := by
  unfold perform at h
  dsimp only at h
  repeat' split at h
  all_goals
    first
      | cases h; exact ⟨rfl, rfl, rfl, rfl⟩
      | cases h

/-- The bridge reads its own request, and writes what comes of it. -/
theorem handleSecond_own (c : Primitives) (s : Supervisor) (o : Others) (i : LocalRun) (w : Wire)
    {e : OuterEnvelope} (hv : e.Valid MAX_FRAME_BYTES) {permit : RequestPermit}
    (hp : Permits permit e) (key : Key) :
    handleSecond c s o i w key permit (.ok (some (canonicalJson e.toJson))) =
      ((executeLocal c s o i e key).1,
        (executeLocal c s o i e key).2.bind fun response => sendValue w response.toJson) := by
  have hb : e.payloadBytes < 2 ^ 64 := Nat.lt_of_le_of_lt hv.payloadBytes (by decide)
  have hparse := (OuterEnvelope.codec e hb).parse (by decide)
  have hframe : ∀ frame, receivedFrame "request ended before execution" (.ok (some frame)) =
      .ok frame := fun _ => rfl
  have hid : ¬ (e.requestId ≠ permit.requestId ∨ e.sequence ≠ permit.sequence ∨
      e.generation ≠ permit.generation ∨ e.bindingId ≠ permit.bindingId) := by
    simp [hp.bindingId, hp.generation, hp.requestId, hp.sequence]
  simp only [handleSecond, hframe, hparse]
  rw [if_neg hid]
  generalize executeLocal c s o i e key = x
  obtain ⟨s', answer⟩ := x
  cases answer with
  | error error => rfl
  | ok response => simp only [Except.bind]

/-! ## The two parts -/

/-- An accepted request under a permit of this supervisor, which others leave alone. -/
structure Granted (w : Scene) (s : Supervisor) (a : WrapperArgs) (permit : RequestPermit)
    (key : Key) (inner : InnerExecuteRequest) : Prop where
  accepted : Accepted a s.config.capability permit w.wrapperNow inner
  beside : ∀ gap t, Beside permit.sequence t (w.others gap t)
  own : ∀ issued, s.issuedPermits.lookup permit.sequence = some issued → issued = ⟨permit, key⟩
  payload : permit.maxPayloadBytes = 16 * 1024 * 1024
  space : permit.defaultTaskSpace = s.config.defaultTaskSpace

section

variable {c : Primitives} (hc : c.Lawful) {w : Scene} {s : Supervisor} {a : WrapperArgs}
  {permit : RequestPermit} {key : Key} {inner : InnerExecuteRequest}
  (h : Granted w s a permit key inner) {nonce : Nonce} {text : Bytes}
  (ht : c.encrypt key nonce.bytes (aadForOuter (requestEnvelope permit (requestTextSize inner)))
    (canonicalJson inner.toJson) = some text)
  (hv : (sealedRequest permit (requestTextSize inner) nonce text).Valid MAX_FRAME_BYTES)

include hc h ht hv

theorem executeLocal_perform :
    Agrees
      (executeLocal c s w.others w.run (sealedRequest permit (requestTextSize inner) nonce text)
        key)
      (perform w s permit inner)
      fun r => (sealResponse c r (sealedRequest permit (requestTextSize inner) nonce text) key
        w.run.nonce).toOption := by
  have hopen := openLocal_sealed h.accepted hc h.space ht w.run.checkMillis
  have hpay := hv.payloadBytes
  generalize he : sealedRequest permit (requestTextSize inner) nonce text = e at *
  have hseq : e.sequence = permit.sequence := by rw [← he]; rfl
  have hgen : e.generation = permit.generation := by rw [← he]; rfl
  have hreq : e.requestId = permit.requestId := by rw [← he]; rfl
  have hadmits : IssuedPermit.Admits ⟨permit, key⟩ e key := by
    subst he
    exact ⟨rfl, rfl, rfl, rfl, rfl, by rw [h.payload]; exact hpay⟩
  have hexec := checkExecute_valid hv (by rw [← he]; rfl) (by rw [← he]; rfl)
  have hresponse : ∀ result stdout stderr, processResponse result stdout stderr w.run.durationMs e =
      processResponse result stdout stderr w.run.durationMs (requestEnvelope permit 0) := by
    rw [← he]
    intros
    rfl
  unfold executeLocal perform
  dsimp only
  rw [hexec, hgen, hseq]
  have hb1 := h.beside .entry s
  generalize w.others .entry s = s1 at *
  by_cases hc1 : s1.cancelled = true
  · rw [if_pos hc1, if_pos hc1]
    exact .refused s1 _
  rw [if_neg hc1, if_neg hc1]
  dsimp only
  have hb2 := h.beside .lease s1
  generalize w.others .lease s1 = s2 at *
  rw [Execution.leaseAccepts]
  by_cases hlease : permit.generation ≠ s2.lease.generation ∨ s2.lease.revoked = true
  · rw [if_pos hlease, if_pos hlease]
    exact .refused s2 _
  rw [if_neg hlease, if_neg hlease]
  dsimp only
  have hb3 := h.beside .permit s2
  generalize w.others .permit s2 = s3 at *
  cases hl : s3.issuedPermits.lookup permit.sequence with
  | none =>
    rw [if_pos (Finmap.lookup_eq_none.mp hl)]
    have hl' : s3.issuedPermits.lookup e.sequence = none := by rw [hseq]; exact hl
    simp only [Supervisor.takePermit, hl']
    exact .refused s3 _
  | some issued =>
    obtain rfl := h.own issued (hb1.permit _ (hb2.permit _ (hb3.permit _ hl)))
    have hmem : permit.sequence ∈ s3.issuedPermits := Finmap.lookup_isSome.mp (by rw [hl]; rfl)
    rw [if_neg (not_not.mpr hmem), takePermit_own (by rw [hseq]; exact hl) hadmits, hseq]
    by_cases hx : permit.expiresAtUnixMs ≤ w.run.takeMillis
    · rw [if_pos hx, if_pos hx]
      exact .refused _ _
    rw [if_neg hx, if_neg hx]
    dsimp only
    have hb4 := h.beside .recheck (s3.consumePermit permit.sequence)
    generalize w.others .recheck (s3.consumePermit permit.sequence) = s4 at *
    by_cases hc4 : s4.cancelled = true
    · rw [if_pos hc4, if_pos hc4]
      exact .refused s4 _
    rw [if_neg hc4, if_neg hc4]
    have hb5 := h.beside .consume s4
    generalize w.others .consume s4 = s5 at *
    have hconfig : (s5.markConsumed permit.sequence).config = s.config := by
      show s5.config = s.config
      rw [hb5.config, hb4.config]
      show s3.config = s.config
      rw [hb3.config, hb2.config, hb1.config]
    rw [hconfig]
    by_cases hy : permit.expiresAtUnixMs ≤ w.run.checkMillis
    · obtain ⟨error, herror⟩ := hopen.2 hy
      rw [herror, if_pos hy]
      exact .refused _ error
    rw [hopen.1 (UInt64.not_le.mp hy), if_neg hy]
    dsimp only
    generalize w.others .acquire (s5.markConsumed permit.sequence) = s6
    rw [Supervisor.acquireLocal, hgen, hreq]
    cases s6.scheduler.tryAcquire permit.generation permit.requestId permit.scope with
    | error error => cases error <;> exact .refused s6 _
    | ok held =>
      dsimp only
      rw [hresponse]
      exact ⟨rfl, rfl⟩

/-- A permitted request is taken through the two frames as through a call. -/
theorem exchangeRequest_eq :
    exchangeRequest c w (sealedRequest permit (requestTextSize inner) nonce text) s key permit key
        permit =
      ((perform w s permit inner).1, settle permit (perform w s permit inner).2) := by
  obtain ⟨hstate, hanswer⟩ := executeLocal_perform hc h ht hv
  have hp : Permits permit (sealedRequest permit (requestTextSize inner) nonce text) :=
    ⟨rfl, rfl, rfl, rfl⟩
  have hsize : ∀ n, envelopeSize (sealedRequest permit (requestTextSize inner) nonce text) n =
      envelopeSize (requestEnvelope permit 0) n := fun _ => rfl
  have hids : ∀ r, Answers r (requestEnvelope permit 0) →
      Answers r (sealedRequest permit (requestTextSize inner) nonce text) := by
    intro r ha
    exact ⟨ha.protocol, ha.messageType, ha.requestId, ha.sequence⟩
  generalize sealedRequest permit (requestTextSize inner) nonce text = e at *
  have hlength : (canonicalJson e.toJson).length ≤ SOCKET_FRAME_BYTES := by
    rw [canonicalJson_length]
    exact hv.wireSize
  obtain ⟨sent, hsend, hreceive⟩ := w.envelopeWire.send_ok hlength
  rw [exchangeRequest, hsend]
  dsimp only
  rw [hreceive, handleSecond_own c s _ _ _ hv hp, hstate]
  cases hy : (perform w s permit inner).2 with
  | none =>
    rw [hy] at hanswer
    cases hx : (executeLocal c s w.others w.run e key).2 with
    | error error => rfl
    | ok response =>
      rw [hx] at hanswer
      cases hanswer
  | some r =>
    rw [hy, Option.bind_some] at hanswer
    obtain ⟨hbig, hfits⟩ :=
      sealResponse_taken hc hv (hids r (perform_answers hy)) hp key w.run.nonce
    rw [hsize] at hbig hfits
    rw [settle, takeResponse]
    by_cases hlong : MAX_FRAME_BYTES < envelopeSize (requestEnvelope permit 0) (plaintextSize r)
    · rw [if_pos hlong]
      cases hx : (executeLocal c s w.others w.run e key).2 with
      | error error => rfl
      | ok response =>
        cases hr : sealResponse c r e key w.run.nonce with
        | error error =>
          rw [hx, hr] at hanswer
          cases hanswer
        | ok response' =>
          rw [hx, hr] at hanswer
          cases hanswer
          have htoo := w.responseWire.send_tooLarge (hbig hlong response hr)
          rw [Except.bind, sendValue, htoo]
          rfl
    · rw [if_neg hlong]
      obtain ⟨response, hr, hle, hdecode⟩ := hfits (Nat.not_lt.mp hlong)
      cases hx : (executeLocal c s w.others w.run e key).2 with
      | error error =>
        rw [hx, hr] at hanswer
        cases hanswer
      | ok response' =>
        rw [hx, hr] at hanswer
        cases hanswer
        obtain ⟨sent', hsend', hreceive'⟩ := w.responseWire.send_ok hle
        rw [Except.bind, sendValue, hsend', orFrame]
        dsimp only
        rw [hreceive', readResponse, awaitFrame, ok_bind, hdecode]

end

/-! ## The whole run -/

/-- A permit that is handed out is the next one, and is in the table. -/
theorem issuePermit_stored {s s' : Supervisor} {r : PermitRequest} {now nowMillis : UInt64}
    {requestId : OpaqueId} {key key' : Key} {permit : RequestPermit}
    (h : s.issuePermit r now nowMillis requestId key = (s', .ok (key', permit))) :
    s'.config = s.config ∧ permit.sequence = s.nextSequence + 1 ∧
      s'.issuedPermits.lookup permit.sequence = some ⟨permit, key'⟩ := by
  unfold Supervisor.issuePermit at h
  split at h
  · cases h
  split at h
  · cases h
  rcases s.takeSequence_cases with ⟨error, ht⟩ | ⟨-, ht⟩
  · rw [ht] at h
    cases h
  rw [ht] at h
  dsimp only at h
  unfold Supervisor.storePermit permitFor at h
  dsimp only at h
  split at h
  · cases h
  rename_i hp
  obtain ⟨-, hp⟩ := ite_error_ok.mp hp
  cases hp
  cases h
  exact ⟨rfl, rfl, by simp⟩

theorem exchange_call {c : Primitives} (hc : c.Lawful) (w : Scene) {a : WrapperArgs}
    {s : Supervisor} (hs : a.script.length < 2 ^ 64) (hm : s.config.maxParallelRequests < 2 ^ 64)
    (hbeside : ∀ gap t, Beside (s.nextSequence + 1) t (w.others gap t)) :
    exchange c w a s = call w a s := by
  have hmax : SOCKET_FRAME_BYTES = MAX_FRAME_BYTES := rfl
  rw [call]
  dsimp only
  by_cases hlong : MAX_FRAME_BYTES < (canonicalJson (permitRequestJson a)).length
  · rw [if_pos hlong, exchange, w.requestWire.send_tooLarge hlong, hmax]
  rw [if_neg hlong]
  obtain ⟨sent, hsend, hreceive⟩ := w.requestWire.send_ok (Nat.not_lt.mp hlong)
  rw [exchange, hsend]
  dsimp only
  rw [hreceive]
  by_cases hbroker : admitsBroker s.config a.startupNonce = true
  · rw [if_neg (not_not.mpr hbroker)]
    cases hi : s.issuePermit (permitRequest a) w.issue.now w.issue.nowMillis w.issue.requestId
      w.issue.key with
    | mk s' issued =>
      rw [handleFirst_request hs s w.permitWire w.issue hbroker hi]
      cases issued with
      | error error =>
        have hmem := issuePermit_error hi
        obtain ⟨hsize, htext⟩ := issueErrors_text error hmem
        have hlength : (canonicalJson (permitRefusal error)).length ≤ SOCKET_FRAME_BYTES := by
          rw [canonicalJson_length]
          exact hsize
        obtain ⟨sent', hsend', hreceive'⟩ := w.permitWire.send_ok hlength
        rw [answerPermit, sendValue, hsend', orFrame, Except.map]
        dsimp only
        rw [hreceive', answerPermitFrame, awaitFrame, ok_bind, permitRefusal_read]
        by_cases herror : error = .leaseRenewalRequired
        · subst herror
          rw [if_pos (htext.mpr rfl)]
          rfl
        · rw [if_neg (fun ht => herror (htext.mp ht))]
          cases error <;> first | rfl | exact absurd rfl herror
      | ok given =>
        obtain ⟨key, permit⟩ := given
        obtain ⟨hconfig, hsequence, hlookup⟩ := issuePermit_stored hi
        have hissued := issuePermit_ok hi
        dsimp only
        rw [answerPermit, sendValue, hconfig]
        by_cases hwide : MAX_FRAME_BYTES <
            (canonicalJson (permitResponse permit key s.config.capability)).length
        · rw [if_pos hwide, w.permitWire.send_tooLarge hwide]
          rfl
        rw [if_neg hwide]
        obtain ⟨sent', hsend', hreceive'⟩ := w.permitWire.send_ok (Nat.not_lt.mp hwide)
        have hread := @permitResponse_read permit key s.config.capability
          (by rw [hissued.maxPayload]; decide) (by rw [hissued.maxScript]; decide) hm
          (show MAX_SCRIPT_BYTES < 2 ^ 64 by decide)
        rw [hsend', orFrame, Except.map]
        dsimp only
        rw [hreceive', answerPermitFrame, awaitFrame, ok_bind, hread, ok_bind]
        dsimp only
        rw [requestFromPermit_eq]
        cases haccept : acceptPermit a s.config.capability permit w.wrapperNow with
        | error error => rfl
        | ok inner =>
          have haccepted := acceptPermit_ok haccept
          obtain ⟨text, ht, hbig, hfits⟩ := sealRequest_sized hc haccepted
            (sealed_le haccepted (Nat.not_lt.mp hwide)) key w.requestNonce
          rw [Except.bind]
          dsimp only
          by_cases hframe : MAX_FRAME_BYTES < bareRequestSize permit (requestTextSize inner)
          · rw [if_pos hframe, hbig hframe]
            rfl
          · rw [if_neg hframe]
            obtain ⟨hseal, hv⟩ := hfits (Nat.not_lt.mp hframe)
            rw [hseal, orExecute, ok_bind]
            dsimp only
            rw [← hconfig] at haccepted
            have hgranted : Granted w s' a permit key inner :=
              { accepted := haccepted
                beside := by rw [hsequence]; exact hbeside
                own := fun issued hl => Option.some.inj (hl.symm.trans hlookup)
                payload := hissued.maxPayload
                space := by rw [hconfig]; exact hissued.defaultTaskSpace }
            exact exchangeRequest_eq hc hgranted ht hv
  · rw [if_pos hbroker]
    obtain ⟨error, hclosed⟩ :=
      handleFirst_closed hs s w.permitWire w.issue (by simpa using hbroker)
    rw [hclosed]

theorem readArgs_script {env : WrapperEnv} {chunks : List Bytes} {a : WrapperArgs}
    (h : readArgs env chunks = .ok a) : a.script.length ≤ MAX_SCRIPT_BYTES := by
  obtain ⟨script, hscript, h⟩ := bind_ok h
  obtain ⟨nonce, -, h⟩ := bind_ok h
  obtain ⟨timeoutMs, -, h⟩ := bind_ok h
  cases h
  cases hread : readBoundedScript [] chunks with
  | error error =>
    rw [hread] at hscript
    cases hscript
  | ok script' =>
    rw [hread] at hscript
    cases hscript
    exact ((readBoundedScript_ok [] chunks script (Nat.zero_le _)).mp hread).2

/-- **The run is the call**, however its frames are cut up on their way and whatever others do to
the supervisor while the bridge holds no lock. -/
theorem execute_refines {c : Primitives} (hc : c.Lawful) (w : Scene) (env : WrapperEnv)
    (chunks : List Bytes) {s : Supervisor} (hm : s.config.maxParallelRequests < 2 ^ 64)
    (hbeside : ∀ gap t, Beside (s.nextSequence + 1) t (w.others gap t)) :
    execute c w env chunks s = executeCall w env chunks s := by
  unfold execute executeCall
  cases ha : readArgs env chunks with
  | error error => rfl
  | ok a =>
    dsimp only
    have hs : a.script.length < 2 ^ 64 := Nat.lt_of_le_of_lt (readArgs_script ha) (by decide)
    rw [exchange_call hc w hs hm hbeside]

/-! ## One run -/

/-- Nobody else is there, and the process says nothing. -/
def aloneScene : Scene where
  connects := true
  requestWire := plainWire
  permitWire := plainWire
  envelopeWire := plainWire
  responseWire := plainWire
  issue := ⟨0, 0, sampleId, plainKey⟩
  wrapperNow := 0
  requestNonce := zeroNonce
  others := fun _ s => s
  run := ⟨0, 0, fun _ => (⟨.completed, some 0, []⟩, "", ""), 0, zeroNonce⟩

def labelledEnv : WrapperEnv := ⟨some "n1", some "1000", some "work", none, none, none⟩

def aloneResponse : InnerExecuteResponse :=
  processResponse ⟨.completed, some 0, []⟩ "" "" 0 (requestEnvelope labelledPermit 0)

theorem acceptPermit_of {a : WrapperArgs} {capability : BridgeCapability} {permit : RequestPermit}
    {now : UInt64} {inner : InnerExecuteRequest} (h : Accepted a capability permit now inner) :
    acceptPermit a capability permit now = .ok inner := by
  rw [acceptPermit, h.advertised, h.permitted, h.scope, h.built]
  simp only [orWrapper, ok_bind, h.valid]

theorem call_labelled :
    (call aloneScene (labelled "work") brokerSupervisor).2 = .ok aloneResponse := by
  have hrequest : ¬ MAX_FRAME_BYTES <
      (canonicalJson (permitRequestJson (labelled "work"))).length := by
    rw [canonicalJson_length]
    decide +kernel
  have hbroker : ¬ ¬ admitsBroker brokerSupervisor.config (labelled "work").startupNonce := by
    decide
  have hissued := Prod.mk.eta.symm.trans (congrArg (Prod.mk _) issued_plain)
  have hpermit : ¬ MAX_FRAME_BYTES < (canonicalJson
      (permitResponse labelledPermit plainKey brokerConfig.capability)).length := by
    rw [canonicalJson_length]
    decide +kernel
  have haccept : acceptPermit (labelled "work") brokerConfig.capability labelledPermit 0 =
      .ok labelledRequest := acceptPermit_of labelled_accepted
  have hframe : ¬ MAX_FRAME_BYTES <
      bareRequestSize labelledPermit (requestTextSize labelledRequest) := by decide +kernel
  have hperform : (perform aloneScene
      (brokerSupervisor.issuePermit (permitRequest (labelled "work")) 0 0 sampleId plainKey).1
      labelledPermit labelledRequest).2 = some aloneResponse := by rfl
  have htaken : takeResponse labelledPermit aloneResponse = .ok aloneResponse := by
    have h1 : ¬ MAX_FRAME_BYTES <
      envelopeSize (requestEnvelope labelledPermit 0) (plaintextSize aloneResponse) := by
      decide +kernel
    have h2 : ¬ labelledPermit.maxPayloadBytes < plaintextSize aloneResponse := by decide +kernel
    rw [takeResponse, if_neg h1, if_neg h2]
    rfl
  generalize hs : (brokerSupervisor.issuePermit (permitRequest (labelled "work"))
    0 0 sampleId plainKey).1 = s at *
  have hconfig : s.config = brokerConfig := by rw [← hs]; rfl
  rw [call]
  dsimp only [aloneScene]
  rw [if_neg hrequest, if_neg hbroker, hissued]
  dsimp only
  rw [hconfig, if_neg hpermit, haccept]
  dsimp only
  rw [if_neg hframe]
  exact (congrArg (settle labelledPermit) hperform).trans htaken

theorem execute_refines_labelled :
    (execute plainCipher aloneScene labelledEnv [utf8 "1"] brokerSupervisor).2 =
      .ok aloneResponse := by
  have hargs : readArgs labelledEnv [utf8 "1"] = .ok (labelled "work") := by rfl
  rw [execute_refines plainCipher_lawful aloneScene labelledEnv [utf8 "1"] (by decide)
    (fun _ t => .refl _ t), executeCall, hargs]
  dsimp only
  rw [if_pos (show aloneScene.connects = true from rfl)]
  exact call_labelled

end Wrapper
end EgoBridge
