import EgoBridge.Wrapper.Request
import EgoBridge.Bridge.StateStore

/-!
# Wrapper.ScriptFit

From an accepted script to its sealed request and to the script the bridge runs: what the sizes
come to on the way.

* `readBoundedScript_ok` — which scripts are read, whatever chunks they come in.
* `requestTextSize`, `requestEnvelopeSize` — the bytes of a request's inner text and of its
  envelope with a key wrap.
* `passesOuter_iff`, `frame_iff` — a request passes if its frame fits, and that is a bound on the
  tab scope.
* `script_fits` — every script that is accepted fits, but for the tab scope of a `task_space`
  request, which nothing else bounds.
-/

namespace EgoBridge
namespace Wrapper

open Protocol Json Bridge

/-! ## Reading -/

/-- What is read of the script so far, in chunks of whatever sizes the pipe gives. -/
def readBoundedScript (output : Bytes) : List Bytes → Except WrapperError Bytes
  | [] => .ok output
  | chunk :: chunks =>
    if MAX_SCRIPT_BYTES < output.length + chunk.length then
      .error (.protocol "protocol_error: script exceeds 1 MiB")
    else readBoundedScript (output ++ chunk) chunks

/-- The chunks do not matter: a script is read whole, if it is not too long. -/
theorem readBoundedScript_ok (output : Bytes) (chunks : List Bytes) (script : Bytes)
    (ho : output.length ≤ MAX_SCRIPT_BYTES) :
    readBoundedScript output chunks = .ok script ↔
      script = output ++ chunks.flatten ∧ script.length ≤ MAX_SCRIPT_BYTES := by
  induction chunks generalizing output with
  | nil =>
    simp only [readBoundedScript, Except.ok.injEq, List.flatten_nil, List.append_nil]
    constructor
    · intro h
      exact ⟨h.symm, h ▸ ho⟩
    · intro h
      exact h.1.symm
  | cons chunk chunks ih =>
    simp only [readBoundedScript, List.flatten_cons]
    by_cases hlen : MAX_SCRIPT_BYTES < output.length + chunk.length
    · rw [if_pos hlen]
      simp only [reduceCtorEq, false_iff, not_and]
      intro h
      simp [h]
      omega
    · rw [if_neg hlen, ih (output ++ chunk) (by simp; omega), List.append_assoc]

/-! ## Sealing -/

def requestEnvelope (permit : RequestPermit) (size : Nat) : OuterEnvelope where
  protocol := PROTOCOL_VERSION
  channel := "ego_browser_bridge"
  relayBindingKind := "ego_browser"
  messageType := .execute
  requestId := permit.requestId
  bindingId := permit.bindingId
  generation := permit.generation
  sequence := permit.sequence
  direction := .request
  payloadBytes := size
  nonce := ""
  ciphertext := ""
  authTag := ""
  keyWrap := ""

section

variable (c : Primitives)

def sealRequest (inner : InnerExecuteRequest) (permit : RequestPermit) (key : Key)
    (nonce : Nonce) : Except WrapperError OuterEnvelope :=
  let plaintext := canonicalJson inner.toJson
  let envelope := requestEnvelope permit plaintext.length
  match orWrapper (c.sealDetached key nonce plaintext (aadForOuter envelope)) with
  | .error e => .error e
  | .ok (nonce, ciphertext, tag) =>
    let envelope :=
      { envelope with
        payloadBytes := ciphertext.length
        nonce := encodeB64url nonce
        ciphertext := encodeB64url ciphertext
        authTag := encodeB64url tag }
    match orWrapper (envelope.validate MAX_FRAME_BYTES) with
    | .error e => .error e
    | .ok () => .ok envelope

/-- `execute`, from the permit to the envelope it sends. -/
def requestFromPermit (a : WrapperArgs) (capability : BridgeCapability) (permit : RequestPermit)
    (now : UInt64) (key : Key) (nonce : Nonce) : Except WrapperError OuterEnvelope := do
  orWrapper capability.validate
  orWrapper (permit.validate capability now a.script.length)
  checkPermitScope a permit
  let inner ← innerRequestFromPermit a.script a.timeoutMs a.cwdLabel permit
  orWrapper (inner.validate capability)
  sealRequest c inner permit key nonce

end

/-- The wrapper accepts the script, the label, the scope and the permit. -/
structure Accepted (a : WrapperArgs) (capability : BridgeCapability) (permit : RequestPermit)
    (now : UInt64) (inner : InnerExecuteRequest) : Prop where
  advertised : capability.validate = .ok ()
  permitted : permit.validate capability now a.script.length = .ok ()
  scope : checkPermitScope a permit = .ok ()
  built : innerRequestFromPermit a.script a.timeoutMs a.cwdLabel permit = .ok inner
  valid : inner.validate capability = .ok ()

/-- The envelope with the key wrap that the broker adds. -/
def withWrap (e : OuterEnvelope) (wrapped : Bytes) : OuterEnvelope :=
  { e with keyWrap := encodeB64url wrapped }

/-- The request is sealed, and its envelope is valid with any key wrap. -/
def PassesOuter (c : Primitives) (a : WrapperArgs) (capability : BridgeCapability)
    (permit : RequestPermit) (now : UInt64) : Prop :=
  ∀ key nonce, ∃ e, requestFromPermit c a capability permit now key nonce = .ok e ∧
    ∀ wrapped : Bytes, wrapped.length = KEY_WRAP_BYTES →
      (withWrap e wrapped).validate MAX_FRAME_BYTES = .ok ()

/-! ## The script that is run -/

/-- The text of `helper_adapter.js`, of which only the length matters here. -/
structure HelperAdapter where
  text : String
  size : (utf8 text).length = 5042

/-- `Path::is_absolute`. -/
def isAbsolutePath (path : String) : Bool := path.toList.head? = some '/'

def helperContext (socketPath : Option String) (defaultTaskSpace artifactDir : String) : Json :=
  .obj [("artifactDir", .str artifactDir), ("socket", ofOption .str socketPath),
    ("taskSpace", .str defaultTaskSpace)]

def helperGuardScript (adapter : HelperAdapter) (socketPath : Option String)
    (defaultTaskSpace artifactDir script : String) : Except BridgeError String :=
  if ¬ isDedicatedTaskSpace defaultTaskSpace ∨ ¬ isAbsolutePath artifactDir then
    .error (.protocolMessage "invalid helper context")
  else
    .ok (adapter.text ++ "\nawait installRemoteHelpers(" ++
      String.ofList (render (helperContext socketPath defaultTaskSpace artifactDir)) ++ ");\n" ++
      script)

/-- The length that `run_execution_supervisor` accepts. -/
def checkSupervisedLength (length : Nat) : Except BridgeError Unit :=
  if length = 0 ∨ MAX_SCRIPT_BYTES + 64 * 1024 < length then
    .error (.protocolMessage "supervised script exceeds limit")
  else .ok ()

/-! ## Sizes -/

def optionSize : Option String → Nat
  | none => 4
  | some text => 2 + escapedSize text

/-- The bytes of a request before it is sealed. -/
def requestTextSize (r : InnerExecuteRequest) : Nat :=
  193 + escapedSize r.protocol + escapedSize r.messageType.name + escapedSize r.script +
    decimalSize r.timeoutMs.toNat + escapedSize r.cwdLabel + escapedSize r.defaultTaskSpace +
    escapedSize r.concurrencyMode.name + optionSize r.taskSpaceScope + optionSize r.tabScope +
    decimalSize r.allowlistRevision.toNat + optionSize r.learningBundleDigest

/-- The bytes of a request's envelope but for its payload and the number of its bytes. -/
def envelopeRest (permit : RequestPermit) : Nat :=
  309 + escapedSize permit.requestId + escapedSize permit.bindingId +
    decimalSize permit.generation.toNat + decimalSize permit.sequence.toNat +
    (4 * KEY_WRAP_BYTES + 2) / 3

/-- The bytes of a request's envelope with its key wrap, for `n` bytes of inner text. -/
def requestEnvelopeSize (permit : RequestPermit) (n : Nat) : Nat :=
  envelopeRest permit + decimalSize n + (4 * n + 2) / 3

/-- What is left in the frame for the tab scope, once it is escaped. -/
def tabRoom (r : InnerExecuteRequest) (permit : RequestPermit) : Nat :=
  3 * (MAX_FRAME_BYTES - (envelopeRest permit + 8)) / 4 -
    requestTextSize { r with tabScope := some "" }

theorem size_ofOption (text : Option String) : size (ofOption .str text) = optionSize text := by
  cases text with
  | none => rfl
  | some text => exact size_str text

theorem requestTextSize_eq (r : InnerExecuteRequest) :
    (canonicalJson r.toJson).length = requestTextSize r := by
  rw [canonicalJson_length, InnerExecuteRequest.toJson, size_obj]
  simp only [membersSize, InnerExecuteRequest.members, List.map_cons, List.map_nil, List.sum_cons,
    List.sum_nil, size_str, size_ofU64, size_ofOption, requestTextSize,
    show escapedSize "protocol" = 8 from rfl, show escapedSize "type" = 4 from rfl,
    show escapedSize "script" = 6 from rfl, show escapedSize "timeout_ms" = 10 from rfl,
    show escapedSize "cwd_label" = 9 from rfl, show escapedSize "default_task_space" = 18 from rfl,
    show escapedSize "concurrency_mode" = 16 from rfl,
    show escapedSize "task_space_scope" = 16 from rfl, show escapedSize "tab_scope" = 9 from rfl,
    show escapedSize "allowlist_revision" = 18 from rfl,
    show escapedSize "learning_bundle_digest" = 22 from rfl]
  omega

/-! ## The sealed request -/

/-- The request's envelope with `n` bytes of inner text sealed in `text`. -/
def sealedRequest (permit : RequestPermit) (n : Nat) (nonce : Nonce) (text : Bytes) :
    OuterEnvelope :=
  { requestEnvelope permit n with
    nonce := encodeB64url nonce.bytes
    ciphertext := encodeB64url (text.take n)
    authTag := encodeB64url (text.drop n) }

section

variable {permit : RequestPermit} {n : Nat} {nonce : Nonce} {text : Bytes}

theorem sealedRequest_wireSize (ht : text.length = n + 16) :
    (sealedRequest permit n nonce text).wireSize + (4 * KEY_WRAP_BYTES + 2) / 3 =
      requestEnvelopeSize permit n := by
  have hnonce := nonce.length_eq
  have hc : (text.take n).length = n := by rw [List.length_take]; omega
  have htag : (text.drop n).length = 16 := by rw [List.length_drop]; omega
  rw [OuterEnvelope.wireSize_eq]
  simp only [sealedRequest, requestEnvelope, requestEnvelopeSize, envelopeRest, encodeB64url_size,
    hnonce, hc, htag, show escapedSize PROTOCOL_VERSION = 21 from rfl,
    show escapedSize "ego_browser_bridge" = 18 from rfl,
    show escapedSize "ego_browser" = 11 from rfl,
    show escapedSize OuterMessageType.execute.name = 7 from rfl,
    show escapedSize Direction.request.name = 7 from rfl, show escapedSize "" = 0 from rfl]
  omega

theorem withWrap_wireSize {e : OuterEnvelope} (he : e.keyWrap = "") (wrapped : Bytes) :
    (withWrap e wrapped).wireSize = e.wireSize + (4 * wrapped.length + 2) / 3 := by
  rw [OuterEnvelope.wireSize_eq, OuterEnvelope.wireSize_eq, he]
  simp only [withWrap, encodeB64url_size, show escapedSize "" = 0 from rfl]
  omega

/-- A sealed request is valid if its frame fits. -/
theorem sealedRequest_valid {capability : BridgeCapability} {now : UInt64} {scriptBytes m : Nat}
    (hp : permit.Valid capability now scriptBytes) (h0 : n ≠ 0) (ht : text.length = n + 16)
    (hn : n ≤ m) (hw : (sealedRequest permit n nonce text).wireSize ≤ m) :
    (sealedRequest permit n nonce text).Valid m where
  protocol := rfl
  channel := rfl
  relayBindingKind := rfl
  typed := .inl ⟨rfl, .inl rfl⟩
  requestId := hp.requestId
  bindingId := hp.bindingId
  generation := hp.generation
  sequence := hp.sequence
  payloadBytes := hn
  payload := by
    have hc : (text.take n).length = n := by rw [List.length_take]; omega
    refine ⟨text.take n, nonce.bytes, text.drop n,
      ⟨decodeB64_encodeB64url _, decodeB64_encodeB64url _, decodeB64_encodeB64url _⟩,
      nonce.length_eq, by rw [List.length_drop]; omega, hc, fun he => ?_⟩
    rw [he] at hc
    exact h0 hc.symm
  keyWrap := .inl rfl
  wireSize := hw

theorem withWrap_valid {e : OuterEnvelope} (he : e.Valid MAX_FRAME_BYTES) (hk : e.keyWrap = "")
    (hm : e.messageType = .execute) {wrapped : Bytes} (hl : wrapped.length = KEY_WRAP_BYTES)
    (hw : e.wireSize + (4 * KEY_WRAP_BYTES + 2) / 3 ≤ MAX_FRAME_BYTES) :
    (withWrap e wrapped).Valid MAX_FRAME_BYTES :=
  { he.toRouted with
    payload := he.payload.imp fun ciphertext h => h.imp fun nonce h => h.imp fun tag h =>
      ⟨⟨h.1.ciphertext, h.1.nonce, h.1.tag⟩, h.2⟩
    keyWrap := .inr ⟨hm, wrapped, decodeB64_encodeB64url _, hl⟩
    wireSize := by rw [withWrap_wireSize hk, hl]; exact hw }

end

/-- What is sealed is an envelope, if that is valid. -/
theorem sealRequest_eq {c : Primitives} (hc : c.Lawful) {inner : InnerExecuteRequest}
    {permit : RequestPermit} {key : Key} {nonce : Nonce} {n : Nat} {text : Bytes}
    (hn : (canonicalJson inner.toJson).length = n)
    (ht : c.encrypt key nonce.bytes (aadForOuter (requestEnvelope permit n))
      (canonicalJson inner.toJson) = some text) :
    sealRequest c inner permit key nonce =
      (orWrapper ((sealedRequest permit n nonce text).validate MAX_FRAME_BYTES)).map
        fun _ => sealedRequest permit n nonce text := by
  have hl : text.length = n + 16 := by rw [hc.length ht, hn]
  have hs : text.length - 16 = n := by omega
  have hm : min n text.length = n := by omega
  have hsealed : ({ requestEnvelope permit n with
      payloadBytes := (text.take n).length
      nonce := encodeB64url nonce.bytes
      ciphertext := encodeB64url (text.take n)
      authTag := encodeB64url (text.drop n) } : OuterEnvelope) =
        sealedRequest permit n nonce text := by
    rw [List.length_take, hm]
    rfl
  rw [sealRequest, Primitives.sealDetached, hn, ht]
  simp only [if_neg (show ¬ text.length < 16 by omega), hs, orWrapper, hsealed]
  cases (sealedRequest permit n nonce text).validate MAX_FRAME_BYTES with
  | error error => rfl
  | ok u => rfl

theorem sealRequest_ok {c : Primitives} (hc : c.Lawful) {inner : InnerExecuteRequest}
    {permit : RequestPermit} {key : Key} {nonce : Nonce} {e : OuterEnvelope} {n : Nat}
    (hn : (canonicalJson inner.toJson).length = n) :
    sealRequest c inner permit key nonce = .ok e ↔
      (∃ text, c.encrypt key nonce.bytes (aadForOuter (requestEnvelope permit n))
        (canonicalJson inner.toJson) = some text ∧ e = sealedRequest permit n nonce text) ∧
      e.Valid MAX_FRAME_BYTES := by
  cases ht : c.encrypt key nonce.bytes (aadForOuter (requestEnvelope permit n))
    (canonicalJson inner.toJson) with
  | none =>
    rw [sealRequest, Primitives.sealDetached, hn, ht]
    simp [orWrapper]
  | some text =>
    rw [sealRequest_eq hc hn ht]
    simp only [Option.some.injEq, exists_eq_left']
    cases hv : (sealedRequest permit n nonce text).validate MAX_FRAME_BYTES with
    | error error =>
      simp only [orWrapper, Except.map, reduceCtorEq, false_iff, not_and]
      rintro rfl h
      rw [OuterEnvelope.validate_ok.mpr h] at hv
      cases hv
    | ok u =>
      have hvalid := OuterEnvelope.validate_ok.mp hv
      simp only [orWrapper, Except.map, Except.ok.injEq]
      constructor
      · intro h
        exact ⟨h.symm, h ▸ hvalid⟩
      · intro h
        exact h.1.symm

section

variable {c : Primitives} {a : WrapperArgs} {capability : BridgeCapability}
  {permit : RequestPermit} {now : UInt64} {inner : InnerExecuteRequest}

theorem Accepted.request (h : Accepted a capability permit now inner) (key : Key) (nonce : Nonce) :
    requestFromPermit c a capability permit now key nonce =
      sealRequest c inner permit key nonce := by
  rw [requestFromPermit, h.advertised, h.permitted, h.scope, h.built]
  simp only [orWrapper, ok_bind, h.valid]

/-- A request passes if and only if its frame fits with a key wrap. -/
theorem passesOuter_iff (hc : c.Lawful) (h : Accepted a capability permit now inner) :
    PassesOuter c a capability permit now ↔
      requestEnvelopeSize permit (requestTextSize inner) ≤ MAX_FRAME_BYTES := by
  have hn := requestTextSize_eq inner
  have h0 : requestTextSize inner ≠ 0 := by unfold requestTextSize; omega
  constructor
  · intro hp
    obtain ⟨e, he, hwrap⟩ := hp plainKey zeroNonce
    rw [h.request] at he
    obtain ⟨⟨text, ht, rfl⟩, -⟩ := (sealRequest_ok hc hn).mp he
    have hl : text.length = requestTextSize inner + 16 := by rw [hc.length ht, hn]
    have hw := OuterEnvelope.validate_ok.mp
      (hwrap (List.replicate KEY_WRAP_BYTES 0) List.length_replicate)
    have hsize := hw.wireSize
    rw [withWrap_wireSize rfl, List.length_replicate, sealedRequest_wireSize hl] at hsize
    exact hsize
  · intro hle key nonce
    have hmax : requestTextSize inner ≤ MAX_FRAME_BYTES := by
      unfold requestEnvelopeSize at hle
      omega
    obtain ⟨text, ht⟩ := hc.total key nonce.bytes
      (aadForOuter (requestEnvelope permit (requestTextSize inner))) (canonicalJson inner.toJson)
      (by rw [hn]; exact Nat.le_trans hmax (by decide))
    have hl : text.length = requestTextSize inner + 16 := by rw [hc.length ht, hn]
    have hw := @sealedRequest_wireSize permit _ nonce _ hl
    have hv : (sealedRequest permit (requestTextSize inner) nonce text).Valid MAX_FRAME_BYTES :=
      sealedRequest_valid (RequestPermit.validate_ok.mp h.permitted) h0 hl hmax (by omega)
    refine ⟨sealedRequest permit (requestTextSize inner) nonce text, ?_, fun wrapped hlen => ?_⟩
    · rw [h.request]
      exact (sealRequest_ok hc hn).mpr ⟨⟨text, ht, rfl⟩, hv⟩
    · refine OuterEnvelope.validate_ok.mpr (withWrap_valid hv rfl rfl hlen ?_)
      rw [sealedRequest_wireSize hl]
      exact hle

end

/-! ## The room that is left -/

theorem decimalSize_le {n k : Nat} (hk : 0 < k) (h : n < 10 ^ k) : decimalSize n ≤ k :=
  (Nat.length_toDigits_le_iff (by decide) hk).mpr h

theorem le_decimalSize {n k : Nat} (hk : 0 < k) (h : 10 ^ k ≤ n) : k < decimalSize n := by
  by_contra hn
  have hlt : n < 10 ^ k := (Nat.length_toDigits_le_iff (by decide) hk).mp (Nat.not_lt.mp hn)
  omega

/-- Base64 and the digits of the length, undone. A frame's payload has eight digits at the limit. -/
theorem envelope_fits_iff {rest n : Nat} (hrest : rest ≤ 3000) :
    rest + decimalSize n + (4 * n + 2) / 3 ≤ MAX_FRAME_BYTES ↔
      n ≤ 3 * (MAX_FRAME_BYTES - (rest + 8)) / 4 := by
  have hmax : MAX_FRAME_BYTES = 16777216 := rfl
  rw [hmax]
  by_cases hsmall : n < 10 ^ 7
  · have hd : decimalSize n ≤ 7 := decimalSize_le (by decide) hsmall
    omega
  · have hlow : 7 < decimalSize n := le_decimalSize (by decide) (Nat.not_lt.mp hsmall)
    by_cases hmid : n < 10 ^ 8
    · have hd : decimalSize n ≤ 8 := decimalSize_le (by decide) hmid
      omega
    · omega

theorem escapedSize_le {text : String} {n : Nat} (h : (utf8 text).length ≤ n) :
    escapedSize text ≤ 6 * n := by
  have := (escapedSize_bounds text).2
  omega

theorem validTextId_length {text : String} {n : Nat} (h : validTextId text n = true) :
    (utf8 text).length ≤ n := by
  simp only [validTextId, Bool.and_eq_true, decide_eq_true_eq] at h
  exact h.1.2

theorem dedicated_length {text : String} (h : isDedicatedTaskSpace text = true) :
    (utf8 text).length ≤ 256 := by
  simp only [isDedicatedTaskSpace, Bool.and_eq_true, decide_eq_true_eq] at h
  exact h.2.1.2

theorem envelopeRest_le {permit : RequestPermit} {capability : BridgeCapability} {now : UInt64}
    {scriptBytes : Nat} (hp : permit.Valid capability now scriptBytes) :
    envelopeRest permit ≤ 3000 := by
  have hr := escapedSize_le (validTextId_length hp.requestId)
  have hb := escapedSize_le (validTextId_length hp.bindingId)
  have hg := decimalSize_le_of_lt permit.generation.toNat_lt
  have hs := decimalSize_le_of_lt permit.sequence.toNat_lt
  have hk : (4 * KEY_WRAP_BYTES + 2) / 3 ≤ 200 := by decide
  unfold envelopeRest
  omega

section

variable {a : WrapperArgs} {capability : BridgeCapability} {permit : RequestPermit} {now : UInt64}
  {inner : InnerExecuteRequest}

theorem capability_bounds (h : capability.validate = .ok ()) :
    capability.maxScriptBytes ≤ MAX_SCRIPT_BYTES ∧
      ∀ digest, capability.learningBundleDigest = some digest → (utf8 digest).length ≤ 71 := by
  rw [BridgeCapability.validate, ite_error_ok, ite_error_ok, ite_error_ok, ite_error_ok,
    ite_error_ok, ite_error_ok, ite_error_ok] at h
  dsimp only at h
  rw [ite_error_ok] at h
  obtain ⟨-, -, -, hscript, -, -, -, hdigest, -⟩ := h
  simp only [not_or, Nat.not_lt, Bool.not_eq_true] at hscript hdigest
  refine ⟨hscript.2, fun digest hd => ?_⟩
  have hv := hdigest.2.2.2
  rw [hd] at hv
  have hvalid : validSha256Digest digest = true := by simpa using hv
  simp only [validSha256Digest, Bool.and_eq_true, decide_eq_true_eq] at hvalid
  exact Nat.le_of_eq hvalid.1.1

theorem Accepted.inner_eq (h : Accepted a capability permit now inner) :
    inner.defaultTaskSpace = permit.defaultTaskSpace ∧
      inner.concurrencyMode = permit.concurrencyMode ∧
      inner.taskSpaceScope = permit.taskSpaceScope ∧ inner.tabScope = permit.tabScope := by
  have hb := h.built
  unfold innerRequestFromPermit at hb
  split at hb
  · cases hb
  · cases hb
    exact ⟨rfl, rfl, rfl, rfl⟩

theorem Accepted.normal (h : Accepted a capability permit now inner) : permit.scope.Normal := by
  have hn := (RequestPermit.validate_ok.mp h.permitted).normal
  rw [← hn]
  exact RequestScope.normalized_normal _ _ _

theorem Accepted.taskSpace_le (h : Accepted a capability permit now inner) :
    optionSize inner.taskSpaceScope ≤ 2 + 6 * 256 := by
  have hp := RequestPermit.validate_ok.mp h.permitted
  rw [h.inner_eq.2.2.1]
  by_cases hb : permit.concurrencyMode = .binding
  · have hnone : permit.taskSpaceScope = none :=
      congrArg RequestScope.taskSpace (h.normal.binding hb)
    rw [hnone]
    decide
  · rw [hp.own hb]
    exact Nat.add_le_add_left (escapedSize_le (dedicated_length hp.dedicated)) 2

/-- Everything but the tab scope is bounded. -/
theorem Accepted.base_le (h : Accepted a capability permit now inner) :
    requestTextSize { inner with tabScope := some "" } ≤ 6300000 := by
  have hv := InnerExecuteRequest.validate_ok.mp h.valid
  obtain ⟨hmax, hdigest⟩ := capability_bounds h.advertised
  have h1 : escapedSize inner.script ≤ 6 * MAX_SCRIPT_BYTES :=
    escapedSize_le (Nat.le_trans hv.script.2 hmax)
  have h2 := escapedSize_le (validTextId_length hv.cwdLabel.1)
  have h3 := escapedSize_le (dedicated_length hv.dedicated)
  have h4 := decimalSize_le_of_lt inner.timeoutMs.toNat_lt
  have h5 := decimalSize_le_of_lt inner.allowlistRevision.toNat_lt
  have h6 : escapedSize inner.concurrencyMode.name ≤ 14 := by
    cases inner.concurrencyMode <;> decide
  have h7 := h.taskSpace_le
  have h8 : optionSize inner.learningBundleDigest ≤ 2 + 6 * 71 := by
    rw [hv.learning]
    cases hd : capability.learningBundleDigest with
    | none => decide
    | some digest => exact Nat.add_le_add_left (escapedSize_le (hdigest digest hd)) 2
  have h9 : escapedSize inner.protocol ≤ 40 := by
    rw [hv.protocol]
    decide
  have h10 : escapedSize inner.messageType.name = 7 := by rw [hv.messageType]; rfl
  have h11 : optionSize (some "") = 2 := rfl
  have h12 : MAX_SCRIPT_BYTES = 1048576 := rfl
  unfold requestTextSize
  dsimp only
  omega

theorem Accepted.room (h : Accepted a capability permit now inner) :
    6000000 ≤ tabRoom inner permit := by
  have hb := h.base_le
  have hr := envelopeRest_le (RequestPermit.validate_ok.mp h.permitted)
  have hm : MAX_FRAME_BYTES = 16777216 := rfl
  unfold tabRoom
  omega

theorem requestTextSize_tab (r : InnerExecuteRequest) {tab : String} (h : r.tabScope = some tab) :
    requestTextSize r = requestTextSize { r with tabScope := some "" } + escapedSize tab := by
  have h0 : escapedSize "" = 0 := rfl
  simp only [requestTextSize, h, optionSize, h0]
  omega

theorem requestTextSize_none (r : InnerExecuteRequest) (h : r.tabScope = none) :
    requestTextSize r ≤ requestTextSize { r with tabScope := some "" } + 2 := by
  have h0 : escapedSize "" = 0 := rfl
  simp only [requestTextSize, h, optionSize, h0]
  omega

/-- What fits the frame, in terms of the tab scope. -/
theorem Accepted.frame_iff (h : Accepted a capability permit now inner) :
    requestEnvelopeSize permit (requestTextSize inner) ≤ MAX_FRAME_BYTES ↔
      ∀ tab, permit.tabScope = some tab → escapedSize tab ≤ tabRoom inner permit := by
  have hbase := h.base_le
  have hroom := h.room
  have htab := h.inner_eq.2.2.2
  rw [requestEnvelopeSize, envelope_fits_iff (envelopeRest_le
    (RequestPermit.validate_ok.mp h.permitted))]
  cases ht : permit.tabScope with
  | none =>
    have hsize := requestTextSize_none inner (htab.trans ht)
    unfold tabRoom at hroom
    simp only [reduceCtorEq, false_implies, implies_true, iff_true]
    omega
  | some tab =>
    have hsize := requestTextSize_tab inner (htab.trans ht)
    simp only [Option.some.injEq, forall_eq']
    unfold tabRoom at hroom ⊢
    omega

/-- A tab scope is bounded in every mode but one. -/
theorem Accepted.tab_le (h : Accepted a capability permit now inner)
    (hm : permit.concurrencyMode ≠ .taskSpace) {tab : String} (ht : permit.tabScope = some tab) :
    escapedSize tab ≤ tabRoom inner permit := by
  have hroom := h.room
  have hv := InnerExecuteRequest.validate_ok.mp h.valid
  obtain ⟨-, hmode, -, htab⟩ := h.inner_eq
  cases hc : permit.concurrencyMode with
  | binding =>
    have hnone : permit.tabScope = none := congrArg RequestScope.tab (h.normal.binding hc)
    rw [hnone] at ht
    cases ht
  | taskSpace => exact absurd hc hm
  | taskSpaceTab =>
    have hvalid := (hv.scope.tab (hmode.trans hc)).1
    rw [htab, ht, Option.getD_some] at hvalid
    have hle := escapedSize_le (validTextId_length hvalid)
    omega

end

theorem optionSize_le {text : Option String} {n : Nat}
    (h : ∀ value, text = some value → (utf8 value).length ≤ n) : optionSize text ≤ 4 + 6 * n := by
  cases text with
  | none => simp [optionSize]
  | some value =>
    have hle := escapedSize_le (h value rfl)
    simp only [optionSize]
    omega

theorem helperContext_size (socketPath : Option String) (taskSpace artifactDir : String) :
    size (helperContext socketPath taskSpace artifactDir) =
      43 + escapedSize artifactDir + optionSize socketPath + escapedSize taskSpace := by
  rw [helperContext, size_obj]
  simp only [membersSize, List.map_cons, List.map_nil, List.sum_cons, List.sum_nil, size_str,
    size_ofOption, show escapedSize "artifactDir" = 11 from rfl,
    show escapedSize "socket" = 6 from rfl, show escapedSize "taskSpace" = 9 from rfl]
  omega

/-- The prelude and its context take less than 64 KiB. -/
theorem helperScript_fits (adapter : HelperAdapter) {socketPath : Option String}
    {taskSpace artifactDir script : String} (hd : isDedicatedTaskSpace taskSpace = true)
    (ha : isAbsolutePath artifactDir = true) (hsocket : ∀ path, socketPath = some path →
      (utf8 path).length ≤ 4096) (hdir : (utf8 artifactDir).length ≤ 4096)
    (hs : (utf8 script).length ≤ MAX_SCRIPT_BYTES) :
    ∃ text, helperGuardScript adapter socketPath taskSpace artifactDir script = .ok text ∧
      checkSupervisedLength (utf8 text).length = .ok () := by
  refine ⟨_, by rw [helperGuardScript, if_neg (by simp [hd, ha])], ?_⟩
  have h1 := escapedSize_le hdir
  have h2 := optionSize_le hsocket
  have h3 := escapedSize_le (dedicated_length hd)
  have h4 :
      (utf8 (String.ofList (render (helperContext socketPath taskSpace artifactDir)))).length =
        size (helperContext socketPath taskSpace artifactDir) := utf8_ofList_length _
  have h5 : (utf8 "\nawait installRemoteHelpers(").length = 28 := by decide
  have h6 : (utf8 ");\n").length = 3 := by decide
  have h7 := adapter.size
  rw [helperContext_size] at h4
  rw [checkSupervisedLength, if_neg]
  rw [utf8_append, utf8_append, utf8_append, utf8_append, List.length_append, List.length_append,
    List.length_append, List.length_append]
  omega

/-- **Scripts fit.** An accepted script's request fits the frame with its key wrap, if and only if
in the mode `task_space` the tab scope fits what room the rest leaves, which is six million bytes
at least; and the script with its prelude fits what is supervised. -/
theorem script_fits {c : Primitives} (hc : c.Lawful) {a : WrapperArgs}
    {capability : BridgeCapability} {permit : RequestPermit} {now : UInt64}
    {inner : InnerExecuteRequest} (h : Accepted a capability permit now inner) :
    (PassesOuter c a capability permit now ↔ (permit.concurrencyMode = .taskSpace →
      ∀ tab, permit.tabScope = some tab → escapedSize tab ≤ tabRoom inner permit)) ∧
    6000000 ≤ tabRoom inner permit ∧
    ∀ (adapter : HelperAdapter) (socketPath : Option String) (artifactDir : String),
      isAbsolutePath artifactDir = true → (utf8 artifactDir).length ≤ 4096 →
      (∀ path, socketPath = some path → (utf8 path).length ≤ 4096) →
      ∃ text, helperGuardScript adapter socketPath inner.defaultTaskSpace artifactDir inner.script =
          .ok text ∧ checkSupervisedLength (utf8 text).length = .ok () := by
  have hv := InnerExecuteRequest.validate_ok.mp h.valid
  have hmax := (capability_bounds h.advertised).1
  refine ⟨?_, h.room, fun adapter socketPath artifactDir ha hdir hsocket => ?_⟩
  · rw [passesOuter_iff hc h, h.frame_iff]
    constructor
    · intro hall _
      exact hall
    · intro hall tab ht
      by_cases hm : permit.concurrencyMode = .taskSpace
      · exact hall hm tab ht
      · exact h.tab_le hm ht
  · exact helperScript_fits adapter hv.dedicated ha hsocket hdir
      (Nat.le_trans hv.script.2 hmax)

/-- The request for the script `1`. -/
def labelledRequest : InnerExecuteRequest where
  protocol := INNER_PROTOCOL_VERSION
  messageType := .execute
  script := "1"
  timeoutMs := (labelled "work").timeoutMs
  cwdLabel := "work"
  defaultTaskSpace := "agent-remote:development"
  concurrencyMode := .binding
  taskSpaceScope := none
  tabScope := none
  allowlistRevision := 1
  learningBundleDigest := none

theorem labelled_accepted :
    Accepted (labelled "work") brokerConfig.capability labelledPermit 0 labelledRequest where
  advertised := rfl
  permitted := rfl
  scope := rfl
  built := by
    rw [innerRequestFromPermit, labelled, ofUtf8?_utf8]
    rfl
  valid := rfl

theorem blankText_size : (utf8 (String.ofList (List.replicate 5042 ' '))).length = 5042 := by
  rw [utf8_ofList_length]
  decide +kernel

def blankAdapter : HelperAdapter := ⟨String.ofList (List.replicate 5042 ' '), blankText_size⟩

/-- It fits under its permit, and so does what is run for it behind a file guard. -/
theorem script_fits_labelled :
    PassesOuter plainCipher (labelled "work") brokerConfig.capability labelledPermit 0 ∧
      6000000 ≤ tabRoom labelledRequest labelledPermit ∧
      ∃ text, helperGuardScript blankAdapter (some "/run/guard.sock")
          labelledRequest.defaultTaskSpace "/work/artifacts" labelledRequest.script = .ok text ∧
        checkSupervisedLength (utf8 text).length = .ok () := by
  have h := script_fits plainCipher_lawful labelled_accepted
  refine ⟨h.1.mpr fun hm => absurd hm (by decide), h.2.1, ?_⟩
  refine h.2.2 blankAdapter (some "/run/guard.sock") "/work/artifacts" (by decide) (by decide) ?_
  intro path hpath
  cases hpath
  decide

end Wrapper
end EgoBridge
