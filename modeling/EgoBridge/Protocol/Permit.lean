import EgoBridge.Protocol.Scheduler

/-!
# Protocol.Permit

The one-time permit: its identifier and its validation before a request is sealed or executed.

* `RequestPermit.validate_ok`       — what a permit that passes satisfies, and that it then passes.
* `InnerExecuteRequest.validate_ok` — the same for the request sealed under it.
-/

namespace EgoBridge
namespace Protocol

/-- `opaque_id`: a random UUID in 32 hexadecimal digits. -/
structure OpaqueId where
  text : String
  length_eq : (utf8 text).length = 32
  hex : (utf8 text).all isHexByte = true

theorem zeroId_length : (utf8 "00000000000000000000000000000000").length = 32 := by decide

theorem zeroId_hex : (utf8 "00000000000000000000000000000000").all isHexByte = true := by decide

theorem isHexByte_isTextByte {b : UInt8} (h : isHexByte b = true) : isTextByte b = true := by
  simp only [isHexByte, isTextByte, Bool.or_eq_true, Bool.and_eq_true, decide_eq_true_eq,
    UInt8.le_iff_toNat_le, ne_eq, ← UInt8.toNat_inj, UInt8.reduceToNat] at h ⊢
  omega

theorem OpaqueId.valid (id : OpaqueId) : validTextId id.text 128 = true := by
  have hne : id.text ≠ "" := by
    intro h
    have := id.length_eq
    rw [h] at this
    cases this
  have hbytes := List.all_eq_true.mp id.hex
  simp only [validTextId, Bool.and_eq_true, decide_eq_true_eq, id.length_eq]
  exact ⟨⟨by simpa using hne, by omega⟩,
    List.all_eq_true.mpr fun b hb => isHexByte_isTextByte (hbytes b hb)⟩

namespace RequestPermit

def scope (p : RequestPermit) : RequestScope := ⟨p.concurrencyMode, p.taskSpaceScope, p.tabScope⟩

/-- Validate broker metadata before a request is encrypted or executed. -/
def validate (p : RequestPermit) (capability : BridgeCapability) (nowUnixMs : UInt64)
    (scriptBytes : Nat) : Except ProtocolError Unit :=
  if ¬ validTextId p.bindingId 128 ∨ ¬ validTextId p.requestId 128 ∨ p.generation = 0 ∨
      p.sequence = 0 then
    .error (.invalidInner "permit identity")
  else if p.expiresAtUnixMs ≤ nowUnixMs then .error .leaseExpired
  else if p.maxPayloadBytes = 0 ∨ 16 * 1024 * 1024 < p.maxPayloadBytes then .error .frameTooLarge
  else if p.maxScriptBytes = 0 ∨ capability.maxScriptBytes < p.maxScriptBytes ∨
      p.maxScriptBytes < scriptBytes then
    .error .scriptTooLarge
  else if ¬ isDedicatedTaskSpace p.defaultTaskSpace then
    .error (.invalidInner "permit default task space")
  else if p.allowlistRevision ≠ capability.allowlistRevision ∨
      p.learningBundleDigest ≠ capability.learningBundleDigest then
    .error (.capabilityMismatch "permit capability")
  else if p.concurrencyMode ∉ capability.supportedConcurrency then
    .error (.capabilityMismatch "permit concurrency")
  else
    let expected := RequestScope.normalized (some p.concurrencyMode) p.taskSpaceScope p.tabScope
    if expected.mode ≠ p.concurrencyMode ∨ expected.taskSpace ≠ p.taskSpaceScope ∨
        expected.tab ≠ p.tabScope then
      .error (.invalidInner "permit scope")
    else if p.concurrencyMode ≠ .binding ∧ p.taskSpaceScope ≠ some p.defaultTaskSpace then
      .error (.invalidInner "permit dedicated task space scope")
    else .ok ()

structure Valid (p : RequestPermit) (capability : BridgeCapability) (nowUnixMs : UInt64)
    (scriptBytes : Nat) : Prop where
  bindingId : validTextId p.bindingId 128 = true
  requestId : validTextId p.requestId 128 = true
  generation : p.generation ≠ 0
  sequence : p.sequence ≠ 0
  unexpired : nowUnixMs < p.expiresAtUnixMs
  payload : p.maxPayloadBytes ≠ 0 ∧ p.maxPayloadBytes ≤ 16 * 1024 * 1024
  script : p.maxScriptBytes ≠ 0 ∧ p.maxScriptBytes ≤ capability.maxScriptBytes ∧
    scriptBytes ≤ p.maxScriptBytes
  dedicated : isDedicatedTaskSpace p.defaultTaskSpace = true
  allowlist : p.allowlistRevision = capability.allowlistRevision
  learning : p.learningBundleDigest = capability.learningBundleDigest
  concurrency : p.concurrencyMode ∈ capability.supportedConcurrency
  normal : RequestScope.normalized (some p.concurrencyMode) p.taskSpaceScope p.tabScope = p.scope
  own : p.concurrencyMode ≠ .binding → p.taskSpaceScope = some p.defaultTaskSpace

theorem validate_ok {p : RequestPermit} {capability : BridgeCapability} {nowUnixMs : UInt64}
    {scriptBytes : Nat} :
    p.validate capability nowUnixMs scriptBytes = .ok () ↔
      p.Valid capability nowUnixMs scriptBytes := by
  have hscope : ∀ s : RequestScope, s = p.scope ↔
      ¬ (s.mode ≠ p.concurrencyMode ∨ s.taskSpace ≠ p.taskSpaceScope ∨ s.tab ≠ p.tabScope) := by
    rintro ⟨mode, taskSpace, tab⟩
    simp [scope]
  rw [validate, ite_error_ok, ite_error_ok, ite_error_ok, ite_error_ok, ite_error_ok, ite_error_ok,
    ite_error_ok]
  dsimp only
  rw [ite_error_ok, ite_error_ok, ← hscope]
  simp only [not_or, not_not, not_and, ne_eq, Nat.not_lt, UInt64.not_le, and_true]
  constructor
  · rintro ⟨h1, h2, h3, h4, h5, h6, h7, h8, h9⟩
    exact ⟨h1.1, h1.2.1, h1.2.2.1, h1.2.2.2, h2, h3, h4, h5, h6.1, h6.2, h7, h8, h9⟩
  · intro h
    exact ⟨⟨h.bindingId, h.requestId, h.generation, h.sequence⟩, h.unexpired, h.payload, h.script,
      h.dedicated, ⟨h.allowlist, h.learning⟩, h.concurrency, h.normal, h.own⟩

end RequestPermit

namespace InnerExecuteRequest

/-- The scope rules `validate` adds to those of the permit. -/
structure ScopeValid (r : InnerExecuteRequest) : Prop where
  taskSpace : r.concurrencyMode ≠ .binding → validTextId (r.taskSpaceScope.getD "") 256 = true ∧
    containsText "*" (r.taskSpaceScope.getD "") = false ∧
    r.taskSpaceScope.getD "" = r.defaultTaskSpace
  tab : r.concurrencyMode = .taskSpaceTab → validTextId (r.tabScope.getD "") 256 = true ∧
    containsText "*" (r.tabScope.getD "") = false

structure Valid (r : InnerExecuteRequest) (capability : BridgeCapability) : Prop where
  protocol : r.protocol = INNER_PROTOCOL_VERSION
  messageType : r.messageType = .execute
  script : r.script ≠ "" ∧ (utf8 r.script).length ≤ capability.maxScriptBytes
  timeout : r.timeoutMs ≠ 0 ∧ r.timeoutMs ≤ capability.maxExecuteTimeoutMs
  cwdLabel : validTextId r.cwdLabel 128 = true ∧ containsText ".." r.cwdLabel = false
  dedicated : isDedicatedTaskSpace r.defaultTaskSpace = true
  allowlist : r.allowlistRevision = capability.allowlistRevision
  learning : r.learningBundleDigest = capability.learningBundleDigest
  concurrency : r.concurrencyMode ∈ capability.supportedConcurrency
  scope : r.ScopeValid

theorem validate_ok {r : InnerExecuteRequest} {capability : BridgeCapability} :
    r.validate capability = .ok () ↔ r.Valid capability := by
  have hscope : (if r.concurrencyMode = .binding then (.ok () : Except ProtocolError Unit)
      else if ¬ validTextId (r.taskSpaceScope.getD "") 256 ∨
          containsText "*" (r.taskSpaceScope.getD "") then
        .error (.invalidInner "task_space_scope")
      else if r.taskSpaceScope.getD "" ≠ r.defaultTaskSpace then
        .error (.invalidInner "dedicated task space scope")
      else if r.concurrencyMode = .taskSpaceTab ∧ (¬ validTextId (r.tabScope.getD "") 256 ∨
          containsText "*" (r.tabScope.getD "")) then
        .error (.invalidInner "tab_scope")
      else .ok ()) = .ok () ↔ r.ScopeValid := by
    by_cases hb : r.concurrencyMode = .binding
    · rw [if_pos hb]
      exact iff_of_true rfl ⟨fun h => absurd hb h, fun h => by rw [hb] at h; cases h⟩
    · rw [if_neg hb, ite_error_ok, ite_error_ok, ite_error_ok]
      simp only [not_or, not_not, not_and, Bool.not_eq_true, Bool.not_eq_false, ne_eq,
        and_true]
      exact ⟨fun h => ⟨fun _ => ⟨h.1.1, h.1.2, h.2.1⟩, h.2.2⟩,
        fun h => ⟨⟨(h.taskSpace hb).1, (h.taskSpace hb).2.1⟩, (h.taskSpace hb).2.2, h.tab⟩⟩
  rw [validate, ite_error_ok, ite_error_ok, ite_error_ok, ite_error_ok, ite_error_ok, ite_error_ok,
    ite_error_ok, ite_error_ok, hscope]
  simp only [not_or, not_not, ne_eq, Nat.not_lt, UInt64.not_lt, Bool.not_eq_true,
    Bool.not_eq_false, String.isEmpty_iff]
  constructor
  · rintro ⟨h1, h2, h3, h4, h5, h6, h7, h8, h9⟩
    exact ⟨h1.1, h1.2, h2, h3, h4, h5, h6, h7, h8, h9⟩
  · intro h
    exact ⟨⟨h.protocol, h.messageType⟩, h.script, h.timeout, h.cwdLabel, h.dedicated, h.allowlist,
      h.learning, h.concurrency, h.scope⟩

end InnerExecuteRequest
end Protocol
end EgoBridge
