import EgoBridge.Bridge.RunHonest
import EgoBridge.Wrapper.Response

/-!
# Wrapper.OutputCap

The caps on a child's output, enforced on its bytes by the bridge and on its texts by the wrapper.

* `output_capped` — the texts of a run are within the caps, and pass the wrapper's check, if and
                    only if the bytes are with all that their malformed sequences grow by.
-/

namespace EgoBridge
namespace Wrapper

open Protocol Bridge RunProcess

/-- Both texts are within the caps, and no response with them is refused for its length. -/
structure Capped (r : Output) : Prop where
  stdout : (utf8 r.stdout).length ≤ MAX_STDOUT_BYTES
  stderr : (utf8 r.stderr).length ≤ MAX_STDERR_BYTES
  accepted : ∀ (e request : OuterEnvelope) (durationMs : UInt64),
    checkResponse e (processResponse r.result r.stdout r.stderr durationMs request) ≠
      .error (.protocol "response output exceeds limit")

/-- The bytes of a stream stay within its cap when every malformed sequence is replaced. -/
def WithinCap (k : Channel) (bytes : Bytes) : Prop :=
  bytes.length + lossyGrowth bytes ≤ maximum k

theorem checkResponse_length {e : OuterEnvelope} {response : InnerExecuteResponse}
    (h : checkResponse e response = .error (.protocol "response output exceeds limit")) :
    MAX_STDOUT_BYTES < (utf8 response.stdout).length ∨
      MAX_STDERR_BYTES < (utf8 response.stderr).length := by
  unfold checkResponse at h
  split at h
  · simp at h
  · split at h
    · simp at h
    · split at h
      · assumption
      · cases h

theorem capped_iff {r : Output} : Capped r ↔
    (utf8 r.stdout).length ≤ MAX_STDOUT_BYTES ∧ (utf8 r.stderr).length ≤ MAX_STDERR_BYTES := by
  constructor
  · intro h
    exact ⟨h.stdout, h.stderr⟩
  · rintro ⟨hout, herr⟩
    refine ⟨hout, herr, fun e request durationMs h => ?_⟩
    rcases checkResponse_length h with h | h
    · exact Nat.not_lt.mpr hout h
    · exact Nat.not_lt.mpr herr h

theorem capped_lossy {r : Output} {stdout stderr : Bytes} (ho : r.stdout = fromUtf8Lossy stdout)
    (he : r.stderr = fromUtf8Lossy stderr) :
    Capped r ↔ WithinCap .stdout stdout ∧ WithinCap .stderr stderr := by
  rw [capped_iff, ho, he, utf8_fromUtf8Lossy_length, utf8_fromUtf8Lossy_length]
  rfl

/-- The texts are within the caps if and only if the bytes that were collected are, each malformed
sequence replaced. Of a run that succeeded these are the bytes that were written. -/
theorem output_capped {s : RunState} (h : system.Reachable s) {r : Output}
    (hr : s.output = some r) :
    (r.result.status = .completed ∨ r.result.status = .scriptError →
      (Capped r ↔ WithinCap .stdout s.stdout.written ∧ WithinCap .stderr s.stderr.written)) ∧
    (Capped r ↔ WithinCap .stdout s.stdout.collected ∧ WithinCap .stderr s.stderr.collected) := by
  obtain ⟨hstdout, hstderr⟩ := output_texts h hr
  have hcapped := capped_lossy hstdout hstderr
  refine ⟨?_, hcapped⟩
  intro hrun
  have hran : ranToEnd r.result.status = true := by
    rcases hrun with h | h <;> rw [h] <;> rfl
  obtain ⟨hd, hd', -⟩ := success h hr hran
  rwa [hd.collected, hd'.collected] at hcapped

/-- A child that writes a line. -/
theorem output_capped_line :
    (completedRun [104, 105] []).output =
        some ⟨⟨.completed, some 0, []⟩, fromUtf8Lossy [104, 105], fromUtf8Lossy []⟩ ∧
      (Capped ⟨⟨.completed, some 0, []⟩, fromUtf8Lossy [104, 105], fromUtf8Lossy []⟩ ↔
        WithinCap .stdout [104, 105] ∧ WithinCap .stderr []) := by
  have h := completedRun_reachable [104, 105] [] (by decide) (by decide)
  exact ⟨rfl, (output_capped h rfl).1 (.inl rfl)⟩

/-- A child that fills its standard output with bytes that are no text completes, with three times
the text that the wrapper takes. -/
theorem output_uncapped : ∃ s r, system.Reachable s ∧ s.output = some r ∧
    r.result.status = .completed ∧
    s.stdout.written = List.replicate MAX_STDOUT_BYTES 0xff ∧ s.stderr.written = [] ∧
    (utf8 r.stdout).length = 3 * MAX_STDOUT_BYTES ∧ ¬ Capped r := by
  have hreach := completedRun_reachable (List.replicate MAX_STDOUT_BYTES 0xff) []
    (by rw [List.length_replicate]) (Nat.zero_le _)
  have hlen : (utf8 (fromUtf8Lossy (List.replicate MAX_STDOUT_BYTES 0xff))).length =
      3 * MAX_STDOUT_BYTES := by
    rw [utf8_fromUtf8Lossy_length, lossyGrowth_ff, List.length_replicate]
    omega
  refine ⟨_, _, hreach, rfl, rfl, rfl, rfl, hlen, ?_⟩
  intro hc
  have := hc.stdout
  rw [hlen, MAX_STDOUT_BYTES] at this
  omega

end Wrapper
end EgoBridge
