import EgoBridge.Lib.Run
import EgoBridge.Native.Codec

/-!
# Native.Rpc

Calls and replies between the isolated worker and the native browser host.

The worker takes replies one at a time from its port: from the event loop while no synchronous call
waits, else from the loop of the innermost waiting call. While a reply is delivered its value may run
script code (the accessor `then`, which resolving a promise reads; a setter the script put on a
handle), and that code may call again.

* `channel`      — every interleaving of the worker, the coordinator's relay and the host.
* `Inv`          — what holds of every run.
* `matched_of_unnested` — without a synchronous call inside another one's wait, every reply taken
  has settled its own call.
* `nested_reply_lost` — with one, a reply is lost.
-/

namespace EgoBridge
namespace Native

open Run

inductive Operation where
  | call
  | get
  deriving DecidableEq

structure Request where
  call : Nat
  id : UInt64
  method : JsString
  args : List Plain
  operation : Operation

/-- What a reply says besides its call: the encoded value, or the error's message. -/
structure Reply where
  call : Nat
  outcome : Except JsString Plain

structure Channel where
  sequence : Nat := 0
  /-- Calls whose arguments are being encoded. -/
  preparing : List Nat := []
  /-- The keys of the worker's `pending`. -/
  pending : List Nat := []
  /-- The synchronous calls that wait, the innermost first. -/
  waiting : List Nat := []
  /-- Script code runs inside the innermost wait. -/
  script : Bool := false
  /-- Posted, not yet at the host. -/
  requests : List Request := []
  /-- The host's socket is open, and so is its `active` flag. -/
  connected : Bool := true
  active : Bool := true
  received : List Request := []
  evaluated : List Request := []
  running : List Nat := []
  sent : List Reply := []
  /-- Sent, not yet taken by the worker. -/
  inbox : List Reply := []
  taken : List Reply := []
  /-- The calls settled, each with the reply it was settled with, the last one first. -/
  settled : List (Nat × Reply) := []

namespace Channel

/-- The worker's `deliver`: a reply no pending call waits for is ignored. -/
def deliver (s : Channel) (reply : Reply) : Channel :=
  if reply.call ∈ s.pending then
    { s with pending := s.pending.filter (· ≠ reply.call), settled := (reply.call, reply) :: s.settled }
  else s

/-- The waiting call's loop gets a reply. `hook`: delivering it runs script code. -/
def receive (s : Channel) (call : Nat) (outer : List Nat) (reply : Reply) (hook : Bool) : Channel :=
  if reply.call = call then
    { s with waiting := outer, script := true, settled := (call, reply) :: s.settled }
  else { s.deliver reply with script := hook }

/-- The host's `dispatch`, as far as the evaluation. -/
def dispatch (s : Channel) (q : Request) : Channel :=
  if s.active then
    { s with evaluated := s.evaluated ++ [q], running := q.call :: s.running }
  else s

end Channel

inductive Event where
  | begin
  | post (q : Request) (synchronous : Bool)
  | take (hook : Bool)
  | resume
  | dispatch
  | answer (reply : Reply)
  | close

namespace Channel

inductive Step : Channel → Event → Channel → Prop where
  /-- `++sequence`, before the arguments are encoded. -/
  | begin {s} : s.waiting = [] ∨ s.script = true →
      Step s .begin
        { s with sequence := s.sequence + 1, preparing := (s.sequence + 1) :: s.preparing }
  | post {s} {q : Request} : q.call ∈ s.preparing → (s.waiting = [] ∨ s.script = true) →
      Step s (.post q false)
        { s with preparing := s.preparing.filter (· ≠ q.call), pending := q.call :: s.pending,
                 requests := s.requests ++ [q] }
  | postSync {s} {q : Request} : q.call ∈ s.preparing → (s.waiting = [] ∨ s.script = true) →
      Step s (.post q true)
        { s with preparing := s.preparing.filter (· ≠ q.call), waiting := q.call :: s.waiting,
                 script := false, requests := s.requests ++ [q] }
  /-- The event loop delivers the next reply. -/
  | message {s} {r : Reply} {rest : List Reply} {hook : Bool} : s.waiting = [] → s.inbox = r :: rest →
      Step s (.take hook) { s.deliver r with inbox := rest, taken := s.taken ++ [r] }
  /-- `receiveMessageOnPort` in the innermost call's loop. -/
  | receive {s} {r : Reply} {rest : List Reply} {call : Nat} {outer : List Nat} {hook : Bool} :
      s.waiting = call :: outer → s.script = false → s.inbox = r :: rest →
      Step s (.take hook) { s.receive call outer r hook with inbox := rest, taken := s.taken ++ [r] }
  | resume {s} : s.script = true → Step s .resume { s with script := false }
  | dispatch {s} {q : Request} {rest : List Request} : s.connected = true → s.requests = q :: rest →
      Step s .dispatch { s.dispatch q with requests := rest, received := s.received ++ [q] }
  /-- An evaluation ends; `if (active) send(reply)`. -/
  | answer {s} {r : Reply} : r.call ∈ s.running →
      Step s (.answer r)
        { s with running := s.running.filter (· ≠ r.call),
                 sent := if s.active then s.sent ++ [r] else s.sent,
                 inbox := if s.active then s.inbox ++ [r] else s.inbox }
  | close {s} : Step s .close { s with connected := false, active := false }

end Channel

def channel : System Event Channel where
  init := fun s => s = {}
  step := Channel.Step

/-! ## What holds of every run -/

/-- The ids of all calls made so far, each in one place. -/
def Channel.issued (s : Channel) : List Nat :=
  s.preparing ++ s.requests.map Request.call ++ s.evaluated.map Request.call

structure Inv (s : Channel) : Prop where
  bound : ∀ c ∈ s.issued, c ≤ s.sequence
  issued : s.issued.Nodup
  connected : s.connected = s.active
  evaluated : s.evaluated = s.received
  answered : (s.running ++ s.sent.map Reply.call).Nodup
  answers : ∀ c ∈ s.running ++ s.sent.map Reply.call, c ∈ s.evaluated.map Request.call
  sent : s.sent = s.taken ++ s.inbox
  own : ∀ x ∈ s.settled, x.2.call = x.1 ∧ x.2 ∈ s.taken
  once : (s.settled.map Prod.fst).Nodup

theorem Inv.start : Inv {} := by
  constructor <;> simp [Channel.issued]

theorem Inv.posted {s : Channel} (h : Inv s) {q : Request} (hq : q.call ∈ s.preparing)
    (pending waiting : List Nat) (script : Bool) :
    Inv { s with preparing := s.preparing.filter (· ≠ q.call), pending, waiting, script,
                 requests := s.requests ++ [q] } := by
  refine ⟨?_, ?_, h.connected, h.evaluated, h.answered, h.answers, h.sent, h.own, h.once⟩
  · intro c hc
    refine h.bound c ?_
    simp only [Channel.issued, List.map_append, List.mem_append, List.mem_filter, List.map_cons,
      List.map_nil, List.mem_singleton] at hc ⊢
    rcases hc with (⟨hc, -⟩ | hc | rfl) | hc
    · exact .inl (.inl hc)
    · exact .inl (.inr hc)
    · exact .inl (.inl hq)
    · exact .inr hc
  have hn := h.issued
  simp only [Channel.issued, List.map_append, List.map_cons, List.map_nil, List.nodup_append,
    List.mem_append, List.mem_filter, List.mem_singleton, List.nodup_cons, List.not_mem_nil,
    not_false_eq_true, List.nodup_nil] at hn ⊢
  have hf : (s.preparing.filter (· ≠ q.call)).Nodup := hn.1.1.filter _
  grind

theorem Inv.took {s : Channel} (h : Inv s) {r : Reply} {rest : List Reply} (hi : s.inbox = r :: rest)
    (pending waiting : List Nat) (script : Bool) {settled : List (Nat × Reply)}
    (hs : settled = s.settled ∨ settled = (r.call, r) :: s.settled) :
    Inv { s with pending, waiting, script, inbox := rest, taken := s.taken ++ [r], settled } := by
  have hsent : s.sent = s.taken ++ [r] ++ rest := by rw [h.sent, hi]; simp
  have hnew : r.call ∉ s.settled.map Prod.fst := by
    intro hr
    obtain ⟨x, hx, hxr⟩ := List.mem_map.mp hr
    obtain ⟨hcall, htaken⟩ := h.own x hx
    have hn := (List.nodup_append.mp h.answered).2.1
    rw [hsent, List.append_assoc, List.map_append, List.nodup_append] at hn
    exact hn.2.2 x.2.call (List.mem_map_of_mem htaken) r.call (by simp) (hcall.trans hxr)
  refine ⟨h.bound, h.issued, h.connected, h.evaluated, h.answered, h.answers, hsent, ?_, ?_⟩
  · intro x hx
    have hold : x ∈ s.settled → x.2.call = x.1 ∧ x.2 ∈ s.taken ++ [r] := fun hx =>
      ⟨(h.own x hx).1, List.mem_append_left _ (h.own x hx).2⟩
    rcases hs with rfl | rfl
    · exact hold hx
    · rcases List.mem_cons.mp hx with rfl | hx
      · exact ⟨rfl, by simp⟩
      · exact hold hx
  · rcases hs with rfl | rfl
    · exact h.once
    · exact List.nodup_cons.mpr ⟨hnew, h.once⟩

theorem Inv.step {s s' : Channel} {e : Event} (h : Inv s) (hs : channel.step s e s') : Inv s' := by
  cases hs with
  | begin _ =>
    refine ⟨?_, ?_, h.connected, h.evaluated, h.answered, h.answers, h.sent, h.own, h.once⟩
    · intro c hc
      rcases List.mem_cons.mp hc with rfl | hc
      · exact Nat.le_refl _
      · exact Nat.le_succ_of_le (h.bound c hc)
    · refine List.nodup_cons.mpr ⟨?_, h.issued⟩
      intro hc
      have := h.bound _ hc
      omega
  | post hq _ => exact h.posted hq _ _ _
  | postSync hq _ => exact h.posted hq _ _ _
  | @message r rest hook _ hi =>
    unfold Channel.deliver
    split
    · exact h.took hi _ _ _ (.inr rfl)
    · exact h.took hi _ _ _ (.inl rfl)
  | @receive r rest call outer hook _ _ hi =>
    unfold Channel.receive
    split
    · rename_i hc
      subst hc
      exact h.took hi _ _ _ (.inr rfl)
    · unfold Channel.deliver
      split
      · exact h.took hi _ _ _ (.inr rfl)
      · exact h.took hi _ _ _ (.inl rfl)
  | resume _ =>
    exact ⟨h.bound, h.issued, h.connected, h.evaluated, h.answered, h.answers, h.sent, h.own, h.once⟩
  | @dispatch q rest hc hq =>
    have ha : s.active = true := h.connected ▸ hc
    have hperm : (s.preparing ++ rest.map Request.call ++
        (s.evaluated ++ [q]).map Request.call).Perm s.issued := by
      rw [Channel.issued, hq]
      simp only [List.map_append, List.map_cons, List.map_nil]
      grind
    have hnew : q.call ∉ s.evaluated.map Request.call := by
      have hn := h.issued
      rw [Channel.issued, hq, List.nodup_append] at hn
      intro hm
      exact hn.2.2 q.call (by simp) q.call hm rfl
    rw [Channel.dispatch, if_pos ha]
    refine ⟨fun c hc => h.bound c (hperm.mem_iff.mp hc), hperm.nodup_iff.mpr h.issued, h.connected,
      ?_, ?_, ?_, h.sent, h.own, h.once⟩
    · simp only [h.evaluated]
    · exact List.nodup_cons.mpr ⟨fun hm => hnew (h.answers _ hm), h.answered⟩
    · intro c hc
      rw [List.map_append, List.mem_append]
      rcases List.mem_cons.mp hc with rfl | hc
      · exact .inr (by simp)
      · exact .inl (h.answers c hc)
  | @answer r hr =>
    cases ha : s.active with
    | false =>
      refine ⟨h.bound, h.issued, h.connected.trans ha, h.evaluated, ?_, ?_, h.sent, h.own, h.once⟩
      · exact List.Nodup.sublist (List.Sublist.append_right List.filter_sublist _) h.answered
      · intro c hc
        refine h.answers c ?_
        simp only [List.mem_append, List.mem_filter] at hc ⊢
        exact hc.imp And.left id
    | true =>
      have hn := h.answered
      have hs := h.sent
      refine ⟨h.bound, h.issued, h.connected.trans ha, h.evaluated, ?_, ?_, ?_, h.own, h.once⟩
      · simp only [↓reduceIte, List.map_append, List.map_cons, List.map_nil]
        rw [List.nodup_append] at hn ⊢
        have hf : (s.running.filter (· ≠ r.call)).Nodup := hn.1.filter _
        grind
      · intro c hc
        refine h.answers c ?_
        simp only [↓reduceIte, List.map_append, List.mem_append, List.mem_filter, List.map_cons,
          List.map_nil, List.mem_singleton] at hc ⊢
        rcases hc with ⟨hc, -⟩ | hc | rfl
        · exact .inl hc
        · exact .inr hc
        · exact .inl hr
      · simp only [↓reduceIte, hs, List.append_assoc]
  | close => exact ⟨h.bound, h.issued, rfl, h.evaluated, h.answered, h.answers, h.sent, h.own, h.once⟩

theorem inv {s : Channel} (h : channel.Reachable s) : Inv s :=
  System.invariant (fun _ h0 => h0 ▸ Inv.start) (fun _ _ _ hi hs => hi.step hs) h

/-! ## Runs without nested waits -/

/-- No synchronous call begins while another one waits. -/
def Unnested (s : Channel) : Event → Prop
  | .post _ true => s.waiting = []
  | _ => True

/-- A call that has been posted and whose reply the worker has not taken is still waited for. -/
structure Kept (s : Channel) : Prop where
  single : s.waiting = [] ∨ ∃ call, s.waiting = [call]
  awaited : ∀ c, c ∈ s.requests.map Request.call ∨ c ∈ s.running ∨ c ∈ s.inbox.map Reply.call →
    c ∈ s.pending ∨ c ∈ s.waiting
  kept : ∀ r ∈ s.taken, (r.call, r) ∈ s.settled

theorem Kept.start : Kept {} := by
  constructor <;> simp

theorem Inv.other {s : Channel} (h : Inv s) {r : Reply} {rest : List Reply} (hi : s.inbox = r :: rest)
    {c : Nat} (hc : c ∈ s.requests.map Request.call ∨ c ∈ s.running ∨ c ∈ rest.map Reply.call) :
    c ≠ r.call := by
  have hsent : r.call ∈ s.sent.map Reply.call := by
    rw [h.sent, hi]
    simp
  rcases hc with hc | hc | hc
  · have hev := h.answers r.call (List.mem_append_right _ hsent)
    have hn := (List.nodup_append.mp h.issued).2.2
    exact hn c (List.mem_append_right _ hc) r.call hev
  · exact (List.nodup_append.mp h.answered).2.2 c hc r.call hsent
  · have hn := (List.nodup_append.mp h.answered).2.1
    rw [h.sent, hi, List.map_append, List.nodup_append, List.map_cons, List.nodup_cons] at hn
    intro he
    exact hn.2.1.1 (he ▸ hc)

theorem Kept.settle {s : Channel} (h : Kept s) (hv : Inv s) {r : Reply} {rest : List Reply}
    (hi : s.inbox = r :: rest) {pending waiting : List Nat} (script : Bool)
    (hw : waiting = [] ∨ ∃ call, waiting = [call])
    (hp : ∀ c, c ≠ r.call → c ∈ s.pending ∨ c ∈ s.waiting → c ∈ pending ∨ c ∈ waiting) :
    Kept { s with pending, waiting, script, inbox := rest, taken := s.taken ++ [r],
                  settled := (r.call, r) :: s.settled } := by
  refine ⟨hw, ?_, ?_⟩
  · intro c hc
    refine hp c (hv.other hi hc) (h.awaited c ?_)
    rw [hi, List.map_cons, List.mem_cons]
    rcases hc with hc | hc | hc
    · exact .inl hc
    · exact .inr (.inl hc)
    · exact .inr (.inr (.inr hc))
  · intro x hx
    rcases List.mem_append.mp hx with hx | hx
    · exact List.mem_cons_of_mem _ (h.kept x hx)
    · rw [List.mem_singleton.mp hx]
      exact List.mem_cons_self

theorem Kept.deliver {s : Channel} (h : Kept s) (hv : Inv s) {r : Reply} {rest : List Reply}
    (hi : s.inbox = r :: rest) (hr : r.call ∉ s.waiting) (script : Bool) :
    Kept { s.deliver r with script, inbox := rest, taken := s.taken ++ [r] } := by
  have hpending : r.call ∈ s.pending := by
    refine (h.awaited r.call (.inr (.inr ?_))).resolve_right hr
    simp [hi]
  rw [Channel.deliver, if_pos hpending]
  refine h.settle hv hi script h.single ?_
  intro c hne hc
  rcases hc with hc | hc
  · exact .inl (List.mem_filter.mpr ⟨hc, by simpa using hne⟩)
  · exact .inr hc

theorem Kept.step {s s' : Channel} {e : Event} (h : Kept s) (hv : Inv s)
    (hs : (channel.restrict Unnested).step s e s') : Kept s' := by
  obtain ⟨hs, hok⟩ := hs
  cases hs with
  | begin _ => exact ⟨h.single, h.awaited, h.kept⟩
  | @post q hq _ =>
    refine ⟨h.single, ?_, h.kept⟩
    intro c hc
    simp only [List.map_append, List.mem_append, List.map_cons, List.map_nil,
      List.mem_singleton] at hc
    rcases hc with (hc | rfl) | hc
    · exact (h.awaited c (.inl hc)).imp_left (List.mem_cons_of_mem _)
    · exact .inl List.mem_cons_self
    · exact (h.awaited c (.inr hc)).imp_left (List.mem_cons_of_mem _)
  | @postSync q hq _ =>
    have hw : s.waiting = [] := hok
    refine ⟨.inr ⟨q.call, by simp [hw]⟩, ?_, h.kept⟩
    intro c hc
    simp only [List.map_append, List.mem_append, List.map_cons, List.map_nil,
      List.mem_singleton] at hc
    rcases hc with (hc | rfl) | hc
    · exact (h.awaited c (.inl hc)).imp_right (List.mem_cons_of_mem _)
    · exact .inr List.mem_cons_self
    · exact (h.awaited c (.inr hc)).imp_right (List.mem_cons_of_mem _)
  | @message r rest hook hw hi => exact h.deliver hv hi (by simp [hw]) (s.deliver r).script
  | @receive r rest call outer hook hw _ hi =>
    have houter : outer = [] := by
      rcases h.single with hn | ⟨a, ha⟩
      · simp [hn] at hw
      · rw [ha] at hw
        cases hw
        rfl
    subst houter
    unfold Channel.receive
    split
    · rename_i hc
      subst hc
      refine h.settle hv hi true (.inl rfl) ?_
      intro c hne hc
      rw [hw, List.mem_singleton] at hc
      exact .inl (hc.resolve_right hne)
    · rename_i hc
      exact h.deliver hv hi (by simpa [hw] using hc) hook
  | resume _ => exact ⟨h.single, h.awaited, h.kept⟩
  | @dispatch q rest hc hq =>
    have ha : s.active = true := hv.connected ▸ hc
    rw [Channel.dispatch, if_pos ha]
    refine ⟨h.single, ?_, h.kept⟩
    intro c hc
    refine h.awaited c ?_
    rw [hq, List.map_cons]
    simp only [List.mem_cons] at hc ⊢
    rcases hc with hc | (rfl | hc) | hc
    · exact .inl (.inr hc)
    · exact .inl (.inl rfl)
    · exact .inr (.inl hc)
    · exact .inr (.inr hc)
  | @answer r hr =>
    refine ⟨h.single, ?_, h.kept⟩
    intro c hc
    refine h.awaited c ?_
    rcases hc with hc | hc | hc
    · exact .inl hc
    · exact .inr (.inl (List.mem_filter.mp hc).1)
    · cases ha : s.active with
      | false => exact .inr (.inr (by simpa [ha] using hc))
      | true =>
        simp only [ha, ↓reduceIte, List.map_append, List.mem_append, List.map_cons, List.map_nil,
          List.mem_singleton] at hc
        rcases hc with hc | rfl
        · exact .inr (.inr hc)
        · exact .inr (.inl hr)
  | close => exact ⟨h.single, h.awaited, h.kept⟩

theorem kept {s : Channel} (h : (channel.restrict Unnested).Reachable s) : Kept s := by
  have hboth : Kept s ∧ Inv s :=
    System.invariant (I := fun s => Kept s ∧ Inv s)
      (fun s (h0 : s = {}) => h0 ▸ ⟨Kept.start, Inv.start⟩)
      (fun _ _ _ hi hs => ⟨hi.1.step hi.2 hs, hi.2.step hs.1⟩) h
  exact hboth.1

/-! ## The inbox is emptied -/

/-- From `s` the worker can go on to `t` by taking replies alone. -/
def Channel.Drains (s t : Channel) : Prop :=
  Relation.ReflTransGen (fun s s' => channel.step s .resume s' ∨ channel.step s (.take false) s') s t

theorem deliver_sent (s : Channel) (r : Reply) : (s.deliver r).sent = s.sent := by
  unfold Channel.deliver
  split <;> rfl

theorem receive_sent (s : Channel) (call : Nat) (outer : List Nat) (r : Reply) (hook : Bool) :
    (s.receive call outer r hook).sent = s.sent := by
  unfold Channel.receive
  split
  · rfl
  · exact deliver_sent s r

/-- Whatever state the worker is in, it can take the next reply. -/
theorem exists_take (s : Channel) {r : Reply} {rest : List Reply} (hi : s.inbox = r :: rest) :
    ∃ t, s.Drains t ∧ t.inbox = rest ∧ t.sent = s.sent := by
  cases hw : s.waiting with
  | nil => exact ⟨_, .single (.inr (.message hw hi)), rfl, deliver_sent s r⟩
  | cons call outer =>
    cases hsc : s.script with
    | false => exact ⟨_, .single (.inr (.receive hw hsc hi)), rfl, receive_sent s call outer r false⟩
    | true =>
      have h1 : channel.step s .resume { s with script := false } := .resume hsc
      have h2 := @Channel.Step.receive { s with script := false } r rest call outer false hw rfl hi
      exact ⟨_, (Relation.ReflTransGen.single (.inl h1)).tail (.inr h2), rfl,
        receive_sent _ call outer r false⟩

theorem exists_drained (rest : List Reply) (s : Channel) (hi : s.inbox = rest) :
    ∃ t, s.Drains t ∧ t.inbox = [] ∧ t.sent = s.sent := by
  induction rest generalizing s with
  | nil => exact ⟨s, .refl, hi, rfl⟩
  | cons r rest ih =>
    obtain ⟨t, hd, ht, hsent⟩ := exists_take s hi
    obtain ⟨u, hu, hui, hus⟩ := ih t ht
    exact ⟨u, hd.trans hu, hui, hus.trans hsent⟩

theorem Channel.Drains.reachable {s t : Channel} (hd : s.Drains t)
    (h : (channel.restrict Unnested).Reachable s) : (channel.restrict Unnested).Reachable t := by
  induction hd with
  | refl => exact h
  | tail _ hst ih =>
    rcases hst with hst | hst
    · exact ih.next .resume ⟨hst, trivial⟩
    · exact ih.next (.take false) ⟨hst, trivial⟩

/-! ## Calls and replies match -/

structure Matched (s : Channel) : Prop where
  once : (s.settled.map Prod.fst).Nodup
  own : ∀ x ∈ s.settled, x.2.call = x.1 ∧ x.2 ∈ s.sent
  /-- A reply the worker took has settled its call. -/
  kept : ∀ r ∈ s.taken, (r.call, r) ∈ s.settled
  /-- A reply on its way does so once the worker takes it. -/
  coming : ∀ r ∈ s.sent, ∃ t, s.Drains t ∧ (r.call, r) ∈ t.settled
  evaluated : s.evaluated = s.received
  distinct : (s.received.map Request.call).Nodup

/-- Where no synchronous call begins inside the wait of another one, calls and replies match in every
state of every run. -/
theorem matched_of_unnested {s : Channel} (h : (channel.restrict Unnested).Reachable s) :
    Matched s := by
  have hv : Inv s := inv h.of_restrict
  have hn : (s.received.map Request.call).Nodup :=
    hv.evaluated ▸ (List.nodup_append.mp hv.issued).2.1
  refine ⟨hv.once, ?_, (kept h).kept, ?_, hv.evaluated, hn⟩
  · intro x hx
    exact ⟨(hv.own x hx).1, hv.sent ▸ List.mem_append_left _ (hv.own x hx).2⟩
  · intro r hr
    obtain ⟨t, hd, hi, hsent⟩ := exists_drained s.inbox s rfl
    have ht := hd.reachable h
    have hr' : r ∈ t.taken := by
      rw [← hsent, (inv ht.of_restrict).sent, hi, List.append_nil] at hr
      exact hr
    exact ⟨t, hd, (kept ht).kept r hr'⟩

/-! ## A reply delivered inside a wait -/

def sampleRequest (call : Nat) : Request := ⟨call, 1, js "url", [], .call⟩

/-- A value with the shape of a handle whose `then` is an accessor: resolving a promise with it makes a
synchronous call. A page can return one. -/
def thenHandle : Plain :=
  .obj [(js "kind", .str (js "handle")), (js "id", .num 7), (js "fields", .obj []),
    (js "methods", .obj []), (js "properties", .obj [(js "then", .bool true)])]

example : Worker.decode thenHandle =
    .ok (.special ⟨some (.num 7), [], [(js "then", .bool true)]⟩ []) := by
  rfl

def sampleValue : Reply := ⟨2, .ok (.str (js "about:blank"))⟩

def thenReply : Reply := ⟨1, .ok thenHandle⟩

def bothAnswered : Channel :=
  { sequence := 2, pending := [1], waiting := [2], received := [sampleRequest 1, sampleRequest 2],
    evaluated := [sampleRequest 1, sampleRequest 2], sent := [thenReply, sampleValue],
    inbox := [thenReply, sampleValue] }

theorem bothAnswered_reachable : (channel.restrict Unnested).Reachable bothAnswered := by
  have h0 : (channel.restrict Unnested).Reachable {} := .start (S := channel.restrict Unnested) rfl
  have h1 := h0.next .begin ⟨.begin (.inl rfl), trivial⟩
  have h2 := h1.next (.post (sampleRequest 1) false) ⟨.post (by decide) (.inl rfl), trivial⟩
  have h3 := h2.next .begin ⟨.begin (.inl rfl), trivial⟩
  have h4 := h3.next (.post (sampleRequest 2) true) ⟨.postSync (by decide) (.inl rfl), rfl⟩
  have h5 := h4.next .dispatch ⟨.dispatch rfl rfl, trivial⟩
  have h6 := h5.next .dispatch ⟨.dispatch rfl rfl, trivial⟩
  have h7 := h6.next (.answer thenReply) ⟨.answer (by decide), trivial⟩
  exact h7.next (.answer sampleValue) ⟨.answer (by decide), trivial⟩

/-- The wait of call 2 takes the reply to call 1, and the accessor runs in it. -/
def insideWait : Channel :=
  { bothAnswered with pending := [], script := true, inbox := [sampleValue],
                      taken := [thenReply], settled := [(1, thenReply)] }

theorem insideWait_reachable : (channel.restrict Unnested).Reachable insideWait :=
  bothAnswered_reachable.next (.take true)
    ⟨@Channel.Step.receive bothAnswered thenReply [sampleValue] 2 [] true rfl rfl rfl, trivial⟩

/-- If the accessor makes no call, both calls are settled. -/
theorem matched_both : ∃ s, Matched s ∧ s.settled = [(2, sampleValue), (1, thenReply)] := by
  have h1 := insideWait_reachable.next .resume ⟨.resume rfl, trivial⟩
  have h2 := h1.next (.take false) ⟨.receive rfl rfl rfl, trivial⟩
  exact ⟨_, matched_of_unnested h2, rfl⟩

def nestedWait : Channel :=
  { bothAnswered with sequence := 3, pending := [], waiting := [3, 2],
                      requests := [sampleRequest 3], inbox := [sampleValue],
                      taken := [thenReply], settled := [(1, thenReply)] }

theorem nestedWait_reachable : channel.Reachable nestedWait := by
  have h1 := insideWait_reachable.of_restrict.next .begin (.begin (.inr rfl))
  exact h1.next (.post (sampleRequest 3) true) (.postSync (by decide) (.inr rfl))

theorem lost_reachable : channel.Reachable
    { nestedWait with inbox := [], taken := [thenReply, sampleValue] } :=
  nestedWait_reachable.next (.take false)
    (@Channel.Step.receive nestedWait sampleValue [] 3 [2] false rfl rfl rfl)

/-- The reply to call 2 was taken and is gone, with call 2 still waiting. -/
theorem nested_reply_lost : ¬ ∀ s, channel.Reachable s → Matched s := by
  intro h
  have hk := (h _ lost_reachable).kept sampleValue (by simp)
  simp [nestedWait, bothAnswered, sampleValue] at hk

end Native
end EgoBridge
