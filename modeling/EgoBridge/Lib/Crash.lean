import EgoBridge.Lib.Run

/-!
# Lib.Crash

Commands on a durable state that may be interrupted anywhere, and a calculus for them.

A `Cmd` looks at the state, changes it by atomic steps, asks its surroundings, fails or is done.
What the surroundings may answer is a relation `E` on the state, the question and the answer.

* `Reaches`    — what a run from a state comes to: the rest of the command, and the state there.
* `Passes`, `Stops`, `Returns` — the states a run meets, is interrupted or fails in, and ends in.
* `wp`         — the weakest precondition for an invariant of the interruptions, a property of the
  failures and one of the ends. It is computed from the command (`wp_bind` and the lemmas beside).
* `wp_passes`, `wp_stops`, `wp_returns` — what it says about runs.
* `Keeps`      — an invariant is kept wherever the command stops or ends.
* `Within`     — what the steps of a command are, wherever they are taken.
* `eval`       — the run under given answers, and `Meets` what some run comes by.
-/

namespace EgoBridge
namespace Crash

/-- `A` are the answers to a question, `σ` the states, `ε` the failures, `α` the results. -/
inductive Cmd {Q : Type} (A : Q → Type) (σ ε α : Type) where
  | done (a : α)
  | fail (e : ε)
  | look (k : σ → Cmd A σ ε α)
  | step (f : σ → σ) (k : Cmd A σ ε α)
  | ask (q : Q) (k : A q → Cmd A σ ε α)

/-- What the surroundings may answer. -/
abbrev Answers {Q : Type} (A : Q → Type) (σ : Type) := σ → (q : Q) → A q → Prop

namespace Cmd

variable {Q : Type} {A : Q → Type} {σ ε α β : Type}

def bind (p : Cmd A σ ε α) (f : α → Cmd A σ ε β) : Cmd A σ ε β :=
  match p with
  | done a => f a
  | fail e => .fail e
  | look k => .look fun s => (k s).bind f
  | step g k => .step g (k.bind f)
  | ask q k => .ask q fun a => (k a).bind f

instance : Monad (Cmd A σ ε) where
  pure := done
  bind := bind

def get : Cmd A σ ε σ := .look .done

def update (f : σ → σ) : Cmd A σ ε Unit := .step f (.done ())

def query (q : Q) : Cmd A σ ε (A q) := .ask q .done

def throw (e : ε) : Cmd A σ ε α := .fail e

/-- A failure becomes a result. -/
def attempt (p : Cmd A σ ε α) : Cmd A σ ε (Except ε α) :=
  match p with
  | done a => .done (.ok a)
  | fail e => .done (.error e)
  | look k => .look fun s => (k s).attempt
  | step g k => .step g k.attempt
  | ask q k => .ask q fun a => (k a).attempt

def ofExcept : Except ε α → Cmd A σ ε α
  | .ok a => .done a
  | .error e => .fail e

/-! ## Runs -/

inductive Reaches (E : Answers A σ) : Cmd A σ ε α → σ → Cmd A σ ε α → σ → Prop where
  | refl {p : Cmd A σ ε α} {s : σ} : Reaches E p s p s
  | look {k : σ → Cmd A σ ε α} {s s' : σ} {p' : Cmd A σ ε α} : Reaches E (k s) s p' s' →
      Reaches E (.look k) s p' s'
  | step {f : σ → σ} {k p' : Cmd A σ ε α} {s s' : σ} : Reaches E k (f s) p' s' →
      Reaches E (.step f k) s p' s'
  | ask {q : Q} {k : A q → Cmd A σ ε α} {a : A q} {s s' : σ} {p' : Cmd A σ ε α} : E s q a →
      Reaches E (k a) s p' s' → Reaches E (.ask q k) s p' s'

/-- A run from `s` meets `s'`. -/
def Passes (E : Answers A σ) (p : Cmd A σ ε α) (s s' : σ) : Prop := ∃ p', Reaches E p s p' s'

/-- A place where a command is interrupted before it is done, or has failed. -/
def isStop : Cmd A σ ε α → Bool
  | done _ => false
  | look _ => false
  | _ => true

def Stops (E : Answers A σ) (p : Cmd A σ ε α) (s s' : σ) : Prop :=
  ∃ p', Reaches E p s p' s' ∧ p'.isStop = true

def Returns (E : Answers A σ) (p : Cmd A σ ε α) (s : σ) (a : α) (s' : σ) : Prop :=
  Reaches E p s (.done a) s'

def Fails (E : Answers A σ) (p : Cmd A σ ε α) (s : σ) (e : ε) (s' : σ) : Prop :=
  Reaches E p s (.fail e) s'

theorem Reaches.mono {E E' : Answers A σ} (hE : ∀ s q a, E s q a → E' s q a)
    {p p' : Cmd A σ ε α} {s s' : σ} (h : Reaches E p s p' s') : Reaches E' p s p' s' := by
  induction h with
  | refl => exact .refl
  | look _ ih => exact .look ih
  | step _ ih => exact .step ih
  | ask ha _ ih => exact .ask (hE _ _ _ ha) ih

theorem bind_assoc {γ : Type} (p : Cmd A σ ε α) (f : α → Cmd A σ ε β) (g : β → Cmd A σ ε γ) :
    p >>= f >>= g = p >>= fun a => f a >>= g := by
  show (p.bind f).bind g = p.bind fun a => (f a).bind g
  induction p with
  | done a => rfl
  | fail e => rfl
  | look k ih => exact congrArg Cmd.look (funext ih)
  | step h k ih => exact congrArg (Cmd.step h) ih
  | ask q k ih => exact congrArg (Cmd.ask q) (funext ih)

/-- A run goes on from where its first part has ended. -/
theorem Returns.bind {E : Answers A σ} {p : Cmd A σ ε α} {f : α → Cmd A σ ε β} {a : α}
    {s s' s'' : σ} {p' : Cmd A σ ε β} (hp : Returns E p s a s') (hf : Reaches E (f a) s' p' s'') :
    Reaches E (p >>= f) s p' s'' := by
  show Reaches E (p.bind f) s p' s''
  unfold Returns at hp
  generalize hd : Cmd.done a = d at hp
  induction hp with
  | refl =>
    cases hd
    exact hf
  | look _ ih => exact .look (ih hf hd)
  | step _ ih => exact .step (ih hf hd)
  | ask ha _ ih => exact .ask ha (ih hf hd)

/-- A run of the first part is one of both. -/
theorem Reaches.bind {E : Answers A σ} {p p' : Cmd A σ ε α} {s s' : σ} (h : Reaches E p s p' s')
    (f : α → Cmd A σ ε β) : Reaches E (p >>= f) s (p' >>= f) s' := by
  show Reaches E (p.bind f) s (p'.bind f) s'
  induction h with
  | refl => exact .refl
  | look _ ih => exact .look ih
  | step _ ih => exact .step ih
  | ask ha _ ih => exact .ask ha ih

theorem Passes.bind {E : Answers A σ} {p : Cmd A σ ε α} {s s' : σ} (h : Passes E p s s')
    (f : α → Cmd A σ ε β) : Passes E (p >>= f) s s' := by
  obtain ⟨p', hp⟩ := h
  exact ⟨_, hp.bind f⟩

theorem Passes.after {E : Answers A σ} {p : Cmd A σ ε α} {f : α → Cmd A σ ε β} {a : α}
    {s s₁ s' : σ} (hp : Returns E p s a s₁) (hf : Passes E (f a) s₁ s') :
    Passes E (p >>= f) s s' := by
  obtain ⟨p', hf⟩ := hf
  exact ⟨p', hp.bind hf⟩

/-! ## Given answers -/

/-- What a question is answered is given; some are not answered. -/
def Given (answer : σ → (q : Q) → Option (A q)) : Answers A σ := fun s q a => answer s q = some a

/-- The result and the last state of the run under these answers, if it comes to its end. -/
def eval (answer : σ → (q : Q) → Option (A q)) : Cmd A σ ε α → σ → Option (α × σ)
  | done a, s => some (a, s)
  | fail _, _ => none
  | look k, s => (k s).eval answer s
  | step f k, s => k.eval answer (f s)
  | ask q k, s =>
    match answer s q with
    | none => none
    | some a => (k a).eval answer s

theorem returns_eval {answer : σ → (q : Q) → Option (A q)} {p : Cmd A σ ε α} {s s' : σ} {a : α}
    (h : p.eval answer s = some (a, s')) : Returns (Given answer) p s a s' := by
  induction p generalizing s with
  | done b =>
    cases h
    exact .refl
  | fail e => cases h
  | look k ih => exact .look (ih s h)
  | step f k ih => exact .step (ih h)
  | ask q k ih =>
    rw [eval] at h
    cases ha : answer s q with
    | none =>
      rw [ha] at h
      cases h
    | some x =>
      rw [ha] at h
      exact .ask ha (ih x h)

/-- Where the answers are given, a command has one result at most. -/
theorem eval_of_returns {answer : σ → (q : Q) → Option (A q)} {p : Cmd A σ ε α} {s s' : σ} {a : α}
    (h : Returns (Given answer) p s a s') : p.eval answer s = some (a, s') := by
  induction p generalizing s with
  | done b =>
    cases h
    rfl
  | fail e => cases h
  | look k ih =>
    cases h with
    | look h => exact ih s h
  | step f k ih =>
    cases h with
    | step h => exact ih h
  | ask q k ih =>
    cases h with
    | ask hx h =>
      rw [eval, show answer s q = some _ from hx]
      exact ih _ h

theorem eval_bind {answer : σ → (q : Q) → Option (A q)} {p : Cmd A σ ε α} {f : α → Cmd A σ ε β}
    {s : σ} (a : α) (s' : σ) (h : p.eval answer s = some (a, s')) :
    (p >>= f).eval answer s = (f a).eval answer s' := by
  show (p.bind f).eval answer s = _
  induction p generalizing s with
  | done b =>
    cases h
    rfl
  | fail e => cases h
  | look k ih => exact ih s h
  | step g k ih => exact ih h
  | ask q k ih =>
    rw [eval] at h
    rw [bind, eval]
    cases ha : answer s q with
    | none =>
      rw [ha] at h
      cases h
    | some x =>
      rw [ha] at h
      exact ih x h

/-- Some run meets a state with the property. -/
def Meets (E : Answers A σ) (p : Cmd A σ ε α) (s : σ) (T : σ → Prop) : Prop :=
  ∃ s', Passes E p s s' ∧ T s'

theorem Meets.here {E : Answers A σ} {p : Cmd A σ ε α} {s : σ} {T : σ → Prop} (h : T s) :
    Meets E p s T :=
  ⟨s, ⟨p, .refl⟩, h⟩

theorem Meets.after {answer : σ → (q : Q) → Option (A q)} {p : Cmd A σ ε α}
    {f : α → Cmd A σ ε β} {s : σ} {T : σ → Prop} (a : α) (s' : σ)
    (h : p.eval answer s = some (a, s')) (hf : Meets (Given answer) (f a) s' T) :
    Meets (Given answer) (p >>= f) s T := by
  obtain ⟨s'', hs'', hT⟩ := hf
  exact ⟨s'', .after (returns_eval h) hs'', hT⟩

theorem Stops.after {answer : σ → (q : Q) → Option (A q)} {p : Cmd A σ ε α}
    {f : α → Cmd A σ ε β} {s s'' : σ} (a : α) (s' : σ) (h : p.eval answer s = some (a, s'))
    (hf : Stops (Given answer) (f a) s' s'') : Stops (Given answer) (p >>= f) s s'' := by
  obtain ⟨p', hr, hs⟩ := hf
  exact ⟨p', (returns_eval h).bind hr, hs⟩

/-- A run of two parts is in the first, or has come through it. -/
theorem Reaches.of_bind {E : Answers A σ} {p : Cmd A σ ε α} {f : α → Cmd A σ ε β}
    {p' : Cmd A σ ε β} {s s' : σ} (h : Reaches E (p >>= f) s p' s') :
    (∃ q, Reaches E p s q s' ∧ p' = q >>= f) ∨
      ∃ a s₁, Returns E p s a s₁ ∧ Reaches E (f a) s₁ p' s' := by
  change Reaches E (p.bind f) s p' s' at h
  induction p generalizing s with
  | done a => exact .inr ⟨a, s, .refl, h⟩
  | fail e =>
    cases h
    exact .inl ⟨.fail e, .refl, rfl⟩
  | look k ih =>
    cases h with
    | refl => exact .inl ⟨.look k, .refl, rfl⟩
    | look h =>
      rcases ih s h with ⟨q, hq, he⟩ | ⟨a, s₁, hr, hf⟩
      · exact .inl ⟨q, .look hq, he⟩
      · exact .inr ⟨a, s₁, .look hr, hf⟩
  | step g k ih =>
    cases h with
    | refl => exact .inl ⟨.step g k, .refl, rfl⟩
    | step h =>
      rcases ih h with ⟨q, hq, he⟩ | ⟨a, s₁, hr, hf⟩
      · exact .inl ⟨q, .step hq, he⟩
      · exact .inr ⟨a, s₁, .step hr, hf⟩
  | ask q k ih =>
    cases h with
    | refl => exact .inl ⟨.ask q k, .refl, rfl⟩
    | ask hx h =>
      rcases ih _ h with ⟨q, hq, he⟩ | ⟨a, s₁, hr, hf⟩
      · exact .inl ⟨q, .ask hx hq, he⟩
      · exact .inr ⟨a, s₁, .ask hx hr, hf⟩

theorem Returns.of_bind {E : Answers A σ} {p : Cmd A σ ε α} {f : α → Cmd A σ ε β} {b : β}
    {s s' : σ} (h : Returns E (p >>= f) s b s') :
    ∃ a s₁, Returns E p s a s₁ ∧ Returns E (f a) s₁ b s' := by
  rcases Reaches.of_bind h with ⟨q, hq, he⟩ | h
  · cases q with
    | done a =>
      refine ⟨a, s', hq, ?_⟩
      have he' : f a = .done b := he.symm
      rw [he']
      exact .refl
    | fail e => cases he
    | look k => cases he
    | step g k => cases he
    | ask q k => cases he
  · exact h

/-! ## Weakest preconditions -/

/-- `I` holds wherever the command may be interrupted, `F` where it fails, `R` where it ends. -/
def wp (E : Answers A σ) (I : σ → Prop) (F : ε → σ → Prop) :
    Cmd A σ ε α → (α → σ → Prop) → σ → Prop
  | done a, R, s => R a s
  | fail e, _, s => F e s
  | look k, R, s => wp E I F (k s) R s
  | step f k, R, s => I s ∧ wp E I F k R (f s)
  | ask q k, R, s => I s ∧ ∀ a, E s q a → wp E I F (k a) R s

section

variable {E : Answers A σ} {I : σ → Prop} {F : ε → σ → Prop} {R : α → σ → Prop} {s : σ}

@[simp] theorem wp_pure (a : α) : wp E I F (Pure.pure a) R s = R a s := rfl

@[simp] theorem wp_done (a : α) : wp E I F (.done a) R s = R a s := rfl

@[simp] theorem wp_throw (e : ε) : wp E I F (throw e) R s = F e s := rfl

@[simp] theorem wp_get {R : σ → σ → Prop} : wp E I F get R s = R s s := rfl

@[simp] theorem wp_update (f : σ → σ) {R : Unit → σ → Prop} :
    wp E I F (update f) R s = (I s ∧ R () (f s)) := rfl

@[simp] theorem wp_query (q : Q) {R : A q → σ → Prop} :
    wp E I F (query q) R s = (I s ∧ ∀ a, E s q a → R a s) := rfl

@[simp] theorem wp_bind (p : Cmd A σ ε β) (f : β → Cmd A σ ε α) :
    wp E I F (p >>= f) R s = wp E I F p (fun a s => wp E I F (f a) R s) s := by
  show wp E I F (p.bind f) R s = _
  induction p generalizing s with
  | done a => rfl
  | fail e => rfl
  | look k ih => exact ih s
  | step g k ih => simp only [bind, wp, ih]
  | ask q k ih => simp only [bind, wp, ih]

@[simp] theorem wp_attempt (p : Cmd A σ ε α) {R : Except ε α → σ → Prop} :
    wp E I F p.attempt R s =
      wp E I (fun e s => R (.error e) s) p (fun a s => R (.ok a) s) s := by
  induction p generalizing s with
  | done a => rfl
  | fail e => rfl
  | look k ih => exact ih s
  | step g k ih => simp only [attempt, wp, ih]
  | ask q k ih => simp only [attempt, wp, ih]

@[simp] theorem wp_ite {c : Prop} [Decidable c] (p q : Cmd A σ ε α) :
    wp E I F (if c then p else q) R s ↔ (c → wp E I F p R s) ∧ (¬ c → wp E I F q R s) := by
  split
  · rename_i h
    simp [h]
  · rename_i h
    simp [h]

theorem wp_mono {I' : σ → Prop} {F' : ε → σ → Prop} {R' : α → σ → Prop} {p : Cmd A σ ε α}
    (hI : ∀ s, I s → I' s) (hF : ∀ e s, F e s → F' e s) (hR : ∀ a s, R a s → R' a s)
    (h : wp E I F p R s) : wp E I' F' p R' s := by
  induction p generalizing s with
  | done a => exact hR a s h
  | fail e => exact hF e s h
  | look k ih => exact ih s h
  | step g k ih => exact ⟨hI s h.1, ih h.2⟩
  | ask q k ih => exact ⟨hI s h.1, fun a ha => ih a (h.2 a ha)⟩

theorem wp_post {R' : α → σ → Prop} {p : Cmd A σ ε α} (h : wp E I F p R s)
    (hR : ∀ a s, R a s → R' a s) : wp E I F p R' s :=
  wp_mono (fun _ h => h) (fun _ _ h => h) hR h

/-- Under given answers there is one run. -/
theorem wp_eval {answer : σ → (q : Q) → Option (A q)} {p : Cmd A σ ε α} {a : α} {s' : σ}
    (h : p.eval answer s = some (a, s')) (hR : R a s') :
    wp (Given answer) (fun _ => True) F p R s := by
  induction p generalizing s with
  | done b =>
    cases h
    exact hR
  | fail e => cases h
  | look k ih => exact ih s h
  | step f k ih => exact ⟨trivial, ih h⟩
  | ask q k ih =>
    refine ⟨trivial, ?_⟩
    intro b hb
    rw [eval, hb] at h
    exact ih b h

/-- What a weakest precondition says of the place a run has come to. -/
theorem wp_reaches {p p' : Cmd A σ ε α} {s' : σ} (h : Reaches E p s p' s')
    (hw : wp E I F p R s) : wp E I F p' R s' := by
  induction h with
  | refl => exact hw
  | look _ ih => exact ih hw
  | step _ ih => exact ih hw.2
  | ask ha _ ih => exact ih (hw.2 _ ha)

theorem wp_returns {p : Cmd A σ ε α} {a : α} {s' : σ} (h : Returns E p s a s')
    (hw : wp E I F p R s) : R a s' :=
  wp_reaches h hw

theorem wp_fails {p : Cmd A σ ε α} {e : ε} {s' : σ} (h : Fails E p s e s')
    (hw : wp E I F p R s) : F e s' :=
  wp_reaches h hw

theorem wp_stops {p : Cmd A σ ε α} {s' : σ} (h : Stops E p s s') (hw : wp E I F p R s)
    (hF : ∀ e s, F e s → I s) : I s' := by
  obtain ⟨p', hr, hs⟩ := h
  have hp := wp_reaches hr hw
  cases p' with
  | done a => cases hs
  | look k => cases hs
  | fail e => exact hF e s' hp
  | step f k => exact hp.1
  | ask q k => exact hp.1

/-- Where every question is answered, a command comes to its end or fails. -/
theorem exists_end (hE : ∀ s q, ∃ a, E s q a) (p : Cmd A σ ε α) (s : σ) :
    (∃ a s', Returns E p s a s') ∨ ∃ e s', Fails E p s e s' := by
  induction p generalizing s with
  | done a => exact .inl ⟨a, s, .refl⟩
  | fail e => exact .inr ⟨e, s, .refl⟩
  | look k ih =>
    rcases ih s s with ⟨a, s', h⟩ | ⟨e, s', h⟩
    · exact .inl ⟨a, s', .look h⟩
    · exact .inr ⟨e, s', .look h⟩
  | step g k ih =>
    rcases ih (g s) with ⟨a, s', h⟩ | ⟨e, s', h⟩
    · exact .inl ⟨a, s', .step h⟩
    · exact .inr ⟨e, s', .step h⟩
  | ask q k ih =>
    obtain ⟨x, hx⟩ := hE s q
    rcases ih x s with ⟨a, s', h⟩ | ⟨e, s', h⟩
    · exact .inl ⟨a, s', .ask hx h⟩
    · exact .inr ⟨e, s', .ask hx h⟩

/-- Where every question is answered, a command that cannot fail comes to its end. -/
theorem exists_returns {p : Cmd A σ ε α} (hE : ∀ s q, ∃ a, E s q a)
    (hw : wp E (fun _ => True) (fun _ _ => False) p R s) : ∃ a s', Returns E p s a s' ∧ R a s' := by
  rcases exists_end hE p s with ⟨a, s', h⟩ | ⟨e, s', h⟩
  · exact ⟨a, s', h, wp_returns h hw⟩
  · exact (wp_fails h hw).elim

theorem wp_passes {p : Cmd A σ ε α} {s' : σ} (h : Passes E p s s') (hw : wp E I F p R s)
    (hF : ∀ e s, F e s → I s) (hR : ∀ a s, R a s → I s) : I s' := by
  obtain ⟨p', hr⟩ := h
  have hp := wp_reaches hr hw
  clear hr hw
  induction p' generalizing s' with
  | done a => exact hR a s' hp
  | fail e => exact hF e s' hp
  | look k ih => exact ih s' hp
  | step f k => exact hp.1
  | ask q k => exact hp.1

end

/-! ## Invariants -/

/-- `I`, once it holds, holds wherever the command is interrupted, fails or ends. -/
def Keeps (E : Answers A σ) (I : σ → Prop) (p : Cmd A σ ε α) : Prop :=
  ∀ s, I s → wp E I (fun _ => I) p (fun _ => I) s

section

variable {E : Answers A σ} {I : σ → Prop}

theorem Keeps.passes {p : Cmd A σ ε α} (h : Keeps E I p) {s s' : σ} (hs : I s)
    (hp : Passes E p s s') : I s' :=
  wp_passes hp (h s hs) (fun _ _ h => h) (fun _ _ h => h)

theorem Keeps.pure (a : α) : Keeps E I (Pure.pure a : Cmd A σ ε α) := fun _ h => h

theorem Keeps.throw (e : ε) : Keeps E I (throw e : Cmd A σ ε α) := fun _ h => h

theorem Keeps.get : Keeps E I (get : Cmd A σ ε σ) := fun _ h => h

theorem Keeps.query (q : Q) : Keeps E I (query q : Cmd A σ ε (A q)) := fun _ h => ⟨h, fun _ _ => h⟩

theorem Keeps.update {f : σ → σ} (h : ∀ s, I s → I (f s)) : Keeps E I (update f : Cmd A σ ε Unit) :=
  fun s hs => ⟨hs, h s hs⟩

theorem Keeps.bind {p : Cmd A σ ε α} {f : α → Cmd A σ ε β} (hp : Keeps E I p)
    (hf : ∀ a, Keeps E I (f a)) : Keeps E I (p >>= f) := by
  intro s hs
  rw [wp_bind]
  exact wp_mono (fun _ h => h) (fun _ _ h => h) (fun a s h => hf a s h) (hp s hs)

theorem Keeps.attempt {p : Cmd A σ ε α} (hp : Keeps E I p) : Keeps E I p.attempt := by
  intro s hs
  rw [wp_attempt]
  exact hp s hs

theorem Keeps.ite {c : Prop} [Decidable c] {p q : Cmd A σ ε α} (hp : Keeps E I p)
    (hq : Keeps E I q) : Keeps E I (if c then p else q) := by
  split
  · exact hp
  · exact hq

end

/-! ## Commands that only look -/

def still : Cmd A σ ε α → Prop
  | done _ => True
  | fail _ => True
  | look k => ∀ s, (k s).still
  | step _ _ => False
  | ask _ k => ∀ a, (k a).still

theorem still_bind {p : Cmd A σ ε α} {f : α → Cmd A σ ε β} (hp : p.still)
    (hf : ∀ a, (f a).still) : (p.bind f).still := by
  induction p with
  | done a => exact hf a
  | fail e => trivial
  | look k ih => exact fun s => ih s (hp s)
  | step g k _ => exact hp.elim
  | ask q k ih => exact fun a => ih a (hp a)

theorem still_attempt {p : Cmd A σ ε α} (hp : p.still) : p.attempt.still := by
  induction p with
  | done a => trivial
  | fail e => trivial
  | look k ih => exact fun s => ih s (hp s)
  | step g k _ => exact hp.elim
  | ask q k ih => exact fun a => ih a (hp a)

/-- Such a command is known by what it returns and how it fails. -/
theorem wp_of_still {E : Answers A σ} {I : σ → Prop} {F : ε → σ → Prop} {R : α → σ → Prop} {s : σ}
    {p : Cmd A σ ε α} (hp : p.still) (hI : I s) (hF : ∀ e, Fails E p s e s → F e s)
    (hR : ∀ a, Returns E p s a s → R a s) : wp E I F p R s := by
  induction p with
  | done a => exact hR a .refl
  | fail e => exact hF e .refl
  | look k ih => exact ih s (hp s) (fun e he => hF e (.look he)) fun a ha => hR a (.look ha)
  | step g k _ => exact hp.elim
  | ask q k ih =>
    exact ⟨hI, fun x hx => ih x (hp x) (fun e he => hF e (.ask hx he))
      fun a ha => hR a (.ask hx ha)⟩

/-! ## Footprints -/

/-- Every step of the command is one of `G`, whatever it is told and wherever it is taken. -/
def Within (G : σ → σ → Prop) : Cmd A σ ε α → Prop
  | done _ => True
  | fail _ => True
  | look k => ∀ s, (k s).Within G
  | step f k => (∀ s, G s (f s)) ∧ k.Within G
  | ask _ k => ∀ a, (k a).Within G

section

variable {G : σ → σ → Prop}

theorem within_of_still {p : Cmd A σ ε α} (h : p.still) : p.Within G := by
  induction p with
  | done a => trivial
  | fail e => trivial
  | look k ih => exact fun s => ih s (h s)
  | step g k _ => exact h.elim
  | ask q k ih => exact fun a => ih a (h a)

theorem Within.mono {G' : σ → σ → Prop} {p : Cmd A σ ε α} (h : p.Within G)
    (hG : ∀ s s', G s s' → G' s s') : p.Within G' := by
  induction p with
  | done a => trivial
  | fail e => trivial
  | look k ih => exact fun s => ih s (h s)
  | step g k ih => exact ⟨fun s => hG s _ (h.1 s), ih h.2⟩
  | ask q k ih => exact fun a => ih a (h a)

theorem Within.bind {p : Cmd A σ ε α} {f : α → Cmd A σ ε β} (hp : p.Within G)
    (hf : ∀ a, (f a).Within G) : (p >>= f).Within G := by
  show (p.bind f).Within G
  induction p with
  | done a => exact hf a
  | fail e => trivial
  | look k ih => exact fun s => ih s (hp s)
  | step g k ih => exact ⟨hp.1, ih hp.2⟩
  | ask q k ih => exact fun a => ih a (hp a)

theorem Within.attempt {p : Cmd A σ ε α} (hp : p.Within G) : p.attempt.Within G := by
  induction p with
  | done a => trivial
  | fail e => trivial
  | look k ih => exact fun s => ih s (hp s)
  | step g k ih => exact ⟨hp.1, ih hp.2⟩
  | ask q k ih => exact fun a => ih a (hp a)

theorem Within.ite {c : Prop} [Decidable c] {p q : Cmd A σ ε α} (hp : p.Within G)
    (hq : q.Within G) : (if c then p else q).Within G := by
  split
  · exact hp
  · exact hq

theorem Within.update {f : σ → σ} (h : ∀ s, G s (f s)) :
    (update f : Cmd A σ ε Unit).Within G :=
  ⟨h, trivial⟩

/-- An invariant of the steps is kept by the command. -/
theorem Within.keeps {E : Answers A σ} {I : σ → Prop} {p : Cmd A σ ε α} (h : p.Within G)
    (hI : ∀ s s', G s s' → I s → I s') : Keeps E I p := by
  intro s hs
  induction p generalizing s with
  | done a => exact hs
  | fail e => exact hs
  | look k ih => exact ih s (h s) s hs
  | step f k ih => exact ⟨hs, ih h.2 (f s) (hI s _ (h.1 s) hs)⟩
  | ask q k ih => exact ⟨hs, fun a _ => ih a (h a) s hs⟩

end

end Cmd

/-- A command that takes no step. -/
def Probe {Q : Type} (A : Q → Type) (σ ε α : Type) := { p : Cmd A σ ε α // p.still }

namespace Probe

variable {Q : Type} {A : Q → Type} {σ ε α : Type}

instance : Monad (Probe A σ ε) where
  pure a := ⟨.done a, trivial⟩
  bind p f := ⟨p.1.bind fun a => (f a).1, Cmd.still_bind p.2 fun a => (f a).2⟩

instance : MonadLift (Probe A σ ε) (Cmd A σ ε) := ⟨Subtype.val⟩

def get : Probe A σ ε σ := ⟨.get, fun _ => trivial⟩

def query (q : Q) : Probe A σ ε (A q) := ⟨.query q, fun _ => trivial⟩

def throw (e : ε) : Probe A σ ε α := ⟨.fail e, trivial⟩

def attempt (p : Probe A σ ε α) : Probe A σ ε (Except ε α) := ⟨p.1.attempt, Cmd.still_attempt p.2⟩

def ofExcept : Except ε α → Probe A σ ε α
  | .ok a => pure a
  | .error e => throw e

/-- The rule for a command that only looks. -/
theorem wp {E : Answers A σ} {I : σ → Prop} {F : ε → σ → Prop} {R : α → σ → Prop} {s : σ}
    (p : Probe A σ ε α) (hI : I s) (hF : ∀ e, Cmd.Fails E p.1 s e s → F e s)
    (hR : ∀ a, Cmd.Returns E p.1 s a s → R a s) : Cmd.wp E I F (liftM p) R s :=
  Cmd.wp_of_still p.2 hI hF hR

theorem wp_bind {β : Type} {E : Answers A σ} {I : σ → Prop} {F : ε → σ → Prop}
    {R : β → σ → Prop} {s : σ} {p : Probe A σ ε α} {f : α → Probe A σ ε β} (hI : I s)
    (hF : ∀ e, Cmd.Fails E p.1 s e s → F e s)
    (hR : ∀ a, Cmd.Returns E p.1 s a s → Cmd.wp E I F (liftM (f a)) R s) :
    Cmd.wp E I F (liftM (p >>= f)) R s := by
  show Cmd.wp E I F (p.1 >>= fun a => (f a).1) R s
  rw [Cmd.wp_bind]
  exact p.wp hI hF hR

end Probe

section

variable {Q : Type} {A : Q → Type} {σ ε α β : Type}

@[simp] theorem probe_pure (a : α) : (liftM (pure a : Probe A σ ε α) : Cmd A σ ε α) = pure a := rfl

@[simp] theorem probe_bind (p : Probe A σ ε β) (f : β → Probe A σ ε α) :
    (liftM (p >>= f) : Cmd A σ ε α) = liftM p >>= fun b => liftM (f b) := rfl

@[simp] theorem probe_ite {c : Prop} [Decidable c] (p q : Probe A σ ε α) :
    (liftM (if c then p else q) : Cmd A σ ε α) = if c then liftM p else liftM q := by
  split <;> rfl

@[simp] theorem probe_attempt (p : Probe A σ ε α) :
    (liftM p.attempt : Cmd A σ ε (Except ε α)) = Cmd.attempt (liftM p) := rfl

end

/-! ## Commands one after the other -/

variable {Q : Type} {A : Q → Type} {σ ε κ : Type}

/-- One command is run after the other, each to its end or until it is interrupted. -/
def commands (E : Answers A σ) (init : σ → Prop) (run : κ → Cmd A σ ε Unit) : Run.System κ σ where
  init := init
  step := fun s c s' => (run c).Passes E s s'

/-- One command is tried again and again, and is interrupted or fails each time. -/
def attempts (E : Answers A σ) (init : σ → Prop) (run : κ → Cmd A σ ε Unit) : Run.System κ σ where
  init := init
  step := fun s c s' => (run c).Stops E s s'

end Crash
end EgoBridge
