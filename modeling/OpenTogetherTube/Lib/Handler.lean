import Mathlib.Order.Defs.Unbundled
import Mathlib.Tactic.Common

/-!
# Handlers

A handler is code that reads and writes a state, emits messages on the way, and either returns or
throws. Unlike in a transaction, **what was written before a throw stays written**, and messages
emitted before it stay emitted: `Outcome` has a state whatever the result is.

`Keeps R h` says that the state `h` leaves is `R`-related to the one it was given, whether it
returns or throws. For a preorder `R` it composes through every construct (`Keeps.bind` and the
lemmas around it), so a frame condition is proved of a handler by following its text.
-/

namespace OpenTogetherTube.Lib

/-- What running a handler leaves behind. -/
structure Outcome (σ ω ε α : Type) where
  state : σ
  published : List ω
  result : Except ε α

/-- Code over a state `σ` that emits `ω`s and throws `ε`s. -/
structure Handler (σ ω ε α : Type) where
  run : σ → Outcome σ ω ε α

namespace Outcome

variable {σ ω ε α β : Type}

/-- Go on where a handler returned; a throw ends it all. -/
def andThen (o : Outcome σ ω ε α) (k : α → Handler σ ω ε β) : Outcome σ ω ε β :=
  match o with
  | ⟨s, out, .ok a⟩ =>
    let o' := (k a).run s
    ⟨o'.state, out ++ o'.published, o'.result⟩
  | ⟨s, out, .error e⟩ => ⟨s, out, .error e⟩

@[simp] theorem andThen_ok (s : σ) (out : List ω) (a : α) (k : α → Handler σ ω ε β) :
    andThen ⟨s, out, .ok a⟩ k =
      ⟨((k a).run s).state, out ++ ((k a).run s).published, ((k a).run s).result⟩ := rfl

@[simp] theorem andThen_error (s : σ) (out : List ω) (e : ε) (k : α → Handler σ ω ε β) :
    andThen ⟨s, out, .error e⟩ k = ⟨s, out, .error e⟩ := rfl

/-- The handler threw. -/
def Throws (o : Outcome σ ω ε α) : Prop := ∃ e, o.result = .error e

@[simp] theorem throws_ok (s : σ) (out : List ω) (a : α) :
    ¬ (⟨s, out, .ok a⟩ : Outcome σ ω ε α).Throws := by
  rintro ⟨e, he⟩
  cases he

@[simp] theorem throws_error (s : σ) (out : List ω) (e : ε) :
    (⟨s, out, .error e⟩ : Outcome σ ω ε α).Throws := ⟨e, rfl⟩

end Outcome

namespace Handler

variable {σ ω ε α β : Type}

instance : Monad (Handler σ ω ε) where
  pure a := ⟨fun s => ⟨s, [], .ok a⟩⟩
  bind m k := ⟨fun s => (m.run s).andThen k⟩

/-- Leave the handler. -/
def throw (e : ε) : Handler σ ω ε α := ⟨fun s => ⟨s, [], .error e⟩⟩

/-- The state as it is now. -/
def get : Handler σ ω ε σ := ⟨fun s => ⟨s, [], .ok s⟩⟩

def modify (f : σ → σ) : Handler σ ω ε Unit := ⟨fun s => ⟨f s, [], .ok ()⟩⟩

def emit (w : ω) : Handler σ ω ε Unit := ⟨fun s => ⟨s, [w], .ok ()⟩⟩

/-- A computation that may fail and touches nothing. -/
def liftExcept (r : Except ε α) : Handler σ ω ε α := ⟨fun s => ⟨s, [], r⟩⟩

/-- A call whose promise nobody awaits: it runs, and a throw in it goes unheard. -/
def unawaited (h : Handler σ ω ε α) : Handler σ ω ε Unit :=
  ⟨fun s => ⟨(h.run s).state, (h.run s).published, .ok ()⟩⟩

/-- A branch without an `else`. -/
def when (p : Prop) [Decidable p] (h : Handler σ ω ε Unit) : Handler σ ω ε Unit :=
  if p then h else pure ()

/-! ## Running the constructs -/

@[simp] theorem run_pure (a : α) (s : σ) : (pure a : Handler σ ω ε α).run s = ⟨s, [], .ok a⟩ := rfl

@[simp] theorem run_bind (m : Handler σ ω ε α) (k : α → Handler σ ω ε β) (s : σ) :
    (m >>= k).run s = (m.run s).andThen k := rfl

@[simp] theorem run_map (f : α → β) (m : Handler σ ω ε α) (s : σ) :
    (f <$> m).run s = (m.run s).andThen (fun a => pure (f a)) := rfl

@[simp] theorem run_throw (e : ε) (s : σ) :
    (throw e : Handler σ ω ε α).run s = ⟨s, [], .error e⟩ := rfl

@[simp] theorem run_get (s : σ) : (get : Handler σ ω ε σ).run s = ⟨s, [], .ok s⟩ := rfl

@[simp] theorem run_modify (f : σ → σ) (s : σ) :
    (modify f : Handler σ ω ε Unit).run s = ⟨f s, [], .ok ()⟩ := rfl

@[simp] theorem run_emit (w : ω) (s : σ) :
    (emit w : Handler σ ω ε Unit).run s = ⟨s, [w], .ok ()⟩ := rfl

@[simp] theorem run_liftExcept (r : Except ε α) (s : σ) :
    (liftExcept r : Handler σ ω ε α).run s = ⟨s, [], r⟩ := rfl

@[simp] theorem run_unawaited (h : Handler σ ω ε α) (s : σ) :
    (unawaited h).run s = ⟨(h.run s).state, (h.run s).published, .ok ()⟩ := rfl

theorem run_when (p : Prop) [Decidable p] (h : Handler σ ω ε Unit) (s : σ) :
    (when p h).run s = if p then h.run s else ⟨s, [], .ok ()⟩ := by
  unfold when
  split <;> rfl

/-! ## Frame conditions -/

/-- Two states that agree on what `f` reads off them. -/
def SameOn {τ : Type} (f : σ → τ) (s s' : σ) : Prop := f s' = f s

instance {τ : Type} (f : σ → τ) : IsPreorder σ (SameOn f) where
  refl _ := rfl
  trans _ _ _ h h' := h'.trans h

/-- Whether the handler returns or throws, the state it leaves is `R`-related to the one it got. -/
def Keeps (R : σ → σ → Prop) (h : Handler σ ω ε α) : Prop := ∀ s, R s (h.run s).state

namespace Keeps

variable {R : σ → σ → Prop} [IsPreorder σ R]

theorem pure (a : α) : Keeps R (Pure.pure a : Handler σ ω ε α) := fun s => refl_of R s

theorem throw (e : ε) : Keeps R (Handler.throw e : Handler σ ω ε α) := fun s => refl_of R s

theorem emit (w : ω) : Keeps R (Handler.emit w : Handler σ ω ε Unit) := fun s => refl_of R s

theorem get : Keeps R (Handler.get : Handler σ ω ε σ) := fun s => refl_of R s

theorem liftExcept (r : Except ε α) : Keeps R (Handler.liftExcept r : Handler σ ω ε α) :=
  fun s => refl_of R s

omit [IsPreorder σ R] in
theorem modify {f : σ → σ} (hf : ∀ s, R s (f s)) :
    Keeps R (Handler.modify f : Handler σ ω ε Unit) := hf

omit [IsPreorder σ R] in
theorem unawaited {h : Handler σ ω ε α} (hh : Keeps R h) : Keeps R (Handler.unawaited h) := hh

/-- Sequencing, at a state. -/
theorem bind_at {m : Handler σ ω ε α} {k : α → Handler σ ω ε β} {s : σ}
    (hm : R s (m.run s).state) (hk : ∀ a, Keeps R (k a)) : R s ((m >>= k).run s).state := by
  rw [run_bind]
  cases hres : m.run s with
  | mk s' out result =>
    rw [hres] at hm
    cases result with
    | ok a => exact trans_of R hm (hk a s')
    | error e => exact hm

/-- **Sequencing.** -/
theorem bind {m : Handler σ ω ε α} {k : α → Handler σ ω ε β} (hm : Keeps R m)
    (hk : ∀ a, Keeps R (k a)) : Keeps R (m >>= k) := fun s => bind_at (hm s) hk

/-- What follows a computation that may fail is about the value it had. -/
theorem liftExcept_bind {x : Except ε α} {k : α → Handler σ ω ε β}
    (hk : ∀ a, x = .ok a → Keeps R (k a)) : Keeps R (Handler.liftExcept x >>= k) := by
  intro s
  cases x with
  | ok a => exact hk a rfl s
  | error e => exact refl_of R s

omit [IsPreorder σ R] in
/-- What follows changes nothing. -/
theorem state_bind {m : Handler σ ω ε α} {k : α → Handler σ ω ε β}
    (hk : ∀ a, Keeps (SameOn id) (k a)) (s : σ) : ((m >>= k).run s).state = (m.run s).state := by
  rw [run_bind]
  cases m.run s with
  | mk s' out result =>
    cases result with
    | ok a => exact hk a s'
    | error e => rfl

omit [IsPreorder σ R] in
/-- Reading the state: what follows may be about the state that was read. -/
theorem get_bind {k : σ → Handler σ ω ε β} (hk : ∀ s, R s ((k s).run s).state) :
    Keeps R (Handler.get >>= k) := hk

omit [IsPreorder σ R] in
theorem ite {p : Prop} [Decidable p] {h h' : Handler σ ω ε α} (hp : p → Keeps R h)
    (hnp : ¬ p → Keeps R h') : Keeps R (if p then h else h') := by
  split
  · next h => exact hp h
  · next h => exact hnp h

theorem when {p : Prop} [Decidable p] {h : Handler σ ω ε Unit} (hp : p → Keeps R h) :
    Keeps R (Handler.when p h) := ite hp (fun _ => pure ())

omit [IsPreorder σ R] in
/-- What keeps something keeps each part of it. -/
theorem part {τ υ : Type} {f : σ → τ} {h : Handler σ ω ε α} (hh : Keeps (SameOn f) h)
    (g : τ → υ) : Keeps (SameOn (fun s => g (f s))) h := fun s => congrArg g (hh s)

end Keeps

/-! ## What is published -/

/-- Whether the handler returns or throws, everything it publishes satisfies `p`. -/
def Emits (p : ω → Prop) (h : Handler σ ω ε α) : Prop := ∀ s, ∀ w ∈ (h.run s).published, p w

namespace Emits

variable {p : ω → Prop}

theorem pure (a : α) : Emits p (Pure.pure a : Handler σ ω ε α) :=
  fun _ _ hw => absurd hw List.not_mem_nil

theorem throw (e : ε) : Emits p (Handler.throw e : Handler σ ω ε α) :=
  fun _ _ hw => absurd hw List.not_mem_nil

theorem get : Emits p (Handler.get : Handler σ ω ε σ) := fun _ _ hw => absurd hw List.not_mem_nil

theorem modify (f : σ → σ) : Emits p (Handler.modify f : Handler σ ω ε Unit) :=
  fun _ _ hw => absurd hw List.not_mem_nil

theorem liftExcept (r : Except ε α) : Emits p (Handler.liftExcept r : Handler σ ω ε α) :=
  fun _ _ hw => absurd hw List.not_mem_nil

theorem emit {w : ω} (hw : p w) : Emits p (Handler.emit w : Handler σ ω ε Unit) := by
  intro s w' hw'
  rw [List.mem_singleton.mp hw']
  exact hw

theorem unawaited {h : Handler σ ω ε α} (hh : Emits p h) : Emits p (Handler.unawaited h) := hh

/-- **Sequencing.** -/
theorem bind {m : Handler σ ω ε α} {k : α → Handler σ ω ε β} (hm : Emits p m)
    (hk : ∀ a, Emits p (k a)) : Emits p (m >>= k) := by
  intro s w hw
  have hfirst := hm s
  rw [run_bind] at hw
  cases hrun : m.run s with
  | mk s' out result =>
    rw [hrun] at hfirst hw
    cases result with
    | ok a =>
      rcases List.mem_append.mp hw with hw | hw
      · exact hfirst w hw
      · exact hk a s' w hw
    | error e => exact hfirst w hw

theorem map (f : α → β) {m : Handler σ ω ε α} (hm : Emits p m) : Emits p (f <$> m) :=
  bind hm (fun a => pure (f a))

theorem ite {q : Prop} [Decidable q] {h h' : Handler σ ω ε α} (hh : Emits p h)
    (hh' : Emits p h') : Emits p (if q then h else h') := by
  split
  · exact hh
  · exact hh'

theorem when {q : Prop} [Decidable q] {h : Handler σ ω ε Unit} (hh : Emits p h) :
    Emits p (Handler.when q h) := ite hh (pure ())

/-- A handler that publishes only what cannot be publishes nothing. -/
theorem published_eq_nil {h : Handler σ ω ε α} (hh : Emits (fun _ => False) h) (s : σ) :
    (h.run s).published = [] :=
  List.eq_nil_iff_forall_not_mem.mpr (hh s)

end Emits

/-! ## What a throw leaves behind

`OnThrow Q h s` is the weakest precondition of the exceptional exit: if `h`, run from `s`, throws,
then the state it leaves satisfies `Q`. The equivalences below evaluate it along a handler's text. -/

/-- If the handler throws, it leaves a state that satisfies `Q`. -/
def OnThrow (Q : σ → Prop) (h : Handler σ ω ε α) (s : σ) : Prop :=
  (h.run s).Throws → Q (h.run s).state

section OnThrow

variable {Q : σ → Prop} {s : σ}

@[simp] theorem onThrow_pure (a : α) : OnThrow Q (pure a : Handler σ ω ε α) s ↔ True := by
  simp [OnThrow]

@[simp] theorem onThrow_throw (e : ε) : OnThrow Q (throw e : Handler σ ω ε α) s ↔ Q s := by
  simp [OnThrow]

@[simp] theorem onThrow_modify (f : σ → σ) :
    OnThrow Q (modify f : Handler σ ω ε Unit) s ↔ True := by
  simp [OnThrow]

@[simp] theorem onThrow_emit (w : ω) : OnThrow Q (emit w : Handler σ ω ε Unit) s ↔ True := by
  simp [OnThrow]

@[simp] theorem onThrow_unawaited (h : Handler σ ω ε α) : OnThrow Q (unawaited h) s ↔ True := by
  simp [OnThrow]

/-- A handler that returned is followed by what comes next. -/
theorem onThrow_bind_of_ok {m : Handler σ ω ε α} {k : α → Handler σ ω ε β} {s' : σ}
    {out : List ω} {a : α} (h : m.run s = ⟨s', out, .ok a⟩) :
    OnThrow Q (m >>= k) s ↔ OnThrow Q (k a) s' := by
  simp [OnThrow, Outcome.Throws, h]

/-- A handler that threw is the end. -/
theorem onThrow_bind_of_error {m : Handler σ ω ε α} {k : α → Handler σ ω ε β} {s' : σ}
    {out : List ω} {e : ε} (h : m.run s = ⟨s', out, .error e⟩) :
    OnThrow Q (m >>= k) s ↔ Q s' := by
  simp [OnThrow, h]

@[simp] theorem onThrow_throw_bind (e : ε) (k : α → Handler σ ω ε β) :
    OnThrow Q (throw e >>= k) s ↔ Q s := onThrow_bind_of_error rfl

@[simp] theorem onThrow_pure_bind (a : α) (k : α → Handler σ ω ε β) :
    OnThrow Q (pure a >>= k) s ↔ OnThrow Q (k a) s := onThrow_bind_of_ok rfl

@[simp] theorem onThrow_get_bind (k : σ → Handler σ ω ε β) :
    OnThrow Q (get >>= k) s ↔ OnThrow Q (k s) s := onThrow_bind_of_ok rfl

@[simp] theorem onThrow_modify_bind (f : σ → σ) (k : Unit → Handler σ ω ε β) :
    OnThrow Q (modify f >>= k) s ↔ OnThrow Q (k ()) (f s) := onThrow_bind_of_ok rfl

@[simp] theorem onThrow_unawaited_bind (h : Handler σ ω ε α) (k : Unit → Handler σ ω ε β) :
    OnThrow Q (unawaited h >>= k) s ↔ OnThrow Q (k ()) (h.run s).state := onThrow_bind_of_ok rfl

@[simp] theorem onThrow_liftExcept_ok_bind (a : α) (k : α → Handler σ ω ε β) :
    OnThrow Q (liftExcept (.ok a) >>= k) s ↔ OnThrow Q (k a) s := onThrow_bind_of_ok rfl

@[simp] theorem onThrow_liftExcept_error_bind (e : ε) (k : α → Handler σ ω ε β) :
    OnThrow Q (liftExcept (.error e) >>= k) s ↔ Q s := onThrow_bind_of_error rfl

theorem onThrow_when (p : Prop) [Decidable p] (h : Handler σ ω ε Unit) :
    OnThrow Q (when p h) s ↔ (p → OnThrow Q h s) := by
  by_cases hp : p <;> simp [when, hp]

theorem onThrow_when_bind (p : Prop) [Decidable p] (h : Handler σ ω ε Unit)
    (k : Unit → Handler σ ω ε β) :
    OnThrow Q (when p h >>= k) s ↔
      (p → OnThrow Q (h >>= k) s) ∧ (¬ p → OnThrow Q (k ()) s) := by
  by_cases hp : p <;> simp [when, hp]

/-- Sequencing is associative, up to how the messages were collected. -/
theorem bind_assoc {γ : Type} (m : Handler σ ω ε α) (k : α → Handler σ ω ε β)
    (k' : β → Handler σ ω ε γ) : (m >>= k) >>= k' = m >>= fun a => k a >>= k' := by
  show Handler.mk _ = Handler.mk _
  congr 1
  funext s
  simp only [run_bind]
  cases hm : m.run s with
  | mk s' out result =>
    cases result with
    | error e => rfl
    | ok a =>
      simp only [Outcome.andThen_ok, run_bind]
      cases hk : (k a).run s' with
      | mk s'' out' result' =>
        cases result' with
        | error e => rfl
        | ok b => simp [List.append_assoc]

/-- A handler that leaves the state alone whatever happens is a check: either it throws here, or
what follows runs here. -/
theorem onThrow_check_bind {m : Handler σ ω ε α} {k : α → Handler σ ω ε β}
    (hm : Keeps (SameOn id) m) (hQ : Q s) (hk : ∀ a, OnThrow Q (k a) s) :
    OnThrow Q (m >>= k) s := by
  have hs : (m.run s).state = s := hm s
  cases hrun : m.run s with
  | mk s' out result =>
    rw [hrun] at hs
    cases hs
    cases result with
    | ok a => exact (onThrow_bind_of_ok hrun).mpr (hk a)
    | error e => exact (onThrow_bind_of_error hrun).mpr hQ

/-- A handler that keeps what `Q` is about keeps `Q`. -/
theorem onThrow_of_keeps {τ : Type} {f : σ → τ} {h : Handler σ ω ε α} (hh : Keeps (SameOn f) h)
    {v : τ} (hv : f s = v) : OnThrow (fun s' => f s' = v) h s :=
  fun _ => (hh s).trans hv

end OnThrow

end Handler

end OpenTogetherTube.Lib
