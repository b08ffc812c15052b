import Mathlib.Tactic.Common

/-!
# Code that makes calls

A `Routine` does everything by calls to the outside. Each call is answered, or it fails, and where it
fails it throws. Nothing is said of what a call does: in `Runs` every answer may come, so what holds of
all runs holds whatever is behind the calls.

* `Calls P`: the routine makes no calls but those in `P`.
* `ReturnsAfter P` and `EndsAfter P`: it does not return, or does not end at all, without a call in
  `P`. They follow the end of a routine's text, as `Calls` follows the whole of it.
-/

namespace OpenTogetherTube.Lib

/-- Calls `κ`, answered by `ρ` or failing with an `ε`. -/
inductive Routine (κ : Type) (ρ : κ → Type) (ε α : Type) where
  | done (a : α)
  | throw (e : ε)
  | call (c : κ) (k : Except ε (ρ c) → Routine κ ρ ε α)

/-- A call that was made, and how it went. -/
structure CallEvent (κ : Type) (ρ : κ → Type) (ε : Type) where
  call : κ
  answer : Except ε (ρ call)

namespace Routine

variable {κ : Type} {ρ : κ → Type} {ε α β : Type}

def bind : Routine κ ρ ε α → (α → Routine κ ρ ε β) → Routine κ ρ ε β
  | .done a, f => f a
  | .throw e, _ => .throw e
  | .call c k, f => .call c (fun x => (k x).bind f)

instance : Monad (Routine κ ρ ε) where
  pure := .done
  bind := bind

/-- The rest of a call that fails is to throw. -/
def returned : Except ε α → Routine κ ρ ε α
  | .ok a => .done a
  | .error e => .throw e

def perform (c : κ) : Routine κ ρ ε (ρ c) := .call c returned

/-- `try … catch`. -/
def catchWith : Routine κ ρ ε α → (ε → Routine κ ρ ε α) → Routine κ ρ ε α
  | .done a, _ => .done a
  | .throw e, h => h e
  | .call c k, h => .call c (fun x => (k x).catchWith h)

/-- A branch without an `else`. -/
def when (c : Prop) [Decidable c] (p : Routine κ ρ ε Unit) : Routine κ ρ ε Unit :=
  if c then p else .done ()

@[simp] theorem pure_eq (a : α) : (pure a : Routine κ ρ ε α) = .done a := rfl

@[simp] theorem done_bind (a : α) (f : α → Routine κ ρ ε β) : Routine.done a >>= f = f a := rfl

/-- A handler that throws again is none. -/
theorem catchWith_throw (p : Routine κ ρ ε α) : p.catchWith .throw = p := by
  induction p with
  | done a => rfl
  | throw e => rfl
  | call c k ih =>
    show Routine.call c (fun x => (k x).catchWith .throw) = .call c k
    rw [funext ih]

/-! ## Runs -/

/-- The routine makes these calls, with these answers, and ends so. -/
inductive Runs : Routine κ ρ ε α → List (CallEvent κ ρ ε) → Except ε α → Prop
  | done (a : α) : Runs (.done a) [] (.ok a)
  | throw (e : ε) : Runs (.throw e) [] (.error e)
  | call (c : κ) (k : Except ε (ρ c) → Routine κ ρ ε α) (x : Except ε (ρ c))
      {t : List (CallEvent κ ρ ε)} {y : Except ε α} (h : Runs (k x) t y) :
      Runs (.call c k) (⟨c, x⟩ :: t) y

/-- The run in which each call is answered as `world` says, by what has happened before it. -/
def runIn (world : List (CallEvent κ ρ ε) → (c : κ) → Except ε (ρ c)) :
    Routine κ ρ ε α → List (CallEvent κ ρ ε) → List (CallEvent κ ρ ε) × Except ε α
  | .done a, _ => ([], .ok a)
  | .throw e, _ => ([], .error e)
  | .call c k, before =>
    let x := world before c
    let rest := (k x).runIn world (before ++ [⟨c, x⟩])
    (⟨c, x⟩ :: rest.1, rest.2)

/-- Each routine runs in each world. -/
theorem runs_runIn (world : List (CallEvent κ ρ ε) → (c : κ) → Except ε (ρ c))
    (p : Routine κ ρ ε α) (before : List (CallEvent κ ρ ε)) :
    Runs p (p.runIn world before).1 (p.runIn world before).2 := by
  induction p generalizing before with
  | done a => exact .done a
  | throw e => exact .throw e
  | call c k ih => exact .call c k _ (ih (world before c) _)

section Inversion

variable {p : Routine κ ρ ε α} {t : List (CallEvent κ ρ ε)} {x : Except ε α}

theorem runs_done_iff {a : α} : Runs (.done a : Routine κ ρ ε α) t x ↔ t = [] ∧ x = .ok a := by
  constructor
  · intro h
    cases h
    exact ⟨rfl, rfl⟩
  · rintro ⟨rfl, rfl⟩
    exact .done a

theorem runs_throw_iff {e : ε} :
    Runs (.throw e : Routine κ ρ ε α) t x ↔ t = [] ∧ x = .error e := by
  constructor
  · intro h
    cases h
    exact ⟨rfl, rfl⟩
  · rintro ⟨rfl, rfl⟩
    exact .throw e

theorem runs_call_iff {c : κ} {k : Except ε (ρ c) → Routine κ ρ ε α} :
    Runs (.call c k) t x ↔ ∃ a t', t = ⟨c, a⟩ :: t' ∧ Runs (k a) t' x := by
  constructor
  · intro h
    cases h with
    | call _ _ a h => exact ⟨a, _, rfl, h⟩
  · rintro ⟨a, t', rfl, h⟩
    exact .call c k a h

/-- A run of a sequence is a run of its first part, and of the second if the first returns. -/
theorem Runs.of_bind {f : α → Routine κ ρ ε β} {y : Except ε β} (h : Runs (p >>= f) t y) :
    (∃ t₁ a t₂, t = t₁ ++ t₂ ∧ Runs p t₁ (.ok a) ∧ Runs (f a) t₂ y) ∨
      ∃ e, y = .error e ∧ Runs p t (.error e) := by
  induction p generalizing t with
  | done a => exact .inl ⟨[], a, t, rfl, .done a, h⟩
  | throw e =>
    cases h
    exact .inr ⟨e, rfl, .throw e⟩
  | call c k ih =>
    obtain ⟨x, t', rfl, h'⟩ := runs_call_iff.mp h
    rcases ih x h' with ⟨t₁, a, t₂, rfl, h₁, h₂⟩ | ⟨e, rfl, h₁⟩
    · exact .inl ⟨⟨c, x⟩ :: t₁, a, t₂, rfl, .call c k x h₁, h₂⟩
    · exact .inr ⟨e, rfl, .call c k x h₁⟩

/-- A run of `try … catch` is a run of the body that returns, or one that throws and a run of the
handler. -/
theorem Runs.of_catchWith {h : ε → Routine κ ρ ε α} (hr : Runs (p.catchWith h) t x) :
    (∃ a, x = .ok a ∧ Runs p t (.ok a)) ∨
      ∃ t₁ e t₂, t = t₁ ++ t₂ ∧ Runs p t₁ (.error e) ∧ Runs (h e) t₂ x := by
  induction p generalizing t with
  | done a =>
    cases hr
    exact .inl ⟨a, rfl, .done a⟩
  | throw e => exact .inr ⟨[], e, t, rfl, .throw e, hr⟩
  | call c k ih =>
    obtain ⟨y, t', rfl, h'⟩ := runs_call_iff.mp hr
    rcases ih y h' with ⟨a, rfl, h₁⟩ | ⟨t₁, e, t₂, rfl, h₁, h₂⟩
    · exact .inl ⟨a, rfl, .call c k y h₁⟩
    · exact .inr ⟨⟨c, y⟩ :: t₁, e, t₂, rfl, .call c k y h₁, h₂⟩

/-- A sequence in `try … catch`, after its first part. -/
theorem Runs.of_bind_catchWith {f : α → Routine κ ρ ε β} {h : ε → Routine κ ρ ε β}
    {y : Except ε β} (hr : Runs ((p >>= f).catchWith h) t y) :
    ∃ t₁ x t₂, t = t₁ ++ t₂ ∧ Runs p t₁ x ∧
      ((∃ a, x = .ok a ∧ Runs ((f a).catchWith h) t₂ y) ∨
        ∃ e, x = .error e ∧ Runs (h e) t₂ y) := by
  induction p generalizing t with
  | done a => exact ⟨[], .ok a, t, rfl, .done a, .inl ⟨a, rfl, hr⟩⟩
  | throw e => exact ⟨[], .error e, t, rfl, .throw e, .inr ⟨e, rfl, hr⟩⟩
  | call c k ih =>
    obtain ⟨z, t', rfl, hrest⟩ := runs_call_iff.mp hr
    obtain ⟨t₁, x, t₂, rfl, h₁, h₂⟩ := ih z hrest
    exact ⟨⟨c, z⟩ :: t₁, x, t₂, rfl, .call c k z h₁, h₂⟩

end Inversion

/-! ## Which calls are made -/

/-- Only calls in `P`. -/
def Calls (P : κ → Prop) : Routine κ ρ ε α → Prop
  | .done _ => True
  | .throw _ => True
  | .call c k => P c ∧ ∀ x, (k x).Calls P

namespace Calls

variable {P : κ → Prop}

theorem done (a : α) : (Routine.done a : Routine κ ρ ε α).Calls P := trivial

theorem throw (e : ε) : (Routine.throw e : Routine κ ρ ε α).Calls P := trivial

theorem perform {c : κ} (hc : P c) : (Routine.perform c : Routine κ ρ ε (ρ c)).Calls P := by
  refine ⟨hc, fun x => ?_⟩
  cases x with
  | ok _ => trivial
  | error _ => trivial

theorem bind {p : Routine κ ρ ε α} {f : α → Routine κ ρ ε β} (hp : p.Calls P)
    (hf : ∀ a, (f a).Calls P) : (p >>= f).Calls P := by
  induction p with
  | done a => exact hf a
  | throw e => trivial
  | call c k ih => exact ⟨hp.1, fun x => ih x (hp.2 x)⟩

theorem catchWith {p : Routine κ ρ ε α} {h : ε → Routine κ ρ ε α} (hp : p.Calls P)
    (hh : ∀ e, (h e).Calls P) : (p.catchWith h).Calls P := by
  induction p with
  | done a => trivial
  | throw e => exact hh e
  | call c k ih => exact ⟨hp.1, fun x => ih x (hp.2 x)⟩

theorem ite {c : Prop} [Decidable c] {p q : Routine κ ρ ε α} (hp : p.Calls P) (hq : q.Calls P) :
    (if c then p else q).Calls P := by
  split
  · exact hp
  · exact hq

theorem when {c : Prop} [Decidable c] {p : Routine κ ρ ε Unit} (hp : p.Calls P) :
    (Routine.when c p).Calls P :=
  ite hp (done ())

/-- What is in a run of the routine. -/
theorem of_mem {p : Routine κ ρ ε α} {t : List (CallEvent κ ρ ε)} {x : Except ε α}
    {e : CallEvent κ ρ ε} (hp : p.Calls P) (hr : Runs p t x) (he : e ∈ t) : P e.call := by
  induction hr with
  | done | throw => cases he
  | call c k x h ih =>
    rcases List.mem_cons.mp he with rfl | he
    · exact hp.1
    · exact ih (hp.2 x) he

end Calls

/-! ## Which calls are made in the end -/

/-- It does not return without a call in `P`. -/
def ReturnsAfter (P : κ → Prop) (p : Routine κ ρ ε α) : Prop :=
  ∀ t a, Runs p t (.ok a) → ∃ e ∈ t, P e.call

/-- It does not end without a call in `P`. -/
def EndsAfter (P : κ → Prop) (p : Routine κ ρ ε α) : Prop :=
  ∀ t x, Runs p t x → ∃ e ∈ t, P e.call

section After

variable {P : κ → Prop}

theorem EndsAfter.call {c : κ} {k : Except ε (ρ c) → Routine κ ρ ε α} (hc : P c) :
    (Routine.call c k).EndsAfter P := by
  intro t x hr
  obtain ⟨a, t', rfl, -⟩ := runs_call_iff.mp hr
  exact ⟨⟨c, a⟩, List.mem_cons_self, hc⟩

theorem EndsAfter.returns {p : Routine κ ρ ε α} (hp : p.EndsAfter P) : p.ReturnsAfter P :=
  fun t a hr => hp t (.ok a) hr

theorem ReturnsAfter.throw (e : ε) : (Routine.throw e : Routine κ ρ ε α).ReturnsAfter P := by
  intro t a hr
  cases hr

/-- What a sequence returns is what its second part returns. -/
theorem ReturnsAfter.bind {p : Routine κ ρ ε α} {f : α → Routine κ ρ ε β}
    (hf : ∀ a, (f a).ReturnsAfter P) : (p >>= f).ReturnsAfter P := by
  intro t b hr
  rcases hr.of_bind with ⟨t₁, a, t₂, rfl, -, h₂⟩ | ⟨e, he, -⟩
  · obtain ⟨event, hevent, hP⟩ := hf a t₂ b h₂
    exact ⟨event, List.mem_append_right t₁ hevent, hP⟩
  · cases he

/-- A handler that makes such a call makes up for a throw. -/
theorem ReturnsAfter.catchWith {p : Routine κ ρ ε α} {h : ε → Routine κ ρ ε α}
    (hp : p.ReturnsAfter P) (hh : ∀ e, (h e).EndsAfter P) : (p.catchWith h).EndsAfter P := by
  intro t x hr
  rcases hr.of_catchWith with ⟨a, rfl, h₁⟩ | ⟨t₁, e, t₂, rfl, -, h₂⟩
  · exact hp t a h₁
  · obtain ⟨event, hevent, hP⟩ := hh e t₂ x h₂
    exact ⟨event, List.mem_append_right t₁ hevent, hP⟩

end After

end Routine

end OpenTogetherTube.Lib
