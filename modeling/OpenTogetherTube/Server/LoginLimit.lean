import OpenTogetherTube.Lib.Machine
import OpenTogetherTube.Lib.OrderedMap

/-!
# The limit on login attempts

`POST /login` asks two limiters how much has been consumed: one for the user and the address together,
one for the address. If either is above its maximum, the attempt is answered with 429, and no password
is checked.

`Limited` is what this is for: after too many failed attempts, an attempt is refused. But the handler
only reads the limiters. Neither a failed attempt nor a successful one consumes anything, so the
limiters say of a user and an address what they said before the first attempt
(`limited_throughout_iff`), and passwords can be tried without end (`not_limited_throughout`).
-/

namespace OpenTogetherTube.Server.LoginLimit

open OpenTogetherTube.Lib

/-! ## The limiters -/

/-- What is kept for a key, in points and in milliseconds. -/
structure Counter where
  consumedPoints : Nat
  expiresAt : Nat
  deriving DecidableEq, Repr

structure RateLimiterRes where
  consumedPoints : Nat
  msBeforeNext : Nat
  deriving DecidableEq, Repr

/-- The keys of one limiter. The two have different prefixes. -/
abbrev Limiter := OrderedMap String Counter

/-- A key that has expired is not there. -/
def Limiter.get (l : Limiter) (now : Nat) (key : String) : Option RateLimiterRes :=
  match l.get? key with
  | some counter =>
    if now < counter.expiresAt then
      some ⟨counter.consumedPoints, counter.expiresAt - now⟩
    else none
  | none => none

structure Limiters where
  slowBruteByIP : Limiter
  consecutiveFailsByUsernameAndIP : Limiter
  deriving DecidableEq

structure Conf where
  test : Bool
  rateLimitEnabled : Bool
  deriving DecidableEq, Repr

def maxWrongAttemptsByIPperDay (conf : Conf) : Nat := if conf.test then 9999999999 else 100

def maxConsecutiveFailsByUsernameAndIP (conf : Conf) : Nat := if conf.test then 9999999999 else 10

/-! ## The handler -/

/-- The fields of the body that name the user. -/
structure Body (υ : Type) where
  user : Option υ
  email : Option υ
  username : Option υ
  deriving DecidableEq, Repr

/-- `user ?? email ?? username`. -/
def Body.named {υ : Type} (body : Body υ) : Option υ :=
  match body.user, body.email, body.username with
  | some user, _, _ => some user
  | none, some email, _ => some email
  | none, none, username => username

/-- What `passport.authenticate` gives to its callback, if it is called: an error, a user who can be
logged in or not, or no user. -/
inductive Verdict where
  | error (message : String)
  | user (email username : String) (login : Bool)
  | noUser
  deriving DecidableEq, Repr

structure Request (υ : Type) where
  ip : String
  body : Body υ
  now : Nat
  verdict : Verdict
  deriving DecidableEq, Repr

inductive Response where
  | tooManyRequests (retryAfter : Nat)
  | unauthorized (message : String)
  | internalServerError (message : String)
  | success (email username : String)
  deriving DecidableEq, Repr

def Response.status : Response → Nat
  | .tooManyRequests _ => 429
  | .unauthorized _ => 401
  | .internalServerError _ => 500
  | .success _ _ => 200

/-- The answer, and whether a password was checked for it. -/
structure Answer where
  response : Response
  checked : Bool
  deriving DecidableEq, Repr

/-- `Math.round(ms / 1000) || 1`. -/
def retrySecs (msBeforeNext : Nat) : Nat :=
  let secs := (msBeforeNext + 500) / 1000
  if secs = 0 then 1 else secs

section Handler

variable {υ : Type} (conf : Conf) (render : Option υ → String)

/-- `render` is what a template makes of the value. -/
def usernameIPkey (r : Request υ) : String := render r.body.named ++ "_" ++ r.ip

/-- For how long the attempt is refused, or 0. -/
def blockedFor (s : Limiters) (r : Request υ) : Nat :=
  let resUsernameAndIP := s.consecutiveFailsByUsernameAndIP.get r.now (usernameIPkey render r)
  let resSlowByIP := s.slowBruteByIP.get r.now r.ip
  match resSlowByIP.filter (fun res => res.consumedPoints > maxWrongAttemptsByIPperDay conf) with
  | some res => retrySecs res.msBeforeNext
  | none =>
    match resUsernameAndIP.filter
        (fun res => res.consumedPoints > maxConsecutiveFailsByUsernameAndIP conf) with
    | some res => retrySecs res.msBeforeNext
    | none => 0

/-- The callback of `passport.authenticate`. -/
def authenticated : Verdict → Response
  | .error message => .unauthorized message
  | .user email username true => .success email username
  | .user _ _ false => .internalServerError "An unknown error occurred when logging in."
  | .noUser => .unauthorized "Either the user or password was not provided."

/-- `POST /login`. -/
def login (s : Limiters) (r : Request υ) : Limiters × Answer :=
  let retry := if conf.rateLimitEnabled then blockedFor conf render s r else 0
  if retry > 0 then (s, ⟨.tooManyRequests retry, false⟩)
  else (s, ⟨authenticated r.verdict, true⟩)

def system : Machine Limiters (Request υ) := ⟨fun s r => some (login conf render s r).1⟩

end Handler

/-! ## The specification -/

/-- An attempt that was made: who it was for, where it came from, and whether it failed. -/
structure Attempt (υ : Type) where
  user : Option υ
  ip : String
  failed : Bool
  deriving DecidableEq, Repr

section Specification

variable {υ : Type} [DecidableEq υ] (conf : Conf) (render : Option υ → String)

/-- A password was checked, and the attempt was not authorized. -/
def attempt (s : Limiters) (r : Request υ) : Attempt υ :=
  let answer := (login conf render s r).2
  ⟨r.body.named, r.ip, answer.checked && decide (answer.response.status = 401)⟩

/-- The handler, with the attempts that were made. -/
def history : Machine (Limiters × List (Attempt υ)) (Request υ) :=
  (system conf render).logging (fun s r => [attempt conf render s r])

/-- Too many attempts have failed for the user from this address, or from this address. -/
def TooMany (attempts : List (Attempt υ)) (r : Request υ) : Prop :=
  maxConsecutiveFailsByUsernameAndIP conf <
      (attempts.filter (fun a => a.failed ∧ a.user = r.body.named ∧ a.ip = r.ip)).length ∨
    maxWrongAttemptsByIPperDay conf <
      (attempts.filter (fun a => a.failed ∧ a.ip = r.ip)).length

/-- **The purpose**: then the attempt is refused, and no password is checked. -/
def Limited (s : Limiters × List (Attempt υ)) (r : Request υ) : Prop :=
  TooMany conf s.2 r → (login conf render s.1 r).2.response.status = 429 ∧
    (login conf render s.1 r).2.checked = false

/-- A limiter holds more than its maximum for the attempt. -/
def Blocks (s : Limiters) (r : Request υ) : Prop :=
  (∃ res ∈ s.slowBruteByIP.get r.now r.ip,
    maxWrongAttemptsByIPperDay conf < res.consumedPoints) ∨
  (∃ res ∈ s.consecutiveFailsByUsernameAndIP.get r.now (usernameIPkey render r),
    maxConsecutiveFailsByUsernameAndIP conf < res.consumedPoints)

instance (attempts : List (Attempt υ)) (r : Request υ) : Decidable (TooMany conf attempts r) :=
  inferInstanceAs (Decidable (_ ∨ _))

instance (s : Limiters × List (Attempt υ)) (r : Request υ) :
    Decidable (Limited conf render s r) :=
  inferInstanceAs (Decidable (_ → _))

end Specification

/-! ## The limiters stay as they are -/

section Unwritten

variable {υ : Type} {conf : Conf} {render : Option υ → String} {s : Limiters} {r : Request υ}

theorem retrySecs_pos (msBeforeNext : Nat) : 0 < retrySecs msBeforeNext := by
  unfold retrySecs
  dsimp only
  split
  · decide
  · omega

/-- **The handler consumes nothing.** -/
theorem login_limiters : (login conf render s r).1 = s := by
  unfold login
  dsimp only
  generalize (if conf.rateLimitEnabled then blockedFor conf render s r else 0) = retry
  split <;> rfl

/-- An attempt is refused if and only if a limiter holds more than its maximum. -/
theorem blockedFor_pos_iff : 0 < blockedFor conf render s r ↔ Blocks conf render s r := by
  have hfilter : ∀ {o : Option RateLimiterRes} {p : RateLimiterRes → Bool},
      o.filter p = none ↔ ¬ ∃ res ∈ o, p res = true := by
    intro o p
    rw [Option.filter_eq_none_iff]
    constructor
    · rintro hall ⟨res, hres, hp⟩
      exact hall res hres hp
    · exact fun hnot res hres hp => hnot ⟨res, hres, hp⟩
  unfold blockedFor Blocks
  dsimp only
  split
  · next res hsome =>
    obtain ⟨hres, hmax⟩ := Option.filter_eq_some_iff.mp hsome
    exact iff_of_true (retrySecs_pos _) (.inl ⟨res, hres, of_decide_eq_true hmax⟩)
  · next hnone =>
    have hip := hfilter.mp hnone
    split
    · next res hsome =>
      obtain ⟨hres, hmax⟩ := Option.filter_eq_some_iff.mp hsome
      exact iff_of_true (retrySecs_pos _) (.inr ⟨res, hres, of_decide_eq_true hmax⟩)
    · next hnone =>
      have huser := hfilter.mp hnone
      refine iff_of_false (Nat.lt_irrefl 0) ?_
      rintro (⟨res, hres, hmax⟩ | ⟨res, hres, hmax⟩)
      · exact hip ⟨res, hres, decide_eq_true hmax⟩
      · exact huser ⟨res, hres, decide_eq_true hmax⟩

theorem authenticated_status (verdict : Verdict) : (authenticated verdict).status ≠ 429 := by
  intro hstatus
  rcases verdict with message | ⟨email, username, _ | _⟩ | _ <;> cases hstatus

theorem refused_iff (h : conf.rateLimitEnabled = true) :
    ((login conf render s r).2.response.status = 429 ∧
      (login conf render s r).2.checked = false) ↔ Blocks conf render s r := by
  rw [← blockedFor_pos_iff]
  unfold login
  rw [if_pos h]
  dsimp only
  split
  · next hpos => exact iff_of_true ⟨rfl, rfl⟩ hpos
  · next hzero => exact iff_of_false (fun hrefused => authenticated_status _ hrefused.1) hzero

end Unwritten

/-- **The limit holds in a run if and only if** no attempt comes after too many failed ones, but those
that the limiters refused already before the first attempt. -/
theorem limited_throughout_iff {υ : Type} [DecidableEq υ] {conf : Conf}
    (h : conf.rateLimitEnabled = true) (render : Option υ → String) (s₀ : Limiters)
    (requests : List (Request υ)) :
    (history conf render).Along (Limited conf render) (s₀, []) requests ↔
      (history conf render).Along (fun s r => TooMany conf s.2 r → Blocks conf render s₀ r) (s₀, [])
        requests := by
  -- the invariant is that the limiters are those of the beginning
  have hkept : ∀ (s : Limiters × List (Attempt υ)) r s', s.1 = s₀ →
      (history conf render).step s r = some s' → s'.1 = s₀ := by
    intro s r s' hs hstep
    obtain ⟨hlogin, -⟩ := Machine.step_logging.mp hstep
    have heq : (login conf render s.1 r).1 = s'.1 := Option.some.inj hlogin
    rw [← heq, login_limiters]
    exact hs
  have hlimited : ∀ (s : Limiters × List (Attempt υ)) r, s.1 = s₀ →
      (Limited conf render s r ↔ (TooMany conf s.2 r → Blocks conf render s₀ r)) := by
    intro s r hs
    unfold Limited
    rw [refused_iff h, hs]
  constructor
  · apply Machine.along_of_along (I := fun s => s.1 = s₀)
    · exact fun s r s' hs _ hstep => hkept s r s' hs hstep
    · exact fun s r s' hs hC _ => (hlimited s r hs).mp hC
    · rfl
  · apply Machine.along_of_along (I := fun s => s.1 = s₀)
    · exact fun s r s' hs _ hstep => hkept s r s' hs hstep
    · exact fun s r s' hs hC _ => (hlimited s r hs).mpr hC
    · rfl

/-- Production. -/
def production : Conf := ⟨false, true⟩

/-- A limiter that nothing was consumed of. -/
def fresh : Limiters := ⟨∅, ∅⟩

/-- A wrong password for alice. -/
def wrongPassword : Request String where
  ip := "203.0.113.7"
  body := ⟨some "alice", none, none⟩
  now := 0
  verdict := .error "Email or password is incorrect."

/-- What a template makes of a string that may be missing. -/
def asText : Option String → String := fun s => s.getD "undefined"

/-- The limit holds while nobody tries too often. -/
theorem limited_throughout_iff_twice :
    (history production asText).Along (Limited production asText) (fresh, [])
      [wrongPassword, wrongPassword] :=
  (limited_throughout_iff rfl asText fresh [wrongPassword, wrongPassword]).mpr
    (fun _ hfirst => ⟨fun htoo => absurd htoo (by decide),
      fun _ hsecond => ⟨fun htoo => by cases hfirst; exact absurd htoo (by decide +kernel),
        trivial⟩⟩)

/-- **Nobody is ever refused**: the twelfth wrong password is checked like the first. -/
theorem not_limited_throughout :
    ¬ ∀ (conf : Conf), conf.rateLimitEnabled = true → ∀ (requests : List (Request String)),
      (history conf asText).Along (Limited conf asText) (fresh, []) requests := by
  intro h
  have hrun := h production rfl (List.replicate 12 wrongPassword)
  revert hrun
  decide +kernel

end OpenTogetherTube.Server.LoginLimit
