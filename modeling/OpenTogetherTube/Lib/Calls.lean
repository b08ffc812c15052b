import Mathlib.Data.List.Basic

/-!
# Calls and their replies

Calls are sent one after the other, and replies come in any order, at most one for each call. A reply
is put beside its call, so that the list says at any time which calls are open and what the others
were answered.

Calls are told apart by what they ask for: `Answered p` says that a call that `p` holds of was
answered so, and `Latest p` is the last of these calls that was sent.
-/

namespace OpenTogetherTube.Lib

structure Call (α β : Type) where
  request : α
  reply : Option β
  deriving DecidableEq, Repr

namespace Call

variable {α β : Type} {calls calls' : List (Call α β)} {a : α} {b b' : β} {i j : Nat} {c : Call α β}
  {p : α → Prop}

def send (calls : List (Call α β)) (a : α) : List (Call α β) := calls ++ [⟨a, none⟩]

/-- The reply to the call that was sent as number `i`, if it has none yet. -/
def answer (calls : List (Call α β)) (i : Nat) (b : β) : Option (List (Call α β)) :=
  match calls[i]? with
  | some ⟨a, none⟩ => some (calls.set i ⟨a, some b⟩)
  | _ => none

/-- Every call has its reply. -/
def Settled (calls : List (Call α β)) : Prop := ∀ c ∈ calls, c.reply ≠ none

def Answered (p : α → Prop) (calls : List (Call α β)) (b : β) : Prop :=
  ∃ c ∈ calls, p c.request ∧ c.reply = some b

structure Latest (p : α → Prop) (calls : List (Call α β)) (i : Nat) (c : Call α β) : Prop where
  here : calls[i]? = some c
  holds : p c.request
  later : ∀ j > i, ∀ c', calls[j]? = some c' → ¬ p c'.request

theorem answer_eq_some (h : answer calls i b = some calls') :
    ∃ a, calls[i]? = some ⟨a, none⟩ ∧ calls' = calls.set i ⟨a, some b⟩ := by
  unfold answer at h
  split at h
  · next a ha => exact ⟨a, ha, (Option.some.inj h).symm⟩
  · cases h

/-! ### A call is sent -/

theorem not_settled_send : ¬ Settled (send calls a) :=
  fun h => h ⟨a, none⟩ (List.mem_append_right _ (List.mem_singleton_self _)) rfl

theorem answered_send : Answered p (send calls a) b ↔ Answered p calls b := by
  unfold Answered send
  constructor
  · rintro ⟨c, hc, hp, hreply⟩
    rcases List.mem_append.mp hc with hold | hnew
    · exact ⟨c, hold, hp, hreply⟩
    · cases List.mem_singleton.mp hnew
      cases hreply
  · rintro ⟨c, hc, hp, hreply⟩
    exact ⟨c, List.mem_append_left _ hc, hp, hreply⟩

/-- It is the latest of its kind. -/
theorem Latest.of_send (h : Latest p (send calls a) i c) (ha : p a) : c = ⟨a, none⟩ := by
  have hlast : (send calls a)[calls.length]? = some ⟨a, none⟩ := List.getElem?_concat_length
  have hlt : i < (send calls a).length := (List.getElem?_eq_some_iff.mp h.here).1
  rw [send, List.length_append, List.length_singleton] at hlt
  rcases Nat.lt_or_eq_of_le (Nat.le_of_lt_succ hlt) with hbefore | heq
  · exact absurd ha (h.later calls.length hbefore _ hlast)
  · have hhere := h.here
    rw [heq] at hhere
    exact Option.some.inj (hhere.symm.trans hlast)

theorem latest_send (ha : p a) : Latest p (send calls a) calls.length ⟨a, none⟩ where
  here := List.getElem?_concat_length
  holds := ha
  later := by
    intro j hj c' hc'
    have hlt : j < (send calls a).length := (List.getElem?_eq_some_iff.mp hc').1
    rw [send, List.length_append, List.length_singleton] at hlt
    omega

/-- A call of another kind changes nothing. -/
theorem Latest.after_send (h : Latest p calls i c) (ha : ¬ p a) : Latest p (send calls a) i c := by
  have hlt : i < calls.length := (List.getElem?_eq_some_iff.mp h.here).1
  refine ⟨(List.getElem?_append_left hlt).trans h.here, h.holds, ?_⟩
  intro j hj c' hc' hp
  rcases Nat.lt_or_ge j calls.length with hbefore | hafter
  · exact h.later j hj c' ((List.getElem?_append_left hbefore).symm.trans hc') hp
  · rw [send, List.getElem?_append_right hafter, List.getElem?_singleton] at hc'
    split at hc'
    · cases hc'
      exact ha hp
    · cases hc'

/-! ### A call is answered -/

theorem getElem?_answer (h : answer calls i b = some calls') (j : Nat) :
    calls'[j]? = if j = i then (calls[j]?).map (fun c => ⟨c.request, some b⟩) else calls[j]? := by
  obtain ⟨a, ha, rfl⟩ := answer_eq_some h
  obtain ⟨hi, -⟩ := List.getElem?_eq_some_iff.mp ha
  split
  · next hji => rw [hji, List.getElem?_set_self hi, ha, Option.map_some]
  · next hji => exact List.getElem?_set_ne (Ne.symm hji)

/-- Requests stay what they are. -/
theorem request_answer (h : answer calls i b = some calls') {c' : Call α β}
    (hc : calls'[j]? = some c') : ∃ c, calls[j]? = some c ∧ c.request = c'.request := by
  rw [getElem?_answer h] at hc
  split at hc
  · obtain ⟨c, hold, rfl⟩ := Option.map_eq_some_iff.mp hc
    exact ⟨c, hold, rfl⟩
  · exact ⟨c', hc, rfl⟩

theorem Latest.after_answer (hlatest : Latest p calls j c) (h : answer calls i b = some calls') :
    ∃ c', Latest p calls' j c' ∧ c'.request = c.request := by
  have hlater : ∀ k > j, ∀ c', calls'[k]? = some c' → ¬ p c'.request := by
    intro k hk c' hc'
    obtain ⟨c₀, hc₀, hrequest⟩ := request_answer h hc'
    exact hrequest ▸ hlatest.later k hk c₀ hc₀
  have hhere := getElem?_answer h j
  rw [hlatest.here] at hhere
  split at hhere
  · exact ⟨_, ⟨hhere, hlatest.holds, hlater⟩, rfl⟩
  · exact ⟨c, ⟨hhere, hlatest.holds, hlater⟩, rfl⟩

theorem answered_answer (h : answer calls i b = some calls') (hold : Answered p calls b') :
    Answered p calls' b' := by
  obtain ⟨a, ha, rfl⟩ := answer_eq_some h
  obtain ⟨c, hc, hp, hreply⟩ := hold
  obtain ⟨j, hj⟩ := List.mem_iff_getElem?.mp hc
  have hji : i ≠ j := by
    rintro rfl
    cases ha.symm.trans hj
    cases hreply
  exact ⟨c, List.mem_of_getElem? ((List.getElem?_set_ne hji).trans hj), hp, hreply⟩

/-- What a call was answered that asks for the right thing. -/
theorem answered_here (h : answer calls i b = some calls')
    (hp : ∀ c, calls[i]? = some c → p c.request) : Answered p calls' b := by
  obtain ⟨a, ha, rfl⟩ := answer_eq_some h
  obtain ⟨hi, -⟩ := List.getElem?_eq_some_iff.mp ha
  have hpa : p a := hp _ ha
  exact ⟨⟨a, some b⟩, List.mem_of_getElem? (List.getElem?_set_self hi), hpa, rfl⟩

/-- The latest call of a kind is the one that is answered, or it was the latest before. -/
theorem Latest.of_answer (h : answer calls i b = some calls') (hlatest : Latest p calls' j c) :
    c.reply = some b ∨ Latest p calls j c := by
  obtain ⟨a, ha, rfl⟩ := answer_eq_some h
  obtain ⟨hi, -⟩ := List.getElem?_eq_some_iff.mp ha
  by_cases hij : i = j
  · subst hij
    have hhere := hlatest.here
    rw [List.getElem?_set_self hi] at hhere
    cases hhere
    exact .inl rfl
  · refine .inr ⟨(List.getElem?_set_ne hij).symm.trans hlatest.here, hlatest.holds, ?_⟩
    intro k hk c' hc'
    by_cases hik : i = k
    · subst hik
      cases ha.symm.trans hc'
      exact hlatest.later i hk ⟨a, some b⟩ (List.getElem?_set_self hi)
    · exact hlatest.later k hk c' ((List.getElem?_set_ne hik).trans hc')

end Call

end OpenTogetherTube.Lib
