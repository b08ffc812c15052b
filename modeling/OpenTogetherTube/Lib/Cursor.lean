import Mathlib.Data.List.Nodup
import Mathlib.Tactic.Common

/-!
# Loops over a list that changes

A loop that goes over a list by position looks, each time it goes on, at the list as it is then. What
is appended meanwhile is still ahead of it. But where something behind the position is removed, the
rest moves up, and the element that was next is not ahead any more (`mem_ahead_remove_iff`).
-/

namespace OpenTogetherTube.Lib

/-- A list, and the position that a loop over it has got to. -/
structure Cursor (α : Type) where
  items : List α
  position : Nat
  deriving DecidableEq, Repr

namespace Cursor

variable {α : Type}

def ahead (c : Cursor α) : List α := c.items.drop c.position

def behind (c : Cursor α) : List α := c.items.take c.position

def push (c : Cursor α) (x : α) : Cursor α := { c with items := c.items ++ [x] }

def remove [DecidableEq α] (c : Cursor α) (x : α) : Cursor α := { c with items := c.items.erase x }

/-- The first element that `p` holds of, and the position behind it. -/
def nextFrom (p : α → Bool) : List α → Nat → Option (α × Nat)
  | [], _ => none
  | x :: xs, n => if p x then some (x, n + 1) else nextFrom p xs (n + 1)

/-- The loop goes on to the next element that `p` holds of. -/
def next? (c : Cursor α) (p : α → Bool) : Option (α × Nat) := nextFrom p c.ahead c.position

/-! ## Going on -/

theorem nextFrom_eq_some {p : α → Bool} {l : List α} {n m : Nat} {x : α}
    (h : nextFrom p l n = some (x, m)) :
    ∃ skipped rest, l = skipped ++ x :: rest ∧ m = n + (skipped.length + 1) ∧ p x = true ∧
      ∀ y ∈ skipped, ¬ p y = true := by
  induction l generalizing n with
  | nil => cases h
  | cons a l ih =>
    unfold nextFrom at h
    split at h
    · next ha =>
      cases h
      exact ⟨[], l, rfl, rfl, ha, fun y hy => by cases hy⟩
    · next ha =>
      obtain ⟨skipped, rest, rfl, rfl, hx, hskipped⟩ := ih h
      refine ⟨a :: skipped, rest, rfl, ?_, hx, ?_⟩
      · rw [List.length_cons]
        omega
      · intro y hy
        rcases List.mem_cons.mp hy with rfl | hy
        · exact ha
        · exact hskipped y hy

theorem nextFrom_eq_none {p : α → Bool} {l : List α} {n : Nat} (h : nextFrom p l n = none) :
    ∀ y ∈ l, ¬ p y = true := by
  induction l generalizing n with
  | nil => exact fun y hy => by cases hy
  | cons a l ih =>
    unfold nextFrom at h
    split at h
    · cases h
    · next ha =>
      intro y hy
      rcases List.mem_cons.mp hy with rfl | hy
      · exact ha
      · exact ih h y hy

section Next

variable {c : Cursor α} {p : α → Bool} {x y : α} {m : Nat}

/-- What the loop comes to was ahead of it, and what it passes over is what `p` does not hold of. -/
theorem next?_eq_some (h : c.next? p = some (x, m)) :
    p x = true ∧ ∃ skipped, c.ahead = skipped ++ x :: { c with position := m }.ahead ∧
      ∀ y ∈ skipped, ¬ p y = true := by
  obtain ⟨skipped, rest, hahead, rfl, hx, hskipped⟩ := nextFrom_eq_some h
  refine ⟨hx, skipped, ?_, hskipped⟩
  have hrest : { c with position := c.position + (skipped.length + 1) }.ahead = rest := by
    show c.items.drop (c.position + (skipped.length + 1)) = rest
    rw [← List.drop_drop]
    show c.ahead.drop (skipped.length + 1) = rest
    rw [hahead, ← List.drop_drop, List.drop_left]
    rfl
  rw [hrest]
  exact hahead

/-- The loop comes to an end. -/
theorem next?_eq_none (h : c.next? p = none) : ∀ y ∈ c.ahead, ¬ p y = true :=
  nextFrom_eq_none h

/-- Whatever `p` holds of is next, or still ahead. -/
theorem mem_ahead_of_next? (h : c.next? p = some (x, m)) (hy : y ∈ c.ahead) (hp : p y = true) :
    y = x ∨ y ∈ { c with position := m }.ahead := by
  obtain ⟨-, skipped, hahead, hskipped⟩ := next?_eq_some h
  rw [hahead] at hy
  rcases List.mem_append.mp hy with hpassed | hrest
  · exact absurd hp (hskipped y hpassed)
  · exact List.mem_cons.mp hrest

theorem mem_ahead_mono_of_next? (h : c.next? p = some (x, m))
    (hy : y ∈ { c with position := m }.ahead) : y ∈ c.ahead := by
  obtain ⟨-, skipped, hahead, -⟩ := next?_eq_some h
  rw [hahead]
  exact List.mem_append_right _ (List.mem_cons_of_mem _ hy)

theorem mem_of_next? (h : c.next? p = some (x, m)) : x ∈ c.ahead := by
  obtain ⟨-, skipped, hahead, -⟩ := next?_eq_some h
  rw [hahead]
  exact List.mem_append_right _ List.mem_cons_self

/-- The loop does not come to the same element again. -/
theorem not_mem_ahead_of_next? (hnodup : c.items.Nodup) (h : c.next? p = some (x, m)) :
    x ∉ { c with position := m }.ahead := by
  obtain ⟨-, skipped, hahead, -⟩ := next?_eq_some h
  have hahead' : c.ahead.Nodup := hnodup.sublist (List.drop_sublist _ _)
  rw [hahead] at hahead'
  exact (List.nodup_cons.mp (List.nodup_append.mp hahead').2.1).1

end Next

/-! ## Changes -/

section Change

variable {c : Cursor α} {x y : α}

theorem mem_ahead_push_iff (hy : y ≠ x) : y ∈ (c.push x).ahead ↔ y ∈ c.ahead := by
  show y ∈ (c.items ++ [x]).drop c.position ↔ _
  rw [List.drop_append, List.mem_append]
  constructor
  · rintro (hold | hnew)
    · exact hold
    · exact absurd (List.mem_singleton.mp (List.mem_of_mem_drop hnew)) hy
  · exact .inl

variable [DecidableEq α]

theorem ahead_remove_of_behind (hx : x ∈ c.behind) : (c.remove x).ahead = c.ahead.tail := by
  show (c.items.erase x).drop c.position = (c.items.drop c.position).tail
  have hsplit : c.items = c.behind ++ c.items.drop c.position :=
    (List.take_append_drop c.position c.items).symm
  have hlength : (c.behind.erase x).length + 1 = c.behind.length := by
    have hpos := List.length_pos_of_mem hx
    rw [List.length_erase_of_mem hx]
    omega
  rw [List.tail_drop]
  by_cases hposition : c.position ≤ c.items.length
  · have hbehind : c.behind.length = c.position := by
      rw [behind, List.length_take]
      omega
    conv_lhs => rw [hsplit, List.erase_append_left _ hx]
    rw [List.drop_append, List.drop_eq_nil_of_le (by omega), List.nil_append,
      show c.position - (c.behind.erase x).length = 1 by omega, List.drop_drop]
  · have herase := List.length_erase_le (a := x) (l := c.items)
    rw [List.drop_eq_nil_of_le (by omega), List.drop_eq_nil_of_le (by omega)]

theorem ahead_remove_of_not_behind (hx : x ∉ c.behind) :
    (c.remove x).ahead = c.ahead.erase x := by
  show (c.items.erase x).drop c.position = (c.items.drop c.position).erase x
  have hsplit : c.items = c.behind ++ c.items.drop c.position :=
    (List.take_append_drop c.position c.items).symm
  by_cases hposition : c.position ≤ c.items.length
  · have hbehind : c.behind.length = c.position := by
      rw [behind, List.length_take]
      omega
    conv_lhs => rw [hsplit, List.erase_append_right _ hx, ← hbehind, List.drop_left]
    rw [hbehind]
  · have herase := List.length_erase_le (a := x) (l := c.items)
    have hnil : c.items.drop c.position = [] := List.drop_eq_nil_of_le (by omega)
    rw [hnil, List.drop_eq_nil_of_le (by omega)]
    rfl

/-- **Removal.** Something else stays ahead, unless it was next and something behind was removed. -/
theorem mem_ahead_remove_iff (hnodup : c.items.Nodup) (hne : y ≠ x) (hy : y ∈ c.ahead) :
    y ∈ (c.remove x).ahead ↔ ¬ (x ∈ c.behind ∧ c.ahead.head? = some y) := by
  have hahead : c.ahead.Nodup := hnodup.sublist (List.drop_sublist _ _)
  by_cases hx : x ∈ c.behind
  · rw [ahead_remove_of_behind hx]
    cases hlist : c.ahead with
    | nil =>
      rw [hlist] at hy
      cases hy
    | cons a rest =>
      rw [hlist] at hy hahead
      rw [List.tail_cons, List.head?_cons]
      constructor
      · rintro hrest ⟨-, heq⟩
        cases heq
        exact (List.nodup_cons.mp hahead).1 hrest
      · intro hnot
        rcases List.mem_cons.mp hy with rfl | hrest
        · exact absurd ⟨hx, rfl⟩ hnot
        · exact hrest
  · rw [ahead_remove_of_not_behind hx]
    exact iff_of_true ((List.mem_erase_of_ne hne).mpr hy) (fun h => hx h.1)

/-- Nothing gets ahead by a removal. -/
theorem mem_ahead_of_remove (h : y ∈ (c.remove x).ahead) : y ∈ c.ahead := by
  by_cases hx : x ∈ c.behind
  · rw [ahead_remove_of_behind hx] at h
    exact List.mem_of_mem_tail h
  · rw [ahead_remove_of_not_behind hx] at h
    exact List.mem_of_mem_erase h

end Change

end Cursor

/-! ## Elements that leave the list when the loop comes to them -/

section Leaving

variable {α : Type} (leaves : α → Bool)

/-- What the loop comes to. When an element has left, the one behind it is passed over; the flag says
that this is what happens to the first. -/
def visited : Bool → List α → List α
  | _, [] => []
  | true, _ :: l => visited false l
  | false, x :: l => x :: visited (leaves x) l

/-- What does not stand right behind an element that leaves. -/
def reached : Bool → List α → List α
  | _, [] => []
  | true, x :: l => reached (leaves x) l
  | false, x :: l => x :: reached (leaves x) l

/-- No element that leaves stands right behind another. -/
def Spaced : Bool → List α → Prop
  | _, [] => True
  | skipped, x :: l => ¬ (skipped = true ∧ leaves x = true) ∧ Spaced (leaves x) l

variable {leaves}

theorem visited_congr {leaves' : α → Bool} {l : List α} (skipped : Bool)
    (h : ∀ x ∈ l, leaves x = leaves' x) : visited leaves skipped l = visited leaves' skipped l := by
  induction l generalizing skipped with
  | nil => cases skipped <;> rfl
  | cons x l ih =>
    have hrest := fun skipped => ih skipped (fun y hy => h y (List.mem_cons_of_mem _ hy))
    cases skipped with
    | true => exact hrest false
    | false =>
      show x :: visited leaves (leaves x) l = x :: visited leaves' (leaves' x) l
      rw [h x List.mem_cons_self, hrest]

theorem mem_of_mem_visited {x : α} {skipped : Bool} {l : List α} (h : x ∈ visited leaves skipped l) :
    x ∈ l := by
  induction l generalizing skipped with
  | nil => cases skipped <;> cases h
  | cons y l ih =>
    cases skipped with
    | true => exact List.mem_cons_of_mem _ (ih h)
    | false => exact List.mem_cons.mpr ((List.mem_cons.mp h).imp_right ih)

theorem mem_of_mem_reached {x : α} {skipped : Bool} {l : List α} (h : x ∈ reached leaves skipped l) :
    x ∈ l := by
  induction l generalizing skipped with
  | nil => cases skipped <;> cases h
  | cons y l ih =>
    cases skipped with
    | true => exact List.mem_cons_of_mem _ (ih h)
    | false => exact List.mem_cons.mpr ((List.mem_cons.mp h).imp_right ih)

/-- Then nothing that leaves is passed over. -/
theorem visited_eq_reached {skipped : Bool} {l : List α} (h : Spaced leaves skipped l) :
    visited leaves skipped l = reached leaves skipped l := by
  induction l generalizing skipped with
  | nil => cases skipped <;> rfl
  | cons x l ih =>
    obtain ⟨hx, hrest⟩ := h
    cases skipped with
    | true =>
      have hstays : leaves x = false := by
        cases hleaves : leaves x with
        | false => rfl
        | true => exact absurd ⟨rfl, hleaves⟩ hx
      rw [hstays] at hrest
      show visited leaves false l = reached leaves (leaves x) l
      rw [hstays, ih hrest]
    | false =>
      show x :: visited leaves (leaves x) l = x :: reached leaves (leaves x) l
      rw [ih hrest]

variable [DecidableEq α]

/-- Otherwise some element that leaves is passed over, and stands right behind another. -/
theorem exists_not_mem_of_not_spaced {skipped : Bool} {l : List α}
    (honce : ∀ x ∈ l, leaves x = true → l.count x ≤ 1) (h : ¬ Spaced leaves skipped l) :
    (∃ x ∈ l, leaves x = true ∧ x ∉ visited leaves skipped l) ∧
      ∃ x ∈ l, leaves x = true ∧ x ∉ reached leaves skipped l := by
  induction l generalizing skipped with
  | nil => exact absurd trivial h
  | cons x l ih =>
    have honce' : ∀ y ∈ l, leaves y = true → l.count y ≤ 1 := fun y hy hleaves =>
      Nat.le_trans List.count_le_count_cons (honce y (List.mem_cons_of_mem _ hy) hleaves)
    have hnew : leaves x = true → x ∉ l := by
      intro hleaves hmem
      have hcount := honce x List.mem_cons_self hleaves
      rw [List.count_cons_self] at hcount
      have hpos := List.count_pos_iff.mpr hmem
      omega
    by_cases hx : skipped = true ∧ leaves x = true
    · obtain ⟨rfl, hleaves⟩ := hx
      exact ⟨⟨x, List.mem_cons_self, hleaves, fun hmem => hnew hleaves (mem_of_mem_visited hmem)⟩,
        x, List.mem_cons_self, hleaves, fun hmem => hnew hleaves (mem_of_mem_reached hmem)⟩
    · have hrest : ¬ Spaced leaves (leaves x) l := fun hrest => h ⟨hx, hrest⟩
      obtain ⟨⟨y, hy, hleaves, hout⟩, z, hz, hleaves', hout'⟩ := ih honce' hrest
      have hne : ∀ w ∈ l, leaves w = true → w ≠ x :=
        fun w hw hleaves heq => hnew (heq ▸ hleaves) (heq ▸ hw)
      cases skipped with
      | true =>
        have hstays : leaves x = false := by
          cases hleaves : leaves x with
          | false => rfl
          | true => exact absurd ⟨rfl, hleaves⟩ hx
        rw [hstays] at hout
        exact ⟨⟨y, List.mem_cons_of_mem _ hy, hleaves, hout⟩,
          z, List.mem_cons_of_mem _ hz, hleaves', hout'⟩
      | false =>
        have hcons : ∀ {w : α} {m : List α}, w ≠ x → w ∉ m → w ∉ x :: m := by
          intro w m hw hm hmem
          rcases List.mem_cons.mp hmem with heq | hmem
          · exact hw heq
          · exact hm hmem
        exact ⟨⟨y, List.mem_cons_of_mem _ hy, hleaves, hcons (hne y hy hleaves) hout⟩,
          z, List.mem_cons_of_mem _ hz, hleaves', hcons (hne z hz hleaves') hout'⟩

/-- **The loop comes to every element once** exactly if every element stands once where it is not
right behind one that leaves. -/
theorem count_visited_iff {l : List α} (honce : ∀ x ∈ l, leaves x = true → l.count x ≤ 1) :
    (∀ x ∈ l, (visited leaves false l).count x = 1) ↔
      ∀ x ∈ l, (reached leaves false l).count x = 1 := by
  by_cases hspaced : Spaced leaves false l
  · rw [visited_eq_reached hspaced]
  · obtain ⟨⟨x, hx, -, hout⟩, y, hy, -, hout'⟩ := exists_not_mem_of_not_spaced honce hspaced
    have hzero : ∀ {w : α} {m : List α}, w ∉ m → m.count w ≠ 1 := by
      intro w m hw
      rw [List.count_eq_zero.mpr hw]
      exact Nat.zero_ne_one
    exact iff_of_false (fun hall => hzero hout (hall x hx)) (fun hall => hzero hout' (hall y hy))

end Leaving

end OpenTogetherTube.Lib
