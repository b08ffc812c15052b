import OpenTogetherTube.Lib.OrderedMap
import Mathlib.Algebra.GroupWithZero.Nat
import Mathlib.Data.List.Induction

/-!
# Plain objects

What `{}` is as a map of texts to numbers. A property that the object does not have itself is looked up
on `Object.prototype`, so the names of its methods lead to functions, and `__proto__` to the prototype.
What is added to one of these is appended to its text.

An assignment gives the object a property of its own. Only under `__proto__` there is a setter, which
ignores everything that is neither an object nor `null`.
-/

namespace OpenTogetherTube.Lib

/-! ## What is inherited -/

/-- A function of `Object.prototype` by its name, or the prototype itself. -/
inductive Inherited
  | function (name : String)
  | prototype
  deriving DecidableEq, Repr

namespace Inherited

/-- The functions that are called as they are found. -/
def methods : List String :=
  ["hasOwnProperty", "isPrototypeOf", "propertyIsEnumerable", "toLocaleString", "toString", "valueOf",
    "__defineGetter__", "__defineSetter__", "__lookupGetter__", "__lookupSetter__"]

/-- The names of all properties. -/
def names : List String := "__proto__" :: "constructor" :: methods

/-- What a name leads to. -/
def find? (key : String) : Option Inherited :=
  if key = "__proto__" then some .prototype
  else if key = "constructor" then some (.function "Object")
  else if key ∈ methods then some (.function key)
  else none

theorem find?_eq_none_iff {key : String} : find? key = none ↔ key ∉ names := by
  unfold find? names
  rw [List.mem_cons, List.mem_cons, not_or, not_or]
  split
  · next hproto => exact iff_of_false (fun h => by cases h) (fun h => h.1 hproto)
  · next hproto =>
    split
    · next hconstructor => exact iff_of_false (fun h => by cases h) (fun h => h.2.1 hconstructor)
    · next hconstructor =>
      split
      · next hmethod => exact iff_of_false (fun h => by cases h) (fun h => h.2.2 hmethod)
      · next hmethod => exact iff_of_true rfl ⟨hproto, hconstructor, hmethod⟩

/-- The text of an object. How a function is written depends on the engine. -/
def text (functionText : String → String) : Inherited → String
  | .function name => functionText name
  | .prototype => "[object Object]"

end Inherited

/-! ## Properties -/

/-- What is stored. -/
inductive Primitive
  | number (n : Nat)
  | text (s : String)
  deriving DecidableEq, Repr

/-- What is read. -/
inductive Property
  | own (value : Primitive)
  | inherited (object : Inherited)
  deriving DecidableEq, Repr

/-- `(property ?? 0) + n` -/
def plus (functionText : String → String) : Option Property → Nat → Primitive
  | none, n => .number n
  | some (.own (.number m)), n => .number (m + n)
  | some (.own (.text s)), n => .text (s ++ toString n)
  | some (.inherited object), n => .text (object.text functionText ++ toString n)

/-- Its own properties, among which there is no `__proto__`. -/
structure PlainObject where
  properties : OrderedMap String Primitive
  noProto : properties.get? "__proto__" = none

namespace PlainObject

/-- `{}` -/
def empty : PlainObject := ⟨∅, rfl⟩

instance : EmptyCollection PlainObject := ⟨empty⟩

/-- `o[key]` -/
def get (o : PlainObject) (key : String) : Option Property :=
  match o.properties.get? key with
  | some value => some (.own value)
  | none => (Inherited.find? key).map .inherited

/-- `o[key] = value` -/
def set (o : PlainObject) (key : String) (value : Primitive) : PlainObject :=
  if h : key = "__proto__" then o
  else
    { properties := o.properties.set key value
      noProto := by rw [OrderedMap.get?_set, if_neg (Ne.symm h), o.noProto] }

theorem get_empty (key : String) :
    (∅ : PlainObject).get key = (Inherited.find? key).map .inherited := rfl

theorem get_set (o : PlainObject) (key key' : String) (value : Primitive) :
    (o.set key value).get key' =
      if key' = key ∧ key ≠ "__proto__" then some (.own value) else o.get key' := by
  unfold set
  by_cases hproto : key = "__proto__"
  · rw [dif_pos hproto, if_neg (fun h => h.2 hproto)]
  · rw [dif_neg hproto, get]
    dsimp only
    rw [OrderedMap.get?_set]
    by_cases hkey : key' = key
    · rw [if_pos hkey, if_pos ⟨hkey, hproto⟩]
    · rw [if_neg hkey, if_neg (fun h => hkey h.1)]
      rfl

/-- What is under an inherited name is there, and no number. -/
def Spoilt (o : PlainObject) (key : String) : Prop :=
  o.get key ≠ none ∧ ∀ n, o.get key ≠ some (.own (.number n))

theorem spoilt_empty {key : String} (h : Inherited.find? key ≠ none) : (∅ : PlainObject).Spoilt key := by
  unfold Spoilt
  rw [get_empty]
  cases hfind : Inherited.find? key with
  | none => exact absurd hfind h
  | some object => exact ⟨fun h => (by cases h), fun n h => (by cases h)⟩

/-- Numbers that are added do not mend it. -/
theorem Spoilt.add {o : PlainObject} {key : String} (h : o.Spoilt key) (functionText : String → String)
    (key' : String) (n : Nat) : (o.set key' (plus functionText (o.get key') n)).Spoilt key := by
  unfold Spoilt
  rw [get_set]
  split
  · next hkey =>
    rw [← hkey.1]
    -- only a number or nothing at all gives a number, and `h` excludes both
    refine ⟨fun hnone => (by cases hnone), fun m hm => ?_⟩
    obtain ⟨hsome, hnumber⟩ := h
    cases hget : o.get key with
    | none => exact hsome hget
    | some property =>
      rw [hget] at hm
      cases property with
      | own value =>
        cases value with
        | number m' => exact hnumber m' hget
        | text s => cases hm
      | inherited object => cases hm
  · exact h

/-! ## Adding up under keys -/

section Tally

variable {α : Type} (functionText : String → String) (key : α → String) (amount : α → Nat)

/-- `o[key(a)] = (o[key(a)] ?? 0) + amount(a)` -/
def addUp (o : PlainObject) (a : α) : PlainObject :=
  o.set (key a) (plus functionText (o.get (key a)) (amount a))

def tally (l : List α) : PlainObject := l.foldl (addUp functionText key amount) ∅

/-- What there is of a key altogether. -/
def total (l : List α) (k : String) : Nat := ((l.filter (fun a => key a = k)).map amount).sum

theorem tally_concat (l : List α) (a : α) : tally functionText key amount (l ++ [a]) =
    addUp functionText key amount (tally functionText key amount l) a :=
  List.foldl_concat _ _ a l

theorem total_concat (l : List α) (a : α) (k : String) : total key amount (l ++ [a]) k =
    total key amount l k + if key a = k then amount a else 0 := by
  unfold total
  rw [List.filter_append, List.map_append, List.sum_append]
  by_cases hk : key a = k
  · rw [if_pos hk, List.filter_cons_of_pos (by simpa using hk)]
    simp
  · rw [if_neg hk, List.filter_cons_of_neg (by simpa using hk)]
    simp

/-- **Amounts add up** under a name that is not inherited. -/
theorem get_tally {k : String} (hk : k ∉ Inherited.names) (l : List α) :
    (tally functionText key amount l).get k =
      if k ∈ l.map key then some (.own (.number (total key amount l k))) else none := by
  induction l using List.reverseRecOn with
  | nil =>
    show (∅ : PlainObject).get k = none
    rw [get_empty, Inherited.find?_eq_none_iff.mpr hk]
    rfl
  | append_singleton l a ih =>
    rw [tally_concat, addUp, get_set, total_concat, List.map_append, List.map_singleton]
    by_cases hkey : key a = k
    · subst hkey
      have hproto : key a ≠ "__proto__" := fun heq => hk (heq ▸ List.mem_cons_self)
      rw [if_pos ⟨rfl, hproto⟩, if_pos (List.mem_append_right _ List.mem_cons_self), if_pos rfl, ih]
      split
      · rfl
      · next hnew =>
        -- the first amount is added to what is not there
        have hnone : l.filter (fun b => key b = key a) = [] := by
          refine List.filter_eq_nil_iff.mpr (fun b hb heq => hnew ?_)
          rw [← of_decide_eq_true heq]
          exact List.mem_map_of_mem hb
        rw [total, hnone]
        simp [plus]
    · rw [if_neg (fun h => hkey h.1.symm), if_neg hkey, ih, Nat.add_zero]
      have hmem : k ∈ l.map key ++ [key a] ↔ k ∈ l.map key := by
        rw [List.mem_append, List.mem_singleton]
        exact or_iff_left (fun heq => hkey heq.symm)
      simp only [hmem]

theorem spoilt_tally {k : String} (hk : k ∈ Inherited.names) (l : List α) :
    (tally functionText key amount l).Spoilt k := by
  induction l using List.reverseRecOn with
  | nil => exact spoilt_empty (fun hnone => Inherited.find?_eq_none_iff.mp hnone hk)
  | append_singleton l a ih =>
    rw [tally_concat]
    exact ih.add functionText (key a) (amount a)

/-- **A total is right exactly if its name is not inherited.** -/
theorem get_tally_iff {k : String} {l : List α} (hk : k ∈ l.map key) :
    (tally functionText key amount l).get k = some (.own (.number (total key amount l k))) ↔
      k ∉ Inherited.names := by
  constructor
  · exact fun hget hname => (spoilt_tally functionText key amount hname l).2 _ hget
  · intro hname
    rw [get_tally functionText key amount hname, if_pos hk]

end Tally

end PlainObject

end OpenTogetherTube.Lib
