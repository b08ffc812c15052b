import OpenTogetherTube.Lib.Json

/-!
# JSON values, written and read into types

What one program writes with `JSON.stringify` another reads into types that it has declared. Writing
leaves out what is `undefined`, and numbers that are not finite become `null`. Reading asks for every
field that is not optional, and for a value in the range of its type; fields that are not declared are
skipped. A value of any shape must not be nested too deep, and its strings must be text.

`none` is an error of the reader.
-/

namespace OpenTogetherTube.Lib.Json

/-! ## Writing -/

mutual

/-- What is written of a value. -/
def written : Json → Json
  | .num (.finite q) => .num (.finite q)
  | .num _ => .null
  | .arr items => .arr (writtenItems items)
  | .obj fields => .obj (writtenFields fields)
  | v => v

def writtenItems : List Json → List Json
  | [] => []
  | item :: items => written item :: writtenItems items

def writtenFields : List (String × Json) → List (String × Json)
  | [] => []
  | (name, v) :: fields => (name, written v) :: writtenFields fields

end

/-- An object of the fields that are not `undefined`. -/
def object (fields : List (String × Value)) : Json :=
  .obj (fields.filterMap (fun field => field.2.map (fun v => (field.1, v))))

theorem writtenItems_eq_map (items : List Json) : writtenItems items = items.map written := by
  induction items with
  | nil => rfl
  | cons item items ih => rw [writtenItems, ih, List.map_cons]

theorem writtenFields_eq_map (fields : List (String × Json)) :
    writtenFields fields = fields.map (fun field => (field.1, written field.2)) := by
  induction fields with
  | nil => rfl
  | cons field fields ih => rw [writtenFields, ih, List.map_cons]

/-- **The fields that are written are those there are.** -/
theorem get?_written (v : Json) (name : String) :
    (written v).get? name = (v.get? name).map written := by
  cases v with
  | obj fields =>
    simp only [written, writtenFields_eq_map, get?, ← List.map_reverse, List.find?_map,
      Option.map_map]
    rfl
  | num n => cases n <;> rfl
  | null => rfl
  | bool => rfl
  | str => rfl
  | arr => rfl

@[simp] theorem written_str (s : String) : written (.str s) = .str s := rfl

@[simp] theorem written_arr (items : List Json) : written (.arr items) = .arr (items.map written) := by
  rw [written, writtenItems_eq_map]

/-! ## Reading -/

/-- An unsigned integer of so many bits. -/
def asUnsigned (bits : Nat) : Json → Option (Fin (2 ^ bits))
  | .num (.finite q) =>
    if h : q.den = 1 ∧ 0 ≤ q.num ∧ q.num.toNat < 2 ^ bits then some ⟨q.num.toNat, h.2.2⟩ else none
  | _ => none

def asString : Json → Option String
  | .str s => some s
  | _ => none

/-- A string with a syntax. -/
def asStringOf (accepts : String → Bool) : Json → Option String
  | .str s => if accepts s then some s else none
  | _ => none

/-- One of several names. -/
def asNamed {α : Type} (names : List (String × α)) : Json → Option α
  | .str s => (names.find? (fun e => e.1 = s)).map Prod.snd
  | _ => none

def asList {α : Type} (read : Json → Option α) : Json → Option (List α)
  | .arr items => items.mapM read
  | _ => none

section Depth

/-! `isText` is whether the reader has a string for a string of the writer. -/

variable (isText : String → Bool)

mutual

/-- How deep arrays and objects are nested in a value, if the reader has its strings. -/
def depth? : Json → Option Nat
  | .str s => if isText s then some 0 else none
  | .arr items => (itemsDepth? items).map (· + 1)
  | .obj fields => (fieldsDepth? fields).map (· + 1)
  | _ => some 0

def itemsDepth? : List Json → Option Nat
  | [] => some 0
  | item :: items => (depth? item).bind (fun d => (itemsDepth? items).map (max d))

def fieldsDepth? : List (String × Json) → Option Nat
  | [] => some 0
  | (name, v) :: fields =>
    if isText name then (depth? v).bind (fun d => (fieldsDepth? fields).map (max d)) else none

end

/-- A value of any shape, of which fewer than `remaining` levels are arrays and objects. -/
def asValue (remaining : Nat) (v : Json) : Option Json :=
  if (depth? isText v).any (· < remaining) then some v else none

mutual

theorem depth?_written : (v : Json) → depth? isText (written v) = depth? isText v
  | .null | .bool _ | .str _ => rfl
  | .num (.finite _) | .num (.infinite _) | .num .nan => rfl
  | .arr items => congrArg (Option.map (· + 1)) (itemsDepth?_written items)
  | .obj fields => congrArg (Option.map (· + 1)) (fieldsDepth?_written fields)

theorem itemsDepth?_written : (items : List Json) →
    itemsDepth? isText (writtenItems items) = itemsDepth? isText items
  | [] => rfl
  | item :: items => by
    rw [writtenItems, itemsDepth?, itemsDepth?, depth?_written item, itemsDepth?_written items]

theorem fieldsDepth?_written : (fields : List (String × Json)) →
    fieldsDepth? isText (writtenFields fields) = fieldsDepth? isText fields
  | [] => rfl
  | (name, v) :: fields => by
    rw [writtenFields, fieldsDepth?, fieldsDepth?, depth?_written v, fieldsDepth?_written fields]

end

/-- Writing does not change whether a value can be read. -/
theorem isSome_asValue_written (remaining : Nat) (v : Json) :
    (asValue isText remaining (written v)).isSome = (asValue isText remaining v).isSome := by
  unfold asValue
  rw [depth?_written]
  split <;> rfl

theorem isSome_asValue_mono {m n : Nat} (h : m ≤ n) {v : Json}
    (hv : (asValue isText m v).isSome) : (asValue isText n v).isSome := by
  unfold asValue at *
  cases hdepth : depth? isText v with
  | none => simp [hdepth] at hv
  | some d =>
    have hlt : d < m := by simpa [hdepth] using hv
    simp [show d < n by omega]

end Depth

/-- A field that must be there. -/
def field {α : Type} (read : Json → Option α) (name : String) (v : Json) : Option α :=
  (v.get? name).bind read

/-- A field that may be absent or `null`. -/
def optionalField {α : Type} (read : Json → Option α) (name : String) (v : Json) :
    Option (Option α) :=
  match v.get? name with
  | none | some .null => some none
  | some v => (read v).map some

variable {α β γ : Type}

/-- What is read of one field is there if the field is. -/
@[simp] theorem isSome_bind_some (x : Option α) (f : α → β) :
    (x.bind fun a => some (f a)).isSome = x.isSome := by
  cases x <;> rfl

/-- What is read of two fields is there if both are. -/
@[simp] theorem isSome_bind_bind_some (x : Option α) (y : Option β) (f : α → β → γ) :
    (x.bind fun a => y.bind fun b => some (f a b)).isSome = (x.isSome && y.isSome) := by
  cases x <;> cases y <;> rfl

/-- What is read after a field is there or not, whatever the field holds. -/
theorem isSome_bind_of {x : Option α} {f : α → Option β} {b : Bool} (h : ∀ a, (f a).isSome = b) :
    (x.bind f).isSome = (x.isSome && b) := by
  cases x with
  | none => rfl
  | some a => exact h a

theorem isSome_asList {read : Json → Option α} {items : List Json} :
    (asList read (.arr items)).isSome ↔ ∀ item ∈ items, (read item).isSome := by
  show (items.mapM read).isSome ↔ _
  induction items with
  | nil => simp
  | cons item items ih =>
    rw [List.mapM_cons, List.forall_mem_cons, ← ih]
    cases read item with
    | none => simp
    | some a => cases items.mapM read <;> simp

/-- What a reader of so many bits takes. -/
theorem isSome_asUnsigned {bits : Nat} {v : Json} :
    (asUnsigned bits v).isSome ↔ ∃ n : Nat, n < 2 ^ bits ∧ v = .num (.ofNat n) := by
  constructor
  · intro h
    unfold asUnsigned at h
    split at h
    · next q =>
      by_cases hq : q.den = 1 ∧ 0 ≤ q.num ∧ q.num.toNat < 2 ^ bits
      · refine ⟨q.num.toNat, hq.2.2, ?_⟩
        have hint : ((q.num.toNat : Int) : ℚ) = q := by
          rw [Int.toNat_of_nonneg hq.2.1]
          exact (Rat.den_eq_one_iff q).mp hq.1
        rw [Number.ofNat, ← hint]
        rfl
      · rw [dif_neg hq] at h
        cases h
    · cases h
  · rintro ⟨n, hn, rfl⟩
    have hq : ((n : ℚ)).den = 1 ∧ 0 ≤ ((n : ℚ)).num ∧ ((n : ℚ)).num.toNat < 2 ^ bits := by
      simpa using hn
    unfold asUnsigned Number.ofNat
    dsimp only
    rw [dif_pos hq]
    rfl

/-- What is not a number is written as something that is not a number either. -/
theorem asUnsigned_written (bits : Nat) (v : Json) :
    asUnsigned bits (written v) = asUnsigned bits v := by
  cases v with
  | num n => cases n <;> rfl
  | obj => rfl
  | arr => rfl
  | null => rfl
  | bool => rfl
  | str => rfl

theorem asNamed_written (names : List (String × α)) (v : Json) :
    asNamed names (written v) = asNamed names v := by
  cases v with
  | num n => cases n <;> rfl
  | obj => rfl
  | arr => rfl
  | null => rfl
  | bool => rfl
  | str => rfl

end OpenTogetherTube.Lib.Json
