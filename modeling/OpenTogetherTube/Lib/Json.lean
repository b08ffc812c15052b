import OpenTogetherTube.Lib.Splice

/-!
# JSON values, read without a check

A program that parses a text gets a value of any shape, and JavaScript lets it do anything with it: a
property of a value that has none is `undefined`, and only `null` and `undefined` have no properties
that can be read. A comparison or a product converts its operands to numbers, which fails for an
object that has a property called `toString`, since what JSON puts there is not a function.

`none` is `undefined` where a `Value` is meant, and a `TypeError` where the result of an operation is.
-/

namespace OpenTogetherTube.Lib

/-- `x * y`. -/
def Number.mul : Number → Number → Number
  | .nan, _ | _, .nan => .nan
  | .finite p, .finite q => .finite (p * q)
  | .finite p, .infinite negative | .infinite negative, .finite p =>
    if p = 0 then .nan else .infinite (negative != decide (p < 0))
  | .infinite negative, .infinite negative' => .infinite (negative != negative')

/-- What `JSON.parse` returns. The last of the fields with one name counts. -/
inductive Json where
  | null
  | bool (b : Bool)
  | num (n : Number)
  | str (s : String)
  | arr (items : List Json)
  | obj (fields : List (String × Json))

/-- A value that can be `undefined`. -/
abbrev Value := Option Json

/-- How numbers are written and read. -/
structure Conversions where
  numberToString : Number → String
  stringToNumber : String → Number

namespace Json

/-- A property of a value that is not `null`. -/
def get? (v : Json) (name : String) : Value :=
  match v with
  | .obj fields => (fields.reverse.find? (fun field => field.1 = name)).map (·.2)
  | _ => none

/-- A property of any value. -/
def read (v : Value) (name : String) : Option Value :=
  match v with
  | none | some .null => none
  | some v => some (v.get? name)

def isNull : Json → Bool
  | .null => true
  | _ => false

/-- `typeof v === "object"`, which `null` is too. -/
def isObject : Json → Bool
  | .null | .arr _ | .obj _ => true
  | _ => false

/-- The value as a string, if it is one. -/
def string? : Value → Option String
  | some (.str s) => some s
  | _ => none

/-- `v === n`. -/
def isNumber (v : Value) (n : Nat) : Bool :=
  match v with
  | some (.num m) => m.same (.ofNat n)
  | _ => false

/-- `!!v`. -/
def truthy : Value → Bool
  | none | some .null => false
  | some (.bool b) => b
  | some (.num n) => n ≠ .nan && n ≠ .finite 0
  | some (.str s) => s ≠ ""
  | some (.arr _) | some (.obj _) => true

mutual

/-- `String(v)`. -/
def toString? (c : Conversions) : Json → Option String
  | .null => some "null"
  | .bool b => some (if b then "true" else "false")
  | .num n => some (c.numberToString n)
  | .str s => some s
  | .arr items => (toStrings? c items).map (String.intercalate ",")
  | .obj fields =>
    if fields.any (fun field => field.1 = "toString") then none else some "[object Object]"

/-- The elements of an array, as `join` takes them: `null` is left empty. -/
def toStrings? (c : Conversions) : List Json → Option (List String)
  | [] => some []
  | item :: items => do
    let head ← toString? c item
    let tail ← toStrings? c items
    pure ((if item.isNull then "" else head) :: tail)

end

/-- What a template makes of a value, and the name of a property. -/
def text? (c : Conversions) : Value → Option String
  | none => some "undefined"
  | some v => v.toString? c

/-- `Number(v)`. -/
def toNumber? (c : Conversions) : Json → Option Number
  | .null => some (.ofNat 0)
  | .bool b => some (.ofNat b.toNat)
  | .num n => some n
  | .str s => some (c.stringToNumber s)
  | v => (v.toString? c).map c.stringToNumber

theorem eq_of_string? {v : Value} {s : String} (h : string? v = some s) : v = some (.str s) := by
  unfold string? at h
  split at h <;> cases h
  rfl

theorem text?_of_string? {c : Conversions} {v : Value} {s : String} (h : string? v = some s) :
    text? c v = some s := by
  rw [eq_of_string? h]
  rfl

theorem eq_null_of_isNull {v : Json} (h : v.isNull = true) : v = .null := by
  unfold isNull at h
  split at h <;> trivial

theorem read_of_isNull_eq_false {v : Json} (h : v.isNull = false) (name : String) :
    read (some v) name = some (v.get? name) := by
  cases v with
  | null => cases h
  | bool => rfl
  | num => rfl
  | str => rfl
  | arr => rfl
  | obj => rfl

end Json

end OpenTogetherTube.Lib
