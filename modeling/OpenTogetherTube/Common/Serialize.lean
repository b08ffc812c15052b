import OpenTogetherTube.Lib.Decode

/-!
# Messages as they are written

A message can hold maps, sets and big integers, which JSON does not have. It is written with
`JSON.stringify(msg, replacer)`, where `replacer` is asked about every value before it is written, at
any depth.

`stringify` is what a reader of the text gets. `none` is `undefined`, of which nothing is written.
-/

namespace OpenTogetherTube.Common

open OpenTogetherTube.Lib

/-- A value of the program. The fields of an object come with different names. -/
inductive JsValue where
  | undefined
  | null
  | bool (b : Bool)
  | num (n : Number)
  | str (s : String)
  | bigint (n : Int)
  | arr (items : List JsValue)
  | obj (fields : List (String × JsValue))
  | map (entries : List (JsValue × JsValue))
  | set (items : List JsValue)

namespace JsValue

/-- `replacer`, which has no use for the key. -/
def replacer : JsValue → JsValue
  | .map entries => .arr (entries.map (fun entry => .arr [entry.1, entry.2]))
  | .set items => .arr items
  | .bigint n => .str (toString n)
  | v => v

/-- What is written of an item: an array has no gaps. -/
def item (v : Value) : Json := v.getD .null

mutual

/-- `JSON.parse(JSON.stringify(v, replacer))`. -/
def stringify : JsValue → Value
  | .undefined => none
  | .null => some .null
  | .bool b => some (.bool b)
  | .num n => some (Json.written (.num n))
  | .str s => some (.str s)
  | .bigint n => some (.str (toString n))
  | .arr items => some (.arr (stringifyItems items))
  | .obj fields => some (.obj (stringifyFields fields))
  | .map entries => some (.arr (stringifyEntries entries))
  | .set items => some (.arr (stringifyItems items))

def stringifyItems : List JsValue → List Json
  | [] => []
  | v :: items => item (stringify v) :: stringifyItems items

/-- A field that is `undefined` is left out. -/
def stringifyFields : List (String × JsValue) → List (String × Json)
  | [] => []
  | (name, v) :: fields => ((stringify v).map (fun j => (name, j))).toList ++ stringifyFields fields

def stringifyEntries : List (JsValue × JsValue) → List Json
  | [] => []
  | (key, v) :: entries =>
    .arr [item (stringify key), item (stringify v)] :: stringifyEntries entries

end

/-- **A value is written as what it is replaced by**, and so is every value in it. -/
theorem stringify_replacer (v : JsValue) : stringify (replacer v) = stringify v := by
  cases v with
  | map entries =>
    rw [replacer, stringify, stringify]
    congr 2
    induction entries with
    | nil => rfl
    | cons entry entries ih => rw [List.map_cons, stringifyItems, ih]; rfl
  | _ => rfl

/-- A field of an object that has it is read as it is written. -/
theorem get?_stringifyFields {fields : List (String × JsValue)} {name : String} {v : JsValue}
    (hnodup : (fields.map Prod.fst).Nodup) (hmem : (name, v) ∈ fields) :
    (Json.obj (stringifyFields fields)).get? name = stringify v := by
  have hnames : ∀ (fields : List (String × JsValue)) (e : String × Json),
      e ∈ stringifyFields fields → e.1 ∈ fields.map Prod.fst := by
    intro fields
    induction fields with
    | nil => exact fun _ he => by cases he
    | cons field fields ih =>
      obtain ⟨name, v⟩ := field
      intro e he
      rw [stringifyFields, List.mem_append] at he
      obtain he | he := he
      · rw [Option.mem_toList, Option.map_eq_some_iff] at he
        obtain ⟨j, -, rfl⟩ := he
        exact List.mem_cons_self
      · exact List.mem_cons_of_mem _ (ih e he)
  induction fields with
  | nil => cases hmem
  | cons field fields ih =>
    obtain ⟨name', v'⟩ := field
    rw [List.map_cons, List.nodup_cons] at hnodup
    obtain ⟨hfresh, hnodup⟩ := hnodup
    rw [stringifyFields, Json.get?, List.reverse_append, List.find?_append]
    obtain heq | hmem := List.mem_cons.mp hmem
    · obtain ⟨rfl, rfl⟩ := Prod.mk.inj heq
      have hnone : (stringifyFields fields).reverse.find? (fun field => field.1 = name) = none := by
        rw [List.find?_eq_none]
        intro e he hname
        rw [List.mem_reverse] at he
        exact hfresh (of_decide_eq_true hname ▸ hnames fields e he)
      rw [hnone]
      cases stringify v <;> simp
    · have hread := ih hnodup hmem
      rw [Json.get?] at hread
      cases hfound : (stringifyFields fields).reverse.find? (fun field => field.1 = name) with
      | some e =>
        rw [hfound] at hread
        simpa using hread
      | none =>
        rw [hfound] at hread
        have hne : name' ≠ name := by
          rintro rfl
          exact hfresh (List.mem_map.mpr ⟨_, hmem, rfl⟩)
        cases hv : stringify v' <;> simp [← hread, hne]

end JsValue

end OpenTogetherTube.Common
