import OpenTogetherTube.Balancer.Context

/-!
# Room names as keys

The maps of a balancer have room names for keys, and a name can be spelled in several ways. Whether
two names are equal is decided on their bytes, how they are ordered on their lower-case texts, and
what a hasher is fed with are their characters: three functions, which have to agree (`Lawful`).

They do, since UTF-8 writes ASCII characters as they are, and all others in bytes that are no letters
(`utf8EncodeChar_toLower`).
-/

namespace OpenTogetherTube.Balancer.RoomNames

/-! ## Bytes and characters -/

/-- `as_bytes`. -/
def bytes (text : String) : List UInt8 := text.toList.flatMap String.utf8EncodeChar

/-- `u8::to_ascii_lowercase`. -/
def lowerByte (b : UInt8) : UInt8 := if 65 ≤ b ∧ b ≤ 90 then b + 32 else b

/-- The ASCII-lowercase form of a text. -/
def lowercase (text : String) : String := String.ofList (text.toList.map Char.toLower)

theorem toByteArray_eq_bytes (text : String) : text.toByteArray = (bytes text).toByteArray := by
  rw [← String.utf8Encode_toList]
  rfl

theorem bytes_inj {s t : String} : bytes s = bytes t ↔ s = t := by
  rw [← String.toByteArray_inj, toByteArray_eq_bytes, toByteArray_eq_bytes, List.toByteArray_inj]

/-- What is not a capital letter stays as it is. -/
theorem toLower_of_large {c : Char} (h : 128 ≤ c.toNat) : c.toLower = c := by
  have hnot : ¬ (c.val ≥ 'A'.val ∧ c.val ≤ 'Z'.val) := by
    rintro ⟨-, hle⟩
    have hle' : c.toNat ≤ 90 := UInt32.le_iff_toNat_le.mp hle
    omega
  unfold Char.toLower
  exact dif_neg hnot

theorem lowerByte_of_large {n : Nat} (h : 128 ≤ n) (h' : n < 256) :
    lowerByte (UInt8.ofNat n) = UInt8.ofNat n := by
  unfold lowerByte
  apply if_neg
  rintro ⟨-, hle⟩
  have hle' : (UInt8.ofNat n).toNat ≤ 90 := UInt8.le_iff_toNat_le.mp hle
  rw [UInt8.toNat_ofNat', Nat.mod_eq_of_lt h'] at hle'
  omega

/-- The bytes of a character that is not ASCII are no letters. -/
theorem lowerByte_of_mem {c : Char} (h : 128 ≤ c.toNat) {b : UInt8}
    (hb : b ∈ String.utf8EncodeChar c) : lowerByte b = b := by
  have hc : ¬ c.val.toNat ≤ 0x7f := Nat.not_le.mpr h
  have hlarge : ∃ n, 128 ≤ n ∧ n < 256 ∧ b = UInt8.ofNat n := by
    unfold String.utf8EncodeChar at hb
    dsimp only at hb
    rw [if_neg hc] at hb
    -- a lead byte is above 0xc0, one that goes on above 0x80
    split at hb
    · simp only [List.mem_cons, List.not_mem_nil, or_false] at hb
      rcases hb with rfl | rfl <;> exact ⟨_, by omega, by omega, rfl⟩
    · split at hb
      · simp only [List.mem_cons, List.not_mem_nil, or_false] at hb
        rcases hb with rfl | rfl | rfl <;> exact ⟨_, by omega, by omega, rfl⟩
      · simp only [List.mem_cons, List.not_mem_nil, or_false] at hb
        rcases hb with rfl | rfl | rfl | rfl <;> exact ⟨_, by omega, by omega, rfl⟩
  obtain ⟨n, hle, hlt, rfl⟩ := hlarge
  exact lowerByte_of_large hle hlt

/-- **A character is written in lower case byte by byte.** -/
theorem utf8EncodeChar_toLower (c : Char) :
    String.utf8EncodeChar c.toLower = (String.utf8EncodeChar c).map lowerByte := by
  by_cases h : 128 ≤ c.toNat
  · rw [toLower_of_large h]
    have hsame : (String.utf8EncodeChar c).map lowerByte = (String.utf8EncodeChar c).map id := by
      apply List.map_congr_left
      intro b hb
      exact lowerByte_of_mem h hb
    rw [hsame, List.map_id]
  · have hascii : ∀ n < 128, String.utf8EncodeChar (Char.ofNat n).toLower =
        (String.utf8EncodeChar (Char.ofNat n)).map lowerByte := by decide +kernel
    have hc := hascii c.toNat (by omega)
    rwa [Char.ofNat_toNat] at hc

theorem bytes_lowercase (text : String) : bytes (lowercase text) = (bytes text).map lowerByte := by
  unfold bytes lowercase
  rw [String.toList_ofList, List.flatMap_map, List.map_flatMap]
  simp only [utf8EncodeChar_toLower]

/-! ## The key -/

/-- `RoomName`, as it was spelled. -/
structure RoomName where
  text : String
  deriving DecidableEq, Repr

namespace RoomName

/-- `eq_ignore_ascii_case`: as many bytes, and each pair the same in lower case. -/
def eqIgnoreAsciiCase (xs ys : List UInt8) : Bool :=
  xs.length = ys.length && (xs.zip ys).all (fun p => lowerByte p.1 = lowerByte p.2)

/-- `PartialEq::eq`. -/
def eq (self other : RoomName) : Bool := eqIgnoreAsciiCase (bytes self.text) (bytes other.text)

/-- `str::to_ascii_lowercase`, which makes its bytes lower-case. -/
def toAsciiLowercase (self : RoomName) : List UInt8 := (bytes self.text).map lowerByte

/-- `Ord::cmp`: strings are ordered by their bytes. -/
def cmp (self other : RoomName) : Ordering := compare self.toAsciiLowercase other.toAsciiLowercase

/-- `PartialOrd::partial_cmp`. -/
def partialCmp (self other : RoomName) : Option Ordering := some (self.cmp other)

/-- `Hash::hash`: a character writes its code. -/
def hash {H : Type} (writeU32 : H → UInt32 → H) (self : RoomName) (state : H) : H :=
  self.text.toList.foldl (fun state c => writeU32 state c.toLower.val) state

/-! ### Equality, order and hash come to the lower-case form -/

variable {a b c : RoomName}

theorem eqIgnoreAsciiCase_iff {xs ys : List UInt8} :
    eqIgnoreAsciiCase xs ys = true ↔ xs.map lowerByte = ys.map lowerByte := by
  unfold eqIgnoreAsciiCase
  induction xs generalizing ys with
  | nil => cases ys <;> simp
  | cons x xs ih =>
    cases ys with
    | nil => simp
    | cons y ys =>
      have hrest := @ih ys
      simp only [Bool.and_eq_true, decide_eq_true_eq] at hrest
      simp only [List.length_cons, List.zip_cons_cons, List.all_cons, List.map_cons, List.cons.injEq,
        Bool.and_eq_true, decide_eq_true_eq, Nat.add_right_cancel_iff, ← hrest]
      exact and_left_comm

theorem toAsciiLowercase_inj :
    a.toAsciiLowercase = b.toAsciiLowercase ↔ lowercase a.text = lowercase b.text := by
  unfold toAsciiLowercase
  rw [← bytes_lowercase, ← bytes_lowercase, bytes_inj]

theorem eq_iff : a.eq b = true ↔ lowercase a.text = lowercase b.text :=
  eqIgnoreAsciiCase_iff.trans toAsciiLowercase_inj

theorem cmp_eq_iff : a.cmp b = .eq ↔ lowercase a.text = lowercase b.text := by
  unfold cmp
  rw [Std.LawfulEqCmp.compare_eq_iff_eq]
  exact toAsciiLowercase_inj

instance : Std.TransCmp cmp where
  eq_swap := by
    intro a b
    exact @Std.OrientedCmp.eq_swap _ compare _ a.toAsciiLowercase b.toAsciiLowercase
  isLE_trans := by
    intro a b c
    exact @Std.TransCmp.isLE_trans _ compare _ a.toAsciiLowercase b.toAsciiLowercase
      c.toAsciiLowercase

theorem hash_eq {H : Type} (writeU32 : H → UInt32 → H) (state : H) :
    a.hash writeU32 state =
      (lowercase a.text).toList.foldl (fun state c => writeU32 state c.val) state := by
  unfold hash lowercase
  rw [String.toList_ofList, List.foldl_map]

end RoomName

/-! ## Maps with room names for keys -/

/-- A `HashMap`, whatever its hasher: the hash says where entries are looked at, in which order. -/
structure HashMap (H V : Type) where
  writeU32 : H → UInt32 → H
  start : H
  finish : H → UInt64
  probed : UInt64 → List (RoomName × V)

/-- `get_key_value`. -/
def HashMap.find {H V : Type} (map : HashMap H V) (key : RoomName) : Option (RoomName × V) :=
  (map.probed (map.finish (key.hash map.writeU32 map.start))).find? (fun entry => key.eq entry.1)

/-- **The laws of a key**, of three names. -/
structure Lawful (a b c : RoomName) : Prop where
  eq_iff_cmp : a.eq b = true ↔ a.cmp b = .eq
  cmp_iff_lowercase : a.cmp b = .eq ↔ lowercase a.text = lowercase b.text
  hash : a.eq b = true → ∀ {H : Type} (writeU32 : H → UInt32 → H) (state : H),
    a.hash writeU32 state = b.hash writeU32 state
  partialCmp : a.partialCmp b = some (a.cmp b)
  /-- One of them is less, or both are equal. -/
  swap : a.cmp b = (b.cmp a).swap
  trans : (a.cmp b).isLE → (b.cmp c).isLE → (a.cmp c).isLE
  found : a.eq b = true → ∀ {H V : Type} (map : HashMap H V), map.find a = map.find b

/-- **A room name is a lawful key.** -/
theorem lawful (a b c : RoomName) : Lawful a b c := by
  have hhash : a.eq b = true → ∀ {H : Type} (writeU32 : H → UInt32 → H) (state : H),
      a.hash writeU32 state = b.hash writeU32 state := by
    intro hab H writeU32 state
    rw [RoomName.hash_eq, RoomName.hash_eq, RoomName.eq_iff.mp hab]
  constructor
  case eq_iff_cmp => exact RoomName.eq_iff.trans RoomName.cmp_eq_iff.symm
  case cmp_iff_lowercase => exact RoomName.cmp_eq_iff
  case hash => exact hhash
  case partialCmp => rfl
  case swap => exact @Std.OrientedCmp.eq_swap _ RoomName.cmp _ a b
  case trans => exact @Std.TransCmp.isLE_trans _ RoomName.cmp _ a b c
  case found =>
    intro hab H V map
    have hsame : ∀ other : RoomName, a.eq other = b.eq other := by
      intro other
      rw [Bool.eq_iff_iff, RoomName.eq_iff, RoomName.eq_iff, RoomName.eq_iff.mp hab]
    unfold HashMap.find
    simp only [hhash hab, hsame]

/-- Letters that are not ASCII keep their case. -/
example : (RoomName.mk "Café").eq ⟨"CAFé"⟩ = true ∧ (RoomName.mk "Café").eq ⟨"CAFÉ"⟩ = false := by
  decide +kernel

end OpenTogetherTube.Balancer.RoomNames
