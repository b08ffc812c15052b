import OpenTogetherTube.Server.Adapters

/-!
# Escapes

`decodeURI` leaves the escapes of reserved characters as they are, and `decodeURIComponent` decodes
them all. Both are read off one relation, `Decodes`, by what they keep. An escape is of one character;
it holds no slash, so a path is decoded segment by segment (`Decodes.segments`).

`encodeURI` escapes every percent sign, also the one of an escape that was kept. So what it has encoded
is decoded by either (`decodes_encode`), but where escapes are kept, the two do not agree
(`Decodes.full`).
-/

namespace OpenTogetherTube.Server.Escapes

open OpenTogetherTube.Lib Adapters Instances

/-! ## Decoding -/

/-- As `decodeURI`, where the characters that are kept are given. -/
def decodeWith (keep : Char → Bool) : Nat → List Char → Option (List Char)
  | 0, _ | _, [] => some []
  | fuel + 1, c :: text =>
    if c = '%' then do
      let (decoded, rest) ← escapedChar? (c :: text)
      let tail ← decodeWith keep fuel rest
      if keep decoded then return c :: text.take 2 ++ tail else return decoded :: tail
    else (decodeWith keep fuel text).map (c :: ·)

def decodeURIComponent (text : String) : Option String :=
  (decodeWith (fun _ => false) text.length text.toList).map String.ofList

theorem decodeFrom_eq (fuel : Nat) (text : List Char) :
    decodeFrom fuel text = decodeWith isReservedURI fuel text := by
  induction fuel generalizing text with
  | zero => rfl
  | succ fuel ih =>
    cases text with
    | nil => rfl
    | cons c text =>
      unfold decodeFrom decodeWith
      simp only [ih]

/-- Some escape is one of a reserved character. -/
def reservedEscapes (text : List Char) : Bool :=
  text.tails.any (fun t => (escaped? t).any (fun p => p.1 < 0x80 && isReservedURI (Char.ofNat p.1)))

/-! ## One escape -/

section Escape

variable {text rest : List Char} {c : Char} {byte n code code' : Nat}

theorem hexDigit?_ne {a : Char} {k : Nat} (h : hexDigit? a = some k) : a ≠ '/' ∧ a ≠ '%' := by
  have hslash : hexDigit? '/' = none := by decide
  have hpercent : hexDigit? '%' = none := by decide
  constructor
  · rintro rfl
    cases hslash.symm.trans h
  · rintro rfl
    cases hpercent.symm.trans h

theorem escaped?_eq_some (h : escaped? text = some (byte, rest)) :
    ∃ a b, text = '%' :: a :: b :: rest ∧ a ≠ '/' ∧ a ≠ '%' ∧ b ≠ '/' ∧ b ≠ '%' ∧
      ∀ rest', escaped? ('%' :: a :: b :: rest') = some (byte, rest') := by
  unfold escaped? at h
  split at h
  · next a b rest' =>
    cases ha : hexDigit? a with
    | none => simp [ha] at h
    | some high =>
      cases hb : hexDigit? b with
      | none => simp [ha, hb] at h
      | some low =>
        simp only [ha, hb, bind, Option.bind, pure, Option.some.injEq, Prod.mk.injEq] at h
        obtain ⟨rfl, rfl⟩ := h
        refine ⟨a, b, rfl, (hexDigit?_ne ha).1, (hexDigit?_ne ha).2, (hexDigit?_ne hb).1,
          (hexDigit?_ne hb).2, fun rest' => ?_⟩
        simp [escaped?, ha, hb]
  · cases h

theorem escaped?_of_ne (hc : c ≠ '%') : escaped? (c :: text) = none := by
  unfold escaped?
  split
  · next heq =>
    cases heq
    exact absurd rfl hc
  · rfl

theorem reservedEscapes_cons (c : Char) (text : List Char) : reservedEscapes (c :: text) =
    ((escaped? (c :: text)).any (fun p => p.1 < 0x80 && isReservedURI (Char.ofNat p.1)) ||
      reservedEscapes text) := by
  unfold reservedEscapes
  rw [List.tails, List.any_cons]

theorem reservedEscapes_of_ne (hc : c ≠ '%') : reservedEscapes (c :: text) = reservedEscapes text := by
  rw [reservedEscapes_cons, escaped?_of_ne hc]
  rfl

/-- The bytes that go on with a character are no escapes of others. -/
theorem continued?_eq_some (h : continued? n code text = some (code', rest)) :
    ∃ e, text = e ++ rest ∧ '/' ∉ e ∧
      (∀ rest', continued? n code (e ++ rest') = some (code', rest')) ∧
      ∀ rest', reservedEscapes (e ++ rest') = reservedEscapes rest' := by
  induction n generalizing code text with
  | zero =>
    cases h
    exact ⟨[], rfl, List.not_mem_nil, fun _ => rfl, fun _ => rfl⟩
  | succ n ih =>
    unfold continued? at h
    cases hbyte : escaped? text with
    | none => simp [hbyte] at h
    | some p =>
      obtain ⟨byte, rest₁⟩ := p
      simp only [hbyte, bind, Option.bind] at h
      split at h
      · next hrange =>
        obtain ⟨a, b, rfl, ha, ha', hb, hb', hread⟩ := escaped?_eq_some hbyte
        obtain ⟨e, rfl, hslash, hcontinued, hmarks⟩ := ih h
        refine ⟨'%' :: a :: b :: e, rfl, ?_, fun rest' => ?_, fun rest' => ?_⟩
        · simp [ha.symm, hb.symm, hslash]
        · unfold continued?
          simp only [List.cons_append, hread, bind, Option.bind, if_pos hrange]
          exact hcontinued rest'
        · have hbig : ¬ byte < 0x80 := by omega
          rw [List.cons_append, List.cons_append, List.cons_append, reservedEscapes_cons, hread,
            reservedEscapes_of_ne ha', reservedEscapes_of_ne hb', hmarks]
          simp [hbig]
      · cases h

/-- The text is an escape of the character. -/
structure Escape (e : List Char) (c : Char) : Prop where
  reads : ∀ rest, escapedChar? (e ++ rest) = some (c, rest)
  slash : '/' ∉ e
  marks : ∀ rest, reservedEscapes (e ++ rest) = (isReservedURI c || reservedEscapes rest)
  starts : ∃ a b e', e = '%' :: a :: b :: e' ∧ a ≠ '%' ∧ b ≠ '%'

/-- How many bytes go on with a character, what the first one says of it, and the least character
that is written so. -/
def leading (byte : Nat) : Option (Nat × Nat × Nat) :=
  if byte < 0x80 then some (0, byte, 0)
  else if 0xC0 ≤ byte ∧ byte < 0xE0 then some (1, byte - 0xC0, 0x80)
  else if 0xE0 ≤ byte ∧ byte < 0xF0 then some (2, byte - 0xE0, 0x800)
  else if 0xF0 ≤ byte ∧ byte < 0xF8 then some (3, byte - 0xF0, 0x10000)
  else none

/-- The character, if the bytes are those of one. -/
def finished (least : Nat) (p : Nat × List Char) : Option (Char × List Char) :=
  if least ≤ p.1 ∧ p.1.isValidChar then some (Char.ofNat p.1, p.2) else none

theorem escapedChar?_eq (text : List Char) : escapedChar? text =
    (escaped? text).bind (fun p => (leading p.1).bind (fun l =>
      (continued? l.1 l.2.1 p.2).bind (finished l.2.2))) := by
  unfold escapedChar? leading
  cases escaped? text with
  | none => rfl
  | some p =>
    simp only [bind, Option.bind_some]
    split_ifs <;> rfl

/-- A first byte that nothing goes on with is the character. -/
theorem leading_zero {least : Nat} (h : leading byte = some (n, code, least)) :
    (byte < 0x80 → n = 0 ∧ code = byte) ∧ (¬ byte < 0x80 → 0x80 ≤ least) := by
  unfold leading at h
  split_ifs at h with h1 h2 h3 h4
  · simp only [Option.some.injEq, Prod.mk.injEq] at h
    obtain ⟨rfl, rfl, rfl⟩ := h
    exact ⟨fun _ => ⟨rfl, rfl⟩, fun hne => absurd h1 hne⟩
  all_goals
    simp only [Option.some.injEq, Prod.mk.injEq] at h
    exact ⟨fun hlt => absurd hlt h1, fun _ => by omega⟩

theorem toNat_ofNat (h : code.isValidChar) : (Char.ofNat code).toNat = code := by
  unfold Char.ofNat
  rw [dif_pos h]
  rfl

/-- **What is read as a character is an escape of it.** -/
theorem exists_escape (h : escapedChar? text = some (c, rest)) :
    ∃ e, text = e ++ rest ∧ Escape e c := by
  rw [escapedChar?_eq, Option.bind_eq_some_iff] at h
  obtain ⟨⟨byte, rest₁⟩, hbyte, h⟩ := h
  rw [Option.bind_eq_some_iff] at h
  obtain ⟨⟨n, code, least⟩, hleading, h⟩ := h
  rw [Option.bind_eq_some_iff] at h
  obtain ⟨⟨code', rest₂⟩, hcontinued, hfinished⟩ := h
  dsimp only at hcontinued hleading hfinished
  obtain ⟨a, b, rfl, ha, ha', hb, hb', hread⟩ := escaped?_eq_some hbyte
  obtain ⟨e, rfl, hslash, hreads, hmarks⟩ := continued?_eq_some hcontinued
  unfold finished at hfinished
  split at hfinished
  · next hvalid =>
    simp only [Option.some.injEq, Prod.mk.injEq] at hfinished
    obtain ⟨rfl, rfl⟩ := hfinished
    refine ⟨'%' :: a :: b :: e, rfl, fun rest' => ?_, ?_, fun rest' => ?_,
      a, b, e, rfl, ha', hb'⟩
    · rw [escapedChar?_eq]
      simp only [List.cons_append, hread, Option.bind_some, hleading, hreads]
      exact if_pos hvalid
    · simp [ha.symm, hb.symm, hslash]
    · rw [List.cons_append, List.cons_append, List.cons_append, reservedEscapes_cons, hread,
        reservedEscapes_of_ne ha', reservedEscapes_of_ne hb', hmarks, Option.any_some]
      congr 1
      obtain ⟨hsmall, hbig⟩ := leading_zero hleading
      by_cases hlt : byte < 0x80
      · -- a character of one byte
        obtain ⟨rfl, rfl⟩ := hsmall hlt
        have hsame := congrArg Prod.fst (Option.some.inj hcontinued)
        dsimp only at hsame
        rw [decide_eq_true hlt, Bool.true_and, hsame]
      · have hcode : 0x80 ≤ (Char.ofNat code').toNat := by
          rw [toNat_ofNat hvalid.2]
          exact (hbig hlt).trans hvalid.1
        rw [decide_eq_false hlt, Bool.false_and]
        have hall : ";/?:@&=+$,#".toList.all (fun d => d.toNat < 0x80) = true := by decide
        have hascii : ∀ d ∈ ";/?:@&=+$,#".toList, d.toNat < 0x80 :=
          fun d hd => of_decide_eq_true (List.all_eq_true.mp hall d hd)
        unfold isReservedURI
        rw [Eq.comm, Bool.eq_false_iff]
        intro hreserved
        have hlt' := hascii _ (List.contains_iff_mem.mp hreserved)
        omega
  · cases hfinished

theorem escape_of_reads {e : List Char} (h : escapedChar? e = some (c, [])) : Escape e c := by
  obtain ⟨e', rfl, hescape⟩ := exists_escape h
  rwa [List.append_nil]

end Escape

/-! ## A text of escapes -/

/-- What a text is decoded to, where the escapes of some characters are kept. -/
inductive Decodes (keep : Char → Bool) : List Char → List Char → Prop
  | nil : Decodes keep [] []
  | plain {c : Char} {t d : List Char} (hc : c ≠ '%') (h : Decodes keep t d) :
    Decodes keep (c :: t) (c :: d)
  | escape {e t d : List Char} {c : Char} (he : Escape e c) (h : Decodes keep t d) :
    Decodes keep (e ++ t) ((if keep c then e.take 3 else [c]) ++ d)

section Decodes

variable {keep : Char → Bool} {t d e : List Char} {c : Char} {fuel : Nat}

theorem decodes_of_decodeWith (hfuel : t.length ≤ fuel) (h : decodeWith keep fuel t = some d) :
    Decodes keep t d := by
  induction fuel generalizing t d with
  | zero =>
    cases List.length_eq_zero_iff.mp (Nat.le_zero.mp hfuel)
    cases h
    exact .nil
  | succ fuel ih =>
    cases t with
    | nil =>
      cases h
      exact .nil
    | cons c t =>
      rw [List.length_cons] at hfuel
      unfold decodeWith at h
      split at h
      · next hc =>
        subst hc
        cases hread : escapedChar? ('%' :: t) with
        | none =>
          rw [hread] at h
          cases h
        | some p =>
          obtain ⟨x, rest⟩ := p
          simp only [hread, bind, Option.bind_some, pure] at h
          rw [Option.bind_eq_some_iff] at h
          obtain ⟨tail, htail, h⟩ := h
          obtain ⟨e, heq, hescape⟩ := exists_escape hread
          obtain ⟨a, b, e', rfl, -⟩ := hescape.starts
          obtain ⟨-, rfl⟩ := List.cons.inj heq
          have hlength : rest.length ≤ fuel := by
            change ((a :: b :: e') ++ rest).length + 1 ≤ fuel + 1 at hfuel
            rw [List.length_append] at hfuel
            omega
          have hd : (if keep x then ('%' :: a :: b :: e').take 3 else [x]) ++ tail = d := by
            split at h
            · next hkeep =>
              rw [if_pos hkeep]
              exact Option.some.inj h
            · next hkeep =>
              rw [if_neg hkeep]
              exact Option.some.inj h
          rw [← hd, heq]
          exact .escape hescape (ih hlength htail)
      · next hc =>
        obtain ⟨d', hd', rfl⟩ := Option.map_eq_some_iff.mp h
        exact .plain hc (ih (by omega) hd')

theorem Decodes.decodeWith (h : Decodes keep t d) (hfuel : t.length ≤ fuel) :
    decodeWith keep fuel t = some d := by
  induction h generalizing fuel with
  | nil => cases fuel <;> rfl
  | plain hc _ ih =>
    rw [List.length_cons] at hfuel
    cases fuel with
    | zero => omega
    | succ fuel =>
      unfold Escapes.decodeWith
      rw [if_neg hc, ih (by omega)]
      rfl
  | @escape e t d c he _ ih =>
    obtain ⟨a, b, e', rfl, -⟩ := he.starts
    simp only [List.cons_append, List.length_cons, List.length_append] at hfuel
    cases fuel with
    | zero => omega
    | succ fuel =>
      have hread := he.reads t
      rw [List.cons_append, List.cons_append, List.cons_append] at hread ⊢
      unfold Escapes.decodeWith
      rw [if_pos rfl, hread]
      simp only [bind, Option.bind, ih (show t.length ≤ fuel by omega)]
      split <;> rfl

/-- **The relation is the function.** -/
theorem decodeURIComponent_iff {text decoded : String} : decodeURIComponent text = some decoded ↔
    Decodes (fun _ => false) text.toList decoded.toList := by
  unfold decodeURIComponent
  rw [Option.map_eq_some_iff]
  have hlength : text.toList.length ≤ text.length := String.length_toList.le
  constructor
  · rintro ⟨d, hd, rfl⟩
    rw [String.toList_ofList]
    exact decodes_of_decodeWith hlength hd
  · exact fun h => ⟨_, h.decodeWith hlength, String.ofList_toList⟩

theorem decodeURI_iff {text decoded : String} : decodeURI text = some decoded ↔
    Decodes isReservedURI text.toList decoded.toList := by
  unfold decodeURI
  rw [decodeFrom_eq, Option.map_eq_some_iff]
  have hlength : text.toList.length ≤ text.length := String.length_toList.le
  constructor
  · rintro ⟨d, hd, rfl⟩
    rw [String.toList_ofList]
    exact decodes_of_decodeWith hlength hd
  · exact fun h => ⟨_, h.decodeWith hlength, String.ofList_toList⟩

/-- **An escape holds no slash, and none is of a slash**: a path is decoded segment by segment. -/
theorem Decodes.segments (hslash : keep '/' = true) (h : Decodes keep t d) :
    List.Forall₂ (Decodes keep) (t.splitOn '/') (d.splitOn '/') := by
  induction h with
  | nil => exact .cons .nil .nil
  | @plain c t d hc _ ih =>
    rw [List.splitOn_cons_eq_if_modifyHead, List.splitOn_cons_eq_if_modifyHead]
    split
    · exact .cons .nil ih
    · exact Lines.forall₂_modifyHead (fun _ _ hd => .plain hc hd) ih
  | @escape e t d c he _ ih =>
    have hout : '/' ∉ (if keep c then e.take 3 else [c]) := by
      split
      · exact fun hmem => he.slash (List.mem_of_mem_take hmem)
      · next hkeep =>
        rw [List.mem_singleton]
        rintro rfl
        exact hkeep hslash
    rw [Lines.splitOn_append_of_not_mem he.slash, Lines.splitOn_append_of_not_mem hout]
    exact Lines.forall₂_modifyHead (fun _ _ hd => .escape he hd) ih

/-- A reserved character is in what `decodeURI` has decoded only if it was there before. -/
theorem Decodes.not_mem (h : Decodes isReservedURI t d) (hc : isReservedURI c = true)
    (hraw : c ∉ t) : c ∉ d := by
  induction h with
  | nil => exact hraw
  | plain _ _ ih =>
    rw [List.mem_cons, not_or] at hraw ⊢
    exact ⟨hraw.1, ih hraw.2⟩
  | @escape e t d x he _ ih =>
    rw [List.mem_append, not_or] at hraw ⊢
    refine ⟨?_, ih hraw.2⟩
    split
    · exact fun hmem => hraw.1 (List.mem_of_mem_take hmem)
    · next hkeep =>
      rw [List.mem_singleton]
      rintro rfl
      exact hkeep hc

/-- **Where no escape is kept, the two agree**; and each one that is leaves a percent sign. -/
theorem Decodes.full (h : Decodes isReservedURI t d) :
    ∃ d', Decodes (fun _ => false) t d' ∧ d'.count '%' ≤ d.count '%' ∧
      (reservedEscapes t = false → d' = d) ∧
      (reservedEscapes t = true → d'.count '%' < d.count '%') := by
  induction h with
  | nil => exact ⟨[], .nil, le_refl _, fun _ => rfl, fun hne => absurd hne (by decide)⟩
  | @plain c t d hc _ ih =>
    obtain ⟨d', hd', hle, hsame, hlt⟩ := ih
    have hcount : ∀ l : List Char, (c :: l).count '%' = l.count '%' :=
      fun l => List.count_cons_of_ne hc
    refine ⟨c :: d', .plain hc hd', ?_, fun hnone => ?_, fun hsome => ?_⟩
    · rw [hcount, hcount]
      exact hle
    · rw [reservedEscapes_of_ne hc] at hnone
      rw [hsame hnone]
    · rw [reservedEscapes_of_ne hc] at hsome
      rw [hcount, hcount]
      exact hlt hsome
  | @escape e t d c he _ ih =>
    obtain ⟨d', hd', hle, hsame, hlt⟩ := ih
    have hfull : Decodes (fun _ => false) (e ++ t) (c :: d') := .escape he hd'
    rw [he.marks]
    cases hreserved : isReservedURI c with
    | false =>
      have hcount : ∀ l : List Char,
          (c :: l).count '%' = l.count '%' + if c == '%' then 1 else 0 := fun l => List.count_cons
      refine ⟨c :: d', hfull, ?_, fun hnone => ?_, fun hsome => ?_⟩
      · show (c :: d').count '%' ≤ (c :: d).count '%'
        rw [hcount, hcount]
        exact Nat.add_le_add_right hle _
      · rw [hsame hnone]
        rfl
      · show (c :: d').count '%' < (c :: d).count '%'
        rw [hcount, hcount]
        exact Nat.add_lt_add_right (hlt hsome) _
    | true =>
      -- the escape is kept, with its percent sign
      have hc : c ≠ '%' := by
        rintro rfl
        exact absurd hreserved (by decide)
      obtain ⟨a, b, e', rfl, ha, hb⟩ := he.starts
      have hmore : (c :: d').count '%' < (['%', a, b] ++ d).count '%' := by
        rw [List.count_cons_of_ne hc, List.count_append, List.count_cons_self]
        omega
      refine ⟨c :: d', hfull, hmore.le, fun hnone => absurd hnone (by simp), fun _ => hmore⟩

/-! ### Encoding -/

/-- What `encodeURI` makes of a character. -/
def encodeChar (c : Char) : List Char :=
  if isUnreserved c || isReservedURI c then [c] else (String.utf8EncodeChar c).flatMap percentEncode

theorem encodeURI_eq (text : String) :
    encodeURI text = String.ofList (text.toList.flatMap encodeChar) := rfl

theorem escaped?_percentEncode (byte : UInt8) (rest : List Char) :
    escaped? (percentEncode byte ++ rest) = some (byte.toNat, rest) := by
  have hdigit : ∀ n : Fin 16, hexDigit? (Nat.digitChar n).toUpper = some n.val := by decide
  have hbyte : byte.toNat < 256 := UInt8.toNat_lt byte
  have hhigh := hdigit ⟨byte.toNat / 16, by omega⟩
  have hlow := hdigit ⟨byte.toNat % 16, by omega⟩
  dsimp only at hhigh hlow
  unfold percentEncode
  simp only [List.cons_append, List.nil_append, escaped?, hhigh, hlow, bind, Option.bind, pure,
    Option.some.injEq, Prod.mk.injEq, and_true]
  omega

theorem continued?_percentEncode {byte : UInt8} (h : 0x80 ≤ byte.toNat ∧ byte.toNat < 0xC0)
    (n code : Nat) (rest : List Char) : continued? (n + 1) code (percentEncode byte ++ rest) =
      continued? n (64 * code + (byte.toNat - 0x80)) rest := by
  conv_lhs => unfold continued?
  rw [escaped?_percentEncode]
  exact if_pos h

theorem toNat_byte {n : Nat} (h : n < 256) : (UInt8.ofNat n).toNat = n :=
  UInt8.toNat_ofNat_of_lt' h

/-- **The bytes of a character are read as the character.** -/
theorem escape_utf8 (c : Char) : Escape ((String.utf8EncodeChar c).flatMap percentEncode) c := by
  apply escape_of_reads
  have hbound : c.val.toNat < 0x110000 := by
    rcases c.valid with h | h
    · exact h.trans (by decide)
    · exact h.2
  have hvalid : Nat.isValidChar c.val.toNat := c.valid
  have hchar : Char.ofNat c.val.toNat = c := Char.ofNat_toNat c
  have hfinished : ∀ {code least : Nat} {rest : List Char}, code = c.val.toNat →
      least ≤ c.val.toNat → finished least (code, rest) = some (c, rest) := by
    intro code least rest hcode hleast
    unfold finished
    dsimp only
    rw [hcode, if_pos ⟨hleast, hvalid⟩, hchar]
  rw [escapedChar?_eq]
  unfold String.utf8EncodeChar
  dsimp only
  generalize c.val.toNat = v at hbound hfinished
  split_ifs with h1 h2 h3
  · rw [List.flatMap_cons, escaped?_percentEncode, toNat_byte (by omega), Option.bind_some]
    have hleading : leading v = some (0, v, 0) := if_pos (by omega)
    rw [hleading]
    exact hfinished rfl (Nat.zero_le _)
  · have hbyte : v / 64 % 0x20 + 0xc0 < 256 := by omega
    have hlast : v % 0x40 + 0x80 < 256 := by omega
    have hleading : leading (v / 64 % 0x20 + 0xc0) = some (1, v / 64 % 0x20, 0x80) := by
      unfold leading
      rw [if_neg (by omega), if_pos (by omega), Nat.add_sub_cancel]
    rw [List.flatMap_cons, escaped?_percentEncode, toNat_byte hbyte, Option.bind_some, hleading,
      Option.bind_some, List.flatMap_cons, continued?_percentEncode (by rw [toNat_byte hlast]; omega),
      toNat_byte hlast]
    dsimp only [continued?, Option.bind_some, List.flatMap_nil]
    exact hfinished (by omega) (by omega)
  · have hbyte : v / 4096 % 0x10 + 0xe0 < 256 := by omega
    have hmiddle : v / 64 % 0x40 + 0x80 < 256 := by omega
    have hlast : v % 0x40 + 0x80 < 256 := by omega
    have hleading : leading (v / 4096 % 0x10 + 0xe0) = some (2, v / 4096 % 0x10, 0x800) := by
      unfold leading
      rw [if_neg (by omega), if_neg (by omega), if_pos (by omega), Nat.add_sub_cancel]
    rw [List.flatMap_cons, escaped?_percentEncode, toNat_byte hbyte, Option.bind_some, hleading,
      Option.bind_some, List.flatMap_cons, continued?_percentEncode (by rw [toNat_byte hmiddle]; omega),
      toNat_byte hmiddle, List.flatMap_cons,
      continued?_percentEncode (by rw [toNat_byte hlast]; omega), toNat_byte hlast]
    dsimp only [continued?, Option.bind_some, List.flatMap_nil]
    exact hfinished (by omega) (by omega)
  · have hbyte : v / 262144 % 0x08 + 0xf0 < 256 := by omega
    have hmiddle : v / 4096 % 0x40 + 0x80 < 256 := by omega
    have hmiddle' : v / 64 % 0x40 + 0x80 < 256 := by omega
    have hlast : v % 0x40 + 0x80 < 256 := by omega
    have hleading : leading (v / 262144 % 0x08 + 0xf0) = some (3, v / 262144 % 0x08, 0x10000) := by
      unfold leading
      rw [if_neg (by omega), if_neg (by omega), if_neg (by omega), if_pos (by omega),
        Nat.add_sub_cancel]
    rw [List.flatMap_cons, escaped?_percentEncode, toNat_byte hbyte, Option.bind_some, hleading,
      Option.bind_some, List.flatMap_cons, continued?_percentEncode (by rw [toNat_byte hmiddle]; omega),
      toNat_byte hmiddle, List.flatMap_cons,
      continued?_percentEncode (by rw [toNat_byte hmiddle']; omega), toNat_byte hmiddle',
      List.flatMap_cons, continued?_percentEncode (by rw [toNat_byte hlast]; omega),
      toNat_byte hlast]
    dsimp only [continued?, Option.bind_some, List.flatMap_nil]
    exact hfinished (by omega) (by omega)

/-- **What was encoded is decoded again**, whatever reserved characters are kept. -/
theorem decodes_encode (hkeep : ∀ c, keep c = true → isReservedURI c = true) (text : List Char) :
    Decodes keep (text.flatMap encodeChar) text := by
  induction text with
  | nil => exact .nil
  | cons c text ih =>
    rw [List.flatMap_cons]
    unfold encodeChar
    split
    · next hplain =>
      refine .plain ?_ ih
      rintro rfl
      exact absurd hplain (by decide)
    · next hescaped =>
      have hnot : keep c = false := by
        rw [← Bool.not_eq_true]
        exact fun hc => hescaped (Bool.or_eq_true_iff.mpr (.inr (hkeep c hc)))
      have hdecoded := Decodes.escape (escape_utf8 c) ih
      rwa [hnot] at hdecoded

theorem decodeURIComponent_encodeURI (text : String) :
    decodeURIComponent (encodeURI text) = some text := by
  rw [decodeURIComponent_iff, encodeURI_eq, String.toList_ofList]
  exact decodes_encode (fun _ h => absurd h (by decide)) _

theorem decodeURI_encodeURI (text : String) : decodeURI (encodeURI text) = some text := by
  rw [decodeURI_iff, encodeURI_eq, String.toList_ofList]
  exact decodes_encode (fun _ h => h) _

/-- What is in a text that was encoded. -/
theorem mem_encodeChar {x : Char} (h : x ∈ encodeChar c) :
    isUnreserved x = true ∨ x = '%' ∨ (x = c ∧ isReservedURI c = true) := by
  unfold encodeChar at h
  split at h
  · next hplain =>
    cases List.mem_singleton.mp h
    rcases Bool.or_eq_true_iff.mp hplain with hun | hre
    · exact .inl hun
    · exact .inr (.inr ⟨rfl, hre⟩)
  · have hdigit : ∀ n : Fin 16, isUnreserved (Nat.digitChar n).toUpper = true := by decide
    obtain ⟨byte, -, hx⟩ := List.mem_flatMap.mp h
    have hbyte : byte.toNat < 256 := UInt8.toNat_lt byte
    unfold percentEncode at hx
    rcases List.mem_cons.mp hx with rfl | hx
    · exact .inr (.inl rfl)
    · rcases List.mem_cons.mp hx with rfl | hx
      · exact .inl (hdigit ⟨byte.toNat / 16, by omega⟩)
      · cases List.mem_singleton.mp hx
        exact .inl (hdigit ⟨byte.toNat % 16, by omega⟩)

/-- A path is encoded segment by segment. -/
theorem split_encodeURI (text : String) : split (encodeURI text) '/' = (split text '/').map encodeURI := by
  have hslash : encodeChar '/' = ['/'] := by decide
  have hother : ∀ c, c ≠ '/' → '/' ∉ encodeChar c := by
    intro c hc hmem
    rcases mem_encodeChar hmem with h | h | ⟨rfl, -⟩
    · exact absurd h (by decide)
    · exact absurd h (by decide)
    · exact hc rfl
  unfold split
  rw [encodeURI_eq, String.toList_ofList, Lines.splitOn_flatMap hslash hother, List.map_map,
    List.map_map]
  refine List.map_congr_left fun l _ => ?_
  show String.ofList (l.flatMap encodeChar) = encodeURI (String.ofList l)
  rw [encodeURI_eq, String.toList_ofList]

end Decodes

end OpenTogetherTube.Server.Escapes
