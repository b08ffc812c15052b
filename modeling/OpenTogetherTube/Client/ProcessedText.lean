import OpenTogetherTube.Lib.Operators
import Mathlib.Data.List.Sort
import Mathlib.Data.List.TakeWhile

/-!
# Text with links

Chat messages and descriptions are shown as a list of texts and links. `processText` looks for a link in
what it has not read yet, and takes the text before it and the link off.

Whether there is text before a link is decided by comparing where the link starts in what was not read
yet with how much was read. Text between two links is therefore lost unless it is longer than
everything before it: of "http://a http://b" the space is lost (`space_lost`). Otherwise nothing is
(`no_text_lost_iff`).
-/

namespace OpenTogetherTube.Client.ProcessedText

open OpenTogetherTube.Lib

/-- A string, by its code units. -/
abbrev Text := List Nat

/-- `\s` -/
def isSpace (c : Nat) : Bool :=
  c ∈ [9, 10, 11, 12, 13, 0x20, 0xA0, 0x1680, 0x2028, 0x2029, 0x202F, 0x205F, 0x3000, 0xFEFF] ||
    (0x2000 ≤ c && c ≤ 0x200A)

/-- `https?:\/\/`, greedily -/
def protocols : List Text := [units "https://", units "http://"]

/-- The longest start without a space. -/
def word (s : Text) : Text := s.takeWhile (fun c => !isSpace c)

/-- `urlRegex`, at the start of a text. -/
def matchHere (s : Text) : Option Text :=
  protocols.findSome? (fun p =>
    if p.isPrefixOf s then
      let rest := word (s.drop p.length)
      if rest = [] then none else some (p ++ rest)
    else none)

/-- `urlRegex.exec`: the index of the first match, and what is matched. -/
def exec : Text → Option (Nat × Text)
  | [] => none
  | c :: cs =>
    match matchHere (c :: cs) with
    | some m => some (0, m)
    | none => (exec cs).map (fun found => (found.1 + 1, found.2))

inductive ItemType where
  | text
  | link
  deriving DecidableEq, Repr

structure ContentItem where
  type : ItemType
  text : Text
  deriving DecidableEq, Repr

structure State where
  content : List ContentItem
  index : Nat

/-- The loop, at most so many times. -/
def iterate (text : Text) : Nat → State → State
  | 0, st => st
  | n + 1, st =>
    match exec (text.drop st.index) with
    | none => st
    | some (index, m) =>
      iterate text n
        ⟨st.content ++
            (if index > st.index then [⟨.text, (text.drop st.index).take index⟩] else []) ++
            [⟨.link, m⟩],
          st.index + (index + m.length)⟩

/-- `processText`: the loop is left when it was run eleven times. -/
def processText (text : Text) : List ContentItem :=
  if text = [] then []
  else
    let st := iterate text 11 ⟨[], 0⟩
    st.content ++
      if st.index < text.length then [⟨.text, text.drop st.index⟩] else []

example : processText (units "see http://a") =
    [⟨.text, units "see "⟩, ⟨.link, units "http://a"⟩] := by decide +kernel

/-! ## Links -/

/-- A protocol and something without spaces behind it. -/
def IsLink (w : Text) : Prop :=
  ∃ p ∈ protocols, ∃ rest, rest ≠ [] ∧ (∀ c ∈ rest, isSpace c = false) ∧ w = p ++ rest

/-- A part of a text. -/
@[ext] structure Span where
  start : Nat
  text : Text

def Span.stop (o : Span) : Nat := o.start + o.text.length

/-- It is in the text, and a link. -/
def Occurs (s : Text) (o : Span) : Prop := IsLink o.text ∧ o.text <+: s.drop o.start

/-- It is in no other. -/
def Maximal (s : Text) (o : Span) : Prop :=
  Occurs s o ∧ ∀ o', Occurs s o' → o'.start ≤ o.start → o.stop ≤ o'.stop → o' = o

/-- All maximal links, from left to right. -/
structure Links (s : Text) (l : List Span) : Prop where
  sorted : l.Pairwise (fun o o' => o.start < o'.start)
  mem_iff : ∀ o, o ∈ l ↔ Maximal s o

section Word

variable {s w : Text}

theorem isSpace_of_mem_word {c : Nat} (h : c ∈ word s) : isSpace c = false := by
  unfold word at h
  simpa using List.mem_takeWhile_imp h

theorem protocol_noSpace : ∀ p ∈ protocols, ∀ c ∈ p, isSpace c = false := by decide

theorem IsLink.noSpace (h : IsLink w) : ∀ c ∈ w, isSpace c = false := by
  obtain ⟨p, hp, rest, -, hrest, rfl⟩ := h
  intro c hc
  rcases List.mem_append.mp hc with hc | hc
  · exact protocol_noSpace p hp c hc
  · exact hrest c hc

theorem IsLink.length_pos (h : IsLink w) : 0 < w.length := by
  obtain ⟨p, -, rest, hne, -, rfl⟩ := h
  have hpos := List.length_pos_of_ne_nil hne
  rw [List.length_append]
  omega

theorem word_append (h : ∀ c ∈ w, isSpace c = false) (t : Text) : word (w ++ t) = w ++ word t :=
  List.takeWhile_append_of_pos (fun c hc => by rw [h c hc]; rfl)

/-- A link ends where the next space is, at the latest. -/
theorem IsLink.prefix_word (h : IsLink w) (hs : w <+: s) : w <+: word s := by
  obtain ⟨t, rfl⟩ := hs
  rw [word_append h.noSpace]
  exact List.prefix_append _ _

/-- What goes on behind a link without a space is a link. -/
theorem IsLink.extend (h : IsLink w) (hs : w <+: s) : IsLink (word s) := by
  obtain ⟨t, rfl⟩ := hs
  rw [word_append h.noSpace]
  obtain ⟨p, hp, rest, hne, hrest, rfl⟩ := h
  refine ⟨p, hp, rest ++ word t, by simp [hne], ?_, by rw [List.append_assoc]⟩
  intro c hc
  rcases List.mem_append.mp hc with hc | hc
  · exact hrest c hc
  · exact isSpace_of_mem_word hc

end Word

/-! ## The search -/

/-- A link starts here. -/
def LinkAt (s : Text) (k : Nat) : Prop := IsLink (word (s.drop k))

theorem matchHere_eq_some {s m : Text} (h : matchHere s = some m) : m = word s ∧ IsLink m := by
  obtain ⟨p, hp, hmatch⟩ := List.exists_of_findSome?_eq_some h
  split at hmatch
  · next hprefix =>
    obtain ⟨t, rfl⟩ := List.isPrefixOf_iff_prefix.mp hprefix
    rw [List.drop_left] at hmatch
    dsimp only at hmatch
    split at hmatch
    · cases hmatch
    · next hne =>
      have hnoSpace := protocol_noSpace p hp
      rw [word_append hnoSpace, ← Option.some.inj hmatch]
      exact ⟨rfl, p, hp, word t, hne, fun c hc => isSpace_of_mem_word hc, rfl⟩
  · cases hmatch

theorem matchHere_eq_none {s : Text} (h : matchHere s = none) : ¬ IsLink (word s) := by
  rintro ⟨p, hp, rest, hne, hrest, hword⟩
  have hs : s = p ++ (rest ++ s.dropWhile (fun c => !isSpace c)) := by
    rw [← List.append_assoc, ← hword]
    exact List.takeWhile_append_dropWhile.symm
  have hnone := List.findSome?_eq_none_iff.mp h p hp
  rw [if_pos (List.isPrefixOf_iff_prefix.mpr ⟨_, hs.symm⟩)] at hnone
  dsimp only at hnone
  split at hnone
  · next hempty =>
    rw [hs, List.drop_left, word_append hrest] at hempty
    exact hne (List.append_eq_nil_iff.mp hempty).1
  · cases hnone

theorem not_isLink_nil : ¬ IsLink [] := fun h => absurd h.length_pos (by decide)

/-- **The first match** is the first start of a link, with all that follows up to a space. -/
theorem exec_spec (s : Text) :
    match exec s with
    | none => ∀ k, ¬ LinkAt s k
    | some (i, m) => m = word (s.drop i) ∧ LinkAt s i ∧ ∀ k < i, ¬ LinkAt s k := by
  induction s with
  | nil =>
    intro k
    unfold LinkAt
    rw [List.drop_nil]
    exact not_isLink_nil
  | cons c cs ih =>
    rw [exec]
    cases hhere : matchHere (c :: cs) with
    | some m =>
      obtain ⟨hword, hlink⟩ := matchHere_eq_some hhere
      refine ⟨hword, ?_, fun k hk => absurd hk (Nat.not_lt_zero k)⟩
      rw [hword] at hlink
      exact hlink
    | none =>
      have hfirst : ¬ LinkAt (c :: cs) 0 := matchHere_eq_none hhere
      cases hrest : exec cs with
      | none =>
        rw [hrest] at ih
        intro k
        cases k with
        | zero => exact hfirst
        | succ k => exact ih k
      | some found =>
        rw [hrest] at ih
        obtain ⟨hword, hlink, hbefore⟩ := ih
        refine ⟨hword, hlink, fun k hk => ?_⟩
        cases k with
        | zero => exact hfirst
        | succ k => exact hbefore k (Nat.lt_of_succ_lt_succ hk)

/-! ## From link to link -/

/-- Links that follow one another, each the first behind the one before it. -/
def Chain (s : Text) : Nat → List Span → Prop
  | _, [] => True
  | e, o :: l => e ≤ o.start ∧ (∀ k, e ≤ k → k < o.start → ¬ LinkAt s k) ∧ LinkAt s o.start ∧
      o.text = word (s.drop o.start) ∧ Chain s o.stop l

/-- Where the last one ends. -/
def stopOf : Nat → List Span → Nat
  | e, [] => e
  | _, o :: l => stopOf o.stop l

section Chain

variable {s : Text} {e : Nat} {o o' : Span} {l : List Span}

theorem LinkAt.lt_length {k : Nat} (h : LinkAt s k) : k < s.length := by
  have hpos := h.length_pos
  have hle : (word (s.drop k)).length ≤ (s.drop k).length :=
    (List.takeWhile_prefix _).length_le
  rw [List.length_drop] at hle
  omega

theorem Occurs.linkAt (h : Occurs s o) : LinkAt s o.start := h.1.extend h.2

theorem Occurs.stop_le (h : Occurs s o) : o.stop ≤ s.length := by
  have hle := h.2.length_le
  have hlt := h.linkAt.lt_length
  rw [List.length_drop] at hle
  unfold Span.stop
  omega

/-- There is no space in a link. -/
theorem Occurs.noSpace (h : Occurs s o) {k : Nat} (hstart : o.start ≤ k) (hstop : k < o.stop) :
    ∃ c, s[k]? = some c ∧ isSpace c = false := by
  unfold Span.stop at hstop
  have hlt : k - o.start < o.text.length := by omega
  refine ⟨o.text[k - o.start], ?_, h.1.noSpace _ (List.getElem_mem hlt)⟩
  obtain ⟨t, ht⟩ := h.2
  have hget : (s.drop o.start)[k - o.start]? = some o.text[k - o.start] := by
    rw [← ht, List.getElem?_append_left hlt, List.getElem?_eq_getElem hlt]
  rw [List.getElem?_drop] at hget
  rw [← hget]
  congr 1
  omega

/-- Behind a word there is a space, or nothing. -/
theorem isSpace_behind_word {k c : Nat}
    (h : s[k + (word (s.drop k)).length]? = some c) : isSpace c = true := by
  have hbehind : ∀ w rest : List Nat, (w ++ rest)[w.length]? = rest[0]? := by
    intro w rest
    rw [List.getElem?_append_right (Nat.le_refl _), Nat.sub_self]
  have hrest := hbehind (word (s.drop k)) ((s.drop k).dropWhile (fun c => !isSpace c))
  rw [word, List.takeWhile_append_dropWhile, ← word, List.getElem?_drop, h] at hrest
  obtain ⟨hlt, rfl⟩ := List.getElem?_eq_some_iff.mp hrest.symm
  simpa using List.dropWhile_get_zero_not _ _ hlt

/-- All links from here on: behind the last one, none starts. -/
def Complete (s : Text) (e : Nat) (l : List Span) : Prop :=
  Chain s e l ∧ ∀ k, stopOf e l ≤ k → ¬ LinkAt s k

theorem linkAt_drop (s : Text) (e i : Nat) : LinkAt (s.drop e) i ↔ LinkAt s (e + i) := by
  unfold LinkAt
  rw [List.drop_drop]

theorem exists_complete (s : Text) (e : Nat) : ∃ l, Complete s e l := by
  have hspec := exec_spec (s.drop e)
  split at hspec
  · refine ⟨[], trivial, fun k hk => ?_⟩
    obtain ⟨d, rfl⟩ := Nat.exists_eq_add_of_le hk
    exact fun hlink => hspec d ((linkAt_drop s e d).mpr hlink)
  · next i m _ =>
    obtain ⟨-, hlink, hbefore⟩ := hspec
    have hlink' := (linkAt_drop s e i).mp hlink
    have hlt := hlink'.lt_length
    have hpos := hlink'.length_pos
    let o : Span := ⟨e + i, word (s.drop (e + i))⟩
    have hstop : e < o.stop := by
      show e < e + i + (word (s.drop (e + i))).length
      omega
    obtain ⟨l, hchain, hend⟩ := exists_complete s o.stop
    refine ⟨o :: l, ⟨Nat.le_add_right _ _, fun k hk hlt => ?_, hlink', rfl, hchain⟩, hend⟩
    obtain ⟨d, rfl⟩ := Nat.exists_eq_add_of_le hk
    have hd : d < i := Nat.lt_of_add_lt_add_left hlt
    exact fun hlink => hbefore d hd ((linkAt_drop s e d).mpr hlink)
termination_by s.length - e
decreasing_by exact Nat.sub_lt_sub_left (Nat.lt_of_le_of_lt (Nat.le_add_right _ _) hlt) hstop

theorem occurs_word {k : Nat} (h : LinkAt s k) : Occurs s ⟨k, word (s.drop k)⟩ :=
  ⟨h, List.takeWhile_prefix _⟩

/-- No link goes over a boundary. -/
theorem Occurs.not_across (h : Occurs s o) {k : Nat}
    (hboundary : ∀ c, s[k]? = some c → isSpace c = true) (hstart : o.start ≤ k) : o.stop ≤ k := by
  by_contra hstop
  obtain ⟨c, hget, hc⟩ := h.noSpace hstart (Nat.lt_of_not_le hstop)
  rw [hboundary c hget] at hc
  cases hc

/-- A word that is a link is in no other. -/
theorem maximal_word {k : Nat} (h : LinkAt s k)
    (hbefore : ∀ o', Occurs s o' → o'.start < k → o'.stop ≤ k) :
    Maximal s ⟨k, word (s.drop k)⟩ := by
  refine ⟨occurs_word h, fun o' ho' hstart hstop => ?_⟩
  have hpos := h.length_pos
  have hsame : o'.start = k := by
    by_contra hne
    have hlt : o'.start < k := Nat.lt_of_le_of_ne hstart hne
    have hle := hbefore o' ho' hlt
    unfold Span.stop at hstop hle
    dsimp only at hstop
    omega
  have hprefix : o'.text <+: word (s.drop k) := hsame ▸ ho'.1.prefix_word ho'.2
  have htext : o'.text = word (s.drop k) := by
    apply hprefix.eq_of_length_le
    unfold Span.stop at hstop
    dsimp only at hstop
    omega
  exact Span.ext hsame htext

theorem Chain.le_start (h : Chain s e l) : ∀ o ∈ l, e ≤ o.start := by
  induction l generalizing e with
  | nil => exact fun o ho => absurd ho List.not_mem_nil
  | cons o l ih =>
    obtain ⟨hle, -, -, -, hrest⟩ := h
    intro o' ho'
    rcases List.mem_cons.mp ho' with rfl | ho'
    · exact hle
    · have hlate := ih hrest o' ho'
      unfold Span.stop at hlate
      omega

/-- **The links that are found one after the other are the maximal ones.** -/
theorem Complete.mem_iff (h : Complete s e l)
    (hboundary : ∀ o, Occurs s o → o.start < e → o.stop ≤ e) (o : Span) :
    o ∈ l ↔ Maximal s o ∧ e ≤ o.start := by
  induction l generalizing e with
  | nil =>
    refine ⟨fun ho => absurd ho List.not_mem_nil, ?_⟩
    rintro ⟨⟨hoccurs, -⟩, hle⟩
    exact absurd hoccurs.linkAt (h.2 _ hle)
  | cons first l ih =>
    obtain ⟨⟨hle, hnone, hlink, htext, hrest⟩, hend⟩ := h
    have hfirst : first = ⟨first.start, word (s.drop first.start)⟩ := Span.ext rfl htext
    -- the next link starts behind a space
    have hspace : ∀ c, s[first.stop]? = some c → isSpace c = true := by
      intro c hc
      rw [Span.stop, htext] at hc
      exact isSpace_behind_word hc
    have hboundary' : ∀ o, Occurs s o → o.start < first.stop → o.stop ≤ first.stop :=
      fun o ho hlt => ho.not_across hspace (Nat.le_of_lt hlt)
    have hbefore : ∀ o', Occurs s o' → o'.start < first.start → o'.stop ≤ first.start := by
      intro o' ho' hlt
      by_cases hearly : o'.start < e
      · exact (hboundary o' ho' hearly).trans hle
      · exact absurd ho'.linkAt (hnone _ (Nat.le_of_not_lt hearly) hlt)
    have hmaximal : Maximal s first := hfirst ▸ maximal_word hlink hbefore
    rw [List.mem_cons, ih ⟨hrest, hend⟩ hboundary']
    constructor
    · rintro (rfl | ⟨hmax, hlate⟩)
      · exact ⟨hmaximal, hle⟩
      · refine ⟨hmax, ?_⟩
        unfold Span.stop at hlate
        omega
    · rintro ⟨hmax, hlate⟩
      by_cases hbehind : first.stop ≤ o.start
      · exact .inr ⟨hmax, hbehind⟩
      · -- it starts in the first link, and so it ends there
        have hstart : first.start ≤ o.start := by
          by_contra hearly
          exact hnone _ hlate (Nat.lt_of_not_le hearly) hmax.1.linkAt
        have hstop := hboundary' o hmax.1 (Nat.lt_of_not_le hbehind)
        exact .inl (hmax.2 first hmaximal.1 hstart hstop).symm

theorem Chain.sorted (h : Chain s e l) : l.Pairwise (fun o o' => o.start < o'.start) := by
  induction l generalizing e with
  | nil => exact List.Pairwise.nil
  | cons o l ih =>
    obtain ⟨-, -, hlink, htext, hrest⟩ := h
    refine List.pairwise_cons.mpr ⟨fun o' ho' => ?_, ih hrest⟩
    have hlate := hrest.le_start o' ho'
    have hpos := hlink.length_pos
    rw [Span.stop, htext] at hlate
    omega

theorem Complete.links (h : Complete s 0 l) : Links s l where
  sorted := h.1.sorted
  mem_iff o := by
    rw [h.mem_iff (fun o _ hlt => absurd hlt (Nat.not_lt_zero _))]
    exact and_iff_left (Nat.zero_le _)

theorem Links.unique {l' : List Span} (h : Links s l) (h' : Links s l') : l = l' := by
  have hirrefl : Std.Irrefl (fun o o' : Span => o.start < o'.start) :=
    ⟨fun o => Nat.lt_irrefl o.start⟩
  have hasymm : Std.Antisymm (fun o o' : Span => o.start < o'.start) :=
    ⟨fun o o' hlt hlt' => absurd hlt' (Nat.lt_asymm hlt)⟩
  apply List.Pairwise.eq_of_mem_iff h.sorted h'.sorted
  intro o
  rw [h.mem_iff, h'.mem_iff]

end Chain

/-! ## What the loop makes of the links -/

/-- The items for some links, the text between two only if it is longer than all before it. -/
def render (s : Text) : Nat → List Span → List ContentItem
  | _, [] => []
  | e, o :: l =>
    (if o.start - e > e then [⟨.text, (s.drop e).take (o.start - e)⟩] else []) ++
      ⟨.link, o.text⟩ :: render s o.stop l

/-- The next match is the next of the links. -/
theorem Complete.exec_eq {s : Text} {e : Nat} {l : List Span} (h : Complete s e l) :
    exec (s.drop e) = l.head?.map (fun o => (o.start - e, o.text)) := by
  have hspec := exec_spec (s.drop e)
  cases l with
  | nil =>
    cases hexec : exec (s.drop e) with
    | none => rfl
    | some found =>
      rw [hexec] at hspec
      obtain ⟨-, hlink, -⟩ := hspec
      exact absurd ((linkAt_drop s e _).mp hlink) (h.2 _ (Nat.le_add_right _ _))
  | cons o l =>
    obtain ⟨⟨hle, hnone, hlink, htext, hrest⟩, hend⟩ := h
    obtain ⟨d, hd⟩ := Nat.exists_eq_add_of_le hle
    have hlinkd : LinkAt (s.drop e) d := (linkAt_drop s e d).mpr (hd ▸ hlink)
    cases hexec : exec (s.drop e) with
    | none =>
      rw [hexec] at hspec
      exact absurd hlinkd (hspec d)
    | some found =>
      obtain ⟨i, m⟩ := found
      rw [hexec] at hspec
      obtain ⟨hword, hlinki, hbefore⟩ := hspec
      have hsame : i = d := by
        apply Nat.le_antisymm
        · exact Nat.le_of_not_lt (fun hlt => hbefore d hlt hlinkd)
        · apply Nat.le_of_not_lt
          intro hlt
          exact hnone (e + i) (Nat.le_add_right _ _) (by omega) ((linkAt_drop s e i).mp hlinki)
      rw [List.head?_cons, Option.map_some, hd, Nat.add_sub_cancel_left, htext, hword, hsame,
        List.drop_drop, hd]

theorem iterate_eq {s : Text} {e : Nat} {l : List Span} (h : Complete s e l) (n : Nat)
    (content : List ContentItem) : iterate s n ⟨content, e⟩ =
      ⟨content ++ render s e (l.take n), stopOf e (l.take n)⟩ := by
  induction n generalizing e l content with
  | zero => simp [iterate, render, stopOf]
  | succ n ih =>
    rw [iterate]
    dsimp only
    rw [h.exec_eq]
    cases l with
    | nil => simp [render, stopOf]
    | cons o l =>
      obtain ⟨⟨hle, -, -, -, hrest⟩, hend⟩ := h
      -- the index of the match counts from the end of the link before
      have hstop : e + (o.start - e + o.text.length) = o.stop := by
        unfold Span.stop
        omega
      rw [List.head?_cons, Option.map_some]
      dsimp only
      rw [hstop, ih ⟨hrest, hend⟩, List.take_succ_cons, render, stopOf]
      simp

theorem processText_eq {s : Text} {l : List Span} (h : Complete s 0 l) :
    processText s = render s 0 (l.take 11) ++
      if stopOf 0 (l.take 11) < s.length then [⟨.text, s.drop (stopOf 0 (l.take 11))⟩] else [] := by
  unfold processText
  by_cases hs : s = []
  · subst hs
    cases l with
    | nil => rfl
    | cons o l =>
      obtain ⟨⟨-, -, hlink, -⟩, -⟩ := h
      exact absurd hlink.lt_length (Nat.not_lt_zero _)
  · rw [if_neg hs, iterate_eq h, List.nil_append]

/-- Between two links there is nothing, or more than all before it. -/
def Spaced : Nat → List Span → Prop
  | _, [] => True
  | e, o :: l => (o.start = e ∨ e < o.start - e) ∧ Spaced o.stop l

section Render

variable {s : Text} {e : Nat} {l : List Span}

theorem Chain.take (h : Chain s e l) (n : Nat) : Chain s e (l.take n) := by
  induction l generalizing e n with
  | nil => simpa using h
  | cons o l ih =>
    cases n with
    | zero => exact trivial
    | succ n =>
      obtain ⟨hle, hnone, hlink, htext, hrest⟩ := h
      exact ⟨hle, hnone, hlink, htext, ih hrest n⟩

theorem Chain.le_stopOf (h : Chain s e l) : e ≤ stopOf e l := by
  induction l generalizing e with
  | nil => exact Nat.le_refl e
  | cons o l ih =>
    obtain ⟨hle, -, -, -, hrest⟩ := h
    have hrest := ih hrest
    rw [stopOf]
    unfold Span.stop at hrest ⊢
    omega

theorem Chain.stopOf_le (h : Chain s e l) (he : e ≤ s.length) : stopOf e l ≤ s.length := by
  induction l generalizing e with
  | nil => exact he
  | cons o l ih =>
    obtain ⟨-, -, hlink, htext, hrest⟩ := h
    have hoccurs : Occurs s o := by
      have hsame : o = ⟨o.start, word (s.drop o.start)⟩ := Span.ext rfl htext
      exact hsame ▸ occurs_word hlink
    exact ih hrest hoccurs.stop_le

/-- **Nothing is lost** of a text whose links are spaced. -/
theorem Chain.concat (h : Chain s e l) (hspaced : Spaced e l) :
    (render s e l).flatMap ContentItem.text = (s.drop e).take (stopOf e l - e) := by
  induction l generalizing e with
  | nil => simp [render, stopOf]
  | cons o l ih =>
    obtain ⟨hle, -, -, htext, hrest⟩ := h
    obtain ⟨hgap, hspaced⟩ := hspaced
    obtain ⟨d, hd⟩ := Nat.exists_eq_add_of_le hle
    have hstop := hrest.le_stopOf
    have hbefore : (if o.start - e > e then [(⟨.text, (s.drop e).take (o.start - e)⟩ : ContentItem)]
        else []).flatMap ContentItem.text = (s.drop e).take d := by
      rw [hd, Nat.add_sub_cancel_left]
      rcases hgap with heq | hlong
      · have hzero : d = 0 := by omega
        simp [hzero]
      · rw [if_pos (by omega)]
        simp
    have hword : o.text = (s.drop (e + d)).take o.text.length := by
      rw [htext, hd]
      exact List.prefix_iff_eq_take.mp (List.takeWhile_prefix _)
    have hrest' : stopOf o.stop l - e = d + (o.text.length + (stopOf o.stop l - o.stop)) := by
      unfold Span.stop at hstop ⊢
      omega
    rw [render, List.flatMap_append, List.flatMap_cons, hbefore, ih hrest hspaced, stopOf, hrest',
      List.take_add, List.take_add, List.drop_drop, List.drop_drop, ← hword, Span.stop, hd,
      Nat.add_assoc]

/-- What is not lost fills the text only if the links are spaced. -/
theorem Chain.length_concat (h : Chain s e l) :
    ((render s e l).flatMap ContentItem.text).length + e ≤ stopOf e l ∧
    (((render s e l).flatMap ContentItem.text).length + e = stopOf e l → Spaced e l) := by
  induction l generalizing e with
  | nil => exact ⟨by simp [render, stopOf], fun _ => trivial⟩
  | cons o l ih =>
    obtain ⟨hle, -, hlink, -, hrest⟩ := h
    obtain ⟨hlength, hspaced⟩ := ih hrest
    obtain ⟨gap, heq, hgap⟩ : ∃ gap, ((if o.start - e > e then
        [(⟨.text, (s.drop e).take (o.start - e)⟩ : ContentItem)] else []).flatMap
          ContentItem.text).length = gap ∧ gap ≤ if o.start - e > e then o.start - e else 0 := by
      refine ⟨_, rfl, ?_⟩
      split
      · simp
      · simp
    rw [render, List.flatMap_append, List.flatMap_cons, List.length_append, List.length_append, heq,
      stopOf]
    have hstop : o.stop = o.start + o.text.length := rfl
    dsimp only
    constructor
    · split at hgap <;> omega
    · intro hfull
      refine ⟨?_, hspaced ?_⟩
      · split at hgap <;> omega
      · split at hgap <;> omega

theorem links_render : ((render s e l).filter (fun item => item.type = .link)).map
    ContentItem.text = l.map Span.text := by
  induction l generalizing e with
  | nil => rfl
  | cons o l ih =>
    rw [render, List.filter_append]
    split <;> simp [ih]

/-- There is no link in the text between two links. -/
theorem Chain.not_occurs (h : Chain s e l) {t : Text} (ht : ⟨.text, t⟩ ∈ render s e l) (o : Span) :
    ¬ Occurs t o := by
  induction l generalizing e with
  | nil => exact absurd ht List.not_mem_nil
  | cons first l ih =>
    obtain ⟨-, hnone, -, -, hrest⟩ := h
    rw [render, List.mem_append, List.mem_cons] at ht
    rcases ht with hgap | hlink | htail
    · split at hgap
      · cases List.mem_singleton.mp hgap
        intro hoccurs
        have hlt := hoccurs.linkAt.lt_length
        rw [List.length_take] at hlt
        refine hnone (e + o.start) (Nat.le_add_right _ _) (by omega) ?_
        rw [← linkAt_drop]
        -- a link in a part of a text is one in the text
        apply hoccurs.1.extend
        refine hoccurs.2.trans ?_
        rw [List.drop_take]
        exact List.take_prefix _ _
      · cases hgap
    · cases hlink
    · exact ih hrest htail

end Render

/-! ## Whether text is lost -/

/-- The items are the text with its first eleven links, and no other link is left in a text but the
last. -/
structure Faithful (s : Text) : Prop where
  concat : (processText s).flatMap ContentItem.text = s
  links : ∃ l, Links s l ∧ ((processText s).filter (fun item => item.type = .link)).map
    ContentItem.text = (l.take 11).map Span.text
  texts : ∀ t, ⟨.text, t⟩ ∈ (processText s).dropLast → ∀ o, ¬ Occurs t o

/-- The links, and no link in a text but the last, are always right. -/
theorem links_and_texts {s : Text} {l : List Span} (h : Complete s 0 l) :
    ((processText s).filter (fun item => item.type = .link)).map ContentItem.text =
      (l.take 11).map Span.text ∧
    ∀ t, ⟨.text, t⟩ ∈ (processText s).dropLast → ∀ o, ¬ Occurs t o := by
  rw [processText_eq h]
  split
  · refine ⟨?_, fun t ht => ?_⟩
    · rw [List.filter_append, List.map_append, links_render]
      simp
    · rw [List.dropLast_concat] at ht
      exact (h.1.take 11).not_occurs ht
  · rw [List.append_nil]
    refine ⟨links_render, fun t ht => ?_⟩
    exact (h.1.take 11).not_occurs (List.dropLast_subset _ ht)

theorem concat_iff {s : Text} {l : List Span} (h : Complete s 0 l) :
    (processText s).flatMap ContentItem.text = s ↔ Spaced 0 (l.take 11) := by
  have hchain := h.1.take 11
  have hle := hchain.stopOf_le (Nat.zero_le _)
  have hrest : (if stopOf 0 (l.take 11) < s.length then
      [(⟨.text, s.drop (stopOf 0 (l.take 11))⟩ : ContentItem)] else []).flatMap ContentItem.text =
      s.drop (stopOf 0 (l.take 11)) := by
    split
    · simp
    · next hend =>
      rw [List.drop_eq_nil_of_le (Nat.le_of_not_lt hend)]
      rfl
  rw [processText_eq h, List.flatMap_append, hrest]
  constructor
  · intro heq
    have hlength := congrArg List.length heq
    rw [List.length_append, List.length_drop] at hlength
    exact hchain.length_concat.2 (by omega)
  · intro hspaced
    rw [hchain.concat hspaced, List.drop_zero, Nat.sub_zero]
    exact List.take_append_drop _ _

/-- **No text is lost** exactly if, among the first eleven links, each starts where the one before it
ends or farther from there than that is from the start of the text. -/
theorem no_text_lost_iff (s : Text) :
    Faithful s ↔ ∃ l, Links s l ∧ Spaced 0 (l.take 11) := by
  obtain ⟨l, h⟩ := exists_complete s 0
  obtain ⟨hlinks, htexts⟩ := links_and_texts h
  constructor
  · intro hfaithful
    exact ⟨l, h.links, (concat_iff h).mp hfaithful.concat⟩
  · rintro ⟨l', hl', hspaced⟩
    rw [hl'.unique h.links] at hspaced
    exact ⟨(concat_iff h).mpr hspaced, ⟨l, h.links, hlinks⟩, htexts⟩

/-- One space between two links. -/
theorem space_lost : ¬ Faithful (units "http://a http://b") := by
  intro h
  have hlost : (processText (units "http://a http://b")).flatMap ContentItem.text ≠
      units "http://a http://b" := by decide +kernel
  exact hlost h.concat

end OpenTogetherTube.Client.ProcessedText
