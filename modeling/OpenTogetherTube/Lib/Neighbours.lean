import OpenTogetherTube.Lib.Lines

/-!
# What stands behind a separator

A text is searched from left to right for a word, a separator and something that is read behind it.
Where what is read does not go across a separator, the search is one of the neighbours in the pieces of
the text: the word ends a piece, and the next piece is read. If the search begins with a separator as
well, then the word is the piece.
-/

namespace OpenTogetherTube.Lib.Neighbours

variable {α β : Type}

/-- Each piece, and the next one. -/
def neighbours (pieces : List α) : List (α × α) := pieces.zip pieces.tail

@[simp] theorem neighbours_cons_cons (a b : α) (rest : List α) :
    neighbours (a :: b :: rest) = (a, b) :: neighbours (b :: rest) := rfl

theorem neighbours_map (f : α → β) (pieces : List α) :
    neighbours (pieces.map f) = (neighbours pieces).map (Prod.map f f) := by
  unfold neighbours
  rw [← List.map_tail, List.zip_map]

theorem findSome?_tails_cons (f : List α → Option β) (c : α) (text : List α) :
    (c :: text).tails.findSome? f = (f (c :: text)).or (text.tails.findSome? f) := by
  rw [List.tails, List.findSome?_cons]
  cases f (c :: text) <;> rfl

/-! ## Pieces -/

section Pieces

variable [DecidableEq α] {sep : α} {word text : List α}

/-- A text with pieces behind the first one has a separator. -/
theorem eq_append_of_splitOn {p q : List α} {ps : List (List α)}
    (h : text.splitOn sep = p :: q :: ps) :
    ∃ rest, text = p ++ sep :: rest ∧ rest.splitOn sep = q :: ps := by
  have hp : sep ∉ p := Lines.not_mem_of_mem_splitOn (h ▸ List.mem_cons_self)
  have hmem : sep ∈ text := by
    by_contra hno
    rw [List.splitOn_eq_singleton hno] at h
    cases h
  obtain ⟨front, rest, rfl, hfront⟩ := List.eq_append_cons_of_mem hmem
  rw [Lines.splitOn_append_cons hfront] at h
  obtain ⟨rfl, hrest⟩ := List.cons.inj h
  exact ⟨rest, rfl, hrest⟩

theorem eq_of_splitOn_singleton {p : List α} (h : text.splitOn sep = [p]) : text = p ∧ sep ∉ text := by
  have hno : sep ∉ text := by
    intro hmem
    obtain ⟨front, rest, rfl, hfront⟩ := List.eq_append_cons_of_mem hmem
    rw [Lines.splitOn_append_cons hfront] at h
    exact List.splitOn_ne_nil _ _ (List.cons.inj h).2
  rw [List.splitOn_eq_singleton hno] at h
  exact ⟨(List.cons.inj h).1, hno⟩

theorem prefix_of_splitOn {p : List α} {ps : List (List α)} (h : text.splitOn sep = p :: ps) :
    p <+: text := by
  cases ps with
  | nil =>
    obtain ⟨rfl, -⟩ := eq_of_splitOn_singleton h
    exact List.prefix_rfl
  | cons q ps =>
    obtain ⟨rest, rfl, -⟩ := eq_append_of_splitOn h
    exact List.prefix_append _ _

theorem infix_of_mem_splitOn {piece : List α} (hpiece : piece ∈ text.splitOn sep) : piece <:+: text := by
  induction text generalizing piece with
  | nil =>
    cases List.mem_singleton.mp hpiece
    exact List.infix_rfl
  | cons c text ih =>
    obtain ⟨p, ps, hpieces⟩ := List.exists_cons_of_ne_nil (List.splitOn_ne_nil sep text)
    rw [List.splitOn_cons_eq_if_modifyHead] at hpiece
    split at hpiece
    · rcases List.mem_cons.mp hpiece with rfl | hpiece
      · exact List.nil_infix
      · exact List.infix_cons (ih hpiece)
    · rw [hpieces, List.modifyHead_cons] at hpiece
      rcases List.mem_cons.mp hpiece with rfl | hrest
      · exact ((List.prefix_cons_inj c).mpr (prefix_of_splitOn hpieces)).isInfix
      · exact List.infix_cons (ih (hpieces ▸ List.mem_cons_of_mem _ hrest))

/-- A word and a separator stand at the beginning where the word is the first piece. -/
theorem word_prefix_iff (hword : sep ∉ word) :
    word ++ [sep] <+: text ↔ ∃ q ps, text.splitOn sep = word :: q :: ps := by
  constructor
  · rintro ⟨rest, rfl⟩
    rw [List.append_assoc, List.singleton_append, Lines.splitOn_append_cons hword]
    obtain ⟨q, ps, hrest⟩ := List.exists_cons_of_ne_nil (List.splitOn_ne_nil sep rest)
    exact ⟨q, ps, by rw [hrest]⟩
  · rintro ⟨q, ps, h⟩
    obtain ⟨rest, rfl, -⟩ := eq_append_of_splitOn h
    exact ⟨rest, by rw [List.append_assoc, List.singleton_append]⟩

/-- What has no separator stands at the beginning of a text where it begins the first piece. -/
theorem prefix_iff_of_not_mem (hword : sep ∉ word) {p : List α} {ps : List (List α)}
    (h : text.splitOn sep = p :: ps) : word <+: text ↔ word <+: p := by
  cases ps with
  | nil => rw [(eq_of_splitOn_singleton h).1]
  | cons q ps =>
    obtain ⟨rest, rfl, -⟩ := eq_append_of_splitOn h
    constructor
    · intro hbegins
      rcases List.prefix_or_prefix_of_prefix hbegins (List.prefix_append p _) with hp | ⟨t, rfl⟩
      · exact hp
      · -- a longer word would reach the separator
        rw [List.prefix_append_right_inj] at hbegins
        cases t with
        | nil => exact ⟨[], by simp⟩
        | cons c t =>
          obtain ⟨rfl, -⟩ := List.cons_prefix_cons.mp hbegins
          exact absurd (List.mem_append_right _ List.mem_cons_self) hword
    · exact fun hp => hp.trans (List.prefix_append _ _)

end Pieces

/-! ## The search -/

section Search

variable [DecidableEq α] {sep : α} {word : List α}

/-- What is read does not go across a separator. -/
def Local (sep : α) (read : List α → Option β) : Prop :=
  ∀ piece rest, sep ∉ piece → read (piece ++ sep :: rest) = read piece

theorem Local.read_eq {read : List α → Option β} (h : Local sep read) {text p : List α}
    {ps : List (List α)} (hpieces : text.splitOn sep = p :: ps) : read text = read p := by
  cases ps with
  | nil => rw [(eq_of_splitOn_singleton hpieces).1]
  | cons q ps =>
    obtain ⟨rest, rfl, -⟩ := eq_append_of_splitOn hpieces
    exact h p rest (Lines.not_mem_of_mem_splitOn (hpieces ▸ List.mem_cons_self))

/-- What is read at the beginning of a text, behind the word and a separator. -/
def readBehind (sep : α) (word : List α) (read : List α → Option β) (text : List α) : Option β :=
  if word ++ [sep] <+: text then read (text.drop (word.length + 1)) else none

theorem readBehind_eq {read : List α → Option β} (hword : sep ∉ word) (hread : Local sep read)
    {text p q : List α} {ps : List (List α)} (hpieces : text.splitOn sep = p :: q :: ps) :
    readBehind sep word read text = if word = p then read q else none := by
  obtain ⟨rest, htext, hrest⟩ := eq_append_of_splitOn hpieces
  have hbegins := @word_prefix_iff _ _ sep word text hword
  rw [hpieces] at hbegins
  unfold readBehind
  by_cases heq : word = p
  · rw [if_pos heq, if_pos (hbegins.mpr ⟨q, ps, by rw [heq]⟩), htext, heq, List.append_cons,
      List.drop_left' (by simp), hread.read_eq hrest]
  · rw [if_neg heq, if_neg]
    intro h
    obtain ⟨q', ps', h⟩ := hbegins.mp h
    exact heq (List.cons.inj h).1.symm

theorem readBehind_of_not_mem {read : List α → Option β} {text : List α} (h : sep ∉ text) :
    readBehind sep word read text = none := by
  unfold readBehind
  rw [if_neg]
  exact fun hbegins => h (hbegins.subset (List.mem_append_right _ List.mem_cons_self))

/-- **A search for a word and a separator** is one of the neighbours. -/
theorem findSome?_readBehind {read : List α → Option β} (hword : sep ∉ word) (hread : Local sep read)
    (text : List α) :
    text.tails.findSome? (readBehind sep word read) =
      (neighbours (text.splitOn sep)).findSome?
        (fun ab => if word <:+ ab.1 then read ab.2 else none) := by
  induction text with
  | nil =>
    show (List.findSome? _ [[]]) = none
    rw [List.findSome?_cons, readBehind_of_not_mem List.not_mem_nil]
    rfl
  | cons c text ih =>
    obtain ⟨p, ps, hpieces⟩ := List.exists_cons_of_ne_nil (List.splitOn_ne_nil sep text)
    rw [findSome?_tails_cons, ih]
    by_cases hc : c = sep
    · have hsplit : (c :: text).splitOn sep = [] :: p :: ps := by
        rw [List.splitOn_cons_eq_if_modifyHead, if_pos (beq_iff_eq.mpr hc), hpieces]
      rw [readBehind_eq hword hread hsplit, hsplit, hpieces, neighbours_cons_cons, List.findSome?_cons]
      simp only [List.suffix_nil]
      cases (if word = [] then read p else none) <;> rfl
    · have hsplit : (c :: text).splitOn sep = (c :: p) :: ps := by
        rw [List.splitOn_cons_eq_if_modifyHead, if_neg (by rwa [beq_iff_eq]), hpieces]
        rfl
      cases ps with
      | nil =>
        rw [readBehind_of_not_mem (eq_of_splitOn_singleton hsplit).2, hsplit, hpieces]
        rfl
      | cons q ps =>
        rw [readBehind_eq hword hread hsplit, hsplit, hpieces, neighbours_cons_cons,
          neighbours_cons_cons, List.findSome?_cons, List.findSome?_cons]
        simp only [List.suffix_cons_iff]
        by_cases heq : word = c :: p
        · -- then the word does not end the shorter piece
          have hshort : ¬ word <:+ p := by
            intro h
            have hlength := h.length_le
            rw [heq, List.length_cons] at hlength
            omega
          rw [if_pos heq, if_neg hshort, if_pos (.inl heq)]
          cases read q <;> rfl
        · rw [if_neg heq, Option.none_or]
          by_cases hsuffix : word <:+ p
          · rw [if_pos hsuffix, if_pos (.inr hsuffix)]
          · rw [if_neg hsuffix, if_neg (by rintro (h | h) <;> contradiction)]

theorem readBehind_sep {read : List α → Option β} (c : α) (text : List α) :
    readBehind sep (sep :: word) read (c :: text) =
      if c = sep then readBehind sep word read text else none := by
  unfold readBehind
  by_cases hc : c = sep
  · simp only [hc, List.cons_append, List.cons_prefix_cons, true_and, if_true, List.length_cons,
      List.drop_succ_cons]
  · rw [if_neg hc, if_neg]
    exact fun h => hc (List.cons_prefix_cons.mp h).1.symm

/-- One of some words stands in front of a separator where it is the first piece. -/
theorem findSome?_words {words : List (List α)} {read : List α → List α → Option β}
    (hwords : ∀ word ∈ words, sep ∉ word) (hread : ∀ word, Local sep (read word))
    {text p q : List α} {ps : List (List α)} (hpieces : text.splitOn sep = p :: q :: ps) :
    words.findSome? (fun word => readBehind sep word (read word) text) =
      if p ∈ words then read p q else none := by
  induction words with
  | nil => rfl
  | cons word words ih =>
    obtain ⟨hword, hwords⟩ := List.forall_mem_cons.mp hwords
    rw [List.findSome?_cons, readBehind_eq hword (hread word) hpieces, ih hwords]
    by_cases heq : word = p
    · rw [heq, if_pos rfl, if_pos List.mem_cons_self]
      cases hq : read p q with
      | none => exact ite_self none
      | some b => rfl
    · have hmem : p ∈ word :: words ↔ p ∈ words := by
        rw [List.mem_cons]
        exact or_iff_right (fun h => heq h.symm)
      simp only [if_neg heq, hmem]

theorem findSome?_words_of_not_mem {words : List (List α)} {read : List α → List α → Option β}
    {text : List α} (h : sep ∉ text) :
    words.findSome? (fun word => readBehind sep word (read word) text) = none := by
  rw [List.findSome?_eq_none_iff]
  exact fun word _ => readBehind_of_not_mem h

/-- **A search for one of some words between separators** is one of the neighbours, too. -/
theorem findSome?_readBetween {words : List (List α)} {read : List α → List α → Option β}
    (hwords : ∀ word ∈ words, sep ∉ word) (hread : ∀ word, Local sep (read word)) (text : List α) :
    text.tails.findSome? (fun t => words.findSome? (fun word =>
        readBehind sep (sep :: word) (read word) t)) =
      (neighbours (text.splitOn sep).tail).findSome?
        (fun ab => if ab.1 ∈ words then read ab.1 ab.2 else none) := by
  induction text with
  | nil =>
    have hnone : words.findSome? (fun word => readBehind sep (sep :: word) (read word) []) = none := by
      rw [List.findSome?_eq_none_iff]
      exact fun word _ => readBehind_of_not_mem List.not_mem_nil
    show (List.findSome? _ [[]]) = none
    rw [List.findSome?_cons, hnone]
    rfl
  | cons c text ih =>
    obtain ⟨p, ps, hpieces⟩ := List.exists_cons_of_ne_nil (List.splitOn_ne_nil sep text)
    rw [findSome?_tails_cons, ih, List.splitOn_cons_eq_if_modifyHead, hpieces]
    simp only [readBehind_sep]
    by_cases hc : c = sep
    · -- the words are behind a separator, and so not in the first piece
      simp only [if_pos hc]
      rw [if_pos (beq_iff_eq.mpr hc), List.tail_cons, List.tail_cons]
      cases ps with
      | nil =>
        rw [findSome?_words_of_not_mem (eq_of_splitOn_singleton hpieces).2]
        rfl
      | cons q ps =>
        rw [findSome?_words hwords hread hpieces, neighbours_cons_cons, List.findSome?_cons]
        cases (if p ∈ words then read p q else none) <;> rfl
    · simp only [if_neg hc]
      rw [if_neg (by rwa [beq_iff_eq]), List.modifyHead_cons, List.tail_cons, List.tail_cons,
        List.findSome?_eq_none_iff.mpr (fun _ _ => rfl), Option.none_or]

end Search

end OpenTogetherTube.Lib.Neighbours
