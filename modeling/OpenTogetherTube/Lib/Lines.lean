import Mathlib.Data.List.DropRight
import Mathlib.Data.List.Forall2
import Mathlib.Tactic.Common

/-!
# Texts of lines

Lines that were put together with a separator come apart again where the text is split, as long as no
line has the separator in it. A reader that trims the text before it splits it changes the first line
and the last one, and where one of them is blank it finds fewer lines:
`splitOn_trim_intercalate_of_length` says what it finds if it finds as many as there were.
-/

namespace OpenTogetherTube.Lib.Lines

variable {α : Type}

def trim (white : α → Bool) (text : List α) : List α := (text.dropWhile white).rdropWhile white

/-! ## Trimming -/

section Trim

variable {white : α → Bool} {text rest : List α}

theorem dropWhile_append_of_not_blank (h : ¬ ∀ c ∈ text, white c = true) :
    (text ++ rest).dropWhile white = text.dropWhile white ++ rest := by
  rw [List.dropWhile_append, if_neg]
  rw [List.isEmpty_iff, List.dropWhile_eq_nil_iff]
  exact h

theorem dropWhile_append_of_blank (h : ∀ c ∈ text, white c = true) :
    (text ++ rest).dropWhile white = rest.dropWhile white := by
  rw [List.dropWhile_append, if_pos]
  rw [List.isEmpty_iff, List.dropWhile_eq_nil_iff]
  exact h

theorem rdropWhile_append_of_not_blank (h : ¬ ∀ c ∈ text, white c = true) :
    (rest ++ text).rdropWhile white = rest ++ text.rdropWhile white := by
  unfold List.rdropWhile
  rw [List.reverse_append, dropWhile_append_of_not_blank (by simpa using h), List.reverse_append,
    List.reverse_reverse]

theorem rdropWhile_append_of_blank (h : ∀ c ∈ text, white c = true) :
    (rest ++ text).rdropWhile white = rest.rdropWhile white := by
  unfold List.rdropWhile
  rw [List.reverse_append, dropWhile_append_of_blank (by simpa using h)]

theorem trim_eq_self (h : ∀ c ∈ text, white c = false) : trim white text = text := by
  have hdrop : text.dropWhile white = text := by
    refine List.dropWhile_eq_self_iff.mpr (fun hne => ?_)
    rw [h _ (List.getElem_mem hne)]
    decide
  unfold trim
  rw [hdrop, List.rdropWhile_eq_self_iff]
  intro hne
  rw [h _ (List.getLast_mem hne)]
  decide

/-- What is not white stays. -/
theorem mem_trim {c : α} (hc : white c = false) : c ∈ trim white text ↔ c ∈ text := by
  have hdrop : ∀ l : List α, c ∈ l.dropWhile white ↔ c ∈ l := by
    intro l
    conv_rhs => rw [← @List.takeWhile_append_dropWhile _ white l]
    rw [List.mem_append]
    refine (or_iff_right (fun h => ?_)).symm
    rw [List.mem_takeWhile_imp h] at hc
    cases hc
  unfold trim List.rdropWhile
  rw [List.mem_reverse, hdrop, List.mem_reverse, hdrop]

theorem trim_eq_nil_iff : trim white text = [] ↔ ∀ c ∈ text, white c = true := by
  constructor
  · intro h c hc
    by_contra hwhite
    have hmem := (mem_trim (Bool.eq_false_iff.mpr hwhite)).mpr hc
    rw [h] at hmem
    cases hmem
  · intro h
    unfold trim
    rw [List.dropWhile_eq_nil_iff.mpr h]
    rfl

end Trim

/-! ## Splitting -/

section Split

variable {sep : α} {white : α → Bool}

theorem intercalate_concat {ls : List (List α)} (hne : ls ≠ []) (last : List α) :
    [sep].intercalate (ls ++ [last]) = [sep].intercalate ls ++ sep :: last := by
  induction ls with
  | nil => exact absurd rfl hne
  | cons l ls ih =>
    rw [List.cons_append, List.intercalate_cons_of_ne_nil (by simp)]
    cases ls with
    | nil => simp
    | cons l' ls =>
      rw [ih (List.cons_ne_nil _ _), List.intercalate_cons_cons]
      simp only [List.append_assoc]

theorem intercalate_first (first last : List α) (inner : List (List α)) :
    [sep].intercalate (first :: (inner ++ [last])) =
      first ++ sep :: [sep].intercalate (inner ++ [last]) := by
  rw [List.intercalate_cons_of_ne_nil (by simp), List.append_assoc]
  rfl

theorem intercalate_last (first last : List α) (inner : List (List α)) :
    [sep].intercalate (first :: (inner ++ [last])) =
      [sep].intercalate (first :: inner) ++ sep :: last :=
  intercalate_concat (List.cons_ne_nil _ _) last

/-- The first line is trimmed on its left, and the last one on its right. -/
theorem trim_intercalate {first last : List α} (inner : List (List α))
    (hfirst : ¬ ∀ c ∈ first, white c = true) (hlast : ¬ ∀ c ∈ last, white c = true) :
    trim white ([sep].intercalate (first :: (inner ++ [last]))) =
      [sep].intercalate (first.dropWhile white :: (inner ++ [last.rdropWhile white])) := by
  unfold trim
  rw [intercalate_first, dropWhile_append_of_not_blank hfirst, ← intercalate_first, intercalate_last,
    List.append_cons, rdropWhile_append_of_not_blank hlast, ← List.append_cons, ← intercalate_last]

theorem exists_of_forall₂ {β : Type} {R : α → β → Prop} {l : List α} {l' : List β} {b : β}
    (h : List.Forall₂ R l l') (hb : b ∈ l') : ∃ a ∈ l, R a b := by
  induction h with
  | nil => cases hb
  | cons hR _ ih =>
    rcases List.mem_cons.mp hb with rfl | hb
    · exact ⟨_, List.mem_cons_self, hR⟩
    · obtain ⟨a, ha, hab⟩ := ih hb
      exact ⟨a, List.mem_cons_of_mem _ ha, hab⟩

theorem forall₂_modifyHead {β : Type} {R : α → β → Prop} {f : α → α} {g : β → β} {l : List α}
    {l' : List β} (hhead : ∀ a b, R a b → R (f a) (g b)) (h : List.Forall₂ R l l') :
    List.Forall₂ R (l.modifyHead f) (l'.modifyHead g) := by
  cases h with
  | nil => exact .nil
  | cons hR hrest => exact .cons (hhead _ _ hR) hrest

variable [DecidableEq α]

theorem not_mem_of_mem_splitOn {text l : List α} (hl : l ∈ text.splitOn sep) : sep ∉ l := by
  induction text generalizing l with
  | nil =>
    cases List.mem_singleton.mp hl
    exact List.not_mem_nil
  | cons c text ih =>
    rw [List.splitOn_cons_eq_if_modifyHead] at hl
    split at hl
    · rcases List.mem_cons.mp hl with rfl | hl
      · exact List.not_mem_nil
      · exact ih hl
    · next hc =>
      cases hlines : text.splitOn sep with
      | nil => exact absurd hlines (List.splitOn_ne_nil _ _)
      | cons first rest =>
        rw [hlines] at hl ih
        rcases List.mem_cons.mp hl with rfl | hl
        · rintro (_ | ⟨_, hmem⟩)
          · exact hc (beq_self_eq_true sep)
          · exact ih List.mem_cons_self hmem
        · exact ih (List.mem_cons_of_mem _ hl)

/-- What has no separator stays in the first line. -/
theorem splitOn_append_of_not_mem {front : List α} (h : sep ∉ front) (text : List α) :
    (front ++ text).splitOn sep = (text.splitOn sep).modifyHead (front ++ ·) := by
  induction front with
  | nil =>
    cases hlines : text.splitOn sep with
    | nil => exact absurd hlines (List.splitOn_ne_nil _ _)
    | cons first rest =>
      rw [List.nil_append, hlines]
      rfl
  | cons c front ih =>
    obtain ⟨hc, hfront⟩ := not_or.mp (fun hor => h (List.mem_cons.mpr hor))
    have hne : ¬ (c == sep) = true := by
      rw [beq_iff_eq]
      exact fun heq => hc heq.symm
    rw [List.cons_append, List.splitOn_cons_eq_if_modifyHead, if_neg hne, ih hfront,
      List.modifyHead_modifyHead]
    rfl

theorem splitOn_append_cons {front : List α} (h : sep ∉ front) (text : List α) :
    (front ++ sep :: text).splitOn sep = front :: text.splitOn sep := by
  rw [splitOn_append_of_not_mem h, List.splitOn_cons_eq_if_modifyHead, if_pos (beq_self_eq_true sep)]
  show (front ++ []) :: text.splitOn sep = _
  rw [List.append_nil]

/-- What is rewritten letter by letter, the separator apart, is rewritten line by line. -/
theorem splitOn_flatMap {f : α → List α} (hsep : f sep = [sep]) (h : ∀ c, c ≠ sep → sep ∉ f c)
    (text : List α) :
    (text.flatMap f).splitOn sep = (text.splitOn sep).map (fun line => line.flatMap f) := by
  induction text with
  | nil => rfl
  | cons c text ih =>
    rw [List.flatMap_cons, List.splitOn_cons_eq_if_modifyHead c]
    by_cases hc : c = sep
    · rw [hc, if_pos (beq_self_eq_true sep), hsep, List.map_cons, ← ih]
      exact splitOn_append_cons List.not_mem_nil _
    · rw [if_neg (by rwa [beq_iff_eq]), splitOn_append_of_not_mem (h c hc), ih]
      cases text.splitOn sep with
      | nil => rfl
      | cons first rest => rfl

theorem length_splitOn (sep : α) (text : List α) : (text.splitOn sep).length = text.count sep + 1 := by
  induction text with
  | nil => rfl
  | cons c text ih =>
    rw [List.splitOn_cons_eq_if_modifyHead, List.count_cons]
    split
    · rw [List.length_cons, ih]
    · rw [List.length_modifyHead, ih, Nat.add_zero]

theorem count_trim_le (sep : α) (white : α → Bool) (text : List α) : (trim white text).count sep ≤ text.count sep :=
  ((List.rdropWhile_prefix _ _).sublist.trans (List.dropWhile_sublist _)).count_le sep

theorem length_splitOn_trim_le (sep : α) (white : α → Bool) (text : List α) :
    ((trim white text).splitOn sep).length ≤ (text.splitOn sep).length := by
  rw [length_splitOn, length_splitOn]
  exact Nat.succ_le_succ (count_trim_le sep white text)

theorem splitOn_trim_intercalate {first last : List α} {inner : List (List α)}
    (hfree : ∀ l ∈ first :: (inner ++ [last]), sep ∉ l)
    (hfirst : ¬ ∀ c ∈ first, white c = true) (hlast : ¬ ∀ c ∈ last, white c = true) :
    (trim white ([sep].intercalate (first :: (inner ++ [last])))).splitOn sep =
      first.dropWhile white :: (inner ++ [last.rdropWhile white]) := by
  rw [trim_intercalate inner hfirst hlast]
  refine List.splitOn_intercalate sep ?_ (by simp)
  intro l hl hmem
  rcases List.mem_cons.mp hl with rfl | hl
  · exact hfree first List.mem_cons_self ((List.dropWhile_sublist _).mem hmem)
  rcases List.mem_append.mp hl with hinner | hl
  · exact hfree l (List.mem_cons_of_mem _ (List.mem_append_left _ hinner)) hmem
  · cases List.mem_singleton.mp hl
    exact hfree last (List.mem_cons_of_mem _ (List.mem_append_right _ List.mem_cons_self))
      ((List.rdropWhile_prefix _ _).sublist.mem hmem)

/-- **What is left of lines that are trimmed together**, if they are still as many. -/
theorem splitOn_trim_intercalate_of_length (hsep : white sep = true) {first last : List α}
    {inner : List (List α)} (hfree : ∀ l ∈ first :: (inner ++ [last]), sep ∉ l)
    (hlength : ((trim white ([sep].intercalate (first :: (inner ++ [last])))).splitOn sep).length =
      (first :: (inner ++ [last])).length) :
    (trim white ([sep].intercalate (first :: (inner ++ [last])))).splitOn sep =
      first.dropWhile white :: (inner ++ [last.rdropWhile white]) := by
  have hcount : (trim white ([sep].intercalate (first :: (inner ++ [last])))).count sep =
      ([sep].intercalate (first :: (inner ++ [last]))).count sep := by
    rw [length_splitOn] at hlength
    have hall := length_splitOn sep ([sep].intercalate (first :: (inner ++ [last])))
    rw [List.splitOn_intercalate sep hfree (by simp)] at hall
    omega
  -- a blank line at an end would take its separator with it
  have hfirst : ¬ ∀ c ∈ first, white c = true := by
    intro hblank
    have hdrop : ([sep].intercalate (first :: (inner ++ [last]))).dropWhile white =
        ([sep].intercalate (inner ++ [last])).dropWhile white := by
      rw [intercalate_first, dropWhile_append_of_blank hblank, List.dropWhile_cons_of_pos hsep]
    have hle := count_trim_le sep white ([sep].intercalate (inner ++ [last]))
    unfold trim at hcount hle
    rw [hdrop, intercalate_first, List.count_append, List.count_cons_self] at hcount
    omega
  have hlast : ¬ ∀ c ∈ last, white c = true := by
    intro hblank
    have hblank' : ∀ c ∈ sep :: last, white c = true := List.forall_mem_cons.mpr ⟨hsep, hblank⟩
    have hle := (List.dropWhile_sublist white
      (l := [sep].intercalate (first :: (inner ++ [last])))).count_le sep
    have hle' := (List.rdropWhile_prefix white
      ([sep].intercalate (first.dropWhile white :: inner))).sublist.count_le sep
    unfold trim at hcount
    rw [intercalate_first, dropWhile_append_of_not_blank hfirst, ← intercalate_first,
      intercalate_last] at hcount hle
    rw [List.count_append, List.count_cons_self] at hle
    rw [rdropWhile_append_of_blank hblank'] at hcount
    omega
  exact splitOn_trim_intercalate hfree hfirst hlast

end Split

/-! ## Reading -/

section Read

variable {ε β : Type} {p : α → Bool} {read : α → Except ε β} {ls : List α} {results : List β}

theorem mapM_eq_ok_iff : ls.mapM read = .ok results ↔ ls.map read = results.map .ok := by
  induction ls generalizing results with
  | nil => cases results <;> simp [pure, Except.pure]
  | cons l ls ih =>
    rw [List.mapM_cons, List.map_cons]
    cases hl : read l with
    | error failure => cases results <;> simp [bind, Except.bind]
    | ok result =>
      cases results with
      | nil => cases ls.mapM read <;> simp [bind, Except.bind, pure, Except.pure]
      | cons result' results =>
        rw [List.map_cons, List.cons.injEq, ← ih]
        cases ls.mapM read <;> simp [bind, Except.bind, pure, Except.pure]

theorem exists_map_eq_ok (h : ∀ l ∈ ls, ∃ result, read l = .ok result) :
    ∃ results : List β, ls.map read = results.map .ok := by
  induction ls with
  | nil => exact ⟨[], rfl⟩
  | cons l ls ih =>
    obtain ⟨⟨result, hresult⟩, hrest⟩ := List.forall_mem_cons.mp h
    obtain ⟨results, hresults⟩ := ih hrest
    exact ⟨result :: results, by rw [List.map_cons, List.map_cons, hresult, hresults]⟩

/-- As many results as lines: no line was left out. -/
theorem mapM_filter_eq_ok_iff (hlength : ls.length = results.length) :
    (ls.filter p).mapM read = .ok results ↔
      (∀ l ∈ ls, p l = true) ∧ ls.map read = results.map .ok := by
  rw [mapM_eq_ok_iff]
  constructor
  · intro h
    have hfilter : (ls.filter p).length = ls.length := by
      have := congrArg List.length h
      rw [List.length_map, List.length_map] at this
      exact this.trans hlength.symm
    have hall := List.length_filter_eq_length_iff.mp hfilter
    exact ⟨hall, (List.filter_eq_self.mpr hall) ▸ h⟩
  · rintro ⟨hall, h⟩
    rw [List.filter_eq_self.mpr hall]
    exact h

end Read

end OpenTogetherTube.Lib.Lines
