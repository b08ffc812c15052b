import OpenTogetherTube.Panel.Hierarchy
import Mathlib.Data.List.Sort
import Mathlib.Logic.Function.Basic

/-!
# Keeping some groups of a tree

`filterTreeGroups` takes the nodes of other groups out of a tree, in place: one kept node after the
other gets its nearest kept ancestor for a parent, is pushed to that node's children, and loses the
children that are not kept.

A kept node whose parent is kept is among its parent's children before it is pushed. So it is there
twice (`structure_not_kept`). Where no two kept levels follow one another, and the outermost kept group is not
taken for a missing one because its name is empty, the structure is kept (`structure_kept_iff`).
-/

namespace OpenTogetherTube.Panel.FilterTreeGroups

open OpenTogetherTube.Lib

/-- A node of the tree, by the way to it. -/
abbrev Way := List Nat

/-- What is changed in place. The `children` of a leaf are `undefined`. -/
structure Links where
  parent : Way → Option Way
  children : Way → Option (List Way)

/-- The nodes as d3 has linked them. -/
def linksOf (t : HierarchyNode) : Links where
  parent p := if p = [] then none else some p.dropLast
  children p :=
    match t.follow p with
    | some (.node _ _ children) => some ((List.range children.length).map (fun i => p ++ [i]))
    | _ => none

/-- `node.data.group` -/
def groupOf (t : HierarchyNode) (p : Way) : String :=
  ((t.follow p).map (fun n => n.data.group)).getD ""

/-- `roots.descendants()` -/
def descendants (t : HierarchyNode) : List Way :=
  Levels.walk (fun p => ((linksOf t).children p).getD []) (t.height + 1) [[]]

section Filter

variable (t : HierarchyNode) (groups : List String)

/-- `groups.includes(node.data.group)` -/
def included (p : Way) : Bool := groups.contains (groupOf t p)

/-- At most so many steps up: a parent is nearer to the root. -/
def findValidParent (links : Links) : Nat → Way → Option Way
  | 0, _ => none
  | n + 1, node =>
    match links.parent node with
    | none => none
    | some parent =>
      if included t groups parent then some parent else findValidParent links n parent

/-- What is done to one of the nodes to keep. -/
def relink (links : Links) (node : Way) : Links :=
  let parent := findValidParent t groups links node.length node
  let reparented := { links with parent := Function.update links.parent node parent }
  let pushed :=
    match parent with
    | none => reparented
    | some p =>
      { reparented with
        children := Function.update links.children p ((links.children p).map (· ++ [node])) }
  { pushed with
    children := Function.update pushed.children node
      ((pushed.children node).map (fun children => children.filter (included t groups))) }

structure Filtered where
  roots : List Way
  links : Links

def filterTreeGroups : Filtered :=
  let allgroups := t.traverseGroups
  let groups := groups.insertionSort
    (fun a b => Levels.indexOf allgroups a ≤ Levels.indexOf allgroups b)
  match groups.head? with
  | none | some "" => ⟨[], linksOf t⟩
  | some newRootGroup =>
    let validNodes := (descendants t).filter (included t groups)
    let newRoots := validNodes.filter (fun node => groupOf t node = newRootGroup)
    ⟨newRoots, validNodes.foldl (relink t groups) (linksOf t)⟩

end Filter

/-- The room is twice below its monolith. -/
example : (filterTreeGroups HierarchyNode.system ["room", "monolith"]).links.children [0] =
    some [[0, 0], [0, 0]] := by decide +kernel

/-! ## Left and right, early and late -/

/-- One node is to the left of the other, where their ways part. -/
def LeftOf (p q : Way) : Prop := ∃ r i j, i < j ∧ r ++ [i] <+: p ∧ r ++ [j] <+: q

/-- One node comes before the other, breadth first. -/
def Earlier (p q : Way) : Prop := p.length < q.length ∨ p.length = q.length ∧ LeftOf p q

theorem LeftOf.irrefl (p : Way) : ¬ LeftOf p p := by
  rintro ⟨r, i, j, hlt, ⟨s, rfl⟩, ⟨s', hs'⟩⟩
  rw [List.append_assoc, List.append_assoc] at hs'
  have heq := List.append_cancel_left hs'
  rw [List.singleton_append, List.singleton_append, List.cons.injEq] at heq
  omega

theorem Earlier.irrefl (p : Way) : ¬ Earlier p p := by
  rintro (hlt | ⟨-, hleft⟩)
  · exact Nat.lt_irrefl _ hlt
  · exact LeftOf.irrefl p hleft

theorem LeftOf.append {p q : Way} (h : LeftOf p q) (s s' : Way) : LeftOf (p ++ s) (q ++ s') := by
  obtain ⟨r, i, j, hlt, hp, hq⟩ := h
  exact ⟨r, i, j, hlt, hp.trans (List.prefix_append p s), hq.trans (List.prefix_append q s')⟩

section Walk

variable (t : HierarchyNode)

/-- The children of a node, as the walk reads them. -/
def below (p : Way) : List Way := ((linksOf t).children p).getD []

theorem below_eq (p : Way) :
    ∃ k, below t p = (List.range k).map (fun i => p ++ [i]) ∧
      ∀ i, i < k ↔ (t.follow (p ++ [i])).isSome := by
  have hsome : ∀ i, (t.follow (p ++ [i])).isSome ↔
      ∃ n, t.follow p = some n ∧ i < n.children.length := by
    intro i
    rw [HierarchyNode.follow_concat]
    cases t.follow p with
    | none => simp
    | some n => simp
  unfold below linksOf
  dsimp only
  split
  · next data depth children hfollow =>
    refine ⟨children.length, rfl, fun i => ?_⟩
    rw [hsome, hfollow]
    simp [HierarchyNode.children]
  · next hno =>
    refine ⟨0, rfl, fun i => ?_⟩
    rw [hsome]
    constructor
    · exact fun hlt => absurd hlt (Nat.not_lt_zero i)
    · rintro ⟨n, hn, hlt⟩
      cases n with
      | leaf data depth => exact hlt
      | node data depth children => exact absurd hn (hno _ _ _)

theorem mem_below {p c : Way} :
    c ∈ below t p ↔ ∃ i, c = p ++ [i] ∧ (t.follow c).isSome := by
  obtain ⟨k, heq, hk⟩ := below_eq t p
  rw [heq, List.mem_map]
  constructor
  · rintro ⟨i, hi, rfl⟩
    exact ⟨i, rfl, (hk i).mp (List.mem_range.mp hi)⟩
  · rintro ⟨i, rfl, hsome⟩
    exact ⟨i, List.mem_range.mpr ((hk i).mpr hsome), rfl⟩

/-- The ways so many levels down, from left to right. -/
theorem level_below (d : Nat) :
    (∀ p, p ∈ Levels.level (below t) d [[]] ↔ p.length = d ∧ (t.follow p).isSome) ∧
    (Levels.level (below t) d [[]]).Pairwise LeftOf := by
  induction d with
  | zero =>
    refine ⟨fun p => ?_, List.pairwise_singleton _ _⟩
    show p ∈ [[]] ↔ _
    rw [List.mem_singleton, List.length_eq_zero_iff]
    exact ⟨fun heq => ⟨heq, heq ▸ rfl⟩, fun h => h.1⟩
  | succ d ih =>
    obtain ⟨hmem, hsorted⟩ := ih
    rw [Levels.level_succ]
    constructor
    · intro c
      rw [List.mem_flatMap]
      constructor
      · rintro ⟨p, hp, hc⟩
        obtain ⟨i, rfl, hsome⟩ := (mem_below t).mp hc
        refine ⟨?_, hsome⟩
        rw [List.length_append, ((hmem p).mp hp).1]
        rfl
      · rintro ⟨hlength, hsome⟩
        have hne : c ≠ [] := by
          rintro rfl
          cases hlength
        have hsplit := List.dropLast_append_getLast hne
        refine ⟨c.dropLast, (hmem _).mpr ⟨?_, ?_⟩, (mem_below t).mpr ⟨_, hsplit.symm, hsome⟩⟩
        · rw [List.length_dropLast, hlength]
          rfl
        · rw [← hsplit, HierarchyNode.follow_append] at hsome
          cases hparent : t.follow c.dropLast with
          | none =>
            rw [hparent] at hsome
            cases hsome
          | some n => rfl
    · rw [List.pairwise_flatMap]
      constructor
      · intro p _
        obtain ⟨k, heq, -⟩ := below_eq t p
        rw [heq, List.pairwise_map]
        apply List.pairwise_lt_range.imp
        intro i j hlt
        exact ⟨p, i, j, hlt, List.prefix_rfl, List.prefix_rfl⟩
      · refine hsorted.imp (fun hleft c hc c' hc' => ?_)
        obtain ⟨i, rfl, -⟩ := (mem_below t).mp hc
        obtain ⟨j, rfl, -⟩ := (mem_below t).mp hc'
        exact hleft.append _ _

theorem descendants_eq :
    descendants t = (List.range (t.height + 1)).flatMap (fun d => Levels.level (below t) d [[]]) :=
  Levels.walk_eq (below t) (t.height + 1) [[]]

theorem mem_descendants {p : Way} : p ∈ descendants t ↔ (t.follow p).isSome := by
  rw [descendants_eq, List.mem_flatMap]
  constructor
  · rintro ⟨d, -, hp⟩
    exact (((level_below t d).1 p).mp hp).2
  · intro hsome
    obtain ⟨n, hn⟩ := Option.isSome_iff_exists.mp hsome
    refine ⟨p.length, ?_, ((level_below t _).1 p).mpr ⟨rfl, hsome⟩⟩
    exact List.mem_range.mpr (Nat.lt_succ_of_le (HierarchyNode.length_le_height hn))

/-- **The walk is breadth first.** -/
theorem descendants_sorted : (descendants t).Pairwise Earlier := by
  rw [descendants_eq, List.pairwise_flatMap]
  constructor
  · intro d _
    have hmem := (level_below t d).1
    refine (level_below t d).2.imp_of_mem (fun hp hq hleft => ?_)
    exact .inr ⟨((hmem _).mp hp).1.trans ((hmem _).mp hq).1.symm, hleft⟩
  · apply List.pairwise_lt_range.imp
    intro d d' hlt p hp q hq
    have hpd := (((level_below t d).1 p).mp hp).1
    have hqd := (((level_below t d').1 q).mp hq).1
    exact .inl (by omega)

end Walk

/-! ## Nearest kept ancestors -/

section Nearest

variable {t : HierarchyNode} {groups : List String}

/-- The nearest kept ancestor in the tree as it was. -/
def nearest (t : HierarchyNode) (groups : List String) (p : Way) : Option Way :=
  findValidParent t groups (linksOf t) p.length p

theorem nearest_concat (p : Way) (i : Nat) : nearest t groups (p ++ [i]) =
    if included t groups p then some p else nearest t groups p := by
  have hparent : (linksOf t).parent (p ++ [i]) = some p := by
    unfold linksOf
    simp
  rw [nearest, List.length_append, List.length_singleton, findValidParent, hparent]
  rfl

theorem prefix_concat {q p : Way} {i : Nat} (h : q <+: p ++ [i]) (hlt : q.length < (p ++ [i]).length) :
    q <+: p := by
  rw [List.length_append, List.length_singleton] at hlt
  exact List.prefix_of_prefix_length_le h (List.prefix_append p [i]) (Nat.le_of_lt_succ hlt)

/-- **It is an ancestor, kept, and no kept one is nearer.** -/
theorem nearest_eq_some {p q : Way} (h : nearest t groups p = some q) :
    q <+: p ∧ q.length < p.length ∧ included t groups q = true ∧
    ∀ r, r <+: p → r.length < p.length → included t groups r = true → r.length ≤ q.length := by
  induction p using List.reverseRecOn with
  | nil => cases h
  | append_singleton p i ih =>
    rw [nearest_concat] at h
    split at h
    · next hincluded =>
      obtain rfl : p = q := Option.some.inj h
      refine ⟨List.prefix_append p [i], by simp, hincluded, fun r hr hlt _ => ?_⟩
      exact (prefix_concat hr hlt).length_le
    · next hnot =>
      obtain ⟨hbegins, hlt, hincluded, hnearest⟩ := ih h
      refine ⟨hbegins.trans (List.prefix_append p [i]), ?_, hincluded, fun r hr hlt' hr' => ?_⟩
      · rw [List.length_append]
        omega
      · have hrp := prefix_concat hr hlt'
        apply hnearest r hrp _ hr'
        refine Nat.lt_of_le_of_ne hrp.length_le (fun heq => hnot ?_)
        rw [← hrp.eq_of_length heq]
        exact hr'

theorem nearest_eq_none {p : Way} (h : nearest t groups p = none) :
    ∀ r, r <+: p → r.length < p.length → included t groups r = false := by
  induction p using List.reverseRecOn with
  | nil => exact fun r _ hlt => absurd hlt (Nat.not_lt_zero _)
  | append_singleton p i ih =>
    rw [nearest_concat] at h
    split at h
    · cases h
    · next hnot =>
      intro r hr hlt
      have hrp := prefix_concat hr hlt
      by_cases heq : r = p
      · rw [heq]
        exact eq_false_of_ne_true hnot
      · exact ih h r hrp (Nat.lt_of_le_of_ne hrp.length_le (fun hl => heq (hrp.eq_of_length hl)))

/-- Only the parents of the node and of nodes that are not kept are read. -/
theorem findValidParent_eq {links : Links} {p : Way}
    (h : ∀ q, q = p ∨ included t groups q = false → links.parent q = (linksOf t).parent q)
    (n : Nat) : findValidParent t groups links n p = findValidParent t groups (linksOf t) n p := by
  induction n generalizing p with
  | zero => rfl
  | succ n ih =>
    rw [findValidParent, findValidParent, h p (.inl rfl)]
    cases (linksOf t).parent p with
    | none => rfl
    | some q =>
      dsimp only
      cases hq : included t groups q with
      | true => rfl
      | false =>
        simp only [Bool.false_eq_true, if_false]
        apply ih
        rintro q' (rfl | hq')
        · exact h q' (.inr hq)
        · exact h q' (.inr hq')

/-! ## The loop -/

/-- The links when some of the nodes are done. -/
def after (t : HierarchyNode) (groups : List String) (done : List Way) : Links where
  parent p := if p ∈ done then nearest t groups p else (linksOf t).parent p
  children p := ((linksOf t).children p).map (fun children =>
    (if p ∈ done then children.filter (included t groups) else children) ++
      done.filter (fun v => nearest t groups v = some p))

theorem after_nil : after t groups [] = linksOf t := by
  have hchildren : (after t groups []).children = (linksOf t).children := by
    funext p
    simp [after]
  have hparent : (after t groups []).parent = (linksOf t).parent := by
    funext p
    simp [after]
  calc after t groups [] = ⟨(after t groups []).parent, (after t groups []).children⟩ := rfl
    _ = linksOf t := by rw [hchildren, hparent]

/-- The walk upwards ends where it did before the loop: of the nodes done, only the kept have other
parents, and it stops at these. -/
theorem findValidParent_after {done : List Way} {v : Way} (hnew : v ∉ done)
    (hincluded : ∀ u ∈ done, included t groups u = true) :
    findValidParent t groups (after t groups done) v.length v = nearest t groups v := by
  apply findValidParent_eq
  rintro q (rfl | hq)
  · exact if_neg hnew
  · refine if_neg (fun hmem => ?_)
    rw [hincluded q hmem] at hq
    cases hq

theorem nearest_ne_self (v : Way) : nearest t groups v ≠ some v := by
  intro h
  exact Nat.lt_irrefl _ (nearest_eq_some h).2.1

/-- Nothing was pushed to a node before its turn. -/
theorem filter_nearest_eq_nil {done : List Way} {v : Way} (hearlier : ∀ u ∈ done, u.length ≤ v.length) :
    done.filter (fun u => nearest t groups u = some v) = [] := by
  apply List.filter_eq_nil_iff.mpr
  intro u hu heq
  have hlt := (nearest_eq_some (of_decide_eq_true heq)).2.1
  have hle := hearlier u hu
  omega

theorem parent_relink_after {done : List Way} {v : Way} (hnew : v ∉ done)
    (hincluded : ∀ u ∈ done, included t groups u = true) :
    (relink t groups (after t groups done) v).parent = (after t groups (done ++ [v])).parent := by
  have hupdate : Function.update (after t groups done).parent v (nearest t groups v) =
      (after t groups (done ++ [v])).parent := by
    funext p
    by_cases hp : p = v
    · subst hp
      rw [Function.update_self]
      simp [after]
    · rw [Function.update_of_ne hp]
      simp [after, hp]
  unfold relink
  dsimp only
  rw [findValidParent_after hnew hincluded]
  cases hnearest : nearest t groups v with
  | none =>
    rw [hnearest] at hupdate
    exact hupdate
  | some q =>
    rw [hnearest] at hupdate
    exact hupdate

theorem children_relink_after {done : List Way} {v : Way} (hnew : v ∉ done)
    (hincluded : ∀ u ∈ done, included t groups u = true)
    (hearlier : ∀ u ∈ done, u.length ≤ v.length) :
    (relink t groups (after t groups done) v).children =
      (after t groups (done ++ [v])).children := by
  funext p
  unfold relink
  dsimp only
  rw [findValidParent_after hnew hincluded]
  by_cases hp : p = v
  · -- the node loses the children that are not kept
    subst hp
    have hsame : ∀ links : Links, links.children p = (after t groups done).children p →
        (links.children p).map (fun children => children.filter (included t groups)) =
          (after t groups (done ++ [p])).children p := by
      intro links heq
      rw [heq]
      unfold after
      dsimp only
      rw [List.filter_append, filter_nearest_eq_nil hearlier]
      cases (linksOf t).children p <;> simp [hnew, nearest_ne_self]
    rw [Function.update_self]
    apply hsame
    cases hnearest : nearest t groups p with
    | none => rfl
    | some q =>
      have hne : p ≠ q := by
        rintro rfl
        exact nearest_ne_self p hnearest
      exact Function.update_of_ne hne _ _
  · rw [Function.update_of_ne hp]
    have hdone : p ∈ done ++ [v] ↔ p ∈ done := by simp [hp]
    cases hnearest : nearest t groups v with
    | none =>
      unfold after
      dsimp only
      simp [hdone, List.filter_append, hnearest]
    | some q =>
      dsimp only
      by_cases hq : p = q
      · -- the nearest kept ancestor gets it
        subst hq
        rw [Function.update_self]
        unfold after
        dsimp only
        cases (linksOf t).children p <;> simp [hdone, List.filter_append, hnearest]
      · rw [Function.update_of_ne hq]
        unfold after
        dsimp only
        cases (linksOf t).children p <;>
          simp [hdone, List.filter_append, hnearest, Ne.symm hq]

/-- **One more node.** -/
theorem relink_after {done : List Way} {v : Way} (hnew : v ∉ done)
    (hincluded : ∀ u ∈ done, included t groups u = true)
    (hearlier : ∀ u ∈ done, u.length ≤ v.length) :
    relink t groups (after t groups done) v = after t groups (done ++ [v]) := by
  calc relink t groups (after t groups done) v =
      ⟨(relink t groups (after t groups done) v).parent,
        (relink t groups (after t groups done) v).children⟩ := rfl
    _ = after t groups (done ++ [v]) := by
      rw [parent_relink_after hnew hincluded, children_relink_after hnew hincluded hearlier]

/-- **The whole loop.** -/
theorem foldl_relink {nodes : List Way} (hsorted : nodes.Pairwise Earlier)
    (hincluded : ∀ u ∈ nodes, included t groups u = true) :
    nodes.foldl (relink t groups) (linksOf t) = after t groups nodes := by
  have hloop : ∀ rest done : List Way, (done ++ rest).Pairwise Earlier →
      (∀ u ∈ done ++ rest, included t groups u = true) →
      rest.foldl (relink t groups) (after t groups done) = after t groups (done ++ rest) := by
    intro rest
    induction rest with
    | nil => simp
    | cons v rest ih =>
      intro done hsorted hincluded
      have hbefore : ∀ u ∈ done, Earlier u v :=
        fun u hu => (List.pairwise_append.mp hsorted).2.2 u hu v List.mem_cons_self
      have hnew : v ∉ done := fun hmem => Earlier.irrefl v (hbefore v hmem)
      have hearlier : ∀ u ∈ done, u.length ≤ v.length := by
        intro u hu
        rcases hbefore u hu with hlt | ⟨heq, -⟩
        · exact Nat.le_of_lt hlt
        · exact Nat.le_of_eq heq
      rw [List.foldl_cons, relink_after hnew
        (fun u hu => hincluded u (List.mem_append_left _ hu)) hearlier]
      have hrest := ih (done ++ [v]) (by simpa using hsorted) (by simpa using hincluded)
      rw [hrest, List.append_assoc]
      rfl
  have hwhole := hloop nodes [] hsorted hincluded
  rw [after_nil] at hwhole
  exact hwhole

end Nearest

/-! ## What comes out -/

section Result

variable {t : HierarchyNode} {groups : List String}

/-- A node of a kept group. -/
def Kept (t : HierarchyNode) (groups : List String) (p : Way) : Prop :=
  (t.follow p).isSome ∧ groupOf t p ∈ groups

/-- The kept nodes in the order of the walk. -/
def keptNodes (t : HierarchyNode) (groups : List String) : List Way :=
  (descendants t).filter (included t groups)

theorem included_iff {p : Way} : included t groups p = true ↔ groupOf t p ∈ groups :=
  List.contains_iff_mem

theorem mem_keptNodes {p : Way} : p ∈ keptNodes t groups ↔ Kept t groups p := by
  rw [keptNodes, List.mem_filter, mem_descendants, included_iff]
  rfl

theorem keptNodes_sorted : (keptNodes t groups).Pairwise Earlier :=
  (descendants_sorted t).filter _

/-- The first of the sorted groups is among the groups, and none has a smaller index. -/
theorem exists_first (allgroups : List String) (hne : groups ≠ []) :
    ∃ g, (groups.insertionSort (fun a b =>
        Levels.indexOf allgroups a ≤ Levels.indexOf allgroups b)).head? = some g ∧ g ∈ groups ∧
      ∀ g' ∈ groups, Levels.indexOf allgroups g ≤ Levels.indexOf allgroups g' := by
  let r := fun a b : String => Levels.indexOf allgroups a ≤ Levels.indexOf allgroups b
  have htotal : Std.Total r := ⟨fun a b => Int.le_total _ _⟩
  have htrans : IsTrans String r := ⟨fun a b c hab hbc => Int.le_trans hab hbc⟩
  have hsorted : (groups.insertionSort r).Pairwise r := List.pairwise_insertionSort r groups
  have hmem : ∀ g, g ∈ groups.insertionSort r ↔ g ∈ groups := fun g => List.mem_insertionSort r
  show ∃ g, (groups.insertionSort r).head? = some g ∧ _
  cases hcases : groups.insertionSort r with
  | nil =>
    obtain ⟨g, hg⟩ := List.exists_mem_of_ne_nil groups hne
    have hnil := (hmem g).mpr hg
    rw [hcases] at hnil
    cases hnil
  | cons g rest =>
    rw [hcases] at hsorted hmem
    refine ⟨g, rfl, (hmem g).mp List.mem_cons_self, fun g' hg' => ?_⟩
    rcases List.mem_cons.mp ((hmem g').mpr hg') with rfl | hin
    · exact Int.le_refl _
    · exact (List.pairwise_cons.mp hsorted).1 g' hin

theorem included_sorted (r : String → String → Prop) [DecidableRel r] :
    included t (groups.insertionSort r) = included t groups := by
  funext p
  rw [Bool.eq_iff_iff, included_iff, included_iff, List.mem_insertionSort]

/-- The groups are only asked for what they include. -/
theorem relink_congr {groups' : List String} (h : included t groups' = included t groups) :
    relink t groups' = relink t groups := by
  have hfind : findValidParent t groups' = findValidParent t groups := by
    funext links n
    induction n with
    | zero => rfl
    | succ n ih =>
      funext p
      rw [findValidParent, findValidParent, ih, h]
  funext links node
  unfold relink
  rw [hfind, h]

/-- **What is returned.** -/
theorem filterTreeGroups_eq (hne : groups ≠ []) : ∃ g ∈ groups,
    (∀ g' ∈ groups, Levels.indexOf t.traverseGroups g ≤ Levels.indexOf t.traverseGroups g') ∧
    filterTreeGroups t groups = if g = "" then ⟨[], linksOf t⟩ else
      ⟨(keptNodes t groups).filter (fun node => groupOf t node = g),
        after t groups (keptNodes t groups)⟩ := by
  obtain ⟨g, hhead, hg, hfirst⟩ := exists_first t.traverseGroups hne
  refine ⟨g, hg, hfirst, ?_⟩
  have hloop : (keptNodes t groups).foldl (relink t groups) (linksOf t) =
      after t groups (keptNodes t groups) :=
    foldl_relink keptNodes_sorted (fun u hu => (List.mem_filter.mp hu).2)
  unfold filterTreeGroups
  dsimp only
  rw [hhead, included_sorted, relink_congr (included_sorted _)]
  by_cases hempty : g = ""
  · subst hempty
    rfl
  · rw [if_neg hempty, ← hloop]
    split
    · next heq => cases heq
    · next heq => exact absurd (Option.some.inj heq) hempty
    · next heq =>
      cases heq
      rfl

end Result

/-! ## The structure of the result -/

/-- The children of a node of the result. -/
def Filtered.kids (f : Filtered) (p : Way) : List Way := (f.links.children p).getD []

/-- The node at the end of a way down from a node of the result. -/
def Filtered.reach (f : Filtered) : Way → List Nat → Option Way
  | p, [] => some p
  | p, j :: place => (f.kids p)[j]?.bind (fun c => f.reach c place)

/-- The node at a place in the result: the index of a root, and a way down from there. -/
def Filtered.node (f : Filtered) : List Nat → Option Way
  | [] => none
  | i :: place => f.roots[i]?.bind (fun p => f.reach p place)

/-- The nearest kept ancestor of a node, or none. -/
def IsParent (t : HierarchyNode) (groups : List String) (p : Way) : Option Way → Prop
  | none => ∀ r, r <+: p → r.length < p.length → ¬ Kept t groups r
  | some q => q <+: p ∧ q.length < p.length ∧ Kept t groups q ∧
      ∀ r, r <+: p → r.length < p.length → Kept t groups r → r.length ≤ q.length

/-- What keeping some groups is to leave of a tree. -/
structure Faithful (t : HierarchyNode) (groups : List String) : Prop where
  roots : ∀ p, p ∈ (filterTreeGroups t groups).roots ↔
    Kept t groups p ∧ ∀ q, Kept t groups q → p.length ≤ q.length
  only : ∀ place p, (filterTreeGroups t groups).node place = some p → Kept t groups p
  once : ∀ p, Kept t groups p → ∃! place, (filterTreeGroups t groups).node place = some p
  parent : ∀ p, Kept t groups p →
    IsParent t groups p ((filterTreeGroups t groups).links.parent p)
  children : ∀ p, Kept t groups p → ∀ c, c ∈ (filterTreeGroups t groups).kids p ↔
    Kept t groups c ∧ IsParent t groups c (some p)
  order : (filterTreeGroups t groups).roots.Pairwise LeftOf ∧
    ∀ p, Kept t groups p → ((filterTreeGroups t groups).kids p).Pairwise LeftOf

theorem Filtered.reach_concat (f : Filtered) (p : Way) (place : List Nat) (j : Nat) :
    f.reach p (place ++ [j]) = (f.reach p place).bind (fun q => (f.kids q)[j]?) := by
  induction place generalizing p with
  | nil =>
    rw [List.nil_append, reach, reach, Option.bind_some]
    cases (f.kids p)[j]? <;> rfl
  | cons i place ih =>
    rw [List.cons_append, reach, reach]
    cases (f.kids p)[i]? with
    | none => rfl
    | some c => exact ih c

theorem Filtered.node_concat (f : Filtered) {place : List Nat} (h : place ≠ []) (j : Nat) :
    f.node (place ++ [j]) = (f.node place).bind (fun q => (f.kids q)[j]?) := by
  cases place with
  | nil => exact absurd rfl h
  | cons i place =>
    rw [List.cons_append, node, node]
    cases f.roots[i]? with
    | none => rfl
    | some p => exact f.reach_concat p place j

/-- A node of the result is a root or a child. -/
theorem Filtered.node_cases {f : Filtered} {place : List Nat} {p : Way}
    (h : f.node place = some p) :
    (∃ i, place = [i] ∧ f.roots[i]? = some p) ∨
    ∃ above j q, place = above ++ [j] ∧ above ≠ [] ∧ f.node above = some q ∧
      (f.kids q)[j]? = some p := by
  induction place using List.reverseRecOn with
  | nil => cases h
  | append_singleton above j _ =>
    by_cases hnil : above = []
    · subst hnil
      refine .inl ⟨j, rfl, ?_⟩
      rw [List.nil_append, node] at h
      obtain ⟨q, hq, heq⟩ := Option.bind_eq_some_iff.mp h
      rw [hq, ← heq]
      rfl
    · rw [f.node_concat hnil] at h
      obtain ⟨q, hq, hj⟩ := Option.bind_eq_some_iff.mp h
      exact .inr ⟨above, j, q, rfl, hnil, hq, hj⟩

section Leveled

variable {t : HierarchyNode} {groups : List String}

theorem isSome_of_begins {p q : Way} (h : (t.follow p).isSome) (hq : q <+: p) :
    (t.follow q).isSome := by
  obtain ⟨s, rfl⟩ := hq
  rw [HierarchyNode.follow_append] at h
  cases hfollow : t.follow q with
  | none =>
    rw [hfollow] at h
    cases h
  | some n => rfl

/-- Among the ancestors of a node, to be kept is to be of a kept group. -/
theorem kept_iff {p r : Way} (hp : (t.follow p).isSome) (hr : r <+: p) :
    Kept t groups r ↔ included t groups r = true := by
  rw [included_iff]
  exact and_iff_right (isSome_of_begins hp hr)

theorem isParent_nearest {p : Way} (hp : (t.follow p).isSome) :
    IsParent t groups p (nearest t groups p) := by
  cases hnearest : nearest t groups p with
  | none =>
    intro r hr hlt
    rw [kept_iff hp hr, nearest_eq_none hnearest r hr hlt]
    exact Bool.false_ne_true
  | some q =>
    obtain ⟨hbegins, hlt, hincluded, hall⟩ := nearest_eq_some hnearest
    refine ⟨hbegins, hlt, (kept_iff hp hbegins).mpr hincluded, fun r hr hlt hkept => ?_⟩
    exact hall r hr hlt ((kept_iff hp hr).mp hkept)

theorem isParent_unique {p : Way} {parent parent' : Option Way} (h : IsParent t groups p parent)
    (h' : IsParent t groups p parent') : parent = parent' := by
  cases parent with
  | none =>
    cases parent' with
    | none => rfl
    | some q => exact absurd h'.2.2.1 (h q h'.1 h'.2.1)
  | some q =>
    cases parent' with
    | none => exact absurd h.2.2.1 (h' q h.1 h.2.1)
    | some q' =>
      have hle := h.2.2.2 q' h'.1 h'.2.1 h'.2.2.1
      have hle' := h'.2.2.2 q h.1 h.2.1 h.2.2.1
      have hbegins := List.prefix_of_prefix_length_le h.1 h'.1 hle'
      rw [hbegins.eq_of_length (Nat.le_antisymm hle' hle)]

theorem isParent_some_iff {p q : Way} (hp : (t.follow p).isSome) :
    IsParent t groups p (some q) ↔ nearest t groups p = some q := by
  constructor
  · exact fun h => isParent_unique (isParent_nearest hp) h
  · exact fun h => h ▸ isParent_nearest hp

theorem groupOf_eq_iff (hleveled : t.Leveled) {p q : Way} (hp : (t.follow p).isSome)
    (hq : (t.follow q).isSome) : groupOf t p = groupOf t q ↔ p.length = q.length := by
  obtain ⟨m, hm⟩ := Option.isSome_iff_exists.mp hp
  obtain ⟨n, hn⟩ := Option.isSome_iff_exists.mp hq
  rw [groupOf, groupOf, hm, hn]
  exact hleveled p q m n hm hn

theorem indexOf_groupOf (hleveled : t.Leveled) {p : Way} (hp : (t.follow p).isSome) :
    Levels.indexOf t.traverseGroups (groupOf t p) = p.length := by
  obtain ⟨n, hn⟩ := Option.isSome_iff_exists.mp hp
  rw [groupOf, hn]
  exact hleveled.indexOf_eq hn

/-- A level is kept as a whole. -/
theorem Kept.of_length (hleveled : t.Leveled) {p q : Way} (h : Kept t groups p)
    (hq : (t.follow q).isSome) (hlength : q.length = p.length) : Kept t groups q :=
  ⟨hq, ((groupOf_eq_iff hleveled hq h.1).mpr hlength) ▸ h.2⟩

/-- Nodes without a kept ancestor are at the outermost kept level. -/
theorem isParent_none_iff (hleveled : t.Leveled) {p : Way} (hp : (t.follow p).isSome) :
    IsParent t groups p none ↔ ∀ q, Kept t groups q → p.length ≤ q.length := by
  constructor
  · intro hnone q hq
    by_contra hlt
    have hlength : (p.take q.length).length = q.length := by
      rw [List.length_take]
      omega
    have hbegins := List.take_prefix q.length p
    exact hnone _ hbegins (by omega) (hq.of_length hleveled (isSome_of_begins hp hbegins) hlength)
  · intro hmin r _ hlt hkept
    have hle := hmin r hkept
    omega

/-- **The children of a kept node**: the kept ones that it had, and the nodes pushed to it. -/
theorem kids_eq {roots : List Way} {p : Way} (hp : Kept t groups p) :
    (Filtered.mk roots (after t groups (keptNodes t groups))).kids p =
      (below t p).filter (included t groups) ++
        (keptNodes t groups).filter (fun v => nearest t groups v = some p) := by
  unfold Filtered.kids after below
  dsimp only
  cases hchildren : (linksOf t).children p with
  | some children => simp [mem_keptNodes.mpr hp]
  | none =>
    -- a leaf has no descendants
    have hnone : (keptNodes t groups).filter (fun v => nearest t groups v = some p) = [] := by
      apply List.filter_eq_nil_iff.mpr
      intro v hv heq
      obtain ⟨⟨s, rfl⟩, hlt, -⟩ := nearest_eq_some (of_decide_eq_true heq)
      cases s with
      | nil =>
        rw [List.append_nil] at hlt
        exact Nat.lt_irrefl _ hlt
      | cons i s =>
        have hsome : (t.follow (p ++ [i])).isSome := by
          refine isSome_of_begins (mem_keptNodes.mp hv).1 ⟨s, ?_⟩
          rw [List.append_assoc]
          rfl
        have hmem := (mem_below t).mpr ⟨i, rfl, hsome⟩
        rw [below, hchildren] at hmem
        cases hmem
    rw [hnone]
    rfl

/-- Nodes of one level are in the order of the walk from left to right. -/
theorem pairwise_leftOf {l : List Way} (hsorted : l.Pairwise Earlier) {d : Nat}
    (hlevel : ∀ p ∈ l, p.length = d) : l.Pairwise LeftOf := by
  refine hsorted.imp_of_mem (fun hp hq hearlier => ?_)
  rcases hearlier with hlt | ⟨-, hleft⟩
  · rw [hlevel _ hp, hlevel _ hq] at hlt
    exact absurd hlt (Nat.lt_irrefl d)
  · exact hleft

theorem nodup_of_earlier {l : List Way} (hsorted : l.Pairwise Earlier) : l.Nodup := by
  refine hsorted.imp ?_
  rintro p _ hearlier rfl
  exact Earlier.irrefl p hearlier

/-- No two of the kept levels follow one another, and the outermost kept group has a name. -/
structure Careful (t : HierarchyNode) (groups : List String) : Prop where
  apart : ∀ p q, Kept t groups p → Kept t groups q → q.length ≠ p.length + 1
  named : ∀ p, Kept t groups p → (∀ q, Kept t groups q → p.length ≤ q.length) →
    groupOf t p ≠ ""

/-- The nodes of the first of the sorted groups are those of the outermost kept level. -/
theorem groupOf_first (hleveled : t.Leveled)
    (hoccur : ∀ g ∈ groups, ∃ p, (t.follow p).isSome ∧ groupOf t p = g) {g : String}
    (hg : g ∈ groups) (hfirst : ∀ g' ∈ groups,
      Levels.indexOf t.traverseGroups g ≤ Levels.indexOf t.traverseGroups g') {p : Way}
    (hp : Kept t groups p) : groupOf t p = g ↔ ∀ q, Kept t groups q → p.length ≤ q.length := by
  obtain ⟨first, hsome, rfl⟩ := hoccur g hg
  have hle : ∀ q, Kept t groups q → first.length ≤ q.length := by
    intro q hq
    have hindex := hfirst _ hq.2
    rw [indexOf_groupOf hleveled hsome, indexOf_groupOf hleveled hq.1] at hindex
    exact Int.ofNat_le.mp hindex
  rw [groupOf_eq_iff hleveled hp.1 hsome]
  constructor
  · intro hlength q hq
    rw [hlength]
    exact hle q hq
  · intro hmin
    exact Nat.le_antisymm (hmin first ⟨hsome, hg⟩) (hle p hp)

/-! ### Every node is linked to its nearest kept ancestor -/

/-- Roots and children, in the order of the walk, by the nearest kept ancestors. -/
structure Linked (t : HierarchyNode) (groups : List String) (f : Filtered) : Prop where
  mem_roots : ∀ p, p ∈ f.roots ↔ Kept t groups p ∧ nearest t groups p = none
  mem_kids : ∀ p, Kept t groups p → ∀ c,
    c ∈ f.kids p ↔ Kept t groups c ∧ nearest t groups c = some p
  sorted_roots : f.roots.Pairwise Earlier
  sorted_kids : ∀ p, Kept t groups p → (f.kids p).Pairwise Earlier
  parent : ∀ p, Kept t groups p → f.links.parent p = nearest t groups p

theorem nearest_kept {p q : Way} (hp : Kept t groups p) (h : nearest t groups p = some q) :
    Kept t groups q :=
  ((isParent_some_iff hp.1).mpr h).2.2.1

theorem Linked.only {f : Filtered} (hf : Linked t groups f) (place : List Nat) (p : Way)
    (h : f.node place = some p) : Kept t groups p := by
  induction place using List.reverseRecOn generalizing p with
  | nil => cases h
  | append_singleton place j ih =>
    rcases Filtered.node_cases h with ⟨i, -, hi⟩ | ⟨above, j', q, heq, -, hq, hj⟩
    · exact ((hf.mem_roots p).mp (List.mem_of_getElem? hi)).1
    · rw [(List.append_inj' heq rfl).1] at ih
      exact ((hf.mem_kids q (ih q hq) p).mp (List.mem_of_getElem? hj)).1

/-- A kept node has one place: from its parent's, by induction on how deep it was. -/
theorem Linked.once {f : Filtered} (hf : Linked t groups f) (p : Way) (hp : Kept t groups p) :
    ∃! place, f.node place = some p := by
  induction hn : p.length using Nat.strong_induction_on generalizing p with
  | _ n ih =>
    subst hn
    cases hnearest : nearest t groups p with
    | none =>
      obtain ⟨i, hi⟩ := List.mem_iff_getElem?.mp ((hf.mem_roots p).mpr ⟨hp, hnearest⟩)
      refine ⟨[i], ?_, fun place h => ?_⟩
      · show (f.roots[i]?).bind _ = _
        rw [hi]
        rfl
      · rcases Filtered.node_cases h with ⟨i', rfl, hi'⟩ | ⟨above, j, q, -, -, hq, hj⟩
        · have hlt := (List.getElem?_eq_some_iff.mp hi').1
          have hsame := (List.getElem?_inj hlt (nodup_of_earlier hf.sorted_roots)).mp
            (hi'.trans hi.symm)
          rw [hsame]
        · have hkid := ((hf.mem_kids q (hf.only above q hq) p).mp (List.mem_of_getElem? hj)).2
          rw [hnearest] at hkid
          cases hkid
    | some q =>
      have hq := nearest_kept hp hnearest
      obtain ⟨place, hplace, hunique⟩ := ih q.length (nearest_eq_some hnearest).2.1 q hq rfl
      obtain ⟨j, hj⟩ := List.mem_iff_getElem?.mp ((hf.mem_kids q hq p).mpr ⟨hp, hnearest⟩)
      have hne : place ≠ [] := by
        rintro rfl
        cases hplace
      refine ⟨place ++ [j], ?_, fun place' h => ?_⟩
      · show f.node (place ++ [j]) = some p
        rw [f.node_concat hne, hplace]
        exact hj
      · rcases Filtered.node_cases h with ⟨i, rfl, hi⟩ | ⟨above, j', q', rfl, -, hq', hj'⟩
        · have hroot := ((hf.mem_roots p).mp (List.mem_of_getElem? hi)).2
          rw [hnearest] at hroot
          cases hroot
        · have hkid :=
            ((hf.mem_kids q' (hf.only above q' hq') p).mp (List.mem_of_getElem? hj')).2
          obtain rfl : q = q' := Option.some.inj (hnearest.symm.trans hkid)
          have hlt := (List.getElem?_eq_some_iff.mp hj').1
          have hsame := (List.getElem?_inj hlt (nodup_of_earlier (hf.sorted_kids q hq))).mp
            (hj'.trans hj.symm)
          rw [hunique above hq', hsame]

/-- Nodes that have the same parent are of one level. -/
theorem length_le_of_nearest (hleveled : t.Leveled) {c c' : Way} (hc : Kept t groups c)
    (hc' : Kept t groups c') (hsame : nearest t groups c = nearest t groups c') :
    c.length ≤ c'.length := by
  by_contra hlt
  have hlength : (c.take c'.length).length = c'.length := by
    rw [List.length_take]
    omega
  have hbegins := List.take_prefix c'.length c
  -- the ancestor that is as deep as the other node is kept, too
  have hbetween := hc'.of_length hleveled (isSome_of_begins hc.1 hbegins) hlength
  have hparent := @isParent_nearest _ groups _ hc.1
  cases hnearest : nearest t groups c with
  | none =>
    rw [hnearest] at hparent
    exact hparent _ hbegins (by omega) hbetween
  | some q =>
    rw [hnearest] at hparent hsame
    have hle := hparent.2.2.2 _ hbegins (by omega) hbetween
    have hlt' := (nearest_eq_some hsame.symm).2.1
    omega

theorem pairwise_leftOf_of_nearest (hleveled : t.Leveled) {l : List Way} {parent : Option Way}
    (hsorted : l.Pairwise Earlier)
    (hl : ∀ c ∈ l, Kept t groups c ∧ nearest t groups c = parent) : l.Pairwise LeftOf := by
  cases l with
  | nil => exact List.Pairwise.nil
  | cons first rest =>
    obtain ⟨hfirst, hparent⟩ := hl first List.mem_cons_self
    apply @pairwise_leftOf _ hsorted first.length
    intro c hc
    obtain ⟨hkept, hparent'⟩ := hl c hc
    apply Nat.le_antisymm
    · exact length_le_of_nearest hleveled hkept hfirst (hparent'.trans hparent.symm)
    · exact length_le_of_nearest hleveled hfirst hkept (hparent.trans hparent'.symm)

theorem Linked.faithful (hleveled : t.Leveled) (hf : Linked t groups (filterTreeGroups t groups)) :
    Faithful t groups where
  roots p := by
    rw [hf.mem_roots]
    refine and_congr_right (fun hp => ?_)
    rw [← isParent_none_iff hleveled hp.1]
    exact ⟨fun h => h ▸ isParent_nearest hp.1, fun h => isParent_unique (isParent_nearest hp.1) h⟩
  only := hf.only
  once := hf.once
  parent p hp := by
    rw [hf.parent p hp]
    exact isParent_nearest hp.1
  children p hp c := by
    rw [hf.mem_kids p hp]
    exact and_congr_right (fun hc => (isParent_some_iff hc.1).symm)
  order := by
    constructor
    · exact pairwise_leftOf_of_nearest hleveled hf.sorted_roots
        (fun c hc => (hf.mem_roots c).mp hc)
    · exact fun p hp => pairwise_leftOf_of_nearest hleveled (hf.sorted_kids p hp)
        (fun c hc => (hf.mem_kids p hp c).mp hc)

/-- **Where kept levels are apart**, no node is pushed to where it is already. -/
theorem linked_of_careful (hleveled : t.Leveled) {g : String}
    (hroots : ∀ p, Kept t groups p →
      (groupOf t p = g ↔ ∀ q, Kept t groups q → p.length ≤ q.length))
    (hcareful : Careful t groups) :
    Linked t groups ⟨(keptNodes t groups).filter (fun node => groupOf t node = g),
      after t groups (keptNodes t groups)⟩ := by
  have hkids : ∀ roots p, Kept t groups p →
      (Filtered.mk roots (after t groups (keptNodes t groups))).kids p =
        (keptNodes t groups).filter (fun v => nearest t groups v = some p) := by
    intro roots p hp
    have hnone : (below t p).filter (included t groups) = [] := by
      apply List.filter_eq_nil_iff.mpr
      intro c hc hincluded
      obtain ⟨i, rfl, hsome⟩ := (mem_below t).mp hc
      apply hcareful.apart p (p ++ [i]) hp ⟨hsome, included_iff.mp hincluded⟩
      simp
    rw [kids_eq hp, hnone, List.nil_append]
  refine ⟨fun p => ?_, fun p hp c => ?_, keptNodes_sorted.filter _, fun p hp => ?_, fun p hp => ?_⟩
  · rw [List.mem_filter, mem_keptNodes, decide_eq_true_eq]
    refine and_congr_right (fun hp => ?_)
    rw [hroots p hp, ← isParent_none_iff hleveled hp.1]
    exact ⟨fun h => isParent_unique (isParent_nearest hp.1) h, fun h => h ▸ isParent_nearest hp.1⟩
  · rw [hkids _ p hp, List.mem_filter, mem_keptNodes, decide_eq_true_eq]
  · rw [hkids _ p hp]
    exact keptNodes_sorted.filter _
  · exact if_pos (mem_keptNodes.mpr hp)

/-- A kept child of a kept node has two places. -/
theorem not_once {roots : List Way} {p : Way} {i : Nat} (hp : Kept t groups p)
    (hc : Kept t groups (p ++ [i])) {place : List Nat}
    (hplace : (Filtered.mk roots (after t groups (keptNodes t groups))).node place = some p) :
    ¬ ∃! place, (Filtered.mk roots (after t groups (keptNodes t groups))).node place =
      some (p ++ [i]) := by
  have hne : place ≠ [] := by
    rintro rfl
    cases hplace
  -- the filter leaves it, and it is pushed
  have hold : p ++ [i] ∈ (below t p).filter (included t groups) :=
    List.mem_filter.mpr ⟨(mem_below t).mpr ⟨i, rfl, hc.1⟩, included_iff.mpr hc.2⟩
  have hpushed : p ++ [i] ∈ (keptNodes t groups).filter (fun v => nearest t groups v = some p) := by
    refine List.mem_filter.mpr ⟨mem_keptNodes.mpr hc, decide_eq_true ?_⟩
    rw [nearest_concat, if_pos (included_iff.mpr hp.2)]
  obtain ⟨j, hj⟩ := List.mem_iff_getElem?.mp hold
  obtain ⟨j', hj'⟩ := List.mem_iff_getElem?.mp hpushed
  have hlt := (List.getElem?_eq_some_iff.mp hj).1
  rintro ⟨only, -, hunique⟩
  have hfirst := hunique (place ++ [j]) (by
    show (Filtered.mk roots (after t groups (keptNodes t groups))).node (place ++ [j]) = _
    rw [Filtered.node_concat _ hne, hplace, Option.bind_some, kids_eq hp,
      List.getElem?_append_left hlt, hj])
  have hsecond := hunique
    (place ++ [((below t p).filter (included t groups)).length + j']) (by
    show (Filtered.mk roots (after t groups (keptNodes t groups))).node (place ++ [_]) = _
    rw [Filtered.node_concat _ hne, hplace, Option.bind_some, kids_eq hp,
      List.getElem?_append_right (Nat.le_add_right _ _), Nat.add_sub_cancel_left, hj'])
  have hsame := List.append_cancel_left (hfirst.trans hsecond.symm)
  rw [List.cons.injEq] at hsame
  omega

end Leveled

/-- **The structure is kept** exactly if no two kept levels follow one another and the outermost kept
group is not the empty string. -/
theorem structure_kept_iff {t : HierarchyNode} (hleveled : t.Leveled) {groups : List String}
    (hne : groups ≠ []) (hoccur : ∀ g ∈ groups, ∃ p, (t.follow p).isSome ∧ groupOf t p = g) :
    Faithful t groups ↔ Careful t groups := by
  obtain ⟨g, hg, hfirst, hfilter⟩ := @filterTreeGroups_eq t _ hne
  have hroots : ∀ p, Kept t groups p →
      (groupOf t p = g ↔ ∀ q, Kept t groups q → p.length ≤ q.length) :=
    fun p hp => groupOf_first hleveled hoccur hg hfirst hp
  obtain ⟨first, hsome, hgroup⟩ := hoccur g hg
  have hkept : Kept t groups first := ⟨hsome, hgroup ▸ hg⟩
  constructor
  · intro hfaithful
    have hnamed : g ≠ "" := by
      rintro rfl
      have hmem := (hfaithful.roots first).mpr ⟨hkept, (hroots first hkept).mp hgroup⟩
      rw [hfilter, if_pos rfl] at hmem
      cases hmem
    rw [if_neg hnamed] at hfilter
    constructor
    · intro p q hp hq hlength
      have hcne : q ≠ [] := by
        rintro rfl
        cases hlength
      have hsplit := List.dropLast_append_getLast hcne
      -- the parent is at the other level, and so it is kept
      have hparent : Kept t groups q.dropLast := by
        apply hp.of_length hleveled
        · exact isSome_of_begins hq.1 ⟨_, hsplit⟩
        · rw [List.length_dropLast, hlength]
          rfl
      obtain ⟨place, hplace, -⟩ := hfaithful.once _ hparent
      have honce := hfaithful.once q hq
      rw [hfilter] at hplace honce
      rw [← hsplit] at hq honce
      exact not_once hparent hq hplace honce
    · intro p hp hmin hempty
      exact hnamed (((hroots p hp).mpr hmin).symm.trans hempty)
  · intro hcareful
    have hnamed : g ≠ "" := fun heq =>
      hcareful.named first hkept ((hroots first hkept).mp hgroup) (hgroup.trans heq)
    rw [if_neg hnamed] at hfilter
    apply Linked.faithful hleveled
    rw [hfilter]
    exact linked_of_careful hleveled hroots hcareful

theorem structure_kept_iff_system :
    Faithful HierarchyNode.system ["room", "balancer"] ↔
      Careful HierarchyNode.system ["room", "balancer"] := by
  apply structure_kept_iff HierarchyNode.leveled_system
  · exact List.cons_ne_nil _ _
  · intro g hg
    rcases List.mem_cons.mp hg with rfl | hg
    · exact ⟨[0, 0], by decide +kernel, by decide +kernel⟩
    · rw [List.mem_singleton.mp hg]
      exact ⟨[], by decide +kernel, by decide +kernel⟩

/-- Monoliths and their rooms. -/
theorem structure_not_kept : HierarchyNode.system.Leveled ∧
    (∀ g ∈ ["monolith", "room"], ∃ p, (HierarchyNode.system.follow p).isSome ∧
      groupOf HierarchyNode.system p = g) ∧
    ¬ Faithful HierarchyNode.system ["monolith", "room"] := by
  refine ⟨HierarchyNode.leveled_system, fun g hg => ?_, fun h => ?_⟩
  · rcases List.mem_cons.mp hg with rfl | hg
    · exact ⟨[0], by decide +kernel, by decide +kernel⟩
    · rw [List.mem_singleton.mp hg]
      exact ⟨[0, 0], by decide +kernel, by decide +kernel⟩
  · obtain ⟨place, -, hunique⟩ := h.once [0, 0] ⟨by decide +kernel, by decide +kernel⟩
    have hfirst : [0, 0] = place := hunique [0, 0] (by decide +kernel)
    have hsecond : [0, 1] = place := hunique [0, 1] (by decide +kernel)
    exact absurd (hfirst.trans hsecond.symm) (by decide)

end OpenTogetherTube.Panel.FilterTreeGroups
