import OpenTogetherTube.Lib.Levels

/-!
# Trees of the panel

The panel draws the system as trees of d3. A node has the datum it was made from, its depth, and its
children, where a node without children mostly has no list of children at all. Nodes are named by the
way from the root: the list of the indices of the children that were taken.

The functions of the panel tell levels by the groups of their nodes (`Leveled`). The groups in the order
in which a breadth-first walk meets them are then those of the levels (`traverseGroups_eq`).
-/

namespace OpenTogetherTube.Panel

open OpenTogetherTube.Lib

/-- What a node is made from. Its own list of children is not read again. -/
structure TreeNode where
  id : String
  region : String
  group : String
  deriving DecidableEq, Repr

/-- A node of d3. The `children` of a leaf are `undefined`. -/
inductive HierarchyNode where
  | leaf (data : TreeNode) (depth : Nat)
  | node (data : TreeNode) (depth : Nat) (children : List HierarchyNode)

namespace HierarchyNode

def data : HierarchyNode → TreeNode
  | leaf data _ | node data _ _ => data

def depth : HierarchyNode → Nat
  | leaf _ depth | node _ depth _ => depth

/-- The children that there are. -/
def children : HierarchyNode → List HierarchyNode
  | leaf _ _ => []
  | node _ _ children => children

/-- Induction on the children. -/
theorem induction {motive : HierarchyNode → Prop} (leaf : ∀ data depth, motive (leaf data depth))
    (node : ∀ data depth children, (∀ c ∈ children, motive c) → motive (node data depth children)) :
    ∀ t, motive t
  | .leaf data depth => leaf data depth
  | .node data depth children =>
    node data depth children (fun c _ => induction leaf node c)

/-- Induction on the children, without regard to how they are kept. -/
theorem children_induction {motive : HierarchyNode → Prop}
    (step : ∀ t : HierarchyNode, (∀ c ∈ t.children, motive c) → motive t) (t : HierarchyNode) :
    motive t := by
  induction t using induction with
  | leaf data depth => exact step _ (fun c hc => absurd hc List.not_mem_nil)
  | node data depth children ih => exact step _ ih

mutual

/-- How far down the leaves are. -/
def height : HierarchyNode → Nat
  | leaf _ _ => 0
  | node _ _ children => heights children

/-- The same of the node that has these children. -/
def heights : List HierarchyNode → Nat
  | [] => 0
  | c :: children => max (height c + 1) (heights children)

end

theorem heights_le {l : List HierarchyNode} {n : Nat} :
    heights l ≤ n ↔ ∀ c ∈ l, c.height + 1 ≤ n := by
  induction l with
  | nil => simp [heights]
  | cons c l ih =>
    rw [heights, Nat.max_le, ih]
    simp

theorem height_eq (t : HierarchyNode) : t.height = heights t.children := by
  cases t with
  | leaf data depth => rfl
  | node data depth children => rfl

theorem height_lt {t c : HierarchyNode} (h : c ∈ t.children) : c.height < t.height := by
  rw [height_eq t]
  exact heights_le.mp (Nat.le_refl _) c h

/-! ## Ways from the root -/

/-- The node at the end of a way. -/
def follow : HierarchyNode → List Nat → Option HierarchyNode
  | t, [] => some t
  | t, i :: way => t.children[i]?.bind (fun c => c.follow way)

theorem follow_append (t : HierarchyNode) (p q : List Nat) :
    t.follow (p ++ q) = (t.follow p).bind (fun n => n.follow q) := by
  induction p generalizing t with
  | nil => rfl
  | cons i p ih =>
    rw [List.cons_append, follow, follow]
    cases t.children[i]? with
    | none => rfl
    | some c => exact ih c

theorem follow_concat (t : HierarchyNode) (p : List Nat) (i : Nat) :
    t.follow (p ++ [i]) = (t.follow p).bind (fun n => n.children[i]?) := by
  rw [follow_append]
  congr 1
  funext n
  rw [follow]
  cases n.children[i]? <;> rfl

/-- A way as long as the tree is high. -/
theorem exists_follow (t : HierarchyNode) {d : Nat} (hd : d ≤ t.height) :
    ∃ p n, p.length = d ∧ t.follow p = some n := by
  induction t using children_induction generalizing d with
  | step t ih =>
    cases d with
    | zero => exact ⟨[], t, rfl, rfl⟩
    | succ d =>
      have hchild : ∃ c ∈ t.children, d ≤ c.height := by
        by_contra hnone
        push Not at hnone
        have hle : t.height ≤ d := by
          rw [height_eq, heights_le]
          exact hnone
        omega
      obtain ⟨c, hc, hle⟩ := hchild
      obtain ⟨p, n, hp, hn⟩ := ih c hc hle
      obtain ⟨i, hi⟩ := List.mem_iff_getElem?.mp hc
      refine ⟨i :: p, n, by rw [List.length_cons, hp], ?_⟩
      rw [follow, hi]
      exact hn

theorem length_le_height {t n : HierarchyNode} {p : List Nat} (h : t.follow p = some n) :
    p.length ≤ t.height := by
  induction p generalizing t with
  | nil => exact Nat.zero_le _
  | cons i p ih =>
    rw [follow] at h
    obtain ⟨c, hc, h⟩ := Option.bind_eq_some_iff.mp h
    have hlt := height_lt (List.mem_of_getElem? hc)
    have hle := ih h
    rw [List.length_cons]
    omega

/-! ## Walking -/

/-- The nodes so many levels down, from left to right. -/
def level (t : HierarchyNode) (d : Nat) : List HierarchyNode := Levels.level children d [t]

/-- `descendants`: breadth first, with the node itself. -/
def descendants (t : HierarchyNode) : List HierarchyNode :=
  Levels.walk children (t.height + 1) [t]

theorem mem_level {t n : HierarchyNode} {d : Nat} :
    n ∈ t.level d ↔ ∃ p, p.length = d ∧ t.follow p = some n := by
  unfold level
  induction d generalizing n with
  | zero =>
    constructor
    · intro hn
      exact ⟨[], rfl, congrArg some (List.mem_singleton.mp hn).symm⟩
    · rintro ⟨p, hp, hn⟩
      cases List.length_eq_zero_iff.mp hp
      exact List.mem_singleton.mpr (Option.some.inj hn).symm
  | succ d ih =>
    rw [Levels.level_succ, List.mem_flatMap]
    constructor
    · rintro ⟨m, hm, hn⟩
      obtain ⟨p, hp, hfollow⟩ := ih.mp hm
      obtain ⟨i, hi⟩ := List.mem_iff_getElem?.mp hn
      refine ⟨p ++ [i], by simp [hp], ?_⟩
      rw [follow_concat, hfollow]
      exact hi
    · rintro ⟨p, hp, hn⟩
      obtain ⟨q, i, rfl⟩ : ∃ q i, p = q ++ [i] := by
        have hne : p ≠ [] := by
          rintro rfl
          cases hp
        exact ⟨p.dropLast, p.getLast hne, (List.dropLast_append_getLast hne).symm⟩
      rw [follow_concat] at hn
      obtain ⟨m, hm, hi⟩ := Option.bind_eq_some_iff.mp hn
      refine ⟨m, ih.mpr ⟨q, ?_, hm⟩, List.mem_of_getElem? hi⟩
      rw [List.length_append] at hp
      exact Nat.succ.inj hp

theorem level_ne_nil {t : HierarchyNode} {d : Nat} (h : d ≤ t.height) : t.level d ≠ [] := by
  obtain ⟨p, n, hp, hn⟩ := t.exists_follow h
  exact List.ne_nil_of_mem (mem_level.mpr ⟨p, hp, hn⟩)

theorem descendants_eq (t : HierarchyNode) :
    t.descendants = (List.range (t.height + 1)).flatMap t.level :=
  Levels.walk_eq children (t.height + 1) [t]

/-! ## Groups and levels -/

def traverseGroups (tree : HierarchyNode) : List String :=
  Levels.firsts (tree.descendants.map (fun node => node.data.group))

/-- All nodes of a level are of one group, and those of different levels of different groups. -/
def Leveled (t : HierarchyNode) : Prop :=
  ∀ p q m n, t.follow p = some m → t.follow q = some n →
    (m.data.group = n.data.group ↔ p.length = q.length)

/-- It suffices to look at the levels. -/
theorem leveled_of_levels {t : HierarchyNode} {group : Nat → String}
    (hgroup : ∀ d ≤ t.height, ∀ n ∈ t.level d, n.data.group = group d)
    (hdistinct : ∀ d ≤ t.height, ∀ d' ≤ t.height, group d = group d' → d = d') : t.Leveled := by
  intro p q m n hm hn
  have hp := length_le_height hm
  have hq := length_le_height hn
  rw [hgroup _ hp m (mem_level.mpr ⟨p, rfl, hm⟩), hgroup _ hq n (mem_level.mpr ⟨q, rfl, hn⟩)]
  constructor
  · exact hdistinct _ hp _ hq
  · exact congrArg group

/-- The group of a level. -/
def groupAt (t : HierarchyNode) (d : Nat) : String :=
  ((t.level d).head?.map (fun n => n.data.group)).getD ""

theorem Leveled.group_eq {t n : HierarchyNode} (h : t.Leveled) {p : List Nat}
    (hn : t.follow p = some n) : n.data.group = t.groupAt p.length := by
  have hmem : n ∈ t.level p.length := mem_level.mpr ⟨p, rfl, hn⟩
  cases hlevel : t.level p.length with
  | nil =>
    rw [hlevel] at hmem
    cases hmem
  | cons m l =>
    obtain ⟨q, hq, hm⟩ := mem_level.mp (hlevel ▸ List.mem_cons_self : m ∈ t.level p.length)
    rw [groupAt, hlevel]
    exact (h p q n m hn hm).mpr hq.symm

theorem Leveled.groupAt_injective {t : HierarchyNode} (h : t.Leveled) {d d' : Nat}
    (hd : d < t.height + 1) (hd' : d' < t.height + 1) (heq : t.groupAt d = t.groupAt d') :
    d = d' := by
  obtain ⟨p, m, rfl, hm⟩ := t.exists_follow (Nat.le_of_lt_succ hd)
  obtain ⟨q, n, rfl, hn⟩ := t.exists_follow (Nat.le_of_lt_succ hd')
  rw [← h.group_eq hm, ← h.group_eq hn] at heq
  exact (h p q m n hm hn).mp heq

/-- **The groups are met in the order of their levels.** -/
theorem Leveled.traverseGroups_eq {t : HierarchyNode} (h : t.Leveled) :
    t.traverseGroups = (List.range (t.height + 1)).map t.groupAt := by
  rw [traverseGroups, descendants_eq, List.map_flatMap]
  apply Levels.firsts_blocks
  · intro d hd
    have hne := level_ne_nil (Nat.le_of_lt_succ hd)
    simpa using hne
  · intro d _ group hgroup
    obtain ⟨n, hn, rfl⟩ := List.mem_map.mp hgroup
    obtain ⟨p, rfl, hfollow⟩ := mem_level.mp hn
    exact h.group_eq hfollow
  · exact fun d hd d' hd' => h.groupAt_injective hd hd'

/-- The index of a group is the depth of its level. -/
theorem Leveled.indexOf_eq {t n : HierarchyNode} (h : t.Leveled) {p : List Nat}
    (hn : t.follow p = some n) : Levels.indexOf t.traverseGroups n.data.group = p.length := by
  rw [h.traverseGroups_eq, h.group_eq hn]
  exact Levels.indexOf_map (fun d hd d' hd' => h.groupAt_injective hd hd')
    (Nat.lt_succ_of_le (length_le_height hn))

/-- A balancer with two monoliths, one of which has a room. -/
def system : HierarchyNode :=
  node ⟨"balancer", "ewr", "balancer"⟩ 0
    [node ⟨"first", "ewr", "monolith"⟩ 1 [leaf ⟨"foo", "ewr", "room"⟩ 2],
      leaf ⟨"second", "ewr", "monolith"⟩ 1]

theorem leveled_system : system.Leveled :=
  @leveled_of_levels _ (fun d => ["balancer", "monolith", "room"].getD d "")
    (by decide) (by decide)

end HierarchyNode

end OpenTogetherTube.Panel
