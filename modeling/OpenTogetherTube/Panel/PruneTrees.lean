import OpenTogetherTube.Panel.Hierarchy

/-!
# Cutting levels out of a tree

`pruneTrees` copies the subtrees at the level of one group and cuts them below the level of another. It
finds the two levels by the positions of their groups, and the copies start again at depth `0`: so it
looks for what is as deep in a copy as the levels are apart. The lists of children are dropped while the
copy is walked, which then does not go on below (`eachFrom_cut`).

Of a tree whose levels are told by their groups, exactly the levels between the two are left
(`prunes`).
-/

namespace OpenTogetherTube.Panel

open OpenTogetherTube.Lib

namespace HierarchyNode

/-! ## The functions of d3 -/

/-- The hierarchy of a node at some depth. No list is made for no children. -/
def copyAt : Nat → HierarchyNode → HierarchyNode
  | depth, leaf data _ => leaf data depth
  | depth, node data _ children =>
    if children.isEmpty then leaf data depth
    else node data depth (children.map (copyAt (depth + 1)))

/-- `copy` -/
def copy (t : HierarchyNode) : HierarchyNode := t.copyAt 0

/-- The nodes of a level with what the walk has made of those below them. -/
def refill : List HierarchyNode → List HierarchyNode → List HierarchyNode
  | [], _ => []
  | leaf data depth :: visited, below => leaf data depth :: refill visited below
  | node data depth children :: visited, below =>
    node data depth (below.take children.length) :: refill visited (below.drop children.length)

/-- `each`, from a level on. A node is visited before its children are read. -/
def eachFrom (callback : HierarchyNode → HierarchyNode) :
    Nat → List HierarchyNode → List HierarchyNode
  | 0, current => current
  | n + 1, current =>
    let visited := current.map callback
    refill visited (eachFrom callback n (visited.flatMap children))

/-- `each`, with a callback that changes the node it is given. -/
def each (callback : HierarchyNode → HierarchyNode) (t : HierarchyNode) : HierarchyNode :=
  (eachFrom callback (t.height + 1) [t]).headD t

/-! ## Pruning -/

/-- What is done to every node of a copy. -/
def cut (depth : Int) : HierarchyNode → HierarchyNode
  | leaf data d => leaf data d
  | node data d children => if (d : Int) = depth then leaf data d else node data d children

def pruneTree (root : HierarchyNode) (fromGroup toGroup : String) : List HierarchyNode :=
  let groups := root.traverseGroups
  let fromIndex := Levels.indexOf groups fromGroup
  let toIndex := Levels.indexOf groups toGroup
  let fromNodes := root.descendants.filter (fun node => (node.depth : Int) = fromIndex)
  fromNodes.map (fun fromNode => fromNode.copy.each (cut (toIndex - fromNode.depth)))

/-- What `pruneTrees` takes. -/
inductive Roots where
  | one (root : HierarchyNode)
  | many (roots : List HierarchyNode)

def pruneTrees (roots : Roots) (fromGroup toGroup : String) : List HierarchyNode :=
  match roots with
  | .one root => root.pruneTree fromGroup toGroup
  | .many roots => roots.foldl (fun trees root => trees ++ root.pruneTree fromGroup toGroup) []

/-! ## What the walk leaves -/

/-- A tree without what is below a depth. -/
def cutBelow (depth : Int) : HierarchyNode → HierarchyNode
  | leaf data d => leaf data d
  | node data d children =>
    if (d : Int) = depth then leaf data d else node data d (children.map (cutBelow depth))

/-- The same on the children only. -/
def onChildren (f : HierarchyNode → HierarchyNode) : HierarchyNode → HierarchyNode
  | leaf data depth => leaf data depth
  | node data depth children => node data depth (children.map f)

theorem refill_map (f : HierarchyNode → HierarchyNode) (visited : List HierarchyNode) :
    refill visited ((visited.flatMap children).map f) = visited.map (onChildren f) := by
  induction visited with
  | nil => rfl
  | cons t visited ih =>
    cases t with
    | leaf data depth =>
      rw [List.flatMap_cons, List.map_cons, ← ih]
      rfl
    | node data depth cs =>
      have hlength : cs.length = (cs.map f).length := (List.length_map f).symm
      rw [List.flatMap_cons, List.map_append, List.map_cons, ← ih, children, refill, hlength,
        List.take_left, List.drop_left]
      rfl

theorem onChildren_cut (depth : Int) (t : HierarchyNode) :
    onChildren (cutBelow depth) (cut depth t) = cutBelow depth t := by
  cases t with
  | leaf data d =>
    rw [cutBelow]
    rfl
  | node data d children =>
    rw [cutBelow, cut]
    split <;> rfl

theorem children_cut {depth : Int} {t c : HierarchyNode} (h : c ∈ (cut depth t).children) :
    c ∈ t.children := by
  cases t with
  | leaf data d => exact h
  | node data d children =>
    rw [cut] at h
    split at h
    · exact absurd h List.not_mem_nil
    · exact h

/-- **The walk cuts every node at the depth**, and goes on everywhere else. -/
theorem eachFrom_cut (depth : Int) {n : Nat} {current : List HierarchyNode}
    (h : ∀ t ∈ current, t.height < n) :
    eachFrom (cut depth) n current = current.map (cutBelow depth) := by
  induction n generalizing current with
  | zero =>
    cases current with
    | nil => rfl
    | cons t current => exact absurd (h t List.mem_cons_self) (Nat.not_lt_zero _)
  | succ n ih =>
    have hbelow : ∀ c ∈ (current.map (cut depth)).flatMap children, c.height < n := by
      intro c hc
      obtain ⟨t', ht', hc⟩ := List.mem_flatMap.mp hc
      obtain ⟨t, ht, rfl⟩ := List.mem_map.mp ht'
      have hlt := height_lt (children_cut hc)
      have hle := h t ht
      omega
    rw [eachFrom, ih hbelow, refill_map, List.map_map]
    exact List.map_congr_left (fun t _ => onChildren_cut depth t)

theorem each_cut (depth : Int) (t : HierarchyNode) : t.each (cut depth) = cutBelow depth t := by
  have hheight : ∀ u ∈ [t], u.height < t.height + 1 := by
    intro u hu
    rw [List.mem_singleton.mp hu]
    exact Nat.lt_succ_self _
  rw [each, eachFrom_cut depth hheight]
  rfl

theorem children_copyAt (depth : Nat) (t : HierarchyNode) :
    (copyAt depth t).children = t.children.map (copyAt (depth + 1)) := by
  cases t with
  | leaf data d =>
    rw [copyAt]
    rfl
  | node data d cs =>
    rw [copyAt]
    split
    · next hempty =>
      rw [List.isEmpty_iff] at hempty
      rw [children, children, hempty]
      rfl
    · rfl

theorem copyAt_data_depth (depth : Nat) (t : HierarchyNode) :
    (copyAt depth t).data = t.data ∧ (copyAt depth t).depth = depth := by
  cases t with
  | leaf data d =>
    rw [copyAt]
    exact ⟨rfl, rfl⟩
  | node data d cs =>
    rw [copyAt]
    split
    · exact ⟨rfl, rfl⟩
    · exact ⟨rfl, rfl⟩

theorem cutBelow_data (depth : Int) (t : HierarchyNode) : (cutBelow depth t).data = t.data := by
  cases t with
  | leaf data d =>
    rw [cutBelow]
  | node data d cs =>
    rw [cutBelow]
    split <;> rfl

theorem children_cutBelow {depth : Int} {t : HierarchyNode} (h : (t.depth : Int) ≠ depth) :
    (cutBelow depth t).children = t.children.map (cutBelow depth) := by
  cases t with
  | leaf data d =>
    rw [cutBelow]
    rfl
  | node data d cs =>
    rw [cutBelow]
    exact congrArg children (if_neg h)

theorem cutBelow_self {depth : Int} {t : HierarchyNode} (h : (t.depth : Int) = depth) :
    cutBelow depth t = leaf t.data t.depth := by
  cases t with
  | leaf data d =>
    rw [cutBelow]
    rfl
  | node data d cs =>
    rw [cutBelow]
    exact if_pos h

/-- A copy, cut so many levels further down: the nodes up to there. -/
theorem follow_cutBelow_copyAt (d levels : Nat) (t : HierarchyNode) {p : List Nat}
    (hp : p.length ≤ levels) :
    (cutBelow ((d + levels : Nat) : Int) (copyAt d t)).follow p =
      (t.follow p).map (fun n => cutBelow ((d + levels : Nat) : Int) (copyAt (d + p.length) n)) := by
  induction p generalizing d levels t with
  | nil => rfl
  | cons i p ih =>
    obtain ⟨levels, rfl⟩ : ∃ n, levels = n + 1 := ⟨levels - 1, by simp at hp; omega⟩
    have hdepth : ((copyAt d t).depth : Int) ≠ ((d + (levels + 1) : Nat) : Int) := by
      rw [(copyAt_data_depth d t).2]
      omega
    have hshift : d + (levels + 1) = d + 1 + levels := by omega
    have hlength : d + (i :: p).length = d + 1 + p.length := by
      rw [List.length_cons]
      omega
    rw [follow, follow, children_cutBelow hdepth, children_copyAt, List.map_map, List.getElem?_map]
    cases t.children[i]? with
    | none => rfl
    | some c =>
      have hrest := ih (d + 1) levels c (Nat.le_of_succ_le_succ hp)
      rw [Option.map_some, Option.bind_some, Option.bind_some, Function.comp_apply, hshift, hrest,
        hlength]

/-! ## Exactly the requested levels -/

/-- Depths are counted from the root. -/
def Rooted (t : HierarchyNode) : Prop := ∀ p n, t.follow p = some n → n.depth = p.length

/-- There is a node of the group at the depth. -/
def GroupAt (t : HierarchyNode) (group : String) (d : Nat) : Prop :=
  ∃ p n, p.length = d ∧ t.follow p = some n ∧ n.data.group = group

/-- The same data at the end of the same ways, so many levels down, where the children are lost. -/
structure Cut (levels : Nat) (n result : HierarchyNode) : Prop where
  complete : ∀ p, p.length ≤ levels → (result.follow p).map data = (n.follow p).map data
  lost : ∀ p m, p.length = levels → result.follow p = some m → ∃ data depth, m = leaf data depth

/-- For each node of the one level, from left to right, its subtree down to the other level. -/
def Pruned (t : HierarchyNode) (fromGroup toGroup : String) (result : List HierarchyNode) : Prop :=
  ∀ a b, t.GroupAt fromGroup a → t.GroupAt toGroup b → a ≤ b →
    List.Forall₂ (Cut (b - a)) (t.level a) result

/-- A copy that is walked is cut. -/
theorem cut_copy (n : HierarchyNode) (levels : Nat) : Cut levels n (n.copy.each (cut levels)) := by
  have hfollow : ∀ p : List Nat, p.length ≤ levels → (n.copy.each (cut levels)).follow p =
      (n.follow p).map (fun m => cutBelow levels (copyAt p.length m)) := by
    intro p hp
    have h := follow_cutBelow_copyAt 0 levels n hp
    rw [Nat.zero_add, Nat.zero_add] at h
    rw [each_cut]
    exact h
  refine ⟨fun p hp => ?_, fun p m hp hm => ?_⟩
  · rw [hfollow p hp, Option.map_map]
    congr 1
    funext m
    rw [Function.comp_apply, cutBelow_data, (copyAt_data_depth _ m).1]
  · rw [hfollow p (Nat.le_of_eq hp)] at hm
    obtain ⟨m', -, rfl⟩ := Option.map_eq_some_iff.mp hm
    refine ⟨_, _, cutBelow_self ?_⟩
    rw [(copyAt_data_depth _ m').2, hp]

/-- The nodes that are as deep as a level are those of the level. -/
theorem Rooted.filter_descendants {t : HierarchyNode} (h : t.Rooted) {a : Nat}
    (ha : a ≤ t.height) :
    t.descendants.filter (fun node => (node.depth : Int) = a) = t.level a := by
  have hlevel : ∀ d, (t.level d).filter (fun node => (node.depth : Int) = a) =
      if d = a then t.level d else [] := by
    intro d
    have hdepth : ∀ n ∈ t.level d, n.depth = d := by
      intro n hn
      obtain ⟨p, rfl, hfollow⟩ := mem_level.mp hn
      exact h p n hfollow
    split
    · next heq =>
      apply List.filter_eq_self.mpr
      intro n hn
      rw [hdepth n hn, heq]
      exact decide_eq_true rfl
    · next hne =>
      apply List.filter_eq_nil_iff.mpr
      intro n hn heq
      have hda := of_decide_eq_true heq
      rw [hdepth n hn] at hda
      exact hne (Int.ofNat_inj.mp hda)
  -- one of the levels is the one
  have hone : ∀ k, ((List.range k).flatMap (fun d => if d = a then t.level d else [])) =
      if a < k then t.level a else [] := by
    intro k
    induction k with
    | zero => rfl
    | succ k ih =>
      rw [List.range_succ, List.flatMap_append, ih, List.flatMap_singleton]
      by_cases hk : k = a
      · simp [hk]
      · have hlt : a < k + 1 ↔ a < k := by omega
        simp [hk, hlt]
  rw [descendants_eq, List.filter_flatMap]
  simp only [hlevel]
  rw [hone, if_pos (Nat.lt_succ_of_le ha)]

/-- **One tree.** -/
theorem pruned {t : HierarchyNode} (hleveled : t.Leveled) (hrooted : t.Rooted)
    (fromGroup toGroup : String) : t.Pruned fromGroup toGroup (t.pruneTree fromGroup toGroup) := by
  rintro a b ⟨p, m, rfl, hm, rfl⟩ ⟨q, n, rfl, hn, rfl⟩ hle
  have hfrom : ∀ u ∈ t.level p.length, u.depth = p.length := by
    intro u hu
    obtain ⟨p', hp', hfollow⟩ := mem_level.mp hu
    rw [← hp']
    exact hrooted p' u hfollow
  unfold pruneTree
  dsimp only
  rw [hleveled.indexOf_eq hm, hleveled.indexOf_eq hn,
    hrooted.filter_descendants (length_le_height hm), List.forall₂_map_right_iff,
    List.forall₂_same]
  intro u hu
  have hlevels : (q.length : Int) - u.depth = ((q.length - p.length : Nat) : Int) := by
    rw [hfrom u hu]
    omega
  rw [hlevels]
  exact cut_copy u _

/-- **Exactly the requested levels** are left of trees whose levels are told by their groups; an array
gives what its trees give. -/
theorem prunes {roots : List HierarchyNode} (h : ∀ t ∈ roots, t.Leveled ∧ t.Rooted)
    (fromGroup toGroup : String) :
    (∀ t ∈ roots, t.Pruned fromGroup toGroup (pruneTrees (.one t) fromGroup toGroup)) ∧
    pruneTrees (.many roots) fromGroup toGroup =
      roots.flatMap (fun t => pruneTrees (.one t) fromGroup toGroup) := by
  constructor
  · exact fun t ht => pruned (h t ht).1 (h t ht).2 fromGroup toGroup
  · have hfold : ∀ trees, roots.foldl (fun trees root => trees ++ root.pruneTree fromGroup toGroup)
        trees = trees ++ roots.flatMap (fun t => t.pruneTree fromGroup toGroup) := by
      clear h
      induction roots with
      | nil => simp
      | cons root roots ih =>
        intro trees
        rw [List.foldl_cons, ih, List.flatMap_cons, List.append_assoc]
    exact hfold []

theorem prunes_system : system.GroupAt "monolith" 1 ∧
    system.Pruned "monolith" "monolith" (pruneTrees (.one system) "monolith" "monolith") ∧
    pruneTrees (.many [system, system]) "monolith" "room" =
      [system, system].flatMap (fun t => pruneTrees (.one t) "monolith" "room") := by
  have hrooted : system.Rooted := by
    intro p n hn
    have hdepth : ∀ d ≤ system.height, ∀ n ∈ system.level d, n.depth = d := by decide
    exact hdepth _ (length_le_height hn) n (mem_level.mpr ⟨p, rfl, hn⟩)
  have hboth : ∀ t ∈ [system, system], t.Leveled ∧ t.Rooted := by
    intro t ht
    have heq : t = system := by simpa using ht
    rw [heq]
    exact ⟨leveled_system, hrooted⟩
  exact ⟨⟨[1], _, rfl, rfl, rfl⟩, (prunes hboth "monolith" "monolith").1 _ List.mem_cons_self,
    (prunes hboth "monolith" "room").2⟩

end HierarchyNode

end OpenTogetherTube.Panel
