import OpenTogetherTube.Panel.Hierarchy
import OpenTogetherTube.Lib.Grouping

/-!
# Merging trees

`mergeTrees` merges the trees whose roots have one id, and below them the nodes that have one id and one
parent. The first of such nodes takes the children of the others, then the children are merged, and so
on down. What a call on a child returns is not used; the child itself was changed.

A tree without children is passed over, so its root is lost unless another tree has the same root and
children. A node whose children are `undefined` takes none from the others, so these are lost when it
comes first (`client_lost`). Otherwise nothing is (`nothing_lost_iff`), and ids are never repeated.
-/

namespace OpenTogetherTube.Panel.MergeTrees

open OpenTogetherTube.Lib HierarchyNode

/-- `node.children?.push(...more)` -/
def push : HierarchyNode → List HierarchyNode → HierarchyNode
  | .leaf data depth, _ => .leaf data depth
  | .node data depth children, more => .node data depth (children ++ more)

/-- What `dedupeItems` does with an item. -/
def addItem {T : Type} (getKey : T → String) (reduce : T → T → T) (itemMap : OrderedMap String T)
    (item : T) : OrderedMap String T :=
  match itemMap.get? (getKey item) with
  | none => itemMap.set (getKey item) item
  | some existingItem => itemMap.set (getKey item) (reduce existingItem item)

def dedupeItems {T : Type} (items : List T) (getKey : T → String) (reduce : T → T → T) : List T :=
  (items.foldl (addItem getKey reduce) ∅).values

/-- What the first loop does with a tree. -/
def see (seen : OrderedMap String HierarchyNode) (tree : HierarchyNode) :
    OrderedMap String HierarchyNode :=
  if tree.children.isEmpty then seen
  else
    match seen.get? tree.data.id with
    | some existing => seen.set tree.data.id (push existing tree.children)
    | none => seen.set tree.data.id tree

/-- The first loop: trees by the ids of their roots. -/
def seen (trees : List HierarchyNode) : OrderedMap String HierarchyNode := trees.foldl see ∅

/-- A child that comes again leaves its children. -/
def addChild : OrderedMap String HierarchyNode → HierarchyNode → OrderedMap String HierarchyNode :=
  addItem (fun d => d.data.id) (fun a b => push a b.children)

/-- The children of a tree, without repetitions. -/
def deduped (children : List HierarchyNode) : List HierarchyNode :=
  dedupeItems children (fun d => d.data.id) (fun a b => push a b.children)

/-- `mergeTrees`, so many levels down. The call on a child changes the child, if it is not passed
over. -/
def mergeTreesFrom : Nat → List HierarchyNode → List HierarchyNode
  | 0, trees => trees
  | n + 1, trees =>
    (seen trees).values.map (fun tree =>
      .node tree.data tree.depth
        ((deduped tree.children).map (fun child => (mergeTreesFrom n [child]).headD child)))

/-- Every call goes one level down. -/
def mergeTrees (trees : List HierarchyNode) : List HierarchyNode :=
  mergeTreesFrom (heights trees) trees

/-! ## Paths of ids -/

/-- A path of ids from one of the nodes down. -/
inductive IsPath : List HierarchyNode → List String → Prop
  | root {nodes n} : n ∈ nodes → IsPath nodes [n.data.id]
  | child {nodes n path} : n ∈ nodes → IsPath n.children path → IsPath nodes (n.data.id :: path)

/-- The nodes at the end of a path, in the order in which they are merged. -/
def nodesAt : List HierarchyNode → List String → List HierarchyNode
  | _, [] => []
  | nodes, [i] => nodes.filter (fun n => n.data.id = i)
  | nodes, i :: path => nodesAt ((nodes.filter (fun n => n.data.id = i)).flatMap children) path

theorem nodesAt_cons_cons (nodes : List HierarchyNode) (i j : String) (path : List String) :
    nodesAt nodes (i :: j :: path) =
      nodesAt ((nodes.filter (fun n => n.data.id = i)).flatMap children) (j :: path) :=
  rfl

theorem not_isPath_nil {path : List String} : ¬ IsPath [] path := by
  generalize hl : ([] : List HierarchyNode) = l
  intro h
  cases h with
  | root hmem =>
    subst hl
    cases hmem
  | child hmem =>
    subst hl
    cases hmem

theorem isPath_singleton {nodes : List HierarchyNode} {i : String} :
    IsPath nodes [i] ↔ ∃ n ∈ nodes, n.data.id = i := by
  constructor
  · intro h
    cases h with
    | root hn => exact ⟨_, hn, rfl⟩
    | child hn hpath => cases hpath
  · rintro ⟨n, hn, rfl⟩
    exact .root hn

theorem isPath_cons_cons {nodes : List HierarchyNode} {i j : String} {path : List String} :
    IsPath nodes (i :: j :: path) ↔ ∃ n ∈ nodes, n.data.id = i ∧ IsPath n.children (j :: path) := by
  constructor
  · intro h
    cases h with
    | child hn hpath => exact ⟨_, hn, rfl, hpath⟩
  · rintro ⟨n, hn, rfl, hpath⟩
    exact .child hn hpath

theorem isPath_flatMap {nodes : List HierarchyNode} {path : List String} :
    IsPath (nodes.flatMap children) path ↔ ∃ n ∈ nodes, IsPath n.children path := by
  constructor
  · intro h
    generalize hl : nodes.flatMap children = l at h
    cases h with
    | root hn =>
      subst hl
      obtain ⟨n, hn, hc⟩ := List.mem_flatMap.mp hn
      exact ⟨n, hn, .root hc⟩
    | child hn hpath =>
      subst hl
      obtain ⟨n, hn, hc⟩ := List.mem_flatMap.mp hn
      exact ⟨n, hn, .child hc hpath⟩
  · rintro ⟨n, hn, h⟩
    generalize hl : n.children = l at h
    cases h with
    | root hc =>
      subst hl
      exact .root (List.mem_flatMap.mpr ⟨n, hn, hc⟩)
    | child hc hpath =>
      subst hl
      exact .child (List.mem_flatMap.mpr ⟨n, hn, hc⟩) hpath

/-- Below the nodes with one id. -/
theorem isPath_cons_cons_iff {nodes : List HierarchyNode} {i j : String} {path : List String} :
    IsPath nodes (i :: j :: path) ↔
      IsPath ((nodes.filter (fun n => n.data.id = i)).flatMap children) (j :: path) := by
  rw [isPath_cons_cons, isPath_flatMap]
  simp [and_assoc]

theorem isPath_iff {nodes : List HierarchyNode} {path : List String} :
    IsPath nodes path ↔ nodesAt nodes path ≠ [] := by
  induction path generalizing nodes with
  | nil =>
    constructor
    · intro h
      cases h
    · exact fun h => absurd rfl h
  | cons i path ih =>
    cases path with
    | nil =>
      rw [isPath_singleton, nodesAt]
      simp
    | cons j path =>
      rw [isPath_cons_cons_iff, ih]
      rfl

/-! ## Merging one level -/

/-- A node with the children of others, if it takes them. -/
def absorb (n : HierarchyNode) (rest : List HierarchyNode) : HierarchyNode :=
  rest.foldl (fun a b => push a b.children) n

theorem data_absorb (n : HierarchyNode) (rest : List HierarchyNode) :
    (absorb n rest).data = n.data := by
  induction rest generalizing n with
  | nil => rfl
  | cons b rest ih =>
    refine (ih (push n b.children)).trans ?_
    cases n <;> rfl

theorem absorb_leaf (data : TreeNode) (depth : Nat) (rest : List HierarchyNode) :
    absorb (.leaf data depth) rest = .leaf data depth := by
  induction rest with
  | nil => rfl
  | cons b rest ih => exact ih

theorem absorb_node (data : TreeNode) (depth : Nat) (cs rest : List HierarchyNode) :
    absorb (.node data depth cs) rest = .node data depth (cs ++ rest.flatMap children) := by
  induction rest generalizing cs with
  | nil => simp [absorb]
  | cons b rest ih =>
    refine (ih (cs ++ b.children)).trans ?_
    rw [List.flatMap_cons, List.append_assoc]

/-- Items are grouped by their keys. -/
theorem addItem_eq {T : Type} (getKey : T → String) (reduce : T → T → T) :
    addItem getKey reduce = Grouping.insertWith getKey reduce := by
  funext itemMap item
  unfold addItem Grouping.insertWith
  cases itemMap.get? (getKey item) <;> rfl

theorem dedupeItems_eq {T : Type} (items : List T) (getKey : T → String) (reduce : T → T → T) :
    dedupeItems items getKey reduce = (Grouping.group getKey reduce items).values := by
  rw [dedupeItems, addItem_eq]
  rfl

/-- The nodes with one id are merged into the first of them. -/
theorem get?_addChild (nodes : List HierarchyNode) (i : String) :
    (nodes.foldl addChild ∅).get? i =
      match nodes.filter (fun n => n.data.id = i) with
      | [] => none
      | n :: rest => some (absorb n rest) := by
  rw [addChild, addItem_eq]
  refine (Grouping.get?_group (fun d : HierarchyNode => d.data.id) (fun a b => push a b.children)
    nodes i).trans ?_
  cases nodes.filter (fun n => n.data.id = i) <;> rfl

theorem mem_deduped {nodes : List HierarchyNode} {m : HierarchyNode} :
    m ∈ deduped nodes ↔ ∃ i n rest,
      nodes.filter (fun n => n.data.id = i) = n :: rest ∧ m = absorb n rest := by
  rw [show deduped nodes = (nodes.foldl addChild ∅).values from rfl, OrderedMap.mem_values_iff]
  refine exists_congr (fun i => ?_)
  rw [get?_addChild]
  cases nodes.filter (fun n => n.data.id = i) with
  | nil => simp
  | cons n rest =>
    constructor
    · intro h
      exact ⟨n, rest, rfl, (Option.some.inj h).symm⟩
    · rintro ⟨n', rest', heq, rfl⟩
      obtain ⟨rfl, rfl⟩ := List.cons.inj heq
      rfl

theorem id_of_filter {nodes rest : List HierarchyNode} {i : String} {n : HierarchyNode}
    (h : nodes.filter (fun n => n.data.id = i) = n :: rest) : n.data.id = i := by
  have hmem : n ∈ nodes.filter (fun n => n.data.id = i) := h ▸ List.mem_cons_self
  exact of_decide_eq_true (List.mem_filter.mp hmem).2

/-- No id is repeated. -/
theorem nodup_deduped (nodes : List HierarchyNode) :
    ((deduped nodes).map (fun n => n.data.id)).Nodup := by
  have hpush : ∀ a b : HierarchyNode, a.data.id = b.data.id →
      (push a b.children).data.id = a.data.id := by
    intro a b _
    cases a <;> rfl
  rw [deduped, dedupeItems_eq, Grouping.map_key_values hpush]
  exact Levels.nodup_firsts _

/-! ## Merging all levels -/

/-- What a call leaves of a child. -/
def mergeChild (n : Nat) (child : HierarchyNode) : HierarchyNode :=
  (mergeTreesFrom n [child]).headD child

/-- What is left of the children of a node. -/
def mergeAll (n : Nat) (nodes : List HierarchyNode) : List HierarchyNode :=
  (deduped nodes).map (mergeChild n)

theorem seen_singleton (c : HierarchyNode) :
    (seen [c]).values = if c.children = [] then [] else [c] := by
  unfold seen
  rw [List.foldl_cons, List.foldl_nil, see]
  by_cases hc : c.children = []
  · rw [if_pos hc, hc]
    rfl
  · rw [if_neg hc, if_neg (by rwa [List.isEmpty_iff])]
    rfl

/-- A child is passed over, or its children are merged. -/
theorem mergeChild_succ (n : Nat) (c : HierarchyNode) :
    mergeChild (n + 1) c =
      if c.children = [] then c else .node c.data c.depth (mergeAll n c.children) := by
  rw [mergeChild, mergeTreesFrom, seen_singleton]
  split
  · rfl
  · rfl

theorem data_mergeChild (n : Nat) (c : HierarchyNode) : (mergeChild n c).data = c.data := by
  cases n with
  | zero => rfl
  | succ n =>
    rw [mergeChild_succ]
    split <;> rfl

/-- The first loop merges the trees that have children. -/
theorem values_seen (trees : List HierarchyNode) :
    (seen trees).values = deduped (trees.filter (fun t => !t.children.isEmpty)) := by
  have hloop : ∀ m, trees.foldl see m =
      (trees.filter (fun t => !t.children.isEmpty)).foldl addChild m := by
    induction trees with
    | nil => exact fun m => rfl
    | cons tree trees ih =>
      intro m
      rw [List.foldl_cons, ih, see]
      cases hempty : tree.children.isEmpty with
      | true =>
        rw [if_pos rfl, List.filter_cons_of_neg (by simp [hempty])]
      | false =>
        rw [if_neg Bool.false_ne_true, List.filter_cons_of_pos (by simp [hempty]), List.foldl_cons,
          addChild, addItem]
        cases m.get? tree.data.id <;> rfl
  exact congrArg OrderedMap.values (hloop ∅)

theorem children_absorb (n : HierarchyNode) (rest : List HierarchyNode) :
    (∃ data depth, n = .leaf data depth) ∧ (absorb n rest).children = [] ∨
      (absorb n rest).children = (n :: rest).flatMap children := by
  cases n with
  | leaf data depth =>
    rw [absorb_leaf]
    exact .inl ⟨⟨data, depth, rfl⟩, rfl⟩
  | node data depth cs =>
    rw [absorb_node]
    exact .inr rfl

/-- So many levels are left at most. -/
def Within (k : Nat) (nodes : List HierarchyNode) : Prop := ∀ n ∈ nodes, n.height ≤ k

theorem Within.children {k : Nat} {nodes : List HierarchyNode} (h : Within (k + 1) nodes) :
    Within k (nodes.flatMap HierarchyNode.children) := by
  intro c hc
  obtain ⟨n, hn, hc⟩ := List.mem_flatMap.mp hc
  have hlt := height_lt hc
  have hle := h n hn
  omega

theorem Within.zero {nodes : List HierarchyNode} (h : Within 0 nodes) :
    nodes.flatMap HierarchyNode.children = [] := by
  rw [List.flatMap_eq_nil_iff]
  intro n hn
  cases hcs : n.children with
  | nil => rfl
  | cons c cs =>
    have hlt := height_lt (hcs ▸ List.mem_cons_self : c ∈ n.children)
    have hle := h n hn
    omega

/-- **A merged node**: below it, its children are merged. -/
theorem children_mergeChild {k : Nat} {nodes rest : List HierarchyNode} {i : String}
    {n : HierarchyNode} (h : Within k nodes)
    (hfilter : nodes.filter (fun n => n.data.id = i) = n :: rest) :
    ∃ k', Within k' (absorb n rest).children ∧
      (mergeChild k (absorb n rest)).children = mergeAll k' (absorb n rest).children := by
  have hsub : Within k (n :: rest) := by
    intro m hm
    rw [← hfilter] at hm
    exact h m (List.mem_filter.mp hm).1
  have hempty : (absorb n rest).children = [] → ∃ k', Within k' (absorb n rest).children ∧
      (absorb n rest).children = mergeAll k' (absorb n rest).children := by
    intro hnil
    rw [hnil]
    exact ⟨0, fun m hm => absurd hm List.not_mem_nil, rfl⟩
  cases k with
  | zero =>
    apply hempty
    rcases children_absorb n rest with ⟨-, hnil⟩ | hall
    · exact hnil
    · rw [hall, hsub.zero]
  | succ k =>
    rw [mergeChild_succ]
    split
    · next hnil => exact hempty hnil
    · refine ⟨k, ?_, rfl⟩
      rcases children_absorb n rest with ⟨-, hnil⟩ | hall
      · rw [hnil]
        exact fun m hm => absurd hm List.not_mem_nil
      · rw [hall]
        exact hsub.children

theorem mem_mergeAll {k : Nat} {nodes : List HierarchyNode} {m : HierarchyNode} :
    m ∈ mergeAll k nodes ↔ ∃ i n rest,
      nodes.filter (fun n => n.data.id = i) = n :: rest ∧ m = mergeChild k (absorb n rest) := by
  unfold mergeAll
  rw [List.mem_map]
  constructor
  · rintro ⟨c, hc, rfl⟩
    obtain ⟨i, n, rest, hfilter, rfl⟩ := mem_deduped.mp hc
    exact ⟨i, n, rest, hfilter, rfl⟩
  · rintro ⟨i, n, rest, hfilter, rfl⟩
    exact ⟨_, mem_deduped.mpr ⟨i, n, rest, hfilter, rfl⟩, rfl⟩

theorem id_mergeChild {k : Nat} {nodes rest : List HierarchyNode} {i : String} {n : HierarchyNode}
    (h : nodes.filter (fun n => n.data.id = i) = n :: rest) :
    (mergeChild k (absorb n rest)).data.id = i := by
  rw [data_mergeChild, data_absorb]
  exact id_of_filter h

/-- One step down in what is merged. -/
theorem isPath_mergeAll_cons {k : Nat} {nodes : List HierarchyNode} {i j : String}
    {path : List String} : IsPath (mergeAll k nodes) (i :: j :: path) ↔ ∃ n rest,
      nodes.filter (fun n => n.data.id = i) = n :: rest ∧
        IsPath (mergeChild k (absorb n rest)).children (j :: path) := by
  rw [isPath_cons_cons]
  constructor
  · rintro ⟨m, hm, hid, hpath⟩
    obtain ⟨i', n, rest, hfilter, rfl⟩ := mem_mergeAll.mp hm
    rw [id_mergeChild hfilter] at hid
    subst hid
    exact ⟨n, rest, hfilter, hpath⟩
  · rintro ⟨n, rest, hfilter, hpath⟩
    exact ⟨_, mem_mergeAll.mpr ⟨i, n, rest, hfilter, rfl⟩, id_mergeChild hfilter, hpath⟩

theorem isPath_mergeAll_singleton {k : Nat} {nodes : List HierarchyNode} {i : String} :
    IsPath (mergeAll k nodes) [i] ↔ IsPath nodes [i] := by
  rw [isPath_singleton, isPath_singleton]
  constructor
  · rintro ⟨m, hm, hid⟩
    obtain ⟨i', n, rest, hfilter, rfl⟩ := mem_mergeAll.mp hm
    rw [id_mergeChild hfilter] at hid
    subst hid
    have hmem : n ∈ nodes.filter (fun n => n.data.id = i') := hfilter ▸ List.mem_cons_self
    exact ⟨n, (List.mem_filter.mp hmem).1, id_of_filter hfilter⟩
  · rintro ⟨n, hn, hid⟩
    cases hfilter : nodes.filter (fun n => n.data.id = i) with
    | nil =>
      have hmem : n ∈ nodes.filter (fun n => n.data.id = i) :=
        List.mem_filter.mpr ⟨hn, decide_eq_true hid⟩
      rw [hfilter] at hmem
      cases hmem
    | cons first rest =>
      exact ⟨_, mem_mergeAll.mpr ⟨i, first, rest, hfilter, rfl⟩, id_mergeChild hfilter⟩

/-- **Nothing is made up.** -/
theorem isPath_of_mergeAll {k : Nat} {nodes : List HierarchyNode} (h : Within k nodes)
    {path : List String} (hpath : IsPath (mergeAll k nodes) path) : IsPath nodes path := by
  induction path generalizing k nodes with
  | nil => cases hpath
  | cons i path ih =>
    cases path with
    | nil => exact isPath_mergeAll_singleton.mp hpath
    | cons j path =>
      obtain ⟨n, rest, hfilter, hbelow⟩ := isPath_mergeAll_cons.mp hpath
      obtain ⟨k', hwithin, hchildren⟩ := children_mergeChild h hfilter
      rw [hchildren] at hbelow
      have hin := ih hwithin hbelow
      rw [isPath_cons_cons_iff, hfilter]
      rcases children_absorb n rest with ⟨-, hnil⟩ | hall
      · rw [hnil] at hin
        cases hin with
        | root hmem => cases hmem
        | child hmem => cases hmem
      · rw [← hall]
        exact hin

/-- Where the first node at the end of a path has no list of children, no other has children. -/
def Deep (nodes : List HierarchyNode) : Prop :=
  ∀ path data depth rest, nodesAt nodes path = .leaf data depth :: rest →
    ∀ n ∈ rest, n.children = []

/-- The children of the nodes of one id are what is merged, or there are none. -/
theorem Deep.children {nodes rest : List HierarchyNode} {i : String} {n : HierarchyNode}
    (h : Deep nodes) (hfilter : nodes.filter (fun n => n.data.id = i) = n :: rest) :
    (absorb n rest).children = (n :: rest).flatMap HierarchyNode.children ∧
      Deep ((n :: rest).flatMap HierarchyNode.children) := by
  constructor
  · rcases children_absorb n rest with ⟨⟨data, depth, rfl⟩, hnil⟩ | hall
    · have hrest := h [i] data depth rest hfilter
      rw [hnil, List.flatMap_cons, List.flatMap_eq_nil_iff.mpr hrest]
      rfl
    · exact hall
  · intro path
    cases path with
    | nil => exact fun _ _ _ hnil => by cases hnil
    | cons j path =>
      rw [← hfilter]
      exact h (i :: j :: path)

/-- A path that goes on below the nodes of one id, in what they are merged into. -/
theorem isPath_mergeAll_of_filter {k : Nat} {nodes rest : List HierarchyNode} {i j : String}
    {n : HierarchyNode} {path : List String}
    (hfilter : nodes.filter (fun n => n.data.id = i) = n :: rest) :
    IsPath (mergeAll k nodes) (i :: j :: path) ↔
      IsPath (mergeChild k (absorb n rest)).children (j :: path) := by
  rw [isPath_mergeAll_cons]
  constructor
  · rintro ⟨n', rest', hfilter', hbelow⟩
    obtain ⟨rfl, rfl⟩ := List.cons.inj (hfilter.symm.trans hfilter')
    exact hbelow
  · exact fun hbelow => ⟨n, rest, hfilter, hbelow⟩

/-- A first node without a list of children takes none. -/
theorem not_isPath_mergeAll_of_leaf {k : Nat} {nodes rest : List HierarchyNode} (h : Within k nodes)
    {i j : String} {data : TreeNode} {depth : Nat} {path : List String}
    (hfilter : nodes.filter (fun n => n.data.id = i) = .leaf data depth :: rest) :
    ¬ IsPath (mergeAll k nodes) (i :: j :: path) := by
  rw [isPath_mergeAll_of_filter hfilter]
  obtain ⟨k', -, hchildren⟩ := children_mergeChild h hfilter
  rw [hchildren, absorb_leaf]
  exact not_isPath_nil

theorem nodesAt_nil (path : List String) : nodesAt [] path = [] := by
  by_contra hne
  exact not_isPath_nil (isPath_iff.mpr hne)

theorem deep_of_keeps {k : Nat} {nodes : List HierarchyNode} (h : Within k nodes)
    (hkeeps : ∀ path, IsPath nodes path → IsPath (mergeAll k nodes) path) : Deep nodes := by
  intro path
  induction path generalizing k nodes with
  | nil => exact fun _ _ _ hnil => by cases hnil
  | cons i path ih =>
    cases path with
    | nil =>
      intro data depth rest hfilter n hn
      cases hcs : n.children with
      | nil => rfl
      | cons c cs =>
        -- the path to the child of another node would have to go on below the first
        have hpath : IsPath nodes [i, c.data.id] := by
          have hmem : n ∈ nodes.filter (fun n => n.data.id = i) := by
            rw [show nodes.filter (fun n => n.data.id = i) = .leaf data depth :: rest
              from hfilter]
            exact List.mem_cons_of_mem _ hn
          obtain ⟨hmem, hid⟩ := List.mem_filter.mp hmem
          rw [isPath_cons_cons]
          refine ⟨n, hmem, of_decide_eq_true hid, ?_⟩
          rw [hcs]
          exact .root List.mem_cons_self
        exact absurd (hkeeps _ hpath) (not_isPath_mergeAll_of_leaf h hfilter)
    | cons j path =>
      intro data depth rest hnodes
      cases hfilter : nodes.filter (fun n => n.data.id = i) with
      | nil =>
        rw [nodesAt_cons_cons, hfilter, List.flatMap_nil, nodesAt_nil] at hnodes
        cases hnodes
      | cons first others =>
        obtain ⟨k', hwithin, hchildren⟩ := children_mergeChild h hfilter
        have hpath : IsPath nodes (i :: j :: path) := by
          rw [isPath_iff, hnodes]
          exact List.cons_ne_nil _ _
        rw [nodesAt_cons_cons, hfilter] at hnodes
        rcases children_absorb first others with ⟨⟨data', depth', rfl⟩, hnil⟩ | hall
        · exact absurd (hkeeps _ hpath) (not_isPath_mergeAll_of_leaf h hfilter)
        · rw [hall] at hwithin hchildren
          refine ih hwithin (fun below hbelow => ?_) data depth rest hnodes
          cases below with
          | nil => cases hbelow
          | cons j' below =>
            have hpath : IsPath nodes (i :: j' :: below) := by
              rw [isPath_cons_cons_iff, hfilter]
              exact hbelow
            rw [← hchildren]
            exact (isPath_mergeAll_of_filter hfilter).mp (hkeeps _ hpath)

theorem keeps_of_deep {k : Nat} {nodes : List HierarchyNode} (h : Within k nodes)
    (hdeep : Deep nodes) {path : List String} (hpath : IsPath nodes path) :
    IsPath (mergeAll k nodes) path := by
  induction path generalizing k nodes with
  | nil => cases hpath
  | cons i path ih =>
    cases path with
    | nil => exact isPath_mergeAll_singleton.mpr hpath
    | cons j path =>
      rw [isPath_cons_cons_iff] at hpath
      cases hfilter : nodes.filter (fun n => n.data.id = i) with
      | nil =>
        rw [hfilter] at hpath
        exact absurd hpath not_isPath_nil
      | cons n rest =>
        obtain ⟨k', hwithin, hchildren⟩ := children_mergeChild h hfilter
        obtain ⟨hall, hbelow⟩ := hdeep.children hfilter
        rw [hall] at hwithin hchildren
        rw [hfilter] at hpath
        rw [isPath_mergeAll_of_filter hfilter, hchildren]
        exact ih hwithin hbelow hpath

/-- **Nothing is lost** exactly if nodes come first that take children. -/
theorem keeps_iff_deep {k : Nat} {nodes : List HierarchyNode} (h : Within k nodes) :
    (∀ path, IsPath nodes path → IsPath (mergeAll k nodes) path) ↔ Deep nodes :=
  ⟨deep_of_keeps h, fun hdeep _ hpath => keeps_of_deep h hdeep hpath⟩

theorem nodup_mergeAll (k : Nat) (nodes : List HierarchyNode) :
    ((mergeAll k nodes).map (fun n => n.data.id)).Nodup := by
  have hids : (mergeAll k nodes).map (fun n => n.data.id) =
      (deduped nodes).map (fun n => n.data.id) := by
    rw [mergeAll, List.map_map]
    exact List.map_congr_left (fun c _ => congrArg TreeNode.id (data_mergeChild k c))
  rw [hids]
  exact nodup_deduped nodes

/-- **No id is repeated**, at any level. -/
theorem nodup_children {k : Nat} {nodes : List HierarchyNode} (h : Within k nodes)
    {m n : HierarchyNode} (hm : m ∈ mergeAll k nodes) {way : List Nat} (hn : m.follow way = some n) :
    (n.children.map (fun c => c.data.id)).Nodup := by
  induction way generalizing k nodes m with
  | nil =>
    obtain ⟨i, first, rest, hfilter, rfl⟩ := mem_mergeAll.mp hm
    obtain ⟨k', -, hchildren⟩ := children_mergeChild h hfilter
    rw [← Option.some.inj hn, hchildren]
    exact nodup_mergeAll k' _
  | cons j way ih =>
    obtain ⟨i, first, rest, hfilter, rfl⟩ := mem_mergeAll.mp hm
    obtain ⟨k', hwithin, hchildren⟩ := children_mergeChild h hfilter
    rw [follow, hchildren] at hn
    obtain ⟨c, hc, hn⟩ := Option.bind_eq_some_iff.mp hn
    exact ih hwithin (List.mem_of_getElem? hc) hn

/-! ## The whole function -/

/-- The trees that are not passed over. -/
def proper (trees : List HierarchyNode) : List HierarchyNode :=
  trees.filter (fun t => !t.children.isEmpty)

theorem mem_proper {trees : List HierarchyNode} {t : HierarchyNode} :
    t ∈ proper trees ↔ t ∈ trees ∧ t.children ≠ [] := by
  simp [proper]

/-- **The trees that have children are merged like the children of a node.** -/
theorem mergeTrees_eq (trees : List HierarchyNode) :
    mergeTrees trees = mergeAll (heights trees) (proper trees) := by
  rw [mergeTrees]
  cases hheights : heights trees with
  | zero =>
    cases trees with
    | nil => rfl
    | cons t trees =>
      have hle := heights_le.mp (Nat.le_of_eq hheights) t List.mem_cons_self
      omega
  | succ n =>
    rw [mergeTreesFrom, values_seen, mergeAll]
    apply List.map_congr_left
    intro tree htree
    obtain ⟨i, first, rest, hfilter, rfl⟩ := mem_deduped.mp htree
    have hfirst : first ∈ proper trees := by
      have hmem : first ∈ (proper trees).filter (fun n => n.data.id = i) :=
        hfilter ▸ List.mem_cons_self
      exact (List.mem_filter.mp hmem).1
    have hne : (absorb first rest).children ≠ [] := by
      have hchildren := (mem_proper.mp hfirst).2
      rcases children_absorb first rest with ⟨⟨data, depth, rfl⟩, -⟩ | hall
      · exact absurd rfl hchildren
      · rw [hall, List.flatMap_cons]
        exact fun hnil => hchildren (List.append_eq_nil_iff.mp hnil).1
    rw [mergeChild_succ, if_neg hne]
    rfl

theorem within_proper (trees : List HierarchyNode) : Within (heights trees) (proper trees) := by
  intro t ht
  have hle := heights_le.mp (Nat.le_refl (heights trees)) t (mem_proper.mp ht).1
  omega

/-- Trees without children have nothing below them. -/
theorem flatMap_proper (trees : List HierarchyNode) (i : String) :
    ((proper trees).filter (fun n => n.data.id = i)).flatMap children =
      (trees.filter (fun n => n.data.id = i)).flatMap children := by
  unfold proper
  induction trees with
  | nil => rfl
  | cons t trees ih =>
    cases hempty : t.children.isEmpty with
    | true =>
      rw [List.filter_cons_of_neg (by simp [hempty]), ih]
      have hnil : t.children = [] := List.isEmpty_iff.mp hempty
      by_cases hi : t.data.id = i
      · rw [List.filter_cons_of_pos (by simp [hi]), List.flatMap_cons, hnil]
        rfl
      · rw [List.filter_cons_of_neg (by simp [hi])]
    | false =>
      rw [List.filter_cons_of_pos (by simp [hempty])]
      by_cases hi : t.data.id = i
      · rw [List.filter_cons_of_pos (by simp [hi]), List.filter_cons_of_pos (by simp [hi]),
          List.flatMap_cons, List.flatMap_cons, ih]
      · rw [List.filter_cons_of_neg (by simp [hi]), List.filter_cons_of_neg (by simp [hi]), ih]

/-- What merging is to make of trees. -/
structure Faithful (trees : List HierarchyNode) : Prop where
  paths : ∀ path, IsPath (mergeTrees trees) path ↔ IsPath trees path
  roots : ((mergeTrees trees).map (fun n => n.data.id)).Nodup
  children : ∀ t ∈ mergeTrees trees, ∀ way n, t.follow way = some n →
    (n.children.map (fun c => c.data.id)).Nodup

/-- Every root without children is the root of another tree, with children; and where, further down,
the first of the nodes at the end of a path has no list of children, no other has children. -/
structure Careful (trees : List HierarchyNode) : Prop where
  roots : ∀ t ∈ trees, t.children = [] → ∃ t' ∈ trees, t'.data.id = t.data.id ∧ t'.children ≠ []
  below : ∀ path, 2 ≤ path.length → ∀ data depth rest,
    nodesAt trees path = .leaf data depth :: rest → ∀ n ∈ rest, n.children = []

theorem careful_iff (trees : List HierarchyNode) : Careful trees ↔
    (∀ i, IsPath trees [i] → IsPath (proper trees) [i]) ∧ Deep (proper trees) := by
  constructor
  · rintro ⟨hroots, hbelow⟩
    constructor
    · intro i hpath
      obtain ⟨t, ht, rfl⟩ := isPath_singleton.mp hpath
      by_cases hempty : t.children = []
      · obtain ⟨t', ht', hid, hne⟩ := hroots t ht hempty
        exact isPath_singleton.mpr ⟨t', mem_proper.mpr ⟨ht', hne⟩, hid⟩
      · exact isPath_singleton.mpr ⟨t, mem_proper.mpr ⟨ht, hempty⟩, rfl⟩
    · intro path data depth rest hnodes
      cases path with
      | nil => cases hnodes
      | cons i path =>
        cases path with
        | nil =>
          -- a tree that is not passed over has a list of children
          have hmem : HierarchyNode.leaf data depth ∈
              (proper trees).filter (fun n => n.data.id = i) := by
            rw [show (proper trees).filter (fun n => n.data.id = i) = .leaf data depth :: rest
              from hnodes]
            exact List.mem_cons_self
          exact absurd rfl (mem_proper.mp (List.mem_filter.mp hmem).1).2
        | cons j path =>
          rw [nodesAt_cons_cons, flatMap_proper] at hnodes
          exact hbelow (i :: j :: path) (by simp) data depth rest hnodes
  · rintro ⟨hroots, hdeep⟩
    constructor
    · intro t ht _
      obtain ⟨t', ht', hid⟩ := isPath_singleton.mp (hroots _ (.root ht))
      obtain ⟨hmem, hne⟩ := mem_proper.mp ht'
      exact ⟨t', hmem, hid, hne⟩
    · intro path hlength data depth rest hnodes
      obtain ⟨i, j, path, rfl⟩ : ∃ i j path', path = i :: j :: path' := by
        match path, hlength with
        | i :: j :: path, _ => exact ⟨i, j, path, rfl⟩
      rw [nodesAt_cons_cons, ← flatMap_proper] at hnodes
      exact hdeep (i :: j :: path) data depth rest hnodes

/-- **Nothing is lost** exactly if the roots without children come again with children, and the first of
the nodes that are merged takes the children of the others. -/
theorem nothing_lost_iff (trees : List HierarchyNode) : Faithful trees ↔ Careful trees := by
  have hwithin := within_proper trees
  have hlonger : ∀ i j path, IsPath (proper trees) (i :: j :: path) ↔
      IsPath trees (i :: j :: path) := by
    intro i j path
    rw [isPath_cons_cons_iff, flatMap_proper, ← isPath_cons_cons_iff]
  have hsome : ∀ path, IsPath (proper trees) path → IsPath trees path := by
    intro path hpath
    match path, hpath with
    | [i], hpath =>
      obtain ⟨t, ht, hid⟩ := isPath_singleton.mp hpath
      exact isPath_singleton.mpr ⟨t, (mem_proper.mp ht).1, hid⟩
    | i :: j :: path, hpath => exact (hlonger i j path).mp hpath
  rw [careful_iff, ← keeps_iff_deep hwithin, ← mergeTrees_eq]
  constructor
  · intro hfaithful
    constructor
    · intro i hpath
      have hmerged := (hfaithful.paths [i]).mpr hpath
      rw [mergeTrees_eq] at hmerged
      exact isPath_mergeAll_singleton.mp hmerged
    · exact fun path hpath => (hfaithful.paths path).mpr (hsome path hpath)
  · rintro ⟨hroots, hkeeps⟩
    refine ⟨fun path => ⟨fun hpath => ?_, fun hpath => hkeeps path ?_⟩, ?_, ?_⟩
    · rw [mergeTrees_eq] at hpath
      exact hsome path (isPath_of_mergeAll hwithin hpath)
    · match path, hpath with
      | [i], hpath => exact hroots i hpath
      | i :: j :: path, hpath => exact (hlonger i j path).mpr hpath
    · rw [mergeTrees_eq]
      exact nodup_mergeAll _ _
    · intro t ht way n hn
      rw [mergeTrees_eq] at ht
      exact nodup_children hwithin ht hn

/-- A room without clients, and the same room with one, of two balancers. -/
def rooms : List HierarchyNode :=
  [.node ⟨"m", "ewr", "monolith"⟩ 0 [.leaf ⟨"foo", "ewr", "room"⟩ 1],
    .node ⟨"m", "ewr", "monolith"⟩ 0
      [.node ⟨"foo", "ewr", "room"⟩ 1 [.leaf ⟨"client", "ewr", "client"⟩ 2]]]

/-- The client is lost. -/
theorem client_lost : ¬ Faithful rooms := by
  intro h
  have hpath : IsPath rooms ["m", "foo", "client"] := by
    rw [isPath_iff]
    decide +kernel
  have hlost := (h.paths _).mpr hpath
  rw [isPath_iff] at hlost
  exact hlost (by decide +kernel)

end OpenTogetherTube.Panel.MergeTrees
