import Cryfs.Tree.Subtree

/-!
# The tree store

`data_tree_store/store.rs`: `DataTreeStore` owns a `DataNodeStore` and creates, loads and
removes whole trees by their root's id. Its functions are translated here over the node store
of `Cryfs.Tree.NodeStore`; `DataTree::remove`, whose code is not among the sources, is the
spec's post-order walk `removeSubtree`. Errors of the block store are not modelled; `none` from
`remove_tree_by_id` is the error of `DataTree::remove`.

What the store is for is a family of trees by root id (`trees`). On a store that keeps the spec's
tree invariants (`WellFormed`), `remove_tree_by_id` of a root removes exactly the nodes of its
tree and leaves every other tree as it was (`removeTreeById_root`), and `create_tree` and
`try_create_tree` add a one-leaf tree under an unused id (`createTree_spec`,
`tryCreateTree_new`). A client that keeps to the spec's contract (`remove_tree_by_id` of a root
or of an unused id) never sees an error, keeps the invariants, and moves the family of trees by
one abstract `Step` per call, from every store it reaches (`reachable_step`). The contract is
needed: removing a node that is not a root leaves its parent pointing at nothing
(`removeTreeById_not_root`). In a well-formed store every node is in the tree of exactly one root
(`stored_iff_existsUnique_tree`); `all_tree_roots` (test code) lists each root once
(`allTreeRoots_spec`), and `num_nodes` is the size of their trees together (`numNodes_eq_sum`).
-/

namespace Cryfs

open DataNodeStore

/-- `RemoveResult`. -/
inductive RemoveResult where
  | successfullyRemoved
  | notRemovedBecauseItDoesntExist
deriving DecidableEq, Repr

/-- `DataTree`: a tree by its loaded root node. -/
structure DataTree where
  rootNodeId : BlockId
  rootNode : DataNode
deriving DecidableEq, Repr

/-- Modelled from the spec: `DataTree::remove`, which removes every node of the tree in post
order. -/
def DataTree.remove (tree : DataTree) (nodeStore : DataNodeStore) : Option DataNodeStore :=
  removeSubtree (tree.rootNode.depth + 1) nodeStore tree.rootNodeId tree.rootNode

/-- `DataTreeStore`. -/
structure DataTreeStore where
  nodeStore : DataNodeStore

/-- Fresh ids for the examples: one more than the sum of the ids in use. -/
def FreshIds.sumSucc : FreshIds where
  next s := ⟨(s.allNodes.map BlockId.toNat).sum + 1⟩
  load_next s := by
    by_contra h
    have := List.le_sum_of_mem (List.mem_map_of_mem BlockId.toNat (mem_allNodes.2 h))
    simp at this

/-- A store for the examples: an inner node over two leaves, and a one-leaf tree. -/
def twoTrees : DataTreeStore :=
  ⟨⟨[⟨⟨1⟩, .inner 1 [⟨2⟩, ⟨3⟩]⟩, ⟨⟨2⟩, .leaf [7]⟩, ⟨⟨3⟩, .leaf []⟩, ⟨⟨4⟩, .leaf [5]⟩].toAList⟩⟩

namespace DataTreeStore

variable (self : DataTreeStore)

/-- `DataTreeStore::load_tree`. -/
def loadTree (rootNodeId : BlockId) : Option DataTree :=
  (self.nodeStore.load rootNodeId).map fun rootNode => ⟨rootNodeId, rootNode⟩

/-- `DataTreeStore::create_tree`: a tree of one empty leaf. -/
def createTree (ids : FreshIds) : DataTreeStore × DataTree :=
  let (nodeStore, newLeafId, newLeaf) := self.nodeStore.createNewLeafNode ids []
  (⟨nodeStore⟩, ⟨newLeafId, newLeaf⟩)

/-- `DataTreeStore::try_create_tree`. -/
def tryCreateTree (id : BlockId) : Option (DataTreeStore × DataTree) :=
  (self.nodeStore.tryCreateNewLeafNode id []).map fun (nodeStore, newLeaf) =>
    (⟨nodeStore⟩, ⟨id, newLeaf⟩)

/-- `DataTreeStore::remove_tree_by_id`. -/
def removeTreeById (rootNodeId : BlockId) : Option (DataTreeStore × RemoveResult) :=
  match self.loadTree rootNodeId with
  | some tree =>
    (tree.remove self.nodeStore).map fun nodeStore => (⟨nodeStore⟩, .successfullyRemoved)
  | none => some (self, .notRemovedBecauseItDoesntExist)

/-- `DataTreeStore::num_nodes`. -/
def numNodes : Nat := self.nodeStore.numNodes

/-- `DataTreeStore::load_block_depth`. -/
def loadBlockDepth (id : BlockId) : Option Nat := (self.nodeStore.load id).map DataNode.depth

/-- `DataTreeStore::all_tree_roots` (test code): all nodes, less every child of an inner node;
the `HashSet` is a list without duplicates. -/
def allTreeRoots : List BlockId :=
  let allNodes := self.nodeStore.allNodes
  allNodes.foldl (fun potentialRoots nodeId =>
    match self.nodeStore.load nodeId with
    | some (.inner _ children) => children.foldl List.erase potentialRoots
    | _ => potentialRoots) allNodes

/-- What the tree store is for: the tree of each root, by the root's id. -/
def trees (r : BlockId) : Option (List (BlockId × DataNode)) :=
  if self.nodeStore.IsRoot r then self.nodeStore.treeAt r else none

variable {self}

/-! ## Removing a tree -/

theorem removeTreeById_of_load_none {r : BlockId} (h : self.nodeStore.load r = none) :
    self.removeTreeById r = some (self, .notRemovedBecauseItDoesntExist) := by
  simp [removeTreeById, loadTree, h]

/-- `remove_tree_by_id` of a stored node removes the ids of its tree, if they are distinct. -/
theorem removeTreeById_of_treeAt {r : BlockId} {es : List (BlockId × DataNode)}
    (h : self.nodeStore.treeAt r = some es) (hnd : (es.map Prod.fst).Nodup) :
    self.removeTreeById r =
      some (⟨self.nodeStore.removeAll (es.map Prod.fst)⟩, .successfullyRemoved) := by
  obtain ⟨n, hn, hes⟩ := treeAt_eq_some.1 h
  simp only [removeTreeById, loadTree, hn, Option.map_some', DataTree.remove,
    removeSubtree_eq hes hnd]

/-- **`remove_tree_by_id` of a root** removes the nodes of its tree and nothing else: `num_nodes`
drops by the tree's size, the invariants hold, the other roots are the roots, and their trees are
as they were. -/
theorem removeTreeById_root (hwf : WellFormed self.nodeStore) {r : BlockId}
    (hr : self.nodeStore.IsRoot r) :
    ∃ es self', self.nodeStore.treeAt r = some es ∧
      self.removeTreeById r = some (self', .successfullyRemoved) ∧
      (∀ x, self'.nodeStore.load x = if x ∈ es.map Prod.fst then none else self.nodeStore.load x) ∧
      self'.numNodes = self.numNodes - es.length ∧ WellFormed self'.nodeStore ∧
      (∀ x, self'.nodeStore.IsRoot x ↔ self.nodeStore.IsRoot x ∧ x ≠ r) ∧
      ∀ x, self.nodeStore.IsRoot x → x ≠ r → self'.nodeStore.treeAt x = self.nodeStore.treeAt x := by
  obtain ⟨es, h⟩ := hwf.treeAt_exists hr.1
  obtain ⟨n, hn, hes⟩ := treeAt_eq_some.1 h
  have hnd := hwf.nodup_treeNodes hes hn
  have hstored : ∀ x ∈ es.map Prod.fst, self.nodeStore.load x ≠ none := fun x hx => by
    obtain ⟨e, he, rfl⟩ := List.mem_map.1 hx
    simp [treeNodes_sound hes hn e he]
  refine ⟨es, _, h, removeTreeById_of_treeAt h hnd, load_removeAll _, ?_,
    hwf.removeAll_wellFormed hr h, fun x => isRoot_removeAll h,
    fun x hx hne => hwf.treeAt_removeAll hr h hx hne⟩
  rw [numNodes, numNodes_removeAll hnd hstored, List.length_map]
  rfl

theorem removeTreeById_root_twoTrees :
    WellFormed twoTrees.nodeStore ∧ twoTrees.nodeStore.IsRoot ⟨1⟩ ∧
      ∃ es self', twoTrees.nodeStore.treeAt ⟨1⟩ = some es ∧
        twoTrees.removeTreeById ⟨1⟩ = some (self', .successfullyRemoved) ∧
        (∀ x, self'.nodeStore.load x =
          if x ∈ es.map Prod.fst then none else twoTrees.nodeStore.load x) ∧
        self'.numNodes = twoTrees.numNodes - es.length ∧ WellFormed self'.nodeStore ∧
        (∀ x, self'.nodeStore.IsRoot x ↔ twoTrees.nodeStore.IsRoot x ∧ x ≠ ⟨1⟩) ∧
        ∀ x, twoTrees.nodeStore.IsRoot x → x ≠ ⟨1⟩ →
          self'.nodeStore.treeAt x = twoTrees.nodeStore.treeAt x :=
  ⟨by decide, by decide, removeTreeById_root (by decide) (by decide)⟩

/-- `remove_tree_by_id` of a stored node that is not a root, against the contract: the node is
gone, its parent still lists it as a child, and the store breaks the invariants. -/
theorem removeTreeById_not_root (hwf : WellFormed self.nodeStore) {x : BlockId}
    (hx : self.nodeStore.load x ≠ none) (hroot : ¬ self.nodeStore.IsRoot x) :
    ∃ self' p np, self.removeTreeById x = some (self', .successfullyRemoved) ∧
      self'.nodeStore.load x = none ∧ self'.nodeStore.load p = some np ∧ x ∈ np.children ∧
      ¬ WellFormed self'.nodeStore := by
  obtain ⟨n, hn⟩ := Option.ne_none_iff_exists'.1 hx
  obtain ⟨p, np, hp, hpc, hd⟩ := hwf.exists_parent hn hroot
  obtain ⟨es, h⟩ := hwf.treeAt_exists hx
  obtain ⟨n', hn', hes⟩ := treeAt_eq_some.1 h
  cases hn.symm.trans hn'
  have hpe : p ∉ es.map Prod.fst := fun hmem => by
    obtain ⟨e, he, hep⟩ := List.mem_map.1 hmem
    have hload := treeNodes_sound hes hn e he
    rw [hep, hp, Option.some.injEq] at hload
    have := hwf.depth_le hes hn he
    rw [← hload] at this
    omega
  have hgone : (self.nodeStore.removeAll (es.map Prod.fst)).load x = none := by
    rw [load_removeAll, if_pos (List.mem_map_of_mem _ (mem_treeNodes_self hes))]
  have hparent := load_removeAll_eq_some.2 ⟨hpe, hp⟩
  refine ⟨_, p, np, removeTreeById_of_treeAt h (hwf.nodup_treeNodes hes hn), hgone, hparent, hpc,
    fun hwf' => ?_⟩
  obtain ⟨m, hm, -⟩ := hwf'.child hparent hpc
  simp [hgone] at hm

theorem removeTreeById_not_root_twoTrees :
    WellFormed twoTrees.nodeStore ∧ twoTrees.nodeStore.load ⟨2⟩ ≠ none ∧
      ¬ twoTrees.nodeStore.IsRoot ⟨2⟩ ∧
      ∃ self' p np, twoTrees.removeTreeById ⟨2⟩ = some (self', .successfullyRemoved) ∧
        self'.nodeStore.load ⟨2⟩ = none ∧ self'.nodeStore.load p = some np ∧ ⟨2⟩ ∈ np.children ∧
        ¬ WellFormed self'.nodeStore :=
  ⟨by decide, by decide, by decide, removeTreeById_not_root (by decide) (by decide) (by decide)⟩

/-! ## Creating a tree -/

/-- A one-leaf tree under an unused id: the one new node, the invariants, one more root, and the
other trees as they were. -/
theorem addLeaf_spec (hwf : WellFormed self.nodeStore) {id : BlockId}
    (h : self.nodeStore.load id = none) :
    let self' : DataTreeStore := ⟨self.nodeStore.addLeaf id []⟩
    self'.nodeStore.treeAt id = some [(id, .leaf [])] ∧ self'.numNodes = self.numNodes + 1 ∧
      WellFormed self'.nodeStore ∧
      (∀ x, self'.nodeStore.IsRoot x ↔ self.nodeStore.IsRoot x ∨ x = id) ∧
      ∀ x, x ≠ id → self'.nodeStore.treeAt x = self.nodeStore.treeAt x :=
  ⟨treeAt_addLeaf_self _ id [], numNodes_addLeaf h [], hwf.addLeaf_wellFormed h [],
    fun _ => hwf.isRoot_addLeaf h [], fun _ hx => hwf.treeAt_addLeaf h [] hx⟩

theorem tryCreateTree_of_load {id : BlockId} {n : DataNode} (h : self.nodeStore.load id = some n) :
    self.tryCreateTree id = none := by
  simp [tryCreateTree, tryCreateNewLeafNode_of_load h]

theorem tryCreateTree_of_load_none {id : BlockId} (h : self.nodeStore.load id = none) :
    self.tryCreateTree id = some (⟨self.nodeStore.addLeaf id []⟩, ⟨id, .leaf []⟩) := by
  simp [tryCreateTree, tryCreateNewLeafNode_of_load_none h]

theorem createTree_eq (ids : FreshIds) :
    self.createTree ids =
      (⟨self.nodeStore.addLeaf (ids.next self.nodeStore) []⟩, ⟨ids.next self.nodeStore, .leaf []⟩) :=
  rfl

/-- **`try_create_tree` of an unused id** adds a tree of one empty leaf under that id and changes
no other tree. -/
theorem tryCreateTree_new (hwf : WellFormed self.nodeStore) {id : BlockId}
    (h : self.nodeStore.load id = none) :
    ∃ self', self.tryCreateTree id = some (self', ⟨id, .leaf []⟩) ∧
      self'.nodeStore.treeAt id = some [(id, .leaf [])] ∧ self'.numNodes = self.numNodes + 1 ∧
      WellFormed self'.nodeStore ∧
      (∀ x, self'.nodeStore.IsRoot x ↔ self.nodeStore.IsRoot x ∨ x = id) ∧
      ∀ x, x ≠ id → self'.nodeStore.treeAt x = self.nodeStore.treeAt x :=
  ⟨_, tryCreateTree_of_load_none h, addLeaf_spec hwf h⟩

/-- **`create_tree`** adds a tree of one empty leaf under an id no node had, and changes no other
tree. -/
theorem createTree_spec (hwf : WellFormed self.nodeStore) (ids : FreshIds) :
    ∃ id self', self.createTree ids = (self', ⟨id, .leaf []⟩) ∧ self.nodeStore.load id = none ∧
      self'.nodeStore.treeAt id = some [(id, .leaf [])] ∧ self'.numNodes = self.numNodes + 1 ∧
      WellFormed self'.nodeStore ∧
      (∀ x, self'.nodeStore.IsRoot x ↔ self.nodeStore.IsRoot x ∨ x = id) ∧
      ∀ x, x ≠ id → self'.nodeStore.treeAt x = self.nodeStore.treeAt x :=
  ⟨_, _, createTree_eq ids, ids.load_next _, addLeaf_spec hwf (ids.load_next _)⟩

theorem createTree_spec_twoTrees :
    WellFormed twoTrees.nodeStore ∧
      ∃ id self', twoTrees.createTree FreshIds.sumSucc = (self', ⟨id, .leaf []⟩) ∧
        twoTrees.nodeStore.load id = none ∧
        self'.nodeStore.treeAt id = some [(id, .leaf [])] ∧ self'.numNodes = twoTrees.numNodes + 1 ∧
        WellFormed self'.nodeStore ∧
        (∀ x, self'.nodeStore.IsRoot x ↔ twoTrees.nodeStore.IsRoot x ∨ x = id) ∧
        ∀ x, x ≠ id → self'.nodeStore.treeAt x = twoTrees.nodeStore.treeAt x :=
  ⟨by decide, createTree_spec (by decide) FreshIds.sumSucc⟩

/-! ## `all_tree_roots` -/

theorem mem_foldl_erase {l : List BlockId} (hl : l.Nodup) (cs : List BlockId) {x : BlockId} :
    x ∈ cs.foldl List.erase l ↔ x ∈ l ∧ x ∉ cs := by
  induction cs generalizing l with
  | nil => simp
  | cons c cs ih =>
    rw [List.foldl_cons, ih (hl.erase c), hl.mem_erase_iff, List.mem_cons, not_or]
    tauto

theorem nodup_foldl_erase {l : List BlockId} (hl : l.Nodup) (cs : List BlockId) :
    (cs.foldl List.erase l).Nodup := by
  induction cs generalizing l with
  | nil => exact hl
  | cons c cs ih => exact ih (hl.erase c)

/-- The loop of `all_tree_roots` over some nodes: the ids of `l` that none of them lists as a
child. -/
theorem allTreeRoots_loop (s : DataNodeStore) (nodes : List BlockId) {l : List BlockId}
    (hl : l.Nodup) :
    let r := nodes.foldl (fun potentialRoots nodeId =>
      match s.load nodeId with
      | some (.inner _ children) => children.foldl List.erase potentialRoots
      | _ => potentialRoots) l
    r.Nodup ∧ ∀ x, x ∈ r ↔ x ∈ l ∧ ∀ p ∈ nodes, ∀ n, s.load p = some n → x ∉ n.children := by
  induction nodes generalizing l with
  | nil => simp [hl]
  | cons p nodes ih =>
    simp only [List.foldl_cons, List.mem_cons, forall_eq_or_imp]
    split
    · next d cs hp =>
      obtain ⟨hnd, hmem⟩ := ih (nodup_foldl_erase hl cs)
      refine ⟨hnd, fun x => ?_⟩
      rw [hmem, mem_foldl_erase hl, hp]
      simp only [Option.some.injEq, forall_eq', DataNode.children_inner]
      tauto
    · next hp =>
      obtain ⟨hnd, hmem⟩ := ih hl
      refine ⟨hnd, fun x => ?_⟩
      rw [hmem]
      have : ∀ n, s.load p = some n → x ∉ n.children := by
        rintro (_ | ⟨d, cs⟩) hn
        · exact List.not_mem_nil _
        · exact absurd hn (hp d cs)
      tauto

/-- `all_tree_roots` lists the roots, and nothing else. -/
theorem mem_allTreeRoots {x : BlockId} : x ∈ self.allTreeRoots ↔ self.nodeStore.IsRoot x := by
  rw [allTreeRoots, ((allTreeRoots_loop _ _ nodup_allNodes).2 x), mem_allNodes, IsRoot,
    mem_allChildren]
  constructor
  · rintro ⟨hx, hc⟩
    exact ⟨hx, fun ⟨p, n, hp, hpc⟩ => hc p (mem_allNodes.2 (by simp [hp])) n hp hpc⟩
  · rintro ⟨hx, hc⟩
    exact ⟨hx, fun p _ n hp hpc => hc ⟨p, n, hp, hpc⟩⟩

theorem nodup_allTreeRoots : self.allTreeRoots.Nodup :=
  (allTreeRoots_loop _ _ nodup_allNodes).1

/-- **`all_tree_roots` lists every root exactly once**, and nothing else. -/
theorem allTreeRoots_spec :
    self.allTreeRoots.Nodup ∧ ∀ x, x ∈ self.allTreeRoots ↔ self.nodeStore.IsRoot x :=
  ⟨nodup_allTreeRoots, fun _ => mem_allTreeRoots⟩

example : twoTrees.allTreeRoots = [⟨1⟩, ⟨4⟩] := by decide

/-- The ids of the trees of `all_tree_roots`, root after root, are the stored ids in another
order: every node of a well-formed store is in the tree of exactly one of those roots. -/
theorem allNodes_perm_trees (hwf : WellFormed self.nodeStore) :
    self.nodeStore.allNodes.Perm
      (self.allTreeRoots.flatMap fun r => ((self.nodeStore.treeAt r).getD []).map Prod.fst) := by
  have hroot : ∀ r ∈ self.allTreeRoots, ∃ es, self.nodeStore.treeAt r = some es := fun r hr =>
    hwf.treeAt_exists (mem_allTreeRoots.1 hr).1
  refine (List.perm_ext_iff_of_nodup nodup_allNodes (List.nodup_flatMap.2 ⟨?_, ?_⟩)).2 fun x => ?_
  · intro r hr
    obtain ⟨es, hes⟩ := hroot r hr
    obtain ⟨n, hn, hes'⟩ := treeAt_eq_some.1 hes
    simpa [hes] using hwf.nodup_treeNodes hes' hn
  · refine nodup_allTreeRoots.pairwise_of_forall_ne fun r hr r' hr' hne x hx hx' => ?_
    obtain ⟨es, hes⟩ := hroot r hr
    obtain ⟨es', hes'⟩ := hroot r' hr'
    simp only [hes, hes', Option.getD_some] at hx hx'
    obtain ⟨e, he, rfl⟩ := List.mem_map.1 hx'
    exact hwf.treeAt_disjoint (mem_allTreeRoots.1 hr) (mem_allTreeRoots.1 hr') (Ne.symm hne) hes
      hes' e he hx
  · rw [mem_allNodes, List.mem_flatMap]
    constructor
    · intro hx
      obtain ⟨n, hn⟩ := Option.ne_none_iff_exists'.1 hx
      obtain ⟨r, es, hr, hes, he⟩ := hwf.exists_root hn
      exact ⟨r, mem_allTreeRoots.2 hr, by simpa [hes] using List.mem_map_of_mem Prod.fst he⟩
    · rintro ⟨r, hr, hx⟩
      obtain ⟨es, hes⟩ := hroot r hr
      obtain ⟨n, hn, hes'⟩ := treeAt_eq_some.1 hes
      simp only [hes, Option.getD_some] at hx
      obtain ⟨e, he, rfl⟩ := List.mem_map.1 hx
      simp [treeNodes_sound hes' hn e he]

/-- **`num_nodes` is the size of the trees together**: the sum, over the roots `all_tree_roots`
lists, of the number of nodes of each root's tree. -/
theorem numNodes_eq_sum (hwf : WellFormed self.nodeStore) :
    self.numNodes =
      (self.allTreeRoots.map fun r => ((self.nodeStore.treeAt r).getD []).length).sum := by
  rw [numNodes, numNodes_eq_length_allNodes, (allNodes_perm_trees hwf).length_eq,
    List.length_flatMap]
  simp [Function.comp_def]

theorem numNodes_eq_sum_twoTrees :
    WellFormed twoTrees.nodeStore ∧ twoTrees.numNodes =
      (twoTrees.allTreeRoots.map fun r => ((twoTrees.nodeStore.treeAt r).getD []).length).sum :=
  ⟨by decide, numNodes_eq_sum (by decide)⟩

/-! ## The family of trees -/

/-- An id that no tree of `F` uses. -/
def Unused (F : BlockId → Option (List (BlockId × DataNode))) (id : BlockId) : Prop :=
  ∀ r es, F r = some es → id ∉ es.map Prod.fst

/-- The ids no tree uses are the ids no node has: a well-formed store has no node outside its
trees. -/
theorem unused_trees_iff (hwf : WellFormed self.nodeStore) {id : BlockId} :
    Unused self.trees id ↔ self.nodeStore.load id = none := by
  constructor
  · intro hu
    by_contra hl
    obtain ⟨n, hn⟩ := Option.ne_none_iff_exists'.1 hl
    obtain ⟨r, es, hr, hes, he⟩ := hwf.exists_root hn
    exact hu r es (by rw [trees, if_pos hr, hes]) (List.mem_map_of_mem Prod.fst he)
  · intro h r es hF hmem
    rw [trees] at hF
    split at hF
    · obtain ⟨e, he, rfl⟩ := List.mem_map.1 hmem
      obtain ⟨n, hn, hes⟩ := treeAt_eq_some.1 hF
      simp [treeNodes_sound hes hn e he] at h
    · cases hF

theorem trees_eq_some {r : BlockId} {es : List (BlockId × DataNode)} :
    self.trees r = some es ↔ self.nodeStore.IsRoot r ∧ self.nodeStore.treeAt r = some es := by
  rw [trees]; split <;> simp [*]

/-- **Every node is in exactly one tree**: in a well-formed store an id is stored exactly when one
tree of the family holds it, and then no other tree does. -/
theorem stored_iff_existsUnique_tree (hwf : WellFormed self.nodeStore) (x : BlockId) :
    self.nodeStore.load x ≠ none ↔ ∃! r, ∃ es, self.trees r = some es ∧ x ∈ es.map Prod.fst := by
  constructor
  · intro hx
    obtain ⟨n, hn⟩ := Option.ne_none_iff_exists'.1 hx
    obtain ⟨r, es, hr, hes, he⟩ := hwf.exists_root hn
    refine ⟨r, ⟨es, trees_eq_some.2 ⟨hr, hes⟩, List.mem_map_of_mem Prod.fst he⟩, ?_⟩
    rintro r' ⟨es', hF, hmem⟩
    obtain ⟨hr', hes'⟩ := trees_eq_some.1 hF
    by_contra hne
    obtain ⟨e, he', rfl⟩ := List.mem_map.1 hmem
    exact hwf.treeAt_disjoint hr hr' hne hes hes' e he' (List.mem_map.2 ⟨_, he, rfl⟩)
  · rintro ⟨r, ⟨es, hF, hmem⟩, -⟩ hnone
    exact (unused_trees_iff hwf).2 hnone r es hF hmem

theorem stored_iff_existsUnique_tree_twoTrees :
    WellFormed twoTrees.nodeStore ∧ (twoTrees.nodeStore.load ⟨3⟩ ≠ none ↔
      ∃! r, ∃ es, twoTrees.trees r = some es ∧ ⟨3⟩ ∈ es.map Prod.fst) :=
  ⟨by decide, stored_iff_existsUnique_tree (by decide) ⟨3⟩⟩

theorem trees_removeAll (hwf : WellFormed self.nodeStore) {r : BlockId}
    (hr : self.nodeStore.IsRoot r) {es : List (BlockId × DataNode)}
    (h : self.nodeStore.treeAt r = some es) :
    trees ⟨self.nodeStore.removeAll (es.map Prod.fst)⟩ = Function.update self.trees r none := by
  funext x
  by_cases hx : x = r
  · subst hx
    simp [trees, isRoot_removeAll h]
  · rw [Function.update_noteq hx, trees, trees]
    simp only [isRoot_removeAll h, hx, ne_eq, not_false_eq_true, and_true]
    split
    · exact hwf.treeAt_removeAll hr h ‹_› hx
    · rfl

theorem trees_addLeaf (hwf : WellFormed self.nodeStore) {id : BlockId}
    (h : self.nodeStore.load id = none) :
    trees ⟨self.nodeStore.addLeaf id []⟩ = Function.update self.trees id (some [(id, .leaf [])]) := by
  funext x
  by_cases hx : x = id
  · subst hx
    simp [trees, hwf.isRoot_addLeaf h, treeAt_addLeaf_self]
  · rw [Function.update_noteq hx, trees, trees]
    simp only [hwf.isRoot_addLeaf h, hx, or_false]
    split
    · exact hwf.treeAt_addLeaf h [] hx
    · rfl

end DataTreeStore

/-! ## Runs of the tree store -/

/-- A call a client makes on the tree store. -/
inductive Op where
  | createTree
  | tryCreateTree (id : BlockId)
  | removeTreeById (id : BlockId)
deriving DecidableEq, Repr

namespace Op

/-- The store after the call; `none` if the call fails. -/
def apply (ids : FreshIds) (self : DataTreeStore) : Op → Option DataTreeStore
  | createTree => some (self.createTree ids).1
  | tryCreateTree id => some (((self.tryCreateTree id).map Prod.fst).getD self)
  | removeTreeById id => (self.removeTreeById id).map Prod.fst

/-- The spec's contract: `remove_tree_by_id` is called with a root's id or an unused id. -/
def Allowed (self : DataTreeStore) : Op → Prop
  | removeTreeById id => self.nodeStore.IsRoot id ∨ self.nodeStore.load id = none
  | _ => True

end Op

/-- One call on the family of trees: a create adds a one-leaf tree under an unused id (a
`try_create_tree` of a used id changes nothing), a remove drops the tree of its id. -/
inductive Step : (BlockId → Option (List (BlockId × DataNode))) → Op →
    (BlockId → Option (List (BlockId × DataNode))) → Prop
  | createTree {F id} : DataTreeStore.Unused F id →
      Step F .createTree (Function.update F id (some [(id, .leaf [])]))
  | tryCreateTree_new {F id} : DataTreeStore.Unused F id →
      Step F (.tryCreateTree id) (Function.update F id (some [(id, .leaf [])]))
  | tryCreateTree_used {F id} : ¬ DataTreeStore.Unused F id → Step F (.tryCreateTree id) F
  | removeTreeById {F id} : Step F (.removeTreeById id) (Function.update F id none)

namespace DataTreeStore

variable {self : DataTreeStore}

/-- One call under the contract succeeds, keeps the invariants, and is a `Step` of the family of
trees. -/
theorem apply_step (hwf : WellFormed self.nodeStore) (ids : FreshIds) {op : Op}
    (hop : op.Allowed self) :
    ∃ self', op.apply ids self = some self' ∧ Step self.trees op self'.trees ∧
      WellFormed self'.nodeStore := by
  cases op with
  | createTree =>
    have h := ids.load_next self.nodeStore
    refine ⟨⟨self.nodeStore.addLeaf _ []⟩, rfl, ?_, hwf.addLeaf_wellFormed h []⟩
    rw [trees_addLeaf hwf h]
    exact Step.createTree ((unused_trees_iff hwf).2 h)
  | tryCreateTree id =>
    by_cases h : self.nodeStore.load id = none
    · have happ : (Op.tryCreateTree id).apply ids self = some ⟨self.nodeStore.addLeaf id []⟩ := by
        simp only [Op.apply, tryCreateTree_of_load_none h]; rfl
      refine ⟨_, happ, ?_, hwf.addLeaf_wellFormed h []⟩
      rw [trees_addLeaf hwf h]
      exact Step.tryCreateTree_new ((unused_trees_iff hwf).2 h)
    · obtain ⟨n, hn⟩ := Option.ne_none_iff_exists'.1 h
      refine ⟨self, by simp only [Op.apply, tryCreateTree_of_load hn]; rfl,
        Step.tryCreateTree_used fun hu => h ((unused_trees_iff hwf).1 hu), hwf⟩
  | removeTreeById id =>
    rcases hop with hr | h
    · obtain ⟨es, hes⟩ := hwf.treeAt_exists hr.1
      obtain ⟨n, hn, hes'⟩ := treeAt_eq_some.1 hes
      have happ : (Op.removeTreeById id).apply ids self =
          some ⟨self.nodeStore.removeAll (es.map Prod.fst)⟩ := by
        simp only [Op.apply, removeTreeById_of_treeAt hes (hwf.nodup_treeNodes hes' hn)]; rfl
      refine ⟨_, happ, ?_, hwf.removeAll_wellFormed hr hes⟩
      rw [trees_removeAll hwf hr hes]
      exact Step.removeTreeById
    · refine ⟨self, by simp only [Op.apply, removeTreeById_of_load_none h]; rfl, ?_, hwf⟩
      have hstep : Step self.trees (.removeTreeById id) (Function.update self.trees id none) :=
        Step.removeTreeById
      rwa [Function.update_eq_self_iff.2 (by simp [trees, IsRoot, h])] at hstep

/-- The stores a client reaches from `init`, keeping to the contract. -/
inductive Reachable (ids : FreshIds) (init : DataTreeStore) : DataTreeStore → Prop
  | init : Reachable ids init init
  | step {self self' : DataTreeStore} {op : Op} : Reachable ids init self → op.Allowed self →
      op.apply ids self = some self' → Reachable ids init self'

theorem Reachable.wellFormed {ids : FreshIds} {init : DataTreeStore}
    (hinit : WellFormed init.nodeStore) (h : Reachable ids init self) : WellFormed self.nodeStore := by
  induction h with
  | init => exact hinit
  | step _ hop happ ih =>
    obtain ⟨_, happ', -, hwf'⟩ := apply_step ih ids hop
    exact Option.some.inj (happ.symm.trans happ') ▸ hwf'

/-- **Every call under the contract, from every store a client reaches** from a well-formed one,
succeeds and is a `Step` of the family of trees. -/
theorem reachable_step {ids : FreshIds} {init : DataTreeStore} (hinit : WellFormed init.nodeStore)
    (h : Reachable ids init self) {op : Op} (hop : op.Allowed self) :
    ∃ self', op.apply ids self = some self' ∧ Step self.trees op self'.trees ∧
      Reachable ids init self' :=
  let ⟨self', happ, hstep, _⟩ := apply_step (h.wellFormed hinit) ids hop
  ⟨self', happ, hstep, h.step hop happ⟩

/-- From `twoTrees`, one `create_tree` and then the removal of the root `1`. -/
theorem reachable_step_afterCreate :
    WellFormed twoTrees.nodeStore ∧
      Reachable FreshIds.sumSucc twoTrees (twoTrees.createTree FreshIds.sumSucc).1 ∧
      (Op.removeTreeById ⟨1⟩).Allowed (twoTrees.createTree FreshIds.sumSucc).1 ∧
      ∃ self', (Op.removeTreeById ⟨1⟩).apply FreshIds.sumSucc
          (twoTrees.createTree FreshIds.sumSucc).1 = some self' ∧
        Step (twoTrees.createTree FreshIds.sumSucc).1.trees (.removeTreeById ⟨1⟩) self'.trees ∧
        Reachable FreshIds.sumSucc twoTrees self' :=
  have hreach : Reachable FreshIds.sumSucc twoTrees (twoTrees.createTree FreshIds.sumSucc).1 :=
    .step .init (show Op.createTree.Allowed twoTrees from trivial) rfl
  ⟨by decide, hreach, .inl (by decide), reachable_step (by decide) hreach (.inl (by decide))⟩

end DataTreeStore

end Cryfs
