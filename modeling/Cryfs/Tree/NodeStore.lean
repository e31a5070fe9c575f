import Mathlib.Data.List.AList

/-!
# The node store

`DataTreeStore` (`data_tree_store/store.rs`) keeps its trees in a `DataNodeStore`, whose code is
not among the sources. It is modelled from the spec: a finite map from block ids to typed nodes,
a leaf with its live bytes or an inner node with its depth and its children's ids. The map is an
`AList`, so a store cannot hold two nodes under one id.

`load`, `remove` and the two create functions are the node store's contract; `removeAll` is the
effect the spec asks of removing a whole tree. Each gets the lemmas that say what a later `load`
sees (`load_remove`, `load_addLeaf`, `load_removeAll`) and how `num_nodes` moves, so that the
tree modules never unfold the map.
-/

namespace Cryfs

/-- A block id. -/
structure BlockId where
  toNat : Nat
deriving DecidableEq, Repr

/-- Modelled from the spec: a node as `DataNodeStore::load` returns it. -/
inductive DataNode where
  /-- A leaf (depth 0) and its live bytes. -/
  | leaf (data : List UInt8)
  /-- An inner node, its depth and its children's ids in order. -/
  | inner (depth : Nat) (children : List BlockId)
deriving DecidableEq, Repr

namespace DataNode

/-- `DataNode::depth`. -/
def depth : DataNode → Nat
  | .leaf _ => 0
  | .inner depth _ => depth

/-- The ids a node points to: none for a leaf. -/
def children : DataNode → List BlockId
  | .leaf _ => []
  | .inner _ children => children

@[simp] theorem depth_leaf (data : List UInt8) : (leaf data).depth = 0 := rfl
@[simp] theorem depth_inner (d : Nat) (cs : List BlockId) : (inner d cs).depth = d := rfl
@[simp] theorem children_leaf (data : List UInt8) : (leaf data).children = [] := rfl
@[simp] theorem children_inner (d : Nat) (cs : List BlockId) : (inner d cs).children = cs := rfl

end DataNode

/-- Modelled from the spec: the node store, the nodes of the block store by id. -/
structure DataNodeStore where
  nodes : AList (fun _ : BlockId => DataNode)

namespace DataNodeStore

variable (s : DataNodeStore)

/-- `DataNodeStore::load`. -/
def load (id : BlockId) : Option DataNode := s.nodes.lookup id

/-- `DataNodeStore::remove`. -/
def remove (id : BlockId) : DataNodeStore := ⟨s.nodes.erase id⟩

/-- The store with a new leaf at `id`. -/
def addLeaf (id : BlockId) (data : List UInt8) : DataNodeStore := ⟨s.nodes.insert id (.leaf data)⟩

/-- `DataNodeStore::try_create_new_leaf_node`: `None` if `id` is taken. -/
def tryCreateNewLeafNode (id : BlockId) (data : List UInt8) : Option (DataNodeStore × DataNode) :=
  match s.load id with
  | some _ => none
  | none => some (s.addLeaf id data, .leaf data)

/-- `DataNodeStore::num_nodes`. -/
def numNodes : Nat := s.nodes.entries.length

/-- `DataNodeStore::all_nodes`. -/
def allNodes : List BlockId := s.nodes.keys

/-- Every node of `ids` removed, in order. -/
def removeAll (ids : List BlockId) : DataNodeStore := ids.foldl remove s

end DataNodeStore

/-- Modelled from the spec: the ids `create` hands out. The block store draws random ids until one
is unused; the model takes the one it ends with, as a function of the store. -/
structure FreshIds where
  next : DataNodeStore → BlockId
  load_next : ∀ s : DataNodeStore, s.load (next s) = none

namespace DataNodeStore

variable {s : DataNodeStore}

/-- `DataNodeStore::create_new_leaf_node`: a leaf under a fresh id. -/
def createNewLeafNode (ids : FreshIds) (s : DataNodeStore) (data : List UInt8) :
    DataNodeStore × BlockId × DataNode :=
  let id := ids.next s
  (s.addLeaf id data, id, .leaf data)

/-! ## What `load` sees -/

theorem load_remove (id x : BlockId) :
    (s.remove id).load x = if x = id then none else s.load x := by
  split
  · subst x; exact AList.lookup_erase _ _
  · exact AList.lookup_erase_ne ‹_›

theorem load_addLeaf (id x : BlockId) (data : List UInt8) :
    (s.addLeaf id data).load x = if x = id then some (.leaf data) else s.load x := by
  split
  · subst x; exact AList.lookup_insert _
  · exact AList.lookup_insert_ne ‹_›

theorem load_removeAll (ids : List BlockId) (x : BlockId) :
    (s.removeAll ids).load x = if x ∈ ids then none else s.load x := by
  induction ids generalizing s with
  | nil => simp [removeAll]
  | cons i ids ih =>
    simp only [removeAll, List.foldl_cons] at ih ⊢
    rw [ih, load_remove]
    by_cases hx : x = i <;> simp [hx]

theorem load_removeAll_eq_some {ids : List BlockId} {x : BlockId} {n : DataNode} :
    (s.removeAll ids).load x = some n ↔ x ∉ ids ∧ s.load x = some n := by
  rw [load_removeAll]; split <;> simp [*]

theorem removeAll_append (ids ids' : List BlockId) :
    s.removeAll (ids ++ ids') = (s.removeAll ids).removeAll ids' := List.foldl_append _ _ _ _

theorem mem_allNodes {x : BlockId} : x ∈ s.allNodes ↔ s.load x ≠ none := by
  rw [allNodes, ← AList.mem_keys, Ne, load, AList.lookup_eq_none, not_not]

theorem mem_entries {x : BlockId} {n : DataNode} : ⟨x, n⟩ ∈ s.nodes.entries ↔ s.load x = some n :=
  AList.mem_lookup_iff.symm

theorem nodup_allNodes : s.allNodes.Nodup := s.nodes.keys_nodup

theorem entries_removeAll_sublist (ids : List BlockId) :
    List.Sublist (s.removeAll ids).nodes.entries s.nodes.entries := by
  induction ids generalizing s with
  | nil => exact List.Sublist.refl _
  | cons i ids ih => exact ih.trans (List.kerase_sublist i _)

theorem entries_addLeaf {id : BlockId} (h : s.load id = none) (data : List UInt8) :
    (s.addLeaf id data).nodes.entries = ⟨id, .leaf data⟩ :: s.nodes.entries :=
  AList.insert_entries_of_neg (AList.lookup_eq_none.1 h)

/-! ## How `num_nodes` moves -/

theorem numNodes_eq_length_allNodes : s.numNodes = s.allNodes.length :=
  (List.length_map _ _).symm

theorem numNodes_remove {id : BlockId} (h : s.load id ≠ none) :
    (s.remove id).numNodes = s.numNodes - 1 := by
  rw [numNodes_eq_length_allNodes, numNodes_eq_length_allNodes]
  exact (congrArg List.length (AList.keys_erase id s.nodes)).trans
    (List.length_erase_of_mem (mem_allNodes.2 h))

theorem numNodes_removeAll {ids : List BlockId} (hnd : ids.Nodup) (h : ∀ x ∈ ids, s.load x ≠ none) :
    (s.removeAll ids).numNodes = s.numNodes - ids.length := by
  induction ids generalizing s with
  | nil => rfl
  | cons i ids ih =>
    have hi : i ∉ ids := (List.nodup_cons.1 hnd).1
    have hrest : ∀ x ∈ ids, (s.remove i).load x ≠ none := fun x hx => by
      rw [load_remove, if_neg (fun e : x = i => hi (e ▸ hx))]; exact h x (List.mem_cons_of_mem _ hx)
    rw [removeAll, List.foldl_cons, ← removeAll, ih (List.nodup_cons.1 hnd).2 hrest,
      numNodes_remove (h i (List.mem_cons_self _ _)), List.length_cons]
    omega

theorem numNodes_addLeaf {id : BlockId} (h : s.load id = none) (data : List UInt8) :
    (s.addLeaf id data).numNodes = s.numNodes + 1 := by
  rw [numNodes, entries_addLeaf h, List.length_cons]; rfl

/-! ## The create functions -/

theorem tryCreateNewLeafNode_of_load {id : BlockId} {n : DataNode} (h : s.load id = some n)
    (data : List UInt8) : s.tryCreateNewLeafNode id data = none := by
  simp [tryCreateNewLeafNode, h]

theorem tryCreateNewLeafNode_of_load_none {id : BlockId} (h : s.load id = none)
    (data : List UInt8) : s.tryCreateNewLeafNode id data = some (s.addLeaf id data, .leaf data) := by
  simp [tryCreateNewLeafNode, h]

end DataNodeStore

end Cryfs
