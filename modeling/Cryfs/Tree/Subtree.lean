import Cryfs.Tree.NodeStore
import Mathlib.Algebra.Order.BigOperators.Group.List
import Mathlib.Algebra.Order.Ring.Nat

/-!
# Trees in the node store

A tree is not a value of its own: it is the nodes reachable from a root through the ids of
inner nodes. `treeNodes s fuel id node` lists them, children's trees in order and the root
last, which is the post order in which the spec's `DataTree::remove` removes them
(`removeSubtree`). Both walks go down at most `fuel` levels; a tree needs its root's depth
plus one (`treeAt`).

The walks only read `load` at the nodes they list, so a store that agrees there gives the same
tree (`treeNodes_frame`), and removing a tree whose ids are distinct is removing those ids
(`removeSubtree_eq`). From the spec's tree invariants (`WellFormed`: each child is stored one
level below its parent, and no id is anyone's child twice) follow that the walk succeeds, that a
tree lists no id twice (`nodup_treeNodes`), that two trees that share a node are nested
(`root_mem`), and that every stored node is in a root's tree (`exists_root`). Removing a root's
tree (`removeAll` of its ids) or adding a leaf under an unused id keeps the invariant and changes
no other root's tree.
-/

namespace Cryfs

open DataNodeStore

/-- The nodes of the tree under `node`, stored at `id`: its children's trees in order, the root
last; `none` if a child is missing or the walk goes deeper than `fuel` levels. -/
def treeNodes (s : DataNodeStore) : Nat → BlockId → DataNode → Option (List (BlockId × DataNode))
  | _, id, .leaf data => some [(id, .leaf data)]
  | 0, _, .inner _ _ => none
  | fuel + 1, id, .inner depth children =>
    (children.mapM fun child => (s.load child).bind (treeNodes s fuel child)).map
      fun subtrees => subtrees.flatten ++ [(id, .inner depth children)]

/-- The nodes of the trees under `children`, in order. -/
def childNodes (s : DataNodeStore) (fuel : Nat) (children : List BlockId) :
    Option (List (BlockId × DataNode)) :=
  (children.mapM fun child => (s.load child).bind (treeNodes s fuel child)).map List.flatten

/-- Modelled from the spec: `DataTree::remove`, a post-order walk that removes every node of the
tree under `node` (stored at `id`); `none` is the error of a missing child. -/
def removeSubtree : Nat → DataNodeStore → BlockId → DataNode → Option DataNodeStore
  | _, s, id, .leaf _ => some (s.remove id)
  | 0, _, _, .inner _ _ => none
  | fuel + 1, s, id, .inner _ children => do
    let s ← children.foldlM (fun s child => (s.load child).bind (removeSubtree fuel s child)) s
    pure (s.remove id)

/-- The loop of `removeSubtree` over an inner node's children. -/
def removeChildren (fuel : Nat) (s : DataNodeStore) (children : List BlockId) :
    Option DataNodeStore :=
  children.foldlM (fun s child => (s.load child).bind (removeSubtree fuel s child)) s

/-- The tree of the node stored at `id`. -/
def DataNodeStore.treeAt (s : DataNodeStore) (id : BlockId) : Option (List (BlockId × DataNode)) :=
  (s.load id).bind fun node => treeNodes s (node.depth + 1) id node

/-! ## Unfolding the walks -/

section Walk

variable {s : DataNodeStore} {fuel : Nat}

@[simp] theorem treeNodes_leaf (id : BlockId) (data : List UInt8) :
    treeNodes s fuel id (.leaf data) = some [(id, .leaf data)] := by
  cases fuel <;> rfl

theorem treeNodes_inner (id : BlockId) (d : Nat) (cs : List BlockId) :
    treeNodes s (fuel + 1) id (.inner d cs) =
      (childNodes s fuel cs).map (· ++ [(id, .inner d cs)]) := by
  rw [childNodes, Option.map_map]; rfl

theorem childNodes_cons_eq_some {c : BlockId} {cs : List BlockId} {es : List (BlockId × DataNode)} :
    childNodes s fuel (c :: cs) = some es ↔ ∃ m esc rest, s.load c = some m ∧
      treeNodes s fuel c m = some esc ∧ childNodes s fuel cs = some rest ∧ es = esc ++ rest := by
  simp only [childNodes, List.mapM_cons, Option.map_eq_some', Option.bind_eq_bind,
    Option.bind_eq_some, Option.pure_def, Option.some.injEq]
  constructor
  · rintro ⟨_, ⟨esc, ⟨m, hm, hesc⟩, rest, hrest, rfl⟩, rfl⟩
    exact ⟨m, esc, rest.flatten, hm, hesc, ⟨rest, hrest, rfl⟩, rfl⟩
  · rintro ⟨m, esc, _, hm, hesc, ⟨rest, hrest, rfl⟩, rfl⟩
    exact ⟨_, ⟨esc, ⟨m, hm, hesc⟩, rest, hrest, rfl⟩, rfl⟩

@[simp] theorem removeSubtree_leaf (t : DataNodeStore) (id : BlockId) (data : List UInt8) :
    removeSubtree fuel t id (.leaf data) = some (t.remove id) := by
  cases fuel <;> rfl

theorem removeSubtree_inner (t : DataNodeStore) (id : BlockId) (d : Nat) (cs : List BlockId) :
    removeSubtree (fuel + 1) t id (.inner d cs) =
      (removeChildren fuel t cs).bind fun t => some (t.remove id) :=
  rfl

theorem removeChildren_cons (t : DataNodeStore) (c : BlockId) (cs : List BlockId) :
    removeChildren fuel t (c :: cs) =
      ((t.load c).bind (removeSubtree fuel t c)).bind (removeChildren fuel · cs) := rfl

/-- The trees of the children: each child's tree is part of the list, and the list is made of
them. -/
theorem childNodes_spec {cs : List BlockId} {rest : List (BlockId × DataNode)}
    (h : childNodes s fuel cs = some rest) :
    (∀ c ∈ cs, ∃ m esc, s.load c = some m ∧ treeNodes s fuel c m = some esc ∧ esc ⊆ rest) ∧
      ∀ e ∈ rest, ∃ c ∈ cs, ∃ m esc, s.load c = some m ∧ treeNodes s fuel c m = some esc ∧
        e ∈ esc ∧ esc ⊆ rest := by
  induction cs generalizing rest with
  | nil => cases h; simp
  | cons c cs ih =>
    obtain ⟨m, esc, rest', hm, hesc, hrest', rfl⟩ := childNodes_cons_eq_some.1 h
    obtain ⟨ih₁, ih₂⟩ := ih hrest'
    have hl := List.subset_append_left esc rest'
    have hr := List.subset_append_right esc rest'
    refine ⟨fun c' hc' => ?_, fun e he => ?_⟩
    · rcases List.mem_cons.1 hc' with rfl | hc'
      · exact ⟨m, esc, hm, hesc, hl⟩
      · obtain ⟨m', esc', hm', hesc', hsub⟩ := ih₁ c' hc'
        exact ⟨m', esc', hm', hesc', hsub.trans hr⟩
    · rcases List.mem_append.1 he with he | he
      · exact ⟨c, List.mem_cons_self _ _, m, esc, hm, hesc, he, hl⟩
      · obtain ⟨c', hc', m', esc', hm', hesc', he', hsub⟩ := ih₂ e he
        exact ⟨c', List.mem_cons_of_mem _ hc', m', esc', hm', hesc', he', hsub.trans hr⟩

theorem treeNodes_inner_eq_some {id : BlockId} {d : Nat} {cs : List BlockId}
    {es : List (BlockId × DataNode)} (h : treeNodes s fuel id (.inner d cs) = some es) :
    ∃ fuel' rest, fuel = fuel' + 1 ∧ childNodes s fuel' cs = some rest ∧
      es = rest ++ [(id, .inner d cs)] := by
  cases fuel with
  | zero => cases h
  | succ fuel =>
    rw [treeNodes_inner, Option.map_eq_some'] at h
    obtain ⟨rest, hrest, rfl⟩ := h
    exact ⟨fuel, rest, rfl, hrest, rfl⟩

/-- What a tree lists: its root, or a node of the tree of one of the root's children. -/
theorem mem_treeNodes {id : BlockId} {n : DataNode} {es : List (BlockId × DataNode)}
    (h : treeNodes s fuel id n = some es) {e : BlockId × DataNode} (he : e ∈ es) :
    e = (id, n) ∨ ∃ c ∈ n.children, ∃ fuel' m esc, fuel = fuel' + 1 ∧ s.load c = some m ∧
      treeNodes s fuel' c m = some esc ∧ e ∈ esc ∧ esc ⊆ es := by
  cases n with
  | leaf data =>
    rw [treeNodes_leaf, Option.some.injEq] at h
    subst h
    exact .inl (List.mem_singleton.1 he)
  | inner d cs =>
    obtain ⟨fuel', rest, rfl, hrest, rfl⟩ := treeNodes_inner_eq_some h
    rcases List.mem_append.1 he with he | he
    · obtain ⟨c, hc, m, esc, hm, hesc, he, hsub⟩ := (childNodes_spec hrest).2 e he
      exact .inr ⟨c, hc, fuel', m, esc, rfl, hm, hesc, he,
        hsub.trans (List.subset_append_left _ _)⟩
    · exact .inl (List.mem_singleton.1 he)

/-- The tree of each child of a node is part of the node's tree. -/
theorem treeNodes_child {id : BlockId} {n : DataNode} {es : List (BlockId × DataNode)}
    (h : treeNodes s fuel id n = some es) {c : BlockId} (hc : c ∈ n.children) :
    ∃ fuel' m esc, fuel = fuel' + 1 ∧ s.load c = some m ∧ treeNodes s fuel' c m = some esc ∧
      esc ⊆ es := by
  cases n with
  | leaf data => cases hc
  | inner d cs =>
    obtain ⟨fuel', rest, rfl, hrest, rfl⟩ := treeNodes_inner_eq_some h
    obtain ⟨m, esc, hm, hesc, hsub⟩ := (childNodes_spec hrest).1 c hc
    exact ⟨fuel', m, esc, rfl, hm, hesc, hsub.trans (List.subset_append_left _ _)⟩

theorem mem_treeNodes_self {id : BlockId} {n : DataNode} {es : List (BlockId × DataNode)}
    (h : treeNodes s fuel id n = some es) : (id, n) ∈ es := by
  cases n with
  | leaf data =>
    rw [treeNodes_leaf, Option.some.injEq] at h
    exact h ▸ List.mem_singleton_self _
  | inner d cs =>
    obtain ⟨fuel', rest, rfl, -, rfl⟩ := treeNodes_inner_eq_some h
    exact List.mem_append_right _ (List.mem_singleton_self _)

end Walk

/-! ## What the walk reads -/

section Frame

variable {s s' : DataNodeStore}

/-- Every node a tree lists is stored under its id, if the root is. -/
theorem treeNodes_sound {fuel id n es} (h : treeNodes s fuel id n = some es)
    (hid : s.load id = some n) : ∀ e ∈ es, s.load e.1 = some e.2 := by
  induction fuel using Nat.strong_induction_on generalizing id n es with
  | _ fuel ih =>
    intro e he
    rcases mem_treeNodes h he with rfl | ⟨c, -, fuel', m, esc, rfl, hm, hesc, he, -⟩
    · exact hid
    · exact ih fuel' (Nat.lt_succ_self _) hesc hm e he

/-- Two nodes with one id listed by trees of stored roots are one node. -/
theorem entry_eq {fa fb a b na nb esa esb} (ha : treeNodes s fa a na = some esa)
    (hla : s.load a = some na) (hb : treeNodes s fb b nb = some esb) (hlb : s.load b = some nb)
    {e e' : BlockId × DataNode} (he : e ∈ esa) (he' : e' ∈ esb) (hee' : e.1 = e'.1) : e = e' :=
  Prod.ext hee' (Option.some.inj ((treeNodes_sound ha hla e he).symm.trans
    (hee' ▸ treeNodes_sound hb hlb e' he')))

/-- A store that agrees on the nodes of a tree has the same tree. -/
theorem treeNodes_frame : ∀ {fuel id n es}, treeNodes s fuel id n = some es →
    (∀ e ∈ es, s'.load e.1 = s.load e.1) → treeNodes s' fuel id n = some es
  | _, id, .leaf data, es, h, _ => by simpa using h
  | 0, _, .inner _ _, _, h, _ => by cases h
  | fuel + 1, id, .inner d cs, es, h, hag => by
    rw [treeNodes_inner, Option.map_eq_some'] at h ⊢
    obtain ⟨rest, hrest, rfl⟩ := h
    refine ⟨rest, ?_, rfl⟩
    have hag' : ∀ e ∈ rest, s'.load e.1 = s.load e.1 := fun e he =>
      hag e (List.mem_append_left _ he)
    clear hag
    induction cs generalizing rest with
    | nil => exact hrest
    | cons c cs ih =>
      obtain ⟨m, esc, rest', hm, hesc, hrest', rfl⟩ := childNodes_cons_eq_some.1 hrest
      have hesc' : ∀ e ∈ esc, s'.load e.1 = s.load e.1 := fun e he =>
        hag' e (List.mem_append_left _ he)
      have hm' : s'.load c = some m := (hesc' _ (mem_treeNodes_self hesc)).trans hm
      exact childNodes_cons_eq_some.2 ⟨m, esc, rest', hm', treeNodes_frame hesc hesc',
        ih rest' hrest' fun e he => hag' e (List.mem_append_right _ he), rfl⟩

/-- Every node of a tree but its root is the child of a node of the tree. -/
theorem treeNodes_parent {fuel id n es} (h : treeNodes s fuel id n = some es) :
    ∀ e ∈ es, e.1 ≠ id → ∃ p ∈ es, e.1 ∈ p.2.children := by
  induction fuel using Nat.strong_induction_on generalizing id n es with
  | _ fuel ih =>
    intro e he hne
    rcases mem_treeNodes h he with rfl | ⟨c, hc, fuel', m, esc, rfl, -, hesc, he, hsub⟩
    · exact absurd rfl hne
    by_cases hec : e.1 = c
    · exact ⟨(id, n), mem_treeNodes_self h, hec ▸ hc⟩
    · obtain ⟨p, hp, hpc⟩ := ih fuel' (Nat.lt_succ_self _) hesc e he hec
      exact ⟨p, hsub hp, hpc⟩

/-- The children of a node of a tree are in the tree. -/
theorem treeNodes_closed {fuel id n es} (h : treeNodes s fuel id n = some es) :
    ∀ p ∈ es, ∀ c ∈ p.2.children, ∃ e ∈ es, e.1 = c := by
  induction fuel using Nat.strong_induction_on generalizing id n es with
  | _ fuel ih =>
    intro p hp c hc
    rcases mem_treeNodes h hp with rfl | ⟨c', -, fuel', m, esc, rfl, -, hesc, hp, hsub⟩
    · obtain ⟨_, m, esc, -, -, hesc, hsub⟩ := treeNodes_child h hc
      exact ⟨(c, m), hsub (mem_treeNodes_self hesc), rfl⟩
    · obtain ⟨e, he, rfl⟩ := ih fuel' (Nat.lt_succ_self _) hesc p hp c hc
      exact ⟨e, hsub he, rfl⟩

end Frame

theorem treeAt_eq_some {s : DataNodeStore} {id : BlockId} {es : List (BlockId × DataNode)} :
    s.treeAt id = some es ↔ ∃ n, s.load id = some n ∧ treeNodes s (n.depth + 1) id n = some es :=
  Option.bind_eq_some

theorem treeAt_addLeaf_self (s : DataNodeStore) (id : BlockId) (data : List UInt8) :
    (s.addLeaf id data).treeAt id = some [(id, .leaf data)] := by
  rw [treeAt_eq_some]
  exact ⟨_, by rw [load_addLeaf, if_pos rfl], treeNodes_leaf id data⟩

/-! ## Removing a tree -/

/-- **Removing a tree is removing its ids**, in the walk's order, when no id occurs twice. -/
theorem removeSubtree_eq : ∀ {fuel s id n es}, treeNodes s fuel id n = some es →
    (es.map Prod.fst).Nodup → removeSubtree fuel s id n = some (s.removeAll (es.map Prod.fst))
  | _, s, id, .leaf data, es, h, _ => by
    rw [treeNodes_leaf, Option.some.injEq] at h
    subst h
    exact removeSubtree_leaf s id data
  | 0, _, _, .inner _ _, _, h, _ => by cases h
  | fuel + 1, s, id, .inner d cs, es, h, hnd => by
    rw [treeNodes_inner, Option.map_eq_some'] at h
    obtain ⟨rest, hrest, rfl⟩ := h
    rw [List.map_append] at hnd
    replace hnd := (List.nodup_append.1 hnd).1
    suffices ∀ t : DataNodeStore, (∀ x ∈ rest.map Prod.fst, t.load x = s.load x) →
        removeChildren fuel t cs = some (t.removeAll (rest.map Prod.fst)) by
      rw [removeSubtree_inner, this s fun _ _ => rfl, List.map_append, removeAll_append]
      rfl
    induction cs generalizing rest with
    | nil => cases hrest; exact fun t _ => rfl
    | cons c cs ih =>
      intro t hag
      obtain ⟨m, esc, rest', hm, hesc, hrest', rfl⟩ := childNodes_cons_eq_some.1 hrest
      rw [List.map_append] at hag hnd
      obtain ⟨hndc, hndr, hdisj⟩ := List.nodup_append.1 hnd
      have hagc : ∀ e ∈ esc, t.load e.1 = s.load e.1 := fun e he =>
        hag _ (List.mem_append_left _ (List.mem_map_of_mem _ he))
      have hm' : t.load c = some m := (hagc _ (mem_treeNodes_self hesc)).trans hm
      have hagr : ∀ x ∈ rest'.map Prod.fst, (t.removeAll (esc.map Prod.fst)).load x = s.load x :=
        fun x hx => by
          rw [load_removeAll, if_neg (List.disjoint_right.1 hdisj hx)]
          exact hag x (List.mem_append_right _ hx)
      rw [removeChildren_cons, hm', Option.some_bind, removeSubtree_eq (treeNodes_frame hesc hagc) hndc,
        Option.some_bind, ih rest' hrest' hndr _ hagr, List.map_append, removeAll_append]

/-! ## The tree invariants -/

namespace DataNodeStore

/-- Every id some node lists as a child, parent by parent. -/
def allChildren (s : DataNodeStore) : List BlockId := s.nodes.entries.flatMap fun e => e.2.children

/-- A root: a stored node that no node lists as a child. -/
def IsRoot (s : DataNodeStore) (r : BlockId) : Prop := s.load r ≠ none ∧ r ∉ s.allChildren

instance (s : DataNodeStore) (r : BlockId) : Decidable (s.IsRoot r) :=
  inferInstanceAs (Decidable (_ ∧ _))

theorem mem_allChildren {s : DataNodeStore} {c : BlockId} :
    c ∈ s.allChildren ↔ ∃ p n, s.load p = some n ∧ c ∈ n.children := by
  simp only [allChildren, List.mem_flatMap]
  exact ⟨fun ⟨e, he, hc⟩ => ⟨e.1, e.2, mem_entries.1 he, hc⟩,
    fun ⟨p, n, hp, hc⟩ => ⟨⟨p, n⟩, mem_entries.2 hp, hc⟩⟩

end DataNodeStore

/-- Modelled from the spec's tree invariants: every child of a stored node is stored one level
below it, and no id is listed as a child twice, so that a node's children are distinct and no
node has two parents (trees share no nodes). -/
structure WellFormed (s : DataNodeStore) : Prop where
  nodup_allChildren : s.allChildren.Nodup
  load_child : ∀ e ∈ s.nodes.entries, ∀ c ∈ e.2.children, ∃ m ∈ s.load c, m.depth + 1 = e.2.depth

instance (s : DataNodeStore) : Decidable (WellFormed s) :=
  decidable_of_iff (s.allChildren.Nodup ∧
      ∀ e ∈ s.nodes.entries, ∀ c ∈ e.2.children, ∃ m ∈ s.load c, m.depth + 1 = e.2.depth)
    ⟨fun ⟨h₁, h₂⟩ => ⟨h₁, h₂⟩, fun ⟨h₁, h₂⟩ => ⟨h₁, h₂⟩⟩

namespace WellFormed

variable {s : DataNodeStore} (hwf : WellFormed s)
include hwf

theorem child {p c : BlockId} {n : DataNode} (hp : s.load p = some n) (hc : c ∈ n.children) :
    ∃ m, s.load c = some m ∧ m.depth + 1 = n.depth :=
  hwf.load_child ⟨p, n⟩ (mem_entries.2 hp) c hc

theorem nodup_children {p : BlockId} {n : DataNode} (hp : s.load p = some n) : n.children.Nodup :=
  (List.nodup_flatMap.1 hwf.nodup_allChildren).1 ⟨p, n⟩ (mem_entries.2 hp)

theorem parent_unique {p q c : BlockId} {n n' : DataNode} (hp : s.load p = some n)
    (hq : s.load q = some n') (hc : c ∈ n.children) (hc' : c ∈ n'.children) : p = q := by
  by_contra hne
  exact (List.nodup_flatMap.1 hwf.nodup_allChildren).2.forall
    (by intro _ _ h _ h₁ h₂; exact h h₂ h₁)
    (mem_entries.2 hp) (mem_entries.2 hq) (fun h => hne (congrArg Sigma.fst h)) hc hc'

/-- Below its root a tree goes down: every other node it lists is less deep. -/
theorem depth_lt {fuel id n es} (h : treeNodes s fuel id n = some es) (hid : s.load id = some n) :
    ∀ e ∈ es, e = (id, n) ∨ e.2.depth < n.depth := by
  induction fuel using Nat.strong_induction_on generalizing id n es with
  | _ fuel ih =>
    intro e he
    rcases mem_treeNodes h he with rfl | ⟨c, hc, fuel', m, esc, rfl, hm, hesc, he, -⟩
    · exact .inl rfl
    obtain ⟨m', hm', hdm⟩ := hwf.child hid hc
    cases hm.symm.trans hm'
    rcases ih fuel' (Nat.lt_succ_self _) hesc hm e he with rfl | hlt
    · exact .inr (by simp only; omega)
    · exact .inr (by omega)

theorem depth_le {fuel id n es} (h : treeNodes s fuel id n = some es) (hid : s.load id = some n)
    {e : BlockId × DataNode} (he : e ∈ es) : e.2.depth ≤ n.depth := by
  rcases hwf.depth_lt h hid e he with rfl | hlt
  · exact le_rfl
  · exact hlt.le

/-- Two trees whose roots have one depth and which share a node have one root. -/
theorem root_eq {fa a na esa} (ha : treeNodes s fa a na = some esa) (hla : s.load a = some na)
    {fb b nb esb} (hb : treeNodes s fb b nb = some esb) (hlb : s.load b = some nb)
    (hd : na.depth = nb.depth) {e} (hea : e ∈ esa) (heb : e ∈ esb) : a = b := by
  induction fa using Nat.strong_induction_on generalizing a na esa b nb fb esb e with
  | _ fa ih =>
    rcases mem_treeNodes ha hea with rfl | ⟨ca, hca, fa', ma, esca, rfl, hma, hesca, hea, -⟩
    · rcases hwf.depth_lt hb hlb _ heb with h | h
      · exact (Prod.ext_iff.1 h).1
      · exact absurd hd (by simp only at h; omega)
    obtain ⟨_, hma', hda⟩ := hwf.child hla hca
    cases hma.symm.trans hma'
    rcases mem_treeNodes hb heb with rfl | ⟨cb, hcb, fb', mb, escb, rfl, hmb, hescb, heb, -⟩
    · exact absurd hd (by have := hwf.depth_le hesca hma hea; simp only at this; omega)
    obtain ⟨_, hmb', hdb⟩ := hwf.child hlb hcb
    cases hmb.symm.trans hmb'
    have hc : ca = cb := ih fa' (Nat.lt_succ_self _) hesca hma hescb hmb (by omega) hea heb
    exact hwf.parent_unique hla hlb hca (hc ▸ hcb)

/-- Two trees that share a node are nested: the shallower root is in the deeper root's tree. -/
theorem root_mem {fb b nb esb} (hb : treeNodes s fb b nb = some esb) (hlb : s.load b = some nb)
    {fa a na esa} (ha : treeNodes s fa a na = some esa) (hla : s.load a = some na)
    (hd : na.depth ≤ nb.depth) {e} (hea : e ∈ esa) (heb : e ∈ esb) : (a, na) ∈ esb := by
  induction fb using Nat.strong_induction_on generalizing b nb esb with
  | _ fb ih =>
    rcases mem_treeNodes hb heb with rfl | ⟨cb, hcb, fb', mb, escb, rfl, hmb, hescb, heb, hsub⟩
    · rcases hwf.depth_lt ha hla _ hea with h | h
      · exact h ▸ mem_treeNodes_self hb
      · exact absurd hd (by simp only at h; omega)
    obtain ⟨_, hmb', hdb⟩ := hwf.child hlb hcb
    cases hmb.symm.trans hmb'
    by_cases hle : na.depth ≤ mb.depth
    · exact hsub (ih fb' (Nat.lt_succ_self _) hescb hmb hle heb)
    · obtain rfl : a = b := hwf.root_eq ha hla hb hlb (by omega) hea (hsub heb)
      cases hla.symm.trans hlb
      exact mem_treeNodes_self hb

/-- The walk reaches every node of a tree within its depth. -/
theorem treeNodes_exists : ∀ {fuel id n}, s.load id = some n → n.depth < fuel →
    ∃ es, treeNodes s fuel id n = some es
  | _, id, .leaf data, _, _ => ⟨_, treeNodes_leaf id data⟩
  | 0, _, .inner _ _, _, h => absurd h (Nat.not_lt_zero _)
  | fuel + 1, id, .inner d cs, hid, hlt => by
    suffices ∃ rest, childNodes s fuel cs = some rest from
      let ⟨rest, h⟩ := this
      ⟨_, by rw [treeNodes_inner, h]; rfl⟩
    have hcs : ∀ c ∈ cs, ∃ m, s.load c = some m ∧ m.depth + 1 = d := fun c hc => hwf.child hid hc
    simp only [DataNode.depth_inner] at hlt
    clear hid
    induction cs with
    | nil => exact ⟨[], rfl⟩
    | cons c cs ih =>
      obtain ⟨m, hm, hdm⟩ := hcs c (List.mem_cons_self _ _)
      have hlt' : m.depth < fuel := by omega
      obtain ⟨esc, hesc⟩ := treeNodes_exists hm hlt'
      obtain ⟨rest, hrest⟩ := ih fun c hc => hcs c (List.mem_cons_of_mem _ hc)
      exact ⟨esc ++ rest, childNodes_cons_eq_some.2 ⟨m, esc, rest, hm, hesc, hrest, rfl⟩⟩

/-- A tree lists no id twice. -/
theorem nodup_treeNodes : ∀ {fuel id n es}, treeNodes s fuel id n = some es →
    s.load id = some n → (es.map Prod.fst).Nodup
  | _, id, .leaf data, es, h, _ => by
    rw [treeNodes_leaf, Option.some.injEq] at h
    subst h
    exact List.nodup_singleton _
  | 0, _, .inner _ _, _, h, _ => by cases h
  | fuel + 1, id, .inner d cs, es, h, hid => by
    rw [treeNodes_inner, Option.map_eq_some'] at h
    obtain ⟨rest, hrest, rfl⟩ := h
    have hcs : ∀ c ∈ cs, ∃ m, s.load c = some m ∧ m.depth + 1 = d := fun c hc => hwf.child hid hc
    rw [List.map_append, List.nodup_append]
    refine ⟨?_, List.nodup_singleton _, fun x hx hx' => ?_⟩
    · have hnd := hwf.nodup_children hid
      simp only [DataNode.children_inner] at hnd
      clear hid
      induction cs generalizing rest with
      | nil => cases hrest; exact List.nodup_nil
      | cons c cs ih =>
        obtain ⟨m, esc, rest', hm, hesc, hrest', rfl⟩ := childNodes_cons_eq_some.1 hrest
        rw [List.map_append, List.nodup_append]
        refine ⟨nodup_treeNodes hesc hm, ih rest' hrest' (fun c hc => hcs c (List.mem_cons_of_mem _ hc))
          (List.nodup_cons.1 hnd).2, fun x hx hx' => ?_⟩
        obtain ⟨e, he, rfl⟩ := List.mem_map.1 hx
        obtain ⟨e', he', hee'⟩ := List.mem_map.1 hx'
        obtain ⟨c', hc', m', esc', hm', hesc', he', -⟩ := (childNodes_spec hrest').2 e' he'
        obtain ⟨_, hm₁, hd₁⟩ := hcs c (List.mem_cons_self _ _)
        obtain ⟨_, hm₂, hd₂⟩ := hcs c' (List.mem_cons_of_mem _ hc')
        cases hm.symm.trans hm₁
        cases hm'.symm.trans hm₂
        obtain rfl : e' = e := entry_eq hesc' hm' hesc hm he' he hee'
        obtain rfl : c = c' := hwf.root_eq hesc hm hesc' hm' (by omega) he he'
        exact (List.nodup_cons.1 hnd).1 hc'
    · obtain ⟨e, he, rfl⟩ := List.mem_map.1 hx
      obtain ⟨c, hc, m, esc, hm, hesc, he, -⟩ := (childNodes_spec hrest).2 e he
      obtain ⟨_, hm', hdm⟩ := hcs c hc
      cases hm.symm.trans hm'
      have hload : s.load e.1 = some e.2 := treeNodes_sound hesc hm e he
      rw [List.mem_singleton.1 hx', hid, Option.some.injEq] at hload
      have hd : e.2.depth = d := by rw [← hload]; rfl
      have := hwf.depth_le hesc hm he
      omega

end WellFormed

/-! ## Roots and their trees -/

/-- A root is in no tree but its own. -/
theorem DataNodeStore.IsRoot.eq_of_mem {s : DataNodeStore} {x : BlockId} (hx : s.IsRoot x)
    {fuel r n es} (h : treeNodes s fuel r n = some es) (hr : s.load r = some n)
    {e : BlockId × DataNode} (he : e ∈ es) (hex : e.1 = x) : x = r := by
  by_contra hne
  obtain ⟨p, hp, hpc⟩ := treeNodes_parent h e he (hex ▸ hne)
  exact hx.2 (mem_allChildren.2 ⟨p.1, p.2, treeNodes_sound h hr p hp, hex ▸ hpc⟩)

/-- After removing a tree, the roots are the other roots. -/
theorem DataNodeStore.isRoot_removeAll {s : DataNodeStore} {r : BlockId}
    {es : List (BlockId × DataNode)} (h : s.treeAt r = some es) {x : BlockId} :
    (s.removeAll (es.map Prod.fst)).IsRoot x ↔ s.IsRoot x ∧ x ≠ r := by
  obtain ⟨nr, hnr, hes⟩ := treeAt_eq_some.1 h
  constructor
  · rintro ⟨hx, hxc⟩
    obtain ⟨n, hn⟩ := Option.ne_none_iff_exists'.1 hx
    obtain ⟨hxe, hn⟩ := load_removeAll_eq_some.1 hn
    refine ⟨⟨by simp [hn], fun hxc' => hxc ?_⟩, fun hxr => hxe (hxr ▸ List.mem_map_of_mem _
      (mem_treeNodes_self hes))⟩
    obtain ⟨p, np, hp, hpc⟩ := mem_allChildren.1 hxc'
    by_cases hpe : p ∈ es.map Prod.fst
    · obtain ⟨q, hq, rfl⟩ := List.mem_map.1 hpe
      obtain ⟨e, he, rfl⟩ := treeNodes_closed hes q hq x
        (by rwa [Option.some.inj ((treeNodes_sound hes hnr q hq).symm.trans hp)])
      exact absurd (List.mem_map_of_mem _ he) hxe
    · exact mem_allChildren.2 ⟨p, np, load_removeAll_eq_some.2 ⟨hpe, hp⟩, hpc⟩
  · rintro ⟨⟨hx, hxc⟩, hxr⟩
    have hxe : x ∉ es.map Prod.fst := fun hmem =>
      let ⟨e, he, hex⟩ := List.mem_map.1 hmem
      hxr (DataNodeStore.IsRoot.eq_of_mem ⟨hx, hxc⟩ hes hnr he hex)
    refine ⟨by rwa [load_removeAll, if_neg hxe], fun hxc' => hxc ?_⟩
    obtain ⟨p, np, hp, hpc⟩ := mem_allChildren.1 hxc'
    exact mem_allChildren.2 ⟨p, np, (load_removeAll_eq_some.1 hp).2, hpc⟩

namespace WellFormed

variable {s : DataNodeStore} (hwf : WellFormed s)
include hwf

theorem treeAt_exists {r : BlockId} (h : s.load r ≠ none) : ∃ es, s.treeAt r = some es := by
  obtain ⟨n, hn⟩ := Option.ne_none_iff_exists'.1 h
  obtain ⟨es, hes⟩ := hwf.treeNodes_exists hn (Nat.lt_succ_self _)
  exact ⟨es, treeAt_eq_some.2 ⟨n, hn, hes⟩⟩

/-- The trees of two roots share no node. -/
theorem treeAt_disjoint {r x : BlockId} (hr : s.IsRoot r) (hx : s.IsRoot x) (hne : x ≠ r)
    {es esx : List (BlockId × DataNode)} (h : s.treeAt r = some es) (h' : s.treeAt x = some esx) :
    ∀ e ∈ esx, e.1 ∉ es.map Prod.fst := by
  intro e he hmem
  obtain ⟨e', he', hee'⟩ := List.mem_map.1 hmem
  obtain ⟨nr, hnr, hes⟩ := treeAt_eq_some.1 h
  obtain ⟨nx, hnx, hesx⟩ := treeAt_eq_some.1 h'
  obtain rfl : e' = e := entry_eq hes hnr hesx hnx he' he hee'
  rcases le_total nx.depth nr.depth with hle | hle
  · exact hne (hx.eq_of_mem hes hnr (hwf.root_mem hes hnr hesx hnx hle he he') rfl)
  · exact hne (hr.eq_of_mem hesx hnx (hwf.root_mem hesx hnx hes hnr hle he' he) rfl).symm

/-- A child of a node left after removing a root's tree is left too. -/
theorem not_mem_of_child {r : BlockId} (hr : s.IsRoot r) {es : List (BlockId × DataNode)}
    (h : s.treeAt r = some es) {p c : BlockId} {n : DataNode} (hp : s.load p = some n)
    (hpe : p ∉ es.map Prod.fst) (hc : c ∈ n.children) : c ∉ es.map Prod.fst := by
  intro hmem
  obtain ⟨e, he, rfl⟩ := List.mem_map.1 hmem
  obtain ⟨nr, hnr, hes⟩ := treeAt_eq_some.1 h
  have hne : e.1 ≠ r := fun hr' => hr.2 (mem_allChildren.2 ⟨p, n, hp, hr' ▸ hc⟩)
  obtain ⟨q, hq, hqc⟩ := treeNodes_parent hes e he hne
  have hqp : q.1 = p := hwf.parent_unique (treeNodes_sound hes hnr q hq) hp hqc hc
  exact hpe (hqp ▸ List.mem_map_of_mem _ hq)

/-- Removing a root's tree keeps the invariants. -/
theorem removeAll_wellFormed {r : BlockId} (hr : s.IsRoot r) {es : List (BlockId × DataNode)}
    (h : s.treeAt r = some es) : WellFormed (s.removeAll (es.map Prod.fst)) := by
  have hsub := entries_removeAll_sublist (s := s) (es.map Prod.fst)
  have hnd := List.nodup_flatMap.1 hwf.nodup_allChildren
  refine ⟨List.nodup_flatMap.2 ⟨fun e he => hnd.1 e (hsub.subset he), hnd.2.sublist hsub⟩, ?_⟩
  intro e he c hc
  obtain ⟨hpe, hp⟩ := load_removeAll_eq_some.1 (mem_entries.1 he)
  obtain ⟨m, hm, hdm⟩ := hwf.child hp hc
  exact ⟨m, load_removeAll_eq_some.2 ⟨hwf.not_mem_of_child hr h hp hpe hc, hm⟩, hdm⟩

/-- Removing a root's tree leaves every other root's tree as it was. -/
theorem treeAt_removeAll {r : BlockId} (hr : s.IsRoot r) {es : List (BlockId × DataNode)}
    (h : s.treeAt r = some es) {x : BlockId} (hx : s.IsRoot x) (hne : x ≠ r) :
    (s.removeAll (es.map Prod.fst)).treeAt x = s.treeAt x := by
  obtain ⟨esx, hesx⟩ := hwf.treeAt_exists hx.1
  have hdisj := hwf.treeAt_disjoint hr hx hne h hesx
  obtain ⟨nx, hnx, hesx'⟩ := treeAt_eq_some.1 hesx
  rw [hesx, treeAt_eq_some]
  refine ⟨nx, load_removeAll_eq_some.2 ⟨hdisj _ (mem_treeNodes_self hesx'), hnx⟩,
    treeNodes_frame hesx' fun e he => ?_⟩
  rw [load_removeAll, if_neg (hdisj e he)]

theorem mem_treeAt_self {x : BlockId} {n : DataNode} (hx : s.load x = some n) :
    ∃ es, s.treeAt x = some es ∧ (x, n) ∈ es := by
  obtain ⟨es, hes⟩ := hwf.treeNodes_exists hx (Nat.lt_succ_self _)
  exact ⟨es, treeAt_eq_some.2 ⟨n, hx, hes⟩, mem_treeNodes_self hes⟩

/-- A stored node that is not a root has a parent one level up. -/
theorem exists_parent {x : BlockId} {n : DataNode} (hx : s.load x = some n) (hroot : ¬ s.IsRoot x) :
    ∃ p np, s.load p = some np ∧ x ∈ np.children ∧ n.depth + 1 = np.depth := by
  obtain ⟨p, np, hp, hpc⟩ := mem_allChildren.1 (not_not.1 fun hc => hroot ⟨by simp [hx], hc⟩)
  obtain ⟨m, hm, hdm⟩ := hwf.child hp hpc
  cases hx.symm.trans hm
  exact ⟨p, np, hp, hpc, hdm⟩

/-- Every stored node is in the tree of a root: a well-formed store holds no node outside its
trees. -/
theorem exists_root {x : BlockId} {n : DataNode} (hx : s.load x = some n) :
    ∃ r es, s.IsRoot r ∧ s.treeAt r = some es ∧ (x, n) ∈ es := by
  let bound := (s.nodes.entries.map fun e => e.2.depth).sum
  have hbound : ∀ {y m}, s.load y = some m → m.depth ≤ bound := fun hy =>
    List.le_sum_of_mem (List.mem_map_of_mem (fun e => e.2.depth) (mem_entries.2 hy))
  obtain ⟨k, hk⟩ : ∃ k, bound - n.depth = k := ⟨_, rfl⟩
  induction k using Nat.strong_induction_on generalizing x n with
  | _ k ih =>
    by_cases hroot : s.IsRoot x
    · obtain ⟨es, hes, hmem⟩ := hwf.mem_treeAt_self hx
      exact ⟨x, es, hroot, hes, hmem⟩
    obtain ⟨p, np, hp, hpc, hd⟩ := hwf.exists_parent hx hroot
    obtain ⟨r, es, hr, hes, hpe⟩ := ih _ (by have := hbound hp; omega) hp rfl
    obtain ⟨nr, hnr, hes'⟩ := treeAt_eq_some.1 hes
    obtain ⟨e, he, hex⟩ := treeNodes_closed hes' _ hpe x hpc
    obtain rfl : e = (x, n) := Prod.ext hex (Option.some.inj
      ((treeNodes_sound hes' hnr e he).symm.trans (hex ▸ hx)))
    exact ⟨r, es, hr, hes, he⟩

theorem not_mem_allChildren {id : BlockId} (h : s.load id = none) : id ∉ s.allChildren := by
  intro hc
  obtain ⟨p, n, hp, hpc⟩ := mem_allChildren.1 hc
  obtain ⟨m, hm, -⟩ := hwf.child hp hpc
  exact absurd (h.symm.trans hm) (by simp)

end WellFormed

namespace DataNodeStore

theorem allChildren_addLeaf {s : DataNodeStore} {id : BlockId} (h : s.load id = none)
    (data : List UInt8) : (s.addLeaf id data).allChildren = s.allChildren := by
  rw [allChildren, entries_addLeaf h, List.flatMap_cons]
  rfl

end DataNodeStore

namespace WellFormed

variable {s : DataNodeStore} (hwf : WellFormed s) {id : BlockId} (h : s.load id = none)
  (data : List UInt8)
include hwf h

/-- A leaf under an unused id keeps the invariants. -/
theorem addLeaf_wellFormed : WellFormed (s.addLeaf id data) := by
  refine ⟨(allChildren_addLeaf h data).symm ▸ hwf.nodup_allChildren, ?_⟩
  intro e he c hc
  rw [entries_addLeaf h, List.mem_cons] at he
  rcases he with rfl | he
  · cases hc
  · obtain ⟨m, hm, hdm⟩ := hwf.load_child e he c hc
    have hne : c ≠ id := fun hci => by simp [hci ▸ h] at hm
    exact ⟨m, by rwa [load_addLeaf, if_neg hne], hdm⟩

/-- A leaf under an unused id is a new root. -/
theorem isRoot_addLeaf {x : BlockId} : (s.addLeaf id data).IsRoot x ↔ s.IsRoot x ∨ x = id := by
  rw [DataNodeStore.IsRoot, DataNodeStore.IsRoot, allChildren_addLeaf h, load_addLeaf]
  by_cases hx : x = id
  · subst hx; simp [hwf.not_mem_allChildren h]
  · simp [hx]

/-- A leaf under an unused id leaves every other tree as it was. -/
theorem treeAt_addLeaf {x : BlockId} (hx : x ≠ id) : (s.addLeaf id data).treeAt x = s.treeAt x := by
  by_cases hl : s.load x = none
  · rw [DataNodeStore.treeAt, DataNodeStore.treeAt, load_addLeaf, if_neg hx, hl]; rfl
  obtain ⟨esx, hesx⟩ := hwf.treeAt_exists hl
  obtain ⟨nx, hnx, hesx'⟩ := treeAt_eq_some.1 hesx
  rw [hesx, treeAt_eq_some]
  refine ⟨nx, by rwa [load_addLeaf, if_neg hx], treeNodes_frame hesx' fun e he => ?_⟩
  have hne : e.1 ≠ id := fun hei => by simp [← hei, treeNodes_sound hesx' hnx e he] at h
  rw [load_addLeaf, if_neg hne]

end WellFormed

end Cryfs
