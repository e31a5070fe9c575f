import Mathlib.Logic.Basic

/-!
# Path lookup in the in-memory file system

The in-memory example device (`rustfs/examples/inmemory/device.rs`) resolves an absolute path
from its root directory, one component at a time: a directory looks the component up among its
children, and a file or a symlink met before the path ends stops the walk with
`NodeIsNotADirectory`. `load_dir`, `load_symlink` and `load_file` walk the same way and then check
the kind of the node they found.

A directory's child lookup (`InMemoryDirRef::get_child`) and `FsError` are not among the sources.
The lookup is a parameter, read at one moment of the file system; the code locks each directory
on its own, so a walk next to a rename may see each directory at a different moment.

What callers get from the walk: the walk of a longer path continues from the node of its prefix,
a file or a symlink in the middle of a path fails it, and every proper prefix of a path that
resolves is a directory that `load_dir` loads.
-/

namespace Cryfs

/-- `FsError`: the variants this device returns, and any other by name. -/
inductive FsError where
  | nodeIsNotADirectory
  | nodeIsNotASymlink
  | nodeIsADirectory
  | unknownError
  | other (name : String)
  deriving DecidableEq, Repr

abbrev FsResult := Except FsError

/-- `InMemoryNodeRef`: a directory, a symlink or a file of the in-memory file system. -/
inductive InMemoryNodeRef (Dir Symlink File : Type) where
  | dir (dir : Dir)
  | symlink (symlink : Symlink)
  | file (file : File)
  deriving DecidableEq, Repr

/-- `RootDir`: the root directory. -/
structure RootDir (Dir : Type) where
  rootdir : Dir

namespace RootDir

variable {Dir Symlink File : Type}
  (getChild : Dir → String → FsResult (InMemoryNodeRef Dir Symlink File))

/-- The body of the loop of `RootDir::load_node`, for one path component. -/
def loadNodeStep (currentNode : InMemoryNodeRef Dir Symlink File) (component : String) :
    FsResult (InMemoryNodeRef Dir Symlink File) :=
  match currentNode with
  | .dir dir => getChild dir component
  | .symlink _ | .file _ => .error .nodeIsNotADirectory

/-- `RootDir::load_node`: the loop over the path's components, from the root directory. -/
def loadNode (self : RootDir Dir) (path : List String) : FsResult (InMemoryNodeRef Dir Symlink File) :=
  path.foldlM (loadNodeStep getChild) (.dir self.rootdir)

/-- `load_dir` and `load_symlink`: walk, then keep the node if `kind` selects it, else fail
with `err`. -/
def loadKind {α : Type} (kind : InMemoryNodeRef Dir Symlink File → Option α) (err : FsError)
    (self : RootDir Dir) (path : List String) : FsResult α := do
  match kind (← self.loadNode getChild path) with
  | some node => pure node
  | none => throw err

/-- `RootDir::load_dir`. -/
def loadDir (self : RootDir Dir) (path : List String) : FsResult Dir :=
  loadKind getChild (fun | .dir dir => some dir | _ => none) .nodeIsNotADirectory self path

/-- `RootDir::load_symlink`. -/
def loadSymlink (self : RootDir Dir) (path : List String) : FsResult Symlink :=
  loadKind getChild (fun | .symlink symlink => some symlink | _ => none) .nodeIsNotASymlink self path

/-- `RootDir::load_file`: a directory and a symlink fail with different errors, a symlink with
`UnknownError` (the code asks what the right error is). -/
def loadFile (self : RootDir Dir) (path : List String) : FsResult File := do
  match ← self.loadNode getChild path with
  | .file file => pure file
  | .dir _ => throw .nodeIsADirectory
  | .symlink _ => throw .unknownError

variable {getChild} (self : RootDir Dir)

@[simp] theorem loadNode_nil : self.loadNode getChild [] = .ok (.dir self.rootdir) := rfl

theorem loadNode_append (p q : List String) :
    self.loadNode getChild (p ++ q) =
      self.loadNode getChild p >>= fun node => q.foldlM (loadNodeStep getChild) node :=
  List.foldlM_append _ _ _ _

/-- Past a file or a symlink, any further component fails the walk. -/
theorem foldlM_loadNodeStep_of_not_dir {node : InMemoryNodeRef Dir Symlink File}
    (h : ∀ d, node ≠ .dir d) (c : String) (q : List String) :
    (c :: q).foldlM (loadNodeStep getChild) node = .error .nodeIsNotADirectory := by
  cases node with
  | dir d => exact absurd rfl (h d)
  | symlink _ | file _ => rfl

/-- A path through a file or a symlink fails with `NodeIsNotADirectory`, whatever follows. -/
theorem loadNode_append_of_not_dir {p : List String} {node : InMemoryNodeRef Dir Symlink File}
    (hp : self.loadNode getChild p = .ok node) (h : ∀ d, node ≠ .dir d) (c : String)
    (q : List String) : self.loadNode getChild (p ++ c :: q) = .error .nodeIsNotADirectory := by
  rw [loadNode_append, hp]
  exact foldlM_loadNodeStep_of_not_dir h c q

/-- A failed prefix fails every path through it with its error. -/
theorem loadNode_append_of_error {p : List String} {e : FsError}
    (hp : self.loadNode getChild p = .error e) (q : List String) :
    self.loadNode getChild (p ++ q) = .error e := by
  rw [loadNode_append, hp]; rfl

/-- A typed load succeeds exactly on a node of its kind; otherwise it fails with the walk's error
or with its own. -/
theorem loadKind_eq {α : Type} (kind : InMemoryNodeRef Dir Symlink File → Option α) (err : FsError)
    (path : List String) :
    loadKind getChild kind err self path =
      match self.loadNode getChild path with
      | .ok node => (kind node).elim (.error err) .ok
      | .error e => .error e := by
  unfold loadKind
  rcases self.loadNode getChild path with e | node
  · rfl
  · show (match kind node with | some a => pure a | none => throw err) =
      (kind node).elim (.error err) .ok
    cases kind node <;> rfl

theorem loadDir_eq_ok {path : List String} {dir : Dir} :
    self.loadDir getChild path = .ok dir ↔ self.loadNode getChild path = .ok (.dir dir) := by
  rw [loadDir, loadKind_eq]
  rcases self.loadNode getChild path with e | (d | s | f) <;> simp

/-- On a symlink, `load_dir` fails with the kind it wanted, while `load_file` fails with
`UnknownError`: its caller cannot tell a symlink from a failure it knows nothing about. -/
theorem loaders_of_symlink {path : List String} {symlink : Symlink}
    (hp : self.loadNode getChild path = .ok (.symlink symlink)) :
    self.loadDir getChild path = .error .nodeIsNotADirectory ∧
      self.loadSymlink getChild path = .ok symlink ∧ self.loadFile getChild path = .error .unknownError := by
  refine ⟨?_, ?_, ?_⟩
  · rw [loadDir, loadKind_eq, hp]; rfl
  · rw [loadSymlink, loadKind_eq, hp]; rfl
  · unfold loadFile; rw [hp]; rfl

/-- **Every proper prefix of a path that resolves is a directory.** If `p ++ q` resolves, with `q`
not empty, then `load_dir` loads `p`, and the rest of the path resolves from that directory to the
same node. So the parent path of every node that loads is a directory that loads, and looking the
last component up in it gives the node. -/
theorem loadDir_of_loadNode_append {p q : List String} {node : InMemoryNodeRef Dir Symlink File}
    (hq : q ≠ []) (h : self.loadNode getChild (p ++ q) = .ok node) :
    ∃ dir, self.loadDir getChild p = .ok dir ∧
      q.foldlM (loadNodeStep getChild) (.dir dir) = .ok node := by
  rcases hp : self.loadNode getChild p with e | node'
  · rw [loadNode_append_of_error self hp] at h; cases h
  cases node' with
  | dir d =>
    rw [loadNode_append, hp] at h
    exact ⟨d, (loadDir_eq_ok self).2 hp, h⟩
  | symlink _ | file _ =>
    obtain ⟨c, q, rfl⟩ := List.exists_cons_of_ne_nil hq
    rw [loadNode_append_of_not_dir self hp (fun _ => InMemoryNodeRef.noConfusion)] at h
    cases h

/-- A root `0` holding a directory `a` (inode `1`) that holds a file `b`. -/
def twoLevel : Nat → String → FsResult (InMemoryNodeRef Nat Unit Unit)
  | 0, "a" => .ok (.dir 1)
  | 1, "b" => .ok (.file ())
  | _, _ => .error (.other "NodeDoesNotExist")

theorem loadDir_of_loadNode_append_twoLevel :
    ["b"] ≠ [] ∧ loadNode twoLevel ⟨0⟩ (["a"] ++ ["b"]) = .ok (.file ()) ∧
      ∃ dir, loadDir twoLevel ⟨0⟩ ["a"] = .ok dir ∧
        ["b"].foldlM (loadNodeStep twoLevel) (.dir dir) = .ok (.file ()) :=
  ⟨by simp, rfl, loadDir_of_loadNode_append ⟨0⟩ (by simp) rfl⟩

end RootDir

end Cryfs
