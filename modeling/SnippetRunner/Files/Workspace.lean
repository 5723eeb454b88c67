import SnippetRunner.Files.Tree

/-!
# Workspaces

The private directory of one worker, which is made for it and removed with it. Three directories in
it are there from the start, and the worker may write to those alone.
-/

namespace SnippetRunner.Files

/-- The directories that a worker may write to. -/
def writableDirectories : List String := ["work", "tmp", "home"]

/-- A workspace, by its root directory. -/
structure Workspace where
  root : Path
  deriving DecidableEq, Repr

namespace Workspace

/-- Makes a directory in the workspace and gives its path. -/
def createDirectory (w : Workspace) (t : Tree) (path : String) : Except FileError (Path × Tree) := do
  let full := w.root.child path
  let t ← t.ensureDirectory full
  .ok (full, t)

/-- Makes a workspace at this path, with its writable directories. -/
def create (root : Path) (t : Tree) : Except FileError (Workspace × Tree) := do
  let w : Workspace := ⟨root⟩
  let t ← t.ensureDirectory root
  let t ← writableDirectories.foldlM
    (fun t d => do
      let (_, t) ← w.createDirectory t d
      .ok t) t
  .ok (w, t)

/-- The absolute paths of the writable directories. -/
def writable (w : Workspace) : List Path := writableDirectories.map w.root.child

/-- Writes a file in the workspace and gives its path. Directories on the way to it are made; a file
that is to be executable becomes so. -/
def writeFile (w : Workspace) (t : Tree) (path : String) (content : List UInt8)
    (executable : Bool) : Except FileError (Path × Tree) := do
  let full := w.root.child path
  let t ← match full.parent? with
    | some above => t.ensureDirectory above
    | none => .ok t
  let t ← t.write full content
  let t ← if executable then t.setMode full 0o755 else .ok t
  .ok (full, t)

/-- The part of a path below the root of the workspace, spelled as it is there. -/
def relative? (w : Workspace) (p : Path) : Option Path :=
  if p.startsWith w.root then
    let parts := (p.bodyParts.drop (w.root.bodyParts.filter fun part => !Path.isIdle part).length)
    let front := parts.dropWhile Path.isIdle
    let back := (front.reverse.dropWhile Path.isIdle).reverse
    some ⟨Path.join back⟩
  else none

/-- One line for each thing in the workspace: a letter for its kind, its path, and the size of a
file. A file that someone may execute has a letter of its own. -/
def listing (w : Workspace) (t : Tree) : List String :=
  match t.locate w.root with
  | .error _ => []
  | .ok (root, _) =>
    let below := t.nodes.filter fun e => root.isPrefixOf e.1 && e.1 != root
    let line (e : Place × Node) : String :=
      let name := Text.decodeLossy (Path.join (e.1.drop root.length))
      match e.2 with
      | .directory => "d " ++ name
      | .file f =>
        (if f.mode &&& 0o111 != 0 then "x " else "f ") ++ name ++ " " ++
          Text.decimal f.content.length
      | .link _ => "l " ++ name
    (below.map line).mergeSort fun a b => !(b < a)

/-- The tree without the workspace. -/
def discard (w : Workspace) (t : Tree) : Tree :=
  match t.locate w.root with
  | .error _ => t
  | .ok (root, _) => { t with nodes := t.nodes.filter fun e => !root.isPrefixOf e.1 }

end Workspace

end SnippetRunner.Files
