import SnippetRunner.Files.Error
import SnippetRunner.Path

/-!
# File trees

The files, directories and symbolic links below a root directory, and the walk from a path to what
it names. The walk works on the spelling of a path as the system does: links are followed as they
are met, two dots lead from a directory to the one that holds it, and all but the last name of a
path have to be directories.
-/

namespace SnippetRunner.Files

/-- A name in a directory. -/
abbrev Name := List UInt8

/-- A file. -/
structure File where
  content : List UInt8
  /-- The permission bits. -/
  mode : Nat
  /-- When the content last changed, in seconds. -/
  modified : Nat
  deriving DecidableEq, Repr

/-- What a name in a directory stands for. -/
inductive Node where
  | directory
  | file (f : File)
  | link (target : Path)
  deriving DecidableEq, Repr

/-- A place, by the names that lead to it from the root directory. -/
abbrev Place := List Name

/-- A file tree: what stands where, apart from the root directory itself. Names of relative paths
lead on from the working directory. -/
structure Tree where
  nodes : List (Place × Node)
  working : Place
  deriving DecidableEq, Repr

namespace Tree

/-- What stands at a place. -/
def node? (t : Tree) (p : Place) : Option Node :=
  if p = [] then some .directory else (t.nodes.find? fun e => e.1 == p).map Prod.snd

/-- Puts something at a place, instead of what stands there. -/
def put (t : Tree) (p : Place) (n : Node) : Tree :=
  { t with nodes := (t.nodes.filter fun e => e.1 != p) ++ [(p, n)] }

/-- Removes what stands at a place. -/
def erase (t : Tree) (p : Place) : Tree :=
  { t with nodes := t.nodes.filter fun e => e.1 != p }

/-! ## Walking -/

/-- How many links one walk may follow. -/
def maxLinks : Nat := 40

/-- How long a name may be. -/
def maxName : Nat := 255

/-- The names that a path spells. A separator at the end asks for a directory, as a dot does. -/
def names (p : Path) : List Name :=
  let parts := (Path.split p.bytes).filter fun part => part != []
  if p.bytes.getLast? = some Path.separator then parts ++ [[Path.dot]] else parts

/-- The place where the walk of a path begins. -/
def origin (t : Tree) (p : Path) : Place := if p.isAbsolute then [] else t.working

/-- Walks along the names from a place. `links` is the number of links that may still be followed;
a link under the last name is followed where `follow` holds. -/
def walk (t : Tree) (follow : Bool) (links : Nat) (here : Place) (ns : List Name) :
    Except FileError Place :=
  match ns with
  | [] => .ok here
  | n :: rest =>
    match t.node? here with
    | some .directory =>
      if n = [Path.dot] then walk t follow links here rest
      else if n = [Path.dot, Path.dot] then walk t follow links here.dropLast rest
      else if maxName < n.length then .error .nameTooLong
      else match t.node? (here ++ [n]) with
        | none => .error .notFound
        | some (.link target) =>
          if rest = [] ∧ !follow then .ok (here ++ [n])
          else match links with
            | 0 => .error .tooManyLinks
            | links + 1 =>
              walk t follow links (if target.isAbsolute then [] else here) (names target ++ rest)
        | some _ => walk t follow links (here ++ [n]) rest
    | none => .error .notFound
    | some _ => .error .notADirectory
termination_by (links, ns.length)

/-- A path that the system takes at all: one with some name, without a zero byte. -/
def admissible (p : Path) : Except FileError Unit :=
  if p.bytes.contains 0 then .error .nulByte
  else if p.bytes = [] then .error .notFound
  else if 4096 ≤ p.bytes.length then .error .nameTooLong
  else .ok ()

/-- The place that a path leads to, and what stands there. -/
def locate (t : Tree) (p : Path) : Except FileError (Place × Node) := do
  admissible p
  let place ← t.walk true maxLinks (t.origin p) (names p)
  match t.node? place with
  | some n => .ok (place, n)
  | none => .error .notFound

/-- The path that leads to a place directly. -/
def pathOf (p : Place) : Path :=
  if p = [] then ⟨[Path.separator]⟩ else ⟨p.flatMap fun n => Path.separator :: n⟩

/-! ## Asking -/

/-- The path leads to something. -/
def has (t : Tree) (p : Path) : Bool := (t.locate p).isOk

/-- The path leads to a directory. -/
def isDirectory (t : Tree) (p : Path) : Bool :=
  match t.locate p with
  | .ok (_, .directory) => true
  | _ => false

/-- The path leads to a file that someone may execute. -/
def isExecutable (t : Tree) (p : Path) : Bool :=
  match t.locate p with
  | .ok (_, .file f) => f.mode &&& 0o111 != 0
  | _ => false

/-- The path that leads directly to where this path leads. By way of links a path can lead to a place
whose own path is longer than the system takes; that place has none. -/
def canonical (t : Tree) (p : Path) : Except FileError Path := do
  let (place, _) ← t.locate p
  admissible (pathOf place)
  .ok (pathOf place)

/-- The bytes of a file. -/
def read (t : Tree) (p : Path) : Except FileError (List UInt8) := do
  match ← t.locate p with
  | (_, .file f) => .ok f.content
  | _ => .error .isADirectory

/-- The text of a file. -/
def readText (t : Tree) (p : Path) : Except FileError String := do
  let bytes ← t.read p
  match Text.decode? bytes with
  | some s => .ok s
  | none => .error .invalidText

/-- When the thing a path leads to last changed. A directory counts as unchanged. -/
def modified (t : Tree) (p : Path) : Except FileError Nat := do
  match ← t.locate p with
  | (_, .file f) => .ok f.modified
  | _ => .ok 0

/-! ## Changing -/

/-- The place for a new name: the directory that is to hold it, and the name itself unless it is a
dot or two. -/
def target (t : Tree) (p : Path) : Except FileError (Place × Option Name × Bool) := do
  admissible p
  let parts := (Path.split p.bytes).filter fun part => part != []
  let slash := p.bytes.getLast? == some Path.separator
  match parts.reverse with
  | [] => .ok ([], none, slash)
  | last :: above =>
    let place ← t.walk true maxLinks (t.origin p) above.reverse
    match t.node? place with
    | some .directory =>
      if last = [Path.dot] ∨ last = [Path.dot, Path.dot] then .ok (place, none, slash)
      else if maxName < last.length then .error .nameTooLong
      else .ok (place, some last, slash)
    | _ => .error .notADirectory

/-- Makes one directory. -/
def makeDirectory (t : Tree) (p : Path) : Except FileError Tree := do
  match ← t.target p with
  | (place, some n, _) =>
    match t.node? (place ++ [n]) with
    | none => .ok (t.put (place ++ [n]) .directory)
    | some _ => .error .exists
  | (_, none, _) => .error .exists

/-- Makes a directory and those above it that are missing. A directory that is there already will
do. The first argument bounds the number of directories. -/
def makeDirectories : Nat → Tree → Path → Except FileError Tree
  | 0, _, _ => .error .notFound
  | fuel + 1, t, p =>
    if p.components = [] then .ok t
    else match t.makeDirectory p with
      | .ok t => .ok t
      | .error .notFound =>
        match p.parent? with
        | none => .error .notFound
        | some above => do
          let t ← makeDirectories fuel t above
          match t.makeDirectory p with
          | .ok t => .ok t
          | .error e => if t.isDirectory p then .ok t else .error e
      | .error e => if t.isDirectory p then .ok t else .error e

/-- Makes a directory and those above it that are missing. -/
def ensureDirectory (t : Tree) (p : Path) : Except FileError Tree :=
  makeDirectories p.bytes.length.succ t p

/-- The place of the file that writing to a name changes: links are followed even where they lead
to nothing yet. The first argument bounds the number of links. -/
def writePlace : Nat → Tree → Path → Except FileError Place
  | 0, _, _ => .error .tooManyLinks
  | links + 1, t, p => do
    match ← t.target p with
    | (_, none, _) => .error .isADirectory
    | (place, some n, slash) =>
      match t.node? (place ++ [n]) with
      | some .directory => .error .isADirectory
      | some (.file _) => if slash then .error .notADirectory else .ok (place ++ [n])
      | some (.link goal) =>
        writePlace links t (if goal.isAbsolute then goal else (pathOf place).append goal)
      | none => if slash then .error .isADirectory else .ok (place ++ [n])

/-- Writes a file. A new one can be read by everyone and written by its owner; one that was there
keeps its permissions. -/
def write (t : Tree) (p : Path) (content : List UInt8) : Except FileError Tree := do
  let place ← writePlace maxLinks.succ t p
  match t.node? place with
  | some (.file f) => .ok (t.put place (.file { f with content }))
  | _ => .ok (t.put place (.file ⟨content, 0o644, 0⟩))

/-- Sets the permission bits of a file. -/
def setMode (t : Tree) (p : Path) (mode : Nat) : Except FileError Tree := do
  match ← t.locate p with
  | (place, .file f) => .ok (t.put place (.file { f with mode }))
  | _ => .ok t

/-- Sets the moment at which a file last changed. -/
def setModified (t : Tree) (p : Path) (seconds : Nat) : Except FileError Tree := do
  match ← t.locate p with
  | (place, .file f) => .ok (t.put place (.file { f with modified := seconds }))
  | _ => .ok t

/-- Removes a name that is no directory. -/
def remove (t : Tree) (p : Path) : Except FileError Tree := do
  match ← t.target p with
  | (place, some n, _) =>
    match t.node? (place ++ [n]) with
    | none => .error .notFound
    | some .directory => .error .isADirectory
    | some _ => .ok (t.erase (place ++ [n]))
  | _ => .error .isADirectory

end Tree

end SnippetRunner.Files
