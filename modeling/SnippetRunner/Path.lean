import SnippetRunner.Text.Utf8

/-!
# Paths

A path is a sequence of bytes and keeps its spelling, but is compared by its components: repeated
separators, a separator at the end and single dots inside make no difference.
-/

namespace SnippetRunner

/-- A path as it is spelled. -/
structure Path where
  bytes : List UInt8
  deriving DecidableEq, Repr, Inhabited

namespace Path

/-- The byte between two components. -/
def separator : UInt8 := 0x2F

/-- The byte of a dot. -/
def dot : UInt8 := 0x2E

/-- The path that a text spells. -/
def ofText (s : String) : Path := ⟨Text.utf8 s⟩

/-- The spelling, if it is a text. -/
def text? (p : Path) : Option String := Text.decode? p.bytes

/-- The spelling, with U+FFFD for what is no text. -/
def display (p : Path) : String := Text.decodeLossy p.bytes

/-- A component of a path. -/
inductive Component where
  | root
  | current
  | parent
  | normal (name : List UInt8)
  deriving DecidableEq, Repr

/-- The parts between separators; there is always one more than there are separators. -/
def split (bs : List UInt8) : List (List UInt8) :=
  bs.foldr
    (fun b parts =>
      if b = separator then [] :: parts
      else match parts with
        | [] => [[b]]
        | p :: ps => (b :: p) :: ps)
    [[]]

/-- The parts with a separator between any two. -/
def join (parts : List (List UInt8)) : List UInt8 :=
  [separator].intercalate parts

/-- The path begins at the root. -/
def isAbsolute (p : Path) : Bool := p.bytes.head? == some separator

/-- The first component is a dot, which counts only at the front of a relative path. -/
def startsCurrent (p : Path) : Bool :=
  match p.bytes with
  | [b] => b == dot
  | b :: c :: _ => b == dot && c == separator
  | [] => false

/-- The leading root or dot, as it is spelled. -/
def head (p : Path) : List UInt8 :=
  if p.isAbsolute then [separator] else if p.startsCurrent then [dot] else []

/-- What follows the leading root or dot, in parts. -/
def bodyParts (p : Path) : List (List UInt8) := split (p.bytes.drop p.head.length)

/-- A part that is no component: an empty one, or a single dot. -/
def isIdle (part : List UInt8) : Bool := part == [] || part == [dot]

/-- The component that a part of the body spells. -/
def componentOf (part : List UInt8) : Component :=
  if part = [dot, dot] then .parent else .normal part

/-- The components, which decide equality and order. -/
def components (p : Path) : List Component :=
  (if p.isAbsolute then [.root] else if p.startsCurrent then [.current] else []) ++
    (p.bodyParts.filter fun part => !isIdle part).map componentOf

/-- The two paths have the same components. -/
def same (p q : Path) : Bool := p.components == q.components

/-- The components of `q` are the first ones of `p`. -/
def startsWith (p q : Path) : Bool := q.components.isPrefixOf p.components

/-- The components of `q` are the last ones of `p`. -/
def endsWith (p q : Path) : Bool := q.components.isSuffixOf p.components

/-- The path without its last component, in the spelling it has; the root and the empty path have
none. -/
def parent? (p : Path) : Option Path :=
  match p.bodyParts.reverse.dropWhile isIdle with
  | _ :: rest => some ⟨p.head ++ join (rest.dropWhile isIdle).reverse⟩
  | [] => if p.startsCurrent then some ⟨[]⟩ else none

/-- The path `q` as seen from `p`; an absolute one stands for itself. -/
def append (p q : Path) : Path :=
  if q.isAbsolute then q
  else if p.bytes = [] ∨ p.bytes.getLast? = some separator then ⟨p.bytes ++ q.bytes⟩
  else ⟨p.bytes ++ separator :: q.bytes⟩

/-- The name as seen from a path. -/
def child (p : Path) (name : String) : Path := p.append (.ofText name)

/-! ## Order -/

/-- The rank of a component among those of other kinds. -/
def Component.rank : Component → Nat
  | .root => 0
  | .current => 1
  | .parent => 2
  | .normal _ => 3

/-- Byte sequences in lexicographic order. -/
def bytesLt : List UInt8 → List UInt8 → Bool
  | _, [] => false
  | [], _ :: _ => true
  | a :: as, b :: bs => if a = b then bytesLt as bs else a < b

/-- Components in order: by rank, and names by their bytes. -/
def Component.lt : Component → Component → Bool
  | .normal a, .normal b => bytesLt a b
  | a, b => a.rank < b.rank

/-- Component sequences in lexicographic order. -/
def componentsLt : List Component → List Component → Bool
  | _, [] => false
  | [], _ :: _ => true
  | a :: as, b :: bs => if a = b then componentsLt as bs else a.lt b

/-- A path stands before another one. -/
def lt (p q : Path) : Bool := componentsLt p.components q.components

/-- Adds a path to a sorted list unless the same one is there already. -/
def insertSorted (p : Path) : List Path → List Path
  | [] => [p]
  | q :: qs => if p.same q then q :: qs else if p.lt q then p :: q :: qs else q :: insertSorted p qs

/-- The different paths of a list in order, each as it is first spelled. -/
def sortUnique (ps : List Path) : List Path := ps.foldl (fun acc p => insertSorted p acc) []

/-! ## Sets of paths that cover each other -/

/-- Adds a path to a list of which no entry covers another: a path covered by an entry is left out,
and entries that it covers give way. -/
def addCover (cover : List Path) (p : Path) : List Path :=
  if cover.any fun q => p.startsWith q then cover
  else (cover.filter fun q => !q.startsWith p) ++ [p]

end Path

end SnippetRunner
