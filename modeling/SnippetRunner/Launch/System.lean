/-!
# Kinds of systems

Where a system keeps its programs. A worker that has no search path of its own gets that of its
system.
-/

namespace SnippetRunner.Launch

/-- A kind of system. -/
inductive SystemKind where
  /-- Programs stand in the store of Nix. -/
  | nix
  /-- Programs stand in the store of Guix. -/
  | guix
  /-- Programs stand in the standard directories. -/
  | standard
  deriving DecidableEq, Repr

namespace SystemKind

/-- The kinds in their order. -/
def all : List SystemKind := [.nix, .guix, .standard]

/-- Programs stand in a store, each below a directory of its own. -/
def isStoreBased : SystemKind → Bool
  | .nix | .guix => true
  | .standard => false

/-- The search path of a system. -/
def searchPath : SystemKind → String
  | .nix => "/run/current-system/sw/bin:/nix/var/nix/profiles/default/bin"
  | .guix => "/run/current-system/profile/bin"
  | .standard => "/usr/local/bin:/usr/bin:/bin"

end SystemKind

end SnippetRunner.Launch
