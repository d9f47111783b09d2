import ReleaseLog.Fault
import ReleaseLog.Text.Split

/-!
# File trees

A file tree holds directories, files and links. A path names a place in it: its names are followed
one by one, links on the way are followed too, and every name but the last has to lead to a
directory. A path that ends in a slash names a directory.
-/

namespace ReleaseLog

inductive Node
  | directory
  | file (executable : Bool)
  | link (target : Text)
  deriving DecidableEq

/-- A place: the names that lead to it from the root, none of them a link. -/
abbrev Location := List Text

/-- Why a path leads nowhere, or why what it leads to cannot be started. -/
inductive Obstacle
  | missing
  | notADirectory
  | tooManyLinks
  | nameTooLong
  | notPermitted
  | argumentsTooLong
  | cutShort
  deriving DecidableEq

def Obstacle.toFault : Obstacle → Fault
  | .missing => .system 2
  | .notADirectory => .system 20
  | .tooManyLinks => .system 40
  | .nameTooLong => .system 36
  | .notPermitted => .system 13
  | .argumentsTooLong => .argumentsTooLong
  | .cutShort => .nulByte

namespace Path

def here : Text := ".".toList

def above : Text := "..".toList

def isAbsolute (path : Text) : Bool := path.head? = some '/'

def names (path : Text) : List Text := (pieces '/' path).filter fun name => !name.isEmpty

/-- The names to follow. A slash at the end stands for a name of its own, which only a directory
has. -/
def steps (path : Text) : List Text :=
  names path ++ if path.getLast? = some '/' then [here] else []

def join (directory name : Text) : Text :=
  if directory.getLast? = some '/' then directory ++ name else directory ++ '/' :: name

def maxName : Nat := 255

def maxPath : Nat := 4095

def nameFits (name : Text) : Bool := name.utf8.length ≤ maxName

/-- Whether a text can be handed to the system, which takes a NUL for its end. -/
def transferable (t : Text) : Bool := !t.contains '\x00'

end Path

/-- The entries of a file tree. The directories above an entry need none of their own. -/
structure FileTree where
  entries : List (Location × Node) := []

namespace FileTree

def at? (t : FileTree) (place : Location) : Option Node :=
  match t.entries.lookup place with
  | some node => some node
  | none =>
    if place.isEmpty || t.entries.any fun entry => place.isPrefixOf entry.1 then some .directory
    else none

/-- Follows names from a place. A link is handed over with the place it stands in and the names
still to follow. -/
def walk (t : FileTree) (follow : Location → List Text → Except Obstacle Location) :
    Location → List Text → Except Obstacle Location
  | place, [] => .ok place
  | place, name :: rest =>
    match t.at? place with
    | some .directory =>
      if name = Path.here then walk t follow place rest
      else if name = Path.above then walk t follow place.dropLast rest
      else if !Path.nameFits name then .error .nameTooLong
      else
        match t.at? (place ++ [name]) with
        | none => .error .missing
        | some (.link target) =>
          follow (if Path.isAbsolute target then [] else place) (Path.steps target ++ rest)
        | some _ => walk t follow (place ++ [name]) rest
    | _ => .error .notADirectory

/-- Follows names and at most so many links. -/
def walkLinks (t : FileTree) : Nat → Location → List Text → Except Obstacle Location
  | 0 => t.walk fun _ _ => .error .tooManyLinks
  | n + 1 => t.walk (walkLinks t n)

def maxLinks : Nat := 40

def resolve (t : FileTree) (directory : Location) (path : Text) : Except Obstacle Location :=
  if !Path.transferable path then .error .cutShort
  else if path.isEmpty then .error .missing
  else if Path.maxPath < path.utf8.length then .error .nameTooLong
  else t.walkLinks maxLinks (if Path.isAbsolute path then [] else directory) (Path.steps path)

def node (t : FileTree) (directory : Location) (path : Text) : Except Obstacle Node :=
  match t.resolve directory path with
  | .error obstacle => .error obstacle
  | .ok place =>
    match t.at? place with
    | some node => .ok node
    | none => .error .missing

@[simp] theorem walk_nil (t : FileTree) (follow : Location → List Text → Except Obstacle Location)
    (place : Location) : t.walk follow place [] = .ok place := by
  simp [walk]

@[simp] theorem resolve_nil (t : FileTree) (directory : Location) :
    t.resolve directory [] = .error .missing := rfl

end FileTree

end ReleaseLog
