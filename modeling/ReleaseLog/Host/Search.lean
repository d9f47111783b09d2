import ReleaseLog.Host.FileTree

/-!
# Programs on a host

A program is an executable file. `Host.start` says whether a program can be started with some
arguments; `Host.findGit` looks for git in the directories of the search path. Both follow the same
links to the same files, so what is found is there to be started.
-/

namespace ReleaseLog

/-- The surroundings of a run. The search path is a list of directories parted by colons. The room
for arguments is what the environment leaves of the bytes that the system takes for both. -/
structure Host where
  tree : FileTree
  home : Text
  workingDirectory : Text
  searchPath : Option Text := none
  argumentRoom : Nat := 2097152

/-- Whether a search goes on behind an obstacle: what one directory does not have another may. -/
def Obstacle.isPassed : Obstacle → Bool
  | .missing | .notADirectory | .notPermitted => true
  | _ => false

namespace Host

def node (h : Host) (path : Text) : Except Obstacle Node :=
  h.tree.node (Path.names h.workingDirectory) path

def isProgram (h : Host) (path : Text) : Bool :=
  match h.node path with
  | .ok (.file executable) => executable
  | _ => false

/-- A path, if it names a program. The contents of a file do not count: a tree tells of no
executable that is not a program. -/
def programAt (h : Host) (path : Text) : Except Obstacle Text :=
  match h.node path with
  | .ok (.file true) => .ok path
  | .ok _ => .error .notPermitted
  | .error obstacle => .error obstacle

/-- The first of some paths that names a program. If none does, a file that must not be executed
counts for more than the obstacle that was met last. -/
def firstProgram (h : Host) : Obstacle → List Text → Except Obstacle Text
  | met, [] => .error met
  | met, path :: rest =>
    match h.programAt path with
    | .ok program => .ok program
    | .error obstacle =>
      if obstacle.isPassed then
        firstProgram h (if met = .notPermitted then met else obstacle) rest
      else .error obstacle

def standardPath : Text := "/bin:/usr/bin".toList

/-- Where a bare name may lead, in the order of a search path. An entry is taken as it is, and an
empty one is the working directory. -/
def placesFor (searchPath name : Text) : List Text :=
  (pieces ':' searchPath).map fun entry => if entry.isEmpty then name else entry ++ '/' :: name

/-- The path that a program is started by. A name without a slash is looked for in the directories
of the search path. -/
def programFor (h : Host) (name : Text) : Except Obstacle Text :=
  if name.contains '/' then h.programAt name
  else if name.isEmpty then .error .missing
  else if Path.nameFits name then
    h.firstProgram .missing (placesFor (h.searchPath.getD standardPath) name)
  else .error .nameTooLong

def maxArgument : Nat := 131071

/-- The room that arguments take up: a NUL ends each, and its address has eight bytes. -/
def size : List Text → Nat
  | [] => 0
  | t :: arguments => t.utf8.length + 9 + size arguments

/-- Whether the system hands these arguments to the program at a path. -/
def takes (h : Host) (path : Text) (arguments : List Text) : Bool :=
  arguments.all (fun t => t.utf8.length ≤ maxArgument) &&
    path.utf8.length + 1 + size arguments ≤ h.argumentRoom

/-- What stands in the way of starting a program. It is handed its name before the arguments. -/
def start (h : Host) (program : Text) (arguments : List Text) : Except Obstacle Unit :=
  match h.programFor program with
  | .error obstacle => .error obstacle
  | .ok path => if h.takes path (program :: arguments) then .ok () else .error .argumentsTooLong

/-- The directory that an entry of the search path stands for. A first name `~` is the home
directory; any other relative entry is seen from the working directory. -/
def directoryOf (h : Host) (entry : Text) : Text :=
  if Path.isAbsolute entry then entry
  else
    match Path.names entry with
    | ['~'] :: rest => extend h.home rest
    | names => extend h.workingDirectory names
where
  /-- A directory and names below it. -/
  extend (directory : Text) (names : List Text) : Text :=
    (names.filter (· ≠ Path.here)).foldl Path.join directory

def git : Text := "git".toList

def candidates (h : Host) (searchPath : Text) : List Text :=
  (pieces ':' searchPath).map fun entry => Path.join (h.directoryOf entry) git

def findGit (h : Host) : Option Text :=
  h.searchPath.bind fun searchPath => (h.candidates searchPath).find? h.isProgram

theorem size_append (as bs : List Text) : size (as ++ bs) = size as + size bs := by
  induction as with
  | nil => exact (Nat.zero_add _).symm
  | cons t as ih =>
    rw [List.cons_append, size, size, ih]
    omega

theorem takes_iff {h : Host} {path : Text} {arguments : List Text} :
    h.takes path arguments = true ↔
      (∀ t ∈ arguments, t.utf8.length ≤ maxArgument) ∧
        path.utf8.length + 1 + size arguments ≤ h.argumentRoom := by
  simp [takes]

theorem isProgram_iff {h : Host} {path : Text} :
    h.isProgram path = true ↔ h.node path = .ok (.file true) := by
  unfold isProgram
  split
  · next e he => simp [he]
  · next hn => simpa using hn true

theorem isProgram_of_findGit {h : Host} {path : Text} (hf : h.findGit = some path) :
    h.isProgram path = true := by
  obtain ⟨searchPath, _, hs⟩ := Option.bind_eq_some_iff.mp hf
  exact List.find?_some hs

end Host

end ReleaseLog
