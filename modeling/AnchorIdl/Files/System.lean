/-
# A model of a file system

Files and directories, each at a location, which is the list of the names on
the way from the root, and a working directory.  There are no links, so a
location is found by walking a route: every name but the last must be that of a
directory, and `..` goes back up.  A name has at most 255 octets and a whole
path fewer than 4096.

A request either changes one location or is refused and changes nothing.

Source: none; it answers the requests of `Files.Access` as a file system does.
-/

import AnchorIdl.Files.Access
import AnchorIdl.Ordered

namespace AnchorIdl

/-- A place below the root: the names on the way to it. -/
structure Location where
  names : List Bytes
  deriving Repr

namespace Location

/-- The place where the way begins. -/
def root : Location := ⟨[]⟩

/-- The directory that holds a location; the root holds itself. -/
def parent (here : Location) : Location := ⟨here.names.dropLast⟩

/-- The location of a name in a directory. -/
def child (here : Location) (name : Bytes) : Location := ⟨here.names ++ [name]⟩

/-- Locations of different depths are told apart before any name is compared. -/
instance : DecidableEq Location := fun ⟨a⟩ ⟨b⟩ =>
  if h : a.length = b.length then decidable_of_iff (a = b) (by simp)
  else .isFalse fun e => h (by rw [Location.mk.inj e])

end Location

/-- What is found at a location. -/
inductive Node
  | file (content : Bytes)
  | directory
  deriving DecidableEq, Repr

/-- The files and directories below the root, and the working directory. -/
structure FileSystem where
  nodes : Ordered Location Node := []
  working : Location := .root

namespace FileSystem

/-- The most octets that a name may have. -/
def longestName : Nat := 255

/-- The most octets that a path may have. -/
def longestPath : Nat := 4095

/-- The name of the directory above. -/
def above : Bytes := FileName.octets ".."

/-- What is found at a location; the root is a directory. -/
def node? (fs : FileSystem) (here : Location) : Option Node :=
  if here = .root then some .directory else fs.nodes.get? here

/-- Go from a location to a name in it. -/
def enter (fs : FileSystem) (here : Location) (name : Bytes) : Except Refusal Location :=
  match fs.node? here with
  | none => .error .missing
  | some (.file _) => .error .notDirectory
  | some .directory =>
    if name = above then .ok here.parent
    else if longestName < name.length then .error .longName
    else .ok (here.child name)

/-- The location that a route leads to, whether or not something is found there. -/
def locate (fs : FileSystem) (r : Route) : Except Refusal Location :=
  if longestPath < r.length then .error .longName
  else r.names.foldlM fs.enter (if r.absolute then .root else fs.working)

/-- What is found at the end of a route. -/
def find? (fs : FileSystem) (r : Route) : Except Refusal (Option Node) :=
  (fs.locate r).map fs.node?

/-- Whether a route leads to a file. -/
def isFile (fs : FileSystem) (r : Route) : Except Refusal Bool :=
  match fs.find? r with
  | .ok (some (.file _)) => .ok true
  | .ok _ => .ok false
  | .error refusal => if refusal.meansAbsent then .ok false else .error refusal

/-- Whether a route leads to a directory. -/
def isDirectory (fs : FileSystem) (r : Route) : Bool :=
  match fs.find? r with
  | .ok (some .directory) => true
  | _ => false

/-- The content of a file. -/
def read (fs : FileSystem) (r : Route) : Except Refusal Bytes := do
  match ← fs.find? r with
  | none => .error .missing
  | some .directory => .error .isDirectory
  | some (.file content) => .ok content

/-- Give a file a content; the file need not be there, its directory must. -/
def write (content : Bytes) (fs : FileSystem) (r : Route) : Except Refusal FileSystem := do
  let here ← fs.locate r
  match fs.node? here with
  | some .directory => .error .isDirectory
  | _ => .ok { fs with nodes := fs.nodes.put here (.file content) }

/-- Make a directory where nothing is. -/
def makeDirectory (fs : FileSystem) (r : Route) : Except Refusal FileSystem := do
  let here ← fs.locate r
  match fs.node? here with
  | some _ => .error .occupied
  | none => .ok { fs with nodes := fs.nodes.put here .directory }

/-- Remove a file. -/
def remove (fs : FileSystem) (r : Route) : Except Refusal FileSystem := do
  let here ← fs.locate r
  match fs.node? here with
  | none => .error .missing
  | some .directory => .error .isDirectory
  | some (.file _) => .ok { fs with nodes := fs.nodes.erase here }

/-- Work in another directory. -/
def workIn (fs : FileSystem) (r : Route) : Except Refusal FileSystem := do
  let here ← fs.locate r
  match fs.node? here with
  | none => .error .missing
  | some (.file _) => .error .notDirectory
  | some .directory => .ok { fs with working := here }

/-- The path of the working directory. -/
def workingDirectory (fs : FileSystem) : Path := ⟨1, fs.working.names.map FileName.decode⟩

/-- Make a request about a path. -/
def request {α : Type} (p : Path) (serve : Route → Except Refusal α) : Except FileFault α := do
  let route ← p.route.mapError .path
  (serve route).mapError fun refusal => .refused (refusal.answer p)

/-- Make a change about a path, or answer why not. -/
def change (p : Path) (serve : FileSystem → Route → Except Refusal FileSystem) :
    StateM FileSystem (Except FileFault Unit) := fun fs =>
  match request p (serve fs) with
  | .ok fs => (.ok (), fs)
  | .error fault => (.error fault, fs)

instance : FileAccess (StateM FileSystem) where
  workingDirectory := return (← get).workingDirectory
  isFile p := do
    match p.route with
    | .error _ => return .ok false
    | .ok route => return ((← get).isFile route).mapError (·.answer p)
  isDirectory p := do
    match p.route with
    | .error _ => return false
    | .ok route => return (← get).isDirectory route
  readFile p := return request p (← get).read
  writeFile p content := change p (write content)
  makeDirectory p := change p makeDirectory

end FileSystem
end AnchorIdl
