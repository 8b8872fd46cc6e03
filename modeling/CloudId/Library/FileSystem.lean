import CloudId.Library.HashMap
import CloudId.Library.Text

/-! A file tree as a program sees it through path names: joining and resolving
paths, and the operations on whole files. The environment decides which
operation fails and how far a failing write gets, and what the clock shows, so
a statement about every environment is a statement about every failure. -/
namespace FileSystem

inductive Node where
  | dir
  | file (content : ByteArray)

inductive FileError where
  | notFound
  | notADirectory
  | isADirectory
  | invalidInput
  | invalidData
  | failed
  deriving DecidableEq

/-- How an operation fails for a reason outside the file tree. A write may have
truncated the file and written some bytes by then. -/
inductive Fault where
  | refused
  | cut (written : Nat)

/-- The tree, with the environment that later operations meet: the operations
are numbered, and so are the faults and the readings of the clock. -/
structure Disk where
  nodes : HashMap (List String) Node := ∅
  cwd : List String := []
  fault : Nat → Option Fault := fun _ => none
  clock : Nat → Nat := fun _ => 0
  ticks : Nat := 0

/-- An operation that may fail; what it did before failing stays done. -/
abbrev FileM := EStateM FileError Disk

/-! ## Paths -/

def isAbsolute (path : String) : Bool := path.toList.head? == some '/'

def endsInSlash (path : String) : Bool := path.toList.getLast? == some '/'

/-- `Path::join`: an absolute path replaces the base. -/
def join (base path : String) : String :=
  if isAbsolute path then path
  else if base = "" ∨ endsInSlash base then base ++ path
  else base ++ "/" ++ path

/-- The components of a path. A trailing slash asks for a directory, as a
trailing `.` does. -/
def components (path : String) : List String :=
  ((path.toList.splitOn '/').filter (· ≠ [])).map String.ofList ++ if endsInSlash path then ["."] else []

namespace Disk

def node? (disk : Disk) (place : List String) : Option Node :=
  if place = [] then some .dir else disk.nodes.lookup place

/-- Follows the components from a place; every place on the way is a directory. -/
def walk (disk : Disk) (place : List String) : List String → Except FileError (List String)
  | [] => .ok place
  | component :: rest =>
    match disk.node? place with
    | none => .error .notFound
    | some (.file _) => .error .notADirectory
    | some .dir =>
      if component = "." then disk.walk place rest
      else if component = ".." then disk.walk place.dropLast rest
      else disk.walk (place ++ [component]) rest

/-- The place a path denotes. The last component need not exist. -/
def resolve (disk : Disk) (path : String) : Except FileError (List String) :=
  if '\x00' ∈ path.toList then .error .invalidInput
  else if path = "" then .error .notFound
  else disk.walk (if isAbsolute path then [] else disk.cwd) (components path)

/-- The node a path denotes, if there is one. -/
def find (disk : Disk) (path : String) : Except FileError (List String × Node) :=
  match disk.resolve path with
  | .error error => .error error
  | .ok place =>
    match disk.node? place with
    | some node => .ok (place, node)
    | none => .error .notFound

/-- The nodes directly below a place, with whether they are directories. -/
def children (disk : Disk) (place : List String) : List (String × Bool) :=
  disk.nodes.toList.filterMap fun entry =>
    match entry.1.getLast? with
    | some name =>
      if entry.1.dropLast = place then
        some (name, match entry.2 with | .dir => true | .file _ => false)
      else none
    | none => none

end Disk

/-! ## Operations -/

/-- The fault that meets this operation. -/
def nextFault : FileM (Option Fault) := fun disk =>
  .ok (disk.fault disk.ticks) { disk with ticks := disk.ticks + 1 }

/-- A reading of the clock. -/
def now : FileM Nat := fun disk =>
  .ok (disk.clock disk.ticks) { disk with ticks := disk.ticks + 1 }

def liftExcept {α : Type} : Except FileError α → FileM α
  | .ok value => pure value
  | .error error => throw error

/-- `Path::exists`: false also when the answer cannot be had. -/
def fileExists (path : String) : FileM Bool := do
  match ← nextFault with
  | some _ => return false
  | none =>
    match (← get).find path with
    | .ok _ => return true
    | .error _ => return false

/-- `fs::read_to_string`. -/
def readToString (path : String) : FileM String := do
  match ← nextFault with
  | some _ => throw .failed
  | none =>
    match ← liftExcept ((← get).find path) with
    | (_, .dir) => throw .isADirectory
    | (_, .file content) =>
      match String.fromUTF8? content with
      | some text => return text
      | none => throw .invalidData

/-- `fs::write`: truncates or creates the file, then writes. -/
def write (path : String) (content : ByteArray) : FileM Unit := do
  let fault ← nextFault
  if let some .refused := fault then throw .failed
  let disk ← get
  let place ← liftExcept (disk.resolve path)
  if let some .dir := disk.node? place then throw .isADirectory
  match fault with
  | some (.cut written) =>
    set { disk with nodes := disk.nodes.insert place (.file (content.extract 0 written)) }
    throw .failed
  | _ => set { disk with nodes := disk.nodes.insert place (.file content) }

/-- Creates the missing directories along a walk. -/
def makeDirs (place : List String) : List String → FileM Unit
  | [] => pure ()
  | component :: rest => do
    if component = "." then makeDirs place rest
    else if component = ".." then makeDirs place.dropLast rest
    else
      let next := place ++ [component]
      let disk ← get
      match disk.node? next with
      | some .dir => makeDirs next rest
      | some (.file _) => throw .notADirectory
      | none =>
        set { disk with nodes := disk.nodes.insert next .dir }
        makeDirs next rest

/-- `fs::create_dir_all`. -/
def createDirAll (path : String) : FileM Unit := do
  let fault ← nextFault
  if '\x00' ∈ path.toList then throw .invalidInput
  let disk ← get
  let start := if isAbsolute path then [] else disk.cwd
  match fault with
  | some .refused => throw .failed
  | some (.cut made) =>
    makeDirs start ((components path).take made)
    throw .failed
  | none => makeDirs start (components path)

/-- `fs::remove_file`. -/
def removeFile (path : String) : FileM Unit := do
  match ← nextFault with
  | some _ => throw .failed
  | none =>
    let disk ← get
    match ← liftExcept (disk.find path) with
    | (_, .dir) => throw .isADirectory
    | (place, .file _) => set { disk with nodes := disk.nodes.erase place }

/-- `fs::read_dir`, with the file type of each entry, in no particular order. -/
def readDir (path : String) : FileM (List (String × Bool)) := do
  match ← nextFault with
  | some _ => throw .failed
  | none =>
    let disk ← get
    match ← liftExcept (disk.find path) with
    | (place, .dir) => return disk.children place
    | (_, .file _) => throw .notADirectory

/-- The result of a failing operation as a value (`match op().await`, `.ok()`). -/
def attempt {α : Type} (op : FileM α) : FileM (Except FileError α) := fun disk =>
  match op disk with
  | .ok value disk => .ok (.ok value) disk
  | .error error disk => .ok (.error error) disk

end FileSystem
