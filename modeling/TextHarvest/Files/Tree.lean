import TextHarvest.Path

/-!
# File trees

A file tree is what a run sees of the disk: directories and files under their absolute places.
Reading and writing are functions on trees, so that a run is a function from a tree to a tree.
-/

namespace TextHarvest

/-- The content of a file: a text, or bytes that are no text. -/
inductive FileContent where
  | text (s : String)
  | binary (bytes : List UInt8)
  deriving DecidableEq, Repr

/-- What stands at a place. -/
inductive FileEntry where
  | directory
  | file (content : FileContent)
  deriving DecidableEq, Repr

/-- A place by the names that lead to it from the root. -/
abbrev Place := List String

/-- Takes one component from a place. -/
def Path.Component.lead (place : Place) : Path.Component → Place
  | .root => []
  | .current => place
  | .parent => place.dropLast
  | .name n => place ++ [n]

/-- Why something cannot be read, made or written. -/
inductive DiskFault where
  | missing
  | occupied
  | notDirectory
  | isDirectory
  | notText
  /-- A reason that no tree shows, in the words of the system. -/
  | other (text : String)
  deriving DecidableEq, Repr

/-- The reason in the words of the system. -/
def DiskFault.text : DiskFault → String
  | .missing => "No such file or directory (os error 2)"
  | .occupied => "File exists (os error 17)"
  | .notDirectory => "Not a directory (os error 20)"
  | .isDirectory => "Is a directory (os error 21)"
  | .notText => "stream did not contain valid UTF-8"
  | .other text => text

/-- Directories and files under their places. The root is always a directory. -/
structure FileTree where
  entries : List (Place × FileEntry) := []
  deriving Inhabited

namespace FileTree

def empty : FileTree := {}

/-- What stands at a place. -/
def entry? (t : FileTree) (place : Place) : Option FileEntry :=
  if place.isEmpty then some .directory else t.entries.lookup place

/-- Whether a directory stands at a place. -/
def isDirectoryAt (t : FileTree) (place : Place) : Bool :=
  t.entry? place == some .directory

/-- Puts an entry at a place. -/
def set (t : FileTree) (place : Place) (e : FileEntry) : FileTree :=
  if t.entries.any (·.1 == place) then
    ⟨t.entries.map fun x => if x.1 == place then (place, e) else x⟩
  else ⟨t.entries ++ [(place, e)]⟩

/-! ## Following paths -/

/-- Follows components from a place. Every place but the last has to be a directory. -/
def follow? (t : FileTree) : List Path.Component → Place → Option Place
  | [], place => some place
  | c :: cs, place =>
    match c with
    | .root => follow? t cs []
    | .current => if t.isDirectoryAt place then follow? t cs place else none
    | .parent => if t.isDirectoryAt place then follow? t cs place.dropLast else none
    | .name n => if t.isDirectoryAt place then follow? t cs (place ++ [n]) else none

/-- The place that a path leads to. -/
def place? (t : FileTree) (path : String) : Option Place :=
  t.follow? (Path.components path) []

/-- What stands at the end of a path. A path that ends in a slash leads to directories only. -/
def lookup? (t : FileTree) (path : String) : Option FileEntry :=
  match (t.place? path).bind t.entry? with
  | some .directory => some .directory
  | some e => if path.toList.getLast? == some '/' then none else some e
  | none => none

/-- Why components cannot be followed from a place: where a directory should be, there is nothing or
a file. -/
def wayFault (t : FileTree) : List Path.Component → Place → DiskFault
  | [], _ => .missing
  | c :: cs, place =>
    if c = .root ∨ t.isDirectoryAt place = true then wayFault t cs (c.lead place)
    else if (t.entry? place).isSome then .notDirectory
    else .missing

def pathExists (t : FileTree) (path : String) : Bool :=
  (t.lookup? path).isSome

def isDirectory (t : FileTree) (path : String) : Bool :=
  t.lookup? path == some .directory

/-- The text of the file at a path. -/
def readText? (t : FileTree) (path : String) : Option String :=
  match t.lookup? path with
  | some (.file (.text s)) => some s
  | _ => none

/-- Why there is no text to be read at a path. -/
def readFault (t : FileTree) (path : String) : DiskFault :=
  match t.place? path with
  | none => t.wayFault (Path.components path) []
  | some place =>
    match t.entry? place with
    | none => .missing
    | some .directory => .isDirectory
    | some (.file _) => if path.toList.getLast? == some '/' then .notDirectory else .notText

/-! ## Changing the tree -/

/-- Makes the directories that components lead through, up to a file that is in the way. The last
directory is asked for first, and those above it only where they are missing: a file above it is
no directory, unless one was `made` on the way to it, for then it is asked for itself. -/
def makeDirs : List Path.Component → Place → Bool → FileTree → FileTree × Option DiskFault
  | [], _, _, t => (t, none)
  | c :: cs, place, made, t =>
    match c with
    | .root => makeDirs cs [] made t
    | .current => makeDirs cs place made t
    | .parent => makeDirs cs place.dropLast made t
    | .name n =>
      match t.entry? (place ++ [n]) with
      | some .directory => makeDirs cs (place ++ [n]) made t
      | some (.file _) => (t, some (if made || cs.isEmpty then .occupied else .notDirectory))
      | none => makeDirs cs (place ++ [n]) true (t.set (place ++ [n]) .directory)

/-- Makes a directory and those above it; fails where a file is in the way. The directories that
were made by then stay. -/
def createDirs (t : FileTree) (path : String) : FileTree × Option DiskFault :=
  makeDirs (Path.components path) [] false t

/-- Writes a file; its directory has to be there, and it must not be a directory itself. No file is
written to a path that ends in a slash. -/
def write? (t : FileTree) (path : String) (content : FileContent) : Option FileTree :=
  if path.toList.getLast? == some '/' then none
  else
    match t.place? path with
    | none => none
    | some place => if t.isDirectoryAt place then none else some (t.set place (.file content))

/-- Why no file can be written to a path. -/
def writeFault (t : FileTree) (path : String) : DiskFault :=
  match t.place? path with
  | none => t.wayFault (Path.components path) []
  | some _ => .isDirectory

/-- Puts a file at a path and makes the directories above it. -/
def put (t : FileTree) (path : String) (content : FileContent) : FileTree :=
  let (t, _) := t.createDirs ((Path.parent? path).getD "")
  (t.write? path content).getD t

/-! ## Listing -/

/-- The names of what stands directly in a directory. -/
def children (t : FileTree) (place : Place) : List String :=
  t.entries.filterMap fun e =>
    match e.1.getLast? with
    | some n => if e.1.dropLast == place then some n else none
    | none => none

/-- The number of directories below the root. -/
def directoryCount (t : FileTree) : Nat :=
  t.entries.countP (·.2 == .directory)

/-- The files at or below a place, each with the names that lead to it from there. -/
def filesBelow (t : FileTree) (place : Place) : List (Place × FileContent) :=
  t.entries.filterMap fun e =>
    match e.2 with
    | .file content =>
      if place.isPrefixOf e.1 then some (e.1.drop place.length, content) else none
    | .directory => none

end FileTree

/-! ## Disks -/

/-- How a disk answers when it is asked to make directories or to write a file: with the tree that
it leaves, and with the reason if it could not do as it was asked. -/
structure Disk where
  createDirs : FileTree → String → FileTree × Option DiskFault
  write : FileTree → String → FileContent → FileTree × Option DiskFault

/-- The disk that refuses only what cannot be done. -/
def Disk.willing : Disk where
  createDirs t path := t.createDirs path
  write t path content :=
    match t.write? path content with
    | some t => (t, none)
    | none => (t, some (t.writeFault path))

end TextHarvest
