/- # Disk -- a directory tree with text files

Settings are kept in files and exports are written to files. The tree is a value: the directories and
files around one root, each known by the way from the root to it, which may start with steps up. A
path is a text with slashes that is followed from the root, part by part; every part but the last must
lead to a directory that is there.
-/
import Stencil.Config.Toml
import Stencil.Export.Format

namespace Stencil
set_option autoImplicit false

/-- Directories and files around a root; the root itself and what is above it are always there. -/
structure Disk where
  directories : List (List String) := []
  files : List (List String × String) := []

namespace Disk

def empty : Disk := {}

/-- Whether a place is the root or above it. -/
def isAbove (place : List String) : Bool := place.all (· == "..")

def isDirectory (d : Disk) (place : List String) : Bool :=
  isAbove place || d.directories.contains place

def file? (d : Disk) (place : List String) : Option String := d.files.lookup place

/-- The greatest number of bytes in a path. -/
def pathLimit : Nat := 4095

/-- The greatest number of bytes in a name. -/
def nameLimit : Nat := 255

/-- Whether a path can be followed: it is neither empty nor too long, it does not start at a slash,
and it holds no null character. -/
def isUsable (path : String) : Bool :=
  path ≠ "" && path.utf8ByteSize ≤ pathLimit && !path.toList.head?.any (· == '/') &&
    !path.toList.contains '\x00'

/-- The parts of a path between its slashes. -/
def parts (path : String) : List String := (path.toList.splitOn '/').map String.ofList

/-- The place that a part leads to from a directory, whether or not something is there. An empty part
and a single dot stay, and two dots lead to the directory around. -/
def toward? (here : List String) (part : String) : Option (List String) :=
  if part = "" ∨ part = "." then some here
  else if part = ".." then some (if isAbove here then here ++ [".."] else here.dropLast)
  else if part.utf8ByteSize ≤ nameLimit then some (here ++ [part])
  else none

/-- The directory that parts lead to, if each on the way is there. -/
def follow (d : Disk) (here : List String) : List String → Option (List String)
  | [] => some here
  | part :: rest =>
    match toward? here part with
    | some next => if d.isDirectory next then d.follow next rest else none
    | none => none

/-- The place of the file that a path names. Its directory must be there, and its last part must be a
name. -/
def filePlace? (d : Disk) (path : String) : Option (List String) := do
  let last ← (parts path).getLast?
  if isUsable path ∧ last ≠ "" ∧ last ≠ "." ∧ last ≠ ".." then
    toward? (← d.follow [] (parts path).dropLast) last
  else none

/-- The text of a file. -/
def read? (d : Disk) (path : String) : Option String := (d.filePlace? path).bind d.file?

/-- Write a file into a directory that is there. -/
def write? (d : Disk) (path text : String) : Option Disk := do
  let place ← d.filePlace? path
  if d.isDirectory place then none
  else some { d with files := (place, text) :: d.files.filter (·.1 ≠ place) }

/-- Make the directories that parts lead through, up to the first part that leads nowhere or to a
file, and tell whether there was none. -/
def makeDirectories (d : Disk) (here : List String) : List String → Bool × Disk
  | [] => (true, d)
  | part :: rest =>
    match toward? here part with
    | none => (false, d)
    | some next =>
      if (d.file? next).isSome then (false, d)
      else
        let d := if d.isDirectory next then d else { d with directories := next :: d.directories }
        makeDirectories d next rest

/-- Drop slashes, and single dots behind slashes, from the end of a reversed path. -/
def trimEnd : List Char → List Char
  | '/' :: rest => trimEnd rest
  | '.' :: '/' :: rest => trimEnd rest
  | cs => cs

/-- The path of the directory around: the text before the last name. None for the empty path. -/
def parent? (path : String) : Option String :=
  if path = "" then none
  else
    let inside := (trimEnd path.toList.reverse).dropWhile (· != '/')
    some (String.ofList (trimEnd inside).reverse)

/-- Make a directory with all around it, and tell whether it is there then. The empty path is that of
the root. -/
def createAll (d : Disk) (path : String) : Bool × Disk :=
  if path = "" then (true, d)
  else if isUsable path then d.makeDirectories [] (parts path)
  else (false, d)

end Disk

namespace Config

/-- Read settings from a file. -/
def load (d : Disk) (path : String) : Except ConfigError Config :=
  match d.read? path with
  | some text => parseFrom path text
  | none => .error (.read path)

/-- Write settings to a file, with the directories around it. The text is made first, so that settings
which cannot be written leave nothing behind. -/
def save (c : Config) (d : Disk) (path : String) : Except ConfigError Unit × Disk :=
  match c.toToml? with
  | none => (.error (.parse path), d)
  | some text =>
    match Disk.parent? path with
    | none => (.error (.write path), d)
    | some around =>
      match d.createAll around with
      | (false, d) => (.error (.write around), d)
      | (true, d) =>
        match d.write? path text with
        | none => (.error (.write path), d)
        | some d => (.ok (), d)

end Config

/-- Write triples to a file in a format. -/
def Format.write (format : Format) (ts : List Triple) (d : Disk) (path : String) :
    Except ExportError Disk :=
  match d.write? path (format.render ts) with
  | some d => .ok d
  | none => .error (.write path)

end Stencil
