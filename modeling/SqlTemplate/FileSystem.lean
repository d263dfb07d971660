import SqlTemplate.Named

/-!
Files, as far as reading settings needs them.

A file system answers what a path names and where a user keeps settings. What a path names has two
sides that do not depend on each other: whether it is a regular file, and what reading it gives. A
file may refuse to be read, and a device can be read although it is no file. A file tree is a file
system in memory: a path is followed part by part, `..` leads back to the directory that was passed
before, and what is no directory has no parts.
-/

set_option autoImplicit false

namespace SqlTemplate

/-- Why a path cannot be read. -/
inductive ReadFailure where
  | notFound
  | notDirectory
  | isDirectory
  | nameTooLong
  | permissionDenied
  | notUtf8
  | other (reason : String)
  deriving DecidableEq, Repr

/-- The report of a path that cannot be read. -/
def ReadFailure.message : ReadFailure → String
  | notFound => "No such file or directory (os error 2)"
  | notDirectory => "Not a directory (os error 20)"
  | isDirectory => "Is a directory (os error 21)"
  | nameTooLong => "File name too long (os error 36)"
  | permissionDenied => "Permission denied (os error 13)"
  | notUtf8 => "stream did not contain valid UTF-8"
  | other reason => reason

/-- What a path names: whether it is a regular file, and what reading it gives. -/
structure PathStatus where
  isFile : Bool
  content : Except ReadFailure ByteArray

namespace PathStatus

/-- A file that can be read. -/
def file (content : ByteArray) : PathStatus := ⟨true, .ok content⟩

/-- A file that cannot be read. -/
def unreadable (failure : ReadFailure) : PathStatus := ⟨true, .error failure⟩

/-- A directory. -/
def directory : PathStatus := ⟨false, .error .isDirectory⟩

/-- A path that leads to nothing. -/
def unreachable (failure : ReadFailure) : PathStatus := ⟨false, .error failure⟩

/-- What reading gives, as text. -/
def text (status : PathStatus) : Except ReadFailure String :=
  match status.content with
  | .ok content =>
    match String.fromUTF8? content with
    | some text => .ok text
    | none => .error .notUtf8
  | .error failure => .error failure

end PathStatus

/-- What a program finds on the system that it runs on. -/
structure FileSystem where
  /-- What every path names. -/
  status : String → PathStatus
  /-- The directory where the user keeps settings, if there is one. The conventions of the system
  and its accounts say where, and the variables of the environment may change it. -/
  userDirectory? : (String → Option String) → Option String

namespace FileSystem

/-- Whether a path names a file. -/
def isFile (files : FileSystem) (path : String) : Bool := (files.status path).isFile

/-- The text that reading a path gives. -/
def readText (files : FileSystem) (path : String) : Except ReadFailure String :=
  (files.status path).text

end FileSystem

/-! ## Directories of users -/

/-- One path under another, with a slash between them unless the first is empty or ends in one. -/
def joinPath (directory : String) (path : String) : String :=
  if directory.toList.getLast?.all (· == '/') then directory ++ path else directory ++ "/" ++ path

/-- Whether a path starts from the root. -/
def isAbsolutePath (path : String) : Bool := path.toList.head? = some '/'

/-- The home directory: the variable `HOME` if it is not empty, else that of the account. -/
def homeDirectory? (accountHome : Option String) (environment : String → Option String) :
    Option String :=
  (environment "HOME").filter (· != "") <|> accountHome.filter (· != "")

/-- Where the conventions of Linux desktops put the settings of a user: in `XDG_CONFIG_HOME` if it
is an absolute path, else in `.config` in the home directory. -/
def desktopDirectory? (accountHome : Option String) (environment : String → Option String) :
    Option String :=
  (environment "XDG_CONFIG_HOME").filter isAbsolutePath <|>
    (homeDirectory? accountHome environment).map (joinPath · ".config")

/-! ## File trees -/

/-- A file, or a directory of named trees. -/
inductive FileTree where
  | file (content : ByteArray)
  | directory (entries : List (String × FileTree))

namespace FileTree

/-- A directory without entries. -/
def empty : FileTree := .directory []

/-- A tree with another one put at a path of names. Directories that are missing on the way are
made; an existing directory is kept when an empty one is put in its place. -/
def insert (added : FileTree) : List String → FileTree → FileTree
  | [], old =>
    match added, old with
    | .directory [], .directory entries => .directory entries
    | _, _ => added
  | name :: path, .directory entries =>
    .directory (Named.set name (insert added path ((entries.lookup name).getD empty)) entries)
  | name :: path, .file _ => .directory [(name, insert added path empty)]

/-- The longest name that a directory takes, in bytes. -/
def nameLimit : Nat := 255

/-- Follow one part of a path. The way to the place reached so far is given innermost first. -/
def followPart (way : List FileTree) (part : String) : Except ReadFailure (List FileTree) :=
  match way with
  | .directory entries :: outer =>
    if part = "" ∨ part = "." then .ok way
    else if part = ".." then .ok (if outer.isEmpty then way else outer)
    else if nameLimit < part.utf8ByteSize then .error .nameTooLong
    else
      match entries.lookup part with
      | some tree => .ok (tree :: way)
      | none => .error .notFound
  | _ => .error .notDirectory

/-- Follow the parts of a path. -/
def follow (way : List FileTree) (parts : List String) : Except ReadFailure (List FileTree) :=
  parts.foldlM followPart way

/-- The longest path, in bytes. -/
def pathLimit : Nat := 4095

/-- The place that a path leads to, from the directory `current`. -/
def locate (root : FileTree) (current : List String) (path : String) :
    Except ReadFailure (List FileTree) :=
  if pathLimit < path.utf8ByteSize then .error .nameTooLong
  else if path.isEmpty then .error .notFound
  else do
    let start ← if path.toList.head? = some '/' then pure [root] else follow [root] current
    follow start (path.splitOn "/")

/-- What a path names in a tree, from the directory `current`. -/
def pathStatus (root : FileTree) (current : List String) (path : String) : PathStatus :=
  match locate root current path with
  | .ok (.file content :: _) => .file content
  | .ok _ => .directory
  | .error failure => .unreachable failure

/-- A tree as a file system, for a program that runs in the directory `current` and under an account
with this home directory. -/
def toFileSystem (root : FileTree) (current : List String) (accountHome : Option String := none) :
    FileSystem :=
  ⟨pathStatus root current, desktopDirectory? accountHome⟩

end FileTree

end SqlTemplate
