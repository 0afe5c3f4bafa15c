import WasmLowering.Text.Path

/-! The files of a host, and what happens when a command in its working directory
reads and writes them.

Paths are followed name by name, from the root or from the working directory. How
a failure is reported depends on how far they lead, so the rules here are those of
a host whose names have at most 255 bytes and whose paths have fewer than 4096. -/

namespace WasmLowering

inductive FileError where
  | missing
  | isDirectory
  | notDirectory
  | taken
  | nameTooLong
  | invalid
  deriving DecidableEq, Repr

def FileError.text : FileError → String
  | missing => "no such file or directory"
  | isDirectory => "is a directory"
  | notDirectory => "not a directory"
  | taken => "file exists"
  | nameTooLong => "file name too long"
  | invalid => "invalid argument"

structure FileFailure where
  operation : String
  path : String
  error : FileError
  deriving DecidableEq, Repr

def FileFailure.text (failure : FileFailure) : String :=
  failure.operation ++ " " ++ failure.path ++ ": " ++ failure.error.text

inductive Node where
  | directory
  | file (content : List UInt8)
  deriving DecidableEq, Repr

/-- The nodes of a host by the names on the way to them from the root, which has no
entry itself. -/
structure FileTree where
  entries : List (List String × Node)

namespace FileTree

/-- The working directory, among the temporary files. Nothing can be said about its
own name, so it has one that no path can spell. -/
def working : List String := ["tmp", ""]

def standardDirectories : List String :=
  ["bin", "boot", "dev", "etc", "home", "lib", "media", "mnt", "opt", "proc", "root", "run",
    "sbin", "srv", "sys", "tmp", "usr", "var"]

def empty : FileTree :=
  ⟨(working, .directory) :: (["dev", "null"], .file []) ::
    standardDirectories.map fun name => ([name], .directory)⟩

def node? (tree : FileTree) (way : List String) : Option Node :=
  if way.isEmpty then some .directory else tree.entries.lookup way

def put (tree : FileTree) (way : List String) (node : Node) : FileTree :=
  ⟨(way, node) :: tree.entries.filter (·.1 ≠ way)⟩

def workingFiles (tree : FileTree) : List (String × List UInt8) :=
  tree.entries.filterMap fun
    | (way, .file content) =>
        if working.isPrefixOf way then
          some ("/".intercalate (way.drop working.length), content)
        else none
    | _ => none

/-! Following paths. Only a directory can be followed further. -/

def nameLimit : Nat := 255

def pathLimit : Nat := 4096

def checkName (name : String) : Except FileError Unit :=
  if nameLimit < name.utf8ByteSize then .error .nameTooLong else .ok ()

def checkPath (path : String) : Except FileError Unit :=
  if path.toList.contains '\x00' then .error .invalid
  else if path = "" then .error .missing
  else if pathLimit ≤ path.utf8ByteSize then .error .nameTooLong
  else .ok ()

def start (path : String) : List String :=
  if path.startsWith "/" then [] else working

def names (path : String) : List String :=
  (path.splitOn "/").filter (· ≠ "")

def step (tree : FileTree) (way : List String) (name : String) :
    Except FileError (List String) := do
  match tree.node? way with
  | none => throw .missing
  | some (.file _) => throw .notDirectory
  | some .directory =>
      if name = "." then return way
      else if name = ".." then return way.dropLast
      else
        checkName name
        match tree.node? (way ++ [name]) with
        | none => throw .missing
        | some _ => return way ++ [name]

def follow (tree : FileTree) (way names : List String) : Except FileError (List String) :=
  names.foldlM tree.step way

def stat (tree : FileTree) (path : String) : Except FileError Node := do
  checkPath path
  match tree.node? (← tree.follow (start path) (names path)) with
  | none => throw .missing
  | some .directory => return .directory
  | some node => if path.endsWith "/" then throw .notDirectory else return node

/-- The directory that a path leads into and the name there that it ends with. A
path that ends with dots, or without any name, has no such name and leads to a
directory. -/
def lastName (tree : FileTree) (path : String) :
    Except FileError (Option (List String × String)) := do
  checkPath path
  let names := names path
  let parent ← tree.follow (start path) names.dropLast
  match tree.node? parent, names.getLast? with
  | some (.file _), _ => throw .notDirectory
  | none, _ => throw .missing
  | _, none => return none
  | _, some name => return if name = "." || name = ".." then none else some (parent, name)

/-! Operations. -/

def read (tree : FileTree) (path : String) : Except FileFailure (List UInt8) :=
  match tree.stat path with
  | .ok (.file content) => .ok content
  | .ok .directory => .error ⟨"read", path, .isDirectory⟩
  | .error error => .error ⟨"open", path, error⟩

def fileWay (tree : FileTree) (path : String) : Except FileError (List String) := do
  match ← tree.lastName path with
  | none => throw .isDirectory
  | some (parent, name) =>
      if path.endsWith "/" then throw .isDirectory
      checkName name
      match tree.node? (parent ++ [name]) with
      | some .directory => throw .isDirectory
      | _ => return parent ++ [name]

def write (tree : FileTree) (path : String) (content : List UInt8) :
    Except FileFailure FileTree :=
  match tree.fileWay path with
  | .ok way => .ok (tree.put way (.file content))
  | .error error => .error ⟨"open", path, error⟩

def directoryWay (tree : FileTree) (path : String) : Except FileError (List String) := do
  match ← tree.lastName path with
  | none => throw .taken
  | some (parent, name) =>
      checkName name
      if (tree.node? (parent ++ [name])).isSome then throw .taken
      return parent ++ [name]

def parentPath (path : String) : String :=
  let front := (path.toList.reverse.dropWhile (· = '/')).dropWhile (· ≠ '/')
  String.ofList (front.drop 1).reverse

def makeDirectoriesUpTo (depth : Nat) (tree : FileTree) (path : String) :
    Except FileFailure FileTree :=
  match tree.stat path with
  | .ok .directory => .ok tree
  | .ok (.file _) => .error ⟨"mkdir", path, .notDirectory⟩
  | .error _ => do
      let parent := parentPath path
      let tree ←
        match depth with
        | 0 => pure tree
        | depth + 1 => if parent = "" then pure tree else makeDirectoriesUpTo depth tree parent
      match tree.directoryWay path with
      | .ok way => return tree.put way .directory
      | .error error =>
          match tree.stat path with
          | .ok .directory => return tree
          | _ => throw ⟨"mkdir", path, error⟩

def makeDirectories (tree : FileTree) (path : String) : Except FileFailure FileTree :=
  makeDirectoriesUpTo path.length tree path

end FileTree

end WasmLowering
