import PipeShell.Path
import PipeShell.Text.Utf8

namespace PipeShell

inductive Node where
  | file (content : List UInt8)
  | directory
  deriving DecidableEq, Repr

structure FileTree where
  entries : List (List String × Node)
  deriving DecidableEq, Repr

namespace FileTree

inductive Fault where
  | missing
  | notDirectory
  | isDirectory
  | nameTooLong
  | alreadyExists
  deriving DecidableEq, Repr

def Fault.message : Fault → String
  | .missing => "No such file or directory"
  | .notDirectory => "Not a directory"
  | .isDirectory => "Is a directory"
  | .nameTooLong => "File name too long"
  | .alreadyExists => "File exists"

def empty : FileTree := ⟨[]⟩

def get? (tree : FileTree) (names : List String) : Option Node :=
  if names.isEmpty then some .directory
  else (tree.entries.find? (·.1 = names)).map (·.2)

def setIn (names : List String) (node : Node) :
    List (List String × Node) → List (List String × Node)
  | [] => [(names, node)]
  | (key, old) :: rest =>
      if key = names then (key, node) :: rest
        else (key, old) :: setIn names node rest

def set (tree : FileTree) (names : List String) (node : Node) : FileTree :=
  ⟨setIn names node tree.entries⟩

def maxName : Nat := 255

def nameTooLong (name : String) : Bool :=
  maxName < name.utf8ByteSize

/-- Follows the parts of a path from the directory `current`. -/
def walk (tree : FileTree) (current : List String) :
    List String → Except Fault (List String × Node)
  | [] =>
      match tree.get? current with
      | some node => .ok (current, node)
      | none => .error .missing
  | part :: parts =>
      match tree.get? current with
      | none => .error .missing
      | some (.file _) => .error .notDirectory
      | some .directory =>
          if part = "" || part = "." then tree.walk current parts
          else if part = ".." then tree.walk current.dropLast parts
          else if nameTooLong part then .error .nameTooLong
          else tree.walk (current ++ [part]) parts

/-- The entry that a path names. Relative paths start at the root. -/
def locate (tree : FileTree) (path : String) : Except Fault (List String × Node) :=
  if path = "" then .error .missing else tree.walk [] (Text.split '/' path)

def hasZero (path : String) : Bool :=
  path.toList.contains '\x00'

def contains (tree : FileTree) (path : String) : Bool :=
  !hasZero path && (tree.locate path).isOk

def isDirectory (tree : FileTree) (path : String) : Bool :=
  !hasZero path &&
    match tree.locate path with
    | .ok (_, .directory) => true
    | _ => false

def isFile (tree : FileTree) (path : String) : Bool :=
  !hasZero path &&
    match tree.locate path with
    | .ok (_, .file _) => true
    | _ => false

def openForReading (tree : FileTree) (path : String) : Except Fault (List String) :=
  match tree.locate path with
  | .error fault => .error fault
  | .ok (_, .directory) => .error .isDirectory
  | .ok (names, .file _) => .ok names

def content (tree : FileTree) (names : List String) : List UInt8 :=
  match tree.get? names with
  | some (.file bytes) => bytes
  | _ => []

def read? (tree : FileTree) (path : String) : Option (List UInt8) :=
  if hasZero path then none else (tree.openForReading path).toOption.map tree.content

/-- Where a path that may be new would stand: the walk reaches all but its last
part. -/
def place (tree : FileTree) (path : String) : Except Fault (List String × String) :=
  let parts := Text.split '/' path
  let kept := (parts.reverse.dropWhile (· = "")).reverse
  match kept.getLast? with
  | none => if path = "" then .error .missing else .error .isDirectory
  | some last =>
      match tree.walk [] kept.dropLast with
      | .error fault => .error fault
      | .ok (_, .file _) => .error .notDirectory
      | .ok (names, .directory) =>
          if kept.length < parts.length || last = "." || last = ".." then
            .error .isDirectory
          else if nameTooLong last then .error .nameTooLong
          else .ok (names, last)

/-- Opens a file for writing and creates it if it is missing. Overwriting empties it
at once. -/
def openForWriting (tree : FileTree) (path : String) (append : Bool) :
    Except Fault (FileTree × List String) :=
  match tree.place path with
  | .error fault => .error fault
  | .ok (parent, name) =>
      let names := parent ++ [name]
      match tree.get? names with
      | some .directory => .error .isDirectory
      | some (.file _) =>
          .ok (if append then tree else tree.set names (.file []), names)
      | none => .ok (tree.set names (.file []), names)

/-- Overwrites the octets from `offset` on; a gap before it is filled with zeros. -/
def writeAt (tree : FileTree) (names : List String) (offset : Nat)
    (bytes : List UInt8) : FileTree :=
  let old := tree.content names
  let before := old.take offset ++ List.replicate (offset - old.length) 0
  tree.set names (.file (before ++ bytes ++ old.drop (offset + bytes.length)))

def append (tree : FileTree) (names : List String) (bytes : List UInt8) : FileTree :=
  tree.set names (.file (tree.content names ++ bytes))

def nameIn? (parent names : List String) : Option String :=
  if names.dropLast = parent then names.getLast? else none

/-- The names in a directory in the order of their characters, each with whether it
is a directory itself. -/
def list (tree : FileTree) (path : String) : Except Fault (List (String × Bool)) :=
  match tree.locate path with
  | .error fault => .error fault
  | .ok (_, .file _) => .error .notDirectory
  | .ok (parent, .directory) =>
      let children := tree.entries.filterMap fun (names, node) =>
        (nameIn? parent names).map fun name => (name, decide (node = .directory))
      .ok (children.mergeSort fun a b => a.1 ≤ b.1)

def makeDirectory (tree : FileTree) (path : String) : Except Fault FileTree :=
  if tree.contains path then .error .alreadyExists
  else
    let parts := (Text.split '/' path).filter (· ≠ "")
    match parts.getLast? with
    | none => .error .missing
    | some last =>
        match tree.walk [] parts.dropLast with
        | .error fault => .error fault
        | .ok (_, .file _) => .error .notDirectory
        | .ok (names, .directory) =>
            if nameTooLong last then .error .nameTooLong
            else .ok (tree.set (names ++ [last]) .directory)

def ensureDirectory (tree : FileTree) (path : String) : Except Fault FileTree :=
  match tree.makeDirectory path with
  | .ok made => .ok made
  | .error .missing => .error .missing
  | .error fault => if tree.isDirectory path then .ok tree else .error fault

/-- Creates the directory with the given parts, last part first, and those above it
as needed. What has been created before a fault stays. -/
def ensureRoute (tree : FileTree) (lead : String) :
    List String → FileTree × Except Fault Unit
  | [] =>
      match tree.ensureDirectory (if lead = "" then "." else lead) with
      | .ok made => (made, .ok ())
      | .error fault => (tree, .error fault)
  | part :: above =>
      let path := lead ++ Text.join "/" (part :: above).reverse
      match tree.makeDirectory path with
      | .ok made => (made, .ok ())
      | .error .missing =>
          match tree.ensureRoute lead above with
          | (made, .error fault) => (made, .error fault)
          | (made, .ok ()) =>
              match made.ensureDirectory path with
              | .ok complete => (complete, .ok ())
              | .error fault => (made, .error fault)
      | .error fault =>
          (tree, if tree.isDirectory path then .ok () else .error fault)

/-- The parts of a path that remain when empty parts and dots are dropped. -/
def plainRoute (path : String) : Path.Route :=
  let route := Path.Route.ofString path
  ⟨route.lead, route.parts.filter fun part => part ≠ "" && part ≠ "."⟩

/-- Creates the directories above a file, as far as they are missing. -/
def ensureParent (tree : FileTree) (path : String) : FileTree × Except Fault Unit :=
  let route := plainRoute path
  tree.ensureRoute route.lead.text route.parts.reverse.tail

/-- Enters a node with all directories above it, as a tree is first set up. -/
def plant (tree : FileTree) (path : String) (node : Node) : FileTree :=
  let names := (Text.split '/' path).filter (· ≠ "")
  let rooted := (List.range names.length).foldl (fun tree count =>
    let above := names.take count
    if (tree.get? above).isSome then tree else tree.set above .directory) tree
  if names.isEmpty then rooted
  else
    match node, rooted.get? names with
    | .directory, some .directory => rooted
    | _, _ => rooted.set names node

/-- All entries under their full paths, in the order of the paths. -/
def listing (tree : FileTree) : List (String × Node) :=
  (tree.entries.map fun (names, node) =>
    ("/" ++ Text.join "/" names, node)).mergeSort
    fun a b => a.1 ≤ b.1

end FileTree

end PipeShell
