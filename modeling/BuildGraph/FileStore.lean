import BuildGraph.DeclaredMap
import BuildGraph.Path

/-! Files and directories as paths lead to them, and what can go wrong on the way. -/

namespace BuildGraph

/-- Why a path does not lead to what was wanted, or why that cannot be used. -/
inductive FileError where
  -- Every way in which a file can be refused is one of these, if need be the last.
  | notFound
  | notDirectory
  | isDirectory
  | nameTooLong
  /-- The path holds a character that no name can have. -/
  | nulInName
  /-- The bytes of a file are not those of a text. -/
  | notText
  /-- What is there may not be used so. -/
  | denied
  /-- There is no room left for a text. -/
  | noSpace
  /-- The device that holds a place does not work. -/
  | inputOutput
  /-- Whatever else the system says. -/
  | other (cause : String)
deriving DecidableEq, Inhabited, Repr

/-- The words for an error. -/
def FileError.message : FileError → String
  -- The numbers are those of the system whose words these are.
  | notFound => "No such file or directory (os error 2)"
  | notDirectory => "Not a directory (os error 20)"
  | isDirectory => "Is a directory (os error 21)"
  | nameTooLong => "File name too long (os error 36)"
  | nulInName => "file name contained an unexpected NUL byte"
  | notText => "stream did not contain valid UTF-8"
  | denied => "Permission denied (os error 13)"
  | noSpace => "No space left on device (os error 28)"
  | inputOutput => "Input/output error (os error 5)"
  | other cause => cause

/-- A place in a tree of directories: the names that lead to it, the last one first. -/
abbrev Place := List String

/-- What can be at a place. -/
inductive FileNode where
  | file (bytes : ByteArray)
  | directory
  /-- It takes whatever is written to it, and holds nothing. -/
  | sink
deriving Inhabited

/-- The text of a node, or why it has none. -/
def FileNode.text : FileNode → Except FileError String
  -- A sink reads as empty.
  | directory => .error .isDirectory
  | sink => .ok ""
  | file bytes =>
    match String.fromUTF8? bytes with
    | none => .error .notText
    | some text => .ok text

/-- What can be asked of a place. -/
inductive Access where
  -- Faults are told apart by what is asked, so a file may be readable and not writable.
  /-- To look for a name in a directory. -/
  | enter
  /-- To tell whether anything is there. -/
  | examine
  | read
  /-- To write to what is there. -/
  | write
  /-- To make a file where nothing is. -/
  | create
deriving DecidableEq, Inhabited, Repr

/-- All that can be reached by paths. -/
structure FileStore where
  -- A store without faults is the default, and nothing below depends on that.
  nodes : DeclaredMap Place FileNode := {}
  /-- The directory in which relative paths start. -/
  here : Place := []
  /-- What goes wrong where something is asked of a place, though the way there is right. -/
  faults : Access → Place → Option FileError := fun _ _ => none
deriving Inhabited

namespace FileStore

/-- The number of bytes that a name may have. -/
def nameLimit : Nat := 255

/-- The number of bytes that a path may not have. -/
def pathLimit : Nat := 4096

/-- What is at a place; the root is always a directory. -/
def node? (s : FileStore) (place : Place) : Option FileNode :=
  -- The root needs no entry, so an empty store still has a place to start from.
  if place = [] then some .directory else s.nodes.get? place

/-- Nothing goes wrong where something is asked of a place. -/
def permit (s : FileStore) (access : Access) (place : Place) : Except FileError Unit :=
  -- The fault decides alone; what is at the place has been looked at before.
  match s.faults access place with
  | some e => .error e
  | none => .ok ()

/-- The store with `node` at a place. -/
def put (s : FileStore) (place : Place) (node : FileNode) : FileStore :=
  -- What was at the place is gone, and the ways below it are not looked after.
  { s with nodes := s.nodes.insert place node }

/-- The store with a directory at a place, and with all directories on the way there. -/
def addDirectory (s : FileStore) : Place → FileStore
  -- The way is built from the root down, so each part of it comes after its parent.
  | [] => s
  | name :: parent => (s.addDirectory parent).put (name :: parent) .directory

/-- The store with `node` at a place, and with all directories on the way there. -/
def add (s : FileStore) (place : Place) (node : FileNode) : FileStore :=
  -- The root itself is a directory already and cannot be added.
  (s.addDirectory place.tail).put place node

/-- Where a path starts. -/
def start (s : FileStore) (p : Path) : Place :=
  -- The empty list of names is the root.
  if p.isAbsolute then [] else s.here

/-- Paths that lead nowhere, whatever is there. -/
def check (p : Path) : Except FileError Unit :=
  -- These are found before the first directory is looked into, in this order.
  if '\x00' ∈ p.text.toList then .error .nulInName
  else if p.text = "" then .error .notFound
  else if pathLimit ≤ p.text.utf8ByteSize then .error .nameTooLong
  else .ok ()

/-- A piece of a path may be looked for in the directory at a place. -/
def lookIn (s : FileStore) (place : Place) (piece : String) : Except FileError Unit :=
  -- Nothing is looked for between two slashes.
  if piece = "" then .ok () else s.permit .enter place

/-- The place that the pieces of a path lead to; every piece starts from a directory that may be
entered, and there may be nothing at the last place. -/
def walk (s : FileStore) : Place → List String → Except FileError Place
  -- A name is looked up in the next turn only, so the last one need not be there.
  | place, [] => .ok place
  | place, piece :: rest =>
    match s.node? place with
    | none => .error .notFound
    | some .directory => do
      s.lookIn place piece
      match Component.ofPiece piece with
      | some (.named name) =>
        if nameLimit < name.utf8ByteSize then .error .nameTooLong else s.walk (name :: place) rest
      | some .parent => s.walk place.tail rest
      | _ => s.walk place rest
    | some _ => .error .notDirectory

/-- The place that a path leads to, if only directories are on the way. -/
def reach (s : FileStore) (p : Path) : Except FileError Place := do
  -- What makes a path unusable comes before what is in its way.
  check p
  s.walk (s.start p) p.pieces

/-- What a path leads to, and where that is. -/
def locate (s : FileStore) (p : Path) : Except FileError (Place × FileNode) := do
  -- Here the last name has to be there, too.
  let place ← s.reach p
  match s.node? place with
  | none => .error .notFound
  | some node => .ok (place, node)

/-- The text of the file that a path leads to. -/
def read (s : FileStore) (p : Path) : Except FileError String := do
  -- What may not be read is refused before it is looked at as a text.
  let (place, node) ← s.locate p
  s.permit .read place
  node.text

/-- What a path leads to can be looked at. -/
def examine (s : FileStore) (p : Path) : Except FileError Unit := do
  -- Nothing is said about what is there.
  let (place, _) ← s.locate p
  s.permit .examine place

/-- Whether a path leads anywhere; that it does not is an error only if something is in its way. -/
def isThere (s : FileStore) (p : Path) : Except FileError Bool :=
  -- Only a plain miss counts as a no.
  match s.examine p with
  | .ok _ => .ok true
  | .error .notFound => .ok false
  | .error e => .error e

/-- The place at which a path wants a file to be. -/
def destination (s : FileStore) (p : Path) : Except FileError Place := do
  check p
  match p.pieces.reverse.dropWhile (· = "") with
  | [] => .error .isDirectory
  | last :: before =>
    let parent ← s.walk (s.start p) before.reverse
    match s.node? parent with
    | none => .error .notFound
    | some .directory =>
      s.lookIn parent last
      -- A slash at the end, or a piece that is no name, asks for a directory.
      if last = "." ∨ last = ".." ∨ p.pieces.getLast? = some "" then .error .isDirectory
      else if nameLimit < last.utf8ByteSize then .error .nameTooLong
      else .ok (last :: parent)
    | some _ => .error .notDirectory

/-- The store with a text in the file that a path leads to. Where anything goes wrong, there is no
other store than the one before. -/
def write (s : FileStore) (p : Path) (text : String) : Except FileError FileStore := do
  -- What is there decides how it is written: a directory never, a sink without a trace, a file as a
  -- whole.
  let place ← s.destination p
  match s.node? place with
  | some .directory => .error .isDirectory
  | some .sink =>
    s.permit .write place
    return s
  | some (.file _) =>
    s.permit .write place
    return s.put place (.file text.toUTF8)
  | none =>
    s.permit .create place
    return s.put place (.file text.toUTF8)

end FileStore

end BuildGraph
