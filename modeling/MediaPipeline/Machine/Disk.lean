import MediaPipeline.Path
import MediaPipeline.System

/-!
# Disks

A disk is a finite map from places to nodes. A place is the list of names on the
way from the root; the root itself is always a directory. Paths are walked name
by name, and links are followed on the way.
-/

namespace MediaPipeline.Machine

/-- A place on a disk: the names on the way from the root. -/
abbrev Place := List String

/-- A file that always exists. -/
inductive Device where
  /-- Swallows everything and holds nothing. -/
  | null
  /-- Swallows everything and holds zeros without end. -/
  | zeros
deriving DecidableEq

/-- What is found at a place. -/
inductive Node where
  /-- A regular file; `id` stays the same as long as the file exists. -/
  | file (id : Nat) (data : ByteArray) (executable : Bool)
  | directory
  | link (target : String)
  | device (d : Device)
  /-- A program of the machine itself. -/
  | program (name : String)

namespace Node

/-- Whether this is a directory. -/
def isDirectory : Node → Bool
  | .directory => true
  | _ => false

/-- Whether this leads elsewhere. -/
def isLink : Node → Bool
  | .link _ => true
  | _ => false

/-- Whether two nodes are the same regular file. -/
def isSameFile : Node → Node → Bool
  | .file i _ _, .file j _ _ => i = j
  | _, _ => false

end Node

/-- A disk. -/
structure Disk where
  nodes : List (Place × Node)
  /-- The number that the next file gets. -/
  nextId : Nat

namespace Disk

/-- What is found at a place. -/
def node? (d : Disk) (p : Place) : Option Node :=
  if p = [] then some .directory else (d.nodes.find? fun e => e.1 = p).map (·.2)

/-- Put a node at a place. -/
def put (d : Disk) (p : Place) (n : Node) : Disk :=
  { d with nodes := d.nodes.filter (fun e => e.1 ≠ p) ++ [(p, n)] }

/-- Remove everything at and below a place. -/
def prune (d : Disk) (p : Place) : Disk :=
  { d with nodes := d.nodes.filter fun e => !p.isPrefixOf e.1 }

/-- Remove everything below a place. -/
def clear (d : Disk) (p : Place) : Disk :=
  { d with nodes := d.nodes.filter fun e => !(p.isPrefixOf e.1 && e.1 ≠ p) }

/-- Put a new file at a place. -/
def putFile (d : Disk) (p : Place) (data : ByteArray) (executable : Bool) : Disk × Nat :=
  ({ d.put p (.file d.nextId data executable) with nextId := d.nextId + 1 }, d.nextId)

/-- Change the content of the file with an identifier. -/
def change (d : Disk) (id : Nat) (f : ByteArray → ByteArray) : Disk :=
  { d with
    nodes := d.nodes.map fun e =>
      match e.2 with
      | .file i data x => if i = id then (e.1, .file i (f data) x) else e
      | _ => e }

/-- The content of the file with an identifier. -/
def contentOf (d : Disk) (id : Nat) : Option ByteArray :=
  d.nodes.findSome? fun e =>
    match e.2 with
    | .file i data _ => if i = id then some data else none
    | _ => none

/-! ## Walking -/

/-- How many links are followed at most. -/
def maxLinks : Nat := 40

/-- The longest name, in bytes. -/
def maxName : Nat := 255

/-- The pieces of a path between slashes. -/
def piecesOf (path : String) : List String := (Path.pieces path.toList).map String.ofList

/-- Where the walk of an absolute path starts; any other one starts in `cwd`. -/
def startOf (cwd : Place) (path : String) : Place := if (Path.mk path).isAbsolute then [] else cwd

/-- Require a place to be a directory. -/
def requireDirectory (d : Disk) (p : Place) : Except OsError Unit :=
  match d.node? p with
  | some .directory => .ok ()
  | some _ => .error .notADirectory
  | none => .error .notFound

/-- Walk pieces from a place. With `follow` a link at the very end is followed.
The last place need not exist, but the directory around it must. -/
def walkFrom (d : Disk) (follow : Bool) : Nat → Nat → Place → List String → Except OsError Place
  | _, _, here, [] => .ok here
  | 0, _, _, _ :: _ => .error .tooManyLinks
  | fuel + 1, links, here, piece :: rest => do
    d.requireDirectory here
    if piece = "" ∨ piece = "." then walkFrom d follow fuel links here rest
    else if piece = ".." then walkFrom d follow fuel links here.dropLast rest
    else if maxName < piece.utf8ByteSize then .error .nameTooLong
    else
      let place := here ++ [piece]
      match d.node? place with
      | some (.link target) =>
        if rest.isEmpty && !follow then .ok place
        else
          match links with
          | 0 => .error .tooManyLinks
          | links + 1 =>
            walkFrom d follow fuel links (startOf here target) (piecesOf target ++ rest)
      | _ => walkFrom d follow fuel links place rest

/-- The place that a path leads to. -/
def walk (d : Disk) (cwd : Place) (follow : Bool) (path : String) : Except OsError Place :=
  if path.toList.contains (Char.ofNat 0) then .error .zeroInPath
  else if path.isEmpty then .error .notFound
  else walkFrom d follow (100000 + path.length) maxLinks (startOf cwd path) (piecesOf path)

/-- The node that a path leads to, with its place. -/
def lookup (d : Disk) (cwd : Place) (follow : Bool) (path : String) :
    Except OsError (Place × Node) := do
  let place ← d.walk cwd follow path
  match d.node? place with
  | some n => pure (place, n)
  | none => .error .notFound

/-- Whether a path leads to anything. -/
def isPresent (d : Disk) (cwd : Place) (path : String) : Bool := (d.lookup cwd true path).isOk

/-- Whether a path leads to a regular file. -/
def isFile (d : Disk) (cwd : Place) (path : String) : Bool :=
  match d.lookup cwd true path with
  | .ok (_, .file ..) | .ok (_, .program _) => true
  | _ => false

/-- Whether a path leads to a directory. -/
def isDirectory (d : Disk) (cwd : Place) (path : String) : Bool :=
  match d.lookup cwd true path with
  | .ok (_, .directory) => true
  | _ => false

/-! ## Changes -/

/-- A path without slashes at its end. -/
def trimSlashes (path : String) : String :=
  let body := (path.toList.reverse.dropWhile (· = '/')).reverse
  if body.isEmpty ∧ !path.isEmpty then "/" else String.ofList body

/-- Make one directory. -/
def makeDirectory (d : Disk) (cwd : Place) (path : String) : Except OsError Disk := do
  let place ← d.walk cwd false (trimSlashes path)
  if (d.node? place).isSome then .error .fileExists else pure (d.put place .directory)

/-- Make a directory after those on the way to it. `fuel` bounds the number of
directories on the way. -/
def makeDirectories (d : Disk) (cwd : Place) : Nat → String → Except OsError Unit × Disk
  | 0, _ => (.error .notFound, d)
  | fuel + 1, path =>
    if path.isEmpty then (.ok (), d)
    else
      match d.makeDirectory cwd path with
      | .ok d => (.ok (), d)
      | .error .notFound =>
        match (Path.mk path).parent? with
        | none => (.error .notFound, d)
        | some parent =>
          match makeDirectories d cwd fuel parent.text with
          | (.error e, d) => (.error e, d)
          | (.ok (), d) =>
            match d.makeDirectory cwd path with
            | .ok d => (.ok (), d)
            | .error e => if d.isDirectory cwd path then (.ok (), d) else (.error e, d)
      | .error e => if d.isDirectory cwd path then (.ok (), d) else (.error e, d)

/-- What a path that is opened for writing leads to. -/
inductive Target where
  | file (id : Nat)
  | device (d : Device)
deriving DecidableEq

/-- Open a file for writing, and make it if it is not there. Unless `keep`
holds, its content goes. -/
def openForWriting (d : Disk) (cwd : Place) (keep : Bool) (path : String) :
    Except OsError (Target × Disk) := do
  let last := (piecesOf path).getLast?
  if last = some "" ∨ last = some "." ∨ last = some ".." then
    let _ ← d.walk cwd true path
    .error .isADirectory
  else
    let place ← d.walk cwd true path
    match d.node? place with
    | none =>
      let (d, id) := d.putFile place .empty false
      pure (.file id, d)
    | some .directory => .error .isADirectory
    | some (.file id _ _) => pure (.file id, if keep then d else d.change id fun _ => .empty)
    | some (.device dev) => pure (.device dev, d)
    | some (.link _) => .error .tooManyLinks
    | some (.program _) => .error .permissionDenied

/-- The content of a file. -/
def read (d : Disk) (cwd : Place) (path : String) : Except OsError ByteArray := do
  match (← d.lookup cwd true path).2 with
  | .file _ data _ => pure data
  | .directory => .error .isADirectory
  | _ => pure .empty

/-- The pieces of a path without the empty ones that slashes at its end make. -/
def piecesInFront (path : String) : List String :=
  ((piecesOf path).reverse.dropWhile (· = "")).reverse

/-- Whether a path does not name the directory that it leads to itself: it ends in dots, or
in a link with a slash behind it. -/
def isRoundabout (d : Disk) (cwd : Place) (path : String) : Bool :=
  let pieces := piecesInFront path
  decide (pieces.getLast? = some "." ∨ pieces.getLast? = some "..") ||
    match d.walkFrom false (100000 + path.length) maxLinks (startOf cwd path) pieces with
    | .ok place => (d.node? place).any Node.isLink
    | .error _ => false

/-- Remove what a path leads to: a link itself, a directory with all it holds. A
directory that is not named itself loses what it holds but cannot go. -/
def remove (d : Disk) (cwd : Place) (path : String) : Except OsError Unit × Disk :=
  match d.lookup cwd false path with
  | .error e => (.error e, d)
  | .ok (place, .directory) =>
    if d.isRoundabout cwd path then (.error .directoryNotEmpty, d.clear place)
    else (.ok (), d.prune place)
  | .ok (place, _) => (.ok (), d.prune place)

/-! ## Listings -/

/-- Order of text by code points. -/
def textLe (a b : String) : Bool := !(b.toList < a.toList : Bool)

/-- Everything below a place, with its path from there, in order of the paths. -/
def snapshot (d : Disk) (p : Place) : List (String × Node) :=
  let below := d.nodes.filterMap fun e =>
    if p.isPrefixOf e.1 && e.1 ≠ p then
      let name := "/".intercalate (e.1.drop p.length)
      some (if e.2.isDirectory then (name ++ "/", e.2) else (name, e.2))
    else none
  below.mergeSort fun a b => textLe a.1 b.1

/-- The names of what a directory holds, in order. -/
def names (d : Disk) (p : Place) : List String :=
  (d.nodes.filterMap fun e =>
    if e.1.length = p.length + 1 && p.isPrefixOf e.1 then e.1.getLast? else none).mergeSort textLe

end Disk

end MediaPipeline.Machine
