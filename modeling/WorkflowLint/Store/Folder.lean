import WorkflowLint.Fault
import WorkflowLint.Keyed
import WorkflowLint.Store.Path
import WorkflowLint.Text.Quoted
import WorkflowLint.Text.Utf8

/-!
# Stores of files

A store has folders and files, and one of the folders is the current one.  Files are read as UTF-8
with every line end as a line feed.  Two operations can be refused: writing a file, and listing a
folder.

Writing a text with a surrogate fails after the file has been emptied.
-/

namespace WorkflowLint

/-- The names that lead from the root to a file or a folder. -/
abbrev Location := List Text

/-- The files and folders, the current folder, and whether writing and listing are refused. -/
structure Store where
  files : List (Location × List UInt8) := []
  folders : List Location := []
  current : Location := []
  refusesWrites : Bool := false
  refusesListing : Bool := false

namespace Store

/-- Why a path leads to no file that can be read.  A text that is no path at all is a fault. -/
inductive ReadError where
  | absent (path : Text)
  | tooLong (path : Text)
  | folder (path : Text)
  | undecodable (e : Utf8Error)
  | fault (f : Fault)
deriving DecidableEq

/-- The wording of an error. -/
def ReadError.message : ReadError → Text
  | .absent path => "[Errno 2] No such file or directory: " ++ path.quoted
  | .tooLong path => "[Errno 36] File name too long: " ++ path.quoted
  | .folder path => "[Errno 21] Is a directory: " ++ path.quoted
  | .undecodable e => e.message
  | .fault f => f.text

/-! ## Looking up -/

/-- The fault of a text that is no path, since it has surrogates that stand for no bytes or a code
point that would end it. -/
def pathFault? (p : Text) : Option Fault :=
  match Path.misplaced? p with
  | some e => some (.ofSurrogates e)
  | none =>
    if List.contains p (.char '\x00') then some (.value "embedded null byte") else none

/-- The path of a location. -/
def pathOf (l : Location) : Text := Path.slash :: Text.join [Path.slash] l

/-- Whether there is a folder at a location; the root is always there. -/
def hasFolder (s : Store) (l : Location) : Bool := l.isEmpty || s.folders.contains l

/-- Follows the names of a path from a folder on. -/
def follow (s : Store) (p : Text) : Location → List Text → Except ReadError Location
  | l, [] => .ok l
  | l, name :: names =>
    if !s.hasFolder l then .error (.absent p)
    else if name.isEmpty ∨ name = Path.here then follow s p l names
    else if name = Path.up then follow s p l.dropLast names
    else if Path.longestName < Path.byteLength name then .error (.tooLong p)
    else follow s p (l ++ [name]) names

/-- The location that a path leads to, whether anything is there or not. -/
def locate (s : Store) (p : Text) : Except ReadError Location :=
  match pathFault? p with
  | some f => .error (.fault f)
  | none =>
    if p.isEmpty then .error (.absent p)
    else if Path.longestPath < Path.byteLength p then .error (.tooLong p)
    else s.follow p (if Path.isAbsolute p then [] else s.current) (p.parts Path.slash)

/-- The location that a path leads to, if it leads to one. -/
def locate? (s : Store) (p : Text) : Option Location := (s.locate p).toOption

/-- The bytes of the file that a path leads to. -/
def file? (s : Store) (p : Text) : Option (List UInt8) :=
  (s.locate? p).bind fun l => Keyed.get? l s.files

/-- Whether a path leads to a file. -/
def isFile (s : Store) (p : Text) : Bool := (s.file? p).isSome

/-- Whether a path leads to a folder. -/
def isFolder (s : Store) (p : Text) : Bool := (s.locate? p).any s.hasFolder

/-- A path as an absolute one in normal form. -/
def absolute (s : Store) (p : Text) : Text := Path.absolute (pathOf s.current) p

/-! ## Reading -/

/-- The text of a file. -/
def read (s : Store) (p : Text) : Except ReadError Text := do
  let l ← s.locate p
  match Keyed.get? l s.files with
  | none => .error (if s.hasFolder l then .folder p else .absent p)
  | some bytes =>
    match Utf8.decode bytes with
    | .error e => .error (.undecodable e)
    | .ok t => .ok t.normaliseLineEnds

/-- The names of the files in the folder at a location, in order. -/
def fileNames (s : Store) (l : Location) : List Text :=
  (s.files.filterMap fun f => if f.1.dropLast = l then f.1.getLast? else none).mergeSort Text.le

/-- The fault of a listing that is refused. -/
def listingFault (p : Text) : Fault :=
  ⟨"PermissionError", "[Errno 13] Permission denied: " ++ p.quoted⟩

/-- The names of the files in the folder that a path leads to; there are none if it leads to no
folder. -/
def list (s : Store) (p : Text) : Except Fault (List Text) :=
  match (s.locate? p).filter s.hasFolder with
  | none => .ok []
  | some l => if s.refusesListing then .error (listingFault p) else .ok (s.fileNames l)

/-! ## Writing -/

/-- The outcome of writing a file. -/
inductive Written where
  | done (after : Store)
  | refused
  | fault (after : Store) (f : Fault)

/-- Gives the file that a path leads to other bytes. -/
def setBytes (s : Store) (p : Text) (bytes : List UInt8) : Store :=
  match s.locate? p with
  | none => s
  | some l => { s with files := Keyed.set l bytes s.files }

/-- Writes a text to a file. -/
def write (s : Store) (p t : Text) : Written :=
  if s.refusesWrites then .refused
  else
    match Utf8.encode t with
    | .ok bytes => .done (s.setBytes p bytes)
    | .error e => .fault (s.setBytes p []) (.ofSurrogates e)

/-! ## Filling a store -/

/-- Adds a folder and those around it. -/
def addFolder (s : Store) (l : Location) : Store :=
  let around := (List.range l.length).map fun n => l.take (n + 1)
  { s with folders := Keyed.distinct (s.folders ++ around) }

/-- Adds a file and the folders around it, or gives the file other bytes. -/
def addFile (s : Store) (l : Location) (bytes : List UInt8) : Store :=
  let s := s.addFolder l.dropLast
  { s with files := Keyed.set l bytes s.files }

/-- Removes what is at a location, with everything inside it. -/
def remove (s : Store) (l : Location) : Store :=
  { s with
    files := s.files.filter fun f => !l.isPrefixOf f.1
    folders := s.folders.filter fun m => !l.isPrefixOf m }

end Store
end WorkflowLint
