/-!
Files as a run meets them: one tree of them, a working folder in the tree, and names that are walked
part by part from the working folder or from the root. There are no links. `Folder.read` and
`Folder.write` answer with what a file system of this kind answers. Writing replaces the whole content
of one file or changes nothing; a `Disk` may refuse to do it for reasons that are not in the tree. Main
statements: `get?_put_self` and `get?_put_of_ne`, a file that is put is there and no other entry is
touched.
-/

namespace DcpuAsm

/-- Why a file cannot be read or written. -/
inductive FileFault where
  | notFound
  /-- A part of the name in front of the last is a file. -/
  | notDirectory
  | isDirectory
  | nameTooLong
  /-- The content is no text in UTF-8. -/
  | notText
  /-- Anything else, in the words of the system. -/
  | other (text : String)
  deriving DecidableEq, Repr

def FileFault.message : FileFault → String
  | .notFound => "No such file or directory (os error 2)"
  | .notDirectory => "Not a directory (os error 20)"
  | .isDirectory => "Is a directory (os error 21)"
  | .nameTooLong => "File name too long (os error 36)"
  | .notText => "stream did not contain valid UTF-8"
  | .other text => text

/-- The text of a file, if its content is one. -/
def decodeText (content : ByteArray) : Except FileFault String :=
  match String.fromUTF8? content with
  | some text => .ok text
  | none => .error .notText

/-- The most bytes that a part of a name may have. -/
def maxPartBytes : Nat := 255

/-- The most bytes that a whole name may have. -/
def maxNameBytes : Nat := 4095

/-- Contents are compared as the core library does it, whatever else is imported. -/
local instance decEqContent : DecidableEq ByteArray := ByteArray.instDecidableEq

/-- What a path leads to. -/
inductive Entry where
  | file (content : ByteArray)
  | folder
  deriving DecidableEq

/-- A working folder, with the tree that it is in. Paths are given by their parts, from the root on. -/
structure Folder where
  entries : List (List String × Entry)
  /-- The path of the working folder itself. -/
  here : List String
  deriving DecidableEq

/-- A name has to be neither empty nor too long. -/
def checkName (name : String) : Except FileFault Unit :=
  if name = "" then .error .notFound
  else if maxNameBytes < name.utf8ByteSize then .error .nameTooLong
  else .ok ()

namespace Folder

/-- The path that a part of a name leads to from the path of a folder. The root is its own parent. -/
def step (path : List String) (part : String) : Except FileFault (List String) :=
  if part = "" ∨ part = "." then .ok path
  else if maxPartBytes < part.utf8ByteSize then .error .nameTooLong
  else if part = ".." then .ok path.dropLast
  else .ok (path ++ [part])

/-- What a path leads to. The empty path leads to the root. -/
def get? (f : Folder) (path : List String) : Option Entry :=
  if path = [] then some .folder else f.entries.lookup path

/-- Puts an entry at a path, in place of the one that was there. -/
def put (f : Folder) (path : List String) (e : Entry) : Folder :=
  { f with entries := (path, e) :: f.entries.filter (·.1 ≠ path) }

/-- Puts an entry at a path, and folders on the way to it where nothing is. -/
def putBelow (f : Folder) (path : List String) (e : Entry) : Folder :=
  let way := (List.range path.length).map fun n => path.take n
  (way.foldl (fun g p => if (g.get? p).isNone then g.put p .folder else g) f).put path e

/-- A working folder that holds the given entries, by their paths below it, in an empty tree. Of two
at one path the later one counts. -/
def ofEntries (entries : List (List String × Entry)) : Folder :=
  let here := ["work"]
  entries.foldl (fun f (path, e) => f.putBelow (here ++ path) e) ⟨[(here, .folder)], here⟩

/-- Is there a folder at the path? -/
def checkFolder (f : Folder) (path : List String) : Except FileFault Unit :=
  match f.get? path with
  | none => .error .notFound
  | some (.file _) => .error .notDirectory
  | some .folder => .ok ()

/-- The path that a part of a name leads to from a path, which has to be that of a folder. -/
def enter (f : Folder) (path : List String) (part : String) : Except FileFault (List String) := do
  f.checkFolder path
  step path part

/-- The path from which a name is walked. -/
def start (f : Folder) (name : String) : List String := if name.startsWith "/" then [] else f.here

/-- The folder in which the last part of a name is looked up, and that part. -/
def parent (f : Folder) (start : List String) (name : String) :
    Except FileFault (List String × String) := do
  let parts := name.splitOn "/"
  let path ← parts.dropLast.foldlM f.enter start
  f.checkFolder path
  return (path, parts.getLastD "")

/-- The path that a name leads to. What is there is not asked. -/
def walk (f : Folder) (name : String) : Except FileFault (List String) := do
  checkName name
  let (path, last) ← f.parent (f.start name) name
  step path last

/-- The text of the file of a name. -/
def read (f : Folder) (name : String) : Except FileFault String := do
  let path ← f.walk name
  match f.get? path with
  | none => throw .notFound
  | some .folder => throw .isDirectory
  | some (.file content) => decodeText content

/-- The path at which the file of a name is written. A name that ends in a slash is for folders
only, whether there is one or not. -/
def target (f : Folder) (name : String) : Except FileFault (List String) := do
  checkName name
  let bare := String.ofList (name.toList.reverse.dropWhile (· = '/')).reverse
  let (folder, last) ← f.parent (f.start name) bare
  if bare ≠ name then throw .isDirectory
  let path ← step folder last
  match f.get? path with
  | some .folder => throw .isDirectory
  | none | some (.file _) => return path

/-- Writes a text as the whole content of the file of a name. -/
def write (f : Folder) (name text : String) : Except FileFault Folder := do
  let path ← f.target name
  return f.put path (.file text.toUTF8)

/-- The files right in the working folder that were not there before, or not with this content. -/
def newOrChanged (before after : Folder) : List (String × ByteArray) :=
  after.entries.filterMap fun
    | (path, .file content) =>
      if path.dropLast = before.here ∧ before.get? path ≠ some (.file content) then
        path.getLast?.map (·, content)
      else none
    | (_, .folder) => none

/-! ### Laws of putting -/

theorem get?_put_self (f : Folder) {path : List String} (e : Entry) (h : path ≠ []) :
    (f.put path e).get? path = some e := by
  simp [get?, put, h]

theorem get?_put_of_ne (f : Folder) {path other : List String} (e : Entry) (h : other ≠ path) :
    (f.put path e).get? other = f.get? other := by
  have hkeep : ∀ l : List (List String × Entry),
      (l.filter (·.1 ≠ path)).lookup other = l.lookup other := by
    intro l
    induction l with
    | nil => rfl
    | cons p l ih =>
      obtain ⟨q, e⟩ := p
      by_cases hp : q = path
      · have hq : (other == q) = false := by simpa [hp] using h
        rw [List.filter_cons_of_neg (by simpa using hp), List.lookup_cons, hq, ih]
      · rw [List.filter_cons_of_pos (by simpa using hp), List.lookup_cons, List.lookup_cons, ih]
  have hq : (other == path) = false := by simpa using h
  simp only [get?, put, List.lookup_cons, hq, hkeep]

end Folder

/-! ### Disks -/

/-- How the files of a folder are written. A disk may refuse where `Folder.write` does not, but what
it writes is written in the same way. -/
structure Disk where
  write : Folder → String → String → Except FileFault Folder
  write_eq : ∀ {f name text g}, write f name text = .ok g → f.write name text = .ok g

/-- The disk that refuses nothing by itself. -/
def Disk.willing : Disk := ⟨Folder.write, id⟩

end DcpuAsm
