import ProofDump.Content
import ProofDump.Path
import ProofDump.Text.Quoted

/-!
# File trees

What operations see of the file system: files with their contents and directories, by the names that
lead to them from the root. Every directory above a file or a directory is there too. Paths that are not
absolute start at the current directory, whose place is part of the tree.

A path is followed name by name, and what stops the way is the cause of the fault that is reported: a
name that is not there, a file in the place of a directory, a name that is too long. Text that spells a
path says more than the path itself: at its end a slash or a dot asks for a directory, and without any
character it leads nowhere.
-/

namespace ProofDump

/-- Files and directories by the names that lead to them from the root. -/
structure FileTree where
  /-- The names that lead to the current directory. -/
  here : List String
  files : List (List String × Content)
  directories : List (List String)
  deriving Repr

namespace FileTree

/-- A tree without files. -/
def empty (here : List String) : FileTree := ⟨here, [], [here]⟩

/-- Whether the names lead to a file. -/
def isFileAt (tree : FileTree) (names : List String) : Bool :=
  tree.files.any fun file => file.1 = names

/-- Whether the names lead to a directory. -/
def isDirectoryAt (tree : FileTree) (names : List String) : Bool :=
  names.isEmpty || tree.directories.contains names ||
    tree.files.any (fun file => names.isPrefixOf file.1 && file.1 ≠ names) ||
    tree.directories.any (names.isPrefixOf ·)

/-! ### Following paths -/

/-- What stops the way along a path. -/
inductive Obstacle where
  /-- There is nothing of a name. -/
  | absent
  /-- A file stands where a directory is needed. -/
  | file
  /-- A name, or the path, is too long. -/
  | long
  deriving DecidableEq, Repr

/-- The fault of a path that cannot be followed; the path is written as reports write it. -/
def Obstacle.fault (path : String) : Obstacle → Fault
  | absent => .noFile path
  | file => .notDirectory path
  | long => .longPath path

/-- The largest number of bytes in a name. -/
def longestName : Nat := 255

/-- The number that the bytes of a path stay below. -/
def pathBound : Nat := 4096

/-- Follow names one by one through directories. Two dots lead back, and nowhere from the root; one dot
only asks for a directory. The last name need not be there. -/
def follow (tree : FileTree) (reached : List String) : List String → Except Obstacle (List String)
  | [] => .ok reached
  | part :: rest =>
    if tree.isDirectoryAt reached then
      if part = "." then follow tree reached rest
      else if part = ".." then follow tree reached.dropLast rest
      else if longestName < part.utf8ByteSize then .error .long
      else follow tree (reached ++ [part]) rest
    else if tree.isFileAt reached then .error .file
    else .error .absent

/-- The names that a text leads through: a slash at its end asks for a directory. -/
def waypoints (text : String) : List String :=
  let parts := (Text.splitAt '/' text).filter (· ≠ "")
  if text.toList.getLast? = some '/' then parts ++ ["."] else parts

/-- The names that the path spelled by a text leads to. -/
def reach (tree : FileTree) (text : String) : Except Obstacle (List String) :=
  if text = "" then .error .absent
  else if pathBound ≤ text.utf8ByteSize then .error .long
  else follow tree (if text.toList.head? = some '/' then [] else tree.here) (waypoints text)

/-- The names that the path spelled by a text leads to, or the fault of a path that leads nowhere. -/
def locate (tree : FileTree) (text : String) : Except Fault (List String) :=
  if text.toList.contains '\x00' then .error .nullByte
  else (tree.reach text).mapError (Obstacle.fault (Text.quoted text))

/-! ### Questions -/

/-- Whether the path that a text spells leads to a file. -/
def isFile (tree : FileTree) (text : String) : Bool :=
  (tree.locate text).toOption.any tree.isFileAt

/-- Whether the path that a text spells leads to a directory. -/
def isDirectory (tree : FileTree) (text : String) : Bool :=
  (tree.locate text).toOption.any tree.isDirectoryAt

/-- Whether the path that a text spells leads anywhere. -/
def holds (tree : FileTree) (text : String) : Bool := tree.isFile text || tree.isDirectory text

/-- Refuse a path that is too long to be asked about. -/
def checkLength (tree : FileTree) (path : Path) : Except Fault Unit :=
  match tree.locate path.text with
  | .error (.longPath text) => .error (.longPath text)
  | _ => .ok ()

/-- Whether a path leads anywhere; a path that is too long cannot be asked about. -/
def exists? (tree : FileTree) (path : Path) : Except Fault Bool := do
  tree.checkLength path
  return tree.holds path.text

/-- Whether a path leads to a file; a path that is too long cannot be asked about. -/
def existsFile? (tree : FileTree) (path : Path) : Except Fault Bool := do
  tree.checkLength path
  return tree.isFile path.text

/-- The content of the file that a text spells the path of. -/
def contentOf (tree : FileTree) (text : String) : Except Fault Content := do
  let names ← tree.locate text
  match tree.files.lookup names with
  | some content => return content
  | none =>
    if tree.isDirectoryAt names then throw (.isDirectory (Text.quoted text))
    else throw (.noFile (Text.quoted text))

/-- The text in the file that a text spells the path of. -/
def read (tree : FileTree) (text : String) : Except Fault String := do
  (← tree.contentOf text).text

/-- The non-empty beginnings of a list of names. -/
def beginnings : List String → List (List String)
  | [] => []
  | name :: rest => [name] :: (beginnings rest).map (name :: ·)

/-- All directories below the root. -/
def allDirectories (tree : FileTree) : List (List String) :=
  (tree.files.flatMap (fun file => beginnings file.1.dropLast) ++
    tree.directories.flatMap beginnings).eraseDups

/-- Whether a name ends with the suffix of source files. -/
def isSourceName (name : String) : Bool :=
  Text.startsWith ".lean".toList.reverse name.toList.reverse

/-- The names of the files that lie directly in the directory at these names. -/
def filesAt (tree : FileTree) (directory : List String) : List String :=
  tree.files.filterMap fun file => if file.1.dropLast = directory then file.1.getLast? else none

/-- The names of the directories that lie directly in the directory at these names. -/
def directoriesAt (tree : FileTree) (directory : List String) : List String :=
  tree.allDirectories.filterMap fun names =>
    if names.dropLast = directory then names.getLast? else none

/-- The names of all that lies directly in the directory at these names. -/
def entriesAt (tree : FileTree) (directory : List String) : List String :=
  tree.filesAt directory ++ tree.directoriesAt directory

/-- The names of the directories that lie directly in a directory. -/
def directoriesIn (tree : FileTree) (path : Path) : List String :=
  match tree.locate path.text with
  | .ok directory => tree.directoriesAt directory
  | .error _ => []

/-- The paths of all that lies directly in a directory. -/
def entriesIn (tree : FileTree) (path : Path) : List Path :=
  match tree.locate path.text with
  | .ok directory => (tree.entriesAt directory).map fun name => path.join (.relative [name])
  | .error _ => []

/-- The paths of the directories that lie directly in a directory. All that lies there is asked whether it
is a directory, and what has too long a path cannot be asked. -/
def subdirectories? (tree : FileTree) (path : Path) : Except Fault (List Path) := do
  (tree.entriesIn path).forM tree.checkLength
  return (tree.directoriesIn path).map fun name => path.join (.relative [name])

/-- The absolute path of what a path leads to. -/
def resolve (tree : FileTree) (path : Path) : Path :=
  match tree.locate path.text with
  | .ok names => ⟨1, names⟩
  | .error _ => path

/-! ### Walks -/

/-- The largest number of names that lead to a directory. -/
def depth (tree : FileTree) : Nat := tree.allDirectories.foldr (fun names most => max names.length most) 0

theorem length_le_depth {tree : FileTree} {names : List String} (hnames : names ∈ tree.allDirectories) :
    names.length ≤ tree.depth := by
  unfold depth
  generalize tree.allDirectories = all at hnames
  induction all with
  | nil => cases hnames
  | cons first rest ih =>
    simp only [List.foldr_cons]
    cases hnames with
    | head => exact Nat.le_max_left _ _
    | tail _ hrest => exact Nat.le_trans (ih hrest) (Nat.le_max_right _ _)

theorem mem_directoriesAt {tree : FileTree} {directory : List String} {name : String} :
    name ∈ tree.directoriesAt directory ↔ directory ++ [name] ∈ tree.allDirectories := by
  simp only [directoriesAt, List.mem_filterMap, Option.ite_none_right_eq_some]
  constructor
  · rintro ⟨names, hnames, rfl, hlast⟩
    obtain ⟨front, rfl⟩ := List.getLast?_eq_some_iff.1 hlast
    simpa only [List.dropLast_concat] using hnames
  · intro hnames
    exact ⟨directory ++ [name], hnames, List.dropLast_concat, List.getLast?_concat⟩

/-- A directory that a walk comes to: the names that lead to it from the start of the walk, and the
names of the files in it. -/
structure Visit where
  names : List String
  files : List String
  deriving DecidableEq, Repr

/-- Walk through the directory that `names` lead to from the start, and on into those of its directories
that `enters` admits. The text spells the path of the directory; one whose path is too long cannot be
opened. -/
def walk (tree : FileTree) (enters : List String → String → Bool) (start : List String) (text : String)
    (names : List String) : List Visit :=
  if text.utf8ByteSize < pathBound then
    ⟨names, tree.filesAt (start ++ names)⟩ ::
      ((tree.directoriesAt (start ++ names)).filter (enters names)).attach.flatMap fun name =>
        walk tree enters start (joinPathText text name.1) (names ++ [name.1])
  else []
termination_by tree.depth - (start ++ names).length
decreasing_by
  have hdepth := length_le_depth (mem_directoriesAt.1 (List.mem_filter.1 name.2).1)
  simp only [List.length_append, List.length_cons, List.length_nil] at hdepth ⊢
  omega

/-- Walk through the directory that a path leads to. Of all faults of the path only the null character is
one here. -/
def walkFrom (tree : FileTree) (enters : List String → String → Bool) (path : Path) :
    Except Fault (List Visit) :=
  match tree.locate path.text with
  | .ok start => .ok (tree.walk enters start path.text [])
  | .error .nullByte => .error .nullByte
  | .error _ => .ok []

/-- Seek what has the suffix of source files in the directory that `names` lead to from the start, then in
the directories in it. The path spells that directory; one whose path is too long cannot be opened, which is
a fault. -/
def seekSources (tree : FileTree) (start : List String) (path : Path) (names : List String) :
    List (Except Fault (List String)) :=
  if path.text.utf8ByteSize < pathBound then
    ((tree.entriesAt (start ++ names)).filter isSourceName).map (fun name => .ok (names ++ [name])) ++
      (tree.directoriesAt (start ++ names)).attach.flatMap fun name =>
        seekSources tree start (path.join (.relative [name.1])) (names ++ [name.1])
  else [.error (.longPath (Text.quoted path.text))]
termination_by tree.depth - (start ++ names).length
decreasing_by
  have hdepth := length_le_depth (mem_directoriesAt.1 name.2)
  simp only [List.length_append, List.length_cons, List.length_nil] at hdepth ⊢
  omega

/-- What a search for source files below a path comes to, one after the other: the names that lead to
something with their suffix, or a fault. -/
def sourcesBelow (tree : FileTree) (path : Path) : List (Except Fault (List String)) :=
  match tree.locate path.text with
  | .ok directory => if tree.isDirectoryAt directory then tree.seekSources directory path [] else []
  | .error _ => []

/-! ### Changes -/

/-- Put a file in place, over an older one. -/
def put (tree : FileTree) (names : List String) (content : Content) : FileTree :=
  let others := tree.files.filter fun file => file.1 ≠ names
  { tree with
    files := others ++ [(names, content)]
    directories := tree.directories ++ [names.dropLast] }

/-- Make a directory and all above it. -/
def addDirectory (tree : FileTree) (names : List String) : FileTree :=
  { tree with directories := tree.directories ++ [names] }

/-- Make a directory in one that is there; it may be there already. -/
def makeDirectory (tree : FileTree) (path : Path) : Except Fault FileTree := do
  let names ← tree.locate path.text
  if tree.isDirectoryAt names then return tree
  else if tree.isFileAt names then throw (.fileExists (Text.quoted path.text))
  else return tree.addDirectory names

/-- Make a directory and those above it, unless they are there already. -/
def makeDirectories (tree : FileTree) (path : Path) : Except Fault FileTree :=
  match tree.locate path.text with
  | .error (.noFile _) => .ok (tree.addDirectory (path.namesFrom tree.here))
  | .error fault => .error fault
  | .ok _ => tree.makeDirectory path

/-- Take a file away; its directory stays. -/
def remove (tree : FileTree) (text : String) : Except Fault FileTree := do
  let names ← tree.locate text
  if tree.isFileAt names then
    return { tree with
      files := tree.files.filter fun file => file.1 ≠ names
      directories := tree.directories ++ [names.dropLast] }
  else if tree.isDirectoryAt names then throw (.isDirectory (Text.quoted text))
  else throw (.noFile (Text.quoted text))

/-- Write a text to a file whose directory is there. -/
def write (tree : FileTree) (text content : String) : Except Fault FileTree := do
  let names ← tree.locate text
  if tree.isDirectoryAt names then throw (.isDirectory (Text.quoted text))
  else return tree.put names content

end FileTree

end ProofDump
