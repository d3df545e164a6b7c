import ProofDump.Project.Source
import ProofDump.Value.Order

/-!
# Searching modules

A search is a dotted name. It finds the module of that name, if it has a source file, and the modules of
all source files below the directory of that name. Modules below can be excluded by their dotted names;
the searched one cannot.
-/

namespace ProofDump.Project

/-- Whether a dotted name is among those to exclude: a member of a list, a part of a text, or a name in
a table. -/
def isExcluded (name : String) (excluded : Value) : Except Fault Bool :=
  match excluded with
  | .arr names => .ok (names.any (·.same (.str name)))
  | .str text => .ok (Text.contains name.toList text.toList)
  | .obj fields => .ok (fields.any fun entry => entry.1 = name)
  | other => .error (.notContainer other.kind)

/-- The names of a path from a directory, if it leads below it. -/
def namesFrom (directory path : Path) : Except Fault (List String) :=
  if path.slashes = directory.slashes && directory.parts.isPrefixOf path.parts then
    .ok (path.parts.drop directory.parts.length)
  else .error (.badValue (Text.quoted path.text ++ " is not in the subpath of " ++
    Text.quoted directory.text ++ " OR one path is relative and the other is absolute."))

/-- The module of a source file that names lead to from a directory, named from `start`. -/
def moduleBelow (directory start : Path) (names : List String) : Except Fault (List String) := do
  let names ← namesFrom start ⟨directory.slashes, directory.parts ++ names⟩
  let path ← (Path.relative names).withSuffix ""
  return Text.splitAt '/' path.text

/-- Whether a module is to be excluded. -/
def isLeftOut (excluded : Option Value) (module : List String) : Except Fault Bool :=
  match excluded with
  | none => .ok false
  | some excluded => isExcluded (".".intercalate module) excluded

/-- The modules of the source files below a directory, named from `start`, but for those that are to be
excluded. -/
def modulesBelow (tree : FileTree) (excluded : Option Value) (directory start : Path) :
    Except Fault (List (List String)) :=
  (tree.sourcesBelow directory).filterMapM fun found => do
    let module ← moduleBelow directory start (← found)
    return if ← isLeftOut excluded module then none else some module

/-- The directory from which found modules are named: what is left of the text of the searched
directory without as many characters as the search has. -/
def namingDirectory (directory search : String) : Path :=
  if search = "" then .ofText ""
  else .ofText (String.ofList (directory.toList.take (directory.length - search.length)))

/-- The modules that a search finds. -/
def search (files : Option FileTree) (root : String) (excluded : Option Value) (search : Value) :
    Except Fault (List (List String)) := do
  match search with
  | .str text =>
    let name := Text.splitAt '.' text
    let own := if (← sourceOf? files root (Value.texts name) true).isSome then [name] else []
    match ← sourceOf? files root (Value.texts name) false, files with
    | some directory, some tree =>
      let below ← modulesBelow tree excluded (.ofText directory) (namingDirectory directory text)
      return own ++ below
    | _, _ => return own
  | other => throw (.noAttribute other.kind "split")

end ProofDump.Project
