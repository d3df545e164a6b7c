import Mathlib
import ProofDump.Project.Search
import ProofDump.Proofs.FileTree.Seek
import ProofDump.Proofs.FileTree.Spelling
import ProofDump.Proofs.Project.Sources

/-!
# What a search finds

A search for a dotted name finds the module of that name and one module for every source below its directory, and
each of them leads back to the source it was found at. This holds where files and modules name each other, that is
where names have no dots and slashes of their own (`Searchable`), and it ends where a path becomes too long: a
directory that cannot be opened ends the whole search, and a source whose path is too long is found but not
located again.
-/

namespace ProofDump

theorem Value.textsFrom_map_str (start : Nat) (texts : List String) :
    textsFrom start (texts.map str) = .ok texts := by
  induction texts generalizing start with
  | nil => rfl
  | cons text texts ih =>
      rw [List.map_cons, textsFrom, ih]
      rfl

theorem Value.joinRaw_texts (separator : String) (texts : List String) :
    (Value.texts texts).joinRaw separator = .ok (separator.intercalate texts) := by
  show separator.intercalate <$> textsFrom 0 (texts.map str) = _
  rw [textsFrom_map_str]
  rfl

/-- A directory is not too far away itself if a text leads to it. -/
theorem FileTree.LongBelow.ne_nil {tree : FileTree} {text : String} {start below : List String}
    (hlong : tree.LongBelow start (.ofText text) below) (hstart : tree.locate text = .ok start) : below ≠ [] := by
  rintro rfl
  have hshort := (locate_text_eq_ok_iff.1 (locate_ofText hstart)).2.2.1
  exact Nat.not_le.2 hshort (longBelow_nil.1 hlong)

namespace Project

open FileTree

/-! ### Where modules lie -/

/-- The directory in which the sources of a module lie. -/
def rootText (root : String) (module : List String) : String :=
  (sourceRoot root (.texts module)).toOption.getD root

/-- The text of the path of a module, without suffix. -/
def moduleText (root : String) (module : List String) : String := textBelow (rootText root module) module

theorem sourceRoot_texts (root : String) {module : List String} (hnil : module ≠ []) :
    sourceRoot root (.texts module) = .ok (rootText root module) := by
  obtain ⟨first, rest, rfl⟩ := List.exists_cons_of_ne_nil hnil
  rw [rootText]
  show (ite _ _ _ : Except Fault String) = .ok (((ite _ _ _ : Except Fault String).toOption).getD root)
  split
  · rfl
  · split <;> rfl

theorem rootText_append (root : String) {module : List String} (hnil : module ≠ []) (below : List String) :
    rootText root (module ++ below) = rootText root module := by
  obtain ⟨first, rest, rfl⟩ := List.exists_cons_of_ne_nil hnil
  rfl

theorem sourcePath_texts (root : String) {module : List String} (hnil : module ≠ [])
    (hdots : ∀ part ∈ module, '.' ∉ part.toList) :
    sourcePath root (.texts module) = .ok (moduleText root module) := by
  have hjoined := notMem_intercalate (show '.' ≠ '/' by decide) hdots
  have hsame : Text.replace ['.'] ['/'] ("/".intercalate module).toList = ("/".intercalate module).toList := by
    apply Text.replace_of_not_infix
    rwa [List.singleton_infix_iff]
  rw [sourcePath, sourceRoot_texts root hnil, ok_bind, Value.joinRaw_texts, ok_bind, hsame, String.ofList_toList]
  rfl

theorem sourceOf?_texts (tree : FileTree) (root : String) {module : List String} (hnil : module ≠ [])
    (hdots : ∀ part ∈ module, '.' ∉ part.toList) (fileOnly : Bool) :
    sourceOf? (some tree) root (.texts module) fileOnly =
      .ok (if !fileOnly && tree.holds (moduleText root module) then some (moduleText root module)
        else if tree.holds (moduleText root module ++ ".lean") then some (moduleText root module ++ ".lean")
        else none) := by
  rw [sourceOf?, sourcePath_texts root hnil hdots, ok_bind]
  show (ite _ _ _ : Except Fault _) = _
  split <;> rfl

theorem sourceOf?_splitAt (tree : FileTree) (root text : String) (fileOnly : Bool) :
    sourceOf? (some tree) root (.texts (Text.splitAt '.' text)) fileOnly =
      .ok (if !fileOnly && tree.holds (moduleText root (Text.splitAt '.' text)) then
          some (moduleText root (Text.splitAt '.' text))
        else if tree.holds (moduleText root (Text.splitAt '.' text) ++ ".lean") then
          some (moduleText root (Text.splitAt '.' text) ++ ".lean")
        else none) :=
  sourceOf?_texts tree root (Text.splitAt_ne_nil '.' text) (fun _ hpart => Text.notMem_of_mem_splitAt hpart) fileOnly

/-! ### Names of files and modules -/

theorem splitSuffix_source {stem : String} (hstem : stem ≠ "") :
    Path.splitSuffix (stem ++ ".lean").toList = (stem.toList, ".lean".toList) := by
  have hlast : ((stem ++ ".lean").toList.reverse.takeWhile (· ≠ '.')).reverse = "lean".toList := by
    rw [String.toList_append, List.reverse_append]
    rfl
  have htake : (stem ++ ".lean").toList.take ((stem ++ ".lean").toList.length - ("lean".toList.length + 1)) =
      stem.toList := by
    rw [String.toList_append, List.length_append]
    show List.take (stem.toList.length + 5 - 5) _ = _
    rw [Nat.add_sub_cancel, List.take_left]
  rw [Path.splitSuffix, hlast, htake, if_neg]
  · rfl
  · simp [hstem]

theorem namesFrom_join (start : Path) (names : List String) :
    namesFrom start ⟨start.slashes, start.parts ++ names⟩ = .ok names := by
  rw [namesFrom, if_pos (by simp), List.drop_left]

/-- The module of a source file below a directory is named by the way to it. -/
theorem moduleBelow_source {front : Path} {module directories : List String} {stem : String} (hstem : stem ≠ "")
    (hslash : ∀ part ∈ module ++ directories ++ [stem], '/' ∉ part.toList) :
    moduleBelow (front.join (.relative module)) front (sourceNames directories stem) =
      .ok (module ++ directories ++ [stem]) := by
  have hname : (Path.relative (module ++ sourceNames directories stem)).name = stem ++ ".lean" := by
    simp [Path.name, Path.relative, sourceNames]
  have hparts : (module ++ sourceNames directories stem).dropLast = module ++ directories := by
    rw [sourceNames, ← List.append_assoc, List.dropLast_concat]
  have hsuffix : (Path.relative (module ++ sourceNames directories stem)).withSuffix "" =
      .ok (.relative (module ++ directories ++ [stem])) := by
    rw [Path.withSuffix, Path.stem, hname, splitSuffix_source hstem, String.ofList_toList, if_neg]
    · show Except.ok (Path.mk 0 ((module ++ sourceNames directories stem).dropLast ++ [stem ++ ""])) = _
      rw [hparts, String.append_empty]
      rfl
    · simp
  rw [moduleBelow, Path.join_relative_eq, List.append_assoc, namesFrom_join, ok_bind, hsuffix, ok_bind,
    Path.text_relative (by simp), Text.splitAt_intercalate rfl (by simp) hslash]
  rfl

/-- The file of a module below another one lies below the path of that one. -/
theorem moduleText_below (root : String) {name : List String} (hnil : name ≠ []) (directories : List String)
    (stem : String) :
    moduleText root (name ++ directories ++ [stem]) ++ ".lean" =
      textBelow (moduleText root name) (sourceNames directories stem) := by
  rw [moduleText, textBelow_concat, List.append_assoc, List.append_assoc, rootText_append root hnil,
    textBelow_append _ hnil (by simp), moduleText, sourceNames]

theorem namingDirectory_moduleText (root : String) {text : String} (hempty : text ≠ "") :
    namingDirectory (moduleText root (Text.splitAt '.' text)) text =
      .ofText (rootText root (Text.splitAt '.' text) ++ "/") := by
  have hlength : ("/".intercalate (Text.splitAt '.' text)).toList.length = text.length := by
    rw [String.toList_intercalate, Text.map_toList_splitAt, ← String.length_toList]
    show (['/'].intercalate _).length = _
    rw [Text.length_intercalate_mark '/' '.', List.intercalate_splitOn]
  rw [namingDirectory, if_neg hempty]
  congr 1
  rw [← String.toList_inj, String.toList_ofList, moduleText, textBelow, String.toList_append, ← String.length_toList,
    String.toList_append, List.length_append, hlength, Nat.add_sub_cancel, List.take_left]

/-! ### Settings -/

/-- A tree and a search for which modules and files name each other: the names below the searched directory
have no dots but those of suffixes, nor have the parts of the search slashes, and no directory stands in the
place of the file of the searched module. -/
structure Searchable (tree : FileTree) (root text : String) : Prop where
  named : tree.Named
  distinct : (tree.files.map Prod.fst).Nodup
  parts : ∀ part ∈ Text.splitAt '.' text, part ≠ "" ∧ '/' ∉ part.toList
  directories : ∀ start, tree.locate (moduleText root (Text.splitAt '.' text)) = .ok start →
    ∀ below, start ++ below ∈ tree.allDirectories → ∀ name ∈ below, '.' ∉ name.toList
  stems : ∀ start, tree.locate (moduleText root (Text.splitAt '.' text)) = .ok start →
    ∀ below stem, tree.isFileAt (start ++ sourceNames below stem) = true → stem ≠ "" ∧ '.' ∉ stem.toList
  file : tree.isDirectory (moduleText root (Text.splitAt '.' text) ++ ".lean") = false

/-- The modules that there are for a name to find, each with the names that lead to its file: the module of the
name itself, and those below its directory. -/
inductive IsFound (tree : FileTree) (root : String) (name : List String) : List String → List String → Prop
  | own {names : List String} (hlocate : tree.locate (moduleText root name ++ ".lean") = .ok names)
      (hfile : tree.isFileAt names = true) : IsFound tree root name name names
  | below {start directories : List String} {stem : String} (hstart : tree.locate (moduleText root name) = .ok start)
      (hfile : tree.isFileAt (start ++ sourceNames directories stem) = true) :
      IsFound tree root name (name ++ directories ++ [stem]) (start ++ sourceNames directories stem)

/-- A directory below the searched one cannot be opened. -/
def HasLongDirectory (tree : FileTree) (root : String) (name : List String) : Prop :=
  ∃ start below, tree.locate (moduleText root name) = .ok start ∧
    tree.LongBelow start (.ofText (moduleText root name)) below

namespace Searchable

variable {tree : FileTree} {root text : String}

theorem isPart (hsearch : Searchable tree root text) : ∀ part ∈ Text.splitAt '.' text, Path.IsPart part := by
  intro part hpart
  refine ⟨(hsearch.parts part hpart).1, ?_, (hsearch.parts part hpart).2⟩
  rintro rfl
  exact Text.notMem_of_mem_splitAt hpart (by decide)

theorem text_ne_empty (hsearch : Searchable tree root text) : text ≠ "" := by
  rintro rfl
  exact (hsearch.parts "" (by decide)).1 rfl

theorem isSourceName_eq_false (hsearch : Searchable tree root text) {start : List String}
    (hstart : tree.locate (moduleText root (Text.splitAt '.' text)) = .ok start) (below : List String) (name : String)
    (hdirectory : start ++ below ++ [name] ∈ tree.allDirectories) : isSourceName name = false := by
  by_contra hname
  obtain ⟨stem, rfl⟩ := isSourceName_iff.1 (Bool.eq_true_of_not_eq_false hname)
  rw [List.append_assoc] at hdirectory
  apply hsearch.directories start hstart _ hdirectory (stem ++ ".lean") (by simp)
  simp

/-- The parts of a module below are such that they can be told from its dotted name and from its path. -/
theorem parts_below (hsearch : Searchable tree root text) {start directories : List String} {stem : String}
    (hstart : tree.locate (moduleText root (Text.splitAt '.' text)) = .ok start)
    (hfile : tree.isFileAt (start ++ sourceNames directories stem) = true) :
    ∀ part ∈ Text.splitAt '.' text ++ directories ++ [stem], '/' ∉ part.toList ∧ '.' ∉ part.toList := by
  have hnames := (List.forall_mem_append.1 (hsearch.named.isFileAt hfile)).2
  obtain ⟨hdirectories, hlast⟩ := List.forall_mem_append.1 hnames
  intro part hpart
  rw [List.mem_append, List.mem_append, List.mem_singleton] at hpart
  rcases hpart with (hpart | hpart) | rfl
  · exact ⟨(hsearch.parts part hpart).2, Text.notMem_of_mem_splitAt hpart⟩
  · refine ⟨(hdirectories part hpart).slash, ?_⟩
    have hdirectory : start ++ directories ∈ tree.allDirectories := by
      apply mem_allDirectories_of_file hfile
      · rw [sourceNames, ← List.append_assoc, List.dropLast_concat]
      · exact List.append_ne_nil_of_right_ne_nil _ (List.ne_nil_of_mem hpart)
    exact hsearch.directories start hstart directories hdirectory part hpart
  · refine ⟨?_, (hsearch.stems start hstart directories part hfile).2⟩
    have hslash := (hlast _ (List.mem_singleton_self _)).slash
    rw [String.toList_append, List.mem_append, not_or] at hslash
    exact hslash.1

end Searchable

/-! ### Modules below a directory -/

/-- The module of what a search for sources comes to, unless it is to be left out. -/
def moduleFound (excluded : Option Value) (directory start : Path) (found : Except Fault (List String)) :
    Except Fault (Option (List String)) := do
  let module ← moduleBelow directory start (← found)
  return if ← isLeftOut excluded module then none else some module

/-- Nothing is to be left out. -/
def LeavesNothingOut (excluded : Option Value) : Prop := excluded = none ∨ excluded = some (.arr [])

/-- The module of a file, named from where the names of the searched module start. -/
def moduleOf (name names : List String) : List String := name ++ names.dropLast ++ [(Path.relative names).stem]

theorem moduleOf_sourceNames (name directories : List String) {stem : String} (hstem : stem ≠ "") :
    moduleOf name (sourceNames directories stem) = name ++ directories ++ [stem] := by
  have hname : (Path.relative (sourceNames directories stem)).name = stem ++ ".lean" := by
    simp [Path.name, Path.relative, sourceNames]
  rw [moduleOf, Path.stem, hname, splitSuffix_source hstem, String.ofList_toList, sourceNames, List.dropLast_concat]

theorem sourcesBelow_ofText {tree : FileTree} {text : String} {names : List String}
    (hlocate : tree.locate text = .ok names) :
    tree.sourcesBelow (.ofText text) =
      if tree.isDirectoryAt names then tree.seekSources names (.ofText text) [] else [] := by
  rw [sourcesBelow, locate_ofText hlocate]

theorem modulesBelow_of_not_directory {tree : FileTree} {text : String} {names : List String}
    (hlocate : tree.locate text = .ok names) (hdirectory : tree.isDirectoryAt names = false)
    (excluded : Option Value) (start : Path) : modulesBelow tree excluded (.ofText text) start = .ok [] := by
  rw [modulesBelow, sourcesBelow_ofText hlocate, hdirectory]
  rfl

section

variable {tree : FileTree} {root text : String} (hsearch : Searchable tree root text) {excluded : Option Value}
  (hexcluded : LeavesNothingOut excluded) {start : List String}
  (hstart : tree.locate (moduleText root (Text.splitAt '.' text)) = .ok start)

include hsearch hexcluded hstart

theorem moduleFound_source {directories : List String} {stem : String}
    (hfile : tree.isFileAt (start ++ sourceNames directories stem) = true) :
    moduleFound excluded (.ofText (moduleText root (Text.splitAt '.' text)))
        (.ofText (rootText root (Text.splitAt '.' text) ++ "/")) (.ok (sourceNames directories stem)) =
      .ok (some (moduleOf (Text.splitAt '.' text) (sourceNames directories stem))) := by
  have hstem := (hsearch.stems start hstart directories stem hfile).1
  have hkept (module : List String) : isLeftOut excluded module = .ok false := by
    rcases hexcluded with rfl | rfl
    · rfl
    · rfl
  rw [moduleFound, ok_bind, moduleText, ofText_textBelow _ (Text.splitAt_ne_nil '.' text) hsearch.isPart,
    moduleBelow_source hstem fun part hpart => (hsearch.parts_below hstart hfile part hpart).1, ok_bind, hkept,
    moduleOf_sourceNames _ _ hstem]
  rfl

theorem exists_modulesBelow_eq (hdirectory : tree.isDirectoryAt start = true)
    (hshort : ∀ below, ¬ tree.LongBelow start (.ofText (moduleText root (Text.splitAt '.' text))) below) :
    ∃ modules, modulesBelow tree excluded (.ofText (moduleText root (Text.splitAt '.' text)))
        (.ofText (rootText root (Text.splitAt '.' text) ++ "/")) = .ok modules ∧ modules.Nodup ∧
      ∀ module, module ∈ modules ↔ ∃ directories stem, module = Text.splitAt '.' text ++ directories ++ [stem] ∧
        tree.isFileAt (start ++ sourceNames directories stem) = true := by
  obtain ⟨sources, hsources, hnodup, hmem⟩ :=
    exists_seekSources_eq hsearch.distinct (hsearch.isSourceName_eq_false hstart) hshort
  have hsource : ∀ names ∈ sources, ∃ directories stem, names = sourceNames directories stem ∧ stem ≠ "" ∧
      tree.isFileAt (start ++ sourceNames directories stem) = true := by
    intro names hnames
    obtain ⟨directories, name, rfl, hname, hfile⟩ := (hmem names).1 hnames
    obtain ⟨stem, rfl⟩ := isSourceName_iff.1 hname
    exact ⟨directories, stem, rfl, (hsearch.stems start hstart directories stem hfile).1, hfile⟩
  refine ⟨sources.map (moduleOf (Text.splitAt '.' text)), ?_, ?_, ?_⟩
  · have hwalk : (sources.map .ok).filterMapM (moduleFound excluded
        (.ofText (moduleText root (Text.splitAt '.' text))) (.ofText (rootText root (Text.splitAt '.' text) ++ "/"))) =
        .ok ((sources.filter fun _ => true).map (moduleOf (Text.splitAt '.' text))) := by
      apply filterMapM_map_eq_ok
      intro names hnames
      obtain ⟨directories, stem, rfl, -, hfile⟩ := hsource names hnames
      exact moduleFound_source hsearch hexcluded hstart hfile
    rw [List.filter_true] at hwalk
    rw [modulesBelow, sourcesBelow_ofText hstart, if_pos hdirectory, hsources]
    exact hwalk
  · -- the way to a file can be told from its module, which has all of it but the suffix
    apply hnodup.map_on
    intro names hnames others hothers heq
    obtain ⟨directories, stem, rfl, hstem, -⟩ := hsource names hnames
    obtain ⟨otherDirectories, other, rfl, hother, -⟩ := hsource others hothers
    rw [moduleOf_sourceNames _ _ hstem, moduleOf_sourceNames _ _ hother, List.append_assoc, List.append_assoc] at heq
    obtain ⟨rfl, hlast⟩ := List.append_inj' (List.append_cancel_left heq) rfl
    rw [List.singleton_inj.1 hlast]
  · intro module
    rw [List.mem_map]
    constructor
    · rintro ⟨names, hnames, rfl⟩
      obtain ⟨directories, stem, rfl, hstem, hfile⟩ := hsource names hnames
      exact ⟨directories, stem, moduleOf_sourceNames _ _ hstem, hfile⟩
    · rintro ⟨directories, stem, rfl, hfile⟩
      have hstem := (hsearch.stems start hstart directories stem hfile).1
      refine ⟨sourceNames directories stem, (hmem _).2 ?_, moduleOf_sourceNames _ _ hstem⟩
      exact ⟨directories, stem ++ ".lean", rfl, isSourceName_iff.2 ⟨stem, rfl⟩, hfile⟩

theorem exists_modulesBelow_eq_error {below : List String} (hdirectory : tree.isDirectoryAt start = true)
    (hlong : tree.LongBelow start (.ofText (moduleText root (Text.splitAt '.' text))) below) :
    ∃ path, modulesBelow tree excluded (.ofText (moduleText root (Text.splitAt '.' text)))
      (.ofText (rootText root (Text.splitAt '.' text) ++ "/")) = .error (.longPath path) := by
  rw [← List.append_nil start] at hlong
  obtain ⟨first, hfirst⟩ := exists_fault_of_longBelow hlong
  obtain ⟨step, hstep, fault, hfault, hwalk⟩ := filterMapM_eq_error
    (f := moduleFound excluded (.ofText (moduleText root (Text.splitAt '.' text)))
      (.ofText (rootText root (Text.splitAt '.' text) ++ "/"))) ⟨.error first, hfirst, first, rfl⟩
  rw [modulesBelow, sourcesBelow_ofText hstart, if_pos hdirectory]
  cases step with
  | error cause =>
      cases hfault
      obtain ⟨_, -, rfl⟩ := longBelow_of_fault hstep
      exact ⟨_, hwalk⟩
  | ok names =>
      obtain ⟨directories, name, hnames, hname, hplace⟩ := file_of_mem_seekSources hstep
      obtain ⟨stem, rfl⟩ := isSourceName_iff.1 hname
      rw [List.nil_append] at hnames
      subst hnames
      rcases hplace with hfile | hplace
      · rw [← sourceNames, moduleFound_source hsearch hexcluded hstart hfile] at hfault
        cases hfault
      · rw [← List.append_assoc] at hplace
        rw [hsearch.isSourceName_eq_false hstart _ _ hplace] at hname
        cases hname

end

/-! ### Searches -/

/-- The module of a name, if its file is there. -/
def ownModule (tree : FileTree) (root : String) (name : List String) : List (List String) :=
  if tree.isFile (moduleText root name ++ ".lean") then [name] else []

theorem mem_ownModule {tree : FileTree} {root : String} {name module : List String} :
    module ∈ ownModule tree root name ↔ module = name ∧ tree.isFile (moduleText root name ++ ".lean") = true := by
  rw [ownModule]
  split <;> simp [*]

theorem nodup_ownModule (tree : FileTree) (root : String) (name : List String) :
    (ownModule tree root name).Nodup := by
  rw [ownModule]
  split
  · exact List.nodup_singleton _
  · exact List.nodup_nil

namespace Searchable

variable {tree : FileTree} {root text : String} (hsearch : Searchable tree root text)

include hsearch

theorem holds_file : tree.holds (moduleText root (Text.splitAt '.' text) ++ ".lean") =
    tree.isFile (moduleText root (Text.splitAt '.' text) ++ ".lean") := by
  rw [FileTree.holds, hsearch.file, Bool.or_false]

theorem sourceOf?_search (fileOnly : Bool) :
    sourceOf? (some tree) root (.texts (Text.splitAt '.' text)) fileOnly =
      .ok (if !fileOnly && tree.holds (moduleText root (Text.splitAt '.' text)) then
          some (moduleText root (Text.splitAt '.' text))
        else if tree.isFile (moduleText root (Text.splitAt '.' text) ++ ".lean") then
          some (moduleText root (Text.splitAt '.' text) ++ ".lean")
        else none) := by
  rw [sourceOf?_splitAt, hsearch.holds_file]

/-- Where the search leads to a directory, the modules below it follow the one of the search itself. -/
theorem search_of_directory {start : List String}
    (hstart : tree.locate (moduleText root (Text.splitAt '.' text)) = .ok start)
    (hdirectory : tree.isDirectoryAt start = true) (excluded : Option Value) :
    search (some tree) root excluded (.str text) =
      modulesBelow tree excluded (.ofText (moduleText root (Text.splitAt '.' text)))
          (.ofText (rootText root (Text.splitAt '.' text) ++ "/")) >>= fun below =>
        .ok (ownModule tree root (Text.splitAt '.' text) ++ below) := by
  have hholds : tree.holds (moduleText root (Text.splitAt '.' text)) = true := by
    rw [FileTree.holds, isDirectory, hstart]
    simp [Except.toOption, hdirectory]
  rw [search, hsearch.sourceOf?_search, ok_bind, hsearch.sourceOf?_search, ok_bind, hholds, ownModule,
    ← namingDirectory_moduleText root hsearch.text_ne_empty]
  cases tree.isFile (moduleText root (Text.splitAt '.' text) ++ ".lean") with
  | true => rfl
  | false => rfl

theorem search_of_no_directory
    (hnone : ∀ start, tree.locate (moduleText root (Text.splitAt '.' text)) = .ok start →
      tree.isDirectoryAt start = false) (excluded : Option Value) :
    search (some tree) root excluded (.str text) =
      .ok (ownModule tree root (Text.splitAt '.' text)) := by
  have hempty (path : String) (start : Path) (hholds : tree.holds path = true)
      (hpath : tree.isDirectory path = false) : modulesBelow tree excluded (.ofText path) start = .ok [] := by
    cases hlocate : tree.locate path with
    | error fault =>
        rw [FileTree.holds, isFile, hpath, hlocate] at hholds
        cases hholds
    | ok names =>
        rw [isDirectory, hlocate] at hpath
        exact modulesBelow_of_not_directory hlocate hpath excluded start
  have hdirectory : tree.isDirectory (moduleText root (Text.splitAt '.' text)) = false := by
    rw [isDirectory]
    cases hlocate : tree.locate (moduleText root (Text.splitAt '.' text)) with
    | error fault => rfl
    | ok start => exact hnone start hlocate
  rw [search, hsearch.sourceOf?_search, ok_bind, hsearch.sourceOf?_search, ok_bind, ownModule]
  cases hholds : tree.holds (moduleText root (Text.splitAt '.' text)) with
  | true =>
      have hbelow := hempty _ (namingDirectory (moduleText root (Text.splitAt '.' text)) text) hholds hdirectory
      cases tree.isFile (moduleText root (Text.splitAt '.' text) ++ ".lean") with
      | true => simp [hbelow]
      | false => simp [hbelow]
  | false =>
      cases hfile : tree.isFile (moduleText root (Text.splitAt '.' text) ++ ".lean") with
      | true =>
          have hbelow := hempty _ (namingDirectory (moduleText root (Text.splitAt '.' text) ++ ".lean") text)
            (hsearch.holds_file.trans hfile) hsearch.file
          simp [hbelow]
      | false => rfl

theorem locate_of_isFound {module names : List String}
    (hfound : IsFound tree root (Text.splitAt '.' text) module names)
    (hshort : (moduleText root module ++ ".lean").utf8ByteSize < pathBound) :
    tree.locate (moduleText root module ++ ".lean") = .ok names ∧ tree.isFileAt names = true := by
  cases hfound with
  | own hlocate hfile => exact ⟨hlocate, hfile⟩
  | @below start directories stem hstart hfile =>
      have hnames := (List.forall_mem_append.1 (hsearch.named.isFileAt hfile)).2
      have hlast : (moduleText root (Text.splitAt '.' text)).toList.getLast? ≠ some '/' :=
        getLast?_textBelow _ (Text.splitAt_ne_nil '.' text) hsearch.isPart
      rw [moduleText_below root (Text.splitAt_ne_nil '.' text)] at hshort ⊢
      exact ⟨locate_textBelow hstart hlast (by simp [sourceNames]) hnames hfile hshort, hfile⟩

theorem dots_of_isFound {module names : List String}
    (hfound : IsFound tree root (Text.splitAt '.' text) module names) : ∀ part ∈ module, '.' ∉ part.toList := by
  cases hfound with
  | own hlocate hfile => exact fun part hpart => Text.notMem_of_mem_splitAt hpart
  | below hstart hfile => exact fun part hpart => (hsearch.parts_below hstart hfile part hpart).2

end Searchable

theorem IsFound.begins {tree : FileTree} {root : String} {name module names : List String}
    (hfound : IsFound tree root name module names) : name <+: module := by
  cases hfound with
  | own hlocate hfile => exact List.prefix_rfl
  | below hstart hfile => exact ⟨_, (List.append_assoc _ _ _).symm⟩

/-- The file of a module that can be found is located by the module, unless its path is too long. -/
theorem sourceOf?_of_isFound {tree : FileTree} {root text : String} (hsearch : Searchable tree root text)
    {module names : List String} (hfound : IsFound tree root (Text.splitAt '.' text) module names) :
    sourceOf? (some tree) root (.texts module) true =
      .ok (if (moduleText root module ++ ".lean").utf8ByteSize < pathBound then some (moduleText root module ++ ".lean")
        else none) := by
  have hnil : module ≠ [] := hfound.begins.ne_nil (Text.splitAt_ne_nil '.' text)
  rw [sourceOf?_texts tree root hnil (hsearch.dots_of_isFound hfound), Bool.not_true, Bool.false_and,
    if_neg Bool.false_ne_true]
  by_cases hshort : (moduleText root module ++ ".lean").utf8ByteSize < pathBound
  · obtain ⟨hlocate, hfile⟩ := hsearch.locate_of_isFound hfound hshort
    have hholds : tree.holds (moduleText root module ++ ".lean") = true := by
      rw [FileTree.holds, isFile, hlocate]
      simp [Except.toOption, hfile]
    rw [hholds, if_pos rfl, if_pos hshort]
  · rw [holds_of_long (Nat.le_of_not_lt hshort), if_neg Bool.false_ne_true, if_neg hshort]

theorem exists_isFound_iff {tree : FileTree} {root : String} {name module : List String} :
    (∃ names, IsFound tree root name module names) ↔
      (module = name ∧ tree.isFile (moduleText root name ++ ".lean") = true) ∨
        ∃ start, tree.locate (moduleText root name) = .ok start ∧ ∃ directories stem,
          module = name ++ directories ++ [stem] ∧ tree.isFileAt (start ++ sourceNames directories stem) = true := by
  constructor
  · rintro ⟨names, hfound⟩
    cases hfound with
    | own hlocate hfile => exact .inl ⟨rfl, by rw [isFile, hlocate]; exact hfile⟩
    | below hstart hfile => exact .inr ⟨_, hstart, _, _, rfl, hfile⟩
  · rintro (⟨rfl, hfile⟩ | ⟨start, hstart, directories, stem, rfl, hfile⟩)
    · rw [isFile] at hfile
      cases hlocate : tree.locate (moduleText root module ++ ".lean") with
      | error fault =>
          rw [hlocate] at hfile
          cases hfile
      | ok names =>
          rw [hlocate] at hfile
          exact ⟨names, .own hlocate hfile⟩
    · exact ⟨_, .below hstart hfile⟩

theorem search_of_long {tree : FileTree} {root text : String} (hsearch : Searchable tree root text)
    {excluded : Option Value} (hexcluded : LeavesNothingOut excluded)
    (hlong : HasLongDirectory tree root (Text.splitAt '.' text)) :
    ∃ path, search (some tree) root excluded (.str text) = .error (.longPath path) := by
  obtain ⟨start, below, hstart, hlong⟩ := hlong
  have hdirectory : tree.isDirectoryAt start = true := isDirectoryAt_of_mem (hlong.1 (hlong.ne_nil hstart))
  obtain ⟨path, herror⟩ := exists_modulesBelow_eq_error hsearch hexcluded hstart hdirectory hlong
  refine ⟨path, ?_⟩
  rw [hsearch.search_of_directory hstart hdirectory, herror]
  rfl

theorem search_of_short {tree : FileTree} {root text : String} (hsearch : Searchable tree root text)
    {excluded : Option Value} (hexcluded : LeavesNothingOut excluded)
    (hshort : ¬ HasLongDirectory tree root (Text.splitAt '.' text)) :
    ∃ found, search (some tree) root excluded (.str text) = .ok found ∧ found.Nodup ∧
      ∀ module, module ∈ found ↔ ∃ names, IsFound tree root (Text.splitAt '.' text) module names := by
  by_cases hdirectory : ∃ start, tree.locate (moduleText root (Text.splitAt '.' text)) = .ok start ∧
      tree.isDirectoryAt start = true
  · obtain ⟨start, hstart, hdirectory⟩ := hdirectory
    obtain ⟨modules, hmodules, hnodup, hmem⟩ := exists_modulesBelow_eq hsearch hexcluded hstart hdirectory
      fun below hlong => hshort ⟨start, below, hstart, hlong⟩
    refine ⟨ownModule tree root (Text.splitAt '.' text) ++ modules, ?_, ?_, ?_⟩
    · rw [hsearch.search_of_directory hstart hdirectory, hmodules, ok_bind]
    · rw [List.nodup_append]
      refine ⟨nodup_ownModule _ _ _, hnodup, ?_⟩
      intro own hown module hmodule heq
      obtain ⟨directories, stem, hparts, -⟩ := (hmem module).1 hmodule
      rw [← heq, (mem_ownModule.1 hown).1] at hparts
      simp at hparts
    · intro module
      rw [exists_isFound_iff, List.mem_append, mem_ownModule, hmem]
      apply or_congr_right
      constructor
      · intro hbelow
        exact ⟨start, hstart, hbelow⟩
      · rintro ⟨other, hother, hbelow⟩
        rw [hstart, Except.ok.injEq] at hother
        rwa [hother]
  · have hnone : ∀ start, tree.locate (moduleText root (Text.splitAt '.' text)) = .ok start →
        tree.isDirectoryAt start = false := by
      intro start hstart
      exact Bool.eq_false_of_not_eq_true fun htrue => hdirectory ⟨start, hstart, htrue⟩
    refine ⟨_, hsearch.search_of_no_directory hnone excluded, nodup_ownModule _ _ _, ?_⟩
    intro module
    rw [exists_isFound_iff, mem_ownModule]
    refine (or_iff_left ?_).symm
    rintro ⟨start, hstart, directories, stem, -, hfile⟩
    apply hdirectory
    refine ⟨start, hstart, isDirectoryAt_of_file hfile (List.prefix_append _ _) ?_⟩
    simp [sourceNames]

/-- A search finds exactly the modules that there are to find, each once, unless a directory below has a path that is
too long; that ends it. All that is found begins with the searched name and leads back to its file, as long as the
path of that file is not too long. -/
theorem search_finds_sources {tree : FileTree} {root text : String} (hsearch : Searchable tree root text)
    {excluded : Option Value} (hexcluded : LeavesNothingOut excluded) :
    (HasLongDirectory tree root (Text.splitAt '.' text) →
      ∃ path, search (some tree) root excluded (.str text) = .error (.longPath path)) ∧
    (¬ HasLongDirectory tree root (Text.splitAt '.' text) →
      ∃ found, search (some tree) root excluded (.str text) = .ok found ∧ found.Nodup ∧
        ∀ module, module ∈ found ↔ ∃ names, IsFound tree root (Text.splitAt '.' text) module names) ∧
    ∀ module names, IsFound tree root (Text.splitAt '.' text) module names →
      Text.splitAt '.' text <+: module ∧
      sourceOf? (some tree) root (.texts module) true =
        .ok (if (moduleText root module ++ ".lean").utf8ByteSize < pathBound then
          some (moduleText root module ++ ".lean") else none) ∧
      ((moduleText root module ++ ".lean").utf8ByteSize < pathBound →
        tree.locate (moduleText root module ++ ".lean") = .ok names) := by
  refine ⟨search_of_long hsearch hexcluded, search_of_short hsearch hexcluded, ?_⟩
  intro module names hfound
  refine ⟨hfound.begins, sourceOf?_of_isFound hsearch hfound, ?_⟩
  intro hshort
  exact (hsearch.locate_of_isFound hfound hshort).1

/-! ### Searches by their names -/

/-- To know that a search can be made, it is enough to look through the names in the tree. -/
theorem Searchable.of_names {tree : FileTree} {root text : String} {start : List String} (hnamed : tree.Named)
    (hdistinct : (tree.files.map Prod.fst).Nodup)
    (hparts : ∀ part ∈ Text.splitAt '.' text, part ≠ "" ∧ '/' ∉ part.toList)
    (hstart : tree.locate (moduleText root (Text.splitAt '.' text)) = .ok start)
    (hdirectories : ∀ names ∈ tree.allDirectories, ∀ name ∈ names.drop start.length, '.' ∉ name.toList)
    (hstems : ∀ file ∈ tree.files, ∀ name ∈ file.1.getLast?, isSourceName name = true →
      name ≠ ".lean" ∧ name.toList.count '.' ≤ 1)
    (hfile : tree.isDirectory (moduleText root (Text.splitAt '.' text) ++ ".lean") = false) :
    Searchable tree root text where
  named := hnamed
  distinct := hdistinct
  parts := hparts
  directories := by
    intro other hother below hbelow
    rw [hstart, Except.ok.injEq] at hother
    subst hother
    have hnames := hdirectories _ hbelow
    rwa [List.drop_left] at hnames
  stems := by
    intro other _ below stem hsource
    obtain ⟨file, hmem, hnames⟩ := List.any_eq_true.1 hsource
    have hlast : stem ++ ".lean" ∈ file.1.getLast? := by
      rw [of_decide_eq_true hnames, sourceNames, ← List.append_assoc, List.getLast?_concat]
      rfl
    obtain ⟨hne, hcount⟩ := hstems file hmem _ hlast (isSourceName_iff.2 ⟨stem, rfl⟩)
    refine ⟨?_, ?_⟩
    · rintro rfl
      exact hne rfl
    · intro hdot
      have hpos := List.count_pos_iff.2 hdot
      have hsuffix : ".lean".toList.count '.' = 1 := rfl
      rw [String.toList_append, List.count_append] at hcount
      omega
  file := hfile

theorem not_hasLongDirectory_of_names {tree : FileTree} {root : String} {name start : List String}
    (hstart : tree.locate (moduleText root name) = .ok start)
    (hshort : ∀ names ∈ tree.allDirectories,
      ((Path.ofText (moduleText root name)).join (.relative (names.drop start.length))).text.utf8ByteSize < pathBound) :
    ¬ HasLongDirectory tree root name := by
  rintro ⟨other, below, hother, hlong⟩
  rw [hstart, Except.ok.injEq] at hother
  subst hother
  have hnames := hshort _ (hlong.1 (hlong.ne_nil hstart))
  rw [List.drop_left] at hnames
  exact Nat.not_le.2 hnames hlong.2

/-- Sources around a directory and below it, and a file of another kind. -/
def nestedTree : FileTree where
  here := ["home"]
  files := [(["home", "proj", "A", "B.lean"], ""), (["home", "proj", "A", "B", "C.lean"], ""),
    (["home", "proj", "A", "B", "D.lean"], ""), (["home", "proj", "A", "B", "D", "E.lean"], ""),
    (["home", "proj", "A", "B", "notes.v2"], "")]
  directories := []

theorem locate_nestedTree :
    nestedTree.locate (moduleText "proj/." (Text.splitAt '.' "A.B")) = .ok ["home", "proj", "A", "B"] := by
  rfl

theorem nestedTree_found :
    Searchable nestedTree "proj/." "A.B" ∧ LeavesNothingOut (some (.arr [])) ∧
      ∃ found, search (some nestedTree) "proj/." (some (.arr [])) (.str "A.B") = .ok found ∧ found.Nodup ∧
        ["A", "B"] ∈ found ∧ ["A", "B", "D", "E"] ∈ found ∧
        sourceOf? (some nestedTree) "proj/." (.texts ["A", "B", "D", "E"]) true =
          .ok (some "proj/./A/B/D/E.lean") ∧
        nestedTree.locate "proj/./A/B/D/E.lean" = .ok ["home", "proj", "A", "B", "D", "E.lean"] := by
  have hsearch : Searchable nestedTree "proj/." "A.B" :=
    .of_names ⟨by decide, by decide⟩ (by decide) (by decide +kernel) locate_nestedTree (by decide +kernel)
      (by decide +kernel) (by decide +kernel)
  have hshort : ¬ HasLongDirectory nestedTree "proj/." (Text.splitAt '.' "A.B") :=
    not_hasLongDirectory_of_names locate_nestedTree (by decide +kernel)
  have hown : IsFound nestedTree "proj/." (Text.splitAt '.' "A.B") ["A", "B"] ["home", "proj", "A", "B.lean"] :=
    .own rfl (by decide)
  have hbelow : IsFound nestedTree "proj/." (Text.splitAt '.' "A.B") ["A", "B", "D", "E"]
      ["home", "proj", "A", "B", "D", "E.lean"] :=
    .below locate_nestedTree (show nestedTree.isFileAt (_ ++ sourceNames ["D"] "E") = true by decide)
  obtain ⟨-, hfinds, hagain⟩ := search_finds_sources hsearch (.inr rfl)
  obtain ⟨found, hfound, hnodup, hmem⟩ := hfinds hshort
  obtain ⟨-, hsource, hlocate⟩ := hagain _ _ hbelow
  exact ⟨hsearch, .inr rfl, found, hfound, hnodup, (hmem _).2 ⟨_, hown⟩, (hmem _).2 ⟨_, hbelow⟩, hsource,
    hlocate (by decide +kernel)⟩

/-! ### Searches that go astray -/

/-- A source to be searched with a slash in place of a dot. -/
def slashedTree : FileTree := ⟨["home"], [(["home", "proj", "A", "B", "C.lean"], "")], []⟩

/-- A directory with the name of a source file. -/
def suffixedTree : FileTree := ⟨["home"], [(["home", "proj", "A.lean", "B.lean"], "")], []⟩

/-- A source in a directory that a winding path cannot open. -/
def distantTree : FileTree := ⟨[], [(["proj", "A", "BBBBBBBBBBBBBBBBBB", "C.lean"], "")], []⟩

theorem textBelow_windingPath {names : List String} (hnil : names ≠ []) :
    textBelow windingPath.text names = (windingPath.join (.relative names)).text := by
  have hparts : windingPath.parts ≠ [] := windingNames_ne_nil 509
  exact (text_join hparts hnil).symm

theorem locate_below_windingPath {name : String} (hname : IsName name) (hshort : name.utf8ByteSize ≤ 18) :
    distantTree.locate (textBelow windingPath.text [name]) = .ok ["proj", name] := by
  have hsize := size_windingPath_join (List.cons_ne_nil name [])
  rw [textBelow_windingPath (List.cons_ne_nil _ _), locate_join windingPath_isProper (locate_windingPath rfl (by decide))
    (List.cons_ne_nil _ _) (by simpa using hname), hsize, String.intercalate_singleton, if_neg]
  · rw [follow_name hname (by decide)]
    rfl
  · rw [pathBound]
    omega

theorem moduleText_distant (root : String) : moduleText root (Text.splitAt '.' "A") = textBelow root ["A"] := rfl

theorem locate_distantTree :
    distantTree.locate (moduleText windingPath.text (Text.splitAt '.' "A")) = .ok ["proj", "A"] := by
  rw [moduleText_distant]
  exact locate_below_windingPath (by decide) (by decide)

theorem distantTree_searchable : Searchable distantTree windingPath.text "A" := by
  have htext : moduleText windingPath.text (Text.splitAt '.' "A") ++ ".lean" = textBelow windingPath.text ["A.lean"] := by
    rw [moduleText_distant, ← List.nil_append ["A"], textBelow_concat]
    rfl
  refine .of_names ⟨by decide, by decide⟩ (by decide) (by decide) locate_distantTree (by decide +kernel)
    (by decide +kernel) ?_
  rw [htext, isDirectory, locate_below_windingPath (by decide) (by decide)]
  rfl

theorem distantTree_hasLongDirectory :
    HasLongDirectory distantTree windingPath.text (Text.splitAt '.' "A") := by
  have hparts : ∀ part ∈ windingNames 509 ++ ["A"], Path.IsPart part :=
    List.forall_mem_append.2 ⟨windingPath_isProper.parts, by decide⟩
  have hpath : Path.ofText (moduleText windingPath.text (Text.splitAt '.' "A")) =
      windingPath.join (.relative ["A"]) := by
    rw [moduleText_distant, textBelow_windingPath (List.cons_ne_nil _ _)]
    show Path.ofText (Path.relative (windingNames 509 ++ ["A"])).text = _
    rw [Path.text_relative (by simp), ofText_intercalate (by simp) hparts]
    rfl
  refine ⟨["proj", "A"], ["BBBBBBBBBBBBBBBBBB"], locate_distantTree, fun _ => by decide +kernel, ?_⟩
  rw [hpath, ← Path.join_relative_append, size_windingPath_join (by simp)]
  decide

/-- A search whose parts have slashes finds modules that do not begin with them. A directory in the place of the file
of the searched module, or a path that is too long, ends a search for which there are modules to find or none. -/
theorem search_astray :
    (search (some slashedTree) "proj" (some (.arr [])) (.str "A/B") = .ok [["A", "B", "C"]] ∧
      ¬ Text.splitAt '.' "A/B" <+: ["A", "B", "C"]) ∧
    (suffixedTree.holds "proj/A" = false ∧ suffixedTree.isFile "proj/A.lean" = false ∧
      search (some suffixedTree) "proj" (some (.arr [])) (.str "A") =
        .error (.badValue ("'proj/A.lean/B.lean' is not in the subpath of 'proj/A.lea'" ++
          " OR one path is relative and the other is absolute."))) ∧
    IsFound distantTree windingPath.text (Text.splitAt '.' "A") ["A", "BBBBBBBBBBBBBBBBBB", "C"]
      ["proj", "A", "BBBBBBBBBBBBBBBBBB", "C.lean"] ∧
    ∃ path, search (some distantTree) windingPath.text (some (.arr [])) (.str "A") = .error (.longPath path) := by
  refine ⟨⟨by decide +kernel, by decide +kernel⟩, ⟨by decide +kernel, by decide +kernel, by decide +kernel⟩, ?_, ?_⟩
  · exact .below locate_distantTree
      (show distantTree.isFileAt (_ ++ sourceNames ["BBBBBBBBBBBBBBBBBB"] "C") = true by decide)
  · exact search_of_long distantTree_searchable (.inr rfl) distantTree_hasLongDirectory

end Project

end ProofDump
