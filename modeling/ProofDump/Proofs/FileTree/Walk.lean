import Mathlib.Data.List.Infix
import ProofDump.FileTree

/-!
# Walks through directories

A walk ends because no directory lies deeper than the deepest one, and `directoryInduction` is the induction
that goes with it: from all directories that lie in a directory to that directory, whichever of them the walk
enters. Every visit is of a directory below the start whose path is not too long and has exactly the files that
lie in it, and a walk that enters all directories comes to every such directory.
-/

namespace ProofDump.FileTree

variable {tree : FileTree} {enters : List String → String → Bool} {start : List String}

/-- Induction over the directories below a start: from those that lie in a directory. -/
@[elab_as_elim]
theorem directoryInduction (tree : FileTree) (start : List String) {motive : List String → Prop}
    (directory : ∀ names, (∀ name ∈ tree.directoriesAt (start ++ names), motive (names ++ [name])) →
      motive names)
    (names : List String) : motive names :=
  directory names fun name _ => directoryInduction tree start directory (names ++ [name])
termination_by tree.depth - (start ++ names).length
decreasing_by
  rename_i hname
  have hdepth := length_le_depth (mem_directoriesAt.1 hname)
  simp only [List.length_append, List.length_cons, List.length_nil] at hdepth ⊢
  omega

/-- The same induction for what a walk knows a directory by. -/
@[elab_as_elim]
theorem walkInduction (tree : FileTree) (start : List String) {motive : String → List String → Prop}
    (directory : ∀ text names, (∀ name ∈ tree.directoriesAt (start ++ names),
      motive (joinPathText text name) (names ++ [name])) → motive text names)
    (text : String) (names : List String) : motive text names := by
  induction names using directoryInduction tree start generalizing text with
  | directory names ih => exact directory text names fun name hname => ih name hname _

theorem mem_filesAt {directory : List String} {name : String} :
    name ∈ tree.filesAt directory ↔ tree.isFileAt (directory ++ [name]) = true := by
  simp only [filesAt, List.mem_filterMap, Option.ite_none_right_eq_some, isFileAt, List.any_eq_true,
    decide_eq_true_eq]
  constructor
  · rintro ⟨file, hfile, hdirectory, hlast⟩
    obtain ⟨front, hnames⟩ := List.getLast?_eq_some_iff.1 hlast
    rw [hnames, List.dropLast_concat] at hdirectory
    exact ⟨file, hfile, by rw [hnames, hdirectory]⟩
  · rintro ⟨file, hfile, hnames⟩
    exact ⟨file, hfile, by rw [hnames, List.dropLast_concat], by rw [hnames, List.getLast?_concat]⟩

theorem mem_entriesAt {directory : List String} {name : String} :
    name ∈ tree.entriesAt directory ↔
      tree.isFileAt (directory ++ [name]) = true ∨ directory ++ [name] ∈ tree.allDirectories := by
  rw [entriesAt, List.mem_append, mem_filesAt, mem_directoriesAt]

theorem walk_of_long {text : String} {names : List String} (hlong : ¬ text.utf8ByteSize < pathBound) :
    tree.walk enters start text names = [] := by
  rw [walk, if_neg hlong]

theorem flatMap_attach {β : Type} (directories : List String) (below : String → List β) :
    directories.attach.flatMap (fun name => below name.1) = directories.flatMap below := by
  rw [List.flatMap_subtype fun _ _ => rfl, List.unattach_attach]

theorem walk_of_short {text : String} {names : List String} (hshort : text.utf8ByteSize < pathBound) :
    tree.walk enters start text names =
      ⟨names, tree.filesAt (start ++ names)⟩ ::
        ((tree.directoriesAt (start ++ names)).filter (enters names)).flatMap fun name =>
          tree.walk enters start (joinPathText text name) (names ++ [name]) := by
  rw [walk, if_pos hshort]
  exact congrArg _ (flatMap_attach _ fun name => tree.walk enters start (joinPathText text name) (names ++ [name]))

/-- The text by which a walk from a text knows the directory that names lead to. -/
def walkText (text : String) (names : List String) : String := names.foldl joinPathText text

theorem visit_of_mem_walk {text : String} {names : List String} {visit : Visit}
    (hvisit : visit ∈ tree.walk enters start text names) :
    visit.files = tree.filesAt (start ++ visit.names) ∧
      ∃ below, visit.names = names ++ below ∧ (walkText text below).utf8ByteSize < pathBound := by
  induction text, names using walkInduction tree start with
  | directory text names ih =>
      by_cases hshort : text.utf8ByteSize < pathBound
      · rw [walk_of_short hshort] at hvisit
        rcases List.mem_cons.1 hvisit with rfl | hbelow
        · exact ⟨rfl, [], (List.append_nil _).symm, hshort⟩
        · obtain ⟨name, hname, hbelow⟩ := List.mem_flatMap.1 hbelow
          obtain ⟨hfiles, below, hnames, hsize⟩ := ih name (List.mem_of_mem_filter hname) hbelow
          exact ⟨hfiles, name :: below, by rw [hnames, ← List.append_cons], hsize⟩
      · rw [walk_of_long hshort] at hvisit
        cases hvisit

/-! ### Coming to every directory -/

theorem mem_beginnings_iff {names front : List String} :
    front ∈ beginnings names ↔ front ≠ [] ∧ front <+: names := by
  induction names generalizing front with
  | nil => simp [beginnings]
  | cons name names ih =>
      cases front with
      | nil => simp [beginnings]
      | cons first front =>
          rw [beginnings, List.mem_cons, List.mem_map, List.cons_prefix_cons]
          by_cases hfront : front = []
          · simp [hfront, ih]
          · simp [hfront, ih, eq_comm, and_comm]

theorem mem_allDirectories_iff {names : List String} :
    names ∈ tree.allDirectories ↔ names ≠ [] ∧
      ((∃ file ∈ tree.files, names <+: file.1.dropLast) ∨ ∃ directory ∈ tree.directories, names <+: directory) := by
  rw [allDirectories, List.mem_eraseDups, List.mem_append, List.mem_flatMap, List.mem_flatMap]
  simp only [mem_beginnings_iff]
  constructor
  · rintro (⟨file, hfile, hne, hbegins⟩ | ⟨directory, hdirectory, hne, hbegins⟩)
    · exact ⟨hne, .inl ⟨file, hfile, hbegins⟩⟩
    · exact ⟨hne, .inr ⟨directory, hdirectory, hbegins⟩⟩
  · rintro ⟨hne, ⟨file, hfile, hbegins⟩ | ⟨directory, hdirectory, hbegins⟩⟩
    · exact .inl ⟨file, hfile, hne, hbegins⟩
    · exact .inr ⟨directory, hdirectory, hne, hbegins⟩

theorem mem_allDirectories_of_begins {names front : List String} (hnames : names ∈ tree.allDirectories)
    (hbegins : front <+: names) (hfront : front ≠ []) : front ∈ tree.allDirectories := by
  rw [mem_allDirectories_iff] at hnames ⊢
  refine ⟨hfront, hnames.2.imp ?_ ?_⟩
  · rintro ⟨file, hfile, hbelow⟩
    exact ⟨file, hfile, hbegins.trans hbelow⟩
  · rintro ⟨directory, hdirectory, hbelow⟩
    exact ⟨directory, hdirectory, hbegins.trans hbelow⟩

theorem mem_allDirectories_of_file {names front : List String} (hfile : tree.isFileAt names = true)
    (hbegins : front <+: names.dropLast) (hfront : front ≠ []) : front ∈ tree.allDirectories := by
  obtain ⟨file, hmem, hnames⟩ := List.any_eq_true.1 hfile
  rw [← of_decide_eq_true hnames] at hbegins
  exact mem_allDirectories_iff.2 ⟨hfront, .inl ⟨file, hmem, hbegins⟩⟩

end ProofDump.FileTree
