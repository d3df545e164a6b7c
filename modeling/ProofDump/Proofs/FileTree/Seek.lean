import Mathlib.Data.List.Nodup
import ProofDump.Proofs.FileTree.Follow

/-!
# Seeking source files

A search below a directory comes to the source files in it, each once, and to a fault for every directory that
cannot be opened because its path is too long. Where no directory has the suffix of sources in its name and
no path is too long, it comes to the source files and to nothing else.
-/

namespace ProofDump.FileTree

variable {tree : FileTree} {start : List String}

theorem seekSources_of_long {path : Path} {names : List String}
    (hlong : ¬ path.text.utf8ByteSize < pathBound) :
    tree.seekSources start path names = [.error (.longPath (Text.quoted path.text))] := by
  rw [seekSources, if_neg hlong]

theorem seekSources_of_short {path : Path} {names : List String}
    (hshort : path.text.utf8ByteSize < pathBound) :
    tree.seekSources start path names =
      ((tree.entriesAt (start ++ names)).filter isSourceName).map (fun name => .ok (names ++ [name])) ++
        (tree.directoriesAt (start ++ names)).flatMap fun name =>
          tree.seekSources start (path.join (.relative [name])) (names ++ [name]) := by
  rw [seekSources, if_pos hshort]
  exact congrArg _ (flatMap_attach _ fun name =>
    tree.seekSources start (path.join (.relative [name])) (names ++ [name]))

/-! ### Directories that cannot be opened -/

/-- Names that lead from a directory to one below it, or to itself, whose path is too long. -/
def LongBelow (tree : FileTree) (directory : List String) (path : Path) (below : List String) : Prop :=
  (below ≠ [] → directory ++ below ∈ tree.allDirectories) ∧
    pathBound ≤ (path.join (.relative below)).text.utf8ByteSize

theorem longBelow_nil {directory : List String} {path : Path} :
    tree.LongBelow directory path [] ↔ pathBound ≤ path.text.utf8ByteSize := by
  rw [LongBelow, Path.join_relative_nil]
  exact and_iff_right fun hne => absurd rfl hne

theorem longBelow_cons {directory below : List String} {path : Path} {name : String}
    (hname : directory ++ [name] ∈ tree.allDirectories) :
    tree.LongBelow directory path (name :: below) ↔
      tree.LongBelow (directory ++ [name]) (path.join (.relative [name])) below := by
  rw [LongBelow, LongBelow, ← Path.join_relative_append, List.singleton_append, List.append_cons]
  refine and_congr_left fun _ => ⟨fun hmem _ => hmem (List.cons_ne_nil _ _), ?_⟩
  intro hmem _
  by_cases hbelow : below = []
  · rwa [hbelow, List.append_nil]
  · exact hmem hbelow

theorem longBelow_of_fault {path : Path} {names : List String} {fault : Fault}
    (hfault : .error fault ∈ tree.seekSources start path names) :
    ∃ below, tree.LongBelow (start ++ names) path below ∧
      fault = .longPath (Text.quoted (path.join (.relative below)).text) := by
  induction names using directoryInduction tree start generalizing path with
  | directory names ih =>
      by_cases hshort : path.text.utf8ByteSize < pathBound
      · rw [seekSources_of_short hshort, List.mem_append, List.mem_map, List.mem_flatMap] at hfault
        obtain ⟨name, -, hname⟩ | ⟨name, hname, hbelow⟩ := hfault
        · cases hname
        · obtain ⟨below, hlong, hfault⟩ := ih name hname hbelow
          rw [← Path.join_relative_append] at hfault
          rw [← List.append_assoc] at hlong
          exact ⟨name :: below, (longBelow_cons (mem_directoriesAt.1 hname)).2 hlong, hfault⟩
      · rw [seekSources_of_long hshort, List.mem_singleton, Except.error.injEq] at hfault
        exact ⟨[], longBelow_nil.2 (Nat.le_of_not_lt hshort), by rw [hfault, Path.join_relative_nil]⟩

theorem exists_fault_of_longBelow {path : Path} {names below : List String}
    (hlong : tree.LongBelow (start ++ names) path below) :
    ∃ fault, .error fault ∈ tree.seekSources start path names := by
  induction below generalizing path names with
  | nil =>
      rw [seekSources_of_long (Nat.not_lt.2 (longBelow_nil.1 hlong))]
      exact ⟨_, List.mem_singleton_self _⟩
  | cons name below ih =>
      by_cases hshort : path.text.utf8ByteSize < pathBound
      · have hname : start ++ names ++ [name] ∈ tree.allDirectories := by
          apply mem_allDirectories_of_begins (hlong.1 (List.cons_ne_nil _ _)) _ (by simp)
          exact (List.prefix_append_right_inj _).2 (List.cons_prefix_cons.2 ⟨rfl, List.nil_prefix⟩)
        have hnext := (longBelow_cons hname).1 hlong
        rw [List.append_assoc] at hnext
        obtain ⟨fault, hfault⟩ := ih hnext
        refine ⟨fault, ?_⟩
        rw [seekSources_of_short hshort, List.mem_append, List.mem_flatMap]
        exact .inr ⟨name, mem_directoriesAt.2 hname, hfault⟩
      · rw [seekSources_of_long hshort]
        exact ⟨_, List.mem_singleton_self _⟩

/-! ### Files that are come to -/

theorem file_of_mem_seekSources {path : Path} {names found : List String}
    (hfound : .ok found ∈ tree.seekSources start path names) :
    ∃ below name, found = names ++ below ++ [name] ∧ isSourceName name = true ∧
      (tree.isFileAt (start ++ found) = true ∨ start ++ found ∈ tree.allDirectories) := by
  induction names using directoryInduction tree start generalizing path with
  | directory names ih =>
      by_cases hshort : path.text.utf8ByteSize < pathBound
      · rw [seekSources_of_short hshort, List.mem_append, List.mem_map, List.mem_flatMap] at hfound
        obtain ⟨name, hname, hfound⟩ | ⟨name, hname, hbelow⟩ := hfound
        · cases hfound
          rw [List.mem_filter, mem_entriesAt, List.append_assoc] at hname
          exact ⟨[], name, by rw [List.append_nil], hname.2, hname.1⟩
        · obtain ⟨below, last, hfound, hplace⟩ := ih name hname hbelow
          exact ⟨name :: below, last, by rw [hfound, List.append_assoc names, List.singleton_append], hplace⟩
      · rw [seekSources_of_long hshort, List.mem_singleton] at hfound
        cases hfound

theorem mem_seekSources_of_file {path : Path} {names below : List String} {name : String}
    (hname : isSourceName name = true) (hfile : tree.isFileAt (start ++ names ++ (below ++ [name])) = true)
    (hshort : ∀ front, ¬ tree.LongBelow (start ++ names) path front) :
    .ok (names ++ below ++ [name]) ∈ tree.seekSources start path names := by
  have hpath : path.text.utf8ByteSize < pathBound := Nat.lt_of_not_le fun hlong => hshort [] (longBelow_nil.2 hlong)
  rw [seekSources_of_short hpath, List.mem_append, List.mem_flatMap]
  induction below generalizing path names with
  | nil =>
      left
      rw [List.append_nil]
      apply List.mem_map_of_mem
      rw [List.mem_filter, mem_entriesAt]
      exact ⟨.inl hfile, hname⟩
  | cons next below ih =>
      have hnext : start ++ names ++ [next] ∈ tree.allDirectories := by
        apply mem_allDirectories_of_file hfile _ (by simp)
        rw [← List.append_assoc, List.dropLast_concat]
        exact (List.prefix_append_right_inj _).2 (List.cons_prefix_cons.2 ⟨rfl, List.nil_prefix⟩)
      have hbelow (front : List String) :
          ¬ tree.LongBelow (start ++ (names ++ [next])) (path.join (.relative [next])) front := by
        rw [← List.append_assoc, ← longBelow_cons hnext]
        exact hshort (next :: front)
      have hnextPath := Nat.lt_of_not_le fun hlong => hbelow [] (longBelow_nil.2 hlong)
      have hmem : .ok (names ++ [next] ++ below ++ [name]) ∈
          tree.seekSources start (path.join (.relative [next])) (names ++ [next]) := by
        rw [seekSources_of_short hnextPath, List.mem_append, List.mem_flatMap]
        exact ih (by simpa using hfile) hbelow hnextPath
      refine .inr ⟨next, mem_directoriesAt.2 hnext, ?_⟩
      simpa using hmem

/-! ### No file twice -/

/-- What a search comes to without a fault. -/
def found (steps : List (Except Fault (List String))) : List (List String) := steps.filterMap Except.toOption

theorem mem_found {steps : List (Except Fault (List String))} {names : List String} :
    names ∈ found steps ↔ .ok names ∈ steps := by
  rw [found, List.mem_filterMap]
  constructor
  · rintro ⟨step, hstep, hnames⟩
    cases step with
    | error fault => cases hnames
    | ok other =>
        cases hnames
        exact hstep
  · intro hnames
    exact ⟨_, hnames, rfl⟩

theorem found_map_ok {α : Type} (names : α → List String) (items : List α) :
    found (items.map fun item => .ok (names item)) = items.map names := by
  rw [found, List.filterMap_map]
  exact congrFun List.filterMap_eq_map' items

theorem eq_map_found {steps : List (Except Fault (List String))} (hsteps : ∀ fault, .error fault ∉ steps) :
    steps = (found steps).map .ok := by
  induction steps with
  | nil => rfl
  | cons step steps ih =>
      have hrest : steps = (found steps).map .ok := by
        apply ih
        intro fault hfault
        exact hsteps fault (List.mem_cons_of_mem _ hfault)
      cases step with
      | error fault => exact absurd List.mem_cons_self (hsteps fault)
      | ok names => exact congrArg (.ok names :: ·) hrest

theorem nodup_eraseDups (all : List (List String)) : all.eraseDups.Nodup := by
  induction hlength : all.length using Nat.strong_induction_on generalizing all with
  | h length ih =>
      cases all with
      | nil =>
          rw [List.eraseDups_nil]
          exact List.nodup_nil
      | cons first rest =>
          rw [List.eraseDups_cons, List.nodup_cons, List.mem_eraseDups]
          refine ⟨by simp, ih _ ?_ _ rfl⟩
          rw [← hlength, List.length_cons]
          exact Nat.lt_succ_of_le (List.length_filter_le _ _)

theorem nodup_lastNames {all : List (List String)} (hall : all.Nodup) (directory : List String) :
    (all.filterMap fun names => if names.dropLast = directory then names.getLast? else none).Nodup := by
  have hsplit (names : List String) (name : String)
      (hname : name ∈ if names.dropLast = directory then names.getLast? else none) :
      names = directory ++ [name] := by
    rw [Option.mem_def, Option.ite_none_right_eq_some] at hname
    obtain ⟨rfl, hlast⟩ := hname
    obtain ⟨front, rfl⟩ := List.getLast?_eq_some_iff.1 hlast
    rw [List.dropLast_concat]
  apply hall.filterMap
  intro names others name hnames hothers
  rw [hsplit names name hnames, hsplit others name hothers]

theorem nodup_filesAt (hfiles : (tree.files.map Prod.fst).Nodup) (directory : List String) :
    (tree.filesAt directory).Nodup := by
  have hnames := nodup_lastNames hfiles directory
  rwa [List.filterMap_map] at hnames

theorem nodup_directoriesAt (directory : List String) : (tree.directoriesAt directory).Nodup :=
  nodup_lastNames (nodup_eraseDups _) directory

theorem nodup_found_seekSources (hfiles : (tree.files.map Prod.fst).Nodup)
    (hsuffix : ∀ below name, start ++ below ++ [name] ∈ tree.allDirectories → isSourceName name = false)
    (path : Path) (names : List String) : (found (tree.seekSources start path names)).Nodup := by
  induction names using directoryInduction tree start generalizing path with
  | directory names ih =>
      by_cases hshort : path.text.utf8ByteSize < pathBound
      · have hdirectories : (tree.directoriesAt (start ++ names)).filter isSourceName = [] := by
          rw [List.filter_eq_nil_iff]
          intro name hname
          rw [hsuffix names name (mem_directoriesAt.1 hname)]
          exact Bool.false_ne_true
        rw [seekSources_of_short hshort, entriesAt, List.filter_append, hdirectories, List.append_nil, found,
          List.filterMap_append, List.filterMap_flatMap, List.nodup_append]
        refine ⟨?_, ?_, ?_⟩
        · rw [← found, found_map_ok]
          apply ((nodup_filesAt hfiles _).filter _).map
          intro name other heq
          exact List.singleton_inj.1 (List.append_cancel_left heq)
        · rw [List.nodup_flatMap]
          refine ⟨fun name hname => ih name hname _, (nodup_directoriesAt _).imp ?_⟩
          intro name other hne
          refine List.disjoint_left.2 ?_
          intro one hone hother
          obtain ⟨below, last, hone, -⟩ := file_of_mem_seekSources (mem_found.1 hone)
          obtain ⟨otherBelow, otherLast, hother, -⟩ := file_of_mem_seekSources (mem_found.1 hother)
          simp only [hone, List.append_assoc, List.append_cancel_left_eq, List.cons_append,
            List.cons.injEq] at hother
          exact hne hother.1
        · -- what lies in the directory itself has fewer names than what lies deeper
          intro one hone other hother heq
          rw [← found, found_map_ok, List.mem_map] at hone
          obtain ⟨name, -, rfl⟩ := hone
          obtain ⟨next, -, hother⟩ := List.mem_flatMap.1 hother
          obtain ⟨below, last, hother, -⟩ := file_of_mem_seekSources (mem_found.1 hother)
          have hlength := congrArg List.length (heq.trans hother)
          simp only [List.length_append, List.length_singleton] at hlength
          omega
      · rw [seekSources_of_long hshort]
        exact List.nodup_nil

/-- Where all directories can be opened and none is named like a source, a search comes to the sources. -/
theorem exists_seekSources_eq (hfiles : (tree.files.map Prod.fst).Nodup)
    (hsuffix : ∀ below name, start ++ below ++ [name] ∈ tree.allDirectories → isSourceName name = false)
    {path : Path} (hshort : ∀ below, ¬ tree.LongBelow start path below) :
    ∃ sources : List (List String), tree.seekSources start path [] = sources.map .ok ∧ sources.Nodup ∧
      ∀ names, names ∈ sources ↔ ∃ below name, names = below ++ [name] ∧ isSourceName name = true ∧
        tree.isFileAt (start ++ names) = true := by
  refine ⟨found (tree.seekSources start path []), eq_map_found ?_, ?_, ?_⟩
  · intro fault hfault
    obtain ⟨below, hlong, -⟩ := longBelow_of_fault hfault
    rw [List.append_nil] at hlong
    exact hshort below hlong
  · exact nodup_found_seekSources hfiles hsuffix path []
  · intro names
    rw [mem_found]
    constructor
    · intro hfound
      obtain ⟨below, name, hnames, hname, hplace⟩ := file_of_mem_seekSources hfound
      refine ⟨below, name, hnames, hname, hplace.resolve_right ?_⟩
      intro hdirectory
      rw [hnames, List.nil_append, ← List.append_assoc] at hdirectory
      rw [hsuffix below name hdirectory] at hname
      cases hname
    · rintro ⟨below, name, rfl, hname, hfile⟩
      rw [← List.append_nil start] at hfile hshort
      exact mem_seekSources_of_file hname hfile hshort

end ProofDump.FileTree
