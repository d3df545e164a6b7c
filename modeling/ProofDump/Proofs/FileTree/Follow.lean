import Mathlib.Data.List.Infix
import Mathlib.Tactic.MkIffOfInductiveProp
import ProofDump.Proofs.Except
import ProofDump.Proofs.FileTree.Walk
import ProofDump.Proofs.Path

/-!
# Following paths

The text of a proper path leads through its names, from the root or from the current directory, and a path
below another one leads on from where that one leads (`locate_join`). In a tree whose names can be names of
files, the names of what is there are never too long by themselves, so only the text as a whole can be.
-/

namespace ProofDump.FileTree

/-! ### Names of files -/

/-- A text that a file or a directory can have as its name. -/
@[mk_iff]
structure IsName (name : String) : Prop where
  nonempty : name ≠ ""
  notHere : name ≠ "."
  notAbove : name ≠ ".."
  slash : '/' ∉ name.toList
  null : '\x00' ∉ name.toList
  short : name.utf8ByteSize ≤ longestName

instance : DecidablePred IsName := fun name => decidable_of_iff _ (isName_iff name).symm

theorem IsName.isPart {name : String} (hname : IsName name) : Path.IsPart name :=
  ⟨hname.nonempty, hname.notHere, hname.slash⟩

/-- All files and directories have such names. -/
structure Named (tree : FileTree) : Prop where
  files : ∀ file ∈ tree.files, ∀ name ∈ file.1, IsName name
  directories : ∀ directory ∈ tree.directories, ∀ name ∈ directory, IsName name

theorem Named.allDirectories {tree : FileTree} (hnamed : tree.Named) {names : List String}
    (hnames : names ∈ tree.allDirectories) : ∀ name ∈ names, IsName name := by
  obtain ⟨-, ⟨file, hfile, hbegins⟩ | ⟨directory, hdirectory, hbegins⟩⟩ := mem_allDirectories_iff.1 hnames
  · intro name hname
    exact hnamed.files file hfile name (List.dropLast_subset _ (hbegins.subset hname))
  · intro name hname
    exact hnamed.directories directory hdirectory name (hbegins.subset hname)

/-! ### The way of a text -/

/-- The names that a path leads through; without any it asks for a directory. -/
def stops (path : Path) : List String := if path.parts = [] then ["."] else path.parts

/-- Where a path starts. -/
def origin (tree : FileTree) (path : Path) : List String := if path.absolute then [] else tree.here

theorem splitAt_text {path : Path} (hproper : path.IsProper) (hparts : path.parts ≠ []) :
    (Text.splitAt '/' path.text).filter (· ≠ "") = path.parts := by
  have hpieces : ∀ piece ∈ List.replicate path.slashes [] ++ path.parts.map String.toList, '/' ∉ piece := by
    intro piece hpiece
    rcases List.mem_append.1 hpiece with hempty | hpart
    · rw [List.eq_of_mem_replicate hempty]
      exact List.not_mem_nil
    · obtain ⟨name, hname, rfl⟩ := List.mem_map.1 hpart
      exact (hproper.parts name hname).2.2
  rw [Text.splitAt_eq_splitOn, Path.toList_text_of_parts hparts,
    List.splitOn_intercalate '/' hpieces (by simp [hparts]), List.map_append, List.filter_append,
    List.map_map, List.filter_eq_nil_iff.2, List.nil_append, List.filter_eq_self.2]
  · simp
  · intro name hname
    have hpart : name ∈ path.parts := by simpa using hname
    exact decide_eq_true (hproper.parts name hpart).1
  · intro name hname
    rw [List.map_replicate] at hname
    rw [List.eq_of_mem_replicate hname]
    decide

theorem getLast?_text {path : Path} (hproper : path.IsProper) (hparts : path.parts ≠ []) :
    path.text.toList.getLast? ≠ some '/' := by
  obtain ⟨front, last, hlast⟩ := (List.eq_nil_or_concat path.parts).resolve_left hparts
  have hpart := hproper.parts last (by simp [hlast])
  rw [Path.toList_text_of_parts hparts, hlast, List.concat_eq_append, List.map_append, ← List.append_assoc,
    List.map_singleton, Text.intercalate_concat, List.getLast?_append_of_ne_nil]
  · intro hslash
    exact hpart.2.2 (List.mem_of_getLast? hslash)
  · exact String.toList_eq_nil_iff.not.2 hpart.1

theorem waypoints_text {path : Path} (hproper : path.IsProper) : waypoints path.text = stops path := by
  by_cases hparts : path.parts = []
  · obtain ⟨slashes, parts⟩ := path
    cases hparts
    have hslashes : slashes ≤ 2 := hproper.slashes
    obtain rfl | rfl | rfl : slashes = 0 ∨ slashes = 1 ∨ slashes = 2 := by omega
    all_goals decide
  · rw [waypoints, if_neg (getLast?_text hproper hparts), splitAt_text hproper hparts, stops, if_neg hparts]

theorem head?_text {path : Path} (hproper : path.IsProper) :
    path.text.toList.head? = some '/' ↔ path.absolute = true := by
  obtain ⟨slashes, parts⟩ := path
  cases slashes with
  | succ count =>
      rw [Path.toList_text (.inl (Nat.succ_ne_zero count)), List.replicate_succ]
      simp [Path.absolute]
  | zero =>
      refine iff_of_false ?_ (by simp [Path.absolute])
      cases parts with
      | nil => decide
      | cons part rest =>
          obtain ⟨c, chars, hchars⟩ := List.exists_cons_of_ne_nil
            (String.toList_eq_nil_iff.not.2 (hproper.parts part List.mem_cons_self).1)
          have hslash : c ≠ '/' := by
            rintro rfl
            exact (hproper.parts part List.mem_cons_self).2.2 (hchars ▸ List.mem_cons_self)
          rw [Path.toList_text (.inr (List.cons_ne_nil _ _))]
          cases rest <;> simp [hchars, hslash, List.intercalate_cons_cons]

theorem reach_text (tree : FileTree) {path : Path} (hproper : path.IsProper) :
    tree.reach path.text =
      if pathBound ≤ path.text.utf8ByteSize then .error .long
      else tree.follow (tree.origin path) (stops path) := by
  rw [reach, if_neg hproper.text_ne_empty, waypoints_text hproper, origin]
  simp only [head?_text hproper]

/-- A text leads somewhere exactly if it is a possible path and its waypoints can be followed. -/
theorem locate_text_eq_ok_iff {tree : FileTree} {text : String} {names : List String} :
    tree.locate text = .ok names ↔ '\x00' ∉ text.toList ∧ text ≠ "" ∧ text.utf8ByteSize < pathBound ∧
      tree.follow (if text.toList.head? = some '/' then [] else tree.here) (waypoints text) = .ok names := by
  rw [locate, reach]
  by_cases hnull : '\x00' ∈ text.toList
  · simp [hnull]
  · by_cases hempty : text = ""
    · simp [hempty, Except.mapError]
    · by_cases hlong : pathBound ≤ text.utf8ByteSize
      · simp [hnull, hempty, hlong, Except.mapError, Nat.not_lt.2 hlong]
      · rw [if_neg (by simpa using hnull), if_neg hempty, if_neg hlong]
        cases tree.follow (if text.toList.head? = some '/' then [] else tree.here) (waypoints text) with
        | error obstacle => simp [Except.mapError]
        | ok there => simp [Except.mapError, hnull, hempty, Nat.lt_of_not_le hlong]

/-! ### One step after another -/

/-- Where one part of a path leads from a directory. -/
inductive Leads (reached : List String) (part : String) : List String → Prop
  | here (hpart : part = ".") : Leads reached part reached
  | above (hpart : part = "..") : Leads reached part reached.dropLast
  | name (hhere : part ≠ ".") (habove : part ≠ "..") (hshort : part.utf8ByteSize ≤ longestName) :
      Leads reached part (reached ++ [part])

theorem follow_of_leads {tree : FileTree} {reached next way : List String} {part : String}
    (hdirectory : tree.isDirectoryAt reached = true) (hleads : Leads reached part next) :
    tree.follow reached (part :: way) = tree.follow next way := by
  rw [follow, if_pos hdirectory]
  cases hleads with
  | here hpart => rw [if_pos hpart]
  | above hpart => rw [if_neg (by rw [hpart]; decide), if_pos hpart]
  | name hhere habove hshort => rw [if_neg hhere, if_neg habove, if_neg (Nat.not_lt.2 hshort)]

theorem exists_leads_or_long (reached : List String) (part : String) :
    (∃ next, Leads reached part next) ∨ part ≠ "." ∧ part ≠ ".." ∧ longestName < part.utf8ByteSize := by
  by_cases hhere : part = "."
  · exact .inl ⟨_, .here hhere⟩
  · by_cases habove : part = ".."
    · exact .inl ⟨_, .above habove⟩
    · by_cases hlong : longestName < part.utf8ByteSize
      · exact .inr ⟨hhere, habove, hlong⟩
      · exact .inl ⟨_, .name hhere habove (Nat.le_of_not_lt hlong)⟩

theorem follow_of_long {tree : FileTree} {reached way : List String} {part : String}
    (hdirectory : tree.isDirectoryAt reached = true)
    (hlong : part ≠ "." ∧ part ≠ ".." ∧ longestName < part.utf8ByteSize) :
    tree.follow reached (part :: way) = .error .long := by
  rw [follow, if_pos hdirectory, if_neg hlong.1, if_neg hlong.2.1, if_pos hlong.2.2]

theorem follow_cons_eq_ok_iff {tree : FileTree} {reached way there : List String} {part : String} :
    tree.follow reached (part :: way) = .ok there ↔
      tree.isDirectoryAt reached = true ∧ ∃ next, Leads reached part next ∧ tree.follow next way = .ok there := by
  constructor
  · intro hfollow
    by_cases hdirectory : tree.isDirectoryAt reached = true
    · rcases exists_leads_or_long reached part with ⟨next, hleads⟩ | hlong
      · rw [follow_of_leads hdirectory hleads] at hfollow
        exact ⟨hdirectory, next, hleads, hfollow⟩
      · rw [follow_of_long hdirectory hlong] at hfollow
        cases hfollow
    · rw [follow, if_neg hdirectory] at hfollow
      split at hfollow <;> cases hfollow
  · rintro ⟨hdirectory, next, hleads, hway⟩
    rw [follow_of_leads hdirectory hleads, hway]

theorem follow_append (tree : FileTree) (reached names others : List String) :
    tree.follow reached (names ++ others) =
      (tree.follow reached names).bind fun there => tree.follow there others := by
  induction names generalizing reached with
  | nil => rfl
  | cons name names ih =>
      rw [List.cons_append, follow, follow]
      split
      · split
        · exact ih reached
        · split
          · exact ih reached.dropLast
          · split
            · rfl
            · exact ih (reached ++ [name])
      · split <;> rfl

theorem follow_name {tree : FileTree} {reached names : List String} {name : String} (hname : IsName name)
    (hdirectory : tree.isDirectoryAt reached = true) :
    tree.follow reached (name :: names) = tree.follow (reached ++ [name]) names := by
  exact follow_of_leads hdirectory (.name hname.notHere hname.notAbove hname.short)

theorem follow_names {tree : FileTree} {reached names : List String} (hnames : ∀ name ∈ names, IsName name)
    (hdirectories : ∀ front, front <+: names → front ≠ names → tree.isDirectoryAt (reached ++ front) = true) :
    tree.follow reached names = .ok (reached ++ names) := by
  induction names generalizing reached with
  | nil => rw [follow, List.append_nil]
  | cons name names ih =>
      obtain ⟨hname, hrest⟩ := List.forall_mem_cons.1 hnames
      have hhere : tree.isDirectoryAt reached = true := by
        rw [← List.append_nil reached]
        exact hdirectories [] List.nil_prefix (List.cons_ne_nil _ _).symm
      rw [follow_name hname hhere, List.append_cons reached name names]
      apply ih hrest
      intro front hfront hne
      rw [List.append_assoc, List.singleton_append]
      apply hdirectories (name :: front) (List.cons_prefix_cons.2 ⟨rfl, hfront⟩)
      intro heq
      exact hne (List.cons.inj heq).2

theorem locate_eq_ok_iff {tree : FileTree} {path : Path} (hproper : path.IsProper) {names : List String} :
    tree.locate path.text = .ok names ↔ '\x00' ∉ path.text.toList ∧ path.text.utf8ByteSize < pathBound ∧
      tree.follow (tree.origin path) (stops path) = .ok names := by
  rw [locate, reach_text tree hproper]
  by_cases hnull : '\x00' ∈ path.text.toList
  · simp [hnull]
  · by_cases hlong : pathBound ≤ path.text.utf8ByteSize
    · simp [hnull, hlong, Except.mapError, Nat.not_lt.2 hlong]
    · rw [if_neg (by simpa using hnull), if_neg hlong]
      cases tree.follow (tree.origin path) (stops path) with
      | error obstacle => simp [Except.mapError]
      | ok there => simp [Except.mapError, hnull, Nat.lt_of_not_le hlong]

theorem stops_join {path : Path} {names : List String} (hnil : names ≠ []) :
    stops (path.join (.relative names)) = path.parts ++ names := by
  rw [stops, Path.join_relative_eq, if_neg (by simp [hnil])]

/-- Where a path leads, names below it lead on from there. -/
theorem follow_stops_join {tree : FileTree} {path : Path} {start names : List String}
    (hstart : tree.follow (tree.origin path) (stops path) = .ok start) :
    tree.follow (tree.origin path) (path.parts ++ names) = tree.follow start names := by
  by_cases hparts : path.parts = []
  · rw [stops, if_pos hparts, follow] at hstart
    split at hstart
    · cases hstart
      rw [hparts, List.nil_append]
    · split at hstart <;> cases hstart
  · rw [stops, if_neg hparts] at hstart
    rw [follow_append, hstart]
    rfl

theorem null_notMem_join {path : Path} {names : List String} (hnull : '\x00' ∉ path.text.toList)
    (hnames : ∀ name ∈ names, '\x00' ∉ name.toList) : '\x00' ∉ (path.join (.relative names)).text.toList := by
  rw [Path.mem_text_iff (by decide) (by decide)] at hnull ⊢
  rintro ⟨part, hpart, hmem⟩
  rcases List.mem_append.1 hpart with hpart | hpart
  · exact hnull ⟨part, hpart, hmem⟩
  · exact hnames part hpart hmem

/-- Names below a path lead on from where the path leads, unless the text becomes too long. -/
theorem locate_join {tree : FileTree} {path : Path} (hproper : path.IsProper) {start names : List String}
    (hstart : tree.locate path.text = .ok start) (hnil : names ≠ []) (hnames : ∀ name ∈ names, IsName name) :
    tree.locate (path.join (.relative names)).text =
      if pathBound ≤ (path.join (.relative names)).text.utf8ByteSize then
        .error (.longPath (Text.quoted (path.join (.relative names)).text))
      else (tree.follow start names).mapError
        (Obstacle.fault (Text.quoted (path.join (.relative names)).text)) := by
  obtain ⟨hnull, -, hfollow⟩ := (locate_eq_ok_iff hproper).1 hstart
  rw [locate, if_neg (by simpa using null_notMem_join hnull fun name hname => (hnames name hname).null),
    reach_text tree (hproper.join_relative fun name hname => (hnames name hname).isPart)]
  split
  · rfl
  · rw [stops_join hnil]
    exact congrArg _ (follow_stops_join hfollow)

/-! ### Files below paths -/

theorem isDirectoryAt_of_file {tree : FileTree} {directory names : List String}
    (hfile : tree.isFileAt names = true) (hbegins : directory <+: names) (hne : directory ≠ names) :
    tree.isDirectoryAt directory = true := by
  obtain ⟨file, hmem, hnames⟩ := List.any_eq_true.1 hfile
  have habove : (tree.files.any fun file => directory.isPrefixOf file.1 && file.1 ≠ directory) = true := by
    refine List.any_eq_true.2 ⟨file, hmem, ?_⟩
    rw [of_decide_eq_true hnames]
    simp [hbegins, hne.symm]
  rw [isDirectoryAt, habove]
  simp

theorem isDirectoryAt_of_mem {tree : FileTree} {directory below : List String}
    (hmem : directory ++ below ∈ tree.allDirectories) : tree.isDirectoryAt directory = true := by
  obtain ⟨hne, ⟨file, hfile, hbegins⟩ | ⟨other, hother, hbegins⟩⟩ := mem_allDirectories_iff.1 hmem
  · have hplace : tree.isFileAt file.1 = true := List.any_eq_true.2 ⟨file, hfile, decide_eq_true rfl⟩
    apply isDirectoryAt_of_file hplace
    · exact ((List.prefix_append _ _).trans hbegins).trans (List.dropLast_prefix _)
    · -- the file has at least one name more than the directory that it lies in
      have hlength := hbegins.length_le
      have hpos := List.length_pos_iff.2 hne
      rw [List.length_append] at hpos
      rw [List.length_append, List.length_dropLast] at hlength
      intro heq
      rw [heq] at hlength hpos
      omega
  · have habove : tree.directories.any (directory.isPrefixOf ·) = true := by
      refine List.any_eq_true.2 ⟨other, hother, ?_⟩
      simpa using (List.prefix_append _ _).trans hbegins
    rw [isDirectoryAt, habove, Bool.or_true]

theorem Named.isFileAt {tree : FileTree} (hnamed : tree.Named) {names : List String}
    (hfile : tree.isFileAt names = true) : ∀ name ∈ names, IsName name := by
  obtain ⟨file, hmem, hnames⟩ := List.any_eq_true.1 hfile
  exact of_decide_eq_true hnames ▸ hnamed.files file hmem

theorem follow_file {tree : FileTree} {start names : List String} (hnames : ∀ name ∈ names, IsName name)
    (hfile : tree.isFileAt (start ++ names) = true) : tree.follow start names = .ok (start ++ names) := by
  apply follow_names hnames
  intro front hfront hne
  apply isDirectoryAt_of_file hfile ((List.prefix_append_right_inj start).2 hfront)
  exact fun heq => hne (List.append_cancel_left heq)

theorem holds_iff {tree : FileTree} {text : String} :
    tree.holds text = true ↔
      ∃ names, tree.locate text = .ok names ∧ (tree.isFileAt names = true ∨ tree.isDirectoryAt names = true) := by
  rw [holds, isFile, isDirectory, Bool.or_eq_true]
  cases hlocate : tree.locate text with
  | error fault => simp [Except.toOption]
  | ok names => simp [Except.toOption]

theorem exists?_of_locate {tree : FileTree} {path : Path} {names : List String}
    (hlocate : tree.locate path.text = .ok names) : tree.exists? path = .ok (tree.holds path.text) := by
  rw [exists?, checkLength, hlocate]
  rfl

theorem holds_of_exists? {tree : FileTree} {path : Path} {answer : Bool}
    (hexists : tree.exists? path = .ok answer) : tree.holds path.text = answer := by
  obtain ⟨_, -, hanswer⟩ := bind_eq_ok.1 hexists
  exact Except.ok.inj hanswer

theorem exists?_eq_error_iff {tree : FileTree} {path : Path} {fault : Fault} :
    tree.exists? path = .error fault ↔ '\x00' ∉ path.text.toList ∧ tree.reach path.text = .error .long ∧
      fault = .longPath (Text.quoted path.text) := by
  rw [exists?, checkLength, locate]
  by_cases hnull : '\x00' ∈ path.text.toList
  · rw [if_pos (by simpa using hnull)]
    exact iff_of_false (fun herror => by cases herror) fun herror => herror.1 hnull
  · rw [if_neg (by simpa using hnull)]
    cases tree.reach path.text with
    | ok names => exact iff_of_false (fun herror => by cases herror) fun herror => by cases herror.2.1
    | error obstacle =>
        cases obstacle with
        | absent => exact iff_of_false (fun herror => by cases herror) fun herror => by cases herror.2.1
        | file => exact iff_of_false (fun herror => by cases herror) fun herror => by cases herror.2.1
        | long => exact ⟨fun herror => ⟨hnull, rfl, (Except.error.inj herror).symm⟩, fun herror => herror.2.2 ▸ rfl⟩

theorem exists?_join_name {tree : FileTree} {path : Path} (hproper : path.IsProper) {start : List String}
    (hstart : tree.locate path.text = .ok start) (hdirectory : tree.isDirectoryAt start = true) {name : String}
    (hname : IsName name) (hshort : (path.join (.relative [name])).text.utf8ByteSize < pathBound) :
    tree.exists? (path.join (.relative [name])) =
      .ok (tree.isFileAt (start ++ [name]) || tree.isDirectoryAt (start ++ [name])) := by
  have hlocate : tree.locate (path.join (.relative [name])).text = .ok (start ++ [name]) := by
    rw [locate_join hproper hstart (List.cons_ne_nil _ _) (List.forall_mem_singleton.2 hname),
      if_neg (Nat.not_le.2 hshort), follow_name hname hdirectory]
    rfl
  rw [exists?_of_locate hlocate, holds, isFile, isDirectory, hlocate]
  rfl

/-- A name that is too long cannot be asked about in a directory that is there. -/
theorem exists?_join_long {tree : FileTree} {path : Path} (hproper : path.IsProper) {start : List String}
    (hstart : tree.locate path.text = .ok start) (hdirectory : tree.isDirectoryAt start = true) {name : String}
    (hpart : Path.IsPart name) (hnull : '\x00' ∉ name.toList) (hlong : longestName < name.utf8ByteSize) :
    tree.exists? (path.join (.relative [name])) =
      .error (.longPath (Text.quoted (path.join (.relative [name])).text)) := by
  obtain ⟨hnullPath, -, hfollow⟩ := (locate_eq_ok_iff hproper).1 hstart
  have habove : name ≠ ".." := by
    rintro rfl
    exact absurd hlong (by decide)
  refine exists?_eq_error_iff.2 ⟨null_notMem_join hnullPath (List.forall_mem_singleton.2 hnull), ?_, rfl⟩
  rw [reach_text tree (hproper.join_relative (List.forall_mem_singleton.2 hpart)), stops_join (List.cons_ne_nil _ _)]
  split
  · rfl
  · exact (follow_stops_join hfollow).trans (follow_of_long hdirectory ⟨hpart.2.1, habove, hlong⟩)

end ProofDump.FileTree
