import ProofDump.Proofs.Except
import ProofDump.Proofs.FileTree.Write
import ProofDump.Proofs.Path
import ProofDump.Toolchain

/-!
# Versions and their directories

The directory of a version is named by a tag: the version itself, with its letter before it if it starts with a
number. The letter of a version is dropped and written anew, which leaves the tag as it is exactly if it starts
with that letter. Every other version, such as one named after a channel, loses its first character, and all
versions that differ in that character alone share a directory.
-/

namespace ProofDump.Toolchain

/-! ### What a project names -/

/-- The file of the project at a root names a version on one line. -/
structure Names (tree : FileTree) (root : Path) (version : List Char) : Prop where
  written : ∃ content, tree.read (root.join (.relative [fileName])).text = .ok content ∧
    Text.strip (Text.fileText content) = origin.toList ++ version
  nonempty : version ≠ []
  oneLine : '\n' ∉ version

theorem parse?_origin {version : List Char} (hnil : version ≠ []) (hline : '\n' ∉ version) :
    parse? (origin.toList ++ version) = some (String.ofList (withLetter version)) := by
  obtain ⟨first, rest, rfl⟩ := List.exists_cons_of_ne_nil hnil
  rw [parse?, Text.dropPrefix?_eq_some_iff.2 rfl]
  exact if_neg (by simpa using hline)

theorem Names.directory_eq {tree : FileTree} {root : Path} {version : List Char}
    (hnames : Names tree root version) (home : String) :
    directory tree home root = .ok (directoryOf home (String.ofList (withLetter version))) := by
  obtain ⟨⟨content, hread, hstrip⟩, hnil, hline⟩ := hnames
  have hversion : Toolchain.version tree root = .ok (String.ofList (withLetter version)) := by
    rw [Toolchain.version, hread, ok_bind, hstrip, parse?_origin hnil hline]
    rfl
  rw [directory, hversion]
  rfl

/-! ### Tags -/

/-- The version starts with a number. -/
def startsNumeric (version : List Char) : Bool := version.head?.any Text.isNumeric

/-- What the directory of a version is to be named by. -/
def tag (version : List Char) : List Char := if startsNumeric version then 'v' :: version else version

theorem withLetter_eq_tag (version : List Char) : withLetter version = tag version := by
  cases version with
  | nil => rfl
  | cons first rest => rfl

theorem head?_tag_eq_letter_iff {version : List Char} :
    (tag version).head? = some 'v' ↔ startsNumeric version = true ∨ version.head? = some 'v' := by
  rw [tag]
  split
  · simp [*]
  · simp [*]

theorem notMem_tag {version : List Char} (hslash : '/' ∉ version) : '/' ∉ tag version := by
  rw [tag]
  split
  · simpa using hslash
  · exact hslash

/-! ### Directories -/

/-- What stands before the tag in the name of a directory. -/
def stem : List Char := "leanprover--lean4---".toList

/-- The directory that is named by a tag. -/
def tagged (home : String) (tag : List Char) : Path :=
  ((Path.ofText home).join (.relative [".elan", "toolchains"])).join (.ofText (String.ofList (stem ++ tag)))

/-- The directory of a version is named by its tag with the letter in the place of the first character. -/
theorem Names.directory_eq_tagged {tree : FileTree} {root : Path} {version : List Char}
    (hnames : Names tree root version) (home : String) :
    directory tree home root = .ok (tagged home ('v' :: (tag version).tail)) := by
  have hletter : "leanprover--lean4---v" = String.ofList (stem ++ ['v']) := by decide
  have hname : "leanprover--lean4---v" ++ String.ofList (tag version).tail =
      String.ofList (stem ++ 'v' :: (tag version).tail) := by
    rw [hletter, ← String.ofList_append, List.append_assoc, List.singleton_append]
  rw [hnames.directory_eq, directoryOf, tagged, String.toList_ofList, List.drop_one, withLetter_eq_tag, hname]

theorem slash_notMem_stem : '/' ∉ stem := by decide

theorem tagged_eq_iff {home : String} {one other : List Char} :
    tagged home one = tagged home other ↔
      Path.partsOf (String.ofList (stem ++ one)) = Path.partsOf (String.ofList (stem ++ other)) := by
  have hhead (tag : List Char) : (String.ofList (stem ++ tag)).toList.head? ≠ some '/' := by
    rw [String.toList_ofList]
    exact fun hslash => slash_notMem_stem (List.mem_of_head? hslash)
  rw [tagged, tagged, Path.ofText_of_head? (hhead one), Path.ofText_of_head? (hhead other),
    Path.join_relative_inj]

theorem tagged_inj {home : String} {one other : List Char} (hone : '/' ∉ one) (hother : '/' ∉ other) :
    tagged home one = tagged home other ↔ one = other := by
  have hpart {tag : List Char} (htag : '/' ∉ tag) : Path.IsPart (String.ofList (stem ++ tag)) := by
    apply Path.isPart_ofList
    · rw [List.mem_append, not_or]
      exact ⟨slash_notMem_stem, htag⟩
    · exact Nat.lt_of_lt_of_le (by decide : 1 < stem.length) (by simp)
  rw [tagged_eq_iff, Path.partsOf_part (hpart hone), Path.partsOf_part (hpart hother)]
  constructor
  · intro hsame
    have hchars := congrArg String.toList (List.cons.inj hsame).1
    rwa [String.toList_ofList, String.toList_ofList, List.append_cancel_left_eq] at hchars
  · rintro rfl
    rfl

/-- Another first character makes another directory, also where slashes cut the tag into several names. -/
theorem tagged_letter_iff {home : String} {tag : List Char} (hnil : tag ≠ []) :
    tagged home ('v' :: tag.tail) = tagged home tag ↔ tag.head? = some 'v' := by
  obtain ⟨first, rest, rfl⟩ := List.exists_cons_of_ne_nil hnil
  constructor
  · intro hsame
    have hheads := congrArg List.head? (tagged_eq_iff.1 hsame)
    rw [Path.head?_partsOf slash_notMem_stem (by decide), Path.head?_partsOf slash_notMem_stem (by decide),
      Option.some.injEq] at hheads
    have hchars := congrArg String.toList hheads
    rw [String.toList_ofList, String.toList_ofList, List.append_cancel_left_eq, List.tail_cons,
      List.takeWhile_cons_of_pos (by decide)] at hchars
    by_cases hslash : first = '/'
    · rw [List.takeWhile_cons_of_neg (by simpa using hslash)] at hchars
      cases hchars
    · rw [List.takeWhile_cons_of_pos (by simpa using hslash)] at hchars
      rw [List.head?_cons, (List.cons.inj hchars).1]
  · intro hletter
    obtain rfl : first = 'v' := Option.some.inj hletter
    rfl

theorem tag_ne_nil {version : List Char} (hnil : version ≠ []) : tag version ≠ [] := by
  rw [tag]
  split
  · exact List.cons_ne_nil _ _
  · exact hnil

/-- The directory of a version keeps the version exactly if the version starts with a number or with its letter.
In any case it is the directory of the tag with the letter written over the first character, so versions without
slashes share a directory exactly if their tags differ in nothing but that character. -/
theorem directory_keeps_version_iff {tree : FileTree} {root : Path} {version : List Char}
    (hnames : Names tree root version) (home : String) :
    directory tree home root = .ok (tagged home ('v' :: (tag version).tail)) ∧
    (directory tree home root = .ok (tagged home (tag version)) ↔
      startsNumeric version = true ∨ version.head? = some 'v') ∧
    ∀ {others : FileTree} {place : Path} {other : List Char}, Names others place other →
      '/' ∉ version → '/' ∉ other →
      (directory tree home root = directory others home place ↔ (tag version).tail = (tag other).tail) := by
  refine ⟨hnames.directory_eq_tagged home, ?_, ?_⟩
  · rw [hnames.directory_eq_tagged, Except.ok.injEq, tagged_letter_iff (tag_ne_nil hnames.nonempty),
      head?_tag_eq_letter_iff]
  · intro others place other hother hversion hslash
    have htail {chars : List Char} (hchars : '/' ∉ chars) : '/' ∉ 'v' :: (tag chars).tail := by
      rw [List.mem_cons, not_or]
      exact ⟨by decide, fun hmem => notMem_tag hchars (List.mem_of_mem_tail hmem)⟩
    rw [hnames.directory_eq_tagged, hother.directory_eq_tagged, Except.ok.injEq,
      tagged_inj (htail hversion) (htail hslash), List.cons_inj_right]

/-! ### Releases and channels -/

/-- A project that names a version. -/
def projectWith (content : String) : FileTree := ⟨["home"], [(["home", "proj", "lean-toolchain"], content)], []⟩

theorem names_projectWith {content : String} {version : List Char}
    (hcontent : Text.strip (Text.fileText content) = origin.toList ++ version) (hnil : version ≠ [])
    (hline : '\n' ∉ version) : Names (projectWith content) (.relative ["proj"]) version :=
  ⟨⟨content, FileTree.read_eq_ok_iff.2 rfl, hcontent⟩, hnil, hline⟩

theorem release_keeps_version :
    Names (projectWith " leanprover/lean4:4.24.0\n") (.relative ["proj"]) "4.24.0".toList ∧
    directory (projectWith " leanprover/lean4:4.24.0\n") "/h" (.relative ["proj"]) =
      .ok (.ofText "/h/.elan/toolchains/leanprover--lean4---v4.24.0") := by
  have hnames : Names (projectWith " leanprover/lean4:4.24.0\n") (.relative ["proj"]) "4.24.0".toList :=
    names_projectWith (by decide) (by decide) (by decide)
  have hpath : tagged "/h" (tag "4.24.0".toList) =
      .ofText "/h/.elan/toolchains/leanprover--lean4---v4.24.0" := by decide +kernel
  refine ⟨hnames, ?_⟩
  rw [(directory_keeps_version_iff hnames "/h").2.1.2 (.inl (by decide)), hpath]

/-- A version that is named after a channel loses its first letter. -/
theorem channel_loses_letter :
    Names (projectWith "leanprover/lean4:nightly-2024-01-01") (.relative ["proj"]) "nightly-2024-01-01".toList ∧
    directory (projectWith "leanprover/lean4:nightly-2024-01-01") "/h" (.relative ["proj"]) =
      .ok (.ofText "/h/.elan/toolchains/leanprover--lean4---vightly-2024-01-01") ∧
    directory (projectWith "leanprover/lean4:nightly-2024-01-01") "/h" (.relative ["proj"]) ≠
      .ok (tagged "/h" (tag "nightly-2024-01-01".toList)) := by
  have hnames : Names (projectWith "leanprover/lean4:nightly-2024-01-01") (.relative ["proj"])
      "nightly-2024-01-01".toList := names_projectWith (by decide) (by decide) (by decide)
  have hpath : tagged "/h" ('v' :: (tag "nightly-2024-01-01".toList).tail) =
      .ofText "/h/.elan/toolchains/leanprover--lean4---vightly-2024-01-01" := by decide +kernel
  rw [hnames.directory_eq_tagged]
  refine ⟨hnames, congrArg _ hpath, fun hsame => ?_⟩
  have hletter := (tagged_letter_iff (by decide)).1 (Except.ok.inj hsame)
  revert hletter
  decide

end ProofDump.Toolchain
