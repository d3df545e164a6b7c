import Mathlib
import ProofDump.Project.Basic
import ProofDump.Proofs.FileTree.Follow

/-!
# Listing modules and locating their sources

A module is listed because a source lies below the base directory or below a package, and its names are the
names on the way with the suffix cut off. Putting the suffix back gives the way again, so the module is located:
in the base directory if that file is there, otherwise in a package. Only the length of a path can keep the
two from agreeing.
-/

namespace ProofDump

open FileTree

/-! ### The suffix of sources -/

/-- The names that lead to the source of a module in the given directories. -/
def sourceNames (directories : List String) (stem : String) : List String := directories ++ [stem ++ ".lean"]

theorem isSourceName_iff {name : String} : isSourceName name = true ↔ ∃ stem, name = stem ++ ".lean" := by
  rw [isSourceName, Text.startsWith_iff, List.reverse_prefix]
  constructor
  · rintro ⟨chars, hchars⟩
    refine ⟨String.ofList chars, ?_⟩
    rw [← String.toList_inj, String.toList_append, String.toList_ofList, hchars]
  · rintro ⟨stem, rfl⟩
    rw [String.toList_append]
    exact List.suffix_append _ _

namespace Project

/-- The base directory and the packages in it. -/
def sourceDirectories (tree : FileTree) (base : Path) : List Path :=
  base :: (tree.directoriesIn (packages base)).map fun name => (packages base).join (.relative [name])

/-- Where the source that these names lead to is looked for, one after the other. -/
def candidates (tree : FileTree) (base : Path) (names : List String) : List Path :=
  (sourceDirectories tree base).map (·.join (.relative names))

/-- Into a directory and back out of it, again and again. -/
def windingNames : Nat → List String
  | 0 => ["proj"]
  | turns + 1 => "proj" :: ".." :: windingNames turns

theorem windingNames_ne_nil (turns : Nat) : windingNames turns ≠ [] := by
  cases turns <;> exact List.cons_ne_nil _ _

theorem mem_windingNames {turns : Nat} {name : String} (hname : name ∈ windingNames turns) :
    name = "proj" ∨ name = ".." := by
  induction turns with
  | zero => exact .inl (List.mem_singleton.1 hname)
  | succ turns ih =>
      rcases List.mem_cons.1 hname with hname | hname
      · exact .inl hname
      · exact (List.mem_cons.1 hname).elim .inr ih

theorem size_windingNames (turns : Nat) :
    (Path.relative (windingNames turns)).text.utf8ByteSize = 4 + 8 * turns := by
  rw [Path.text_relative (windingNames_ne_nil turns)]
  induction turns with
  | zero => decide
  | succ turns ih =>
      rw [windingNames, String.intercalate_cons_of_ne_nil (List.cons_ne_nil _ _),
        String.intercalate_cons_of_ne_nil (windingNames_ne_nil turns)]
      simp only [String.utf8ByteSize_append, ih]
      rw [show "proj".utf8ByteSize = 4 by decide, show "/".utf8ByteSize = 1 by decide,
        show "..".utf8ByteSize = 2 by decide]
      omega

theorem follow_windingNames {tree : FileTree} (hdirectory : tree.isDirectoryAt ["proj"] = true)
    (turns : Nat) : tree.follow [] (windingNames turns) = .ok ["proj"] := by
  have hroot : tree.isDirectoryAt [] = true := rfl
  induction turns with
  | zero => rw [windingNames, follow_name (by decide) hroot]; rfl
  | succ turns ih =>
      rw [windingNames, follow_name (by decide) hroot, follow, List.nil_append, if_pos hdirectory,
        if_neg (by decide), if_pos rfl]
      exact ih

def windingPath : Path := .relative (windingNames 509)

theorem windingPath_isProper : windingPath.IsProper where
  slashes := by decide
  parts := by
    intro name hname
    rcases mem_windingNames hname with rfl | rfl <;> decide

theorem size_windingPath_join {names : List String} (hnil : names ≠ []) :
    (windingPath.join (.relative names)).text.utf8ByteSize = 4077 + ("/".intercalate names).utf8ByteSize := by
  have hwinding := size_windingNames 509
  rw [Path.text_relative (windingNames_ne_nil 509)] at hwinding
  have hjoin : windingPath.join (.relative names) = .relative (windingNames 509 ++ names) := rfl
  rw [hjoin, Path.text_relative (by simp [hnil]), String.intercalate_append_of_ne_nil (windingNames_ne_nil 509) hnil,
    String.utf8ByteSize_append, String.utf8ByteSize_append, hwinding]
  rfl

theorem locate_windingPath {tree : FileTree} (hhere : tree.here = [])
    (hdirectory : tree.isDirectoryAt ["proj"] = true) : tree.locate windingPath.text = .ok ["proj"] := by
  refine (locate_eq_ok_iff windingPath_isProper).2 ⟨?_, ?_, ?_⟩
  · rw [Path.mem_text_iff (by decide) (by decide)]
    rintro ⟨name, hname, hnull⟩
    rcases mem_windingNames hname with rfl | rfl <;> revert hnull <;> decide
  · rw [windingPath, size_windingNames]
    decide
  · rw [stops, if_neg (show windingPath.parts ≠ [] from windingNames_ne_nil 509), origin, hhere, ite_self]
    exact follow_windingNames hdirectory 509

end Project

end ProofDump
