import Mathlib
import ProofDump.Project.Basic
import ProofDump.Proofs.Except
import ProofDump.Proofs.FileTree.Walk
import ProofDump.Proofs.Path

/-!
# Modules in hidden directories

Where hidden directories are left out, a walk skips the directories whose path begins with a dot, and does not
enter hidden directories from those that it does not skip. A directory that a walk comes to is therefore one
that it skips or one without a hidden name on the way to it, and `walk_shown` compares the two walks under this
invariant. The base directory itself is skipped too, since its path is a single dot.
-/

namespace ProofDump.Project

open FileTree

/-! ### Names on the way -/

def inHidden (names : List String) : Bool := names.any isHiddenName

/-- The directory is not the start, and no name on the way to it is hidden. -/
def isShown (names : List String) : Bool := !names.isEmpty && !inHidden names

theorem isHiddenName_text (name : String) (rest : List String) :
    isHiddenName (Path.relative (name :: rest)).text = isHiddenName name := by
  rw [isHiddenName, isHiddenName, Path.toList_text (.inr (List.cons_ne_nil _ _))]
  cases hname : name.toList with
  | nil => cases rest <;> simp [Path.relative, hname, List.intercalate_cons_cons]
  | cons c chars => cases rest <;> simp [Path.relative, hname, List.intercalate_cons_cons]

theorem skips_cons (name : String) (rest : List String) :
    Hidden.omitted.skips (name :: rest) = isHiddenName name :=
  isHiddenName_text name rest

theorem isShown_eq_false_of_skips {names : List String} (hskips : Hidden.omitted.skips names = true) :
    isShown names = false := by
  cases names with
  | nil => rfl
  | cons name rest =>
      rw [skips_cons] at hskips
      simp [isShown, inHidden, hskips]

theorem isShown_eq_false_of_below {front names : List String} (hlies : front <+: names)
    (hhidden : inHidden front = true) : isShown names = false := by
  obtain ⟨rest, rfl⟩ := hlies
  rw [inHidden] at hhidden
  simp [isShown, inHidden, List.any_append, hhidden]

/-! ### The two walks -/

/-- What a walk comes to that does not enter hidden directories from those that it does not skip. -/
def IsReached (names : List String) : Prop :=
  Hidden.omitted.skips names = true ∨ isShown names = true

theorem IsReached.concat {names : List String} {name : String} (hreached : IsReached names)
    (henters : Hidden.omitted.enters names name = true) : IsReached (names ++ [name]) := by
  rw [Hidden.enters, Bool.or_eq_true, Bool.not_eq_true'] at henters
  cases names with
  | nil =>
      rw [IsReached, List.nil_append, skips_cons]
      cases hname : isHiddenName name with
      | true => exact .inl rfl
      | false => exact .inr (by simp [isShown, inHidden, hname])
  | cons first rest =>
      rw [IsReached, List.cons_append, skips_cons]
      rw [IsReached, skips_cons] at hreached
      rw [skips_cons] at henters
      rcases henters with hfirst | hname
      · exact .inl hfirst
      · refine hreached.imp_right fun hshown => ?_
        simp [isShown, inHidden, List.any_append] at hshown ⊢
        exact ⟨hshown.1, hshown.2, hname⟩

theorem flatMap_filter_eq {α β : Type} {keep : α → Bool} {left right : α → List β} {members : List α}
    (hkept : ∀ a ∈ members, keep a = true → left a = right a)
    (hdropped : ∀ a ∈ members, keep a = false → right a = []) :
    (members.filter keep).flatMap left = members.flatMap right := by
  induction members with
  | nil => rfl
  | cons a members ih =>
      obtain ⟨hkeptHead, hkeptTail⟩ := List.forall_mem_cons.1 hkept
      obtain ⟨hdroppedHead, hdroppedTail⟩ := List.forall_mem_cons.1 hdropped
      rw [List.filter_cons, List.flatMap_cons]
      cases hkeep : keep a with
      | true => rw [if_pos rfl, List.flatMap_cons, hkeptHead hkeep, ih hkeptTail hdroppedTail]
      | false => rw [if_neg Bool.false_ne_true, hdroppedHead hkeep, ih hkeptTail hdroppedTail, List.nil_append]

/-- A walk that does not come to hidden directories finds what one that does finds outside of them. -/
theorem walk_shown (tree : FileTree) (start : List String) (text : String) {names : List String}
    (hreached : IsReached names) :
    (tree.walk Hidden.omitted.enters start text names).filter (fun visit => !Hidden.omitted.skips visit.names) =
      (tree.walk Hidden.listed.enters start text names).filter fun visit => isShown visit.names := by
  induction text, names using walkInduction tree start with
  | directory text names ih =>
      by_cases hshort : text.utf8ByteSize < pathBound
      · have hhead : (!Hidden.omitted.skips names) = isShown names := by
          cases hskips : Hidden.omitted.skips names with
          | true => rw [isShown_eq_false_of_skips hskips, Bool.not_true]
          | false =>
              rw [hreached.resolve_left (Bool.eq_false_iff.1 hskips), Bool.not_false]
        have hbelow : (((tree.directoriesAt (start ++ names)).filter (Hidden.omitted.enters names)).flatMap
              fun name => (tree.walk Hidden.omitted.enters start (joinPathText text name)
                (names ++ [name])).filter fun visit => !Hidden.omitted.skips visit.names) =
            (tree.directoriesAt (start ++ names)).flatMap fun name =>
              (tree.walk Hidden.listed.enters start (joinPathText text name) (names ++ [name])).filter
                fun visit => isShown visit.names := by
          apply flatMap_filter_eq
          · intro name hname henters
            exact ih name hname (hreached.concat henters)
          · intro name hname henters
            rw [List.filter_eq_nil_iff]
            intro visit hvisit
            rw [Hidden.enters, Bool.or_eq_false_iff, Bool.not_eq_false'] at henters
            obtain ⟨-, below, hbelow, -⟩ := visit_of_mem_walk hvisit
            rw [isShown_eq_false_of_below ⟨below, hbelow.symm⟩ (by simp [inHidden, henters.2])]
            exact Bool.false_ne_true
        rw [walk_of_short hshort, walk_of_short hshort, List.filter_cons, List.filter_cons,
          List.filter_flatMap, List.filter_flatMap, hhead, hbelow,
          List.filter_eq_self.2 fun name _ => show Hidden.listed.enters names name = true from rfl]
      · rw [walk_of_long hshort, walk_of_long hshort, List.filter_nil, List.filter_nil]

/-! ### Modules -/

theorem modulesIn_filter (keep : List String → Bool) (visits : List Visit) :
    (visits.filter fun visit => keep visit.names).flatMap modulesIn =
      (visits.flatMap modulesIn).filter fun module => keep module.dropLast := by
  have hmodules (visit : Visit) (module : List String) (hmodule : module ∈ modulesIn visit) :
      module.dropLast = visit.names := by
    obtain ⟨name, -, rfl⟩ := List.mem_map.1 hmodule
    exact List.dropLast_concat
  rw [List.filter_flatMap]
  apply flatMap_filter_eq
  · intro visit _ hkeep
    symm
    apply List.filter_eq_self.2
    intro module hmodule
    rw [hmodules visit module hmodule, hkeep]
  · intro visit _ hkeep
    apply List.filter_eq_nil_iff.2
    intro module hmodule
    rw [hmodules visit module hmodule, hkeep]
    exact Bool.false_ne_true

theorem modulesUnder_omitted (tree : FileTree) (directory : Path) :
    modulesUnder tree .omitted directory =
      (modulesUnder tree .listed directory).map (List.filter fun module => isShown module.dropLast) := by
  rw [modulesUnder, modulesUnder, walkFrom, walkFrom]
  split
  · rename_i start hstart
    have hwalk := walk_shown tree start directory.text (.inl (by decide) : IsReached [])
    show Except.ok _ = Except.ok _
    rw [hwalk, modulesIn_filter, List.filter_eq_self.2 fun _ _ => show (!Hidden.listed.skips _) = true from rfl]
  · rfl
  · rfl

theorem modules_omitted (tree : FileTree) (base : Path) :
    modules tree base .omitted =
      (modules tree base .listed).map (List.filter fun module => isShown module.dropLast) := by
  rw [modules, modules]
  cases sourceRoots tree base with
  | error fault => rfl
  | ok roots =>
      have hroots : roots.mapM (modulesUnder tree .omitted) =
          (roots.mapM (modulesUnder tree .listed)).map
            (List.map (List.filter fun module => isShown module.dropLast)) := by
        induction roots with
        | nil => rfl
        | cons root rest ih =>
            rw [List.mapM_cons, List.mapM_cons, ih, modulesUnder_omitted]
            cases modulesUnder tree .listed root with
            | error fault => rfl
            | ok found => cases rest.mapM (modulesUnder tree .listed) <;> rfl
      rw [ok_bind, ok_bind, hroots]
      cases roots.mapM (modulesUnder tree .listed) with
      | error fault => rfl
      | ok found => exact congrArg Except.ok List.filter_flatten.symm

theorem filter_isShown_perm_iff (all : List (List String)) :
    (all.filter fun module => isShown module.dropLast).Perm
        (all.filter fun module => !inHidden module.dropLast) ↔ ∀ module ∈ all, module.dropLast ≠ [] := by
  constructor
  · intro hperm module hmodule hnil
    have hmem : module ∈ all.filter fun module => !inHidden module.dropLast :=
      List.mem_filter.2 ⟨hmodule, by rw [hnil]; rfl⟩
    have hshown := (List.mem_filter.1 (hperm.mem_iff.2 hmem)).2
    rw [hnil] at hshown
    cases hshown
  · intro hnamed
    have hsame : (all.filter fun module => isShown module.dropLast) =
        all.filter fun module => !inHidden module.dropLast := by
      apply List.filter_congr
      intro module hmodule
      simp [isShown, hnamed module hmodule]
    rw [hsame]

/-- Without hidden directories exactly those modules are listed, in the same order, that lie in a directory and
in no hidden one. These are all that lie in no hidden directory only if every module lies in a directory. -/
theorem modules_outside_hidden (tree : FileTree) (base : Path) :
    modules tree base .omitted =
        (modules tree base .listed).map (List.filter fun module => isShown module.dropLast) ∧
      ∀ all shown, modules tree base .listed = .ok all → modules tree base .omitted = .ok shown →
        (shown.Perm (all.filter fun module => !inHidden module.dropLast) ↔
          ∀ module ∈ all, module.dropLast ≠ []) := by
  refine ⟨modules_omitted tree base, fun all shown hall hshown => ?_⟩
  rw [modules_omitted, hall] at hshown
  cases hshown
  exact filter_isShown_perm_iff all

/-- Modules that all lie in directories, some of them hidden at the start or further on. -/
def nestedSources : FileTree :=
  ⟨[], [(["proj", "B", "C.lean"], ""), (["proj", ".h", "D.lean"], ""), (["proj", "B", ".g", "E.lean"], ""),
    (["proj", ".h", "F", "G.lean"], "")], []⟩

theorem nestedSources_outside_hidden :
    modules nestedSources (.relative ["proj"]) .listed =
        .ok [["B", "C"], ["B", ".g", "E"], [".h", "D"], [".h", "F", "G"]] ∧
      modules nestedSources (.relative ["proj"]) .omitted = .ok [["B", "C"]] ∧
      [["B", "C"]].Perm ([["B", "C"], ["B", ".g", "E"], [".h", "D"], [".h", "F", "G"]].filter
        fun module => !inHidden module.dropLast) := by
  have hlisted : modules nestedSources (.relative ["proj"]) .listed =
      .ok [["B", "C"], ["B", ".g", "E"], [".h", "D"], [".h", "F", "G"]] := by
    decide +kernel
  have homitted : modules nestedSources (.relative ["proj"]) .omitted = .ok [["B", "C"]] := by
    decide +kernel
  exact ⟨hlisted, homitted,
    ((modules_outside_hidden nestedSources (.relative ["proj"])).2 _ _ hlisted homitted).2 (by decide)⟩

/-- A module beside a directory, with no hidden directory anywhere. -/
def flatSources : FileTree := ⟨[], [(["proj", "A.lean"], ""), (["proj", "B", "C.lean"], "")], []⟩

/-- A module that lies in no directory is left out together with the hidden ones. -/
theorem flatSources_lose_module :
    modules flatSources (.relative ["proj"]) .listed = .ok [["A"], ["B", "C"]] ∧
      modules flatSources (.relative ["proj"]) .omitted = .ok [["B", "C"]] ∧
      ¬ [["B", "C"]].Perm ([["A"], ["B", "C"]].filter fun module => !inHidden module.dropLast) := by
  refine ⟨by decide +kernel, by decide +kernel, by decide⟩

end ProofDump.Project
