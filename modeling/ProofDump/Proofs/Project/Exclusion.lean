import ProofDump.Flat.Searches
import ProofDump.Proofs.Project.Search
import ProofDump.Proofs.Value

/-!
# Excluded modules

A list of dotted names to exclude counts for the modules below a searched directory, not for the module of the
search itself. So the modules that are found although they are to be excluded are those of searches which are
excluded themselves and have a source, and information is read about them as about all others.
-/

namespace ProofDump

namespace Project

/-- The dotted name of a module is in a list. -/
def IsListed (names : List Value) (module : List String) : Prop := Value.str (".".intercalate module) ∈ names

theorem isLeftOut_arr_iff {names : List Value} {module : List String} :
    isLeftOut (some (.arr names)) module = .ok true ↔ IsListed names module := by
  show Except.ok (names.any (·.same (.str (".".intercalate module)))) = .ok true ↔ _
  rw [Except.ok.injEq, List.any_eq_true, IsListed]
  simp only [Value.same_str_iff, exists_eq_right]

theorem isListed_splitAt_iff {names : List Value} {text : String} :
    IsListed names (Text.splitAt '.' text) ↔ Value.str text ∈ names := by
  rw [IsListed, Text.intercalate_splitAt rfl]

theorem not_isListed_of_mem_modulesBelow {tree : FileTree} {names : List Value} {directory start : Path}
    {modules : List (List String)} (hmodules : modulesBelow tree (some (.arr names)) directory start = .ok modules)
    {module : List String} (hmodule : module ∈ modules) : ¬ IsListed names module := by
  obtain ⟨found, -, hfound⟩ := exists_of_mem_filterMapM hmodules hmodule
  obtain ⟨way, -, hfound⟩ := bind_eq_ok.1 hfound
  obtain ⟨named, -, hfound⟩ := bind_eq_ok.1 hfound
  obtain ⟨isOut, hisOut, hfound⟩ := bind_eq_ok.1 hfound
  cases isOut with
  | true => cases hfound
  | false =>
      cases hfound
      intro hlisted
      rw [isLeftOut_arr_iff.2 hlisted] at hisOut
      cases hisOut

/-! ### One search -/

/-- The module that a search is for has something in the place of its source. -/
def HasSource (tree : FileTree) (root text : String) : Prop :=
  tree.holds (moduleText root (Text.splitAt '.' text) ++ ".lean") = true

/-- What is found is the module of the search, if it has a source, and modules below a directory. -/
theorem search_eq_ok {tree : FileTree} {root text : String} {excluded : Option Value} {modules : List (List String)}
    (hsearch : search (some tree) root excluded (.str text) = .ok modules) :
    ∃ own below, modules = own ++ below ∧
      (∀ module, module ∈ own ↔ module = Text.splitAt '.' text ∧ HasSource tree root text) ∧
      (below = [] ∨ ∃ directory start, modulesBelow tree excluded directory start = .ok below) := by
  rw [search, sourceOf?_splitAt, ok_bind, sourceOf?_splitAt, ok_bind] at hsearch
  simp only [Bool.not_true, Bool.false_and, Bool.false_eq_true, if_false, Option.isSome_ite] at hsearch
  have hown (module : List String) :
      module ∈ (if tree.holds (moduleText root (Text.splitAt '.' text) ++ ".lean") = true then
        [Text.splitAt '.' text] else []) ↔ module = Text.splitAt '.' text ∧ HasSource tree root text := by
    rw [HasSource]
    split <;> simp [*]
  split at hsearch
  · rename_i other _ htree
    obtain rfl : tree = other := Option.some.inj htree
    obtain ⟨below, hbelow, hmodules⟩ := bind_eq_ok.1 hsearch
    exact ⟨_, below, (Except.ok.inj hmodules).symm, hown, .inr ⟨_, _, hbelow⟩⟩
  · exact ⟨_, [], (Except.ok.inj hsearch).symm.trans (List.append_nil _).symm, hown, .inl rfl⟩

theorem mem_search_and_isListed_iff {tree : FileTree} {root text : String} {names : List Value}
    {modules : List (List String)}
    (hsearch : search (some tree) root (some (.arr names)) (.str text) = .ok modules) (module : List String) :
    module ∈ modules ∧ IsListed names module ↔
      module = Text.splitAt '.' text ∧ Value.str text ∈ names ∧ HasSource tree root text := by
  obtain ⟨own, below, rfl, hown, hbelow⟩ := search_eq_ok hsearch
  rw [List.mem_append, hown]
  constructor
  · rintro ⟨⟨rfl, hsource⟩ | hmodule, hlisted⟩
    · exact ⟨rfl, isListed_splitAt_iff.1 hlisted, hsource⟩
    · rcases hbelow with rfl | ⟨directory, start, hbelow⟩
      · cases hmodule
      · exact absurd hlisted (not_isListed_of_mem_modulesBelow hbelow hmodule)
  · rintro ⟨rfl, hlisted, hsource⟩
    exact ⟨.inl ⟨rfl, hsource⟩, isListed_splitAt_iff.2 hlisted⟩

end Project

namespace Flat

open Project

/-! ### Many searches -/

theorem searchAll_eq_ok {tree : FileTree} {root : String} {excluded : Option Value} {texts : List String}
    {modules : List (List String)} (hmodules : searchAll tree root excluded (.texts texts) = .ok modules) :
    ∃ results, (texts.map Value.str).mapM (search (some tree) root excluded) = .ok results ∧
      results.flatten = modules := by
  obtain ⟨results, hresults, hflatten⟩ := bind_eq_ok.1
    (show (texts.map Value.str).mapM (search (some tree) root excluded) >>= (fun results => .ok results.flatten) =
      .ok modules from hmodules)
  exact ⟨results, hresults, Except.ok.inj hflatten⟩

theorem mem_searchAll_and_isListed_iff {tree : FileTree} {root : String} {names : List Value}
    {texts : List String} {modules : List (List String)}
    (hmodules : searchAll tree root (some (.arr names)) (.texts texts) = .ok modules) (module : List String) :
    module ∈ modules ∧ IsListed names module ↔
      ∃ text ∈ texts, module = Text.splitAt '.' text ∧ Value.str text ∈ names ∧ HasSource tree root text := by
  obtain ⟨results, hresults, rfl⟩ := searchAll_eq_ok hmodules
  rw [List.mem_flatten]
  constructor
  · rintro ⟨⟨found, hfound, hmodule⟩, hlisted⟩
    obtain ⟨value, hvalue, hsearch⟩ := exists_of_mem_mapM hresults hfound
    obtain ⟨text, htext, rfl⟩ := List.mem_map.1 hvalue
    exact ⟨text, htext, (mem_search_and_isListed_iff hsearch module).1 ⟨hmodule, hlisted⟩⟩
  · rintro ⟨text, htext, hsearched⟩
    have hvalue := List.mem_map_of_mem (f := Value.str) htext
    obtain ⟨found, hsearch⟩ := exists_ok_of_mapM hresults _ hvalue
    obtain ⟨hmodule, hlisted⟩ := (mem_search_and_isListed_iff hsearch module).2 hsearched
    exact ⟨⟨found, mem_of_mapM_eq_ok hresults hvalue hsearch, hmodule⟩, hlisted⟩

/-- Information is read about the modules that are found, in their order. -/
theorem gather_eq_ok {tree : FileTree} {root : String} {excluded : Option Value} {searches : Value}
    {entries : List (List String × String)} (hentries : gather tree root excluded searches = .ok entries) :
    ∃ made, tree.makeDirectories (.ofText (root ++ "/.jixiaw_test")) = .ok made ∧
      searchAll made (Project.ofText root).root.text excluded searches = .ok (entries.map Prod.fst) := by
  obtain ⟨made, hmade, hentries⟩ := bind_eq_ok.1 hentries
  obtain ⟨modules, hmodules, hentries⟩ := bind_eq_ok.1 hentries
  refine ⟨made, hmade, ?_⟩
  have hfirst : entries.map Prod.fst = modules.map id := by
    apply map_of_mapM hentries
    intro module _ entry hentry
    obtain ⟨info, -, hentry⟩ := bind_eq_ok.1 hentry
    cases hentry
    rfl
  rw [hfirst, List.map_id]
  exact hmodules

/-- A search finds a module that is to be excluded exactly when it is a search for this module and there is a
source. So the modules to be excluded among those that searches find, and among those about which information is
then read, are the ones that are searched for themselves. -/
theorem excluded_found_iff_searched (tree : FileTree) (root : String) (names : List Value) :
    (∀ text modules, search (some tree) root (some (.arr names)) (.str text) = .ok modules →
      ∀ module, module ∈ modules ∧ IsListed names module ↔
        module = Text.splitAt '.' text ∧ Value.str text ∈ names ∧ HasSource tree root text) ∧
    (∀ texts modules, searchAll tree root (some (.arr names)) (.texts texts) = .ok modules →
      ∀ module, module ∈ modules ∧ IsListed names module ↔
        ∃ text ∈ texts, module = Text.splitAt '.' text ∧ Value.str text ∈ names ∧ HasSource tree root text) ∧
    ∀ texts entries, gather tree root (some (.arr names)) (.texts texts) = .ok entries →
      ∃ made, tree.makeDirectories (.ofText (root ++ "/.jixiaw_test")) = .ok made ∧
        ∀ module, module ∈ entries.map Prod.fst ∧ IsListed names module ↔
          ∃ text ∈ texts, module = Text.splitAt '.' text ∧ Value.str text ∈ names ∧
            HasSource made (Project.ofText root).root.text text := by
  refine ⟨?_, ?_, ?_⟩
  · intro text modules hsearch
    exact mem_search_and_isListed_iff hsearch
  · intro texts modules hmodules
    exact mem_searchAll_and_isListed_iff hmodules
  · intro texts entries hentries
    obtain ⟨made, hmade, hmodules⟩ := gather_eq_ok hentries
    exact ⟨made, hmade, mem_searchAll_and_isListed_iff hmodules⟩

/-- A module beside the directory of its name, and information about the modules there. -/
def analysedTree : FileTree where
  here := ["home"]
  files := [(["home", "proj", "A", "B.lean"], ""), (["home", "proj", "A", "B", "C.lean"], ""),
    (["home", "proj", "A", "D.lean"], ""), (["home", "proj", ".jixia", "A.B.mod.json"], "b"),
    (["home", "proj", ".jixia", "A.B.C.mod.json"], "c")]
  directories := []

theorem analysedTree_gathered :
    gather analysedTree "proj" (some (.texts ["A.B", "A.D"])) (.texts ["A.B", "A"]) =
        .ok [(["A", "B"], "b"), (["A", "B", "C"], "c"), (["A", "B", "C"], "c")] ∧
      ∃ made, analysedTree.makeDirectories (.ofText ("proj" ++ "/.jixiaw_test")) = .ok made ∧
        ∀ module, module ∈ [["A", "B"], ["A", "B", "C"], ["A", "B", "C"]] ∧
            IsListed [.str "A.B", .str "A.D"] module ↔
          ∃ text ∈ ["A.B", "A"], module = Text.splitAt '.' text ∧
            Value.str text ∈ [Value.str "A.B", .str "A.D"] ∧ HasSource made (Project.ofText "proj").root.text text := by
  have hentries : gather analysedTree "proj" (some (.texts ["A.B", "A.D"])) (.texts ["A.B", "A"]) =
      .ok [(["A", "B"], "b"), (["A", "B", "C"], "c"), (["A", "B", "C"], "c")] := by
    decide +kernel
  exact ⟨hentries, (excluded_found_iff_searched analysedTree "proj" _).2.2 _ _ hentries⟩

/-- A search for a module that is to be excluded finds it. -/
theorem excluded_search_finds_own_module :
    search (some analysedTree) "proj" (some (.arr [.str "A.B"])) (.str "A.B") = .ok [["A", "B"], ["A", "B", "C"]] ∧
      IsListed [.str "A.B"] ["A", "B"] := by
  refine ⟨by decide +kernel, ?_⟩
  exact isListed_splitAt_iff.2 (List.mem_singleton_self _)

end Flat

end ProofDump
