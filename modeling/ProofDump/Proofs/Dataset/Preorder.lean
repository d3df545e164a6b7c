import ProofDump.Proofs.Dataset.Layouts

/-!
# Tactic entries in the order of the source

The walk meets the nodes of a list of trees in the order of their addresses (`IsListing`). Entries are sorted by
where their ranges start, and the sort is stable, so those that start at one position stay in the order of the
walk.
-/

namespace ProofDump.Dataset

/-- An entry starts before another one, or they start together and its node has the smaller address. -/
def Precedes (place other : List Nat × Tactic) : Prop :=
  place.2.start < other.2.start ∨ place.2.start = other.2.start ∧ place.1 < other.1

theorem tacticsAt_pairwise {places : List (List Nat × Value)}
    (hordered : places.Pairwise fun place other => place.1 < other.1) :
    (tacticsAt places).Pairwise fun place other => place.1 < other.1 := by
  refine hordered.filterMap _ fun place other hless one hone two htwo => ?_
  obtain ⟨-, -, rfl⟩ := Option.map_eq_some_iff.1 hone
  obtain ⟨-, -, rfl⟩ := Option.map_eq_some_iff.1 htwo
  exact hless

/-- The tactic entries of well-formed trees, the same in both layouts. Every node with a tactic has one entry, in
the order of where the ranges start, and those that start together stand in preorder. Only a tactic that is no
table stops the walk, and it stops both layouts with the same fault. -/
theorem tactic_entries_in_source_order {trees : List Value} (htrees : ∀ tree ∈ trees, IsNode tree) :
    (TacticsAreTables trees →
      ∃ found : List (List Nat × Tactic),
        (∀ layout, tacticEntries layout (.arr trees) = .ok (found.map fun place => place.2.entry)) ∧
        (∀ address tactic, (address, tactic) ∈ found ↔
          ∃ node, nodeAt? trees address = some node ∧ tacticOf? node = some tactic) ∧
        (found.map Prod.fst).Nodup ∧ found.Pairwise Precedes) ∧
    (¬TacticsAreTables trees → ∃ fault, ∀ layout, tacticEntries layout (.arr trees) = .error fault) := by
  refine ⟨fun htables => ?_, tacticEntries_eq_error htrees⟩
  obtain ⟨places, hwalk, hlisting⟩ := exists_listing htrees
  have hordered := tacticsAt_pairwise hlisting.ordered
  obtain ⟨found, hsort, hsorted⟩ := sortByStart_map (fun _ => rfl : ∀ place : List Nat × Tactic,
    startOf place.2.entry = .ok (.int place.2.start)) (tacticsAt places)
  refine ⟨found, fun layout => ?_, fun address tactic => ?_, ?_, hsorted.pairwise hordered⟩
  · rw [tacticEntries_eq_sorted htrees hwalk hlisting htables, hsort]
  · rw [hsorted.mem_iff, mem_tacticsAt]
    simp only [hlisting.mem_iff]
  · have haddresses : ((tacticsAt places).map Prod.fst).Nodup :=
      (List.pairwise_map.2 hordered).imp fun hless => hless.ne
    exact (hsorted.perm.map Prod.fst).nodup_iff.2 haddresses

/-- With the same tree twice every start occurs twice, among them the start that stands in for a missing range. -/
theorem overlapTrees_twice_in_source_order :
    (∀ tree ∈ overlapTrees ++ overlapTrees, IsNode tree) ∧ TacticsAreTables (overlapTrees ++ overlapTrees) ∧
    ∃ found : List (List Nat × Tactic),
      (∀ layout, tacticEntries layout (.arr (overlapTrees ++ overlapTrees)) =
        .ok (found.map fun place => place.2.entry)) ∧
      (∃ tactic, ([0, 2], tactic) ∈ found ∧ tactic.start = 0) ∧
      (∃ tactic, ([1, 2], tactic) ∈ found ∧ tactic.start = 0) ∧ found.Pairwise Precedes := by
  have hshape := List.forall_mem_append.2 ⟨overlapTrees_shape, overlapTrees_shape⟩
  have htables : TacticsAreTables (overlapTrees ++ overlapTrees) :=
    List.forall_mem_append.2 ⟨overlapTrees_tables, overlapTrees_tables⟩
  obtain ⟨found, hentries, hmem, -, hordered⟩ := (tactic_entries_in_source_order hshape).1 htables
  exact ⟨hshape, htables, found, hentries, ⟨_, (hmem [0, 2] _).2 ⟨_, rfl, rfl⟩, rfl⟩,
    ⟨_, (hmem [1, 2] _).2 ⟨_, rfl, rfl⟩, rfl⟩, hordered⟩

end ProofDump.Dataset
