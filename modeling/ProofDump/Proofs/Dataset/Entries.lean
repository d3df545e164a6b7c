import ProofDump.Dataset.Entries
import ProofDump.Proofs.Dataset.Walk
import ProofDump.Proofs.Except
import ProofDump.Proofs.Sorting

/-!
# The entries of a dump

A declaration and an elaboration tree of the usual shape give entries of a fixed form, written here as
the structures `Declared` and `Tactic`. The tactic entries do not depend on the layout
(`tacticEntries_eq_ok`), and the theorems of the grouped layout are those of the stepped one that have a
type, in the same order (`theoremEntries_eq_ok`): the sort is stable, so that it does not matter that
one layout drops theorems before it sorts.
-/

namespace ProofDump.Dataset

/-! ### What a dump looks like -/

def IsDeclaration (declaration : Value) : Prop :=
  declaration.IsRecord ∧ IsRange (declaration.part "range")

/-- The tactic of a node, if it has one, is a table. -/
def TacticIsTable (node : Value) : Prop :=
  ∀ tactic, (node.part "info").key "tactic" = .ok tactic → tactic.IsRecord

def TacticsAreTables (trees : List Value) : Prop :=
  ∀ tree ∈ trees, ∀ node, InTree node tree → TacticIsTable node

/-! ### Ranges -/

/-- The ends of a range, or those that stand in for a range that was left out. -/
def ends (fallback : Int × Int) (range : Value) : Int × Int :=
  match range with
  | .arr [.int start, .int stop] => (start, stop)
  | _ => fallback

theorem orElse_range {range : Value} (hrange : IsRange range) (fallback : Int × Int) :
    orElse range (.arr [.int fallback.1, .int fallback.2]) =
      .arr [.int (ends fallback range).1, .int (ends fallback range).2] := by
  rcases hrange with rfl | ⟨start, stop, rfl⟩
  · rfl
  · rfl

/-- Sorting entries sorts what they were made from. -/
theorem sortByStart_map {α : Type} {entry : α → Value} {start : α → Int}
    (hstart : ∀ a, startOf (entry a) = .ok (.int (start a))) (members : List α) :
    ∃ sorted, sortByStart (members.map entry) = .ok (sorted.map entry) ∧
      Sorting.IsStableSort start members sorted := by
  have hkeyed : (members.map entry).mapM (fun entry => do return (← startOf entry, entry)) =
      .ok (members.map fun a => (Value.int (start a), entry a)) := by
    rw [List.mapM_map]
    apply mapM_eq_ok_map
    intro a _
    rw [Function.comp_apply, hstart]
    rfl
  obtain ⟨sorted, hsort, hsorted⟩ := Sorting.sortM_map_eq_pure (fun a b : Value × Value => a.1.less b.1)
    (fun a => a.1.asInt) (fun a => (Value.int (start a), entry a)) fun a (_ : a ∈ members) b _ =>
      Value.less_int (start a) (start b)
  refine ⟨sorted, ?_, hsorted⟩
  rw [sortByStart, hkeyed, ok_bind, hsort, pure_bind, List.map_map]
  rfl

/-! ### Theorems -/

/-- What a theorem entry says. -/
structure Declared where
  name : Value
  type : Value
  start : Int
  stop : Int

def Declared.entry (declared : Declared) : Value :=
  .obj [("name", declared.name), ("type", declared.type),
    ("range", .arr [.int declared.start, .int declared.stop])]

/-- What the entry of a declaration says. A declaration without a range is everywhere. -/
def declaredOf (declaration : Value) : Declared where
  name := declaration.part "name"
  type := declaration.part "type"
  start := (ends (0, 1000000000000) (declaration.part "range")).1
  stop := (ends (0, 1000000000000) (declaration.part "range")).2

/-- Whether the layout has an entry for a declaration. -/
def Layout.wants (layout : Layout) (declared : Declared) : Bool :=
  match layout with
  | .grouped => declared.name.truthy && declared.type.truthy
  | .stepped => declared.name.truthy

theorem theoremEntryOf?_eq_ok {declaration : Value} (hdeclaration : IsDeclaration declaration)
    (layout : Layout) :
    theoremEntryOf? layout declaration =
      .ok (if layout.wants (declaredOf declaration) then some (declaredOf declaration).entry else none) := by
  obtain ⟨hrecord, hrange⟩ := hdeclaration
  rw [theoremEntryOf?, hrecord.find, hrecord.find, hrecord.find]
  have hentry : (declaredOf declaration).entry = .obj [("name", declaration.part "name"),
      ("type", declaration.part "type"),
      ("range", orElse (declaration.part "range") (.arr [.int 0, .int 1000000000000]))] := by
    rw [orElse_range hrange (0, 1000000000000)]
    rfl
  rw [hentry]
  show (if layout.wants (declaredOf declaration) then Except.ok (some _) else Except.ok none) = _
  cases layout.wants (declaredOf declaration) with
  | true => rfl
  | false => rfl

theorem theoremEntries_eq_ok {declarations : List Value}
    (hdeclarations : ∀ declaration ∈ declarations, IsDeclaration declaration) :
    ∃ theorems : List Declared,
      theoremEntries .stepped (.arr declarations) = .ok (theorems.map Declared.entry) ∧
      theoremEntries .grouped (.arr declarations) =
        .ok ((theorems.filter (·.type.truthy)).map Declared.entry) := by
  have hentries (layout : Layout) : theoremEntries layout (.arr declarations) =
      sortByStart (((declarations.map declaredOf).filter layout.wants).map Declared.entry) := by
    have hwalk : declarations.filterMapM (theoremEntryOf? layout) =
        .ok (((declarations.map declaredOf).filter layout.wants).map Declared.entry) := by
      rw [List.filter_map, List.map_map]
      have hkept := filterMapM_map_eq_ok (h := id) fun declaration hdeclaration =>
        theoremEntryOf?_eq_ok (hdeclarations declaration hdeclaration) layout
      rwa [List.map_id] at hkept
    show declarations.filterMapM (theoremEntryOf? layout) >>= sortByStart = _
    rw [hwalk]
    rfl
  have hfilter : (declarations.map declaredOf).filter Layout.grouped.wants =
      ((declarations.map declaredOf).filter Layout.stepped.wants).filter (·.type.truthy) := by
    rw [List.filter_filter]
    congr 1
    funext declared
    exact Bool.and_comm _ _
  obtain ⟨theorems, hstepped, hsorted⟩ := sortByStart_map (fun _ => rfl : ∀ declared : Declared,
    startOf declared.entry = .ok (.int declared.start)) ((declarations.map declaredOf).filter
      Layout.stepped.wants)
  obtain ⟨typed, hgrouped, htyped⟩ := sortByStart_map (fun _ => rfl : ∀ declared : Declared,
    startOf declared.entry = .ok (.int declared.start)) ((declarations.map declaredOf).filter
      Layout.grouped.wants)
  -- One layout filters before it sorts; there is only one stable sort of what is left.
  refine ⟨theorems, (hentries .stepped).trans hstepped, (hentries .grouped).trans ?_⟩
  rw [hfilter] at htyped
  rw [hgrouped, htyped.unique (hsorted.filter _)]

/-! ### Tactics -/

/-- What a tactic entry says. -/
structure Tactic where
  text : Value
  start : Int
  stop : Int
  before : Value
  after : Value
  references : Value

def Tactic.entry (tactic : Tactic) : Value :=
  .obj [("tactic_text", tactic.text), ("range", .arr [.int tactic.start, .int tactic.stop]),
    ("semantic_before", tactic.before), ("semantic_after", tactic.after),
    ("references", tactic.references)]

/-- What the entry of a node says, if the node has a tactic. -/
def tacticOf? (node : Value) : Option Tactic :=
  match (node.part "info").key "tactic" with
  | .ok tactic => some {
      text := (node.part "ref").part "pp"
      start := (ends (0, 0) ((node.part "ref").part "range")).1
      stop := (ends (0, 0) ((node.part "ref").part "range")).2
      before := tactic.part "before"
      after := tactic.part "after"
      references := tactic.part "references" }
  | .error _ => none

section Node

variable {node : Value}

theorem IsNode.info (hnode : IsNode node) :
    ∃ fields, node.find "info" (.obj []) = .ok (.obj fields) ∧
      ∀ tactic, (node.part "info").key "tactic" = .ok tactic ↔ Fields.get? fields "tactic" = some tactic := by
  cases hnode with
  | @node fields hinfo =>
      cases hget : Fields.get? fields "info" with
      | none =>
          refine ⟨[], ?_, fun tactic => ?_⟩
          · rw [Value.find, hget]
            rfl
          · rw [Value.part, hget]
            simp [Value.key, Fields.get?]
      | some info =>
          obtain ⟨parts, rfl⟩ := hinfo info hget
          refine ⟨parts, ?_, fun tactic => ?_⟩
          · rw [Value.find, hget]
            rfl
          · rw [Value.part, hget, Option.getD_some, Value.key_eq_ok_iff]
            simp

theorem IsNode.ref (hnode : IsNode node) :
    ∃ ref, node.find "ref" (.obj []) = .ok ref ∧ ref.IsRecord ∧ IsRange (ref.part "range") ∧
      ∀ name, (node.part "ref").part name = ref.part name := by
  cases hnode with
  | @node fields _ href =>
      cases hget : Fields.get? fields "ref" with
      | none =>
          refine ⟨.obj [], ?_, ⟨[], rfl⟩, .inl rfl, fun name => ?_⟩
          · rw [Value.find, hget]
            rfl
          · rw [Value.part, hget]
            rfl
      | some ref =>
          refine ⟨ref, ?_, (href ref hget).1, (href ref hget).2, fun name => ?_⟩
          · rw [Value.find, hget]
            rfl
          · rw [Value.part, hget]
            rfl

/-- A node without a tactic has no entry. -/
theorem IsNode.tacticEntryOf?_eq_none (hnode : IsNode node)
    (htactic : ∀ tactic, (node.part "info").key "tactic" ≠ .ok tactic) (layout : Layout) :
    tacticEntryOf? layout node = .ok none := by
  obtain ⟨ref, hfind, -⟩ := hnode.ref
  obtain ⟨info, hfindInfo, hinfo⟩ := hnode.info
  have hget : Fields.get? info "tactic" = none := by
    rw [Option.eq_none_iff_forall_ne_some]
    exact fun tactic hget => htactic tactic ((hinfo tactic).2 hget)
  have hmentions : mentions (.obj info) "tactic" = .ok false := by
    rw [mentions, hget]
    rfl
  rw [tacticEntryOf?, hfindInfo, ok_bind, hfind, ok_bind, hmentions, ok_bind]
  rfl

/-- The layouts look for the tactic in two ways and find the same. -/
theorem IsNode.tacticEntryOf?_eq_find (hnode : IsNode node) {tactic : Value}
    (htactic : (node.part "info").key "tactic" = .ok tactic) (layout : Layout) :
    tacticEntryOf? layout node = do
      let before ← tactic.find "before" .null
      let after ← tactic.find "after" .null
      let references ← tactic.find "references" .null
      return some (.obj [("tactic_text", (node.part "ref").part "pp"),
        ("range", orElse ((node.part "ref").part "range") (.arr [.int 0, .int 0])),
        ("semantic_before", before), ("semantic_after", after), ("references", references)]) := by
  obtain ⟨ref, hfind, hrecord, -, hpart⟩ := hnode.ref
  obtain ⟨info, hfindInfo, hinfo⟩ := hnode.info
  have hget := (hinfo tactic).1 htactic
  have hmentions : mentions (.obj info) "tactic" = .ok true := by
    rw [mentions, hget]
    rfl
  have hpartTactic : tacticPart layout (.obj info) = .ok tactic := by
    cases layout with
    | grouped =>
        rw [tacticPart, Value.find, hget]
        rfl
    | stepped => rw [tacticPart, Value.key, hget]
  rw [tacticEntryOf?, hfindInfo, ok_bind, hfind, ok_bind, hmentions, ok_bind, hpartTactic, hpart, hpart]
  simp only [Bool.not_true, Bool.false_eq_true, if_false, ok_bind, hrecord.find]

theorem IsNode.tacticEntryOf?_eq_ok (hnode : IsNode node) (htable : TacticIsTable node) (layout : Layout) :
    tacticEntryOf? layout node = .ok ((tacticOf? node).map Tactic.entry) := by
  rw [tacticOf?]
  cases htactic : (node.part "info").key "tactic" with
  | error fault => exact hnode.tacticEntryOf?_eq_none (by simp [htactic]) layout
  | ok tactic =>
      obtain ⟨ref, -, -, hrange, hpart⟩ := hnode.ref
      have hrecord := htable tactic htactic
      rw [hnode.tacticEntryOf?_eq_find htactic, hrecord.find, hrecord.find, hrecord.find, hpart "range",
        orElse_range hrange (0, 0)]
      simp only [ok_bind, Option.map_some, Tactic.entry, hpart]
      rfl

theorem IsNode.tacticEntryOf?_eq_error (hnode : IsNode node) (hnot : ¬TacticIsTable node) :
    ∃ fault, ∀ layout, tacticEntryOf? layout node = .error fault := by
  simp only [TacticIsTable, not_forall] at hnot
  obtain ⟨tactic, htactic, hrecord⟩ := hnot
  refine ⟨.noAttribute tactic.kind "get", fun layout => ?_⟩
  rw [hnode.tacticEntryOf?_eq_find htactic]
  cases tactic with
  | obj fields => exact absurd ⟨fields, rfl⟩ hrecord
  | _ => rfl

end Node

/-! ### The tactics of trees -/

/-- The tactics of the nodes that have one, with the addresses of these nodes. -/
def tacticsAt (places : List (List Nat × Value)) : List (List Nat × Tactic) :=
  places.filterMap fun place => (tacticOf? place.2).map fun tactic => (place.1, tactic)

theorem mem_tacticsAt {places : List (List Nat × Value)} {address : List Nat} {tactic : Tactic} :
    (address, tactic) ∈ tacticsAt places ↔
      ∃ node, (address, node) ∈ places ∧ tacticOf? node = some tactic := by
  simp only [tacticsAt, List.mem_filterMap, Option.map_eq_some_iff, Prod.mk.injEq]
  constructor
  · rintro ⟨⟨path, node⟩, hplace, other, htactic, rfl, rfl⟩
    exact ⟨node, hplace, htactic⟩
  · rintro ⟨node, hplace, htactic⟩
    exact ⟨(address, node), hplace, tactic, htactic, rfl, rfl⟩

section Trees

variable {trees : List Value} (htrees : ∀ tree ∈ trees, IsNode tree) {places : List (List Nat × Value)}
  (hwalk : RawTree.walkAll (RawTree.ofItems trees) = (places.map Prod.snd, none))

include hwalk in
theorem tacticEntries_eq_filterMapM (layout : Layout) :
    tacticEntries layout (.arr trees) =
      (places.map Prod.snd).filterMapM (tacticEntryOf? layout) >>= sortByStart := by
  have hitems : (Value.arr trees).items = .ok trees := rfl
  rw [tacticEntries, hitems, ok_bind, hwalk]

include htrees hwalk in
/-- The entries of the tactics that the walk meets, sorted. -/
theorem tacticEntries_eq_sorted (hlisting : IsListing (nodeAt? trees) places) (htables : TacticsAreTables trees)
    (layout : Layout) :
    tacticEntries layout (.arr trees) =
      sortByStart ((tacticsAt places).map fun place => place.2.entry) := by
  have hkept : (tacticsAt places).map (fun place => place.2.entry) =
      (places.map Prod.snd).filterMap fun node => (tacticOf? node).map Tactic.entry := by
    rw [tacticsAt, List.map_filterMap, List.filterMap_map]
    congr 1
    funext place
    exact Option.map_map _ _ _
  have hentries : (places.map Prod.snd).filterMapM (tacticEntryOf? layout) =
      .ok ((tacticsAt places).map fun place => place.2.entry) := by
    rw [hkept]
    apply filterMapM_eq_ok_filterMap
    intro node hnode
    obtain ⟨tree, htree, hin⟩ := (hlisting.mem_nodes_iff node).1 hnode
    exact ((htrees tree htree).inTree hin).tacticEntryOf?_eq_ok (htables tree htree node hin) layout
  rw [tacticEntries_eq_filterMapM hwalk, hentries, ok_bind]

end Trees

theorem tacticEntries_eq_ok {trees : List Value} (htrees : ∀ tree ∈ trees, IsNode tree)
    (htables : TacticsAreTables trees) :
    ∃ tactics : List Tactic, ∀ layout,
      tacticEntries layout (.arr trees) = .ok (tactics.map Tactic.entry) := by
  obtain ⟨places, hwalk, hlisting⟩ := exists_listing htrees
  obtain ⟨found, hsort, -⟩ := sortByStart_map (fun _ => rfl : ∀ place : List Nat × Tactic,
    startOf place.2.entry = .ok (.int place.2.start)) (tacticsAt places)
  refine ⟨found.map Prod.snd, fun layout => ?_⟩
  rw [tacticEntries_eq_sorted htrees hwalk hlisting htables, hsort, List.map_map]
  rfl

theorem tacticEntries_eq_error {trees : List Value} (htrees : ∀ tree ∈ trees, IsNode tree)
    (htables : ¬TacticsAreTables trees) :
    ∃ fault, ∀ layout, tacticEntries layout (.arr trees) = .error fault := by
  obtain ⟨places, hwalk, hlisting⟩ := exists_listing htrees
  have hentries := tacticEntries_eq_filterMapM hwalk
  have hnodes := hlisting.mem_nodes_iff
  generalize places.map Prod.snd = nodes at hentries hnodes
  have hlayout (layout : Layout) : nodes.filterMapM (tacticEntryOf? layout) =
      nodes.filterMapM (tacticEntryOf? .stepped) := by
    apply filterMapM_congr
    intro node hnode
    obtain ⟨tree, htree, hin⟩ := (hnodes node).1 hnode
    have hshape := (htrees tree htree).inTree hin
    by_cases htable : TacticIsTable node
    · rw [hshape.tacticEntryOf?_eq_ok htable, hshape.tacticEntryOf?_eq_ok htable]
    · obtain ⟨fault, hfault⟩ := hshape.tacticEntryOf?_eq_error htable
      rw [hfault, hfault]
  -- The first node whose tactic is no table decides the fault, whatever the layout.
  cases hfirst : nodes.filterMapM (tacticEntryOf? .stepped) with
  | error fault =>
      refine ⟨fault, fun layout => ?_⟩
      rw [hentries, hlayout, hfirst]
      rfl
  | ok entries =>
      simp only [TacticsAreTables, not_forall] at htables
      obtain ⟨tree, htree, node, hin, htable⟩ := htables
      obtain ⟨fault, hfault⟩ := ((htrees tree htree).inTree hin).tacticEntryOf?_eq_error htable
      obtain ⟨one, hone⟩ := exists_ok_of_filterMapM hfirst node ((hnodes node).2 ⟨tree, htree, hin⟩)
      rw [hfault] at hone
      cases hone

end ProofDump.Dataset
