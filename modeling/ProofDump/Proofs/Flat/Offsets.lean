import ProofDump.Flat.Export
import ProofDump.Proofs.Flat.Shape
import ProofDump.Proofs.InfoTree.Forest

/-!
# Offsets of ranges

The two ways to take over the offsets of a range lead to the same line, or to the same fault, for records of
every kind in which all offsets are integers, and for info trees of any depth.
-/

namespace ProofDump

namespace Flat

/-- Where a range is read, its two offsets are integers. -/
def Reading.isWhole : Reading → Value → Bool
  | span, .arr [.int _, .int _] => true
  | span, .arr [_, _] => false
  | _, _ => true

theorem Reading.exists_of_isWhole {start stop : Value} (hwhole : span.isWhole (.arr [start, stop]) = true) :
    ∃ m n, start = .int m ∧ stop = .int n := by
  cases start with
  | int m =>
      cases stop with
      | int n => exact ⟨m, n, rfl, rfl⟩
      | _ => cases hwhole
  | _ => cases stop <;> cases hwhole

theorem range_integers {value : Value} (hwhole : Reading.span.isWhole value = true) :
    range .integers value = range .loaded value := by
  unfold range
  split
  · obtain ⟨m, n, rfl, rfl⟩ := Reading.exists_of_isWhole hwhole
    rfl
  · rfl

theorem Reading.form_integers {reading : Reading} {value : Value} (hwhole : reading.isWhole value = true) :
    reading.form .integers value = reading.form .loaded value := by
  cases reading with
  | span => exact range_integers hwhole
  | _ => rfl

theorem Shape.form_integers {shape : Shape} {value : Value}
    (hwhole : shape.everywhere Reading.isWhole value = true) :
    shape.form .integers value = shape.form .loaded value := by
  induction shape using Shape.induction generalizing value with
  | leaf reading =>
      rw [everywhere] at hwhole
      rw [form_leaf, form_leaf, reading.form_integers hwhole]
  | optional shape ih =>
      rw [everywhere, Bool.or_eq_true] at hwhole
      rw [form_optional, form_optional, Flat.optional, Flat.optional]
      split
      · rfl
      · rename_i hnull
        exact ih (hwhole.resolve_left hnull)
  | each shape ih =>
      rw [everywhere, List.all_eq_true] at hwhole
      rw [form_each, form_each, Flat.each, Flat.each]
      cases hitems : value.loadedItems with
      | error fault => rfl
      | ok items =>
          rw [ok_bind, ok_bind, mapM_congr]
          intro item hitem
          apply ih
          apply hwhole
          rwa [Value.members_eq hitems]
  | inner name shape ih =>
      rw [everywhere] at hwhole
      simp only [form_inner]
      cases hattr : value.attr name with
      | error fault => rfl
      | ok part =>
          rw [ok_bind, ok_bind]
          apply ih
          rwa [(Value.attr_eq_ok_iff.1 hattr).2]
  | record parts ih =>
      rw [everywhere_record] at hwhole
      simp only [form_record, formParts_eq_mapM]
      rw [mapM_congr]
      intro part hpart
      rw [ih part hpart (hwhole part hpart)]

/-! ### Info trees -/

/-- Whether all leaves of the nodes of a forest pass a test. -/
def forestEverywhere (passes : Reading → Value → Bool) (forest : List InfoTree) : Bool :=
  (InfoTree.subtrees forest).all fun tree =>
    Shape.info.everywhere passes tree.info && Shape.kindedExcerpt.everywhere passes tree.ref

theorem forestEverywhere_cons {passes : Reading → Value → Bool} {tree : InfoTree} {rest : List InfoTree} :
    forestEverywhere passes (tree :: rest) = true ↔
      (Shape.info.everywhere passes tree.info = true ∧ Shape.kindedExcerpt.everywhere passes tree.ref = true) ∧
        forestEverywhere passes tree.children = true ∧ forestEverywhere passes rest = true := by
  simp only [forestEverywhere, InfoTree.subtrees_cons, List.all_cons, List.all_append, Bool.and_eq_true]

theorem tree_integers_of_children {first : InfoTree}
    (hinfo : Shape.info.everywhere Reading.isWhole first.info = true)
    (href : Shape.kindedExcerpt.everywhere Reading.isWhole first.ref = true)
    (hchildren : trees .integers first.children = trees .loaded first.children) :
    tree .integers first = tree .loaded first := by
  cases first with
  | node value ref children unlisted =>
      have hinfos : info .integers value = info .loaded value := by
        rw [← Shape.form_info, ← Shape.form_info]
        exact Shape.form_integers hinfo
      have hrefs : kindedExcerpt .integers ref = kindedExcerpt .loaded ref := by
        rw [← Shape.form_kindedExcerpt, ← Shape.form_kindedExcerpt]
        exact Shape.form_integers href
      have hbelow : trees .integers children = trees .loaded children := hchildren
      simp only [tree, hinfos, hrefs, hbelow]
  | other value => rfl

theorem trees_integers {forest : List InfoTree} (hwhole : forestEverywhere Reading.isWhole forest = true) :
    trees .integers forest = trees .loaded forest := by
  induction forest using InfoTree.forestInduction with
  | nil => rfl
  | cons first rest below others =>
      obtain ⟨⟨hinfo, href⟩, hbelow, hrest⟩ := forestEverywhere_cons.1 hwhole
      rw [trees, trees, tree_integers_of_children hinfo href (below hbelow), others hrest]

/-! ### Records of every kind -/

/-- The kinds of records that have a form. -/
inductive Kind where
  | moduleInfo | symbol | range | excerpt | kindedExcerpt | param | modifiers | openNamespace | openRename | openDecl
  | scope | declaration | localVariable | special | term | goal | tactic | info | tree

namespace Kind

/-- The form of a loaded record of the kind. -/
def form (offsets : Offsets) : Kind → Value → Except Fault Form
  | moduleInfo, value => Flat.moduleInfo value
  | symbol, value => Flat.symbol value
  | range, value => Flat.range offsets value
  | excerpt, value => Flat.excerpt offsets value
  | kindedExcerpt, value => Flat.kindedExcerpt offsets value
  | param, value => Flat.param offsets value
  | modifiers, value => Flat.modifiers value
  | openNamespace, value => Flat.openNamespace value
  | openRename, value => Flat.openRename value
  | openDecl, value => Flat.openDecl value
  | scope, value => Flat.scope value
  | declaration, value => Flat.declaration offsets value
  | localVariable, value => Flat.variableForm value
  | special, value => Flat.special value
  | term, value => Flat.term value
  | goal, value => Flat.goal value
  | tactic, value => Flat.tactic value
  | info, value => Flat.info offsets value
  | tree, value => Flat.tree offsets (.ofValue value)

/-- Every kind of record but info trees has a shape. -/
def shape? : Kind → Option Shape
  | moduleInfo => some .moduleInfo
  | symbol => some .symbol
  | range => some .range
  | excerpt => some .excerpt
  | kindedExcerpt => some .kindedExcerpt
  | param => some .param
  | modifiers => some .modifiers
  | openNamespace => some .openNamespace
  | openRename => some .openRename
  | openDecl => some .openDecl
  | scope => some .scope
  | declaration => some .declaration
  | localVariable => some .localVariable
  | special => some .special
  | term => some .term
  | goal => some .goal
  | tactic => some .tactic
  | info => some .info
  | tree => none

/-- Whether the offsets of all ranges in a record of the kind are integers. -/
def isWhole (kind : Kind) (value : Value) : Bool :=
  match kind.shape? with
  | some shape => shape.everywhere Reading.isWhole value
  | none => forestEverywhere Reading.isWhole [.ofValue value]

theorem form_eq_of_shape? {kind : Kind} {shape : Shape} (hshape : kind.shape? = some shape) (offsets : Offsets) :
    kind.form offsets = shape.form offsets := by
  funext value
  cases kind with
  | tree => cases hshape
  | _ =>
      cases hshape
      simp [form]

theorem form_integers {kind : Kind} {value : Value} (hwhole : kind.isWhole value = true) :
    kind.form .integers value = kind.form .loaded value := by
  unfold isWhole at hwhole
  split at hwhole
  · rename_i shape hshape
    rw [form_eq_of_shape? hshape, form_eq_of_shape? hshape]
    exact Shape.form_integers hwhole
  · cases kind with
    | tree =>
        obtain ⟨⟨hinfo, href⟩, hbelow, -⟩ := forestEverywhere_cons.1 hwhole
        exact tree_integers_of_children hinfo href (trees_integers hbelow)
    | _ => contradiction

end Kind

/-- Whether offsets are taken over as integers or as they were loaded makes no difference to the line of a record, nor
to its fault, if all of its offsets are integers. -/
theorem lines_agree_on_integers (kind : Kind) (value : Value) (hwhole : kind.isWhole value = true) :
    kind.form .integers value >>= line = kind.form .loaded value >>= line := by
  rw [Kind.form_integers hwhole]

/-- A node for an expanded macro with a range, above a node for a tactic with one, above more nodes. -/
def expandedTactic (below : List Value) : Value :=
  let node (info ref : Value) (children : List Value) : Value :=
    .obj [("info", info), ("ref", ref), ("children", .arr children)]
  let excerpt (start stop : Int) : Value :=
    .obj [("original", .bool true), ("range", .arr [.int start, .int stop]), ("pp", .str "simp"),
      ("kind", .texts ["Tactic", "simp"])]
  let goal : Value := .obj [("tag", .texts ["h"]), ("context", .arr []), ("type", .str "1 < 2"), ("is_prop", .bool true)]
  node (.obj [("macro", .obj [("expanded", excerpt 3 20)])]) (excerpt 3 7)
    [node (.obj [("tactic", .obj [("references", .arr [.texts ["Nat", "lt"]]), ("before", .arr [goal]),
      ("after", .arr [])])]) (excerpt 3 20) below]

theorem expandedTactic_lines_agree :
    Kind.tree.isWhole (expandedTactic [expandedTactic []]) = true ∧
      Kind.tree.form .integers (expandedTactic [expandedTactic []]) >>= line =
        Kind.tree.form .loaded (expandedTactic [expandedTactic []]) >>= line ∧
      (Kind.tree.form .loaded (expandedTactic [expandedTactic []]) >>= line).isOk = true :=
  ⟨rfl, lines_agree_on_integers .tree (expandedTactic [expandedTactic []]) rfl, rfl⟩

end Flat

end ProofDump
