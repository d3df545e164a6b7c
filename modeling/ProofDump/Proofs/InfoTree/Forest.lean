import Mathlib.Data.List.Basic
import ProofDump.InfoTree.Tactics
import ProofDump.Proofs.Position
import ProofDump.Proofs.Value

/-!
# Forests of info trees

What the theory says about info trees it says about their nodes, and about which nodes stand above which.
`places` lists the nodes of a forest in preorder, each with the nodes above it; `subtrees` is the same
list without them. Forests as dumps declare them (`Declared`) and forests whose byte ranges nest
(`Nested`) are described node by node over these lists, and taken apart by `Declared.cons` and
`Nested.cons`.
-/

namespace ProofDump

namespace InfoTree

/-! ### The parts of a node -/

def info : InfoTree → Value
  | node info _ _ _ => info
  | other _ => .null

def ref : InfoTree → Value
  | node _ ref _ _ => ref
  | other _ => .null

def children : InfoTree → List InfoTree
  | node _ _ children _ => children
  | other _ => []

def bytes (tree : InfoTree) : ByteRange := (ByteRange.ofValue? (tree.ref.part "range")).getD ⟨0, 0⟩

def text? (tree : InfoTree) : Option String := (tree.ref.part "pp").text?

def isTactic (tree : InfoTree) : Bool := (tree.info.part "tactic").present

/-- A text on one line, without the sign that joins tactics, which is not the word `by`. -/
def isSingle (text : String) : Bool := '\n' ∉ text.toList ∧ ';' ∉ text.toList ∧ text ≠ "by"

/-- The node is a tactic of its own, not several joined and not the word `by`. -/
def isStep (tree : InfoTree) : Bool := tree.isTactic && tree.text?.any isSingle

def goalTextsOf (goals : Value) : Value :=
  match goals with
  | .arr goals => .arr (goals.map (·.part "pp"))
  | _ => .null

def tactic (lines : LineStarts) (tree : InfoTree) : Tactic where
  range := .ofBytes lines tree.bytes
  pp := tree.ref.part "pp"
  before := goalTextsOf ((tree.info.part "tactic").part "before")
  after := goalTextsOf ((tree.info.part "tactic").part "after")

/-! ### The nodes of a forest -/

/-- A node of a forest and the nodes above it, innermost first. -/
structure Place where
  tree : InfoTree
  above : List InfoTree

mutual

def placesIn (above : List InfoTree) : InfoTree → List Place
  | other value => [⟨other value, above⟩]
  | node info ref children unlisted =>
    let tree := node info ref children unlisted
    ⟨tree, above⟩ :: places (tree :: above) children

def places (above : List InfoTree) : List InfoTree → List Place
  | [] => []
  | tree :: rest => placesIn above tree ++ places above rest

end

theorem places_cons (above : List InfoTree) (tree : InfoTree) (rest : List InfoTree) :
    places above (tree :: rest) =
      ⟨tree, above⟩ :: (places (tree :: above) tree.children ++ places above rest) := by
  cases tree with
  | node info ref children unlisted => rfl
  | other value => rfl

/-- Induction over a forest: from the trees below the first one and the trees after it. -/
@[elab_as_elim]
theorem forestInduction {motive : List InfoTree → Prop} (nil : motive [])
    (cons : ∀ tree rest, motive tree.children → motive rest → motive (tree :: rest))
    (forest : List InfoTree) : motive forest := by
  match forest with
  | [] => exact nil
  | other value :: rest => exact cons _ rest nil (forestInduction nil cons rest)
  | node info ref children unlisted :: rest =>
      exact cons _ rest (forestInduction nil cons children) (forestInduction nil cons rest)

/-- The nodes of a forest in preorder, with what is below them. -/
def subtrees (forest : List InfoTree) : List InfoTree := (places [] forest).map Place.tree

@[simp] theorem subtrees_nil : subtrees [] = [] := rfl

theorem map_tree_places (forest above : List InfoTree) :
    (places above forest).map Place.tree = subtrees forest := by
  induction forest using forestInduction generalizing above with
  | nil => rfl
  | cons tree rest below others =>
      rw [subtrees, places_cons, places_cons, List.map_cons, List.map_cons, List.map_append,
        List.map_append, below, others, below, others]

theorem subtrees_cons (tree : InfoTree) (rest : List InfoTree) :
    subtrees (tree :: rest) = tree :: (subtrees tree.children ++ subtrees rest) := by
  rw [subtrees, places_cons, List.map_cons, List.map_append, map_tree_places, map_tree_places]

theorem mem_subtrees_self (tree : InfoTree) (rest : List InfoTree) : tree ∈ subtrees (tree :: rest) := by
  rw [subtrees_cons]
  exact List.mem_cons_self

theorem subtrees_children_subset (tree : InfoTree) (rest : List InfoTree) :
    subtrees tree.children ⊆ subtrees (tree :: rest) := by
  intro child hchild
  rw [subtrees_cons]
  exact List.mem_cons_of_mem _ (List.mem_append_left _ hchild)

theorem subtrees_tail_subset (tree : InfoTree) (rest : List InfoTree) :
    subtrees rest ⊆ subtrees (tree :: rest) := by
  intro other hother
  rw [subtrees_cons]
  exact List.mem_cons_of_mem _ (List.mem_append_right _ hother)

theorem mem_above_of_mem_places {forest above : List InfoTree} {place : Place}
    (hplace : place ∈ places above forest) : ∀ outer ∈ above, outer ∈ place.above := by
  intro outer houter
  induction forest using forestInduction generalizing above with
  | nil => exact absurd hplace List.not_mem_nil
  | cons tree rest below others =>
      rw [places_cons, List.mem_cons, List.mem_append] at hplace
      rcases hplace with rfl | hbelow | hrest
      · exact houter
      · exact below hbelow (List.mem_cons_of_mem _ houter)
      · exact others hrest houter

/-! ### Outermost nodes -/

/-- The node passes a test, and no node above it does. -/
def Place.isOutermostOf (test : InfoTree → Bool) (place : Place) : Bool :=
  test place.tree && place.above.all fun outer => !test outer

/-- The outermost nodes that pass a test, in preorder. -/
def outermostOf (test : InfoTree → Bool) (above forest : List InfoTree) : List InfoTree :=
  ((places above forest).filter (Place.isOutermostOf test)).map Place.tree

section Outermost

variable {test : InfoTree → Bool} {above : List InfoTree}

theorem outermostOf_of_above {forest : List InfoTree} {outer : InfoTree} (houter : outer ∈ above)
    (htest : test outer = true) : outermostOf test above forest = [] := by
  rw [outermostOf, List.map_eq_nil_iff, List.filter_eq_nil_iff]
  intro place hplace houtermost
  simp only [Place.isOutermostOf, Bool.and_eq_true, List.all_eq_true, Bool.not_eq_true'] at houtermost
  have hnone := houtermost.2 outer (mem_above_of_mem_places hplace outer houter)
  rw [htest] at hnone
  exact Bool.false_ne_true hnone.symm

theorem outermostOf_cons (habove : ∀ outer ∈ above, test outer = false) (tree : InfoTree)
    (rest : List InfoTree) :
    outermostOf test above (tree :: rest) =
      (if test tree then [tree] else outermostOf test (tree :: above) tree.children) ++
        outermostOf test above rest := by
  have hfree : (above.all fun outer => !test outer) = true := by
    rw [List.all_eq_true]
    intro outer houter
    rw [habove outer houter, Bool.not_false]
  by_cases htest : test tree = true
  · have hbelow : outermostOf test (tree :: above) tree.children = [] :=
      outermostOf_of_above List.mem_cons_self htest
    rw [if_pos htest, outermostOf, places_cons, List.filter_cons_of_pos
      (by rw [Place.isOutermostOf, htest, hfree, Bool.and_true]), List.filter_append, List.map_cons,
      List.map_append, ← outermostOf, ← outermostOf, hbelow]
    rfl
  · rw [if_neg htest, outermostOf, places_cons, List.filter_cons_of_neg
      (by simp only [Place.isOutermostOf, htest, Bool.false_and]; exact Bool.false_ne_true),
      List.filter_append, List.map_append]
    rfl

end Outermost

/-! ### Forests as dumps declare them -/

/-- A node whose parts have their declared types: the reference is a record whose text is null or a text,
the information is null or a record, the goals of a tactic are records, and there is a list of nodes
below, or nothing. -/
inductive IsDeclared : InfoTree → Prop
  | node {info ref : Value} {children : List InfoTree} {unlisted : Option Value}
      (hinfo : info = .null ∨ info.IsRecord) (href : ref.IsRecord)
      (htext : ref.part "pp" = .null ∨ ∃ text, ref.part "pp" = .str text)
      (htactic : (info.part "tactic").present = true → (info.part "tactic").IsRecord ∧
        ((info.part "tactic").part "before").IsRecords ∧ ((info.part "tactic").part "after").IsRecords)
      (hlisted : unlisted.filter Value.present = none) :
      IsDeclared (node info ref children unlisted)

def Declared (forest : List InfoTree) : Prop := ∀ tree ∈ subtrees forest, tree.IsDeclared

theorem Declared.cons {tree : InfoTree} {rest : List InfoTree} (hdeclared : Declared (tree :: rest)) :
    tree.IsDeclared ∧ Declared tree.children ∧ Declared rest :=
  ⟨hdeclared tree (mem_subtrees_self tree rest),
    fun child hchild => hdeclared child (subtrees_children_subset tree rest hchild),
    fun other hother => hdeclared other (subtrees_tail_subset tree rest hother)⟩

/-! ### Forests whose ranges nest -/

/-- No two siblings refer to the same byte. -/
def SiblingsApart (forest : List InfoTree) : Prop :=
  forest.Pairwise fun left right => left.bytes.Apart right.bytes

instance (forest : List InfoTree) : Decidable (SiblingsApart forest) :=
  inferInstanceAs (Decidable (forest.Pairwise _))

/-- Every node refers to a byte range that is not empty, what is below it refers to parts of that range,
and siblings refer to different bytes. -/
structure Nested (forest : List InfoTree) : Prop where
  ranged : ∀ tree ∈ subtrees forest, tree.ref.part "range" = tree.bytes.value
  proper : ∀ tree ∈ subtrees forest, tree.bytes.IsProper
  within : ∀ tree ∈ subtrees forest, ∀ child ∈ tree.children, tree.bytes.covers child.bytes = true
  apart : SiblingsApart forest
  apartBelow : ∀ tree ∈ subtrees forest, SiblingsApart tree.children

theorem Nested.cons {tree : InfoTree} {rest : List InfoTree} (hnested : Nested (tree :: rest)) :
    Nested tree.children ∧ Nested rest := by
  have hbelow := subtrees_children_subset tree rest
  have hrest := subtrees_tail_subset tree rest
  constructor
  · exact ⟨fun child hchild => hnested.ranged child (hbelow hchild),
      fun child hchild => hnested.proper child (hbelow hchild),
      fun child hchild => hnested.within child (hbelow hchild),
      hnested.apartBelow tree (mem_subtrees_self tree rest),
      fun child hchild => hnested.apartBelow child (hbelow hchild)⟩
  · exact ⟨fun other hother => hnested.ranged other (hrest hother),
      fun other hother => hnested.proper other (hrest hother),
      fun other hother => hnested.within other (hrest hother),
      (List.pairwise_cons.1 hnested.apart).2,
      fun other hother => hnested.apartBelow other (hrest hother)⟩

end InfoTree

end ProofDump
