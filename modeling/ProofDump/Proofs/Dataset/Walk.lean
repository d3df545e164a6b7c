import Mathlib.Data.List.Lex
import ProofDump.Dataset.RawTree
import ProofDump.Proofs.Value

/-!
# The walk through elaboration trees

A node of a list of trees has an address: the place of its tree in the list, then a place among the nodes below
for every step down. The walk meets every node once, and it meets the nodes in the lexicographic order of their
addresses, a node before those below it (`IsListing`).
-/

namespace ProofDump.Dataset

/-! ### What a tree looks like -/

/-- A range is two integers, or null if it was left out. -/
def IsRange (range : Value) : Prop := range = .null ∨ ∃ start stop, range = .arr [.int start, .int stop]

/-- A node of an elaboration tree with all nodes below it. Every part may be left out. -/
inductive IsNode : Value → Prop
  | node {fields : Fields}
      (hinfo : ∀ info, Fields.get? fields "info" = some info → info.IsRecord)
      (href : ∀ ref, Fields.get? fields "ref" = some ref → ref.IsRecord ∧ IsRange (ref.part "range"))
      (hchildren : ∀ children, Fields.get? fields "children" = some children → ∃ items, children = .arr items)
      (hitems : ∀ items, Fields.get? fields "children" = some (.arr items) → ∀ item ∈ items, IsNode item) :
      IsNode (.obj fields)

/-- The node is the root of the tree or below it. -/
inductive InTree (node : Value) : Value → Prop
  | root : InTree node node
  | child {fields : Fields} {items : List Value} {child : Value}
      (hitems : Fields.get? fields "children" = some (.arr items)) (hchild : child ∈ items)
      (hnode : InTree node child) : InTree node (.obj fields)

theorem inTree_obj {fields : Fields} {node : Value} :
    InTree node (.obj fields) ↔ node = .obj fields ∨
      ∃ items, Fields.get? fields "children" = some (.arr items) ∧ ∃ item ∈ items, InTree node item := by
  constructor
  · intro hnode
    cases hnode with
    | root => exact .inl rfl
    | child hitems hchild hnode => exact .inr ⟨_, hitems, _, hchild, hnode⟩
  · rintro (rfl | ⟨items, hitems, item, hitem, hnode⟩)
    · exact .root
    · exact .child hitems hitem hnode

theorem IsNode.inTree {node tree : Value} (htree : IsNode tree) (hnode : InTree node tree) :
    IsNode node := by
  induction hnode with
  | root => exact htree
  | child hitems hchild _ ih =>
      cases htree with
      | node _ _ _ hnodes => exact ih (hnodes _ hitems _ hchild)

/-! ### Addresses -/

/-- The nodes directly below a node. -/
def childrenOf (node : Value) : List Value :=
  match node.part "children" with
  | .arr items => items
  | _ => []

theorem mem_childrenOf {tree child : Value} :
    child ∈ childrenOf tree ↔ ∃ fields items, tree = .obj fields ∧
      Fields.get? fields "children" = some (.arr items) ∧ child ∈ items := by
  rw [childrenOf]
  cases tree with
  | obj fields =>
      rw [Value.part]
      cases hget : Fields.get? fields "children" with
      | none => simp [hget]
      | some children => cases children <;> simp [hget]
  | _ => simp [Value.part]

/-- The node at an address in a tree. -/
def below? (tree : Value) : List Nat → Option Value
  | [] => some tree
  | place :: rest => (childrenOf tree)[place]?.bind fun child => below? child rest

/-- The node at an address in a list of trees. -/
def nodeAt? (trees : List Value) : List Nat → Option Value
  | [] => none
  | place :: rest => trees[place]?.bind fun tree => below? tree rest

theorem inTree_iff_exists_below? {node tree : Value} :
    InTree node tree ↔ ∃ address, below? tree address = some node := by
  constructor
  · intro hnode
    induction hnode with
    | root => exact ⟨[], rfl⟩
    | child hitems hchild _ ih =>
        obtain ⟨address, haddress⟩ := ih
        obtain ⟨place, hplace⟩ := List.mem_iff_getElem?.1 (mem_childrenOf.2 ⟨_, _, rfl, hitems, hchild⟩)
        exact ⟨place :: address, by rw [below?, hplace, Option.bind_some, haddress]⟩
  · rintro ⟨address, haddress⟩
    induction address generalizing tree with
    | nil =>
        cases haddress
        exact .root
    | cons place rest ih =>
        obtain ⟨child, hchild, hrest⟩ := Option.bind_eq_some_iff.1 haddress
        obtain ⟨fields, items, rfl, hitems, hmem⟩ := mem_childrenOf.1 (List.mem_of_getElem? hchild)
        exact .child hitems hmem (ih hrest)

theorem exists_nodeAt?_iff {node : Value} {trees : List Value} :
    (∃ address, nodeAt? trees address = some node) ↔ ∃ tree ∈ trees, InTree node tree := by
  simp only [inTree_iff_exists_below?]
  constructor
  · rintro ⟨address, haddress⟩
    cases address with
    | nil => cases haddress
    | cons place rest =>
        obtain ⟨tree, htree, hrest⟩ := Option.bind_eq_some_iff.1 haddress
        exact ⟨tree, List.mem_of_getElem? htree, rest, hrest⟩
  · rintro ⟨tree, htree, rest, hrest⟩
    obtain ⟨place, hplace⟩ := List.mem_iff_getElem?.1 htree
    exact ⟨place :: rest, by rw [nodeAt?, hplace, Option.bind_some, hrest]⟩

/-- The nodes that have an address, each with it, and smaller addresses first. -/
structure IsListing (find? : List Nat → Option Value) (places : List (List Nat × Value)) : Prop where
  mem_iff : ∀ address node, (address, node) ∈ places ↔ find? address = some node
  ordered : places.Pairwise fun place other => place.1 < other.1

theorem IsListing.mem_nodes_iff {trees : List Value} {places : List (List Nat × Value)}
    (hplaces : IsListing (nodeAt? trees) places) (node : Value) :
    node ∈ places.map Prod.snd ↔ ∃ tree ∈ trees, InTree node tree := by
  rw [← exists_nodeAt?_iff, List.mem_map]
  simp only [← hplaces.mem_iff]
  constructor
  · rintro ⟨⟨address, found⟩, hplace, rfl⟩
    exact ⟨address, hplace⟩
  · rintro ⟨address, hplace⟩
    exact ⟨(address, node), hplace, rfl⟩

/-- A node comes before all nodes below it. -/
theorem IsListing.root {tree : Value} {places : List (List Nat × Value)}
    (hplaces : IsListing (nodeAt? (childrenOf tree)) places) :
    IsListing (below? tree) (([], tree) :: places) where
  mem_iff := by
    intro address node
    rw [List.mem_cons, hplaces.mem_iff]
    cases address with
    | nil => simp [below?, nodeAt?, eq_comm]
    | cons place rest => simp [below?, nodeAt?]
  ordered := by
    refine List.pairwise_cons.2 ⟨fun place hplace => ?_, hplaces.ordered⟩
    have hfind := (hplaces.mem_iff place.1 place.2).1 hplace
    cases haddress : place.1 with
    | nil =>
        rw [haddress] at hfind
        cases hfind
    | cons first rest => exact List.nil_lt_cons first rest

/-- The address of a node when one more tree stands before its own. -/
def later (address : List Nat) : List Nat := address.modifyHead (· + 1)

theorem later_lt_later {address other : List Nat} (hless : address < other) : later address < later other := by
  cases other with
  | nil => exact absurd hless (List.not_lt_nil address)
  | cons place rest =>
      cases address with
      | nil => exact List.nil_lt_cons _ _
      | cons first tail =>
          show (first + 1) :: tail < (place + 1) :: rest
          rw [List.cons_lt_cons_iff] at hless ⊢
          exact hless.imp Nat.succ_lt_succ (And.imp_left (congrArg Nat.succ))

/-- The nodes of the first tree come before those of the others. -/
theorem IsListing.cons {tree : Value} {trees : List Value} {first rest : List (List Nat × Value)}
    (hfirst : IsListing (below? tree) first) (hrest : IsListing (nodeAt? trees) rest) :
    IsListing (nodeAt? (tree :: trees))
      (first.map (fun place => (0 :: place.1, place.2)) ++
        rest.map fun place => (later place.1, place.2)) where
  mem_iff := by
    intro address node
    rw [List.mem_append, List.mem_map, List.mem_map]
    constructor
    · rintro (⟨⟨path, found⟩, hplace, heq⟩ | ⟨⟨path, found⟩, hplace, heq⟩)
      · obtain ⟨rfl, rfl⟩ := Prod.mk.inj heq
        exact (hfirst.mem_iff path found).1 hplace
      · obtain ⟨rfl, rfl⟩ := Prod.mk.inj heq
        have hfind := (hrest.mem_iff path found).1 hplace
        cases path with
        | nil => cases hfind
        | cons place path => exact hfind
    · intro hfind
      cases address with
      | nil => cases hfind
      | cons place path =>
          cases place with
          | zero => exact .inl ⟨(path, node), (hfirst.mem_iff path node).2 hfind, rfl⟩
          | succ place =>
              exact .inr ⟨(place :: path, node), (hrest.mem_iff (place :: path) node).2 hfind, rfl⟩
  ordered := by
    refine List.pairwise_append.2 ⟨List.pairwise_map.2 ?_, List.pairwise_map.2 ?_, ?_⟩
    · exact hfirst.ordered.imp fun hless => List.cons_lt_cons_iff.2 (.inr ⟨rfl, hless⟩)
    · exact hrest.ordered.imp later_lt_later
    · intro place hplace other hother
      obtain ⟨inner, -, rfl⟩ := List.mem_map.1 hplace
      obtain ⟨⟨path, found⟩, hfound, rfl⟩ := List.mem_map.1 hother
      have hfind := (hrest.mem_iff path found).1 hfound
      cases path with
      | nil => cases hfind
      | cons index path => exact List.cons_lt_cons_iff.2 (.inl (Nat.succ_pos index))

/-! ### The walk -/

theorem underFields_cons_of_ne {name : String} (hname : name ≠ "children") (value : Value)
    (fields : Fields) : RawTree.underFields ((name, value) :: fields) = RawTree.underFields fields := by
  cases value <;> exact if_neg hname

theorem underFields_eq_nil {fields : Fields} (hget : Fields.get? fields "children" = none) :
    RawTree.underFields fields = ([], none) := by
  induction fields with
  | nil => rfl
  | cons field fields ih =>
      obtain ⟨name, value⟩ := field
      rw [Fields.get?, List.lookup_cons] at hget
      split at hget
      · cases hget
      · rename_i hname
        rw [underFields_cons_of_ne (ne_of_beq_false hname).symm]
        exact ih hget

theorem underFields_eq_items {fields : Fields} {items : List Value}
    (hget : Fields.get? fields "children" = some (.arr items)) :
    RawTree.underFields fields = (RawTree.ofItems items, none) := by
  induction fields with
  | nil => cases hget
  | cons field fields ih =>
      obtain ⟨name, value⟩ := field
      rw [Fields.get?, List.lookup_cons] at hget
      split at hget
      · rename_i hname
        cases hget
        exact if_pos (eq_of_beq hname).symm
      · rename_i hname
        rw [underFields_cons_of_ne (ne_of_beq_false hname).symm]
        exact ih hget

theorem underFields_eq_childrenOf {fields : Fields}
    (hchildren : ∀ children, Fields.get? fields "children" = some children → ∃ items, children = .arr items) :
    RawTree.underFields fields = (RawTree.ofItems (childrenOf (.obj fields)), none) := by
  rw [childrenOf, Value.part]
  cases hget : Fields.get? fields "children" with
  | none => exact underFields_eq_nil hget
  | some children =>
      obtain ⟨items, rfl⟩ := hchildren children hget
      exact underFields_eq_items hget

/-- The walk comes to its end and meets the nodes of the tree in the order of their addresses. -/
def WalksInOrder (tree : Value) : Prop :=
  ∃ places, (RawTree.ofValue tree).walk = (places.map Prod.snd, none) ∧ IsListing (below? tree) places

theorem exists_listing_of_walksInOrder {trees : List Value} (htrees : ∀ tree ∈ trees, WalksInOrder tree) :
    ∃ places, RawTree.walkAll (RawTree.ofItems trees) = (places.map Prod.snd, none) ∧
      IsListing (nodeAt? trees) places := by
  induction trees with
  | nil =>
      refine ⟨[], rfl, fun address node => ?_, List.Pairwise.nil⟩
      cases address with
      | nil => simp [nodeAt?]
      | cons place rest => simp [nodeAt?]
  | cons tree trees ih =>
      obtain ⟨⟨first, hfirst, hfirstListing⟩, hothers⟩ := List.forall_mem_cons.1 htrees
      obtain ⟨rest, hrest, hrestListing⟩ := ih hothers
      refine ⟨_, ?_, hfirstListing.cons hrestListing⟩
      rw [RawTree.ofItems, RawTree.walkAll, hfirst, hrest, List.map_append, List.map_map, List.map_map]
      rfl

theorem IsNode.walksInOrder {tree : Value} (htree : IsNode tree) : WalksInOrder tree := by
  induction htree with
  | @node fields _ _ hchildren _ ih =>
      obtain ⟨places, hwalk, hplaces⟩ := exists_listing_of_walksInOrder
        fun child (hchild : child ∈ childrenOf (.obj fields)) => by
          obtain ⟨_, items, hfields, hitems, hitem⟩ := mem_childrenOf.1 hchild
          cases hfields
          exact ih items hitems child hitem
      refine ⟨_, ?_, hplaces.root⟩
      rw [RawTree.ofValue, underFields_eq_childrenOf hchildren]
      show RawTree.walk (.node _ _ _) = _
      rw [RawTree.walk, hwalk]
      rfl

/-- The walk through well-formed trees comes to its end and meets their nodes in the order of their addresses. -/
theorem exists_listing {trees : List Value} (htrees : ∀ tree ∈ trees, IsNode tree) :
    ∃ places, RawTree.walkAll (RawTree.ofItems trees) = (places.map Prod.snd, none) ∧
      IsListing (nodeAt? trees) places :=
  exists_listing_of_walksInOrder fun tree htree => (htrees tree htree).walksInOrder

end ProofDump.Dataset
