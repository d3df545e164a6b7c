import Mathlib
import ProofDump.Proofs.InfoTree.Forest
import ProofDump.Proofs.Theorem.Extract

/-!
# Roots belong to one theorem

The roots of a theorem are those whose bytes lie within the bytes of its declaration, in the order in which
the module lists them, whether the first of them was taken out as the proof or not. Since the theorem
declarations of a module share no byte and every root has one, no root belongs to two theorems.
-/

namespace ProofDump

/-! ### Declarations and roots of a module -/

namespace Dump

/-- The theorem declarations of a module, in their order. -/
def theoremDeclarations (dump : Dump) : List Value :=
  match dump.declarations with
  | none => []
  | some declarations =>
    match declarations.loadedItems with
    | .error _ => []
    | .ok declarations => declarations.filter Theorem.isTheorem

/-- The roots of a module, in the order in which they are collected. -/
def roots (dump : Dump) : List Root :=
  match dump.trees with
  | none => []
  | some trees =>
    match InfoTree.forest trees >>= InfoTree.roots .outerFirst dump.lineStarts with
    | .error _ => []
    | .ok roots => roots

end Dump

def Root.range? (root : Root) : Option FileRange := root.step.map Tactic.range

namespace Theorem

/-- The bytes of the source that a declaration refers to. -/
def declaredBytes (declaration : Value) : ByteRange :=
  (ByteRange.ofValue? ((declaration.part "ref").part "range")).getD ⟨0, 0⟩

/-- The root of the proof, if it has one, and the other roots. -/
def allRoots (found : Theorem) : List Root := found.proofRoot.toList ++ found.roots

theorem contextOf_eq_ok {files : Option FileTree} {root : String} {module : Value}
    {lines : LineStarts} {trees : Value} {context : Context}
    (hcontext : contextOf files root module lines trees = .ok context) :
    context.lines = lines ∧
      InfoTree.forest trees >>= InfoTree.roots .outerFirst lines = .ok context.roots := by
  obtain ⟨hlines, forest, hforest, hroots, -⟩ := contextOf_collects hcontext
  exact ⟨hlines, bind_eq_ok.2 ⟨forest, hforest, hroots⟩⟩

theorem ofModule_eq_extractAll {files : Option FileTree} {root : String} {dumps : Dumps}
    {module : Value} {dump : Dump} (hdump : dumps.get module = .ok dump) {declarations trees : Value}
    (hdeclarations : dump.declarations = some declarations) (htrees : dump.trees = some trees)
    {context : Context} (hcontext : contextOf files root module dump.lineStarts trees = .ok context)
    {items : List Value} (hitems : declarations.loadedItems = .ok items) :
    ofModule files root dumps module = extractAll context {} items := by
  simp only [ofModule, hdump, hdeclarations, htrees, hcontext, hitems]

theorem ofModule_cases {files : Option FileTree} {root : String} {dumps : Dumps} {module : Value}
    {dump : Dump} (hdump : dumps.get module = .ok dump)
    (hfault : (ofModule files root dumps module).fault = none) :
    ofModule files root dumps module = {} ∨
      ∃ trees context declarations, dump.trees = some trees ∧
        contextOf files root module dump.lineStarts trees = .ok context ∧
        declarations.filter isTheorem = dump.theoremDeclarations ∧
        ofModule files root dumps module = extractAll context {} declarations := by
  unfold Dump.theoremDeclarations
  cases hdeclarations : dump.declarations with
  | none => exact .inl (by simp only [ofModule, hdump, hdeclarations])
  | some declarations =>
      cases htrees : dump.trees with
      | none => exact .inl (by simp only [ofModule, hdump, hdeclarations, htrees])
      | some trees =>
          cases hcontext : contextOf files root module dump.lineStarts trees with
          | error fault => simp [ofModule, hdump, hdeclarations, htrees, hcontext] at hfault
          | ok context =>
              cases hitems : declarations.loadedItems with
              | error fault =>
                  simp [ofModule, hdump, hdeclarations, htrees, hcontext, hitems] at hfault
              | ok items =>
                  have hwalk := ofModule_eq_extractAll hdump hdeclarations htrees hcontext hitems
                  exact .inr ⟨trees, context, items, rfl, hcontext, by simp only [hitems], hwalk⟩

theorem ofModule_pairs {files : Option FileTree} {root : String} {dumps : Dumps} {module : Value}
    {dump : Dump} (hdump : dumps.get module = .ok dump)
    (hfault : (ofModule files root dumps module).fault = none) :
    ∃ pairs : List (Value × Theorem), (pairs.map Prod.fst).Sublist dump.theoremDeclarations ∧
      (ofModule files root dumps module).theorems = pairs.map Prod.snd ∧
      ∀ pair ∈ pairs, ∃ context printed, context.lines = dump.lineStarts ∧
        context.roots = dump.roots ∧ extract context pair.1 = .ok (some pair.2, printed) := by
  rcases ofModule_cases hdump hfault with
    hnone | ⟨trees, context, declarations, htrees, hcontext, hdecls, hwalk⟩
  · refine ⟨[], List.nil_sublist _, ?_, fun pair hpair => absurd hpair List.not_mem_nil⟩
    rw [hnone]
    rfl
  · obtain ⟨hlines, hroots⟩ := contextOf_eq_ok hcontext
    have hdumpRoots : context.roots = dump.roots := by
      simp only [Dump.roots, htrees, hroots]
    rw [hwalk] at hfault ⊢
    obtain ⟨pairs, hsublist, htheorems, hpairs⟩ := extractAll_pairs hfault
    refine ⟨pairs, hdecls ▸ hsublist, htheorems, fun pair hpair => ?_⟩
    obtain ⟨printed, hextract⟩ := hpairs pair hpair
    exact ⟨context, printed, hlines, hdumpRoots, hextract⟩

end Theorem

/-! ### Roots by their bytes -/

/-- Theorem declarations that share no byte, and roots with the given bytes, none of them empty. -/
structure Dump.Spread (dump : Dump) (bytes : Root → ByteRange) : Prop where
  lines : dump.lineStarts.FromZero
  declared : ∀ declaration ∈ dump.theoremDeclarations,
    (declaration.part "ref").part "range" = (Theorem.declaredBytes declaration).value
  apart : dump.theoremDeclarations.Pairwise fun declaration other =>
    (Theorem.declaredBytes declaration).Apart (Theorem.declaredBytes other)
  placed : ∀ root ∈ dump.roots, root.range? = some (.ofBytes dump.lineStarts (bytes root))
  nonempty : ∀ root ∈ dump.roots, (bytes root).start < (bytes root).stop

/-- The roots of a module whose bytes are among those of a declaration. -/
def Dump.rootsOf (dump : Dump) (bytes : Root → ByteRange) (declaration : Value) : List Root :=
  dump.roots.filter fun root => (Theorem.declaredBytes declaration).covers (bytes root)

theorem rootsWithin_ofBytes {lines : LineStarts} (hlines : lines.FromZero) {roots : List Root}
    {bytes : Root → ByteRange}
    (hroots : ∀ root ∈ roots, root.range? = some (.ofBytes lines (bytes root))) (range : ByteRange) :
    rootsWithin (.ofBytes lines range) roots =
      .ok (roots.filter fun root => range.covers (bytes root)) := by
  refine filterM_eq_ok_filter fun root hroot => ?_
  obtain ⟨step, hstep, hrange⟩ := Option.map_eq_some_iff.1 (hroots root hroot)
  rw [InfoTree.sortRange, hstep]
  show Except.ok ((FileRange.ofBytes lines range).covers step.range) = _
  rw [hrange, FileRange.covers_ofBytes hlines]

namespace Theorem

theorem range_of_chosen {context : Context} {reading : Reading} {found : Theorem}
    (hchosen : Chosen context reading found) : found.range = reading.range := by
  cases hchosen <;> rfl

theorem allRoots_of_chosen {context : Context} {reading : Reading} {found : Theorem}
    (hchosen : Chosen context reading found) : found.allRoots = reading.roots := by
  cases hchosen with
  | ownRoot hby hroots hstep => exact hroots.symm
  | standIn hroots hterm => rfl
  | stateless hby hroots hterm => rfl

/-- The first root is taken out exactly for a tactic proof that has one. -/
theorem proofRoot_of_chosen {context : Context} {reading : Reading} {found : Theorem}
    (hchosen : Chosen context reading found)
    (hsteps : ∀ root ∈ reading.roots, root.step ≠ none) :
    found.proofRoot.isSome = true ↔ found.proofType = .tactic ∧ reading.roots ≠ [] := by
  have hnil (hhead : ∀ own ∈ reading.roots.head?, own.step = none) : reading.roots = [] := by
    cases hroots : reading.roots with
    | nil => rfl
    | cons own others =>
        rw [hroots] at hsteps hhead
        exact absurd (hhead own rfl) (hsteps own List.mem_cons_self)
  cases hchosen with
  | ownRoot hby hroots hstep => simp [Reading.theoremWith, hby, hroots]
  | standIn hroots hterm =>
      cases hby : reading.byTactic with
      | false => simp [Reading.theoremWith, hby]
      | true => simp [Reading.theoremWith, hnil (hroots hby)]
  | stateless hby hroots hterm => simp [Reading.theoremWith, hnil hroots]

/-- The theorem of a declaration has exactly the roots of it, and the first of them is its proof if it is
a tactic proof. -/
structure OwnsRoots (found : Theorem) (dump : Dump) (bytes : Root → ByteRange) (declaration : Value) :
    Prop where
  range : found.range = .ofBytes dump.lineStarts (declaredBytes declaration)
  roots : found.allRoots = dump.rootsOf bytes declaration
  proofRoot : found.proofRoot.isSome = true ↔
    found.proofType = .tactic ∧ dump.rootsOf bytes declaration ≠ []

theorem extract_of_spread {dump : Dump} {bytes : Root → ByteRange} (hspread : dump.Spread bytes)
    {context : Context} (hlines : context.lines = dump.lineStarts) (hroots : context.roots = dump.roots)
    {declaration : Value} (hdeclaration : declaration ∈ dump.theoremDeclarations) {found : Theorem}
    {printed : String} (hextract : extract context declaration = .ok (some found, printed)) :
    found.OwnsRoots dump bytes declaration := by
  obtain ⟨reading, hreads, hchosen⟩ := extract_eq_some hextract
  have hrange : reading.range = .ofBytes dump.lineStarts (declaredBytes declaration) := by
    have hread := hreads.range
    rw [hspread.declared declaration hdeclaration, hlines, FileRange.ofValue_bytes hspread.lines] at hread
    exact (Except.ok.inj hread).symm
  have hown : reading.roots = dump.rootsOf bytes declaration := by
    have hwithin := hreads.roots
    rw [hrange, hroots, rootsWithin_ofBytes hspread.lines hspread.placed] at hwithin
    exact (Except.ok.inj hwithin).symm
  have hsteps : ∀ root ∈ reading.roots, root.step ≠ none := by
    intro root hroot hstep
    rw [hown] at hroot
    have hplaced := hspread.placed root (List.mem_of_mem_filter hroot)
    rw [Root.range?, hstep] at hplaced
    cases hplaced
  refine ⟨hrange ▸ range_of_chosen hchosen, hown ▸ allRoots_of_chosen hchosen, ?_⟩
  rw [← hown]
  exact proofRoot_of_chosen hchosen hsteps

theorem disjoint_rootsOf {dump : Dump} {bytes : Root → ByteRange} (hspread : dump.Spread bytes)
    {declaration other : Value} (hapart : (declaredBytes declaration).Apart (declaredBytes other)) :
    (dump.rootsOf bytes declaration).Disjoint (dump.rootsOf bytes other) := by
  intro root hroot hshared
  obtain ⟨hmem, hcovers⟩ := List.mem_filter.1 hroot
  have hnot := (hapart.of_covers (List.mem_filter.1 hshared).2).covers_eq_false
    (hspread.nonempty root hmem)
  exact Bool.false_ne_true (hnot.symm.trans hcovers)

/-- The theorems of a module belong to some of its theorem declarations, in their order. Each has exactly
the roots of its declaration, the first of them apart if it is a tactic proof, and no root is shared. -/
theorem roots_belong_to_one_theorem {files : Option FileTree} {root : String} {dumps : Dumps}
    {module : Value} {dump : Dump} {bytes : Root → ByteRange} (hdump : dumps.get module = .ok dump)
    (hfault : (ofModule files root dumps module).fault = none) (hspread : dump.Spread bytes) :
    ∃ pairs : List (Value × Theorem),
      (pairs.map Prod.fst).Sublist dump.theoremDeclarations ∧
      (ofModule files root dumps module).theorems = pairs.map Prod.snd ∧
      (∀ pair ∈ pairs, pair.2.OwnsRoots dump bytes pair.1) ∧
      (ofModule files root dumps module).theorems.Pairwise fun found other =>
        found.allRoots.Disjoint other.allRoots := by
  obtain ⟨pairs, hsublist, htheorems, hpairs⟩ := ofModule_pairs hdump hfault
  have howns (pair : Value × Theorem) (hpair : pair ∈ pairs) :
      pair.2.OwnsRoots dump bytes pair.1 := by
    obtain ⟨context, printed, hlines, hroots, hextract⟩ := hpairs pair hpair
    have hmem := hsublist.subset (List.mem_map_of_mem hpair)
    exact extract_of_spread hspread hlines hroots hmem hextract
  refine ⟨pairs, hsublist, htheorems, howns, ?_⟩
  have hapart := List.pairwise_map.1 (hspread.apart.sublist hsublist)
  rw [htheorems, List.pairwise_map]
  refine hapart.imp_of_mem fun hpair hother hapart => ?_
  rw [(howns _ hpair).roots, (howns _ hother).roots]
  exact disjoint_rootsOf hspread hapart

def tacticTheorem (name : String) (bytes : ByteRange) : Value :=
  .obj [("kind", .str "theorem"), ("name", .arr [.str name]), ("ref", .obj [("range", bytes.value)]),
    ("signature", .obj [("pp", .str "True"), ("range", bytes.value)]),
    ("value", .obj [("pp", .str ":= by trivial"), ("range", bytes.value)])]

def tacticTree (bytes : ByteRange) : Value :=
  .obj [("info", .null), ("ref", .null), ("children", .arr [
    .obj [("info", .obj [("tactic", .obj [("before", .arr []), ("after", .arr [])])]),
      ("ref", .obj [("pp", .str "trivial"), ("range", bytes.value)]), ("children", .arr [])]])]

/-- Two theorems on two lines, the second of which starts where the first ends. -/
def adjacentTheorems : Dump where
  declarations := some (.arr [tacticTheorem "first" ⟨0, 20⟩, tacticTheorem "second" ⟨20, 40⟩])
  trees := some (.arr [tacticTree ⟨10, 20⟩, tacticTree ⟨20, 40⟩])
  lines := some (.arr [.int 0, .int 20])

def adjacentRoots : List Root :=
  [⟨some ⟨⟨⟨1, 11⟩, ⟨2, 1⟩⟩, .str "trivial", .arr [], .arr []⟩, some []⟩,
    ⟨some ⟨⟨⟨2, 1⟩, ⟨2, 21⟩⟩, .str "trivial", .arr [], .arr []⟩, some []⟩]

/-- The bytes of a root in a source with lines of twenty bytes. -/
def adjacentBytes (root : Root) : ByteRange :=
  let offset (pos : FilePos) : Int := 20 * (pos.line - 1) + pos.column - 1
  root.range?.elim ⟨0, 0⟩ fun range => ⟨offset range.start, offset range.stop⟩

theorem adjacentTheorems_context :
    contextOf none "" (.arr [.str "M"]) adjacentTheorems.lineStarts
        (.arr [tacticTree ⟨10, 20⟩, tacticTree ⟨20, 40⟩]) =
      .ok ⟨none, "", .arr [.str "M"], adjacentTheorems.lineStarts, adjacentRoots, []⟩ := by
  cbv

theorem adjacentTheorems_roots : adjacentTheorems.roots = adjacentRoots := by
  cbv

theorem adjacentTheorems_spread : adjacentTheorems.Spread adjacentBytes where
  lines := ⟨rfl, by decide⟩
  declared := by
    intro declaration hdeclaration
    rcases hdeclaration with _ | ⟨_, _ | ⟨_, ⟨⟩⟩⟩ <;> rfl
  apart := by decide
  placed := by
    rw [adjacentTheorems_roots]
    intro root hroot
    rcases hroot with _ | ⟨_, _ | ⟨_, ⟨⟩⟩⟩ <;> rfl
  nonempty := by
    rw [adjacentTheorems_roots]
    decide

theorem adjacent_roots_belong_to_one_theorem :
    Dumps.get [("M", adjacentTheorems)] (.arr [.str "M"]) = .ok adjacentTheorems ∧
      (ofModule none "" [("M", adjacentTheorems)] (.arr [.str "M"])).fault = none ∧
      adjacentTheorems.Spread adjacentBytes ∧
      (ofModule none "" [("M", adjacentTheorems)] (.arr [.str "M"])).theorems.length = 2 ∧
      (ofModule none "" [("M", adjacentTheorems)] (.arr [.str "M"])).theorems.Pairwise fun found other =>
        found.allRoots.Disjoint other.allRoots := by
  have hwalk : ofModule none "" [("M", adjacentTheorems)] (.arr [.str "M"]) =
      extractAll ⟨none, "", .arr [.str "M"], adjacentTheorems.lineStarts, adjacentRoots, []⟩ {}
        [tacticTheorem "first" ⟨0, 20⟩, tacticTheorem "second" ⟨20, 40⟩] :=
    ofModule_eq_extractAll rfl rfl rfl adjacentTheorems_context rfl
  have hfault : (ofModule none "" [("M", adjacentTheorems)] (.arr [.str "M"])).fault = none := by
    rw [hwalk]
    rfl
  obtain ⟨pairs, -, -, -, hdisjoint⟩ := roots_belong_to_one_theorem rfl hfault adjacentTheorems_spread
  exact ⟨rfl, hfault, adjacentTheorems_spread, by rw [hwalk]; rfl, hdisjoint⟩

end Theorem

end ProofDump
