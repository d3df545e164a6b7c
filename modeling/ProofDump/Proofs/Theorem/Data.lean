import ProofDump.Proofs.InfoTree.Typed
import ProofDump.Proofs.Json.Value
import ProofDump.Proofs.Theorem.Roots
import ProofDump.Theorem.Export

/-!
# Records of theorems

The theorems of a typed dump consist of texts and of ranges, so nothing can keep one from being written but a
line or a column with too many digits (`data_eq_ite`). The record of a theorem that is written can be read back
from its line, and names the operator of the theorem.
-/

namespace ProofDump

/-! ### Values without records -/

namespace Value

/-- A text, null, a list of texts or an integer. -/
def isPlain : Value → Bool
  | int _ => true
  | value => value.isTextOrNull || value.isTexts

/-- The value is no integer with too many digits. -/
def isShortNumber : Value → Bool
  | int n => isShort n
  | _ => true

theorem exists_of_isText {value : Value} (hvalue : value.isText = true) : ∃ text, value = str text := by
  cases value with
  | str text => exact ⟨text, rfl⟩
  | _ => cases hvalue

theorem checkAllWritable_texts {items : List Value} (hitems : items.all isText = true) :
    checkAllWritable items = .ok () := by
  induction items with
  | nil => rfl
  | cons item items ih =>
      rw [List.all_cons, Bool.and_eq_true] at hitems
      obtain ⟨text, rfl⟩ := exists_of_isText hitems.1
      exact ih hitems.2

theorem checkWritable_eq_ite {value : Value} (hplain : value.isPlain = true) :
    checkWritable value = if value.isShortNumber then .ok () else .error tooManyDigits := by
  cases value with
  | arr items => exact checkAllWritable_texts hplain
  | dec number => cases hplain
  | obj fields => cases hplain
  | _ => rfl

theorem checkAllWritable_eq_ite {values : List Value} (hplain : ∀ value ∈ values, value.isPlain = true) :
    checkAllWritable values = if values.all isShortNumber then .ok () else .error tooManyDigits := by
  induction values with
  | nil => rfl
  | cons value values ih =>
      obtain ⟨hvalue, hvalues⟩ := List.forall_mem_cons.1 hplain
      rw [checkAllWritable, checkWritable_eq_ite hvalue, ih hvalues, List.all_cons]
      cases value.isShortNumber with
      | true => rfl
      | false => rfl

theorem isReadable_of_isPlain {value : Value} (hplain : value.isPlain = true)
    (hshort : value.isShortNumber = true) : value.IsReadable := by
  cases value with
  | null => exact .null
  | int n => exact .int hshort
  | str text => exact .str text
  | arr items =>
      refine .arr fun item hitem => ?_
      obtain ⟨text, rfl⟩ := exists_of_isText (List.all_eq_true.1 hplain item hitem)
      exact .str text
  | _ => cases hplain

theorem isPlain_of_isTextOrNull {value : Value} (hvalue : value.isTextOrNull = true) :
    value.isPlain = true ∧ value.isShortNumber = true := by
  cases value with
  | null => exact ⟨rfl, rfl⟩
  | str text => exact ⟨rfl, rfl⟩
  | _ => cases hvalue

theorem isPlain_of_isTexts {value : Value} (htexts : value.isTexts = true) :
    value.isPlain = true ∧ value.isShortNumber = true := by
  cases value with
  | arr items => exact ⟨htexts, rfl⟩
  | _ => cases htexts

theorem exists_textsFrom {items : List Value} (hitems : items.all isText = true) (start : Nat) :
    ∃ texts, textsFrom start items = .ok texts := by
  induction items generalizing start with
  | nil => exact ⟨[], rfl⟩
  | cons item items ih =>
      rw [List.all_cons, Bool.and_eq_true] at hitems
      obtain ⟨text, rfl⟩ := exists_of_isText hitems.1
      obtain ⟨texts, htexts⟩ := ih hitems.2 (start + 1)
      exact ⟨text :: texts, by rw [textsFrom, htexts]; rfl⟩

end Value

/-! ### Ranges -/

theorem FilePos.isReadable_written {pos : FilePos} (hline : Value.isShort pos.line = true)
    (hcolumn : Value.isShort pos.column = true) : pos.written.IsReadable :=
  .obj (List.forall_mem_cons.2 ⟨.int hline, List.forall_mem_singleton.2 (.int hcolumn)⟩)

namespace FileRange

/-- No line and no column of the range has too many digits. -/
def isShort (range : FileRange) : Bool := range.numbers.all Value.isShortNumber

theorem numbers_isPlain (range : FileRange) : ∀ number ∈ range.numbers, number.isPlain = true := by
  simp [numbers, FilePos.numbers, Value.isPlain]

theorem isReadable_of_isShort {range : FileRange} (hshort : range.isShort = true) :
    range.start.written.IsReadable ∧ range.stop.written.IsReadable := by
  simp only [isShort, numbers, FilePos.numbers, List.cons_append, List.nil_append, List.all_cons, List.all_nil,
    Bool.and_true, Bool.and_eq_true] at hshort
  obtain ⟨hline, hcolumn, hstopLine, hstopColumn⟩ := hshort
  exact ⟨FilePos.isReadable_written hline hcolumn, FilePos.isReadable_written hstopLine hstopColumn⟩

end FileRange

/-! ### Tactics and roots -/

theorem Tactic.IsPrintable.shownParts {tactic : Tactic} (hprintable : tactic.IsPrintable) :
    (∀ value ∈ tactic.shownParts, value.isPlain = true) ∧
      tactic.shownParts.all Value.isShortNumber = tactic.range.isShort := by
  obtain ⟨hplain, hshort⟩ := Value.isPlain_of_isTextOrNull hprintable.text
  refine ⟨List.forall_mem_cons.2 ⟨hplain, tactic.range.numbers_isPlain⟩, ?_⟩
  rw [Tactic.shownParts, List.all_cons, hshort, Bool.true_and]
  rfl

def Root.tactics (root : Root) : List Tactic := root.step.toList ++ root.children.getD []

def Root.isShort (root : Root) : Bool := root.tactics.all fun tactic => tactic.range.isShort

theorem Root.IsPrintable.tactics {root : Root} (hprintable : root.IsPrintable) :
    ∀ tactic ∈ root.tactics, tactic.IsPrintable := by
  cases hprintable with
  | intro hstep hchildren => exact List.forall_mem_cons.2 ⟨hstep, hchildren⟩

namespace Theorem

theorem goalText_of_isTexts {goals : Value} (hgoals : goals.isTexts = true) :
    ∃ text, goalText goals = .ok (.str text) := by
  cases goals with
  | arr items =>
      obtain ⟨texts, htexts⟩ := Value.exists_textsFrom hgoals 0
      refine ⟨"\n\n".intercalate texts, ?_⟩
      show Value.str <$> ("\n\n".intercalate <$> Value.textsFrom 0 items) = _
      rw [htexts]
      rfl
  | _ => cases hgoals

theorem leftText_of_isTexts {goals : Value} (hgoals : goals.isTexts = true) :
    ∃ text, leftText goals = .ok (.str text) := by
  obtain ⟨text, htext⟩ := goalText_of_isTexts hgoals
  cases goals with
  | arr items =>
      show ∃ text, (if items.length = 0 then .ok (.str "no goals") else goalText (.arr items)) = .ok (.str text)
      split
      · exact ⟨"no goals", rfl⟩
      · exact ⟨text, htext⟩
  | _ => cases hgoals

theorem tacticFields_of_isPrintable {tactic : Tactic} (hprintable : tactic.IsPrintable) :
    ∃ fields, tacticFields tactic = .ok fields ∧
      (tactic.range.isShort = true → ∀ field ∈ fields, field.2.IsReadable) := by
  obtain ⟨before, hbefore⟩ := goalText_of_isTexts hprintable.before
  obtain ⟨after, hafter⟩ := leftText_of_isTexts hprintable.after
  refine ⟨_, bind_eq_ok.2 ⟨_, hbefore, bind_eq_ok.2 ⟨_, hafter, rfl⟩⟩, fun hshort => ?_⟩
  obtain ⟨hstart, hstop⟩ := FileRange.isReadable_of_isShort hshort
  obtain ⟨hplain, htext⟩ := Value.isPlain_of_isTextOrNull hprintable.text
  simp only [List.forall_mem_cons]
  exact ⟨Value.isReadable_of_isPlain hplain htext, .str before, .str after, hstart, hstop, List.forall_mem_nil _⟩

theorem tacticData_of_isPrintable {tactic : Tactic} (hprintable : tactic.IsPrintable) :
    ∃ record, tacticData tactic = .ok record ∧ (tactic.range.isShort = true → record.IsReadable) := by
  obtain ⟨fields, hfields, hreadable⟩ := tacticFields_of_isPrintable hprintable
  exact ⟨.obj fields, by rw [tacticData, hfields]; rfl, fun hshort => .obj (hreadable hshort)⟩

theorem rootData_of_isPrintable {root : Root} (hprintable : root.IsPrintable) :
    ∃ record, rootData root = .ok record ∧ (root.isShort = true → record.IsReadable) := by
  cases hprintable with
  | @intro step children hstep hchildren =>
      obtain ⟨fields, hfields, hreadable⟩ := tacticFields_of_isPrintable hstep
      obtain ⟨steps, hsteps⟩ := exists_mapM_eq_ok fun child hchild =>
        (tacticData_of_isPrintable (hchildren child hchild)).imp fun _ hrecord => hrecord.1
      refine ⟨_, bind_eq_ok.2 ⟨steps, hsteps, bind_eq_ok.2 ⟨fields, hfields, rfl⟩⟩, fun hshort => ?_⟩
      obtain ⟨hstepShort, hchildrenShort⟩ := List.forall_mem_cons.1 (List.all_eq_true.1 hshort)
      refine .obj (List.forall_mem_append.2 ⟨hreadable hstepShort, List.forall_mem_singleton.2 (.arr ?_)⟩)
      intro record hrecord
      obtain ⟨child, hchild, hdata⟩ := exists_of_mem_mapM hsteps hrecord
      obtain ⟨other, hother, hreadableChild⟩ := tacticData_of_isPrintable (hchildren child hchild)
      rw [hdata] at hother
      cases hother
      exact hreadableChild (hchildrenShort child hchild)

theorem rootParts_of_isPrintable {root : Root} (hprintable : root.IsPrintable) :
    (∀ value ∈ rootParts root, value.isPlain = true) ∧
      (rootParts root).all Value.isShortNumber = root.isShort := by
  constructor
  · intro value hvalue
    obtain ⟨tactic, htactic, hshown⟩ := List.mem_flatMap.1 hvalue
    exact (hprintable.tactics tactic htactic).shownParts.1 value hshown
  · rw [rootParts, List.all_flatMap, Bool.eq_iff_iff, List.all_eq_true, Root.isShort, List.all_eq_true]
    refine forall₂_congr fun tactic htactic => ?_
    rw [(hprintable.tactics tactic htactic).shownParts.2]

/-! ### Theorems -/

/-- A theorem all of whose parts are texts and ranges. -/
structure IsPrintable (found : Theorem) : Prop where
  operator : found.operator ∈ operators
  signature : found.signature.isTextOrNull = true
  before : found.before.isTextOrNull = true ∨ found.before.isTexts = true
  after : found.after.isNull = true ∨ found.after.isTexts = true
  roots : ∀ root ∈ found.allRoots, root.IsPrintable

/-- No line and no column that is written for the theorem has too many digits. -/
def isShort (found : Theorem) : Bool := found.proofRange.isShort && found.allRoots.all Root.isShort

theorem leftGoals_of_isTexts {after : Value} (hafter : after.isNull = true ∨ after.isTexts = true) :
    ∃ left, leftGoals after = .ok left ∧ left.isPlain = true ∧ left.isShortNumber = true := by
  cases after with
  | null => exact ⟨.str "no goals", rfl, rfl, rfl⟩
  | arr items =>
      cases items with
      | nil => exact ⟨.str "no goals", rfl, rfl, rfl⟩
      | cons item items =>
          exact ⟨.arr (item :: items), rfl, Value.isPlain_of_isTexts (hafter.resolve_left Bool.false_ne_true)⟩
  | _ => simp [Value.isNull, Value.isTexts] at hafter

/-- The names of the fields that come after the operator. -/
def laterNames : List String :=
  ["theorem_proof", "theorem_proofType", "tactic_before:", "tactic_after", "start", "stop", "tactics",
    "ref_tactics"]

theorem part_operator {found : Theorem} (hoperator : found.operator ∈ operators) (module : String) (left : Value)
    (own : Option Value) (roots : List Value) :
    (Value.obj (dataFields module found left own roots)).held.part "theorem_operator" = .str found.operator := by
  have hheld : ∀ operator ∈ operators, Text.held operator = operator := by decide
  have hnames : ∀ name ∈ laterNames, "theorem_operator" ≠ Text.held name := by decide
  obtain ⟨first, later, hfields, hlater⟩ : ∃ first later,
      dataFields module found left own roots = first ++ ("theorem_operator", .str found.operator) :: later ∧
        ∀ field ∈ later, field.1 ∈ laterNames := by
    refine ⟨[("module", .str module), ("theorem", .str found.name), ("teorem_signature:", found.signature)], _,
      rfl, ?_⟩
    cases own <;> by_cases hroots : roots.isEmpty = true <;> simp [hroots, laterNames]
  have hget : Fields.get? (Value.heldFields [] (dataFields module found left own roots)) "theorem_operator" =
      some (.str found.operator) := by
    rw [hfields, Value.heldFields_append, Value.heldFields,
      Value.get?_heldFields_of_notMem fun field hfield => hnames field.1 (hlater field hfield), Value.get?_put,
      if_pos (by decide), Value.held, hheld found.operator hoperator]
  rw [Value.held, Value.part, hget]
  rfl

theorem checkAllWritable_parts {found : Theorem} (hprintable : found.IsPrintable) {left : Value}
    (hplain : left.isPlain = true) (hshort : left.isShortNumber = true) :
    Value.checkAllWritable (found.signature :: found.before :: left :: (found.proofRange.numbers ++
      (found.proofRoot.toList ++ found.roots).flatMap rootParts)) =
        if found.isShort then .ok () else .error Value.tooManyDigits := by
  obtain ⟨hsignature, hsignatureShort⟩ := Value.isPlain_of_isTextOrNull hprintable.signature
  obtain ⟨hbefore, hbeforeShort⟩ := hprintable.before.elim Value.isPlain_of_isTextOrNull Value.isPlain_of_isTexts
  have hroots : ∀ value ∈ found.allRoots.flatMap rootParts, value.isPlain = true := by
    intro value hvalue
    obtain ⟨root, hroot, hpart⟩ := List.mem_flatMap.1 hvalue
    exact (rootParts_of_isPrintable (hprintable.roots root hroot)).1 value hpart
  have hrootsShort : (found.allRoots.flatMap rootParts).all Value.isShortNumber = found.allRoots.all Root.isShort := by
    rw [List.all_flatMap, Bool.eq_iff_iff, List.all_eq_true, List.all_eq_true]
    refine forall₂_congr fun root hroot => ?_
    rw [(rootParts_of_isPrintable (hprintable.roots root hroot)).2]
  rw [Value.checkAllWritable_eq_ite, List.all_cons, List.all_cons, List.all_cons, List.all_append, hsignatureShort,
    hbeforeShort, hshort, ← allRoots, hrootsShort]
  · rfl
  · simp only [List.forall_mem_cons, List.forall_mem_append]
    exact ⟨hsignature, hbefore, hplain, found.proofRange.numbers_isPlain, hroots⟩

theorem isReadable_of_rootData {root : Root} (hprintable : root.IsPrintable) (hshort : root.isShort = true)
    {record : Value} (hrecord : rootData root = .ok record) : record.IsReadable := by
  obtain ⟨other, hother, hreadable⟩ := rootData_of_isPrintable hprintable
  rw [hrecord] at hother
  cases hother
  exact hreadable hshort

theorem dataFields_isReadable {found : Theorem} (hprintable : found.IsPrintable) (hshort : found.isShort = true)
    (module : String) {left : Value} (hleft : left.IsReadable) {own : Option Value}
    (hown : found.proofRoot.mapM rootData = .ok own) {roots : List Value}
    (hroots : found.roots.mapM rootData = .ok roots) :
    ∀ field ∈ dataFields module found left own roots, field.2.IsReadable := by
  obtain ⟨hrange, hrootsShort⟩ := Bool.and_eq_true_iff.1 hshort
  obtain ⟨hstart, hstop⟩ := FileRange.isReadable_of_isShort hrange
  have hreadable {root : Root} (hroot : root ∈ found.allRoots) {record : Value}
      (hrecord : rootData root = .ok record) : record.IsReadable :=
    isReadable_of_rootData (hprintable.roots root hroot) (List.all_eq_true.1 hrootsShort root hroot) hrecord
  have hplain {value : Value} (hvalue : value.isPlain = true ∧ value.isShortNumber = true) : value.IsReadable :=
    Value.isReadable_of_isPlain hvalue.1 hvalue.2
  have hownReadable : ∀ record ∈ own, record.IsReadable := by
    intro record hrecord
    obtain ⟨root, hroot, hdata⟩ := exists_of_mem_option_mapM hown hrecord
    exact hreadable (List.mem_append_left _ (Option.mem_toList.2 hroot)) hdata
  have hrootsReadable : ∀ record ∈ roots, record.IsReadable := by
    intro record hrecord
    obtain ⟨root, hroot, hdata⟩ := exists_of_mem_mapM hroots hrecord
    exact hreadable (List.mem_append_right _ hroot) hdata
  simp only [dataFields, List.forall_mem_append, List.forall_mem_cons]
  refine ⟨⟨⟨.str _, .str _, hplain (Value.isPlain_of_isTextOrNull hprintable.signature), .str _, .str _, .str _,
    hplain (hprintable.before.elim Value.isPlain_of_isTextOrNull Value.isPlain_of_isTexts), hleft, hstart, hstop,
    List.forall_mem_nil _⟩, ?_⟩, ?_⟩
  · intro field hfield
    obtain ⟨record, hrecord, rfl⟩ := List.mem_map.1 hfield
    exact hownReadable record (Option.mem_toList.1 hrecord)
  · split
    · exact List.forall_mem_nil _
    · exact List.forall_mem_singleton.2 (.arr hrootsReadable)

/-- What keeps a theorem from being written is a number with too many digits and nothing else. -/
theorem data_eq_ite {found : Theorem} (hprintable : found.IsPrintable) (module : String) :
    ∃ record, data module found = (if found.isShort then .ok record else .error Value.tooManyDigits) ∧
      (found.isShort = true → record.IsReadable ∧
        record.held.part "theorem_operator" = .str found.operator) := by
  have hrootData (root : Root) (hroot : root ∈ found.allRoots) : ∃ record, rootData root = .ok record :=
    (rootData_of_isPrintable (hprintable.roots root hroot)).imp fun _ hrecord => hrecord.1
  obtain ⟨roots, hroots⟩ := exists_mapM_eq_ok fun root hroot => hrootData root (List.mem_append_right _ hroot)
  obtain ⟨own, hown⟩ := exists_option_mapM_eq_ok fun root hroot =>
    hrootData root (List.mem_append_left _ (Option.mem_toList.2 hroot))
  obtain ⟨left, hleft, hplain, hleftShort⟩ := leftGoals_of_isTexts hprintable.after
  refine ⟨.obj (dataFields module found left own roots), ?_, fun hshort => ⟨?_, part_operator hprintable.operator ..⟩⟩
  · rw [data, hroots, ok_bind, hleft, ok_bind, hown, ok_bind, checkAllWritable_parts hprintable hplain hleftShort]
    cases found.isShort with
    | true => rfl
    | false => rfl
  · have hleftReadable := Value.isReadable_of_isPlain hplain hleftShort
    exact .obj (dataFields_isReadable hprintable hshort module hleftReadable hown hroots)

end Theorem

/-! ### Typed dumps -/

namespace Dump

/-- The info trees of a module. -/
def forest (dump : Dump) : List InfoTree :=
  match dump.trees with
  | none => []
  | some trees =>
    match InfoTree.forest trees with
    | .error _ => []
    | .ok forest => forest

/-- The nodes of the info trees are typed, and the printed signatures of theorems are texts. -/
@[mk_iff]
structure IsTyped (dump : Dump) : Prop where
  nodes : ∀ tree ∈ InfoTree.subtrees dump.forest, tree.IsTyped
  signatures : ∀ declaration ∈ dump.theoremDeclarations,
    ((declaration.part "signature").part "pp").isTextOrNull = true

instance (dump : Dump) : Decidable dump.IsTyped := decidable_of_iff _ (isTyped_iff dump).symm

end Dump

namespace Theorem

theorem contextOf_isTyped {files : Option FileTree} {root : String} {module : Value} {dump : Dump}
    (htyped : dump.IsTyped) {trees : Value} (htrees : dump.trees = some trees) {context : Context}
    (hcontext : contextOf files root module dump.lineStarts trees = .ok context) :
    (∀ root ∈ context.roots, root.IsPrintable) ∧ ∀ term ∈ context.terms, term.type.isText = true := by
  obtain ⟨-, forest, hforest, hroots, hterms⟩ := contextOf_collects hcontext
  have hdump : dump.forest = forest := by simp only [Dump.forest, htrees, hforest]
  have hnodes := htyped.nodes
  rw [hdump] at hnodes
  exact ⟨InfoTree.rootsAfter_isPrintable hnodes (List.forall_mem_nil _) hroots,
    InfoTree.terms_isText hnodes hterms⟩

theorem rootsWithin_subset {range : FileRange} {roots within : List Root}
    (hprintable : ∀ root ∈ roots, root.IsPrintable) (hwithin : rootsWithin range roots = .ok within) :
    within ⊆ roots := by
  have hfilter : rootsWithin range roots = .ok (roots.filter fun root => root.range?.any range.covers) := by
    refine filterM_eq_ok_filter fun root hroot => ?_
    cases hprintable root hroot
    rfl
  rw [hfilter] at hwithin
  cases hwithin
  exact List.filter_sublist.subset

theorem isPrintable_of_extract {context : Context} (hroots : ∀ root ∈ context.roots, root.IsPrintable)
    (hterms : ∀ term ∈ context.terms, term.type.isText = true) {declaration : Value}
    (hsignature : ((declaration.part "signature").part "pp").isTextOrNull = true) {found : Theorem}
    {printed : String} (hextract : extract context declaration = .ok (some found, printed)) :
    found.IsPrintable := by
  obtain ⟨reading, hreads, hchosen⟩ := extract_eq_some hextract
  have hwithin : ∀ root ∈ found.allRoots, root.IsPrintable := by
    rw [allRoots_of_chosen hchosen]
    exact fun root hroot => hroots root (rootsWithin_subset hroots hreads.roots hroot)
  rw [hreads.signature] at hsignature
  cases hchosen with
  | @ownRoot own step others hby hown hstep =>
      cases hwithin own List.mem_cons_self with
      | intro hprintable hchildren =>
          cases hstep
          exact ⟨hreads.isOperator, hsignature, .inr hprintable.before, .inr hprintable.after, hwithin⟩
  | @standIn term hheads hterm =>
      obtain ⟨candidate, -, hcandidate⟩ := List.exists_of_findSome?_eq_some hterm
      obtain ⟨text, htext⟩ := Value.exists_of_isText (hterms term (List.mem_of_find?_eq_some hcandidate))
      have htype : term.type.isTextOrNull = true := by rw [htext]; rfl
      exact ⟨hreads.isOperator, hsignature, .inl htype, .inl rfl, hwithin⟩
  | stateless hby hheads hterm =>
      exact ⟨hreads.isOperator, hsignature, .inl rfl, .inl rfl, hwithin⟩

theorem isPrintable_of_ofModule {files : Option FileTree} {root : String} {dumps : Dumps} {module : Value}
    {dump : Dump} (hdump : dumps.get module = .ok dump) (htyped : dump.IsTyped)
    (hfault : (ofModule files root dumps module).fault = none) :
    ∀ found ∈ (ofModule files root dumps module).theorems, found.IsPrintable := by
  rcases ofModule_cases hdump hfault with
    hnone | ⟨trees, context, declarations, htrees, hcontext, hdecls, hwalk⟩
  · rw [hnone]
    exact List.forall_mem_nil _
  · obtain ⟨hroots, hterms⟩ := contextOf_isTyped htyped htrees hcontext
    rw [hwalk] at hfault ⊢
    obtain ⟨pairs, hsublist, htheorems, hpairs⟩ := extractAll_pairs hfault
    rw [htheorems]
    intro found hfound
    obtain ⟨pair, hpair, rfl⟩ := List.mem_map.1 hfound
    obtain ⟨printed, hextract⟩ := hpairs pair hpair
    have hdeclaration := hsublist.subset (List.mem_map_of_mem hpair)
    rw [hdecls] at hdeclaration
    exact isPrintable_of_extract hroots hterms (htyped.signatures pair.1 hdeclaration) hextract

end Theorem

end ProofDump
