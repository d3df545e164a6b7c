import Mathlib
import ProofDump.Proofs.InfoTree.Terms
import ProofDump.Proofs.Name
import ProofDump.Proofs.Text.Search
import ProofDump.Proofs.Theorem.Extract
import ProofDump.Theorem.Export

/-!
# The term that supplies a state

A theorem that takes no root as its proof has its state from a term. The texts that are tried for its name are
listed from its parts (`spellings`), and the search is a first match: the first text that any term within the
theorem has, and the first of the terms with that text (`isFirstNamed_of_standIn?`). Only outermost identifiers
are searched, so a name below another identifier is passed over (`state_of_first_named_term`).
-/

namespace ProofDump.Theorem

/-! ### Spellings of a name -/

/-- The texts that may stand for a name with the given parts, in the order in which they are tried: its ends from
the longest to the shortest, each also with an at sign unless it has one, the name below the root, and the
last part between guillemets. -/
def spellings (parts : List String) : List String :=
  ((List.range parts.length).flatMap fun first =>
    let suffix := ".".intercalate (parts.drop first)
    if suffix.toList.head? = some '@' then [suffix] else [suffix, "@" ++ suffix]) ++
  ["_root_." ++ ".".intercalate parts, "@_root_." ++ ".".intercalate parts,
    "«" ++ parts.getLastD "" ++ "»", "@«" ++ parts.getLastD "" ++ "»"]

theorem suffixes_eq (parts : List String) :
    suffixes parts = (List.range parts.length).map fun first => ".".intercalate (parts.drop first) := by
  induction parts with
  | nil => rfl
  | cons part parts ih =>
      rw [suffixes, ih, List.length_cons, List.range_succ_eq_map, List.map_cons, List.map_map]
      rfl

theorem withAt_eq (name : String) :
    withAt name = if name.toList.head? = some '@' then [name] else [name, "@" ++ name] := by
  have hstarts : Text.startsWith ['@'] name.toList = true ↔ name.toList.head? = some '@' := by
    rw [Text.startsWith_iff]
    cases name.toList with
    | nil => simp
    | cons c rest => simp [List.cons_prefix_cons, eq_comm]
  rw [withAt]
  simp only [hstarts]

theorem candidates_eq_spellings {parts : List String} (hparts : Name.IsParts parts) :
    candidates (".".intercalate parts) = spellings parts := by
  have hsplit : Text.splitAt '.' (".".intercalate parts) = parts := Name.parse_intercalate hparts
  have hquoted : "@" ++ ("«" ++ parts.getLastD "" ++ "»") = "@«" ++ parts.getLastD "" ++ "»" := by
    rw [← String.append_assoc, ← String.append_assoc]
    rfl
  simp only [candidates, spellings, hsplit, suffixes_eq, List.flatMap_map, withAt_eq,
    ← List.getLastD_eq_getLast?, hquoted]

/-! ### The first term that is named -/

/-- The term lies within a range and has the given text. -/
def Names (range : FileRange) (text : String) (term : Term) : Prop :=
  range.covers term.range = true ∧ term.ident = .str text

/-- The term is the first one with the first of some texts that a term within a range has. -/
def IsFirstNamed (range : FileRange) (texts : List String) (terms : List Term) (term : Term) : Prop :=
  ∃ earlier text later front back, texts = earlier ++ text :: later ∧ terms = front ++ term :: back ∧
    Names range text term ∧ (∀ other ∈ front, ¬ Names range text other) ∧
    ∀ skipped ∈ earlier, ∀ other ∈ terms, ¬ Names range skipped other

theorem names_iff {range : FileRange} {text : String} {term : Term} :
    (range.covers term.range && term.ident.same (.str text)) = true ↔ Names range text term := by
  rw [Bool.and_eq_true, Value.same_str_iff]
  rfl

theorem findTerm_eq_none_iff {range : FileRange} {text : String} {terms : List Term} :
    findTerm range (.str text) terms = none ↔ ∀ term ∈ terms, ¬ Names range text term := by
  rw [findTerm, List.find?_eq_none]
  simp only [names_iff]

theorem findTerm_eq_some_iff {range : FileRange} {text : String} {terms : List Term} {term : Term} :
    findTerm range (.str text) terms = some term ↔ Names range text term ∧
      ∃ front back, terms = front ++ term :: back ∧ ∀ other ∈ front, ¬ Names range text other := by
  rw [findTerm, List.find?_eq_some_iff_append]
  simp only [Bool.not_eq_true', ← Bool.not_eq_true, names_iff]

theorem standIn?_eq_none_iff {range : FileRange} {name : String} {terms : List Term} :
    standIn? range name terms = none ↔
      ∀ text ∈ candidates name, ∀ term ∈ terms, ¬ Names range text term := by
  rw [standIn?, List.findSome?_eq_none_iff]
  simp only [findTerm_eq_none_iff]

theorem isFirstNamed_of_standIn? {range : FileRange} {name : String} {terms : List Term} {term : Term}
    (hterm : standIn? range name terms = some term) : IsFirstNamed range (candidates name) terms term := by
  obtain ⟨earlier, text, later, hcandidates, hfound, hskipped⟩ := List.findSome?_eq_some_iff.1 hterm
  obtain ⟨hnames, front, back, hterms, hfront⟩ := findTerm_eq_some_iff.1 hfound
  exact ⟨earlier, text, later, front, back, hcandidates, hterms, hnames, hfront,
    fun skipped hmem => findTerm_eq_none_iff.1 (hskipped skipped hmem)⟩

/-! ### States -/

/-- Extraction reads a declaration as far as the search for a term, since no root is taken as its proof. -/
structure Searches (context : Context) (declaration : Value) (reading : Reading) : Prop where
  record : declaration.IsRecord
  ref : (declaration.part "ref").IsRecord
  signature : (declaration.part "signature").IsRecord
  value : (declaration.part "value").IsRecord
  reads : Reads context declaration reading
  untaken : reading.byTactic = true → ∀ own ∈ reading.roots.head?, own.step = none

/-- The theorem of a reading with no root of its own, and what its proof starts from. -/
def Reading.withState (reading : Reading) (state : Value) : Theorem :=
  reading.theoremWith none reading.roots state .null

theorem part_before {module : String} {entry : Theorem} {record : Value} (hdata : data module entry = .ok record) :
    record.part "tactic_before:" = entry.before := by
  unfold data at hdata
  replace ⟨roots, _, hdata⟩ := bind_eq_ok.1 hdata
  replace ⟨after, _, hdata⟩ := bind_eq_ok.1 hdata
  replace ⟨own, _, hdata⟩ := bind_eq_ok.1 hdata
  replace ⟨_, _, hdata⟩ := bind_eq_ok.1 hdata
  cases hdata
  rfl

theorem exists_loadedIndex_of_name? {module nameParts : Value} {name : String}
    (hname : name? module nameParts = .ok (some name)) : ∃ first, nameParts.loadedIndex 0 = .ok first := by
  unfold name? at hname
  split at hname
  · cases hname
  · obtain ⟨length, -, hname⟩ := bind_eq_ok.1 hname
    split at hname
    · cases hname
    · obtain ⟨first, hfirst, -⟩ := bind_eq_ok.1 hname
      exact ⟨first, hfirst⟩

/-- What is chosen when no root is: the type of the term that stands for the theorem, or no state, for which a
term proof is dropped. -/
theorem Reading.choose_untaken {context : Context} {nameParts : Value} {reading : Reading}
    (hname : name? context.module nameParts = .ok (some reading.name))
    (huntaken : reading.byTactic = true → ∀ own ∈ reading.roots.head?, own.step = none) :
    (∃ term, standIn? reading.range reading.name context.terms = some term ∧
      reading.choose context nameParts = .ok (some (reading.withState term.type), "")) ∨
    standIn? reading.range reading.name context.terms = none ∧ ∃ printed,
      reading.choose context nameParts =
        .ok (if reading.byTactic then some (reading.withState .null) else none, printed) := by
  rw [choose]
  split
  · rename_i step children others hby hroots
    have hnone := huntaken hby ⟨some step, children⟩ (by rw [hroots]; rfl)
    cases hnone
  · cases hterm : standIn? reading.range reading.name context.terms with
    | some term => exact .inl ⟨term, rfl, rfl⟩
    | none =>
        right
        refine ⟨rfl, ?_⟩
        cases hby : reading.byTactic with
        | true => exact ⟨_, rfl⟩
        | false =>
            obtain ⟨first, hfirst⟩ := exists_loadedIndex_of_name? hname
            simp only [hfirst, ok_bind, Bool.false_eq_true, if_false]
            split
            · exact ⟨_, rfl⟩
            · exact ⟨_, rfl⟩

/-- A theorem that takes no root as its proof is exported with the type of a term as its state. Terms are those of
the identifiers that have no identifier above them, in preorder. The one that counts is the first, within
the range of the theorem, of those with the first spelling of the name that any of them has. Where none has
one, a tactic proof is exported without a state and a term proof is dropped. -/
theorem state_of_first_named_term {files : Option FileTree} {root : String} {module : Value} {lines : LineStarts}
    {trees : Value} {context : Context} (hcontext : contextOf files root module lines trees = .ok context)
    {declaration : Value} {reading : Reading} (hsearches : Searches context declaration reading)
    {parts : List String} (hparts : Name.IsParts parts) (hname : reading.name = ".".intercalate parts) :
    (∃ forest, InfoTree.forest trees = .ok forest ∧
      List.Forall₂ (InfoTree.IsTermOf lines) (InfoTree.outermostOf InfoTree.isTerm [] forest) context.terms) ∧
    ((∃ term, IsFirstNamed reading.range (spellings parts) context.terms term ∧
        extract context declaration = .ok (some (reading.withState term.type), "")) ∨
      (∀ text ∈ spellings parts, ∀ term ∈ context.terms, ¬ Names reading.range text term) ∧ ∃ printed,
        extract context declaration =
          .ok (if reading.byTactic then some (reading.withState .null) else none, printed)) ∧
    ∀ state name record, data name (reading.withState state) = .ok record →
      record.part "tactic_before:" = state := by
  obtain ⟨-, forest, hforest, -, hterms⟩ := contextOf_collects hcontext
  have hcandidates : candidates reading.name = spellings parts := by
    rw [hname]
    exact candidates_eq_spellings hparts
  have hextract := extract_eq_choose hsearches.record hsearches.ref hsearches.signature hsearches.value
    hsearches.reads
  refine ⟨⟨forest, hforest, InfoTree.terms_collected hterms (List.forall_mem_nil _)⟩, ?_,
    fun state name record hdata => part_before hdata⟩
  rw [hextract, ← hcandidates]
  rcases Reading.choose_untaken hsearches.reads.name hsearches.untaken with
    ⟨term, hterm, hchoose⟩ | ⟨hterm, printed, hchoose⟩
  · exact .inl ⟨term, isFirstNamed_of_standIn? hterm, hchoose⟩
  · exact .inr ⟨standIn?_eq_none_iff.1 hterm, printed, hchoose⟩

/-! ### A name below another one -/

def identTree (text type : String) (bytes : ByteRange) (children : List Value) : Value :=
  .obj [("info", .obj [("term", .obj [("value", .str text), ("type", .str type), ("expected_type", .null)])]),
    ("ref", .obj [("kind", .arr [.str "ident"]), ("range", bytes.value)]), ("children", .arr children)]

/-- The whole name of the theorem stands below another identifier, and its last part twice beside that. -/
def shadowedName : Value :=
  .arr [identTree "x" "X" ⟨0, 9⟩ [identTree "A.foo" "Hidden" ⟨0, 5⟩ []], identTree "foo" "First" ⟨10, 13⟩ [],
    identTree "foo" "Second" ⟨14, 17⟩ []]

def shadowedTheorem : Value :=
  .obj [("kind", .str "theorem"), ("name", .arr [.str "A", .str "foo"]),
    ("ref", .obj [("range", ByteRange.value ⟨0, 20⟩)]),
    ("signature", .obj [("pp", .str "True"), ("range", ByteRange.value ⟨0, 10⟩)]),
    ("value", .obj [("pp", .str ":= trivial"), ("range", ByteRange.value ⟨10, 20⟩)])]

def shadowedContext : Context where
  files := none
  root := ""
  module := .arr [.str "M"]
  lines := ⟨[0], []⟩
  roots := []
  terms := [⟨⟨⟨1, 1⟩, ⟨1, 10⟩⟩, .str "x", .str "X"⟩, ⟨⟨⟨1, 11⟩, ⟨1, 14⟩⟩, .str "foo", .str "First"⟩,
    ⟨⟨⟨1, 15⟩, ⟨1, 18⟩⟩, .str "foo", .str "Second"⟩]

def shadowedReading : Reading where
  name := "A.foo"
  range := ⟨⟨1, 1⟩, ⟨1, 21⟩⟩
  roots := []
  signature := .str "True"
  signatureRange := ⟨⟨1, 1⟩, ⟨1, 11⟩⟩
  proofRange := ⟨⟨1, 11⟩, ⟨1, 21⟩⟩
  statement := .str ":= trivial"
  operator := ":="

theorem contextOf_shadowedName :
    contextOf none "" (.arr [.str "M"]) ⟨[0], []⟩ shadowedName = .ok shadowedContext := by
  cbv

theorem shadowedTheorem_searches : Searches shadowedContext shadowedTheorem shadowedReading where
  record := ⟨_, rfl⟩
  ref := ⟨_, rfl⟩
  signature := ⟨_, rfl⟩
  value := ⟨_, rfl⟩
  reads := ⟨rfl, rfl, rfl, rfl, rfl, rfl, rfl, rfl, by decide⟩
  untaken := by
    intro _ own hown
    cases hown

theorem shadowedTheorem_state :
    contextOf none "" (.arr [.str "M"]) ⟨[0], []⟩ shadowedName = .ok shadowedContext ∧
      Searches shadowedContext shadowedTheorem shadowedReading ∧ Name.IsParts ["A", "foo"] ∧
      (∃ term, IsFirstNamed shadowedReading.range (spellings ["A", "foo"]) shadowedContext.terms term ∧
        extract shadowedContext shadowedTheorem = .ok (some (shadowedReading.withState term.type), "")) ∧
      extract shadowedContext shadowedTheorem = .ok (some (shadowedReading.withState (.str "First")), "") := by
  have hparts : Name.IsParts ["A", "foo"] := ⟨by decide, by decide⟩
  obtain ⟨-, hstate, -⟩ :=
    state_of_first_named_term contextOf_shadowedName shadowedTheorem_searches hparts rfl
  refine ⟨contextOf_shadowedName, shadowedTheorem_searches, hparts, hstate.resolve_right fun hnone => ?_, rfl⟩
  exact hnone.1 "foo" (by decide) ⟨⟨⟨1, 11⟩, ⟨1, 14⟩⟩, .str "foo", .str "First"⟩ (by simp [shadowedContext])
    ⟨by decide, rfl⟩

end ProofDump.Theorem
