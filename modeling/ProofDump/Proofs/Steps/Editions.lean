import Mathlib
import ProofDump.Proofs.Steps.Export
import ProofDump.Proofs.Steps.Extract

/-!
# The two editions of an export

The newer edition looks for the state before a proof under more names, and it falls back on that state
where a proof is missing. Neither changes what the older edition has: from one dump both write as many
records, and a record of the newer edition differs from the older one only where that has a null, at the
proof and in the step that stands for it.
-/

namespace ProofDump.Steps

/-- A value of the older edition with what stands in its place in the newer one: the same, unless it is
null. -/
def FilledBy (older newer : Value) : Prop := older = .null ∨ newer = older

/-- The newer record is the older one with the proof filled, and with that the step that stands for it. -/
inductive Refines : Value → Value → Prop
  | proof (module name : String) (range : FileRange) (steps beside : List Value)
      {older newer : Value} (hproof : FilledBy older newer) :
      Refines (recordWith module name older range steps beside)
        (recordWith module name newer range steps beside)
  | whole (module name : String) (range : FileRange) (beside : List Value)
      {older newer before later : Value} (hproof : FilledBy older newer)
      (hbefore : FilledBy before later) :
      Refines (recordWith module name older range [wholeStep older before range] beside)
        (recordWith module name newer range [wholeStep newer later range] beside)

/-! ### States before proofs -/

theorem loadedLength_ne_zero {names first : Value} (hfirst : names.loadedIndex 0 = .ok first) :
    names.loadedLength ≠ .ok 0 := by
  cases names with
  | arr items =>
      cases items with
      | nil => cases hfirst
      | cons item rest => simp [Value.loadedLength, Value.length]
  | str text =>
      intro hlength
      have hempty : text = "" := by
        simpa [Value.loadedLength, Value.length] using hlength
      subst hempty
      cases hfirst
  | _ => cases hfirst

/-- The first name that the newer edition tries is the one that the older edition looks for. -/
theorem stateBefore_filledBy {range : FileRange} {name : String} {names first : Value}
    {terms : List Term} {older newer : Value} (hfirst : names.loadedIndex 0 = .ok first)
    (hname : names.joinWith "." = .ok name)
    (holder : stateBefore .older range name names terms = .ok older)
    (hnewer : stateBefore .newer range name names terms = .ok newer) : FilledBy older newer := by
  unfold stateBefore at holder hnewer
  cases hfound : findTerm range (.str name) terms with
  | none =>
      simp only [hfound] at holder
      cases holder
      exact .inl rfl
  | some term =>
      simp only [hfound] at holder
      cases holder
      obtain ⟨length, hlength, hnewer⟩ := bind_eq_ok.1 hnewer
      have hsome : length ≠ 0 := fun hzero => loadedLength_ne_zero hfirst (hzero ▸ hlength)
      rw [typeBySuffix] at hnewer
      obtain ⟨other, hother, hnewer⟩ := bind_eq_ok.1 hnewer
      cases hlength.symm.trans hother
      rw [if_neg hsome, hname] at hnewer
      obtain ⟨joined, hjoined, hnewer⟩ := bind_eq_ok.1 hnewer
      cases hjoined
      obtain ⟨lacks, -, hnewer⟩ := bind_eq_ok.1 hnewer
      simp only [hfound] at hnewer
      -- What would be tried next is made in any case, and then not used.
      have htype : newer = term.type := by
        cases lacks with
        | true =>
            obtain ⟨last, -, hnewer⟩ := bind_eq_ok.1 hnewer
            split at hnewer <;> cases hnewer
            rfl
        | false =>
            simp only [Bool.false_eq_true, if_false] at hnewer
            split at hnewer <;> cases hnewer
            rfl
      exact .inr htype

/-! ### Entries -/

/-- The entries agree but for the state before the proof, which the newer one may fill. -/
def EntryFilledBy (older newer : Entry) : Prop :=
  newer = { older with before := newer.before } ∧ FilledBy older.before newer.before

theorem Reads.entryFilledBy {lines : LineStarts} {roots : List Root} {terms : List Term}
    {declaration : Value} {older newer : Entry} (hpublic : IsPublicTheorem declaration)
    (holder : Reads .older lines roots terms declaration older)
    (hnewer : Reads .newer lines roots terms declaration newer) : EntryFilledBy older newer := by
  have hname : older.name = newer.name := Except.ok.inj (holder.name.symm.trans hnewer.name)
  have hrange : older.range = newer.range := Except.ok.inj (holder.range.symm.trans hnewer.range)
  have hroots : older.roots = newer.roots := by
    have hnewerRoots := hnewer.roots
    rw [← hrange] at hnewerRoots
    exact Except.ok.inj (holder.roots.symm.trans hnewerRoots)
  have hsignatureRange : older.signatureRange = newer.signatureRange :=
    Except.ok.inj (holder.signatureRange.symm.trans hnewer.signatureRange)
  have hproofRange : older.proofRange = newer.proofRange :=
    Except.ok.inj (holder.proofRange.symm.trans hnewer.proofRange)
  obtain ⟨-, first, hfirst, -⟩ := hpublic
  have hbefore : FilledBy older.before newer.before := by
    have hnewerBefore := hnewer.before
    rw [← hname, ← hrange] at hnewerBefore
    exact stateBefore_filledBy hfirst holder.name holder.before hnewerBefore
  have hsignature : older.signature = newer.signature := holder.signature.trans hnewer.signature.symm
  have hproof : older.proof = newer.proof := holder.proof.trans hnewer.proof.symm
  have htype : older.type = newer.type := holder.type.trans hnewer.type.symm
  refine ⟨?_, hbefore⟩
  rw [hname, hrange, hroots, hsignatureRange, hproofRange, hsignature, hproof, htype]

theorem entryOf?_rel {lines : LineStarts} {roots : List Root} {terms : List Term} {declaration : Value}
    {older newer : Option Entry} (holder : entryOf? .older lines roots terms declaration = .ok older)
    (hnewer : entryOf? .newer lines roots terms declaration = .ok newer) :
    Option.Rel EntryFilledBy older newer := by
  rcases entryOf?_cases holder with ⟨rfl, hprivate⟩ | ⟨entry, rfl, hpublic, hreads⟩
  · rcases entryOf?_cases hnewer with ⟨rfl, -⟩ | ⟨other, rfl, hpublic, -⟩
    · exact .none
    · exact absurd hpublic hprivate
  · rcases entryOf?_cases hnewer with ⟨rfl, hprivate⟩ | ⟨other, rfl, -, hother⟩
    · exact absurd hpublic hprivate
    · exact .some (hreads.entryFilledBy hpublic hother)

theorem terms_older_of_newer {module : Value} {lines : LineStarts} {trees : List InfoTree}
    {found : List Term} {printed : String}
    (hterms : terms .newer module lines trees = (found, printed, none)) :
    terms .older module lines trees = (found, "", none) := by
  unfold terms at hterms ⊢
  cases hwalk : InfoTree.terms lines trees with
  | mk walked fault =>
      simp only [hwalk] at hterms ⊢
      split at hterms
      · cases hnotices : termNotices "" walked with
        | mk notices early =>
            simp only [hnotices] at hterms
            cases early with
            | some early => cases hterms
            | none =>
                cases fault with
                | some fault => cases hterms
                | none =>
                    cases hterms
                    rfl
      · cases hterms
        rfl

theorem harvest_rel {module declarations trees : Value} {lines : LineStarts} {older newer : List Entry}
    (holder : (harvest .older module lines declarations trees).entries = .ok older)
    (hnewer : (harvest .newer module lines declarations trees).entries = .ok newer) :
    List.Forall₂ EntryFilledBy older newer := by
  unfold harvest at holder hnewer
  cases hforest : InfoTree.forest trees with
  | error fault =>
      simp only [hforest] at holder
      cases holder
  | ok forest =>
      simp only [hforest] at holder hnewer
      cases hroots : InfoTree.roots .innerFirst lines forest with
      | error fault =>
          simp only [hroots] at holder
          cases holder
      | ok roots =>
          simp only [hroots] at holder hnewer
          split at hnewer
          · cases hnewer
          · rename_i found printed hterms
            rw [terms_older_of_newer hterms] at holder
            obtain ⟨items, hitems, holder⟩ := bind_eq_ok.1 holder
            obtain ⟨others, hothers, hnewer⟩ := bind_eq_ok.1 hnewer
            cases hitems.symm.trans hothers
            exact filterMapM_rel (fun item _ one other => entryOf?_rel) holder hnewer

theorem ofModule_rel {dumps : Dumps} {module : Value} {older newer : List Entry}
    (holder : (ofModule .older dumps module).entries = .ok older)
    (hnewer : (ofModule .newer dumps module).entries = .ok newer) :
    List.Forall₂ EntryFilledBy older newer := by
  unfold ofModule at holder hnewer
  cases hdump : dumps.get module with
  | error fault =>
      simp only [hdump] at holder
      cases holder
  | ok dump =>
      simp only [hdump] at holder hnewer
      cases hdeclarations : dump.declarations with
      | none =>
          simp only [hdeclarations] at holder hnewer
          cases holder
          cases hnewer
          exact .nil
      | some declarations =>
          cases htrees : dump.trees with
          | none =>
              simp only [hdeclarations, htrees] at holder hnewer
              cases holder
              cases hnewer
              exact .nil
          | some trees =>
              simp only [hdeclarations, htrees] at holder hnewer
              exact harvest_rel holder hnewer

/-! ### Records -/

theorem settleProof_filledBy (module : String) (older newer : Entry) (proof : Value) :
    FilledBy (settleProof .older module older proof).1 (settleProof .newer module newer proof).1 := by
  cases proof with
  | null => exact .inl rfl
  | _ => exact .inr rfl

theorem IsRecordOf.refines {module : String} {older newer : Entry} {olderRecord newerRecord : Value}
    (hentry : EntryFilledBy older newer) (holder : IsRecordOf .older module older olderRecord)
    (hnewer : IsRecordOf .newer module newer newerRecord) : Refines olderRecord newerRecord := by
  obtain ⟨olderLine, holderLine, rfl⟩ := holder
  obtain ⟨newerLine, hnewerLine, rfl⟩ := hnewer
  obtain ⟨tactical, gathered, htactical, hgathered, holderRecord⟩ := line_eq_ok holderLine
  obtain ⟨otherTactical, other, hotherTactical, hother, hnewerRecord⟩ := line_eq_ok hnewerLine
  obtain ⟨hsame, hbefore⟩ := hentry
  -- What is gathered from the roots does not depend on the state before the proof.
  have hproof : newer.proof = older.proof := by rw [hsame]
  have hroots : newer.roots = older.roots := by rw [hsame]
  have hname : newer.name = older.name := by rw [hsame]
  have hrange : newer.proofRange = older.proofRange := by rw [hsame]
  rw [hproof] at hotherTactical hother
  cases htactical.symm.trans hotherTactical
  rw [hroots] at hother
  cases hgathered.symm.trans hother
  rw [holderRecord, hnewerRecord, hname, hrange]
  have hsettled := settleProof_filledBy module older newer gathered.proof
  unfold Gathered.steps
  split_ifs
  · exact .whole module older.name older.proofRange gathered.beside hsettled hbefore
  · exact .proof module older.name older.proofRange gathered.own gathered.beside hsettled

theorem forall₂_refines {module : String} {older newer : List Entry} {olderRecords newerRecords : List Value}
    (hentries : List.Forall₂ EntryFilledBy older newer)
    (holder : List.Forall₂ (IsRecordOf .older module) older olderRecords)
    (hnewer : List.Forall₂ (IsRecordOf .newer module) newer newerRecords) :
    List.Forall₂ Refines olderRecords newerRecords := by
  induction hentries generalizing olderRecords newerRecords with
  | nil =>
      cases holder
      cases hnewer
      exact .nil
  | cons hentry hentries ih =>
      cases holder with
      | cons holderRecord holder =>
          cases hnewer with
          | cons hnewerRecord hnewer =>
              exact .cons (holderRecord.refines hentry hnewerRecord) (ih holder hnewer)

/-- From one dump both editions write as many records, each on a line of its own, and those of the newer
edition are the older ones with nulls filled, at the proof and in the step that stands for it. -/
theorem newer_edition_refines_older {dumps : Dumps} {module : Value}
    (holder : (exportModule .older dumps {} module).fault = none)
    (hnewer : (exportModule .newer dumps {} module).fault = none) :
    ∃ older newer : List Value,
      (exportModule .older dumps {} module).written = Json.text older ∧
      (exportModule .newer dumps {} module).written = Json.text newer ∧
      Text.lines (Json.text older).toList = older.map (fun record => (Json.line record ++ "\n").toList) ∧
      Text.lines (Json.text newer).toList = newer.map (fun record => (Json.line record ++ "\n").toList) ∧
      List.Forall₂ Refines older newer := by
  obtain ⟨olderEntries, name, older, holderEntries, hname, holder, holderText⟩ := exportModule_writes holder
  obtain ⟨newerEntries, other, newer, hnewerEntries, hother, hnewer, hnewerText⟩ := exportModule_writes hnewer
  cases hname.symm.trans hother
  have hentries := ofModule_rel holderEntries hnewerEntries
  exact ⟨older, newer, holderText, hnewerText, Json.lines_text older, Json.lines_text newer,
    forall₂_refines hentries holder hnewer⟩

/-! ### A theorem known by the end of its name -/

def suffixDeclaration : Value :=
  .obj [("kind", .str "theorem"), ("name", Value.texts ["A", "x"]), ("ref", .obj []),
    ("signature", .obj []), ("value", .obj []), ("type", .obj [])]

def suffixTree : Value :=
  .obj [("info", .obj [("term", .obj [("value", .str "x"), ("type", .str "T")])]),
    ("ref", .obj [("kind", Value.texts ["ident"])])]

/-- A theorem without a printed proof, and a term that stands for it under the last part of its name. -/
def suffixDump : Dump where
  declarations := some (.arr [suffixDeclaration])
  trees := some (.arr [suffixTree])

def suffixDumps : Dumps := [("M", suffixDump)]

def suffixRange : FileRange := ⟨⟨1, 1⟩, ⟨1, 1⟩⟩

def suffixTerms : List Term := [⟨suffixRange, .str "x", .str "T"⟩]

def suffixEntry (before : Value) : Entry where
  range := suffixRange
  name := "A.x"
  type := .null
  signature := .null
  signatureRange := suffixRange
  proof := .null
  proofRange := suffixRange
  before := before
  roots := []

theorem exportModule_suffixDumps {edition : Edition} {before : Value}
    (hentry : entryOf? edition (.ofValues []) [] suffixTerms suffixDeclaration =
      .ok (some (suffixEntry before))) :
    exportModule edition suffixDumps {} (Value.texts ["M"]) =
      exportAll edition "M" {} [suffixEntry before] := by
  have hget : suffixDumps.get (Value.texts ["M"]) = .ok suffixDump := rfl
  have hforest : InfoTree.forest (.arr [suffixTree]) = .ok [.ofValue suffixTree] := rfl
  have hroots : InfoTree.roots .innerFirst (.ofValues []) [.ofValue suffixTree] = .ok [] := by cbv
  have hwalk : InfoTree.terms (.ofValues []) [.ofValue suffixTree] = (suffixTerms, none) := by cbv
  have hterms : terms edition (Value.texts ["M"]) (.ofValues []) [.ofValue suffixTree] =
      (suffixTerms, "", none) := by
    cases edition with
    | older => simp only [terms, hwalk]
    | newer =>
        simp only [terms, hwalk]
        rfl
  have hentries : [suffixDeclaration].filterMapM (entryOf? edition (.ofValues []) [] suffixTerms) =
      .ok [suffixEntry before] := by
    rw [List.filterMapM_cons, hentry]
    rfl
  have hharvest : harvest edition (Value.texts ["M"]) (.ofValues []) (.arr [suffixDeclaration])
      (.arr [suffixTree]) = ⟨.ok [suffixEntry before], ""⟩ := by
    simp only [harvest, hforest, hroots, hterms]
    exact congrArg (Harvest.mk · "") hentries
  have hmodule : ofModule edition suffixDumps (Value.texts ["M"]) = ⟨.ok [suffixEntry before], ""⟩ := by
    rw [ofModule, hget]
    exact hharvest
  rw [exportModule, hmodule]
  rfl

theorem suffixDumps_refined :
    (exportModule .older suffixDumps {} (Value.texts ["M"])).fault = none ∧
      (exportModule .newer suffixDumps {} (Value.texts ["M"])).fault = none ∧
      ∃ older newer : List Value,
        (exportModule .older suffixDumps {} (Value.texts ["M"])).written = Json.text older ∧
        (exportModule .newer suffixDumps {} (Value.texts ["M"])).written = Json.text newer ∧
        Text.lines (Json.text older).toList = older.map (fun record => (Json.line record ++ "\n").toList) ∧
        Text.lines (Json.text newer).toList = newer.map (fun record => (Json.line record ++ "\n").toList) ∧
        List.Forall₂ Refines older newer := by
  have holder : (exportModule .older suffixDumps {} (Value.texts ["M"])).fault = none := by
    rw [exportModule_suffixDumps (show entryOf? .older _ _ _ _ = .ok (some (suffixEntry .null)) from rfl)]
    rfl
  have hnewer : (exportModule .newer suffixDumps {} (Value.texts ["M"])).fault = none := by
    rw [exportModule_suffixDumps (show entryOf? .newer _ _ _ _ = .ok (some (suffixEntry (.str "T"))) from rfl)]
    rfl
  exact ⟨holder, hnewer, newer_edition_refines_older holder hnewer⟩

end ProofDump.Steps
