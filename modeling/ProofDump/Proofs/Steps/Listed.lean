import Mathlib
import ProofDump.Proofs.InfoTree.Typed
import ProofDump.Proofs.Steps.Export
import ProofDump.Proofs.Steps.Extract

/-!
# Which steps an export lists

The roots within a theorem are gone through one after the other. The steps of each are added beside a proof that
is not given by tactics, but in a proof by tactics they take the place of those of the root before
(`gathered_eq`). So such a proof lists the steps of its last root only, and a step of another root is exported
exactly if it shows the same as one of these (`exported_step_listed_iff`).
-/

namespace ProofDump.Steps

/-! ### Listed steps -/

/-- The steps that a record lists, for the theorem and for the roots beside it. -/
def listedSteps (record : Value) : List Value :=
  (record.part "tactics").listed ++ (record.part "ref_tactics").listed.flatMap Value.listed

theorem listedSteps_recordWith (module name : String) (proof : Value) (range : FileRange)
    (steps beside : List Value) :
    listedSteps (recordWith module name proof range steps beside) = steps ++ beside.flatMap Value.listed := by
  cases beside with
  | nil => rfl
  | cons first others => rfl

theorem proof_recordWith (module name : String) (proof : Value) (range : FileRange) (steps beside : List Value) :
    (recordWith module name proof range steps beside).part "theorem_proof" = proof := rfl

/-! ### What is gathered -/

theorem add_eq_ok {tactical : Bool} {gathered next : Gathered} {root : Root}
    (hadd : gathered.add tactical root = .ok next) :
    ∃ steps, rootSteps root = .ok steps ∧ next.own = (if tactical then steps else gathered.own) ∧
      next.beside = gathered.beside ++ (if tactical then [] else [.arr steps]) := by
  obtain ⟨steps, hsteps, hadd⟩ := bind_eq_ok.1 hadd
  refine ⟨steps, hsteps, ?_⟩
  cases tactical with
  | false =>
      cases hadd
      exact ⟨rfl, rfl⟩
  | true =>
      rw [if_pos rfl] at hadd
      split at hadd
      · split at hadd
        · cases hadd
          exact ⟨rfl, (List.append_nil _).symm⟩
        · cases hadd
      · cases hadd
        exact ⟨rfl, (List.append_nil _).symm⟩

/-- Of the steps of the roots a proof by tactics keeps the last list, and any other proof keeps all. -/
theorem gathered_eq {tactical : Bool} {roots : List Root} {start gathered : Gathered}
    (hgathered : roots.foldlM (Gathered.add tactical) start = .ok gathered) :
    ∃ lists, roots.mapM rootSteps = .ok lists ∧
      gathered.own = (if tactical then lists.getLast?.getD start.own else start.own) ∧
      gathered.beside = start.beside ++ (if tactical then [] else lists.map .arr) := by
  induction roots generalizing start with
  | nil =>
      cases hgathered
      refine ⟨[], rfl, ?_, ?_⟩
      · cases tactical <;> rfl
      · cases tactical <;> exact (List.append_nil _).symm
  | cons root others ih =>
      rw [List.foldlM_cons] at hgathered
      obtain ⟨next, hnext, hgathered⟩ := bind_eq_ok.1 hgathered
      obtain ⟨steps, hsteps, hown, hbeside⟩ := add_eq_ok hnext
      obtain ⟨lists, hlists, hownAll, hbesideAll⟩ := ih hgathered
      refine ⟨steps :: lists, ?_, ?_, ?_⟩
      · rw [mapM_eq_ok_iff] at hlists ⊢
        exact .cons hsteps hlists
      · rw [hownAll, hown]
        cases tactical with
        | false => rfl
        | true =>
            rw [if_pos rfl, if_pos rfl, if_pos rfl, List.getLast?_cons]
            rfl
      · rw [hbesideAll, hbeside, List.append_assoc]
        cases tactical with
        | false => rfl
        | true => rfl

/-- The steps of the last of the roots, none if there is no root. -/
def lastSteps (roots : List Root) : Except Fault (List Value) :=
  match roots.getLast? with
  | some root => rootSteps root
  | none => .ok []

theorem lastSteps_eq_ok {roots : List Root} {lists : List (List Value)}
    (hlists : roots.mapM rootSteps = .ok lists) : lastSteps roots = .ok (lists.getLast?.getD []) := by
  induction mapM_eq_ok_iff.1 hlists with
  | nil => rfl
  | @cons root steps others rest hsteps hrest ih =>
      replace ih := ih (mapM_eq_ok_iff.2 hrest)
      cases hrest with
      | nil => exact hsteps
      | cons hnext hrest => exact ih

/-- The step that stands for the proof of an entry in its record. -/
def Entry.wholeStepIn (entry : Entry) (record : Value) : Value :=
  wholeStep (record.part "theorem_proof") entry.before entry.proofRange

/-- A record lists the step for the whole proof and the steps of all roots, or, if the proof is given by tactics,
the steps of the last root, with the step for the whole proof in their place if there are none. -/
theorem IsRecordOf.listedSteps_eq {edition : Edition} {module : String} {entry : Entry} {record : Value}
    (hrecord : IsRecordOf edition module entry record) :
    ∃ tactical lists, byTactics entry.proof = .ok tactical ∧ entry.roots.mapM rootSteps = .ok lists ∧
      listedSteps record =
        if tactical then
          if (lists.getLast?.getD []).isEmpty then [entry.wholeStepIn record] else lists.getLast?.getD []
        else entry.wholeStepIn record :: lists.flatten := by
  obtain ⟨found, hline, rfl⟩ := hrecord
  obtain ⟨tactical, gathered, htactical, hgathered, hrecord⟩ := line_eq_ok hline
  obtain ⟨lists, hlists, hown, hbeside⟩ := gathered_eq hgathered
  refine ⟨tactical, lists, htactical, hlists, ?_⟩
  rw [Entry.wholeStepIn, hrecord, listedSteps_recordWith, proof_recordWith, Gathered.steps, hown, hbeside]
  cases tactical with
  | false =>
      show [_] ++ (lists.map Value.arr).flatMap Value.listed = _
      rw [List.flatMap_map]
      exact congrArg (List.cons _) List.flatMap_id
  | true => exact List.append_nil _

/-- A step of one of the roots is listed exactly if the proof is not given by tactics, or if it shows the same as
a step of the last root or as the one in the place of these. -/
theorem IsRecordOf.mem_listedSteps_iff {edition : Edition} {module : String} {entry : Entry} {record : Value}
    (hrecord : IsRecordOf edition module entry record) :
    ∃ tactical last, byTactics entry.proof = .ok tactical ∧ lastSteps entry.roots = .ok last ∧
      ∀ root ∈ entry.roots, ∃ steps, rootSteps root = .ok steps ∧ ∀ data ∈ steps,
        (data ∈ listedSteps record ↔
          tactical = false ∨ data ∈ last ∨ last = [] ∧ data = entry.wholeStepIn record) := by
  obtain ⟨tactical, lists, htactical, hlists, hlisted⟩ := hrecord.listedSteps_eq
  refine ⟨tactical, _, htactical, lastSteps_eq_ok hlists, fun root hroot => ?_⟩
  obtain ⟨steps, hsteps⟩ := exists_ok_of_mapM hlists root hroot
  refine ⟨steps, hsteps, fun data hdata => ?_⟩
  rw [hlisted]
  cases tactical with
  | false =>
      have hflatten : data ∈ lists.flatten := List.mem_flatten.2 ⟨steps, mem_of_mapM_eq_ok hlists hroot hsteps, hdata⟩
      exact iff_of_true (List.mem_cons_of_mem _ hflatten) (.inl rfl)
  | true =>
      simp only [if_true, Bool.true_eq_false, false_or]
      split
      · rename_i hempty
        rw [List.isEmpty_iff.1 hempty]
        simp
      · rename_i hsome
        rw [List.isEmpty_iff] at hsome
        simp [hsome]

/-! ### The roots of a module -/

/-- The roots collected from the info trees of a module. -/
def collectedRoots (dumps : Dumps) (module : Value) : Except Fault (List Root) := do
  let dump ← dumps.get module
  InfoTree.roots .innerFirst dump.lineStarts (← InfoTree.forest (dump.trees.getD (.arr [])))

theorem rootsWithin_of_mem_harvest {edition : Edition} {module declarations trees : Value} {lines : LineStarts}
    {entries : List Entry} (hentries : (harvest edition module lines declarations trees).entries = .ok entries) :
    ∀ entry ∈ entries, ∃ forest roots, InfoTree.forest trees = .ok forest ∧
      InfoTree.roots .innerFirst lines forest = .ok roots ∧ rootsWithin entry.range roots = .ok entry.roots := by
  unfold harvest at hentries
  split at hentries
  · cases hentries
  · rename_i forest hforest
    split at hentries
    · cases hentries
    · rename_i roots hroots
      split at hentries
      · cases hentries
      · obtain ⟨items, -, hwalk⟩ := bind_eq_ok.1 hentries
        intro entry hentry
        obtain ⟨declaration, -, hone⟩ := exists_of_mem_filterMapM hwalk hentry
        rcases entryOf?_cases hone with ⟨hnone, -⟩ | ⟨found, hfound, -, hreads⟩
        · cases hnone
        · cases hfound
          exact ⟨forest, roots, hforest, hroots, hreads.roots⟩

theorem rootsWithin_of_mem_ofModule {edition : Edition} {dumps : Dumps} {module : Value} {entries : List Entry}
    (hentries : (ofModule edition dumps module).entries = .ok entries) :
    ∀ entry ∈ entries, ∃ roots, collectedRoots dumps module = .ok roots ∧
      rootsWithin entry.range roots = .ok entry.roots := by
  unfold ofModule at hentries
  split at hentries
  · cases hentries
  · rename_i dump hdump
    split at hentries
    · rename_i declarations trees hdeclarations htrees
      intro entry hentry
      obtain ⟨forest, roots, hforest, hroots, hwithin⟩ := rootsWithin_of_mem_harvest hentries entry hentry
      refine ⟨roots, ?_, hwithin⟩
      rw [collectedRoots, hdump, ok_bind, htrees, Option.getD_some, hforest, ok_bind, hroots]
    · cases hentries
      exact List.forall_mem_nil _

theorem mem_of_rootsWithin {range : FileRange} {roots within : List Root}
    (hwithin : rootsWithin range roots = .ok within) {root : Root} (hroot : root ∈ roots) {step : Tactic}
    (hstep : root.step = some step) (hcovers : range.covers step.range = true) : root ∈ within := by
  refine (mem_of_filterM_eq_ok hwithin).2 ⟨hroot, ?_⟩
  rw [InfoTree.sortRange, hstep, ok_bind, hcovers]
  rfl

/-- Of the steps of the roots within a theorem its record lists those that show the same as a step of the last
root, or as the step for the whole proof if that root has none. If the proof is not given by tactics, it lists
them all. -/
def ListsSteps (dumps : Dumps) (module : Value) (entry : Entry) (record : Value) : Prop :=
  ∃ roots tactical last, collectedRoots dumps module = .ok roots ∧
    rootsWithin entry.range roots = .ok entry.roots ∧ byTactics entry.proof = .ok tactical ∧
    lastSteps entry.roots = .ok last ∧
    ∀ root ∈ roots, ∀ step ∈ root.step, entry.range.covers step.range = true →
      ∃ children, root.children = some children ∧ ∀ child ∈ children, ∃ data, stepData child = .ok data ∧
        (data ∈ listedSteps record ↔
          tactical = false ∨ data ∈ last ∨ last = [] ∧ data = entry.wholeStepIn record)

theorem IsRecordOf.listsSteps {edition : Edition} {dumps : Dumps} {module : Value} {name : String} {entry : Entry}
    {record : Value} {roots : List Root} (hrecord : IsRecordOf edition name entry record)
    (hroots : collectedRoots dumps module = .ok roots)
    (hwithin : rootsWithin entry.range roots = .ok entry.roots) : ListsSteps dumps module entry record := by
  obtain ⟨tactical, last, htactical, hlast, hlisted⟩ := hrecord.mem_listedSteps_iff
  refine ⟨roots, tactical, last, hroots, hwithin, htactical, hlast, fun root hroot step hstep hcovers => ?_⟩
  obtain ⟨steps, hsteps, hdata⟩ := hlisted root (mem_of_rootsWithin hwithin hroot hstep hcovers)
  cases hchildren : root.children with
  | none =>
      rw [rootSteps, hchildren] at hsteps
      cases hsteps
  | some children =>
      rw [rootSteps, hchildren] at hsteps
      refine ⟨children, rfl, fun child hchild => ?_⟩
      obtain ⟨data, hchildData⟩ := exists_ok_of_mapM hsteps child hchild
      exact ⟨data, hchildData, hdata data (mem_of_mapM_eq_ok hsteps hchild hchildData)⟩

/-- Every theorem that an export of a module writes lists the steps of the roots within it, but if its proof is
given by tactics, only those that the last root has too. -/
theorem exported_step_listed_iff {edition : Edition} {dumps : Dumps} {module : Value}
    (hfault : (exportModule edition dumps {} module).fault = none) :
    ∃ entries records, (ofModule edition dumps module).entries = .ok entries ∧
      (exportModule edition dumps {} module).written = Json.text records ∧
      List.Forall₂ (ListsSteps dumps module) entries records := by
  obtain ⟨entries, name, records, hentries, -, hrecords, hwritten⟩ := exportModule_writes hfault
  have hwithin := rootsWithin_of_mem_ofModule hentries
  refine ⟨entries, records, hentries, hwritten, ?_⟩
  refine ((List.forall₂_and_left _ _).2 ⟨hwithin, hrecords⟩).imp ?_
  rintro entry record ⟨⟨roots, hroots, hown⟩, hrecord⟩
  exact hrecord.listsSteps hroots hown

/-! ### A theorem with two roots -/

def stepValue (pp : String) (start stop : Int) (children : List Value) : Value :=
  .obj [("info", .obj [("tactic", .obj [("before", .arr [.obj [("pp", .str "p")]]), ("after", .arr [])])]),
    ("ref", .obj [("pp", .str pp), ("range", .arr [.int start, .int stop])]), ("children", .arr children)]

def commandValue (children : List Value) : Value := .obj [("children", .arr children)]

def twoRootsDeclaration (proof : String) : Value :=
  .obj [("kind", .str "theorem"), ("name", Value.texts ["a"]), ("ref", .obj [("range", .arr [.int 0, .int 40])]),
    ("signature", .obj []), ("type", .obj []),
    ("value", .obj [("pp", .str proof), ("range", .arr [.int 10, .int 40])])]

def twoRootsTrees : List Value :=
  [commandValue [stepValue "(simp; done)" 13 25 [stepValue "simp" 14 18 []]],
    commandValue [stepValue "(rfl; done)" 29 40 [stepValue "rfl" 30 33 []]]]

def twoRootsDump (proof : String) : Dump where
  declarations := some (.arr [twoRootsDeclaration proof])
  trees := some (.arr twoRootsTrees)

/-- A theorem with two roots, each with a step, and the given proof. -/
def twoRootsDumps (proof : String) : Dumps := [("M", twoRootsDump proof)]

def lineStep (pp : String) (start stop : Int) : Tactic :=
  ⟨⟨⟨1, start⟩, ⟨1, stop⟩⟩, .str pp, Value.texts ["p"], .arr []⟩

def twoRoots : List Root :=
  [⟨some (lineStep "(simp; done)" 14 26), some [lineStep "simp" 15 19]⟩,
    ⟨some (lineStep "(rfl; done)" 30 41), some [lineStep "rfl" 31 34]⟩]

def twoRootsEntry (proof : String) : Entry where
  range := ⟨⟨1, 1⟩, ⟨1, 41⟩⟩
  name := "a"
  type := .null
  signature := .null
  signatureRange := ⟨⟨1, 1⟩, ⟨1, 1⟩⟩
  proof := .str proof
  proofRange := ⟨⟨1, 11⟩, ⟨1, 41⟩⟩
  before := .null
  roots := twoRoots

theorem get_twoRootsDumps (proof : String) :
    (twoRootsDumps proof).get (Value.texts ["M"]) = .ok (twoRootsDump proof) := rfl

theorem forest_twoRootsTrees : InfoTree.forest (.arr twoRootsTrees) = .ok (InfoTree.ofItems twoRootsTrees) := rfl

theorem roots_twoRootsTrees :
    InfoTree.roots .innerFirst (.ofValues []) (InfoTree.ofItems twoRootsTrees) = .ok twoRoots := by cbv

theorem collectedRoots_twoRoots (proof : String) :
    collectedRoots (twoRootsDumps proof) (Value.texts ["M"]) = .ok twoRoots := by
  rw [collectedRoots, get_twoRootsDumps, ok_bind]
  exact roots_twoRootsTrees

theorem ofModule_twoRoots (edition : Edition) (proof : String) :
    ofModule edition (twoRootsDumps proof) (Value.texts ["M"]) = ⟨.ok [twoRootsEntry proof], ""⟩ := by
  have hwalk : InfoTree.terms (.ofValues []) (InfoTree.ofItems twoRootsTrees) = ([], none) := by cbv
  have hterms : terms edition (Value.texts ["M"]) (.ofValues []) (InfoTree.ofItems twoRootsTrees) =
      ([], "", none) := by
    cases edition with
    | older => simp only [terms, hwalk]
    | newer =>
        simp only [terms, hwalk]
        rfl
  have hentry : entryOf? edition (.ofValues []) twoRoots [] (twoRootsDeclaration proof) =
      .ok (some (twoRootsEntry proof)) := by
    cases edition with
    | older => rfl
    | newer => rfl
  have hentries : [twoRootsDeclaration proof].filterMapM (entryOf? edition (.ofValues []) twoRoots []) =
      .ok [twoRootsEntry proof] := by
    rw [List.filterMapM_cons, hentry]
    rfl
  have hharvest : harvest edition (Value.texts ["M"]) (.ofValues []) (.arr [twoRootsDeclaration proof])
      (.arr twoRootsTrees) = ⟨.ok [twoRootsEntry proof], ""⟩ := by
    simp only [harvest, forest_twoRootsTrees, roots_twoRootsTrees, hterms]
    exact congrArg (Harvest.mk · "") hentries
  rw [ofModule, get_twoRootsDumps]
  exact hharvest

theorem exportModule_twoRoots (edition : Edition) (proof : String) :
    exportModule edition (twoRootsDumps proof) {} (Value.texts ["M"]) =
      exportAll edition "M" {} [twoRootsEntry proof] := by
  rw [exportModule, ofModule_twoRoots]
  rfl

/-- A proof that is not given by tactics lists the steps of both roots beside it. -/
theorem twoRoots_steps_listed :
    byTactics (.str "h (by simp) (by rfl)") = .ok false ∧
      (exportModule .newer (twoRootsDumps "h (by simp) (by rfl)") {} (Value.texts ["M"])).fault = none ∧
      ∃ entries records,
        (ofModule .newer (twoRootsDumps "h (by simp) (by rfl)") (Value.texts ["M"])).entries = .ok entries ∧
        (exportModule .newer (twoRootsDumps "h (by simp) (by rfl)") {} (Value.texts ["M"])).written =
          Json.text records ∧
        List.Forall₂ (ListsSteps (twoRootsDumps "h (by simp) (by rfl)") (Value.texts ["M"])) entries records := by
  have hfault :
      (exportModule .newer (twoRootsDumps "h (by simp) (by rfl)") {} (Value.texts ["M"])).fault = none := by
    rw [exportModule_twoRoots]
    rfl
  exact ⟨rfl, hfault, exported_step_listed_iff hfault⟩

def writtenStep (pp : String) (start stop : Int) : Value :=
  .obj [("tactic", .str pp), ("tactic_before", .str "p"), ("tactic_after", .str "no goals"),
    ("tactic_start", (FilePos.mk 1 start).written), ("tactic_stop", (FilePos.mk 1 stop).written)]

/-- The same theorem with a proof by tactics lists the steps of the second root only. -/
theorem first_of_twoRoots_lost :
    collectedRoots (twoRootsDumps "by (simp; rfl)") (Value.texts ["M"]) = .ok twoRoots ∧
      (twoRootsEntry "by (simp; rfl)").range.covers (lineStep "(simp; done)" 14 26).range = true ∧
      stepData (lineStep "simp" 15 19) = .ok (writtenStep "simp" 15 19) ∧
      ∀ edition, ∃ record,
        (ofModule edition (twoRootsDumps "by (simp; rfl)") (Value.texts ["M"])).entries =
          .ok [twoRootsEntry "by (simp; rfl)"] ∧
        (exportModule edition (twoRootsDumps "by (simp; rfl)") {} (Value.texts ["M"])).fault = none ∧
        (exportModule edition (twoRootsDumps "by (simp; rfl)") {} (Value.texts ["M"])).written =
          Json.text [record] ∧
        writtenStep "simp" 15 19 ∉ listedSteps record := by
  refine ⟨collectedRoots_twoRoots _, rfl, rfl, fun edition => ?_⟩
  have hline : (line edition "M" (twoRootsEntry "by (simp; rfl)")).map Line.record =
      .ok (recordWith "M" "a" (.str "by (simp; rfl)") ⟨⟨1, 11⟩, ⟨1, 41⟩⟩ [writtenStep "rfl" 31 34] []) := by
    cases edition <;> rfl
  have hfault : (exportAll edition "M" {} [twoRootsEntry "by (simp; rfl)"]).fault = none := by
    cases edition <;> rfl
  obtain ⟨records, hrecords, hwritten⟩ := exportAll_writes hfault
  obtain ⟨record, others, ⟨found, hfound, rfl⟩, hnil, rfl⟩ := List.forall₂_cons_left_iff.1 hrecords
  cases hnil
  rw [hfound] at hline
  refine ⟨found.record, by rw [ofModule_twoRoots], by rw [exportModule_twoRoots, hfault], ?_, ?_⟩
  · rw [exportModule_twoRoots, hwritten]
    rfl
  · rw [Except.ok.inj hline, listedSteps_recordWith]
    simp [writtenStep]

end ProofDump.Steps
