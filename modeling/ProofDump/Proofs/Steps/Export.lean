import ProofDump.Proofs.Except
import ProofDump.Proofs.Json.Line
import ProofDump.Steps.Export

/-!
# The records of exported theorems

An export without a fault writes one record for every entry, in their order. `line_eq_ok` says what the
record of an entry holds; nothing else in the theory opens the making of a line.
-/

namespace ProofDump.Steps

/-- The step that stands for a whole proof. -/
def wholeStep (proof before : Value) (range : FileRange) : Value :=
  .obj [("tactic", proof), ("tactic_before", before), ("tactic_after", .str "no goals"),
    ("tactic_start", range.start.written), ("tactic_stop", range.stop.written)]

/-- The record of a theorem with the given proof and steps. -/
def recordWith (module name : String) (proof : Value) (range : FileRange) (steps beside : List Value) :
    Value :=
  .obj ([("module", .str module), ("theorem", .str name), ("theorem_proof", proof),
    ("start", range.start.written), ("stop", range.stop.written), ("tactics", .arr steps)] ++
    (if beside.isEmpty then [] else [("ref_tactics", .arr beside)]))

/-- The steps of a record: those gathered from the roots, or one for the whole proof. -/
def Gathered.steps (gathered : Gathered) (proof before : Value) (range : FileRange) : List Value :=
  if gathered.own.isEmpty then [wholeStep proof before range] else gathered.own

variable {edition : Edition} {module : String}

theorem line_eq_ok {entry : Entry} {found : Line} (hline : line edition module entry = .ok found) :
    ∃ tactical gathered, byTactics entry.proof = .ok tactical ∧
      entry.roots.foldlM (Gathered.add tactical) { proof := entry.proof } = .ok gathered ∧
      found.record = recordWith module entry.name (settleProof edition module entry gathered.proof).1
        entry.proofRange
        (gathered.steps (settleProof edition module entry gathered.proof).1 entry.before entry.proofRange)
        gathered.beside := by
  unfold line at hline
  obtain ⟨tactical, htactical, hline⟩ := bind_eq_ok.1 hline
  obtain ⟨gathered, hgathered, hline⟩ := bind_eq_ok.1 hline
  cases hline
  exact ⟨tactical, gathered, htactical, hgathered, rfl⟩

/-- The record is that of the entry. -/
def IsRecordOf (edition : Edition) (module : String) (entry : Entry) (record : Value) : Prop :=
  ∃ found, line edition module entry = .ok found ∧ found.record = record

theorem exportAll_writes {done : Exported} {entries : List Entry}
    (hfault : (exportAll edition module done entries).fault = none) :
    ∃ records, List.Forall₂ (IsRecordOf edition module) entries records ∧
      (exportAll edition module done entries).written = done.written ++ Json.text records := by
  induction entries generalizing done with
  | nil => exact ⟨[], .nil, by simp [exportAll, Json.text]⟩
  | cons entry rest ih =>
      rw [exportAll] at hfault ⊢
      cases hline : line edition module entry with
      | error fault =>
          rw [hline] at hfault
          cases hfault
      | ok found =>
          simp only [hline] at hfault ⊢
          cases hwritable : Value.checkAllWritable found.shown with
          | error fault =>
              rw [hwritable] at hfault
              cases hfault
          | ok checked =>
              simp only [hwritable] at hfault ⊢
              obtain ⟨records, hrecords, hwritten⟩ := ih hfault
              refine ⟨found.record :: records, .cons ⟨found, hline, rfl⟩ hrecords, ?_⟩
              rw [hwritten, Json.text, Json.text, List.map_cons, String.join_cons]
              simp only [String.append_assoc]

/-- An export of a module without a fault writes one record for every entry of the module. -/
theorem exportModule_writes {dumps : Dumps} {module : Value}
    (hfault : (exportModule edition dumps {} module).fault = none) :
    ∃ entries name records, (ofModule edition dumps module).entries = .ok entries ∧
      module.joinRaw "." = .ok name ∧ List.Forall₂ (IsRecordOf edition name) entries records ∧
      (exportModule edition dumps {} module).written = Json.text records := by
  unfold exportModule at hfault ⊢
  cases hentries : (ofModule edition dumps module).entries with
  | error fault =>
      simp only [hentries] at hfault
      cases hfault
  | ok entries =>
      simp only [hentries] at hfault ⊢
      cases hname : module.joinRaw "." with
      | error fault =>
          simp only [hname] at hfault
          cases hfault
      | ok name =>
          simp only [hname] at hfault ⊢
          obtain ⟨records, hrecords, hwritten⟩ := exportAll_writes hfault
          exact ⟨entries, name, records, rfl, rfl, hrecords, by simpa using hwritten⟩

end ProofDump.Steps
