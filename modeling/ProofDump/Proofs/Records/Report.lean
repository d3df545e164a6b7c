import Mathlib
import ProofDump.Proofs.Records.Compare

/-!
# A comparison is a partition

The four files of a comparison are read as the records that belong to them, and every module and name of
the two files that were compared is in one of them, once. A file cannot hold half a character, so the
comparison ends with a fault exactly if a record to be written has one.
-/

namespace ProofDump.Records

/-! ### The files that are read -/

/-- Every line that is not blank is an object with texts for module and name, and with a text for the
proof or none. -/
def IsRecordFile (content : String) : Prop := ∀ line ∈ recordLines content, ∃ record, IsLineOf line record

theorem IsRecordFile.reads {content : String} (hcontent : IsRecordFile content) :
    ∃ records, Reads content records := by
  choose! recordOf hrecordOf using hcontent
  refine ⟨(recordLines content).map recordOf, ?_⟩
  rw [Reads, List.forall₂_map_right_iff, List.forall₂_same]
  exact hrecordOf

theorem Reads.isRecordFile {content : String} {records : List Record} (hreads : Reads content records) :
    IsRecordFile content := by
  intro line hline
  have hmem : readLine line ∈ records.map fun record => .ok record.entry := by
    rw [← reads_iff.1 hreads]
    exact List.mem_map_of_mem hline
  obtain ⟨record, -, hrecord⟩ := List.mem_map.1 hmem
  exact ⟨record, readLine_eq_ok_iff.1 hrecord.symm⟩

/-! ### The files that are written -/

/-- The text is read as the records that belong to it, in the order of modules and names. -/
structure Lists (text : String) (listed : List Record) (belongs : Record → Prop) : Prop where
  reads : Reads text (listed.map Record.held)
  ordered : listed.Pairwise fun first second => first.rank < second.rank
  mem_iff : ∀ record, record ∈ listed.map Record.held ↔ belongs record

section Written

variable {records : List Record} {belongs : Record → Prop}

theorem Selects.tableText_eq_ok (hselects : Selects records belongs)
    (hheld : ∀ record, belongs record → record.IsHeld) (hwhole : ∀ record, belongs record → ¬record.HasHalf) :
    ∃ text listed, tableText (records.map Record.entry) = .ok text ∧ Lists text listed belongs := by
  obtain ⟨sorted, hsorted, htext⟩ := tableText_eq_encode hselects.distinct
  have hmem : ∀ record, record ∈ sorted ↔ belongs record := fun record =>
    hsorted.perm.mem_iff.trans (hselects.mem_iff record)
  obtain ⟨listed, rfl⟩ := exists_map_held (fun record hrecord => hheld record ((hmem record).1 hrecord))
    fun record hrecord => hwhole record ((hmem record).1 hrecord)
  refine ⟨fileOf listed, listed, htext.trans (encode_map_held listed), reads_fileOf listed, ?_, hmem⟩
  exact (List.pairwise_map.1 hsorted.ordered).imp Record.rank_held_lt.1

theorem Selects.tableText_eq_error (hselects : Selects records belongs) {record : Record}
    (hrecord : belongs record) (hhalf : record.HasHalf) :
    tableText (records.map Record.entry) = .error .unencodable := by
  obtain ⟨sorted, hsorted, htext⟩ := tableText_eq_encode hselects.distinct
  have hmem : record ∈ sorted := hsorted.perm.mem_iff.2 ((hselects.mem_iff record).2 hrecord)
  rw [htext, encode_of_hasHalf hmem hhalf]

theorem Selects.tableText_cases (hselects : Selects records belongs) :
    (∃ text, tableText (records.map Record.entry) = .ok text) ∨
      tableText (records.map Record.entry) = .error .unencodable := by
  obtain ⟨sorted, -, htext⟩ := tableText_eq_encode hselects.distinct
  rw [htext, encode]
  cases Text.written? (fileOf sorted).toList with
  | none => exact .inr rfl
  | some content => exact .inl ⟨_, rfl⟩

theorem Lists.selects {text : String} {listed : List Record} (hlists : Lists text listed belongs) :
    Selects (listed.map Record.held) belongs where
  distinct := by
    rw [List.map_map, List.Nodup, List.pairwise_map]
    refine hlists.ordered.imp fun hlt hid => ?_
    exact (Record.rank_held_lt.2 hlt).ne (congrArg toLex hid)
  mem_iff := hlists.mem_iff

end Written

/-! ### Reports -/

namespace Parts

variable {parts : Parts} {firstRecords secondRecords : List Record}

def all (parts : Parts) : List Record :=
  parts.onlyFirst ++ (parts.onlySecond ++ (parts.same ++ parts.different))

/-- The files of a report list these records. -/
structure Listed (parts : Parts) (report : Report) (first second : List Record) : Prop where
  onlyFirst : Lists report.onlyFirst parts.onlyFirst (OnlyIn first second)
  onlySecond : Lists report.onlySecond parts.onlySecond (OnlyIn second first)
  same : Lists report.same parts.same (SameIn first second)
  different : Lists report.different parts.different (DifferentIn first second)

/-- What writing the lists comes to. -/
def report (parts : Parts) : Except Fault Report := do
  return {
    onlyFirst := ← tableText parts.comparison.onlyFirst
    onlySecond := ← tableText parts.comparison.onlySecond
    same := ← tableText parts.comparison.same
    different := ← tableText parts.comparison.different
    summary := summary parts.comparison }

theorem Split.report_eq_ok (hsplit : parts.Split firstRecords secondRecords)
    (hheld : ∀ record, Belongs firstRecords secondRecords record → record.IsHeld)
    (hwhole : ∀ record, Belongs firstRecords secondRecords record → ¬record.HasHalf) :
    ∃ report listed, parts.report = .ok report ∧ Listed listed report firstRecords secondRecords := by
  have hwritten {records : List Record} {belongs : Record → Prop} (hselects : Selects records belongs)
      (hbelongs : ∀ record, belongs record → Belongs firstRecords secondRecords record) :=
    hselects.tableText_eq_ok (fun record hrecord => hheld record (hbelongs record hrecord))
      fun record hrecord => hwhole record (hbelongs record hrecord)
  obtain ⟨onlyFirst, a, honlyFirst, ha⟩ := hwritten hsplit.onlyFirst fun _ h => .inl h
  obtain ⟨onlySecond, b, honlySecond, hb⟩ := hwritten hsplit.onlySecond fun _ h => .inr (.inl h)
  obtain ⟨same, c, hsame, hc⟩ := hwritten hsplit.same fun _ h => .inr (.inr (.inl h))
  obtain ⟨different, d, hdifferent, hd⟩ := hwritten hsplit.different fun _ h => .inr (.inr (.inr h))
  refine ⟨⟨onlyFirst, onlySecond, same, different, summary parts.comparison⟩, ⟨a, b, c, d⟩, ?_, ha, hb, hc, hd⟩
  simp only [report, comparison, honlyFirst, honlySecond, hsame, hdifferent, ok_bind]
  rfl

/-- The lists are written one after the other, and the first that has a half ends it. -/
theorem Split.report_eq_error (hsplit : parts.Split firstRecords secondRecords) {record : Record}
    (hrecord : Belongs firstRecords secondRecords record) (hhalf : record.HasHalf) :
    parts.report = .error .unencodable := by
  rw [report]
  rcases hsplit.onlyFirst.tableText_cases with ⟨onlyFirst, honlyFirst⟩ | herror
  · rcases hsplit.onlySecond.tableText_cases with ⟨onlySecond, honlySecond⟩ | herror
    · rcases hsplit.same.tableText_cases with ⟨same, hsame⟩ | herror
      · rcases hsplit.different.tableText_cases with ⟨different, hdifferent⟩ | herror
        · -- all four were written, so none has the record
          rcases hrecord with hrecord | hrecord | hrecord | hrecord
          · cases honlyFirst.symm.trans (hsplit.onlyFirst.tableText_eq_error hrecord hhalf)
          · cases honlySecond.symm.trans (hsplit.onlySecond.tableText_eq_error hrecord hhalf)
          · cases hsame.symm.trans (hsplit.same.tableText_eq_error hrecord hhalf)
          · cases hdifferent.symm.trans (hsplit.different.tableText_eq_error hrecord hhalf)
        · simp only [comparison, honlyFirst, honlySecond, hsame, herror, ok_bind]
          rfl
      · simp only [comparison, honlyFirst, honlySecond, herror, ok_bind]
        rfl
    · simp only [comparison, honlyFirst, herror, ok_bind]
      rfl
  · simp only [comparison, herror]
    rfl

theorem summary_congr {first second : Comparison} (honlyFirst : first.onlyFirst.length = second.onlyFirst.length)
    (honlySecond : first.onlySecond.length = second.onlySecond.length)
    (hsame : first.same.length = second.same.length)
    (hdifferent : first.different.length = second.different.length) : summary first = summary second := by
  unfold summary
  rw [honlyFirst, honlySecond, hsame, hdifferent]

theorem Split.report_congr {others : Parts} (hsplit : parts.Split firstRecords secondRecords)
    (hothers : others.Split firstRecords secondRecords) : parts.report = others.report := by
  have hfirst : tableText parts.comparison.onlyFirst = tableText others.comparison.onlyFirst :=
    hsplit.onlyFirst.tableText_congr hothers.onlyFirst
  have hsecond : tableText parts.comparison.onlySecond = tableText others.comparison.onlySecond :=
    hsplit.onlySecond.tableText_congr hothers.onlySecond
  have hsame : tableText parts.comparison.same = tableText others.comparison.same :=
    hsplit.same.tableText_congr hothers.same
  have hdifferent : tableText parts.comparison.different = tableText others.comparison.different :=
    hsplit.different.tableText_congr hothers.different
  have hsummary : summary parts.comparison = summary others.comparison :=
    summary_congr ((hsplit.onlyFirst.perm hothers.onlyFirst).map _).length_eq
      ((hsplit.onlySecond.perm hothers.onlySecond).map _).length_eq
      ((hsplit.same.perm hothers.same).map _).length_eq
      ((hsplit.different.perm hothers.different).map _).length_eq
  rw [report, report, hfirst, hsecond, hsame, hdifferent, hsummary]

end Parts

/-! ### Every module and name once -/

theorem Belongs.mem {firstRecords secondRecords : List Record} {record : Record}
    (hrecord : Belongs firstRecords secondRecords record) : record ∈ firstRecords ∨ record ∈ secondRecords := by
  have hmem {records : List Record} (hproof : lastProof? records record.id = some record.proof) :
      record ∈ records := by
    obtain ⟨other, hother, hid, hsame⟩ := exists_mem_of_lastProof? hproof
    rw [← Record.eq_of_id hid hsame]
    exact hother
  rcases hrecord with hrecord | hrecord | hrecord | hrecord
  · exact .inl (hmem hrecord.1)
  · exact .inr (hmem hrecord.1)
  · exact .inl (hmem hrecord.1)
  · exact .inr (hmem hrecord.1)

theorem exists_belongs_iff {firstRecords secondRecords : List Record} {id : String × String} :
    (∃ record, Belongs firstRecords secondRecords record ∧ record.id = id) ↔
      ((lastProof? firstRecords id).isSome || (lastProof? secondRecords id).isSome) = true := by
  rw [Bool.or_eq_true]
  constructor
  · rintro ⟨record, hrecord, rfl⟩
    rcases hrecord with hrecord | hrecord | hrecord | hrecord
    · exact .inl (Option.isSome_of_eq_some hrecord.1)
    · exact .inr (Option.isSome_of_eq_some hrecord.1)
    · exact .inl (Option.isSome_of_eq_some hrecord.1)
    · exact .inr (Option.isSome_of_eq_some hrecord.1)
  · intro hsome
    cases hfirst : lastProof? firstRecords id with
    | none =>
        cases hsecond : lastProof? secondRecords id with
        | none => simp [hfirst, hsecond] at hsome
        | some b => exact ⟨⟨id.1, id.2, b⟩, .inr (.inl ⟨hsecond, hfirst⟩), rfl⟩
    | some a =>
        cases hsecond : lastProof? secondRecords id with
        | none => exact ⟨⟨id.1, id.2, a⟩, .inl ⟨hfirst, hsecond⟩, rfl⟩
        | some b =>
            by_cases hequal : a = b
            · subst hequal
              exact ⟨⟨id.1, id.2, a⟩, .inr (.inr (.inl ⟨hfirst, hsecond⟩)), rfl⟩
            · exact ⟨⟨id.1, id.2, b⟩, .inr (.inr (.inr ⟨hsecond, a, hfirst, hequal⟩)), rfl⟩

theorem Selects.append {records others : List Record} {belongs belongsToo : Record → Prop}
    (hrecords : Selects records belongs) (hothers : Selects others belongsToo)
    (hapart : ∀ record other, belongs record → belongsToo other → record.id ≠ other.id) :
    Selects (records ++ others) fun record => belongs record ∨ belongsToo record where
  distinct := by
    rw [List.map_append, List.nodup_append]
    refine ⟨hrecords.distinct, hothers.distinct, fun id hid other hother => ?_⟩
    obtain ⟨record, hrecord, rfl⟩ := List.mem_map.1 hid
    obtain ⟨same, hsame, rfl⟩ := List.mem_map.1 hother
    exact hapart record same ((hrecords.mem_iff record).1 hrecord) ((hothers.mem_iff same).1 hsame)
  mem_iff record := by rw [List.mem_append, hrecords.mem_iff, hothers.mem_iff]

theorem Parts.Listed.all_selects {parts : Parts} {report : Report} {firstRecords secondRecords : List Record}
    (hlisted : parts.Listed report firstRecords secondRecords) :
    Selects (parts.all.map Record.held) (Belongs firstRecords secondRecords) := by
  rw [all, List.map_append, List.map_append, List.map_append]
  refine hlisted.onlyFirst.selects.append (hlisted.onlySecond.selects.append
    (hlisted.same.selects.append hlisted.different.selects ?_) ?_) ?_
  · rintro record other ⟨hfirst, hsecond⟩ ⟨hproof, proof, hother, hne⟩ hid
    rw [hid] at hfirst hsecond
    rw [hfirst] at hother
    rw [hsecond] at hproof
    exact hne ((Option.some.inj hother).symm.trans (Option.some.inj hproof))
  · rintro record other ⟨-, hnone⟩ (⟨hfirst, -⟩ | ⟨-, proof, hfirst, -⟩) hid
    · rw [hid, hfirst] at hnone
      cases hnone
    · rw [hid, hfirst] at hnone
      cases hnone
  · rintro record other ⟨-, hnone⟩ (⟨hsecond, -⟩ | ⟨-, hsecond⟩ | ⟨hsecond, -⟩) hid
    all_goals
      rw [hid, hsecond] at hnone
      cases hnone

theorem Parts.Listed.count_all {parts : Parts} {report : Report} {firstRecords secondRecords : List Record}
    (hlisted : parts.Listed report firstRecords secondRecords) (id : String × String) :
    (parts.all.map fun record => record.held.id).count id =
      if (lastProof? firstRecords id).isSome || (lastProof? secondRecords id).isSome then 1 else 0 := by
  have hselects := hlisted.all_selects
  have hids : (parts.all.map fun record => record.held.id) = (parts.all.map Record.held).map Record.id := by
    rw [List.map_map]
    rfl
  have hmem : id ∈ (parts.all.map Record.held).map Record.id ↔
      ((lastProof? firstRecords id).isSome || (lastProof? secondRecords id).isSome) = true := by
    rw [← exists_belongs_iff, List.mem_map]
    simp only [hselects.mem_iff]
  rw [hids, hselects.distinct.count]
  simp only [hmem]

/-! ### Two files -/

section Files

variable {first second : String} {firstRecords secondRecords : List Record}

theorem compareFiles_eq_report (hfirst : Reads first firstRecords) (hsecond : Reads second secondRecords) :
    ∃ parts : Parts, compareFiles first second = parts.report ∧ parts.Split firstRecords secondRecords := by
  obtain ⟨firstTable, hfirstFile, hfirstTable⟩ := ofFile_eq_ok hfirst
  obtain ⟨secondTable, hsecondFile, hsecondTable⟩ := ofFile_eq_ok hsecond
  obtain ⟨parts, hcompare, hsplit⟩ := compare_split hfirstTable hsecondTable
  refine ⟨parts, ?_, hsplit⟩
  rw [compareFiles, hfirstFile, ok_bind, hsecondFile, ok_bind, hcompare]
  rfl

/-- Unless a record to be written has half a character, the four files list what belongs to them, in the
order of modules and names, and a module and name of either input stand in one of the files, once. What
comes out depends on the last proofs only. -/
theorem comparison_partitions (hfirst : IsRecordFile first) (hsecond : IsRecordFile second) :
    ∃ firstRecords secondRecords, Reads first firstRecords ∧ Reads second secondRecords ∧
      ((∀ record, Belongs firstRecords secondRecords record → ¬record.HasHalf) →
        ∃ report parts, compareFiles first second = .ok report ∧
          Parts.Listed parts report firstRecords secondRecords ∧
          ∀ id, (parts.all.map fun record => record.held.id).count id =
            if (lastProof? firstRecords id).isSome || (lastProof? secondRecords id).isSome then 1 else 0) ∧
      ((∃ record, Belongs firstRecords secondRecords record ∧ record.HasHalf) →
        compareFiles first second = .error .unencodable) ∧
      ∀ otherFirst otherSecond otherFirstRecords otherSecondRecords,
        Reads otherFirst otherFirstRecords → Reads otherSecond otherSecondRecords →
        lastProof? otherFirstRecords = lastProof? firstRecords →
        lastProof? otherSecondRecords = lastProof? secondRecords →
        compareFiles otherFirst otherSecond = compareFiles first second := by
  obtain ⟨firstRecords, hreadsFirst⟩ := hfirst.reads
  obtain ⟨secondRecords, hreadsSecond⟩ := hsecond.reads
  obtain ⟨parts, hreport, hsplit⟩ := compareFiles_eq_report hreadsFirst hreadsSecond
  refine ⟨firstRecords, secondRecords, hreadsFirst, hreadsSecond, ?_, ?_, ?_⟩
  · intro hwhole
    have hheld : ∀ record, Belongs firstRecords secondRecords record → record.IsHeld := fun record hrecord =>
      hrecord.mem.elim (hreadsFirst.isHeld record) (hreadsSecond.isHeld record)
    obtain ⟨report, listed, hok, hlisted⟩ := hsplit.report_eq_ok hheld hwhole
    exact ⟨report, listed, hreport.trans hok, hlisted, hlisted.count_all⟩
  · rintro ⟨record, hrecord, hhalf⟩
    exact hreport.trans (hsplit.report_eq_error hrecord hhalf)
  · intro otherFirst otherSecond otherFirstRecords otherSecondRecords hotherFirst hotherSecond hsameFirst hsameSecond
    obtain ⟨others, hothers, hothersSplit⟩ := compareFiles_eq_report hotherFirst hotherSecond
    rw [hothers, hreport]
    exact (hothersSplit.congr hsameFirst hsameSecond).report_congr hsplit

/-- A file with a blank line, two proofs for one name and no proof for another. -/
def earlierFile : String :=
  "\x7b\"module\": \"m\", \"full_name\": \"b\", \"tactic_proof\": \"rfl\"\x7d\n \r\n" ++
  "\x7b\"full_name\": \"a\", \"module\": \"m\"\x7d\n" ++
  "\x7b\"module\": \"m\", \"full_name\": \"b\", \"tactic_proof\": \"simp\"\x7d"

def laterFile : String :=
  "\x7b\"module\": \"m\", \"full_name\": \"b\", \"tactic_proof\": \"simp\"\x7d\n" ++
  "\x7b\"module\": \"l\", \"full_name\": \"b\"\x7d\n"

def earlierRecords : List Record := [⟨"m", "b", "rfl"⟩, ⟨"m", "a", ""⟩, ⟨"m", "b", "simp"⟩]

def laterRecords : List Record := [⟨"m", "b", "simp"⟩, ⟨"l", "b", ""⟩]

set_option maxRecDepth 8000 in
theorem reads_earlierFile : Reads earlierFile earlierRecords := by
  rw [reads_iff]
  cbv

set_option maxRecDepth 8000 in
theorem reads_laterFile : Reads laterFile laterRecords := by
  rw [reads_iff]
  cbv

theorem earlier_later_partitioned :
    IsRecordFile earlierFile ∧ IsRecordFile laterFile ∧
      ∃ report parts, compareFiles earlierFile laterFile = .ok report ∧
        Parts.Listed parts report earlierRecords laterRecords ∧
        ∀ id, (parts.all.map fun record => record.held.id).count id =
          if (lastProof? earlierRecords id).isSome || (lastProof? laterRecords id).isSome then 1 else 0 := by
  have hearlier := reads_earlierFile.isRecordFile
  have hlater := reads_laterFile.isRecordFile
  refine ⟨hearlier, hlater, ?_⟩
  obtain ⟨firstRecords, secondRecords, hfirst, hsecond, hwhole, -⟩ := comparison_partitions hearlier hlater
  cases hfirst.unique reads_earlierFile
  cases hsecond.unique reads_laterFile
  have hplain : ∀ record ∈ earlierRecords ++ laterRecords, ¬record.HasHalf := by
    unfold Record.HasHalf
    decide
  exact hwhole fun record hrecord => hplain record (List.mem_append.2 hrecord.mem)

/-! A name with half a character is read, and cannot be written. -/

def halfFile : String :=
  "\x7b\"module\": \"m\", \"full_name\": \"a\\udfff\", \"tactic_proof\": \"x\"\x7d\n"

def halfRecord : Record := ⟨"m", String.ofList ('a' :: Text.halfChars 0xDFFF), "x"⟩

set_option maxRecDepth 8000 in
theorem reads_halfFile : Reads halfFile [halfRecord] := by
  rw [reads_iff]
  cbv

theorem reads_empty : Reads "" [] := .nil

theorem half_not_written :
    IsRecordFile halfFile ∧ IsRecordFile "" ∧ compareFiles halfFile "" = .error .unencodable := by
  refine ⟨reads_halfFile.isRecordFile, reads_empty.isRecordFile, ?_⟩
  obtain ⟨parts, hreport, hsplit⟩ := compareFiles_eq_report reads_halfFile reads_empty
  have honly : OnlyIn [halfRecord] [] halfRecord := by
    unfold OnlyIn
    decide
  have hhalf : halfRecord.HasHalf := by
    unfold Record.HasHalf
    decide
  exact hreport.trans (hsplit.report_eq_error (.inl honly) hhalf)

end Files

end ProofDump.Records
