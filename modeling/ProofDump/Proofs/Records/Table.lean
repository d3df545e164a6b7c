import ProofDump.Proofs.Ast.Records
import ProofDump.Proofs.Json.Value
import ProofDump.Proofs.Value
import ProofDump.Records.Table

/-!
# Files of proof records

A record of three texts is one line of a file, and the table of a file has, once for every module and
name, the last proof that was written for them. `ofFile_eq_ok` says so of every file whose lines are
records, `reads_fileOf` that the files written here are such files; texts come back in their held form.
-/

namespace ProofDump.Records

/-- What a proof record says. -/
structure Record where
  module : String
  name : String
  proof : String
  deriving DecidableEq, Inhabited

namespace Record

def id (record : Record) : String × String := (record.module, record.name)

def key (record : Record) : Key := (.str record.module, .str record.name)

/-- The record in a table. -/
def entry (record : Record) : Key × Value := (record.key, .str record.proof)

/-- The record on a line of a file. -/
def line (record : Record) : String := recordLine record.key (.str record.proof)

/-- The record as it is held when it was read. -/
def held (record : Record) : Record where
  module := Text.held record.module
  name := Text.held record.name
  proof := Text.held record.proof

theorem eq_of_id {first second : Record} (hid : first.id = second.id) (hproof : first.proof = second.proof) :
    first = second := by
  cases first
  cases second
  simp_all [id]

end Record

/-- The text of records written one after the other. -/
def fileOf (records : List Record) : String := String.join (records.map Record.line)

/-- The proof of the last record with this module and name. -/
def lastProof? (records : List Record) (id : String × String) : Option String :=
  (records.reverse.find? (·.id = id)).map (·.proof)

theorem lastProof?_concat (records : List Record) (record : Record) (id : String × String) :
    lastProof? (records ++ [record]) id =
      if record.id = id then some record.proof else lastProof? records id := by
  rw [lastProof?, List.reverse_append, List.reverse_singleton, List.singleton_append, List.find?_cons]
  split_ifs with hid
  · simp [hid]
  · simp [hid, lastProof?]

example : lastProof? [⟨"m", "a", "rfl"⟩, ⟨"m", "b", "simp"⟩, ⟨"m", "a", "omega"⟩] ("m", "a") = some "omega" := by
  decide

theorem exists_mem_of_lastProof? {records : List Record} {id : String × String} {proof : String}
    (hproof : lastProof? records id = some proof) : ∃ record ∈ records, record.id = id ∧ record.proof = proof := by
  obtain ⟨record, hfind, rfl⟩ := Option.map_eq_some_iff.1 hproof
  refine ⟨record, List.mem_reverse.1 (List.mem_of_find?_eq_some hfind), ?_, rfl⟩
  simpa using List.find?_some hfind

/-! ### Tables -/

/-- Put a record in the place of the one with its module and name, or at the end. -/
def place (record : Record) : List Record → List Record
  | [] => [record]
  | known :: rest => if known.id = record.id then record :: rest else known :: place record rest

theorem sameKey_key (first second : Record) : sameKey first.key second.key = decide (first.id = second.id) := by
  rw [sameKey, Record.key, Record.key, Value.sameMember_str, Value.sameMember_str]
  simp [Record.id]

theorem put_map_entry (record : Record) (table : List Record) :
    Table.put (table.map Record.entry) record.key (.str record.proof) =
      (place record table).map Record.entry := by
  induction table with
  | nil => rfl
  | cons known table ih =>
      rw [List.map_cons, place]
      show (if sameKey known.key record.key then _ else _) = _
      rw [sameKey_key]
      by_cases hid : known.id = record.id
      · have hkey : known.key = record.key := by
          simp only [Record.id, Prod.mk.injEq] at hid
          rw [Record.key, Record.key, hid.1, hid.2]
        rw [if_pos hid, if_pos (decide_eq_true hid), hkey]
        rfl
      · rw [if_neg hid, if_neg (by simpa using hid), ih]
        rfl

theorem map_id_place (record : Record) (table : List Record) :
    (place record table).map Record.id =
      if record.id ∈ table.map Record.id then table.map Record.id else table.map Record.id ++ [record.id] := by
  induction table with
  | nil => rfl
  | cons known table ih =>
      rw [place]
      by_cases hid : known.id = record.id
      · simp [hid]
      · rw [if_neg hid, List.map_cons, ih]
        simp only [List.map_cons, List.mem_cons, Ne.symm hid, false_or]
        split_ifs <;> rfl

theorem mem_place {record other : Record} {table : List Record} (hdistinct : (table.map Record.id).Nodup) :
    other ∈ place record table ↔ other = record ∨ other ∈ table ∧ other.id ≠ record.id := by
  induction table with
  | nil => simp [place]
  | cons known table ih =>
      rw [List.map_cons, List.nodup_cons] at hdistinct
      rw [place]
      by_cases hid : known.id = record.id
      · have hrest : other ∈ table → other.id ≠ record.id := by
          intro hother heq
          exact hdistinct.1 (List.mem_map.2 ⟨other, hother, heq.trans hid.symm⟩)
        rw [if_pos hid, List.mem_cons, List.mem_cons]
        grind
      · rw [if_neg hid, List.mem_cons, List.mem_cons, ih hdistinct.2]
        grind

/-- The list has, once for every module and name, the last proof of the records. -/
structure IsTableOf (table records : List Record) : Prop where
  distinct : (table.map Record.id).Nodup
  mem_iff : ∀ record, record ∈ table ↔ lastProof? records record.id = some record.proof

theorem isTableOf_nil : IsTableOf [] [] where
  distinct := List.nodup_nil
  mem_iff record := by simp [lastProof?]

theorem IsTableOf.place {table records : List Record} (htable : IsTableOf table records) (record : Record) :
    IsTableOf (Records.place record table) (records ++ [record]) where
  distinct := by
    rw [map_id_place]
    split_ifs with hmem
    · exact htable.distinct
    · exact List.nodup_append.2 ⟨htable.distinct, List.nodup_singleton _, by grind⟩
  mem_iff other := by
    rw [mem_place htable.distinct, htable.mem_iff, lastProof?_concat]
    by_cases hid : record.id = other.id
    · rw [if_pos hid]
      constructor
      · rintro (rfl | ⟨-, hne⟩)
        · rfl
        · exact absurd hid.symm hne
      · intro hproof
        exact .inl (Record.eq_of_id hid.symm (Option.some.inj hproof).symm)
    · rw [if_neg hid]
      constructor
      · rintro (rfl | ⟨hproof, -⟩)
        · exact absurd rfl hid
        · exact hproof
      · intro hproof
        exact .inr ⟨hproof, Ne.symm hid⟩

theorem isTableOf_foldl (records : List Record) :
    IsTableOf (records.foldl (fun table record => place record table) []) records := by
  induction records using List.reverseRecOn with
  | nil => exact isTableOf_nil
  | append_singleton records record ih =>
      rw [List.foldl_append]
      exact ih.place record

theorem get?_map_entry (table : List Record) (id : String × String) :
    Table.get? (table.map Record.entry) (.str id.1, .str id.2) =
      ((table.find? (·.id = id)).map (·.proof)).map Value.str := by
  have hsame : (fun entry : Key × Value => sameKey entry.1 (.str id.1, .str id.2)) ∘ Record.entry =
      fun record => decide (record.id = id) := by
    funext record
    exact sameKey_key record ⟨id.1, id.2, ""⟩
  rw [Table.get?, List.find?_map, hsame, Option.map_map, Option.map_map]
  rfl

theorem IsTableOf.find?_eq {table records : List Record} (htable : IsTableOf table records)
    (id : String × String) : (table.find? (·.id = id)).map (·.proof) = lastProof? records id := by
  cases hfind : table.find? (·.id = id) with
  | none =>
      symm
      rw [Option.map_none, Option.eq_none_iff_forall_ne_some]
      intro proof hproof
      have hmem : (⟨id.1, id.2, proof⟩ : Record) ∈ table := (htable.mem_iff _).2 hproof
      exact absurd (List.find?_eq_none.1 hfind _ hmem) (by simp [Record.id])
  | some record =>
      have hid : record.id = id := by simpa using List.find?_some hfind
      rw [← hid, Option.map_some]
      exact ((htable.mem_iff record).1 (List.mem_of_find?_eq_some hfind)).symm

/-! ### Reading -/

/-- The lines of a file that are not blank. -/
def recordLines (content : String) : List (List Char) :=
  (Text.lines (Text.fileText content)).filter fun line => !(Text.strip line).isEmpty

/-- The line is an object with the texts of the record; a proof that is absent is empty. -/
def IsLineOf (line : List Char) (record : Record) : Prop :=
  ∃ fields, Json.read (String.ofList line) = .ok (.obj fields) ∧
    Fields.get? fields "module" = some (.str record.module) ∧
    Fields.get? fields "full_name" = some (.str record.name) ∧
    (Fields.get? fields "tactic_proof").getD (.str "") = .str record.proof

/-- The lines of the file are these records. -/
def Reads (content : String) (records : List Record) : Prop :=
  List.Forall₂ IsLineOf (recordLines content) records

theorem getD_null_eq_str {value : Option Value} {text : String} :
    value.getD .null = .str text ↔ value = some (.str text) := by
  cases value <;> simp

theorem readLine_eq_ok_iff {line : List Char} {record : Record} :
    readLine line = .ok record.entry ↔ IsLineOf line record := by
  rw [readLine]
  constructor
  · intro hline
    obtain ⟨item, hread, hline⟩ := bind_eq_ok.1 hline
    obtain ⟨module, hmodule, hline⟩ := bind_eq_ok.1 hline
    obtain ⟨name, hname, hline⟩ := bind_eq_ok.1 hline
    obtain ⟨proof, hproof, hline⟩ := bind_eq_ok.1 hline
    obtain ⟨-, -, hline⟩ := bind_eq_ok.1 hline
    obtain ⟨-, -, hline⟩ := bind_eq_ok.1 hline
    cases hline
    cases item with
    | obj fields =>
        simp only [Value.find, Except.ok.injEq] at hmodule hname hproof
        exact ⟨fields, hread, getD_null_eq_str.1 hmodule, getD_null_eq_str.1 hname, hproof⟩
    | _ => cases hmodule
  · rintro ⟨fields, hread, hmodule, hname, hproof⟩
    simp only [hread, ok_bind, Value.find, hmodule, hname, hproof, Option.getD_some]
    rfl

theorem reads_iff {content : String} {records : List Record} :
    Reads content records ↔
      (recordLines content).map readLine = records.map fun record => .ok record.entry := by
  rw [← List.forall₂_eq_eq_eq, List.forall₂_map_left_iff, List.forall₂_map_right_iff]
  simp only [readLine_eq_ok_iff, Reads]

theorem Reads.unique {content : String} {records others : List Record} (hrecords : Reads content records)
    (hothers : Reads content others) : records = others := by
  have hinjective : Function.Injective fun record : Record => (.ok record.entry : Except Fault (Key × Value)) := by
    intro first second heq
    simp only [Record.entry, Record.key, Except.ok.injEq, Prod.mk.injEq, Value.str.injEq] at heq
    exact Record.eq_of_id (Prod.ext heq.1.1 heq.1.2) heq.2
  exact List.map_injective_iff.2 hinjective ((reads_iff.1 hrecords).symm.trans (reads_iff.1 hothers))

theorem addLines_eq_ok {lines : List (List Char)} {records : List Record}
    (hreads : List.Forall₂ IsLineOf (lines.filter fun line => !(Text.strip line).isEmpty) records)
    (table : List Record) :
    addLines (table.map Record.entry) lines =
      .ok ((records.foldl (fun table record => place record table) table).map Record.entry) := by
  induction lines generalizing records table with
  | nil =>
      cases hreads
      rfl
  | cons line lines ih =>
      rw [addLines]
      split_ifs with hblank
      · -- a blank line is skipped
        rw [List.filter_cons_of_neg (by simpa using hblank)] at hreads
        exact ih hreads table
      · rw [List.filter_cons_of_pos (by simpa using hblank)] at hreads
        cases hreads with
        | @cons _ record _ rest hline hreads =>
            rw [readLine_eq_ok_iff.2 hline, ok_bind]
            show addLines (Table.put _ record.key (.str record.proof)) lines = _
            rw [put_map_entry, ih hreads]
            rfl

theorem ofFile_eq_ok {content : String} {records : List Record} (hreads : Reads content records) :
    ∃ table, ofFile content = .ok (table.map Record.entry) ∧ IsTableOf table records :=
  ⟨_, addLines_eq_ok hreads [], isTableOf_foldl records⟩

/-! ### Writing -/

theorem fileOf_eq_text (records : List Record) :
    fileOf records = Json.text (records.map fun record => Records.record record.key (.str record.proof)) := by
  rw [fileOf, Json.text, List.map_map]
  rfl

theorem lines_fileOf (records : List Record) :
    Text.lines (Text.fileText (fileOf records)) = records.map fun record => record.line.toList := by
  rw [fileOf_eq_text, Json.fileText_text, Json.lines_text, List.map_map]
  rfl

theorem isLineOf_line (record : Record) : IsLineOf record.line.toList record.held := by
  have hread : Json.read (String.ofList record.line.toList) =
      .ok (.obj [("module", .str (Text.held record.module)), ("full_name", .str (Text.held record.name)),
        ("tactic_proof", .str (Text.held record.proof))]) := by
    have hmodule : Text.held "module" = "module" := by decide
    have hname : Text.held "full_name" = "full_name" := by decide
    have hproof : Text.held "tactic_proof" = "tactic_proof" := by decide
    have hback := Json.read_textObject
      [("module", record.module), ("full_name", record.name), ("tactic_proof", record.proof)]
    simp [Json.readBack, Fields.put, hmodule, hname, hproof] at hback
    rw [String.ofList_toList]
    exact hback
  exact ⟨_, hread, rfl, rfl, rfl⟩

/-- A file that was written is read as the records that it was written from. -/
theorem reads_fileOf (records : List Record) : Reads (fileOf records) (records.map Record.held) := by
  have hlines : recordLines (fileOf records) = records.map fun record => record.line.toList := by
    rw [recordLines, lines_fileOf, List.filter_eq_self]
    intro line hline
    obtain ⟨record, -, rfl⟩ := List.mem_map.1 hline
    have hbrace : '\x7b' ∈ record.line.toList := by
      simp [Record.line, recordLine, Json.line, Records.record, Json.write]
    rw [Text.strip_isEmpty_of_mem hbrace (by decide)]
    rfl
  rw [Reads, hlines, List.forall₂_map_left_iff, List.forall₂_map_right_iff, List.forall₂_same]
  exact fun record _ => isLineOf_line record

theorem fileOf_append (first second : List Record) : fileOf (first ++ second) = fileOf first ++ fileOf second := by
  apply String.toList_injective
  simp [fileOf, String.toList_join]

/-! ### The records of a scan -/

/-- A step of a scan writes one record or none. -/
theorem step_written (module : String) (source : Content) (scan : Ast.Scan) (visit : Ast.Visit) :
    ∃ records, (scan.step module source visit).1.written = scan.written ++ fileOf records := by
  rw [Ast.Scan.step]
  cases henter : scan.enter visit with
  | error fault => exact ⟨[], by simp [fileOf]⟩
  | ok entered =>
      have hleft : (entered.leave visit).written = scan.written :=
        (Ast.Scan.leave_eq entered visit).2.2.trans (Ast.Scan.enter_eq_ok henter).2.2
      dsimp only
      cases hrecord : (entered.leave visit).record module source visit with
      | error fault => exact ⟨[], by simp [fileOf, hleft]⟩
      | ok next =>
          rcases (Ast.Scan.record_cases hrecord).2 with hsame | ⟨name, proof, -, -, hwritten⟩
          · exact ⟨[], by simp [fileOf, hsame, hleft]⟩
          · refine ⟨[⟨module, Ast.fullName (entered.leave visit).namespaces name, proof⟩], ?_⟩
            rw [hwritten, hleft]
            simp [fileOf, Record.line, Record.key]

theorem run_written (module : String) (source : Content) (scan : Ast.Scan) (visits : List Ast.Visit) :
    ∃ records, (scan.run module source visits).1.written = scan.written ++ fileOf records := by
  induction visits generalizing scan with
  | nil => exact ⟨[], by simp [Ast.Scan.run, fileOf]⟩
  | cons visit visits ih =>
      obtain ⟨first, hfirst⟩ := step_written module source scan visit
      rw [Ast.Scan.run]
      split
      · rename_i stopped fault hstep
        rw [hstep] at hfirst
        exact ⟨first, hfirst⟩
      · rename_i after hstep
        rw [hstep] at hfirst
        obtain ⟨rest, hrest⟩ := ih after
        refine ⟨first ++ rest, ?_⟩
        rw [hrest, hfirst, fileOf_append, String.append_assoc]

/-- The text that processing a syntax tree file wrote. -/
def written : Ast.Outcome → String
  | .scanned scan _ => scan.written
  | _ => ""

theorem process_written (tree : FileTree) (toolchain root name : Value) :
    ∃ records, written (Ast.process tree toolchain root name) = fileOf records := by
  have hnothing : ∃ records, "" = fileOf records := ⟨[], rfl⟩
  rw [Ast.process]
  split
  · exact hnothing
  · split
    · exact hnothing
    · split
      · exact hnothing
      · exact hnothing
      · rename_i source _
        obtain ⟨records, hrecords⟩ := run_written _ source {} _
        exact ⟨records, hrecords.trans (String.empty_append)⟩

/-! ### Held records -/

theorem id_held {record : Record} {id : String × String} :
    record.held.id = (Text.held id.1, Text.held id.2) ↔ record.id = id := by
  simp only [Record.id, Record.held, Prod.ext_iff, Text.held_injective.eq_iff]

theorem held_injective : Function.Injective Record.held := by
  intro first second heq
  simp only [Record.held, Record.mk.injEq, Text.held_injective.eq_iff] at heq
  cases first
  cases second
  simp_all

theorem lastProof?_map_held (records : List Record) (id : String × String) :
    lastProof? (records.map Record.held) (Text.held id.1, Text.held id.2) =
      (lastProof? records id).map Text.held := by
  have hid : (fun record : Record => decide (record.id = (Text.held id.1, Text.held id.2))) ∘ Record.held =
      fun record => decide (record.id = id) := by
    funext record
    simp only [Function.comp_apply, id_held]
  rw [lastProof?, lastProof?, ← List.map_reverse, List.find?_map, hid, Option.map_map, Option.map_map]
  rfl

/-- The table of held records holds the table of the records. -/
theorem IsTableOf.exists_map_held {table records : List Record}
    (htable : IsTableOf table (records.map Record.held)) :
    ∃ plain, table = plain.map Record.held ∧ IsTableOf plain records := by
  have hrange : ∀ record ∈ table, record ∈ Set.range Record.held := by
    intro record hrecord
    obtain ⟨other, hother, hid, hproof⟩ := exists_mem_of_lastProof? ((htable.mem_iff record).1 hrecord)
    obtain ⟨plain, -, rfl⟩ := List.mem_map.1 hother
    exact ⟨plain, Record.eq_of_id hid hproof⟩
  obtain ⟨plain, rfl⟩ : table ∈ Set.range (List.map Record.held) := by
    rw [Set.range_list_map]
    exact hrange
  refine ⟨plain, rfl, ?_, fun record => ?_⟩
  · refine List.Nodup.of_map (fun id => (Text.held id.1, Text.held id.2)) ?_
    rw [List.map_map]
    have hdistinct := htable.distinct
    rw [List.map_map] at hdistinct
    exact hdistinct
  · have hmem := htable.mem_iff record.held
    rw [List.mem_map_of_injective held_injective] at hmem
    rw [hmem]
    show lastProof? _ (Text.held record.id.1, Text.held record.id.2) = some (Text.held record.proof) ↔ _
    rw [lastProof?_map_held, Option.map_eq_some_iff]
    simp [Text.held_injective.eq_iff]

/-- What processing writes is a file of records, every such file has one line for each record, and its
table has the last proof written for every module and name that occur. -/
theorem written_file_reads_back :
    (∀ tree toolchain root name, ∃ records, written (Ast.process tree toolchain root name) = fileOf records) ∧
    ∀ records : List Record,
      Text.lines (Text.fileText (fileOf records)) = (records.map fun record => record.line.toList) ∧
      ∃ table, ofFile (fileOf records) = .ok (table.map fun record => record.held.entry) ∧
        IsTableOf table records ∧
        ∀ id, Table.get? (table.map fun record => record.held.entry)
            (.str (Text.held id.1), .str (Text.held id.2)) =
          (lastProof? records id).map fun proof => .str (Text.held proof) := by
  refine ⟨process_written, fun records => ⟨lines_fileOf records, ?_⟩⟩
  obtain ⟨table, hfile, htable⟩ := ofFile_eq_ok (reads_fileOf records)
  obtain ⟨plain, rfl, hplain⟩ := htable.exists_map_held
  have hentries : (plain.map Record.held).map Record.entry = plain.map fun record => record.held.entry :=
    List.map_map
  refine ⟨plain, by rw [hfile, hentries], hplain, fun id => ?_⟩
  have hget := get?_map_entry (plain.map Record.held) (Text.held id.1, Text.held id.2)
  rw [htable.find?_eq, lastProof?_map_held, Option.map_map, hentries] at hget
  exact hget

end ProofDump.Records
