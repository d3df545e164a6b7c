import ProofDump.Proofs.Records.Written

/-!
# The lists of a comparison

Two tables of records are compared through the maps from module and name to the last proof. Each of the
four lists selects the records that belong to it by these maps alone (`compare_split`), and the text that
is written for a list is determined by what it selects (`Selects.tableText_congr`).
-/

namespace ProofDump.Records

/-! ### What belongs where -/

/-- The record is in the first file, and its module and name are not in the second. -/
def OnlyIn (first second : List Record) (record : Record) : Prop :=
  lastProof? first record.id = some record.proof ∧ lastProof? second record.id = none

/-- The record is in both files. -/
def SameIn (first second : List Record) (record : Record) : Prop :=
  lastProof? first record.id = some record.proof ∧ lastProof? second record.id = some record.proof

/-- The record is in the second file, and the first has another proof for its module and name. -/
def DifferentIn (first second : List Record) (record : Record) : Prop :=
  lastProof? second record.id = some record.proof ∧
    ∃ proof, lastProof? first record.id = some proof ∧ proof ≠ record.proof

/-- The record belongs to one of the lists. -/
def Belongs (first second : List Record) (record : Record) : Prop :=
  OnlyIn first second record ∨ OnlyIn second first record ∨ SameIn first second record ∨
    DifferentIn first second record

/-- The list has the records that belong to it, each once. -/
structure Selects (records : List Record) (belongs : Record → Prop) : Prop where
  distinct : (records.map Record.id).Nodup
  mem_iff : ∀ record, record ∈ records ↔ belongs record

theorem Selects.perm {records others : List Record} {belongs : Record → Prop}
    (hrecords : Selects records belongs) (hothers : Selects others belongs) : records.Perm others := by
  rw [List.perm_ext_iff_of_nodup hrecords.distinct.of_map hothers.distinct.of_map]
  exact fun record => (hrecords.mem_iff record).trans (hothers.mem_iff record).symm

theorem Selects.tableText_congr {records others : List Record} {belongs : Record → Prop}
    (hrecords : Selects records belongs) (hothers : Selects others belongs) :
    tableText (records.map Record.entry) = tableText (others.map Record.entry) := by
  obtain ⟨listed, hlisted, htext⟩ := tableText_eq_encode hrecords.distinct
  obtain ⟨other, hother, hotherText⟩ := tableText_eq_encode hothers.distinct
  rw [htext, hotherText, hlisted.unique (hrecords.perm hothers) hother]

/-! ### The lists of a comparison -/

section Lists

variable {first second firstRecords secondRecords : List Record}

theorem IsTableOf.mem_ids {table records : List Record} (htable : IsTableOf table records)
    (id : String × String) : id ∈ table.map Record.id ↔ (lastProof? records id).isSome = true := by
  rw [Option.isSome_iff_exists, List.mem_map]
  constructor
  · rintro ⟨record, hrecord, rfl⟩
    exact ⟨record.proof, (htable.mem_iff record).1 hrecord⟩
  · rintro ⟨proof, hproof⟩
    exact ⟨⟨id.1, id.2, proof⟩, (htable.mem_iff _).2 hproof, rfl⟩

theorem IsTableOf.has_key {table records : List Record} (htable : IsTableOf table records) (record : Record) :
    Table.has (table.map Record.entry) record.key = (lastProof? records record.id).isSome := by
  rw [Bool.eq_iff_iff, ← htable.mem_ids, Table.has, List.any_map, List.any_eq_true, List.mem_map]
  refine exists_congr fun other => and_congr_right fun _ => ?_
  show sameKey other.key record.key = true ↔ _
  rw [sameKey_key, decide_eq_true_eq]

theorem onlyIn_selects (hfirst : IsTableOf first firstRecords) (hsecond : IsTableOf second secondRecords) :
    ∃ records, onlyIn (first.map Record.entry) (second.map Record.entry) = records.map Record.entry ∧
      Selects records (OnlyIn firstRecords secondRecords) := by
  refine ⟨first.filter fun record => !(lastProof? secondRecords record.id).isSome, ?_, ?_, fun record => ?_⟩
  · rw [onlyIn, List.filter_map]
    congr 2
    funext record
    exact congrArg (!·) (hsecond.has_key record)
  · exact hfirst.distinct.sublist (List.filter_sublist.map _)
  · rw [List.mem_filter, hfirst.mem_iff, OnlyIn]
    simp

theorem keys_filter_has (htable : IsTableOf second secondRecords) (table : List Record) :
    ((table.map Record.entry).map (·.1)).filter (Table.has (second.map Record.entry)) =
      (table.filter fun record => (lastProof? secondRecords record.id).isSome).map Record.key := by
  rw [List.map_map, List.filter_map]
  congr 2
  funext record
  exact htable.has_key record

/-- The keys are asked for in the smaller table, but they are those of both. -/
theorem sharedKeys_eq (hfirst : IsTableOf first firstRecords) (hsecond : IsTableOf second secondRecords) :
    ∃ shared : List Record, sharedKeys (first.map Record.entry) (second.map Record.entry) = shared.map Record.key ∧
      (shared.map Record.id).Nodup ∧ ∀ id, id ∈ shared.map Record.id ↔
        (lastProof? firstRecords id).isSome = true ∧ (lastProof? secondRecords id).isSome = true := by
  have hmem {table records : List Record} (htable : IsTableOf table records) (keeps : String × String → Bool)
      (id : String × String) : id ∈ (table.filter fun record => keeps record.id).map Record.id ↔
        (lastProof? records id).isSome = true ∧ keeps id = true := by
    rw [← htable.mem_ids]
    simp only [List.mem_map, List.mem_filter]
    grind
  rw [sharedKeys]
  split_ifs
  · refine ⟨_, keys_filter_has hsecond first, hfirst.distinct.sublist (List.filter_sublist.map _), ?_⟩
    exact hmem hfirst fun id => (lastProof? secondRecords id).isSome
  · refine ⟨_, keys_filter_has hfirst second, hsecond.distinct.sublist (List.filter_sublist.map _), fun id => ?_⟩
    exact (hmem hsecond (fun id => (lastProof? firstRecords id).isSome) id).trans and_comm

/-- The record under a module and name in both files whose proofs are equal, or different. -/
def shared? (firstRecords secondRecords source : List Record) (equal : Bool) (id : String × String) :
    Option Record :=
  match lastProof? firstRecords id, lastProof? secondRecords id with
  | some a, some b =>
    if decide (a = b) == equal then (lastProof? source id).map (⟨id.1, id.2, ·⟩) else none
  | _, _ => none

theorem shared?_eq_some_iff {source : List Record} {equal : Bool} {id : String × String} {record : Record} :
    shared? firstRecords secondRecords source equal id = some record ↔
      record.id = id ∧ lastProof? source id = some record.proof ∧
        ∃ a b, lastProof? firstRecords id = some a ∧ lastProof? secondRecords id = some b ∧
          decide (a = b) = equal := by
  unfold shared?
  cases hfirst : lastProof? firstRecords id with
  | none => simp
  | some a =>
      cases hsecond : lastProof? secondRecords id with
      | none => simp
      | some b =>
          by_cases hequal : decide (a = b) = equal
          · simp only [hequal, beq_self_eq_true, if_true, Option.map_eq_some_iff]
            constructor
            · rintro ⟨proof, hproof, rfl⟩
              exact ⟨rfl, hproof, a, b, rfl, rfl, hequal⟩
            · rintro ⟨rfl, hproof, -⟩
              exact ⟨record.proof, hproof, rfl⟩
          · simp only [beq_eq_false_iff_ne.2 hequal, Bool.false_eq_true, if_false]
            constructor
            · intro hnone
              cases hnone
            · rintro ⟨-, -, c, d, hc, hd, hcd⟩
              cases hc
              cases hd
              exact absurd hcd hequal

theorem IsTableOf.get?_key {table records : List Record} (htable : IsTableOf table records) (record : Record) :
    Table.get? (table.map Record.entry) record.key = (lastProof? records record.id).map Value.str :=
  (get?_map_entry table record.id).trans (congrArg _ (htable.find?_eq record.id))

theorem sharedEntries_selects {source sourceRecords : List Record} (hfirst : IsTableOf first firstRecords)
    (hsecond : IsTableOf second secondRecords) (hsource : IsTableOf source sourceRecords) (equal : Bool) :
    ∃ records, sharedEntries (first.map Record.entry) (second.map Record.entry) (source.map Record.entry) equal =
        records.map Record.entry ∧
      Selects records fun record =>
        shared? firstRecords secondRecords sourceRecords equal record.id = some record := by
  obtain ⟨shared, hkeys, hdistinct, hids⟩ := sharedKeys_eq hfirst hsecond
  refine ⟨(shared.map Record.id).filterMap (shared? firstRecords secondRecords sourceRecords equal), ?_, ?_, ?_⟩
  · rw [sharedEntries, hkeys, List.filterMap_map, List.filterMap_map, List.map_filterMap]
    congr 1
    funext record
    simp only [Function.comp_apply, hfirst.get?_key, hsecond.get?_key, hsource.get?_key, shared?]
    cases lastProof? firstRecords record.id with
    | none => rfl
    | some a =>
        cases lastProof? secondRecords record.id with
        | none => rfl
        | some b =>
            simp only [Option.map_some, Value.same_str]
            split_ifs
            · rw [Option.map_map, Option.map_map]
              rfl
            · rfl
  · -- An entry stands under the key that it was asked for, so distinct keys give distinct entries.
    rw [List.map_filterMap]
    refine hdistinct.filterMap fun one other id hone hother => ?_
    obtain ⟨record, hrecord, rfl⟩ := Option.mem_map.1 hone
    obtain ⟨same, hsame, hid⟩ := Option.mem_map.1 hother
    rw [← (shared?_eq_some_iff.1 hrecord).1, ← (shared?_eq_some_iff.1 hsame).1, hid]
  · intro record
    rw [List.mem_filterMap]
    constructor
    · rintro ⟨id, -, hrecord⟩
      rwa [(shared?_eq_some_iff.1 hrecord).1]
    · intro hrecord
      obtain ⟨-, -, a, b, ha, hb, -⟩ := shared?_eq_some_iff.1 hrecord
      exact ⟨record.id, (hids record.id).2 ⟨by rw [ha]; rfl, by rw [hb]; rfl⟩, hrecord⟩

/-- The records in the lists of a comparison. -/
structure Parts where
  onlyFirst : List Record
  onlySecond : List Record
  same : List Record
  different : List Record

def Parts.comparison (parts : Parts) : Comparison where
  onlyFirst := parts.onlyFirst.map Record.entry
  onlySecond := parts.onlySecond.map Record.entry
  same := parts.same.map Record.entry
  different := parts.different.map Record.entry

/-- Every list has the records that belong to it. -/
structure Parts.Split (parts : Parts) (first second : List Record) : Prop where
  onlyFirst : Selects parts.onlyFirst (OnlyIn first second)
  onlySecond : Selects parts.onlySecond (OnlyIn second first)
  same : Selects parts.same (SameIn first second)
  different : Selects parts.different (DifferentIn first second)

theorem Parts.Split.congr {parts : Parts} {first second otherFirst otherSecond : List Record}
    (hsplit : parts.Split first second) (hfirst : lastProof? first = lastProof? otherFirst)
    (hsecond : lastProof? second = lastProof? otherSecond) : parts.Split otherFirst otherSecond := by
  obtain ⟨honlyFirst, honlySecond, hsame, hdifferent⟩ := hsplit
  unfold OnlyIn SameIn DifferentIn at *
  rw [hfirst, hsecond] at *
  exact ⟨honlyFirst, honlySecond, hsame, hdifferent⟩

theorem compare_split (hfirst : IsTableOf first firstRecords) (hsecond : IsTableOf second secondRecords) :
    ∃ parts : Parts, compare (first.map Record.entry) (second.map Record.entry) = parts.comparison ∧
      parts.Split firstRecords secondRecords := by
  obtain ⟨onlyFirst, honlyFirst, hselectsFirst⟩ := onlyIn_selects hfirst hsecond
  obtain ⟨onlySecond, honlySecond, hselectsSecond⟩ := onlyIn_selects hsecond hfirst
  obtain ⟨same, hsame, hselectsSame⟩ := sharedEntries_selects hfirst hsecond hfirst true
  obtain ⟨different, hdifferent, hselectsDifferent⟩ := sharedEntries_selects hfirst hsecond hsecond false
  refine ⟨⟨onlyFirst, onlySecond, same, different⟩, ?_, hselectsFirst, hselectsSecond,
    ⟨hselectsSame.distinct, fun record => ?_⟩, ⟨hselectsDifferent.distinct, fun record => ?_⟩⟩
  · rw [compare, honlyFirst, honlySecond, hsame, hdifferent]
    rfl
  · rw [hselectsSame.mem_iff, shared?_eq_some_iff, SameIn]
    constructor
    · rintro ⟨-, hproof, a, b, ha, hb, hequal⟩
      rw [← of_decide_eq_true hequal, ← ha] at hb
      exact ⟨hproof, hb.trans hproof⟩
    · rintro ⟨hproof, hother⟩
      exact ⟨rfl, hproof, _, _, hproof, hother, decide_eq_true rfl⟩
  · rw [hselectsDifferent.mem_iff, shared?_eq_some_iff, DifferentIn]
    constructor
    · rintro ⟨-, hproof, a, b, ha, hb, hequal⟩
      cases hb.symm.trans hproof
      exact ⟨hproof, a, ha, of_decide_eq_false hequal⟩
    · rintro ⟨hproof, proof, hother, hne⟩
      exact ⟨rfl, hproof, proof, _, hother, hproof, decide_eq_false hne⟩

end Lists

end ProofDump.Records
