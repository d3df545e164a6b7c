import Mathlib.Data.Prod.Lex
import ProofDump.Proofs.Records.Table
import ProofDump.Proofs.Sorting
import ProofDump.Records.Compare

/-!
# Written lists of records

A list of records is written in the order of modules and names. Records as they were read are the held
form of records, which come back when the file is read, or have a half in one of their texts, which no
file can hold.
-/

namespace ProofDump.Records

namespace Record

/-- The record was read. -/
def IsHeld (record : Record) : Prop :=
  Text.IsHeld record.module.toList ∧ Text.IsHeld record.name.toList ∧ Text.IsHeld record.proof.toList

/-- There is half a character in one of the texts. -/
def HasHalf (record : Record) : Prop :=
  Text.hasHalf record.module.toList = true ∨ Text.hasHalf record.name.toList = true ∨
    Text.hasHalf record.proof.toList = true

/-- The place of a record in the order of modules and names. -/
def rank (record : Record) : String ×ₗ String := toLex record.id

theorem rank_held_lt {first second : Record} : first.held.rank < second.held.rank ↔ first.rank < second.rank := by
  simp only [rank, id, held, Prod.Lex.toLex_lt_toLex, Text.held_lt_held, Text.held_injective.eq_iff]

theorem IsHeld.eq_held_or_hasHalf {record : Record} (hrecord : record.IsHeld) :
    (∃ plain, record = held plain) ∨ record.HasHalf := by
  obtain ⟨hmodule, hname, hproof⟩ := hrecord
  rcases hmodule.eq_hold_or_hasHalf with ⟨module, hmodule⟩ | hhalf
  · rcases hname.eq_hold_or_hasHalf with ⟨name, hname⟩ | hhalf
    · rcases hproof.eq_hold_or_hasHalf with ⟨proof, hproof⟩ | hhalf
      · refine .inl ⟨⟨String.ofList module, String.ofList name, String.ofList proof⟩, ?_⟩
        simp [held, Text.held, ← hmodule, ← hname, ← hproof]
      · exact .inr (.inr (.inr hhalf))
    · exact .inr (.inr (.inl hhalf))
  · exact .inr (.inl hhalf)

/-! ### The line of a record -/

theorem toList_line (record : Record) :
    record.line.toList = "\x7b\"module\": \"".toList ++ Json.writeChars .full record.module.toList ++
      "\", \"full_name\": \"".toList ++ Json.writeChars .full record.name.toList ++
      "\", \"tactic_proof\": \"".toList ++ Json.writeChars .full record.proof.toList ++ "\"\x7d\n".toList := by
  have hmodule : Json.writeChars .full "module".toList = "module".toList := by decide
  have hname : Json.writeChars .full "full_name".toList = "full_name".toList := by decide
  have hproof : Json.writeChars .full "tactic_proof".toList = "tactic_proof".toList := by decide
  simp only [line, recordLine, Json.line, Records.record, key, Json.write, Json.writeFields, Json.writeText,
    hmodule, hname, hproof, String.toList_append, String.toList_ofList]
  simp

theorem toList_line_held (record : Record) : record.held.line.toList = Text.hold record.line.toList := by
  simp only [toList_line, Text.hold_append, ← Json.writeChars_hold, held, Text.held, String.toList_ofList]
  rfl

theorem HasHalf.line {record : Record} (hhalf : record.HasHalf) : Text.hasHalf record.line.toList = true := by
  rw [toList_line]
  rcases hhalf with hhalf | hhalf | hhalf
  · iterate 5 apply Text.hasHalf_append_left
    exact Text.hasHalf_append_right _ (Json.hasHalf_writeChars hhalf)
  · iterate 3 apply Text.hasHalf_append_left
    exact Text.hasHalf_append_right _ (Json.hasHalf_writeChars hhalf)
  · apply Text.hasHalf_append_left
    exact Text.hasHalf_append_right _ (Json.hasHalf_writeChars hhalf)

end Record

/-! ### Records that were read -/

theorem isHeld_of_get? {fields : Fields} {name text : String} (hfields : Json.Held (.obj fields))
    (hget : Fields.get? fields name = some (.str text)) : Text.IsHeld text.toList := by
  obtain ⟨before, after, rfl, -⟩ := List.lookup_eq_some_iff.1 hget
  cases hfields with
  | obj hfields =>
      cases hfields (name, .str text) (by simp) with
      | str htext => exact htext

theorem IsLineOf.isHeld {line : List Char} {record : Record} (hline : IsLineOf line record) :
    record.IsHeld := by
  obtain ⟨fields, hread, hmodule, hname, hproof⟩ := hline
  have hfields := Json.read_held hread
  refine ⟨isHeld_of_get? hfields hmodule, isHeld_of_get? hfields hname, ?_⟩
  cases hget : Fields.get? fields "tactic_proof" with
  | none =>
      rw [hget, Option.getD_none, Value.str.injEq] at hproof
      rw [← hproof]
      exact .nil
  | some value =>
      rw [hget, Option.getD_some] at hproof
      rw [hproof] at hget
      exact isHeld_of_get? hfields hget

theorem Reads.isHeld {content : String} {records : List Record} (hreads : Reads content records) :
    ∀ record ∈ records, record.IsHeld := by
  intro record hrecord
  have hmem : (.ok record.entry : Except Fault (Key × Value)) ∈ (recordLines content).map readLine := by
    rw [reads_iff.1 hreads]
    exact List.mem_map_of_mem hrecord
  obtain ⟨line, -, hline⟩ := List.mem_map.1 hmem
  exact (readLine_eq_ok_iff.1 hline).isHeld

/-! ### Files -/

/-- What writing a list of records to a file comes to. -/
def encode (records : List Record) : Except Fault String :=
  match Text.written? (fileOf records).toList with
  | some content => .ok (String.ofList content)
  | none => .error .unencodable

theorem toList_fileOf (records : List Record) :
    (fileOf records).toList = records.flatMap fun record => record.line.toList := by
  rw [fileOf, String.toList_join, List.flatMap_map]

theorem toList_fileOf_held (records : List Record) :
    (fileOf (records.map Record.held)).toList = Text.hold (fileOf records).toList := by
  induction records with
  | nil => rfl
  | cons record records ih =>
      rw [toList_fileOf] at ih ⊢
      rw [toList_fileOf] at ih ⊢
      rw [List.map_cons, List.flatMap_cons, List.flatMap_cons, Text.hold_append, ← ih,
        Record.toList_line_held]

theorem encode_map_held (records : List Record) : encode (records.map Record.held) = .ok (fileOf records) := by
  rw [encode, toList_fileOf_held, Text.written?_hold]
  exact congrArg Except.ok (String.ofList_toList)

theorem encode_of_hasHalf {records : List Record} {record : Record} (hmem : record ∈ records)
    (hhalf : record.HasHalf) : encode records = .error .unencodable := by
  have hfile : Text.hasHalf (fileOf records).toList = true := by
    obtain ⟨before, after, rfl⟩ := List.append_of_mem hmem
    rw [toList_fileOf, List.flatMap_append, List.flatMap_cons]
    exact Text.hasHalf_append_right _ (Text.hasHalf_append_left hhalf.line _)
  rw [encode, Text.written?, hfile]
  rfl

/-- Records that were read can be written unless one of them has a half. -/
theorem exists_map_held {records : List Record} (hheld : ∀ record ∈ records, record.IsHeld)
    (hwhole : ∀ record ∈ records, ¬record.HasHalf) : ∃ plain : List Record, records = plain.map Record.held := by
  have hrange : records ∈ Set.range (List.map Record.held) := by
    rw [Set.range_list_map]
    intro record hrecord
    obtain ⟨plain, hplain⟩ := (hheld record hrecord).eq_held_or_hasHalf.resolve_right (hwhole record hrecord)
    exact ⟨plain, hplain.symm⟩
  obtain ⟨plain, hplain⟩ := hrange
  exact ⟨plain, hplain.symm⟩

/-! ### Order -/

theorem keyBefore_key (first second : Record) :
    keyBefore first.key second.key = .ok (decide (first.rank < second.rank)) := by
  rw [keyBefore, Record.key, Record.key, Value.less_pair]
  simp only [Record.rank, Record.id, Prod.Lex.toLex_lt_toLex]

/-- The module and the name in a key. -/
def keyRank (key : Key) : String ×ₗ String := toLex (key.1.text?.getD "", key.2.text?.getD "")

/-- The records in the order in which they are written. -/
structure IsListing (records listed : List Record) : Prop where
  perm : listed.Perm records
  ordered : listed.Pairwise fun first second => first.rank < second.rank

theorem IsListing.unique {records others first second : List Record} (hperm : records.Perm others)
    (hfirst : IsListing records first) (hsecond : IsListing others second) : first = second := by
  refine List.Perm.eq_of_pairwise ?_ hfirst.ordered hsecond.ordered
    (hfirst.perm.trans (hperm.trans hsecond.perm.symm))
  exact fun _ _ _ _ hlt hgt => absurd hlt hgt.asymm

theorem tableText_eq_encode {records : List Record} (hdistinct : (records.map Record.id).Nodup) :
    ∃ listed, IsListing records listed ∧ tableText (records.map Record.entry) = encode listed := by
  obtain ⟨listed, hsort, hsorted⟩ := Sorting.sortM_map_eq_pure
    (fun first second : Key × Value => keyBefore first.1 second.1) (fun entry => keyRank entry.1)
    Record.entry fun first (_ : first ∈ records) second _ => keyBefore_key first second
  refine ⟨listed, ⟨hsorted.perm, ?_⟩, ?_⟩
  · -- The sort gives a weak order; it is strict because no two records share module and name.
    have hne : listed.Pairwise fun first second => first.id ≠ second.id :=
      List.pairwise_map.1 ((hsorted.perm.map Record.id).nodup_iff.2 hdistinct)
    refine (hsorted.ordered.and hne).imp fun ⟨hle, hid⟩ => lt_of_le_of_ne hle ?_
    exact fun hrank => hid (toLex_inj.1 hrank)
  · have htext : String.join ((listed.map Record.entry).map fun entry => recordLine entry.1 entry.2) =
        fileOf listed := by
      rw [List.map_map]
      rfl
    rw [tableText, hsort, pure_bind, htext]
    rfl

end ProofDump.Records
