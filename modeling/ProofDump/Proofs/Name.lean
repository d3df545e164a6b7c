import Mathlib.Data.Set.Function
import ProofDump.Project.Run
import ProofDump.Proofs.Except
import ProofDump.Proofs.Text.Parts
import ProofDump.Proofs.Value

/-!
# Dotted names

Reading a dotted name into its parts and writing parts with dots between them undo each other on the
non-empty lists of texts without dots, and on nothing else. One name begins with the parts of another where
its text goes on with a dot after the other's, so a batch that is about some beginnings leaves out the
modules whose names only share letters with them.
-/

namespace ProofDump

namespace Name

/-! ### Reading and writing -/

/-- The parts that a text can be read into. -/
def IsParts (parts : List String) : Prop := parts ≠ [] ∧ ∀ part ∈ parts, '.' ∉ part.toList

theorem isParts_parse (text : String) : IsParts (parse text) :=
  ⟨Text.splitAt_ne_nil '.' text, fun _ hpart => Text.notMem_of_mem_splitAt hpart⟩

theorem intercalate_parse (text : String) : ".".intercalate (parse text) = text :=
  Text.intercalate_splitAt rfl text

theorem parse_intercalate {parts : List String} (hparts : IsParts parts) : parse (".".intercalate parts) = parts :=
  Text.splitAt_intercalate rfl hparts.1 hparts.2

theorem written_texts (parts : List String) : written (.texts parts) = .ok (".".intercalate parts) := by
  show Except.ok (".".intercalate ((parts.map Value.str).map Value.reported)) = _
  have hreported : (parts.map Value.str).map Value.reported = parts := by
    rw [List.map_map]
    exact List.map_id parts
  rw [hreported]

theorem written_parse (text : String) : written (.texts (parse text)) = .ok text := by
  rw [written_texts, intercalate_parse]

theorem parse_bijOn : Set.BijOn parse Set.univ {parts | IsParts parts} := by
  refine ⟨fun text _ => isParts_parse text, ?_, ?_⟩
  · intro text _ other _ hsame
    rw [← intercalate_parse text, hsame, intercalate_parse]
  · intro parts hparts
    exact ⟨".".intercalate parts, Set.mem_univ _, parse_intercalate hparts⟩

/-- Only the parts of a text are read back from what is written. -/
theorem written_then_parsed_iff (name : Value) :
    (∃ text, written name = .ok text ∧ Value.texts (parse text) = name) ↔
      ∃ parts, name = .texts parts ∧ IsParts parts := by
  constructor
  · rintro ⟨text, -, hname⟩
    exact ⟨parse text, hname.symm, isParts_parse text⟩
  · rintro ⟨parts, rfl, hparts⟩
    exact ⟨".".intercalate parts, written_texts parts, by rw [parse_intercalate hparts]⟩

/-! ### Beginnings -/

theorem all_zip_same_iff {beginning name : List String} (hlength : beginning.length ≤ name.length) :
    (((beginning.map Value.str).zip (name.map Value.str)).all fun (left, right) => left.same right) = true ↔
      beginning <+: name := by
  induction beginning generalizing name with
  | nil => simp
  | cons first beginning ih =>
      cases name with
      | nil => cases hlength
      | cons part name =>
          rw [List.map_cons, List.map_cons, List.zip_cons_cons, List.all_cons, Bool.and_eq_true,
            ih (Nat.le_of_succ_le_succ hlength), List.cons_prefix_cons]
          show (Value.str first).same (.str part) = true ∧ _ ↔ _
          rw [Value.same_str, decide_eq_true_iff]

theorem isBeginning_texts (beginning name : List String) :
    isBeginning (.texts beginning) (.texts name) = .ok (decide (beginning <+: name)) := by
  show (if (beginning.map Value.str).length ≤ (name.map Value.str).length then
    Except.ok (((beginning.map Value.str).zip (name.map Value.str)).all fun (left, right) => left.same right)
    else Except.ok false) = _
  rw [List.length_map, List.length_map]
  split
  · rename_i hlength
    rw [Bool.eq_iff_iff.2 ((all_zip_same_iff hlength).trans (decide_eq_true_iff).symm)]
  · rename_i hlength
    rw [decide_eq_false fun hbegins => hlength hbegins.length_le]

/-- A text is another one, or goes on after it with a dot. -/
def Continues (start text : String) : Prop := text = start ∨ (start ++ ".").toList <+: text.toList

instance (start text : String) : Decidable (Continues start text) :=
  inferInstanceAs (Decidable (_ ∨ _))

theorem continues_intercalate (start : String) (rest : List String) :
    Continues start (".".intercalate (parse start ++ rest)) := by
  by_cases hrest : rest = []
  · left
    rw [hrest, List.append_nil, intercalate_parse]
  · have hchars (others : String) : (start ++ "." ++ others).toList = (start ++ ".").toList ++ others.toList :=
      String.toList_append
    right
    rw [Text.intercalate_append_texts _ (isParts_parse start).1 hrest, intercalate_parse, hchars]
    exact List.prefix_append _ _

/-- The parts of a text begin with those of another where the text continues it. -/
theorem parse_begins_iff (start text : String) : parse start <+: parse text ↔ Continues start text := by
  constructor
  · rintro ⟨rest, hrest⟩
    have hcontinues := continues_intercalate start rest
    rwa [hrest, intercalate_parse] at hcontinues
  · rintro (rfl | ⟨rest, hrest⟩)
    · exact List.prefix_rfl
    · have htext : text = start ++ "." ++ String.ofList rest := by
        rw [← String.toList_inj, String.toList_append, String.toList_ofList, hrest]
      rw [htext]
      exact ⟨_, (Text.splitAt_append rfl start (String.ofList rest)).symm⟩

end Name

namespace Project

open Name

/-- Whether a module begins with the parts of one of some texts. -/
def beginsWithOne (starts module : List String) : Bool :=
  starts.any fun start => (parse start).isPrefixOf module

theorem beginsWithOne_iff {starts module : List String} :
    beginsWithOne starts module = true ↔ ∃ start ∈ starts, parse start <+: module := by
  simp only [beginsWithOne, List.any_eq_true, List.isPrefixOf_iff_prefix]

theorem beginsWithAny_texts (starts module : List String) :
    beginsWithAny (starts.map fun start => .texts (parse start)) module = .ok (beginsWithOne starts module) := by
  induction starts with
  | nil => rfl
  | cons start starts ih =>
      have hfirst : beginsWithOne (start :: starts) module =
          (decide (parse start <+: module) || beginsWithOne starts module) := by
        rw [Bool.eq_iff_iff, Bool.or_eq_true, beginsWithOne_iff, beginsWithOne_iff, List.exists_mem_cons_iff,
          decide_eq_true_iff]
      rw [List.map_cons, beginsWithAny, isBeginning_texts, ok_bind, ih, hfirst]
      cases decide (parse start <+: module) with
      | true => rfl
      | false => rfl

/-- A batch is about the modules that begin with one of the texts it is given. -/
theorem chosen_texts (tree : FileTree) (base : Path) (starts : List String) :
    chosen tree base (some (.arr (starts.map fun start => .texts (parse start)))) =
      (do return (← modules tree base .listed).filter (beginsWithOne starts)) := by
  rw [chosen]
  cases modules tree base .listed with
  | error fault => rfl
  | ok listed =>
      show listed.filterM (fun module => beginsWithAny _ module) = Except.ok _
      exact filterM_eq_ok_filter fun module _ => beginsWithAny_texts starts module

/-- Reading a name and writing it undo each other exactly on the non-empty lists of texts without dots; one name
begins with the parts of another exactly where its text is the other's or goes on after it with a dot; and a batch
that is given beginnings is about the listed modules that begin with the parts of one of them, whose dotted names
then continue it. -/
theorem dotted_names_and_beginnings :
    Set.BijOn parse Set.univ {parts | IsParts parts} ∧
    (∀ text, written (.texts (parse text)) = .ok text) ∧
    (∀ name, (∃ text, written name = .ok text ∧ Value.texts (parse text) = name) ↔
      ∃ parts, name = .texts parts ∧ IsParts parts) ∧
    (∀ start text, isBeginning (.texts (parse start)) (.texts (parse text)) = .ok (decide (Continues start text))) ∧
    ∀ tree base starts,
      chosen tree base (some (.arr (starts.map fun start => .texts (parse start)))) =
        (do return (← modules tree base .listed).filter (beginsWithOne starts)) ∧
      ∀ module, beginsWithOne starts module = true ↔
        ∃ start ∈ starts, parse start <+: module ∧ Continues start (".".intercalate module) := by
  refine ⟨parse_bijOn, written_parse, written_then_parsed_iff, ?_, ?_⟩
  · intro start text
    rw [isBeginning_texts]
    congr 1
    exact decide_eq_decide.2 (parse_begins_iff start text)
  · intro tree base starts
    refine ⟨chosen_texts tree base starts, fun module => ?_⟩
    rw [beginsWithOne_iff]
    constructor
    · rintro ⟨start, hstart, rest, rfl⟩
      exact ⟨start, hstart, List.prefix_append _ _, continues_intercalate start rest⟩
    · rintro ⟨start, hstart, hbegins, -⟩
      exact ⟨start, hstart, hbegins⟩

end Project

end ProofDump
