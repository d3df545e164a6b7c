import ProofDump.Proofs.Flat.Shape

/-!
# What conversion leads to

`Shape.data` says outright what value a loaded value of a shape becomes; whatever form a conversion arrives at
has this value. A value that fits a shape has the records, lists and leaves that the shape asks for, and its
conversion arrives at a form.
-/

namespace ProofDump

namespace Form

theorem itemValues_eq_map (items : List Form) : itemValues items = items.map toValue := by
  induction items with
  | nil => rfl
  | cons item rest ih => rw [itemValues, ih, List.map_cons]

theorem partValues_eq_map (parts : List (String × Form)) :
    partValues parts = parts.map fun part => (part.1, part.2.toValue) := by
  induction parts with
  | nil => rfl
  | cons part rest ih => rw [partValues, ih, List.map_cons]

end Form

theorem Value.loadedIndex_eq_ok {value member : Value} {index : Int}
    (hmember : value.loadedIndex index = .ok member) : Value.place value.members index = some member := by
  cases value with
  | arr items =>
      simp only [loadedIndex, Value.index] at hmember
      split at hmember
      · rename_i item hitem
        rw [← Except.ok.inj hmember]
        exact hitem
      · cases hmember
  | str s =>
      simp only [loadedIndex, Value.index] at hmember
      split at hmember
      · rename_i c hc
        rw [← Except.ok.inj hmember]
        have hmap (letters : List Char) : Value.place (letters.map fun c => str (String.ofList [c])) index =
            (Value.place letters index).map fun c => str (String.ofList [c]) := by
          simp only [Value.place, List.length_map]
          split_ifs <;> simp
        exact (hmap s.toList).trans (by rw [hc]; rfl)
      · cases hmember
  | _ => cases hmember

def Value.isRecord : Value → Bool
  | obj _ => true
  | _ => false

def Value.isList : Value → Bool
  | arr _ => true
  | _ => false

theorem Value.isRecord_of_eq_true {value : Value} (hrecord : value.isRecord = true) : value.IsRecord := by
  cases value with
  | obj fields => exact ⟨fields, rfl⟩
  | _ => cases hrecord

theorem Value.exists_of_isList {value : Value} (hlist : value.isList = true) : ∃ items, value = arr items := by
  cases value with
  | arr items => exact ⟨items, rfl⟩
  | _ => cases hlist

namespace Flat

def Reading.data : Reading → Value → Value
  | handed, value => value
  | reported, value => .str value.reported
  | dotted, value => .str (".".intercalate (value.members.map Value.reported))
  | lettered, value => .str (".".intercalate (value.members.map Value.reported))
  | span, .arr [start, stop] => .obj [("start", start), ("stop", stop)]
  | span, _ => .null
  | member place, value => (Value.place value.members place).getD .null
  | fixed value, _ => value

theorem ident_eq_ok {name : Value} {form : Form} (hform : ident name = .ok form) :
    form = .text (".".intercalate (name.members.map Value.reported)) := by
  rw [ident, dotted] at hform
  cases hitems : name.loadedItems with
  | error fault =>
      rw [hitems] at hform
      cases hform
  | ok items =>
      rw [hitems] at hform
      cases hform
      rw [Value.members_eq hitems]

theorem range_eq_ok {value : Value} {form : Form} (hform : range .loaded value = .ok form) :
    ∃ start stop, value = .arr [start, stop] ∧ form = .record [("start", .leaf start), ("stop", .leaf stop)] := by
  unfold range at hform
  split at hform
  · exact ⟨_, _, rfl, (Except.ok.inj hform).symm⟩
  · cases hform

theorem member_eq_ok {value : Value} {place : Int} {form : Form}
    (hform : (Reading.member place).form .loaded value = .ok form) :
    ∃ member, Value.place value.members place = some member ∧ form = .leaf member := by
  rw [Reading.form] at hform
  cases hmember : value.loadedIndex place with
  | error fault =>
      rw [hmember] at hform
      cases hform
  | ok member =>
      rw [hmember] at hform
      exact ⟨member, Value.loadedIndex_eq_ok hmember, (Except.ok.inj hform).symm⟩

theorem Reading.toValue_of_form {reading : Reading} {value : Value} {form : Form}
    (hform : reading.form .loaded value = .ok form) : form.toValue = reading.data value := by
  cases reading with
  | dotted =>
      rw [ident_eq_ok hform]
      rfl
  | lettered =>
      rw [ident_eq_ok hform]
      rfl
  | span =>
      obtain ⟨start, stop, rfl, rfl⟩ := range_eq_ok hform
      rfl
  | member place =>
      obtain ⟨member, hmember, rfl⟩ := member_eq_ok hform
      rw [data, hmember]
      rfl
  | _ =>
      cases hform
      rfl

/-- Whether a value has the type that is declared for what is read in this way. What is handed through may be
anything. -/
def Reading.fits : Reading → Value → Bool
  | handed, _ => true
  | reported, .str _ => true
  | dotted, .arr _ => true
  | lettered, .str _ => true
  | span, .arr [.int _, .int _] => true
  | member place, .arr [.str _, .bool _] => place == 0 || place == 1
  | fixed _, _ => true
  | _, _ => false

theorem Reading.exists_of_fits_span {value : Value} (hfits : Reading.span.fits value = true) :
    ∃ start stop, value = .arr [.int start, .int stop] := by
  unfold Reading.fits at hfits
  split at hfits <;> simp_all

theorem Reading.exists_of_fits_member {place : Int} {value : Value} (hfits : (Reading.member place).fits value = true) :
    ∃ text isText, value = .arr [.str text, .bool isText] := by
  unfold Reading.fits at hfits
  split at hfits <;> simp_all

theorem Reading.exists_form_of_fits (offsets : Offsets) {reading : Reading} {value : Value}
    (hfits : reading.fits value = true) : ∃ form, reading.form offsets value = .ok form := by
  unfold Reading.fits at hfits
  split at hfits
  · exact ⟨_, rfl⟩
  · exact ⟨_, rfl⟩
  · exact ⟨_, rfl⟩
  · exact ⟨_, rfl⟩
  · cases offsets <;> exact ⟨_, rfl⟩
  · rename_i place text isText
    simp only [Bool.or_eq_true, beq_iff_eq] at hfits
    rcases hfits with rfl | rfl <;> exact ⟨_, rfl⟩
  · exact ⟨_, rfl⟩
  · cases hfits

namespace Shape

mutual

/-- What a loaded value of the shape becomes. -/
def data : Shape → Value → Value
  | leaf reading, value => reading.data value
  | optional shape, value => if value.isNull then .null else data shape value
  | each shape, value => .arr (value.members.map fun item => data shape item)
  | inner name shape, value => data shape (value.part name)
  | record parts, value => .obj (dataParts parts value)

def dataParts : List (String × Shape) → Value → Fields
  | [], _ => []
  | (name, shape) :: rest, value => (name, data shape value) :: dataParts rest value

end

theorem data_record (parts : List (String × Shape)) (value : Value) :
    (record parts).data value = .obj (parts.map fun part => (part.1, part.2.data value)) := by
  rw [data]
  congr 1
  induction parts with
  | nil => rw [dataParts, List.map_nil]
  | cons part rest ih => rw [dataParts, ih, List.map_cons]

theorem toValue_of_form {shape : Shape} {value : Value} {form : Form}
    (hform : shape.form .loaded value = .ok form) : form.toValue = shape.data value := by
  induction shape using Shape.induction generalizing value form with
  | leaf reading =>
      rw [form_leaf] at hform
      rw [data, Reading.toValue_of_form hform]
  | optional shape ih =>
      rw [form_optional, Flat.optional] at hform
      rw [data]
      split at hform
      · rename_i hnull
        rw [if_pos hnull, ← Except.ok.inj hform]
        rfl
      · rename_i hnull
        rw [if_neg hnull, ih hform]
  | each shape ih =>
      rw [form_each, Flat.each] at hform
      obtain ⟨items, hitems, hform⟩ := bind_eq_ok.1 hform
      obtain ⟨forms, hforms, hform⟩ := bind_eq_ok.1 hform
      rw [← Except.ok.inj hform, Form.toValue, Form.itemValues_eq_map, data, Value.members_eq hitems]
      congr 1
      exact map_of_mapM hforms fun item _ form hitem => ih hitem
  | inner name shape ih =>
      simp only [form_inner] at hform
      obtain ⟨-, hform⟩ := Value.attr_bind_eq_ok.1 hform
      rw [data, ih hform]
  | record parts ih =>
      simp only [form_record, formParts_eq_mapM, map_eq_pure_bind] at hform
      obtain ⟨forms, hforms, hform⟩ := bind_eq_ok.1 hform
      rw [← Except.ok.inj hform, Form.toValue, Form.partValues_eq_map, data_record]
      congr 1
      apply map_of_mapM hforms
      intro part hpart named hnamed
      obtain ⟨partForm, hpartForm, hnamed⟩ := bind_eq_ok.1 hnamed
      rw [← Except.ok.inj hnamed, ih part hpart hpartForm]

/-! ### Fitting values -/

mutual

/-- Whether a value has the records, lists and leaves of the shape. -/
def fits : Shape → Value → Bool
  | leaf reading, value => reading.fits value
  | optional shape, value => value.isNull || fits shape value
  | each shape, value => value.isList && value.members.all fun item => fits shape item
  | inner name shape, value => value.isRecord && fits shape (value.part name)
  | record parts, value => fitsIn parts value

def fitsIn : List (String × Shape) → Value → Bool
  | [], _ => true
  | (_, shape) :: rest, value => fits shape value && fitsIn rest value

end

theorem fits_record {parts : List (String × Shape)} {value : Value} :
    (record parts).fits value = true ↔ ∀ part ∈ parts, part.2.fits value = true := by
  rw [fits]
  induction parts with
  | nil => simp [fitsIn]
  | cons part rest ih => rw [fitsIn, Bool.and_eq_true, ih, List.forall_mem_cons]

theorem everywhere_of_fits {passes : Reading → Value → Bool}
    (hpasses : ∀ reading value, reading.fits value = true → passes reading value = true) {shape : Shape}
    {value : Value} (hfits : shape.fits value = true) : shape.everywhere passes value = true := by
  induction shape using Shape.induction generalizing value with
  | leaf reading =>
      rw [fits] at hfits
      rw [everywhere, hpasses reading value hfits]
  | optional shape ih =>
      rw [fits, Bool.or_eq_true] at hfits
      rw [everywhere, Bool.or_eq_true]
      exact hfits.imp_right ih
  | each shape ih =>
      rw [fits, Bool.and_eq_true, List.all_eq_true] at hfits
      rw [everywhere, List.all_eq_true]
      exact fun item hitem => ih (hfits.2 item hitem)
  | inner name shape ih =>
      rw [fits, Bool.and_eq_true] at hfits
      rw [everywhere]
      exact ih hfits.2
  | record parts ih =>
      rw [fits_record] at hfits
      rw [everywhere_record]
      exact fun part hpart => ih part hpart (hfits part hpart)

theorem exists_form_of_fits (offsets : Offsets) {shape : Shape} {value : Value} (hfits : shape.fits value = true) :
    ∃ form, shape.form offsets value = .ok form := by
  induction shape using Shape.induction generalizing value with
  | leaf reading =>
      rw [fits] at hfits
      rw [form_leaf]
      exact reading.exists_form_of_fits offsets hfits
  | optional shape ih =>
      rw [fits, Bool.or_eq_true] at hfits
      rw [form_optional, Flat.optional]
      split
      · exact ⟨_, rfl⟩
      · rename_i hnull
        exact ih (hfits.resolve_left hnull)
  | each shape ih =>
      rw [fits, Bool.and_eq_true, List.all_eq_true] at hfits
      obtain ⟨forms, hforms⟩ := exists_mapM_eq_ok fun item hitem => ih (hfits.2 item hitem)
      obtain ⟨items, rfl⟩ := Value.exists_of_isList hfits.1
      rw [form_each]
      exact ⟨.list forms, bind_eq_ok.2 ⟨items, rfl, bind_eq_ok.2 ⟨forms, hforms, rfl⟩⟩⟩
  | inner name shape ih =>
      rw [fits, Bool.and_eq_true] at hfits
      obtain ⟨form, hform⟩ := ih hfits.2
      simp only [form_inner]
      exact ⟨form, bind_eq_ok.2 ⟨_, (Value.isRecord_of_eq_true hfits.1).attr name, hform⟩⟩
  | record parts ih =>
      rw [fits_record] at hfits
      obtain ⟨forms, hforms⟩ : ∃ forms, formParts offsets parts value = .ok forms := by
        rw [formParts_eq_mapM]
        apply exists_mapM_eq_ok
        intro part hpart
        obtain ⟨form, hform⟩ := ih part hpart (hfits part hpart)
        exact ⟨(part.1, form), by rw [hform]; rfl⟩
      simp only [form_record, hforms]
      exact ⟨_, rfl⟩

/-! ### Parts of records -/

section Parts

variable {parts : List (String × Shape)} {shape : Shape} {value : Value} (name : String)

theorem data_part (hpart : parts.lookup name = some shape) (value : Value) :
    ((record parts).data value).part name = shape.data value := by
  have hlookup : (parts.map fun part => (part.1, part.2.data value)).lookup name = some (shape.data value) := by
    induction parts with
    | nil => cases hpart
    | cons part rest ih =>
        rw [List.lookup_cons] at hpart
        rw [List.map_cons, List.lookup_cons]
        split at hpart
        · cases hpart
          rfl
        · exact ih hpart
  rw [data_record, Value.part, Fields.get?, hlookup]
  rfl

theorem data_innerPart {other : String} (hpart : parts.lookup name = some (inner other shape)) (value : Value) :
    ((record parts).data value).part name = shape.data (value.part other) := by
  rw [data_part name hpart, data]

theorem fits_part (hfits : (record parts).fits value = true) (hpart : parts.lookup name = some shape) :
    shape.fits value = true := by
  rw [fits_record] at hfits
  induction parts with
  | nil => cases hpart
  | cons part rest ih =>
      obtain ⟨hfirst, hrest⟩ := List.forall_mem_cons.1 hfits
      rw [List.lookup_cons] at hpart
      split at hpart
      · cases hpart
        exact hfirst
      · exact ih hrest hpart

theorem fits_inner {name : String} (hfits : (inner name shape).fits value = true) : shape.fits (value.part name) = true := by
  rw [fits, Bool.and_eq_true] at hfits
  exact hfits.2

end Parts

end Shape

end Flat

end ProofDump
