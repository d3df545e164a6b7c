import ProofDump.Proofs.Flat.Data
import ProofDump.Proofs.Flat.Offsets
import ProofDump.Proofs.Json.Value

/-!
# Lines of flat forms

A form is written on a line only if all its leaves can be written. If moreover they are null, truth values,
integers, texts or lists of such, the line reads back as the value of the form. For loaded records that is the
data of their shape, for info trees `InfoTree.data`, the data of every node with that of its children in order.
-/

namespace ProofDump

namespace Value

mutual

/-- Null, a truth value, an integer, a text, or a list of such. -/
def isLeaf : Value → Bool
  | arr items => areLeaves items
  | dec _ => false
  | obj _ => false
  | _ => true

def areLeaves : List Value → Bool
  | [] => true
  | item :: rest => item.isLeaf && areLeaves rest

end

theorem areLeaves_iff {items : List Value} : areLeaves items = true ↔ ∀ item ∈ items, item.isLeaf = true := by
  induction items with
  | nil => simp [areLeaves]
  | cons item rest ih => rw [areLeaves, Bool.and_eq_true, ih, List.forall_mem_cons]

theorem checkAllWritable_cons {item : Value} {rest : List Value} :
    checkAllWritable (item :: rest) = .ok () ↔ checkWritable item = .ok () ∧ checkAllWritable rest = .ok () := by
  rw [checkAllWritable]
  cases checkWritable item with
  | ok done => simp
  | error fault => simp

mutual

theorem isReadable_of_isLeaf : ∀ {value : Value}, value.isLeaf = true → checkWritable value = .ok () →
    value.IsReadable
  | null, _, _ => .null
  | bool b, _, _ => .bool b
  | int n, _, hwritable => by
      rw [checkWritable] at hwritable
      split at hwritable
      · exact .int ‹_›
      · cases hwritable
  | str s, _, _ => .str s
  | arr items, hleaf, hwritable => .arr (forall_isReadable_of_areLeaves hleaf hwritable)

theorem forall_isReadable_of_areLeaves : ∀ {items : List Value}, areLeaves items = true →
    checkAllWritable items = .ok () → ∀ item ∈ items, item.IsReadable
  | [], _, _ => List.forall_mem_nil _
  | item :: rest, hleaves, hwritable => by
      rw [areLeaves, Bool.and_eq_true] at hleaves
      obtain ⟨hitem, hrest⟩ := checkAllWritable_cons.1 hwritable
      exact List.forall_mem_cons.2
        ⟨isReadable_of_isLeaf hleaves.1 hitem, forall_isReadable_of_areLeaves hleaves.2 hrest⟩

end

theorem isLeaf_of_mem_members {value member : Value} (hleaf : value.isLeaf = true)
    (hmember : member ∈ value.members) : member.isLeaf = true := by
  cases value with
  | arr items => exact areLeaves_iff.1 hleaf member hmember
  | str s =>
      obtain ⟨c, -, rfl⟩ := List.mem_map.1 (show member ∈ s.toList.map fun c => str (String.ofList [c]) from hmember)
      rfl
  | _ => cases hmember

/-- What holds of the parts of a value and of its members if it holds of the value. -/
structure Inherited (kept : Value → Prop) : Prop where
  part : ∀ {value}, kept value → ∀ name, kept (value.part name)
  member : ∀ {value}, kept value → ∀ member ∈ value.members, kept member

theorem Inherited.trivial : Inherited fun _ => True := ⟨fun _ _ => ⟨⟩, fun _ _ _ => ⟨⟩⟩

theorem mem_of_place {α : Type} {members : List α} {index : Int} {member : α}
    (hmember : place members index = some member) : member ∈ members := by
  rw [place] at hmember
  split at hmember
  · exact List.mem_of_getElem? hmember
  · split at hmember
    · exact List.mem_of_getElem? hmember
    · cases hmember

end Value

namespace Form

theorem itemLeaves_eq_flatMap (items : List Form) : itemLeaves items = items.flatMap leaves := by
  induction items with
  | nil => rfl
  | cons item rest ih => rw [itemLeaves, ih, List.flatMap_cons]

theorem partLeaves_eq_flatMap (parts : List (String × Form)) :
    partLeaves parts = parts.flatMap fun part => part.2.leaves := by
  induction parts with
  | nil => rfl
  | cons part rest ih => rw [partLeaves, ih, List.flatMap_cons]

mutual

theorem isReadable_toValue : ∀ form : Form, (∀ value ∈ form.leaves, value.IsReadable) → form.toValue.IsReadable
  | leaf value, hleaves => hleaves value (List.mem_singleton.2 rfl)
  | list items, hleaves => by
      rw [toValue, itemValues_eq_map]
      exact .arr (List.forall_mem_map.2 (isReadable_items items hleaves))
  | record parts, hleaves => by
      rw [toValue, partValues_eq_map]
      exact .obj (List.forall_mem_map.2 (isReadable_parts parts hleaves))

theorem isReadable_items : ∀ items : List Form, (∀ value ∈ itemLeaves items, value.IsReadable) →
    ∀ item ∈ items, item.toValue.IsReadable
  | [], _ => List.forall_mem_nil _
  | item :: rest, hleaves => by
      rw [itemLeaves, List.forall_mem_append] at hleaves
      exact List.forall_mem_cons.2 ⟨isReadable_toValue item hleaves.1, isReadable_items rest hleaves.2⟩

theorem isReadable_parts : ∀ parts : List (String × Form), (∀ value ∈ partLeaves parts, value.IsReadable) →
    ∀ part ∈ parts, part.2.toValue.IsReadable
  | [], _ => List.forall_mem_nil _
  | (_, form) :: rest, hleaves => by
      rw [partLeaves, List.forall_mem_append] at hleaves
      exact List.forall_mem_cons.2 ⟨isReadable_toValue form hleaves.1, isReadable_parts rest hleaves.2⟩

end

theorem forall_leaves_list {good : Value → Prop} {items : List Form} :
    (∀ value ∈ (list items).leaves, good value) ↔ ∀ item ∈ items, ∀ value ∈ item.leaves, good value := by
  rw [leaves, itemLeaves_eq_flatMap, List.forall_mem_flatMap]

theorem forall_leaves_record {good : Value → Prop} {parts : List (String × Form)} :
    (∀ value ∈ (record parts).leaves, good value) ↔ ∀ part ∈ parts, ∀ value ∈ part.2.leaves, good value := by
  rw [leaves, partLeaves_eq_flatMap, List.forall_mem_flatMap]

/-- All leaves of the form are such values. -/
def IsPlain (form : Form) : Prop := ∀ value ∈ form.leaves, value.isLeaf = true

theorem isPlain_list {items : List Form} : (list items).IsPlain ↔ ∀ item ∈ items, item.IsPlain :=
  forall_leaves_list

theorem isPlain_record {parts : List (String × Form)} : (record parts).IsPlain ↔ ∀ part ∈ parts, part.2.IsPlain :=
  forall_leaves_record

end Form

namespace Flat

theorem line_eq_ok {form : Form} {text : String} (hplain : form.IsPlain) (hline : line form = .ok text) :
    text = Json.plainLine form.toValue ∧ form.toValue.IsReadable := by
  rw [line, Form.written] at hline
  cases hcheck : Value.checkAllWritable form.leaves with
  | error fault =>
      rw [hcheck] at hline
      cases hline
  | ok done =>
      rw [hcheck] at hline
      refine ⟨(Except.ok.inj hline).symm, form.isReadable_toValue ?_⟩
      exact Value.forall_isReadable_of_areLeaves (Value.areLeaves_iff.2 hplain) hcheck

/-! ### Records -/

/-- Whether what is handed through is such a value, and the offsets of a range are integers. -/
def Reading.isPlain : Reading → Value → Bool
  | handed, value => value.isLeaf
  | member _, value => value.isLeaf
  | fixed value, _ => value.isLeaf
  | span, value => Reading.span.isWhole value
  | _, _ => true

theorem Reading.form_isPlain {reading : Reading} {value : Value} {form : Form} (hplain : reading.isPlain value = true)
    (hform : reading.form .loaded value = .ok form) : form.IsPlain := by
  have hleaf {value : Value} (hvalue : value.isLeaf = true) : (Form.leaf value).IsPlain :=
    List.forall_mem_singleton.2 hvalue
  cases reading with
  | handed =>
      cases hform
      exact hleaf hplain
  | reported =>
      cases hform
      exact hleaf rfl
  | dotted =>
      rw [ident_eq_ok hform]
      exact hleaf rfl
  | lettered =>
      rw [ident_eq_ok hform]
      exact hleaf rfl
  | span =>
      obtain ⟨start, stop, rfl, rfl⟩ := range_eq_ok hform
      obtain ⟨m, n, rfl, rfl⟩ := exists_of_isWhole hplain
      rw [Form.isPlain_record]
      exact List.forall_mem_cons.2 ⟨hleaf rfl, List.forall_mem_singleton.2 (hleaf rfl)⟩
  | member place =>
      obtain ⟨member, hmember, rfl⟩ := member_eq_ok hform
      exact hleaf (Value.isLeaf_of_mem_members hplain (Value.mem_of_place hmember))
  | fixed value =>
      cases hform
      exact hleaf hplain

/-- If what is kept in parts and members of a value makes the leaves of a form good where single leaves are read,
all leaves of the form of a value are good. -/
theorem Shape.forall_leaves_of_form {offsets : Offsets} {kept good : Value → Prop} {passes : Reading → Value → Bool}
    (hkept : Value.Inherited kept) (hnull : good .null)
    (hreading : ∀ {reading value form}, kept value → passes reading value = true →
      reading.form offsets value = .ok form → ∀ leaf ∈ form.leaves, good leaf)
    {shape : Shape} {value : Value} {form : Form} (hvalue : kept value)
    (hpasses : shape.everywhere passes value = true) (hform : shape.form offsets value = .ok form) :
    ∀ leaf ∈ form.leaves, good leaf := by
  induction shape using Shape.induction generalizing value form with
  | leaf reading =>
      rw [everywhere] at hpasses
      rw [form_leaf] at hform
      exact hreading hvalue hpasses hform
  | optional shape ih =>
      rw [everywhere, Bool.or_eq_true] at hpasses
      rw [form_optional, Flat.optional] at hform
      split at hform
      · cases hform
        exact List.forall_mem_singleton.2 hnull
      · rename_i hpresent
        exact ih hvalue (hpasses.resolve_left hpresent) hform
  | each shape ih =>
      rw [everywhere, List.all_eq_true] at hpasses
      rw [form_each, Flat.each] at hform
      obtain ⟨items, hitems, hform⟩ := bind_eq_ok.1 hform
      obtain ⟨forms, hforms, hform⟩ := bind_eq_ok.1 hform
      have hmembers := hkept.member hvalue
      rw [Value.members_eq hitems] at hpasses hmembers
      cases hform
      rw [Form.forall_leaves_list]
      intro form hform
      obtain ⟨item, hitem, hform⟩ := exists_of_mem_mapM hforms hform
      exact ih (hmembers item hitem) (hpasses item hitem) hform
  | inner name shape ih =>
      rw [everywhere] at hpasses
      simp only [form_inner] at hform
      obtain ⟨-, hform⟩ := Value.attr_bind_eq_ok.1 hform
      exact ih (hkept.part hvalue name) hpasses hform
  | record parts ih =>
      rw [everywhere_record] at hpasses
      simp only [form_record, formParts_eq_mapM, map_eq_pure_bind] at hform
      obtain ⟨forms, hforms, hform⟩ := bind_eq_ok.1 hform
      cases hform
      rw [Form.forall_leaves_record]
      intro named hnamed
      obtain ⟨part, hpart, hnamed⟩ := exists_of_mem_mapM hforms hnamed
      obtain ⟨form, hform, hnamed⟩ := bind_eq_ok.1 hnamed
      cases hnamed
      exact ih part hpart hvalue (hpasses part hpart) hform

theorem Shape.form_isPlain {shape : Shape} {value : Value} {form : Form}
    (hplain : shape.everywhere Reading.isPlain value = true) (hform : shape.form .loaded value = .ok form) :
    form.IsPlain := by
  have hnull : Value.null.isLeaf = true := rfl
  exact forall_leaves_of_form .trivial hnull (fun _ => Reading.form_isPlain) trivial hplain hform

theorem Reading.isWhole_of_isPlain {reading : Reading} {value : Value} (hplain : reading.isPlain value = true) :
    reading.isWhole value = true := by
  cases reading with
  | span => exact hplain
  | _ => rfl

/-- What a record comes to if it is written. -/
theorem Shape.form_eq_ok {shape : Shape} {value : Value} {form : Form}
    (hplain : shape.everywhere Reading.isPlain value = true) (hform : shape.form .integers value = .ok form) :
    form.IsPlain ∧ form.toValue = shape.data value := by
  rw [Shape.form_integers (everywhere_imp (fun _ _ => Reading.isWhole_of_isPlain) hplain)] at hform
  exact ⟨form_isPlain hplain hform, toValue_of_form hform⟩

end Flat

/-! ### Info trees -/

namespace InfoTree

mutual

/-- The data of an info tree. -/
def data : InfoTree → Value
  | node info ref children _ =>
    .obj [("info", Flat.Shape.info.data info), ("ref", Flat.Shape.kindedExcerpt.data ref),
      ("children", .arr (forestData children))]
  | other _ => .null

def forestData : List InfoTree → List Value
  | [] => []
  | tree :: rest => tree.data :: forestData rest

end

end InfoTree

namespace Flat

theorem tree_eq_ok {first : InfoTree} {form : Form} (hform : tree .integers first = .ok form) :
    ∃ info ref forms, Shape.info.form .integers first.info = .ok info ∧
      Shape.kindedExcerpt.form .integers first.ref = .ok ref ∧ trees .integers first.children = .ok forms ∧
      form = .record [("info", info), ("ref", ref), ("children", .list forms)] ∧
      first.data = .obj [("info", Shape.info.data first.info), ("ref", Shape.kindedExcerpt.data first.ref),
        ("children", .arr (InfoTree.forestData first.children))] := by
  rw [Shape.form_info, Shape.form_kindedExcerpt]
  cases first with
  | other value => cases hform
  | node value ref children unlisted =>
      rw [tree] at hform
      obtain ⟨infoForm, hinfo, hform⟩ := bind_eq_ok.1 hform
      obtain ⟨refForm, href, hform⟩ := bind_eq_ok.1 hform
      cases unlisted with
      | some value => cases hform
      | none =>
          obtain ⟨forms, hforms, hform⟩ := bind_eq_ok.1 hform
          exact ⟨infoForm, refForm, forms, hinfo, href, hforms, (Except.ok.inj hform).symm, by rw [InfoTree.data]; rfl⟩

theorem trees_cons_eq_ok {first : InfoTree} {rest : List InfoTree} {forms : List Form}
    (hforms : trees .integers (first :: rest) = .ok forms) :
    ∃ form others, tree .integers first = .ok form ∧ trees .integers rest = .ok others ∧
      forms = form :: others := by
  rw [trees] at hforms
  obtain ⟨form, hform, hforms⟩ := bind_eq_ok.1 hforms
  obtain ⟨others, hothers, hforms⟩ := bind_eq_ok.1 hforms
  exact ⟨form, others, hform, hothers, (Except.ok.inj hforms).symm⟩

theorem trees_eq_ok {forest : List InfoTree} {forms : List Form} (hplain : forestEverywhere Reading.isPlain forest = true)
    (hforms : trees .integers forest = .ok forms) :
    (∀ form ∈ forms, form.IsPlain) ∧ forms.map Form.toValue = InfoTree.forestData forest := by
  induction forest using InfoTree.forestInduction generalizing forms with
  | nil =>
      cases hforms
      exact ⟨List.forall_mem_nil _, rfl⟩
  | cons first rest below others =>
      obtain ⟨⟨hinfoPlain, hrefPlain⟩, hbelow, hrest⟩ := forestEverywhere_cons.1 hplain
      obtain ⟨form, otherForms, hform, hothers, rfl⟩ := trees_cons_eq_ok hforms
      obtain ⟨hothersPlain, hothersData⟩ := others hrest hothers
      obtain ⟨infoForm, refForm, children, hinfo, href, hchildren, rfl, hdata⟩ := tree_eq_ok hform
      obtain ⟨hinfoForm, hinfoData⟩ := Shape.form_eq_ok hinfoPlain hinfo
      obtain ⟨hrefForm, hrefData⟩ := Shape.form_eq_ok hrefPlain href
      obtain ⟨hchildrenPlain, hchildrenData⟩ := below hbelow hchildren
      constructor
      · refine List.forall_mem_cons.2 ⟨Form.isPlain_record.2 ?_, hothersPlain⟩
        simp only [List.forall_mem_cons]
        exact ⟨hinfoForm, hrefForm, Form.isPlain_list.2 hchildrenPlain, List.forall_mem_nil _⟩
      · rw [List.map_cons, hothersData, InfoTree.forestData, hdata, Form.toValue, Form.partValues_eq_map]
        simp only [List.map_cons, List.map_nil, hinfoData, hrefData, Form.toValue, Form.itemValues_eq_map,
          hchildrenData]

end Flat

end ProofDump
