import Mathlib
import ProofDump.Proofs.Flat.Copy
import ProofDump.Proofs.Json.Bounds

/-!
# Flat copies that end early

All of a part of a copy is converted before its file is written. In a dump whose integers have numerals, as those of
every dump that was read from texts do (`Dump.isBounded_of_read`), and which has records only where they are expected,
whatever was converted can also be written on lines. So a copy that ends early ends between two files: those before
are complete, and the others are as they were before the copy.
-/

namespace ProofDump

/-! ### Values without records -/

namespace Value

mutual

/-- No record is in the value. -/
def isBare : Value → Bool
  | arr items => areBare items
  | obj _ => false
  | _ => true

def areBare : List Value → Bool
  | [] => true
  | item :: rest => item.isBare && areBare rest

end

theorem areBare_iff {items : List Value} : areBare items = true ↔ ∀ item ∈ items, item.isBare = true := by
  induction items with
  | nil => simp [areBare]
  | cons item rest ih => rw [areBare, Bool.and_eq_true, ih, List.forall_mem_cons]

theorem checkAllWritable_iff {items : List Value} :
    checkAllWritable items = .ok () ↔ ∀ item ∈ items, checkWritable item = .ok () := by
  induction items with
  | nil => exact ⟨fun _ => List.forall_mem_nil _, fun _ => rfl⟩
  | cons item rest ih => rw [checkAllWritable_cons, ih, List.forall_mem_cons]

namespace Bounded

theorem checkWritable {value : Value} (hbounded : value.Bounded) (hbare : value.isBare = true) :
    value.checkWritable = .ok () := by
  induction hbounded with
  | int hshort => rw [Value.checkWritable, if_pos hshort]
  | arr hitems ih =>
      rw [isBare, areBare_iff] at hbare
      rw [Value.checkWritable, checkAllWritable_iff]
      exact fun item hitem => ih item hitem (hbare item hitem)
  | obj hfields => cases hbare
  | _ => rfl

theorem inherited : Inherited Bounded where
  part := by
    intro value hbounded name
    cases hbounded with
    | @obj fields hfields =>
        show Bounded ((Fields.get? fields name).getD Value.null)
        cases hget : Fields.get? fields name with
        | none => exact .null
        | some part =>
            obtain ⟨before, after, rfl, -⟩ := List.lookup_eq_some_iff.1 hget
            exact hfields (name, part) (by simp)
    | _ => exact .null
  member := by
    intro value hbounded member hmember
    cases hbounded with
    | arr hitems => exact hitems member hmember
    | str s =>
        obtain ⟨c, -, rfl⟩ :=
          List.mem_map.1 (show member ∈ s.toList.map fun c => Value.str (String.ofList [c]) from hmember)
        exact .str _
    | _ => cases hmember

end Bounded

end Value

/-! ### Info trees of loaded values -/

namespace InfoTree

theorem info_ofValue (value : Value) : (ofValue value).info = value.part "info" := by
  cases value <;> rfl

theorem ref_ofValue (value : Value) : (ofValue value).ref = value.part "ref" := by
  cases value <;> rfl

theorem underFields_eq (fields : Fields) :
    (underFields fields).1 = ((Value.obj fields).part "children").members.map ofValue := by
  induction fields with
  | nil => rfl
  | cons field fields ih =>
      obtain ⟨name, value⟩ := field
      by_cases hname : name = "children"
      · have hpart : (Value.obj ((name, value) :: fields)).part "children" = value := by
          rw [Value.part, Fields.get?, List.lookup_cons, hname]
          rfl
        rw [hpart]
        cases value with
        | arr items =>
            rw [underFields, if_pos hname]
            exact Flat.forest_eq_ok (show forest (.arr items) = .ok (ofItems items) from rfl)
        | str s =>
            rw [underFields, if_pos hname]
            exact Flat.forest_eq_ok (show forest (.str s) = .ok (letters s) from rfl)
        | _ =>
            unfold underFields
            rw [if_pos hname]
            rfl
      · have hpart : (Value.obj ((name, value) :: fields)).part "children" = (Value.obj fields).part "children" := by
          rw [Value.part, Fields.get?, List.lookup_cons, beq_eq_false_iff_ne.2 (Ne.symm hname)]
          rfl
        unfold underFields
        rw [if_neg hname, hpart, ih]

theorem children_ofValue (value : Value) :
    (ofValue value).children = (value.part "children").members.map ofValue := by
  cases value with
  | obj fields => exact underFields_eq fields
  | _ => rfl

/-- What is kept in parts and members of values is so of the information and the reference of every node. -/
theorem forall_subtrees_of_inherited {kept : Value → Prop} (hkept : Value.Inherited kept) {values : List Value}
    (hvalues : ∀ value ∈ values, kept value) :
    ∀ tree ∈ subtrees (values.map ofValue), kept tree.info ∧ kept tree.ref := by
  generalize hforest : values.map ofValue = forest
  induction forest using forestInduction generalizing values with
  | nil => exact List.forall_mem_nil _
  | cons tree rest below others =>
      obtain ⟨value, values, rfl, rfl, rfl⟩ := List.map_eq_cons_iff.1 hforest
      obtain ⟨hvalue, hothers⟩ := List.forall_mem_cons.1 hvalues
      rw [subtrees_cons, List.forall_mem_cons, List.forall_mem_append, info_ofValue, ref_ofValue]
      refine ⟨⟨hkept.part hvalue _, hkept.part hvalue _⟩, ?_, others hothers rfl⟩
      exact below (hkept.member (hkept.part hvalue "children")) (children_ofValue value).symm

end InfoTree

namespace Dump

/-- The parts of the dump that are copied. -/
def copiedParts (dump : Dump) : List (Option Value) := [dump.info, dump.symbols, dump.declarations, dump.trees]

/-- All integers in the parts of the dump that are copied have numerals. -/
def IsBounded (dump : Dump) : Prop := ∀ part ∈ dump.copiedParts, ∀ value ∈ part, value.Bounded

theorem isBounded_of_read {dump : Dump}
    (hread : ∀ part ∈ dump.copiedParts, ∀ value ∈ part, ∃ text, Json.read text = .ok value) : dump.IsBounded := by
  intro part hpart value hvalue
  obtain ⟨text, htext⟩ := hread part hpart value hvalue
  exact Json.read_bounded htext

end Dump

namespace Flat

/-! ### Forms that can be written -/

/-- Whether no record is handed through. -/
def Reading.isBare : Reading → Value → Bool
  | handed, value => value.isBare
  | member _, value => value.members.all Value.isBare
  | fixed value, _ => value.checkWritable.isOk
  | _, _ => true

theorem exists_of_take {value offset : Value} (htake : Offsets.integers.take value = .ok offset) :
    ∃ n, value.toInteger = .ok n ∧ offset = .int n := by
  rw [Offsets.take] at htake
  cases hinteger : value.toInteger with
  | error fault =>
      rw [hinteger] at htake
      cases htake
  | ok n =>
      rw [hinteger] at htake
      exact ⟨n, rfl, (Except.ok.inj htake).symm⟩

theorem range_integers_eq_ok {value : Value} {form : Form} (hform : range .integers value = .ok form) :
    ∃ start stop m n, value = .arr [start, stop] ∧ start.toInteger = .ok m ∧ stop.toInteger = .ok n ∧
      form = .record [("start", .leaf (.int m)), ("stop", .leaf (.int n))] := by
  unfold range at hform
  split at hform
  · rename_i start stop
    obtain ⟨first, hfirst, hform⟩ := bind_eq_ok.1 hform
    obtain ⟨second, hsecond, hform⟩ := bind_eq_ok.1 hform
    obtain ⟨m, hm, rfl⟩ := exists_of_take hfirst
    obtain ⟨n, hn, rfl⟩ := exists_of_take hsecond
    exact ⟨start, stop, m, n, rfl, hm, hn, (Except.ok.inj hform).symm⟩
  · cases hform

theorem Reading.forall_writable {reading : Reading} {value : Value} {form : Form} (hbounded : value.Bounded)
    (hbare : reading.isBare value = true) (hform : reading.form .integers value = .ok form) :
    ∀ leaf ∈ form.leaves, leaf.checkWritable = .ok () := by
  cases reading with
  | handed =>
      cases hform
      exact List.forall_mem_singleton.2 (hbounded.checkWritable hbare)
  | reported =>
      cases hform
      exact List.forall_mem_singleton.2 rfl
  | dotted =>
      rw [ident_eq_ok hform]
      exact List.forall_mem_singleton.2 rfl
  | lettered =>
      rw [ident_eq_ok hform]
      exact List.forall_mem_singleton.2 rfl
  | span =>
      obtain ⟨start, stop, m, n, rfl, hstart, hstop, rfl⟩ := range_integers_eq_ok hform
      have hinteger {offset : Value} {n : Int} (hoffset : offset ∈ [start, stop])
          (hn : offset.toInteger = .ok n) : (Value.int n).checkWritable = .ok () := by
        have hoffset := Value.Bounded.inherited.member hbounded offset hoffset
        rw [Value.checkWritable, if_pos (hoffset.isShort_of_toInteger hn)]
      exact List.forall_mem_cons.2 ⟨hinteger (by simp) hstart, List.forall_mem_singleton.2 (hinteger (by simp) hstop)⟩
  | member place =>
      obtain ⟨member, hmember, rfl⟩ :=
        member_eq_ok (show (Reading.member place).form .loaded value = .ok form from hform)
      have hmem := Value.mem_of_place hmember
      refine List.forall_mem_singleton.2 ((Value.Bounded.inherited.member hbounded member hmem).checkWritable ?_)
      exact List.all_eq_true.1 hbare member hmem
  | fixed value =>
      cases hform
      refine List.forall_mem_singleton.2 ?_
      rw [isBare] at hbare
      cases hwritable : value.checkWritable with
      | ok done => rfl
      | error fault =>
          rw [hwritable] at hbare
          cases hbare

theorem Shape.forall_writable {shape : Shape} {value : Value} {form : Form} (hbounded : value.Bounded)
    (hbare : shape.everywhere Reading.isBare value = true) (hform : shape.form .integers value = .ok form) :
    ∀ leaf ∈ form.leaves, leaf.checkWritable = .ok () := by
  have hnull : Value.null.checkWritable = .ok () := rfl
  exact forall_leaves_of_form Value.Bounded.inherited hnull Reading.forall_writable hbounded hbare hform

theorem line_of_writable {form : Form} (hwritable : ∀ leaf ∈ form.leaves, leaf.checkWritable = .ok ()) :
    line form = .ok (Json.plainLine form.toValue) := by
  rw [line, Form.written, Value.checkAllWritable_iff.2 hwritable]
  rfl

/-- The forms on lines, one after the other. -/
def linesText (forms : List Form) : String :=
  String.join (forms.map fun form => Json.plainLine form.toValue ++ "\n")

theorem lines_of_writable {forms : List Form}
    (hwritable : ∀ form ∈ forms, ∀ leaf ∈ form.leaves, leaf.checkWritable = .ok ()) :
    Page.lines forms = ⟨linesText forms, none⟩ := by
  have hfrom (start : String) : Page.linesFrom start forms = ⟨start ++ linesText forms, none⟩ := by
    induction forms generalizing start with
    | nil => simp [Page.linesFrom, linesText]
    | cons form forms ih =>
        obtain ⟨hform, hforms⟩ := List.forall_mem_cons.1 hwritable
        simp only [Page.linesFrom, line_of_writable hform, ih hforms, linesText, List.map_cons, String.join_cons,
          String.append_assoc]
  rw [Page.lines, hfrom, String.empty_append]

/-! ### Info trees -/

theorem forall_leaves_of_trees {kept good : Value → Prop} {passes : Reading → Value → Bool}
    (hkept : Value.Inherited kept) (hnull : good .null)
    (hreading : ∀ {reading value form}, kept value → passes reading value = true →
      reading.form .integers value = .ok form → ∀ leaf ∈ form.leaves, good leaf)
    {forest : List InfoTree} {forms : List Form}
    (hforest : ∀ tree ∈ InfoTree.subtrees forest, kept tree.info ∧ kept tree.ref)
    (hpasses : forestEverywhere passes forest = true) (hforms : trees .integers forest = .ok forms) :
    ∀ form ∈ forms, ∀ leaf ∈ form.leaves, good leaf := by
  induction forest using InfoTree.forestInduction generalizing forms with
  | nil =>
      cases hforms
      exact List.forall_mem_nil _
  | cons first rest below others =>
      rw [InfoTree.subtrees_cons, List.forall_mem_cons, List.forall_mem_append] at hforest
      obtain ⟨⟨hinfoKept, hrefKept⟩, hbelowKept, hrestKept⟩ := hforest
      obtain ⟨⟨hinfoPasses, hrefPasses⟩, hbelowPasses, hrestPasses⟩ := forestEverywhere_cons.1 hpasses
      obtain ⟨form, otherForms, hform, hothers, rfl⟩ := trees_cons_eq_ok hforms
      obtain ⟨infoForm, refForm, children, hinfo, href, hchildren, rfl, -⟩ := tree_eq_ok hform
      refine List.forall_mem_cons.2 ⟨Form.forall_leaves_record.2 ?_, others hrestKept hrestPasses hothers⟩
      simp only [List.forall_mem_cons]
      exact ⟨Shape.forall_leaves_of_form hkept hnull hreading hinfoKept hinfoPasses hinfo,
        Shape.forall_leaves_of_form hkept hnull hreading hrefKept hrefPasses href,
        Form.forall_leaves_list.2 (below hbelowKept hbelowPasses hchildren), List.forall_mem_nil _⟩

theorem forall_writable_of_trees {value : Value} {forest : List InfoTree} {forms : List Form}
    (hbounded : value.Bounded) (hbare : forestEverywhere Reading.isBare (value.members.map InfoTree.ofValue) = true)
    (hforest : InfoTree.forest value = .ok forest) (hforms : trees .integers forest = .ok forms) :
    ∀ form ∈ forms, ∀ leaf ∈ form.leaves, leaf.checkWritable = .ok () := by
  have hnull : Value.null.checkWritable = .ok () := rfl
  rw [forest_eq_ok hforest] at hforms
  exact forall_leaves_of_trees Value.Bounded.inherited hnull Reading.forall_writable
    (InfoTree.forall_subtrees_of_inherited Value.Bounded.inherited (Value.Bounded.inherited.member hbounded))
    hbare hforms

/-! ### Stages of a copy -/

/-- A part of a copy with its complete text, if all of it can be converted. -/
abbrev Stage := String × Except Fault String

/-- The parts of a copy in their order. -/
def stages (dump : Dump) (info : Value) : List Stage :=
  [("module", (fun form => Json.plainLine form.toValue) <$> moduleInfo info),
   ("symbol", linesText <$> (members dump.symbols >>= List.mapM symbol)),
   ("decl", linesText <$> (members dump.declarations >>= List.mapM (declaration .integers))),
   ("elab", linesText <$> (InfoTree.forest (dump.trees.getD .null) >>= trees .integers))]

/-- The page with all of a stage. -/
def Stage.page (stage : Stage) : String × Except Fault Page := (stage.1, (⟨·, none⟩) <$> stage.2)

/-- Whether all leaves of the information, symbols, declarations and info trees of a dump are without records. -/
def hasBareLeaves (dump : Dump) : Bool :=
  dump.info.all (Shape.moduleInfo.everywhere Reading.isBare) &&
    (dump.symbols.getD .null).members.all (Shape.symbol.everywhere Reading.isBare) &&
    (dump.declarations.getD .null).members.all (Shape.declaration.everywhere Reading.isBare) &&
    forestEverywhere Reading.isBare ((dump.trees.getD .null).members.map InfoTree.ofValue)

theorem lines_eq_of_shape {shape : Shape} {part : Option Value} (hbounded : (part.getD .null).Bounded)
    (hbare : (part.getD .null).members.all (shape.everywhere Reading.isBare) = true) :
    (do return Page.lines (← (← members part).mapM (shape.form .integers))) =
      (⟨·, none⟩) <$> linesText <$> (members part >>= List.mapM (shape.form .integers)) := by
  cases hvalues : members part with
  | error fault => rfl
  | ok values =>
      rw [Value.members_eq hvalues, List.all_eq_true] at hbare
      have hmembers := Value.Bounded.inherited.member hbounded
      rw [Value.members_eq hvalues] at hmembers
      rw [ok_bind, ok_bind]
      cases hforms : values.mapM (shape.form .integers) with
      | error fault => rfl
      | ok forms =>
          have hwritable : ∀ form ∈ forms, ∀ leaf ∈ form.leaves, leaf.checkWritable = .ok () := by
            intro form hform
            obtain ⟨value, hvalue, hform⟩ := exists_of_mem_mapM hforms hform
            exact Shape.forall_writable (hmembers value hvalue) (hbare value hvalue) hform
          rw [ok_bind, lines_of_writable hwritable]
          rfl

theorem lines_eq_of_trees {part : Option Value} (hbounded : (part.getD .null).Bounded)
    (hbare : forestEverywhere Reading.isBare ((part.getD .null).members.map InfoTree.ofValue) = true) :
    (do return Page.lines (← trees .integers (← InfoTree.forest (part.getD .null)))) =
      (⟨·, none⟩) <$> linesText <$> (InfoTree.forest (part.getD .null) >>= trees .integers) := by
  cases hforest : InfoTree.forest (part.getD .null) with
  | error fault => rfl
  | ok forest =>
      rw [ok_bind, ok_bind]
      cases hforms : trees .integers forest with
      | error fault => rfl
      | ok forms =>
          rw [ok_bind, lines_of_writable (forall_writable_of_trees hbounded hbare hforest hforms)]
          rfl

theorem single_eq {info : Value} (hbounded : info.Bounded)
    (hbare : Shape.moduleInfo.everywhere Reading.isBare info = true) :
    Page.single <$> moduleInfo info =
      (⟨·, none⟩) <$> (fun form => Json.plainLine form.toValue) <$> moduleInfo info := by
  cases hform : moduleInfo info with
  | error fault => rfl
  | ok form =>
      rw [← Shape.form_moduleInfo .integers] at hform
      show Except.ok (Page.single form) = _
      rw [Page.single, line_of_writable (Shape.forall_writable hbounded hbare hform)]
      rfl

/-- The pages of a copy have all of their parts. -/
theorem pages_eq_stages {dump : Dump} (hbounded : dump.IsBounded) (hbare : hasBareLeaves dump = true) {info : Value}
    (hinfo : dump.info = some info) : pages dump info = (stages dump info).map Stage.page := by
  have hparts {part : Option Value} (hpart : part ∈ dump.copiedParts) : (part.getD .null).Bounded := by
    cases part with
    | none => exact .null
    | some value => exact hbounded _ hpart value rfl
  have hinfoBounded : info.Bounded := hbounded _ List.mem_cons_self info hinfo
  rw [hasBareLeaves, hinfo] at hbare
  simp only [Bool.and_eq_true] at hbare
  obtain ⟨⟨⟨hmodule, hsymbols⟩, hdeclarations⟩, htrees⟩ := hbare
  have hsymbolLines := lines_eq_of_shape (hparts (by simp [Dump.copiedParts])) hsymbols
  have hdeclarationLines := lines_eq_of_shape (hparts (by simp [Dump.copiedParts])) hdeclarations
  rw [Shape.form_symbol] at hsymbolLines
  rw [Shape.form_declaration] at hdeclarationLines
  have htreeLines := lines_eq_of_trees (hparts (by simp [Dump.copiedParts])) htrees
  simp only [pages, stages, List.map_cons, List.map_nil, Stage.page, single_eq hinfoBounded hmodule, hsymbolLines,
    hdeclarationLines, htreeLines]

/-! ### Written stages -/

/-- The place of the file that holds a part of the copy of a module. -/
def pageAt (tree : FileTree) (directory : String) (module : Value) (part : String) : Except Fault (List String) := do
  tree.locate (pagePath directory (← module.joinRaw ".") part)

theorem writePage_eq_ok_iff {tree next : FileTree} {directory part text : String} {module : Value} :
    writePage tree directory module part text = .ok next ↔ ∃ names, pageAt tree directory module part = .ok names ∧
      tree.isDirectoryAt names = false ∧ next = tree.put names text := by
  cases hname : module.joinRaw "." with
  | error fault =>
      rw [writePage, pageAt, hname]
      constructor
      · intro hwrite
        cases hwrite
      · rintro ⟨names, hnames, -⟩
        cases hnames
  | ok name => rw [writePage_eq hname, FileTree.write_eq_ok_iff, pageAt, hname, ok_bind]

theorem pageAt_ne {tree : FileTree} {directory part other : String} {module : Value} (hapart : Apart part other)
    {names : List String} (hnames : pageAt tree directory module part = .ok names) :
    pageAt tree directory module other ≠ .ok names := by
  obtain ⟨name, hname, hlocate⟩ := bind_eq_ok.1 hnames
  rw [pageAt, hname, ok_bind]
  exact locate_pagePath_ne hapart hlocate

theorem pageAt_put {tree : FileTree} {directory part text : String} {module : Value} {there names : List String}
    (hnames : pageAt tree directory module part = .ok names) :
    pageAt (tree.put there text) directory module part = .ok names := by
  obtain ⟨name, hname, hlocate⟩ := bind_eq_ok.1 hnames
  rw [pageAt, hname, ok_bind]
  exact FileTree.locate_put hlocate

/-- The stages are written to the tree one after the other, each completely. -/
inductive Writes (directory : String) (module : Value) : FileTree → List Stage → FileTree → Prop
  | nil (tree : FileTree) : Writes directory module tree [] tree
  | cons {tree next after : FileTree} {part text : String} {rest : List Stage}
      (hwrite : writePage tree directory module part text = .ok next)
      (hrest : Writes directory module next rest after) :
      Writes directory module tree ((part, .ok text) :: rest) after

/-- The stage cannot be converted, or its file cannot be written. -/
def FailsWith (tree : FileTree) (directory : String) (module : Value) (stage : Stage) (fault : Fault) : Prop :=
  stage.2 = .error fault ∨ ∃ text, stage.2 = .ok text ∧ writePage tree directory module stage.1 text = .error fault

namespace Writes

variable {directory : String} {module : Value} {tree after : FileTree} {done : List Stage}

theorem pageAt_eq_ok (hwrites : Writes directory module tree done after) {part : String} {names : List String}
    (hnames : pageAt tree directory module part = .ok names) : pageAt after directory module part = .ok names := by
  induction hwrites with
  | nil tree => exact hnames
  | cons hwrite hrest ih =>
      obtain ⟨there, -, -, rfl⟩ := writePage_eq_ok_iff.1 hwrite
      exact ih (pageAt_put hnames)

/-- Files at other places stay as they are. -/
theorem lookup_eq (hwrites : Writes directory module tree done after) {names : List String}
    (hother : ∀ stage ∈ done, pageAt after directory module stage.1 ≠ .ok names) :
    after.files.lookup names = tree.files.lookup names := by
  induction hwrites with
  | nil tree => rfl
  | cons hwrite hrest ih =>
      obtain ⟨hfirst, hothers⟩ := List.forall_mem_cons.1 hother
      obtain ⟨there, hthere, -, rfl⟩ := writePage_eq_ok_iff.1 hwrite
      rw [ih hothers]
      apply FileTree.lookup_put_of_ne
      rintro rfl
      exact hfirst (hrest.pageAt_eq_ok (pageAt_put hthere))

/-- The file of every stage holds all of its text in the end. -/
theorem lookup_eq_some (hwrites : Writes directory module tree done after)
    (hapart : (done.map Prod.fst).Pairwise Apart) :
    ∀ stage ∈ done, ∃ text names, stage.2 = .ok text ∧ pageAt after directory module stage.1 = .ok names ∧
      after.files.lookup names = some (.ofText text) := by
  induction hwrites with
  | nil tree => exact List.forall_mem_nil _
  | @cons tree next after part text rest hwrite hrest ih =>
      rw [List.map_cons, List.pairwise_cons, List.forall_mem_map] at hapart
      obtain ⟨there, hthere, -, rfl⟩ := writePage_eq_ok_iff.1 hwrite
      have hplace := hrest.pageAt_eq_ok (pageAt_put hthere)
      refine List.forall_mem_cons.2 ⟨⟨text, there, rfl, hplace, ?_⟩, ih hapart.2⟩
      rw [hrest.lookup_eq fun stage hstage => pageAt_ne (hapart.1 stage hstage) hplace, FileTree.lookup_put]

end Writes

/-- Stages are written up to the first that fails. -/
theorem exists_writes (directory : String) (module : Value) (tree : FileTree) (all : List Stage) :
    ∃ done rest after, all = done ++ rest ∧ Writes directory module tree done after ∧
      (rest = [] ∧ writePages directory module tree (all.map Stage.page) = (after, none) ∨
        ∃ stage others fault, rest = stage :: others ∧ FailsWith after directory module stage fault ∧
          writePages directory module tree (all.map Stage.page) = (after, some fault)) := by
  induction all generalizing tree with
  | nil => exact ⟨[], [], tree, rfl, .nil tree, .inl ⟨rfl, rfl⟩⟩
  | cons stage all ih =>
      obtain ⟨part, converted⟩ := stage
      cases converted with
      | error fault => exact ⟨[], _, tree, rfl, .nil tree, .inr ⟨_, _, fault, rfl, .inl rfl, rfl⟩⟩
      | ok text =>
          have hpage : Stage.page (part, .ok text) = (part, .ok ⟨text, none⟩) := rfl
          rw [List.map_cons, hpage, writePages]
          cases hwrite : writePage tree directory module part text with
          | error fault => exact ⟨[], _, tree, rfl, .nil tree, .inr ⟨_, _, fault, rfl, .inr ⟨text, rfl, hwrite⟩, rfl⟩⟩
          | ok next =>
              obtain ⟨done, rest, after, rfl, hwrites, hend⟩ := ih next
              exact ⟨_, rest, after, rfl, .cons hwrite hwrites, hend⟩

/-- The copy of a module never fails as a whole. If the dump has module information, the files of a beginning of the
four parts are complete, no file of the other parts and no file elsewhere is changed, and there is a report exactly if
there are other parts, about a fault of the first of them. -/
theorem copy_ends_between_parts {dumps : Dumps} {module : Value} {dump : Dump} (hdump : dumps.get module = .ok dump)
    (hbounded : dump.IsBounded) (hbare : hasBareLeaves dump = true) (tree : FileTree) (directory : String) :
    ∃ after report, copyModule dumps tree directory module = .ok (after, report) ∧
      (dump.info = none → after = tree ∧ report = "") ∧
      ∀ info, dump.info = some info → ∃ done rest, stages dump info = done ++ rest ∧
        (∀ stage ∈ done, ∃ text names, stage.2 = .ok text ∧ pageAt after directory module stage.1 = .ok names ∧
          after.files.lookup names = some (.ofText text)) ∧
        (∀ stage ∈ rest, ∀ names, pageAt after directory module stage.1 = .ok names →
          after.files.lookup names = tree.files.lookup names) ∧
        (∀ names, (∀ stage ∈ stages dump info, pageAt after directory module stage.1 ≠ .ok names) →
          after.files.lookup names = tree.files.lookup names) ∧
        (report = "" ↔ rest = []) ∧
        ∀ stage others, rest = stage :: others →
          ∃ fault, FailsWith after directory module stage fault ∧ report = failureReport module fault := by
  cases hinfo : dump.info with
  | none =>
      refine ⟨tree, "", ?_, fun _ => ⟨rfl, rfl⟩, fun info hsome => by cases hsome⟩
      rw [copyModule, hdump, ok_bind, hinfo]
      rfl
  | some info =>
      obtain ⟨done, rest, after, hstages, hwrites, hend⟩ := exists_writes directory module tree (stages dump info)
      rw [← pages_eq_stages hbounded hbare hinfo] at hend
      have hapart : ((stages dump info).map Prod.fst).Pairwise Apart := by
        show ["module", "symbol", "decl", "elab"].Pairwise Apart
        decide
      rw [hstages, List.map_append, List.pairwise_append] at hapart
      have hothers : ∀ stage ∈ rest, ∀ names, pageAt after directory module stage.1 = .ok names →
          after.files.lookup names = tree.files.lookup names := by
        intro stage hstage names hnames
        refine hwrites.lookup_eq fun first hfirst hsame => ?_
        exact pageAt_ne (hapart.2.2 _ (List.mem_map_of_mem hfirst) _ (List.mem_map_of_mem hstage)) hsame hnames
      have helsewhere : ∀ names, (∀ stage ∈ stages dump info, pageAt after directory module stage.1 ≠ .ok names) →
          after.files.lookup names = tree.files.lookup names := by
        intro names hnames
        refine hwrites.lookup_eq fun stage hstage => hnames stage ?_
        rw [hstages]
        exact List.mem_append_left _ hstage
      have hcopy {fault : Option Fault}
          (hpages : writePages directory module tree (pages dump info) = (after, fault)) :
          copyModule dumps tree directory module = .ok (after, fault.elim "" (failureReport module)) := by
        rw [copyModule, hdump, ok_bind, hinfo]
        simp only [hpages]
        cases fault <;> rfl
      rcases hend with ⟨rfl, hpages⟩ | ⟨stage, others, fault, rfl, hfails, hpages⟩
      · refine ⟨after, "", hcopy hpages, (fun hnone => by cases hnone), ?_⟩
        rintro _ ⟨⟩
        exact ⟨done, [], hstages, hwrites.lookup_eq_some hapart.1, hothers, helsewhere, by simp,
          fun stage others hrest => by cases hrest⟩
      · refine ⟨after, _, hcopy hpages, (fun hnone => by cases hnone), ?_⟩
        rintro _ ⟨⟩
        refine ⟨done, _, hstages, hwrites.lookup_eq_some hapart.1, hothers, helsewhere, ?_, ?_⟩
        · exact ⟨fun hempty => absurd hempty (failureReport_ne module fault), fun hrest => by cases hrest⟩
        · rintro _ _ ⟨⟩
          exact ⟨fault, hfails, rfl⟩

def unplacedInfo : Value := .obj [("docstring", .str "d"), ("imports", .arr [.texts ["Init"]])]

/-- A dump whose only declaration has no place in the source. -/
def unplacedDump : Dump where
  info := some unplacedInfo
  symbols := some (.arr [])
  declarations := some (.arr [.obj [("kind", .str "theorem"), ("name", .texts ["a"])]])
  trees := some (.arr [])

theorem unplacedDump_isBounded : unplacedDump.IsBounded := by
  have hinfo : Json.read "\x7b\"docstring\":\"d\",\"imports\":[[\"Init\"]]\x7d" = .ok unplacedInfo := by cbv
  have hempty : Json.read "[]" = .ok (.arr []) := by cbv
  have hdeclarations : Json.read "[\x7b\"kind\":\"theorem\",\"name\":[\"a\"]\x7d]" =
      .ok (.arr [.obj [("kind", .str "theorem"), ("name", .texts ["a"])]]) := by cbv
  apply Dump.isBounded_of_read
  simp only [Dump.copiedParts, unplacedDump, List.forall_mem_cons]
  refine ⟨?_, ?_, ?_, ?_, List.forall_mem_nil _⟩
  · rintro _ ⟨⟩
    exact ⟨_, hinfo⟩
  · rintro _ ⟨⟩
    exact ⟨_, hempty⟩
  · rintro _ ⟨⟩
    exact ⟨_, hdeclarations⟩
  · rintro _ ⟨⟩
    exact ⟨_, hempty⟩

theorem unplacedDump_ends_copy :
    unplacedDump.IsBounded ∧ hasBareLeaves unplacedDump = true ∧
      ∃ after report, copyModule [("A.B", unplacedDump)] emptyOut "out" (.texts ["A", "B"]) = .ok (after, report) ∧
        report ≠ "" ∧ ∃ done rest, stages unplacedDump unplacedInfo = done ++ rest ∧ rest ≠ [] ∧
          ∀ stage ∈ done, ∃ text names, stage.2 = .ok text ∧
            pageAt after "out" (.texts ["A", "B"]) stage.1 = .ok names ∧
              after.files.lookup names = some (.ofText text) := by
  refine ⟨unplacedDump_isBounded, rfl, ?_⟩
  obtain ⟨after, report, hcopy, -, hsome⟩ :=
    copy_ends_between_parts (show Dumps.get [("A.B", unplacedDump)] (.texts ["A", "B"]) = .ok unplacedDump from rfl)
      unplacedDump_isBounded rfl emptyOut "out"
  obtain ⟨done, rest, hstages, hfiles, -, -, hreport, -⟩ := hsome unplacedInfo rfl
  have hdeclarations : ("decl", .error (.noAttribute "NoneType" "original")) ∈ stages unplacedDump unplacedInfo :=
    .tail _ (.tail _ (.head _))
  have hrest : rest ≠ [] := by
    rintro rfl
    rw [hstages, List.append_nil] at hdeclarations
    obtain ⟨text, -, htext, -⟩ := hfiles _ hdeclarations
    cases htext
  exact ⟨after, report, hcopy, hreport.not.2 hrest, done, rest, hstages, hrest, hfiles⟩

end Flat

end ProofDump
