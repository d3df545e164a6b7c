import ProofDump.Proofs.FileTree.Write
import ProofDump.Proofs.Flat.Lines

/-!
# Flat copies read back

If the copy of a module is written without a report, each of its files is there in the end as it was written, and
the lines of the files of symbols, declarations and info trees read back as the data of what was loaded, one line
for each, in order.
-/

namespace ProofDump.Flat

/-- The lines of a text read back as values, one line for each. -/
def ReadsAs (text : String) (values : List Value) : Prop :=
  List.Forall₂ (fun line value => Json.read (String.ofList line) = .ok value.held) (Text.lines text.toList) values

/-! ### Pages -/

theorem linesFrom_eq_of_fault {start : String} {forms : List Form} (hfault : (Page.linesFrom start forms).fault = none) :
    ∃ lines, forms.mapM line = .ok lines ∧
      (Page.linesFrom start forms).text.toList = start.toList ++ (lines.map String.toList).flatMap (· ++ ['\n']) := by
  induction forms generalizing start with
  | nil => exact ⟨[], rfl, (List.append_nil _).symm⟩
  | cons form forms ih =>
      cases hline : line form with
      | error fault =>
          simp only [Page.linesFrom, hline] at hfault
          cases hfault
      | ok text =>
          simp only [Page.linesFrom, hline] at hfault ⊢
          obtain ⟨lines, hlines, htext⟩ := ih hfault
          refine ⟨text :: lines, ?_, ?_⟩
          · rw [List.mapM_cons, hline, hlines]
            rfl
          · rw [htext]
            simp

theorem lines_readsAs {forms : List Form} (hplain : ∀ form ∈ forms, form.IsPlain)
    (hfault : (Page.lines forms).fault = none) : ReadsAs (Page.lines forms).text (forms.map Form.toValue) := by
  obtain ⟨lines, hlines, htext⟩ := linesFrom_eq_of_fault hfault
  have hwritten : lines.map String.toList = forms.map fun form => Json.write .plain form.toValue := by
    apply map_of_mapM hlines
    intro form hform text hline
    rw [(line_eq_ok (hplain form hform) hline).1, Json.plainLine, String.toList_ofList]
  have hparts : ∀ part ∈ forms.map fun form => Json.write .plain form.toValue, '\n' ∉ part :=
    List.forall_mem_map.2 fun form _ => Json.newline_notMem_write .plain form.toValue
  have hcut : Text.lines (Page.lines forms).text.toList =
      forms.map fun form => Json.write .plain form.toValue ++ ['\n'] := by
    rw [Page.lines, htext, String.toList_empty, List.nil_append, hwritten, Text.lines_flatMap hparts, List.map_map]
    rfl
  rw [ReadsAs, hcut, List.forall₂_map_left_iff, List.forall₂_map_right_iff, List.forall₂_same]
  intro form hform
  obtain ⟨text, hline⟩ := exists_ok_of_mapM hlines form hform
  apply Json.read_write_append .plain (line_eq_ok (hplain form hform) hline).2
  exact List.forall_mem_singleton.2 rfl

/-! ### Files -/

/-- What the path of a file ends with that holds a part of a copy. -/
def pageTail (part : String) : List Char := ("." ++ part ++ ".json").toList

/-- The path of the file that holds a part of the copy of a module. -/
def pagePath (directory name part : String) : String := joinPathText directory (name ++ "." ++ part ++ ".json")

theorem exists_pagePath_eq (directory name part : String) :
    ∃ front, pagePath directory name part = String.ofList (front ++ pageTail part) := by
  have hends : ∃ front, pagePath directory name part = front ++ ("." ++ part ++ ".json") := by
    rw [pagePath, joinPathText]
    split
    · exact ⟨name, by simp only [String.append_assoc]⟩
    · split
      · exact ⟨directory ++ name, by simp only [String.append_assoc]⟩
      · exact ⟨directory ++ "/" ++ name, by simp only [String.append_assoc]⟩
  obtain ⟨front, hfront⟩ := hends
  exact ⟨front.toList, by rw [hfront, pageTail, ← String.toList_append, String.ofList_toList]⟩

/-- The files of two parts can never be the same. -/
def Apart (part other : String) : Prop :=
  '/' ∉ part.toList ∧ '/' ∉ other.toList ∧ ¬ pageTail part <:+ pageTail other ∧ ¬ pageTail other <:+ pageTail part

instance (part other : String) : Decidable (Apart part other) := by
  unfold Apart
  infer_instance

theorem exists_last_of_locate_pagePath {tree : FileTree} {directory name part : String} (hpart : '/' ∉ part.toList)
    {there : List String} (hlocate : tree.locate (pagePath directory name part) = .ok there) :
    ∃ last, there.getLast? = some last ∧ pageTail part <:+ last.toList := by
  obtain ⟨front, hfront⟩ := exists_pagePath_eq directory name part
  rw [hfront] at hlocate
  apply FileTree.getLast?_of_locate _ _ hlocate
  · simp [pageTail, hpart]
  · simp [pageTail]

theorem locate_pagePath_ne {tree : FileTree} {directory name part other : String} (hapart : Apart part other)
    {there : List String} (hlocate : tree.locate (pagePath directory name part) = .ok there) :
    tree.locate (pagePath directory name other) ≠ .ok there := by
  intro hother
  obtain ⟨hpartSlash, hotherSlash, hpart, hotherPart⟩ := hapart
  obtain ⟨last, hlast, htail⟩ := exists_last_of_locate_pagePath hpartSlash hlocate
  obtain ⟨same, hsame, hotherTail⟩ := exists_last_of_locate_pagePath hotherSlash hother
  rw [hlast] at hsame
  cases hsame
  rcases List.suffix_or_suffix_of_suffix htail hotherTail with hsuffix | hsuffix
  · exact hpart hsuffix
  · exact hotherPart hsuffix

theorem exists_name_of_writePages {directory : String} {module : Value} {tree after : FileTree}
    {page : String × Except Fault Page} {pages : List (String × Except Fault Page)}
    (hpages : writePages directory module tree (page :: pages) = (after, none)) :
    ∃ name, module.joinRaw "." = .ok name := by
  obtain ⟨part, page⟩ := page
  cases page with
  | error fault => cases hpages
  | ok page =>
      cases hname : module.joinRaw "." with
      | ok name => exact ⟨name, rfl⟩
      | error fault =>
          have hwrite : writePage tree directory module part page.text = .error fault := by
            rw [writePage, hname]
            rfl
          rw [writePages, hwrite] at hpages
          cases hpages

section Pages

variable {directory name : String} {module : Value} {tree after : FileTree}
  {pages : List (String × Except Fault Page)} (hname : module.joinRaw "." = .ok name)

include hname

theorem writePage_eq (part text : String) :
    writePage tree directory module part text = tree.write (pagePath directory name part) text := by
  rw [writePage, hname]
  rfl

/-- A step of the copy, if it goes on to the end. -/
theorem writePages_cons {part : String} {page : Except Fault Page}
    (hpages : writePages directory module tree ((part, page) :: pages) = (after, none)) :
    ∃ text written, page = .ok ⟨text, none⟩ ∧ tree.write (pagePath directory name part) text = .ok written ∧
      writePages directory module written pages = (after, none) := by
  cases page with
  | error fault => cases hpages
  | ok page =>
      rw [writePages, writePage_eq hname] at hpages
      split at hpages
      · cases hpages
      · rename_i written hwritten
        obtain ⟨text, fault⟩ := page
        cases fault with
        | some fault => cases hpages
        | none => exact ⟨text, written, rfl, hwritten, hpages⟩

/-- The files of other parts stay as they are. -/
theorem read_of_writePages_other {other kept : String} (hapart : ∀ page ∈ pages, Apart page.1 other)
    (hread : tree.read (pagePath directory name other) = .ok kept)
    (hpages : writePages directory module tree pages = (after, none)) :
    after.read (pagePath directory name other) = .ok kept := by
  induction pages generalizing tree with
  | nil =>
      cases hpages
      exact hread
  | cons page pages ih =>
      obtain ⟨hfirst, hrest⟩ := List.forall_mem_cons.1 hapart
      obtain ⟨text, written, -, hwrite, hpages⟩ := writePages_cons hname hpages
      apply ih hrest _ hpages
      exact FileTree.read_of_write_other hwrite hread fun names hnames => locate_pagePath_ne hfirst hnames

/-- In the end the files of all parts are there. -/
theorem read_of_writePages (hapart : (pages.map Prod.fst).Pairwise fun part other => Apart other part)
    (hpages : writePages directory module tree pages = (after, none)) :
    ∀ page ∈ pages, ∃ text, page.2 = .ok ⟨text, none⟩ ∧ after.read (pagePath directory name page.1) = .ok text := by
  induction pages generalizing tree with
  | nil => exact List.forall_mem_nil _
  | cons page pages ih =>
      obtain ⟨hfirst, hrest⟩ := List.pairwise_cons.1 hapart
      rw [List.forall_mem_map] at hfirst
      obtain ⟨text, written, htext, hwrite, hpages⟩ := writePages_cons hname hpages
      refine List.forall_mem_cons.2 ⟨⟨text, htext, ?_⟩, ih hrest hpages⟩
      exact read_of_writePages_other hname hfirst (FileTree.read_of_write hwrite) hpages

end Pages

/-! ### What the files hold -/

theorem forest_eq_ok {value : Value} {forest : List InfoTree} (hforest : InfoTree.forest value = .ok forest) :
    forest = value.members.map InfoTree.ofValue := by
  cases value with
  | arr items =>
      have hitems (items : List Value) : InfoTree.ofItems items = items.map InfoTree.ofValue := by
        induction items with
        | nil => rw [InfoTree.ofItems, List.map_nil]
        | cons item items ih => rw [InfoTree.ofItems, ih, List.map_cons]
      cases hforest
      exact hitems items
  | str s =>
      cases hforest
      have hletter (c : Char) : InfoTree.ofValue (.str (String.ofList [c])) = .other (.str (String.ofList [c])) := by
        rw [InfoTree.ofValue]
        exact fun _ heq => by cases heq
      show s.toList.map _ = (s.toList.map _).map _
      rw [List.map_map]
      exact List.map_congr_left fun c _ => (hletter c).symm
  | _ => cases hforest

theorem forestData_eq_map (forest : List InfoTree) : InfoTree.forestData forest = forest.map InfoTree.data := by
  induction forest with
  | nil => rw [InfoTree.forestData, List.map_nil]
  | cons tree rest ih => rw [InfoTree.forestData, ih, List.map_cons]

theorem page_readsAs {shape : Shape} {part : Option Value} {text : String}
    (hplain : ∀ value ∈ (part.getD .null).members, shape.everywhere Reading.isPlain value = true)
    (hpage : (do return Page.lines (← (← members part).mapM (shape.form .integers))) = Except.ok (⟨text, none⟩ : Page)) :
    ReadsAs text ((part.getD .null).members.map shape.data) := by
  obtain ⟨values, hvalues, hpage⟩ := bind_eq_ok.1 hpage
  obtain ⟨forms, hforms, hpage⟩ := bind_eq_ok.1 hpage
  have hpage : Page.lines forms = ⟨text, none⟩ := Except.ok.inj hpage
  rw [Value.members_eq hvalues] at hplain ⊢
  have hdata : forms.map Form.toValue = values.map shape.data :=
    map_of_mapM hforms fun value hvalue form hform => (Shape.form_eq_ok (hplain value hvalue) hform).2
  have hformsPlain : ∀ form ∈ forms, form.IsPlain := by
    intro form hform
    obtain ⟨value, hvalue, hform⟩ := exists_of_mem_mapM hforms hform
    exact (Shape.form_eq_ok (hplain value hvalue) hform).1
  have hreads := lines_readsAs hformsPlain (by rw [hpage])
  rwa [hpage, hdata] at hreads

theorem treePage_readsAs {part : Option Value} {text : String}
    (hplain : forestEverywhere Reading.isPlain ((part.getD .null).members.map InfoTree.ofValue) = true)
    (hpage : (do return Page.lines (← trees .integers (← InfoTree.forest (part.getD .null)))) =
      Except.ok (⟨text, none⟩ : Page)) :
    ReadsAs text ((part.getD .null).members.map fun tree => (InfoTree.ofValue tree).data) := by
  obtain ⟨forest, hforest, hpage⟩ := bind_eq_ok.1 hpage
  obtain ⟨forms, hforms, hpage⟩ := bind_eq_ok.1 hpage
  have hpage : Page.lines forms = ⟨text, none⟩ := Except.ok.inj hpage
  rw [← forest_eq_ok hforest] at hplain
  obtain ⟨hformsPlain, hdata⟩ := trees_eq_ok hplain hforms
  have hreads := lines_readsAs hformsPlain (by rw [hpage])
  rw [hpage, hdata, forestData_eq_map, forest_eq_ok hforest, List.map_map] at hreads
  exact hreads

/-- Whether all leaves of the symbols, declarations and info trees of a dump are null, truth values, integers,
texts or lists of such, and the offsets of their ranges integers. -/
def hasPlainLeaves (dump : Dump) : Bool :=
  (dump.symbols.getD .null).members.all (Shape.symbol.everywhere Reading.isPlain) &&
    (dump.declarations.getD .null).members.all (Shape.declaration.everywhere Reading.isPlain) &&
    forestEverywhere Reading.isPlain ((dump.trees.getD .null).members.map InfoTree.ofValue)

/-- The file of a part of a copy reads back as values, one line for each. -/
def FileReadsAs (tree : FileTree) (directory name part : String) (values : List Value) : Prop :=
  ∃ text, tree.read (pagePath directory name part) = .ok text ∧ ReadsAs text values

theorem failureReport_ne (module : Value) (fault : Fault) : failureReport module fault ≠ "" := by
  unfold failureReport
  intro hempty
  obtain ⟨-, hend⟩ := String.append_eq_empty_iff.1 hempty
  exact absurd hend (by decide)

/-- After a copy without a report, the files of the symbols, declarations and info trees read back line by line as the
data of the members of these parts, in their order, if all leaves are plain. Without module information nothing is
written. -/
theorem copied_files_read_back {dumps : Dumps} {tree after : FileTree} {directory : String} {module : Value}
    {dump : Dump} (hdump : dumps.get module = .ok dump) (hplain : hasPlainLeaves dump = true)
    (hcopy : copyModule dumps tree directory module = .ok (after, "")) :
    dump.info = none ∧ after = tree ∨
      ∃ name, module.joinRaw "." = .ok name ∧
        FileReadsAs after directory name "symbol" ((dump.symbols.getD .null).members.map Shape.symbol.data) ∧
        FileReadsAs after directory name "decl" ((dump.declarations.getD .null).members.map Shape.declaration.data) ∧
        FileReadsAs after directory name "elab"
          ((dump.trees.getD .null).members.map fun tree => (InfoTree.ofValue tree).data) := by
  rw [copyModule, hdump, ok_bind] at hcopy
  cases hinfo : dump.info with
  | none =>
      rw [hinfo] at hcopy
      cases hcopy
      exact .inl ⟨rfl, rfl⟩
  | some info =>
      rw [hinfo] at hcopy
      obtain ⟨hplain, htrees⟩ := Bool.and_eq_true_iff.1 hplain
      obtain ⟨hsymbols, hdeclarations⟩ := Bool.and_eq_true_iff.1 hplain
      rw [List.all_eq_true] at hsymbols hdeclarations
      have hpages : writePages directory module tree (pages dump info) = (after, none) := by
        dsimp only at hcopy
        split at hcopy
        · rename_i hpages
          cases hcopy
          exact hpages
        · rename_i fault _
          exact absurd (Prod.mk.inj (Except.ok.inj hcopy)).2 (failureReport_ne module fault)
      obtain ⟨name, hname⟩ := exists_name_of_writePages hpages
      have hapart : ((pages dump info).map Prod.fst).Pairwise fun part other => Apart other part := by
        show ["module", "symbol", "decl", "elab"].Pairwise fun part other => Apart other part
        decide
      have hfiles := read_of_writePages hname hapart hpages
      simp only [pages, List.forall_mem_cons] at hfiles
      obtain ⟨-, ⟨symbols, hsymbolPage, hsymbolFile⟩, ⟨declarations, hdeclarationPage, hdeclarationFile⟩,
        ⟨elaborated, htreePage, htreeFile⟩, -⟩ := hfiles
      rw [← Shape.form_symbol .integers] at hsymbolPage
      rw [← Shape.form_declaration] at hdeclarationPage
      exact .inr ⟨name, hname, ⟨symbols, hsymbolFile, page_readsAs hsymbols hsymbolPage⟩,
        ⟨declarations, hdeclarationFile, page_readsAs hdeclarations hdeclarationPage⟩,
        ⟨elaborated, htreeFile, treePage_readsAs htrees htreePage⟩⟩

/-- A dump with a symbol, a declaration and an info tree, whose texts have letters from inside and outside the
basic plane, a quote, a backslash and control characters in them. -/
def lettersDump : Dump where
  info := some (.obj [("docstring", .null), ("imports", .arr [.texts ["Init"]])])
  symbols := some (.arr [.obj [("kind", .str "theorem"), ("name", .texts ["A", "𝔸"]), ("type_full", .str "\"\\\n\x01é"),
    ("type_references", .arr [.texts ["Nat", "le"]]), ("is_prop", .bool true)]])
  declarations :=
    let excerpt : Value := .obj [("original", .bool true), ("range", .arr [.int 0, .int 40]), ("pp", .str "∀ 𝔸")]
    some (.arr [.obj [("kind", .str "theorem"), ("ref", excerpt), ("name", .texts ["A", "𝔸"]), ("signature", excerpt),
      ("modifiers", .obj [("docstring", .arr [.str "😀", .bool true])]), ("params", .arr []), ("value", excerpt)]])
  trees := some (.arr [expandedTactic [expandedTactic []], expandedTactic []])

/-- A tree with an empty directory. -/
def emptyOut : FileTree := ⟨["work"], [], [["work", "out"]]⟩

theorem lettersDump_reads_back :
    hasPlainLeaves lettersDump = true ∧
      ∃ after, copyModule [("A.B", lettersDump)] emptyOut "out" (.texts ["A", "B"]) = .ok (after, "") ∧
        (lettersDump.info = none ∧ after = emptyOut ∨
          ∃ name, (Value.texts ["A", "B"]).joinRaw "." = .ok name ∧
            FileReadsAs after "out" name "symbol" ((lettersDump.symbols.getD .null).members.map Shape.symbol.data) ∧
            FileReadsAs after "out" name "decl"
              ((lettersDump.declarations.getD .null).members.map Shape.declaration.data) ∧
            FileReadsAs after "out" name "elab"
              ((lettersDump.trees.getD .null).members.map fun tree => (InfoTree.ofValue tree).data)) := by
  have hreport : (copyModule [("A.B", lettersDump)] emptyOut "out" (.texts ["A", "B"])).toOption.map Prod.snd =
      some "" := by
    decide +kernel
  refine ⟨rfl, ?_⟩
  cases hcopy : copyModule [("A.B", lettersDump)] emptyOut "out" (.texts ["A", "B"]) with
  | error fault =>
      rw [hcopy] at hreport
      cases hreport
  | ok result =>
      rw [hcopy] at hreport
      obtain ⟨after, report⟩ := result
      cases hreport
      exact ⟨after, rfl, copied_files_read_back rfl rfl hcopy⟩

end ProofDump.Flat
