import ProofDump.Proofs.FileTree.Spelling
import ProofDump.Proofs.FileTree.Write
import ProofDump.Proofs.Name
import ProofDump.Proofs.Text.Template

/-!
# Modules that are not finished

The files of a module are spelled in two ways: the search for modules that are not finished puts their names below
the path of the directory of analyses, and an analysis fills a template that begins with the text of that path. A
name that starts with a slash leads elsewhere in the first way. All others lead to one place in both, so the search
leaves out exactly the modules that an analysis would skip. It looks for files up to the first that is missing and an
analysis for all of them, so a path that is too long can stop an analysis of a module that the search lists.

In a tree that grows no finished module gets unfinished.
-/

namespace ProofDump.Project

open FileTree

/-! ### The two spellings -/

/-- The name of the file that a plugin writes about a module that is named so. -/
def infoName (name : String) (plugin : Plugin) : String := name ++ "." ++ plugin.shortName ++ ".json"

/-- Where the search looks for the file of a plugin. -/
def infoPath (project : Project) (name : String) (plugin : Plugin) : Path :=
  project.output.join (.ofText (infoName name plugin))

/-- Where an analysis writes the file of a plugin. -/
def spelledPath (project : Project) (name : String) (plugin : Plugin) : Path :=
  .ofText (project.output.text ++ "/" ++ infoName name plugin)

/-- The written name of a module leads below the directory of analyses. Below the root itself the two paths of a file
differ by a slash, so there both have to be short enough to be asked about. -/
structure IsPlaced (project : Project) (tree : FileTree) (module : Value) (name : String) : Prop where
  written : Name.written module = .ok name
  below : name.toList.head? ≠ some '/'
  asked : project.output.IsRoot → ∀ plugin, (∃ answer, tree.exists? (project.infoPath name plugin) = .ok answer) ∧
    ∃ answer, tree.exists? (project.spelledPath name plugin) = .ok answer

theorem output_isProper (root output : String) : (ofTexts root output).output.IsProper := by
  have hroot := Path.ofText_isProper root
  have houtput := Path.ofText_isProper output
  show ((Path.ofText root).join (.ofText output)).IsProper
  rw [Path.join]
  split
  · exact houtput
  · exact ⟨hroot.slashes, List.forall_mem_append.2 ⟨hroot.parts, houtput.parts⟩⟩

section

variable {project : Project} {tree after : FileTree} {module : Value} {name : String}

theorem infoPath_eq (hname : name.toList.head? ≠ some '/') (plugin : Plugin) :
    project.infoPath name plugin = project.output.join (.relative (Path.partsOf (infoName name plugin))) := by
  have hhead : (infoName name plugin).toList.head? ≠ some '/' := by
    simp only [infoName, String.toList_append]
    cases hchars : name.toList with
    | nil => simp
    | cons c chars =>
        rw [hchars] at hname
        simpa using hname
  rw [infoPath, Path.ofText_of_head? hhead]

theorem infoPath_isProper (hproper : project.output.IsProper) (hname : name.toList.head? ≠ some '/') (plugin : Plugin) :
    (project.infoPath name plugin).IsProper := by
  rw [infoPath_eq hname]
  exact hproper.join_relative (Path.ofText_isProper (infoName name plugin)).parts

theorem parts_spelledPath (hproper : project.output.IsProper) (hname : name.toList.head? ≠ some '/')
    (plugin : Plugin) : (project.spelledPath name plugin).parts = (project.infoPath name plugin).parts := by
  rw [infoPath_eq hname, Path.join_relative_eq]
  show Path.partsOf _ = _
  rw [Path.partsOf_append, partsOf_text hproper]

theorem absolute_spelledPath (hproper : project.output.IsProper) (hname : name.toList.head? ≠ some '/')
    (plugin : Plugin) : (project.spelledPath name plugin).absolute = (project.infoPath name plugin).absolute := by
  obtain ⟨c, chars, hchars⟩ := List.exists_cons_of_ne_nil (String.toList_eq_nil_iff.not.2 hproper.text_ne_empty)
  rw [infoPath_eq hname, Path.join_relative_eq]
  show _ = project.output.absolute
  rw [spelledPath, Bool.eq_iff_iff, ← head?_eq_slash_iff, ← head?_text hproper, String.toList_append,
    String.toList_append, hchars]
  rfl

/-- Both paths of a file are answered alike. -/
theorem IsPlaced.exists?_spelledPath (hplaced : project.IsPlaced tree module name)
    (hproper : project.output.IsProper) (plugin : Plugin) :
    tree.exists? (project.spelledPath name plugin) = tree.exists? (project.infoPath name plugin) := by
  by_cases hroot : project.output.IsRoot
  · obtain ⟨⟨answer, hanswer⟩, other, hother⟩ := hplaced.asked hroot plugin
    have hsame : tree.holds (project.infoPath name plugin).text = tree.holds (project.spelledPath name plugin).text :=
      holds_eq_of_parts (infoPath_isProper hproper hplaced.below plugin) (Path.ofText_isProper _)
        (absolute_spelledPath hproper hplaced.below plugin) (parts_spelledPath hproper hplaced.below plugin)
        hanswer hother
    rw [holds_of_exists? hanswer, holds_of_exists? hother] at hsame
    rw [hanswer, hother, hsame]
  · rw [spelledPath, ofText_text_append hproper hroot, infoPath_eq hplaced.below]

end

/-! ### Analyses of modules -/

/-- An analysis turned to the files of a module that is named so: it writes what the search looks for, unless all of
it is there. -/
def renewal (project : Project) (analysis : Analysis) (name : String) : Analysis :=
  { analysis with
    module := name
    plugins := Plugin.names Plugin.all
    template := project.output.text ++ "/$module.$p.json"
    force := false }

/-- The call of the analyser that a module needs, if any. -/
def renewalCall? (project : Project) (analysis : Analysis) (tree : FileTree) (module : Value) :
    Except Fault (Option Call) := do
  (project.renewal analysis (← Name.written module)).call? tree

/-- The analyser would be started for a module. -/
def startsRenewal (project : Project) (analysis : Analysis) (tree : FileTree) (module : Value) : Bool :=
  (project.renewalCall? analysis tree module).toOption.join.isSome

theorem startsRenewal_iff {project : Project} {analysis : Analysis} {tree : FileTree} {module : Value} :
    project.startsRenewal analysis tree module = true ↔
      ∃ call, project.renewalCall? analysis tree module = .ok (some call) := by
  rw [startsRenewal]
  cases project.renewalCall? analysis tree module with
  | error fault => simp [Except.toOption]
  | ok call => simp [Except.toOption, Option.isSome_iff_exists]

theorem plugins_renewal (project : Project) (analysis : Analysis) (name : String) :
    (project.renewal analysis name).plugins.items = .ok (Plugin.all.map fun plugin => .str plugin.name) := rfl

theorem fill_template {front : String} (hdollar : '$' ∉ front.toList) (analysis : Analysis) (plugin : Plugin) :
    Text.fill (analysis.bindings plugin.name plugin.shortName) (front ++ "/$module.$p.json") =
      .ok (front ++ "/" ++ infoName analysis.module plugin) := by
  have htemplate : (front ++ "/$module.$p.json").toList =
      front.toList ++ (['/'] ++ '$' :: ("module".toList ++ (['.'] ++ '$' :: ("p".toList ++ (".json".toList ++ []))))) := by
    rw [String.toList_append]
    rfl
  rw [Text.fill, htemplate, Text.fillFrom_append hdollar, Text.fillFrom_append (by decide),
    Text.fillFrom_name rfl rfl, Text.fillFrom_append (by decide), Text.fillFrom_name rfl rfl,
    Text.fillFrom_append (by decide)]
  show Except.ok _ = _
  rw [Except.ok.injEq, ← String.toList_inj]
  simp [infoName, String.toList_append]

theorem call?_eq_ok_none_iff {analysis : Analysis} {tree : FileTree} {plugins : List Value}
    (hforce : analysis.force = false) (hplugins : analysis.plugins.items = .ok plugins) :
    analysis.call? tree = .ok none ↔
      ∃ outputs, plugins.mapM (analysis.outputAt tree) = .ok outputs ∧ outputs.all (·.2) = true := by
  rw [Analysis.call?, hplugins, ok_bind, bind_eq_ok, hforce]
  refine exists_congr fun outputs => and_congr_right fun _ => ?_
  simp only [Bool.false_or, ← List.not_all_eq_any_not]
  cases outputs.all (·.2) with
  | true => exact iff_of_true rfl rfl
  | false => exact iff_of_false (fun hnone => by cases hnone) Bool.false_ne_true

section

variable {project : Project} {tree after : FileTree} {module : Value} {name : String}

theorem output_renewal (hdollar : '$' ∉ project.output.text.toList) (analysis : Analysis) (plugin : Plugin) :
    (project.renewal analysis name).output (.str plugin.name) =
      .ok ("--" ++ plugin.name, project.spelledPath name plugin) := by
  have hshort : Plugin.shortNameOf (.str plugin.name) = .ok plugin.shortName := by
    cases plugin <;> rfl
  have hfill : Text.fill ((project.renewal analysis name).bindings plugin.name plugin.shortName)
      (project.renewal analysis name).template = .ok (project.output.text ++ "/" ++ infoName name plugin) :=
    fill_template hdollar (project.renewal analysis name) plugin
  rw [Analysis.output, hshort, ok_bind, hfill]
  rfl

theorem outputAt_renewal_eq_ok_iff (hdollar : '$' ∉ project.output.text.toList) {analysis : Analysis} {plugin : Plugin}
    {output : (String × Path) × Bool} :
    (project.renewal analysis name).outputAt tree (.str plugin.name) = .ok output ↔
      output.1 = ("--" ++ plugin.name, project.spelledPath name plugin) ∧
        tree.exists? (project.spelledPath name plugin) = .ok output.2 := by
  rw [Analysis.outputAt, output_renewal hdollar, ok_bind, bind_eq_ok]
  constructor
  · rintro ⟨answer, hanswer, houtput⟩
    cases houtput
    exact ⟨rfl, hanswer⟩
  · rintro ⟨hpath, hanswer⟩
    refine ⟨output.2, hanswer, ?_⟩
    rw [← hpath]
    rfl

theorem outputAt_renewal_eq_error (hdollar : '$' ∉ project.output.text.toList) {analysis : Analysis} {plugin : Plugin}
    {fault : Fault} (herror : tree.exists? (project.spelledPath name plugin) = .error fault) :
    (project.renewal analysis name).outputAt tree (.str plugin.name) = .error fault := by
  rw [Analysis.outputAt, output_renewal hdollar, ok_bind, herror]
  rfl

theorem isFinished_eq (hwritten : Name.written module = .ok name) :
    project.isFinished tree module = Plugin.all.allM fun plugin => tree.exists? (project.infoPath name plugin) := by
  have hfile (plugin : Plugin) : project.infoFile module plugin.shortName = .ok (project.infoPath name plugin) := by
    rw [infoFile, hwritten]
    rfl
  simp only [isFinished, hfile, ok_bind]

theorem renewalCall?_eq (hwritten : Name.written module = .ok name) (analysis : Analysis) :
    project.renewalCall? analysis tree module = (project.renewal analysis name).call? tree := by
  rw [renewalCall?, hwritten, ok_bind]

/-- An analysis that comes to an answer has asked about all files. -/
theorem exists?_of_renewalCall? (hwritten : Name.written module = .ok name)
    (hdollar : '$' ∉ project.output.text.toList) {analysis : Analysis} {call : Option Call}
    (hcall : project.renewalCall? analysis tree module = .ok call) (plugin : Plugin) :
    ∃ answer, tree.exists? (project.spelledPath name plugin) = .ok answer := by
  have hname : .str plugin.name ∈ Plugin.all.map fun plugin => Value.str plugin.name :=
    List.mem_map_of_mem (by cases plugin <;> decide)
  rw [renewalCall?_eq hwritten, Analysis.call?, plugins_renewal, ok_bind] at hcall
  obtain ⟨outputs, houtputs, -⟩ := bind_eq_ok.1 hcall
  obtain ⟨output, houtput⟩ := exists_ok_of_mapM houtputs _ hname
  exact ⟨output.2, ((outputAt_renewal_eq_ok_iff hdollar).1 houtput).2⟩

namespace IsPlaced

/-- An analysis skips a module exactly if the module is finished. -/
theorem isFinished_iff_skipped (hplaced : project.IsPlaced tree module name) (hproper : project.output.IsProper)
    (hdollar : '$' ∉ project.output.text.toList) (analysis : Analysis) :
    project.isFinished tree module = .ok true ↔ project.renewalCall? analysis tree module = .ok none := by
  rw [isFinished_eq hplaced.written, allM_eq_ok_true_iff, renewalCall?_eq hplaced.written,
    call?_eq_ok_none_iff rfl (plugins_renewal project analysis name)]
  constructor
  · intro hall
    refine ⟨Plugin.all.map fun plugin => (("--" ++ plugin.name, project.spelledPath name plugin), true), ?_, ?_⟩
    · rw [List.mapM_map, Function.comp_def]
      refine mapM_eq_ok_map fun plugin hplugin => (outputAt_renewal_eq_ok_iff hdollar).2 ⟨rfl, ?_⟩
      rw [hplaced.exists?_spelledPath hproper]
      exact hall plugin hplugin
    · exact List.all_eq_true.2 (by simp)
  · rintro ⟨outputs, houtputs, hall⟩ plugin hplugin
    have hname := List.mem_map_of_mem (f := fun plugin : Plugin => Value.str plugin.name) hplugin
    obtain ⟨output, houtput⟩ := exists_ok_of_mapM houtputs _ hname
    have htrue : output.2 = true := List.all_eq_true.1 hall output (mem_of_mapM_eq_ok houtputs hname houtput)
    obtain ⟨-, hanswer⟩ := (outputAt_renewal_eq_ok_iff hdollar).1 houtput
    rw [← hplaced.exists?_spelledPath hproper, hanswer, htrue]

/-- An analysis fails where the search does. -/
theorem renewalCall?_eq_error (hplaced : project.IsPlaced tree module name) (hproper : project.output.IsProper)
    (hdollar : '$' ∉ project.output.text.toList) (analysis : Analysis) {fault : Fault}
    (herror : project.isFinished tree module = .error fault) :
    project.renewalCall? analysis tree module = .error fault := by
  rw [isFinished_eq hplaced.written, allM_eq_error_iff] at herror
  obtain ⟨front, plugin, rest, hall, hfault, hfront⟩ := herror
  have hmapped : (Plugin.all.map fun plugin => .str plugin.name).mapM ((project.renewal analysis name).outputAt tree) =
      .error fault := by
    rw [List.mapM_map, Function.comp_def, hall]
    refine mapM_eq_error (outputAt_renewal_eq_error hdollar ?_) fun other hother => ?_
    · rw [hplaced.exists?_spelledPath hproper, hfault]
    · refine ⟨(("--" ++ other.name, project.spelledPath name other), true), ?_⟩
      refine (outputAt_renewal_eq_ok_iff hdollar).2 ⟨rfl, ?_⟩
      rw [hplaced.exists?_spelledPath hproper, hfront other hother]
  rw [renewalCall?_eq hplaced.written, Analysis.call?, plugins_renewal, ok_bind, hmapped]
  rfl

end IsPlaced

/-! ### The search -/

theorem modules_unfinishedFrom {found : Unfinished} {modules : List Value}
    (hnone : (project.unfinishedFrom tree found modules).fault = none) :
    (project.unfinishedFrom tree found modules).modules =
      found.modules ++ modules.filter fun module => project.isFinished tree module ≠ .ok true := by
  induction modules generalizing found with
  | nil => exact (List.append_nil _).symm
  | cons module rest ih =>
      cases hmodule : project.isFinished tree module with
      | error fault =>
          rw [unfinishedFrom, hmodule] at hnone
          cases hnone
      | ok finished =>
          cases finished with
          | true =>
              simp only [unfinishedFrom, hmodule] at hnone ⊢
              rw [List.filter_cons_of_neg (by simp [hmodule])]
              exact ih hnone
          | false =>
              simp only [unfinishedFrom, hmodule] at hnone ⊢
              rw [List.filter_cons_of_pos (by simp [hmodule])]
              exact (ih hnone).trans (List.append_cons found.modules module _).symm

theorem exists_of_fault_unfinishedFrom {found : Unfinished} {modules : List Value} {fault : Fault}
    (hfound : found.fault = none) (hfault : (project.unfinishedFrom tree found modules).fault = some fault) :
    ∃ module ∈ modules, project.isFinished tree module = .error fault := by
  induction modules generalizing found with
  | nil => cases hfound.symm.trans hfault
  | cons module rest ih =>
      have hrest (hlater : ∃ other ∈ rest, project.isFinished tree other = .error fault) :
          ∃ other ∈ module :: rest, project.isFinished tree other = .error fault := by
        obtain ⟨other, hother, herror⟩ := hlater
        exact ⟨other, List.mem_cons_of_mem _ hother, herror⟩
      rw [unfinishedFrom] at hfault
      split at hfault
      · cases hfault
        exact ⟨module, List.mem_cons_self, ‹_›⟩
      · exact hrest (ih hfound hfault)
      · refine hrest (ih ?_ hfault)
        exact hfound

theorem modules_unfinished_singleton (hmodule : project.isFinished tree module = .ok false) :
    (project.unfinished tree (.arr [module])).modules = [module] := by
  simp only [unfinished, Value.items, unfinishedFrom, hmodule]
  rfl

theorem prefix_unfinishedFrom (found : Unfinished) (modules : List Value) :
    found.modules <+: (project.unfinishedFrom tree found modules).modules := by
  induction modules generalizing found with
  | nil => exact List.prefix_rfl
  | cons module rest ih =>
      rw [unfinishedFrom]
      split
      · exact List.prefix_rfl
      · exact ih found
      · exact (List.prefix_append _ _).trans (ih { found with modules := found.modules ++ [module], printed := _ })

/-! ### The search in a tree that grows -/

theorem isFinished_of_grows (hgrows : tree.Grows after) (hfinished : project.isFinished tree module = .ok true) :
    project.isFinished after module = .ok true := by
  rw [isFinished, allM_eq_ok_true_iff] at hfinished ⊢
  intro plugin hplugin
  obtain ⟨path, hpath, hexists⟩ := bind_eq_ok.1 (hfinished plugin hplugin)
  rw [hpath]
  exact hgrows.exists?_true hexists

theorem isFinished_error_of_grows (hgrows : tree.Grows after) {fault : Fault}
    (herror : project.isFinished tree module = .error fault) : project.isFinished after module = .error fault := by
  rw [isFinished, allM_eq_error_iff] at herror ⊢
  obtain ⟨front, plugin, rest, hall, hfault, hfront⟩ := herror
  refine ⟨front, plugin, rest, hall, ?_, fun other hother => ?_⟩
  · cases hpath : project.infoFile module plugin.shortName with
    | error other =>
        rw [hpath] at hfault
        exact hfault
    | ok path =>
        rw [hpath] at hfault
        exact hgrows.exists?_error hfault
  · obtain ⟨path, hpath, hexists⟩ := bind_eq_ok.1 (hfront other hother)
    rw [hpath]
    exact hgrows.exists?_true hexists

/-- A search lists no module that the other does not list, and ends without a fault only if the other does. -/
structure Unfinished.Within (later found : Unfinished) : Prop where
  modules : later.modules.Sublist found.modules
  fault : later.fault = none → found.fault = none

theorem unfinishedFrom_within (hgrows : tree.Grows after) {later found : Unfinished} (hwithin : later.Within found)
    (modules : List Value) :
    (project.unfinishedFrom after later modules).Within (project.unfinishedFrom tree found modules) := by
  induction modules generalizing later found with
  | nil => exact hwithin
  | cons module rest ih =>
      cases hafter : project.isFinished after module with
      | error fault =>
          rw [unfinishedFrom, hafter]
          exact ⟨hwithin.modules.trans (prefix_unfinishedFrom found _).sublist, fun hnone => by cases hnone⟩
      | ok finishedAfter =>
          cases htree : project.isFinished tree module with
          | error fault => cases (isFinished_error_of_grows hgrows htree).symm.trans hafter
          | ok finished =>
              cases finished with
              | true =>
                  cases hafter.symm.trans (isFinished_of_grows hgrows htree)
                  simp only [unfinishedFrom, htree, hafter]
                  exact ih hwithin
              | false =>
                  simp only [unfinishedFrom, htree, hafter]
                  cases finishedAfter with
                  | true => exact ih ⟨hwithin.modules.trans (List.sublist_append_left _ _), hwithin.fault⟩
                  | false => exact ih ⟨hwithin.modules.append_right _, hwithin.fault⟩

end

/-- Where names do not start with a slash, the search leaves out the modules that an analysis would skip and stops only
with the fault of an analysis. So if every analysis comes to an answer, it lists the modules for which the analyser
would be started. A tree that grows never adds a module to the list. -/
theorem unfinished_eq_filter_renewed (root output : String)
    (hdollar : '$' ∉ (ofTexts root output).output.text.toList) (analysis : Analysis) (tree : FileTree)
    (modules : List Value) :
    ((∀ module ∈ modules, ∃ name, (ofTexts root output).IsPlaced tree module name) →
      ((∀ module ∈ modules, ∃ call, (ofTexts root output).renewalCall? analysis tree module = .ok call) →
        ((ofTexts root output).unfinished tree (.arr modules)).fault = none ∧
        ((ofTexts root output).unfinished tree (.arr modules)).modules =
          modules.filter ((ofTexts root output).startsRenewal analysis tree)) ∧
      (((ofTexts root output).unfinished tree (.arr modules)).fault = none →
        ((ofTexts root output).unfinished tree (.arr modules)).modules =
          modules.filter fun module => (ofTexts root output).renewalCall? analysis tree module ≠ .ok none) ∧
      ∀ fault, ((ofTexts root output).unfinished tree (.arr modules)).fault = some fault →
        ∃ module ∈ modules, (ofTexts root output).renewalCall? analysis tree module = .error fault) ∧
    ∀ after, tree.Grows after →
      ((ofTexts root output).unfinished after (.arr modules)).Within
        ((ofTexts root output).unfinished tree (.arr modules)) := by
  have hproper := output_isProper root output
  refine ⟨fun hplaced => ?_, fun after hgrows => unfinishedFrom_within hgrows ⟨List.Sublist.refl _, id⟩ modules⟩
  have hskipped : ((ofTexts root output).unfinished tree (.arr modules)).fault = none →
      ((ofTexts root output).unfinished tree (.arr modules)).modules =
        modules.filter fun module => (ofTexts root output).renewalCall? analysis tree module ≠ .ok none := by
    intro hnone
    refine (modules_unfinishedFrom hnone).trans (List.filter_congr fun module hmodule => ?_)
    obtain ⟨name, hmodule⟩ := hplaced module hmodule
    exact decide_eq_decide.2 (hmodule.isFinished_iff_skipped hproper hdollar analysis).not
  have hfault : ∀ fault, ((ofTexts root output).unfinished tree (.arr modules)).fault = some fault →
      ∃ module ∈ modules, (ofTexts root output).renewalCall? analysis tree module = .error fault := by
    intro fault hfault
    obtain ⟨module, hmodule, herror⟩ := exists_of_fault_unfinishedFrom rfl hfault
    obtain ⟨name, hname⟩ := hplaced module hmodule
    exact ⟨module, hmodule, hname.renewalCall?_eq_error hproper hdollar analysis herror⟩
  refine ⟨fun hanswers => ?_, hskipped, hfault⟩
  have hnone : ((ofTexts root output).unfinished tree (.arr modules)).fault = none := by
    rw [Option.eq_none_iff_forall_ne_some]
    intro fault hsome
    obtain ⟨module, hmodule, herror⟩ := hfault fault hsome
    obtain ⟨call, hcall⟩ := hanswers module hmodule
    cases herror.symm.trans hcall
  refine ⟨hnone, (hskipped hnone).trans (List.filter_congr fun module hmodule => ?_)⟩
  obtain ⟨call, hcall⟩ := hanswers module hmodule
  rw [startsRenewal, hcall]
  cases call with
  | none => rfl
  | some call => rfl

/-- An analysis that says nothing yet about the files that are looked for. -/
def plainAnalysis : Analysis := ⟨.relative ["A.lean"], "A", none, .null, "", false, false⟩

/-- The files of one module, and the first file of another. -/
def halfFinished : FileTree where
  here := ["home"]
  files := (["home", "proj", ".jixia", "B.1.mod.json"], "") ::
    Plugin.all.map fun plugin => (["home", "proj", ".jixia", infoName "A" plugin], "")
  directories := []

/-- The tree with the second file of the other module as well. -/
def laterFinished : FileTree := halfFinished.put ["home", "proj", ".jixia", "B.1.decl.json"] ""

/-- A module with a number in its name, one that is finished, and the first again. -/
def halfModules : List Value := [.arr [.str "B", .int 1], .texts ["A"], .arr [.str "B", .int 1]]

theorem isPlaced_halfModules :
    ∀ module ∈ halfModules, ∃ name, (ofTexts "proj" ".jixia").IsPlaced halfFinished module name := by
  have hnumbered : (ofTexts "proj" ".jixia").IsPlaced halfFinished (.arr [.str "B", .int 1]) "B.1" :=
    ⟨by decide +kernel, by decide, fun hroot => absurd hroot (by decide)⟩
  have hfinished : (ofTexts "proj" ".jixia").IsPlaced halfFinished (.texts ["A"]) "A" :=
    ⟨by decide +kernel, by decide, fun hroot => absurd hroot (by decide)⟩
  exact List.forall_mem_cons.2 ⟨⟨_, hnumbered⟩, List.forall_mem_cons.2 ⟨⟨_, hfinished⟩,
    List.forall_mem_singleton.2 ⟨_, hnumbered⟩⟩⟩

theorem halfFinished_renewed :
    '$' ∉ (ofTexts "proj" ".jixia").output.text.toList ∧
    (∀ module ∈ halfModules, ∃ name, (ofTexts "proj" ".jixia").IsPlaced halfFinished module name) ∧
    (∀ module ∈ halfModules, ∃ call,
      (ofTexts "proj" ".jixia").renewalCall? plainAnalysis halfFinished module = .ok call) ∧
    ((ofTexts "proj" ".jixia").unfinished halfFinished (.arr halfModules)).modules =
      [.arr [.str "B", .int 1], .arr [.str "B", .int 1]] ∧
    halfFinished.write "proj/.jixia/B.1.decl.json" "" = .ok laterFinished ∧
    ((ofTexts "proj" ".jixia").unfinished laterFinished (.arr halfModules)).Within
      ((ofTexts "proj" ".jixia").unfinished halfFinished (.arr halfModules)) := by
  have hdollar : '$' ∉ (ofTexts "proj" ".jixia").output.text.toList := by decide
  have hnumbered : (ofTexts "proj" ".jixia").startsRenewal plainAnalysis halfFinished (.arr [.str "B", .int 1]) =
      true := by decide +kernel
  have hfinished : (ofTexts "proj" ".jixia").renewalCall? plainAnalysis halfFinished (.texts ["A"]) = .ok none := by
    decide +kernel
  have hanswers : ∀ module ∈ halfModules, ∃ call,
      (ofTexts "proj" ".jixia").renewalCall? plainAnalysis halfFinished module = .ok call := by
    obtain ⟨call, hcall⟩ := startsRenewal_iff.1 hnumbered
    exact List.forall_mem_cons.2 ⟨⟨_, hcall⟩, List.forall_mem_cons.2 ⟨⟨_, hfinished⟩,
      List.forall_mem_singleton.2 ⟨_, hcall⟩⟩⟩
  have hwrite : halfFinished.write "proj/.jixia/B.1.decl.json" "" = .ok laterFinished :=
    write_eq_ok_iff.2 ⟨_, by decide +kernel, by decide, rfl⟩
  obtain ⟨hlisted, hgrown⟩ :=
    unfinished_eq_filter_renewed "proj" ".jixia" hdollar plainAnalysis halfFinished halfModules
  refine ⟨hdollar, isPlaced_halfModules, hanswers, ?_, hwrite, hgrown laterFinished (grows_of_write hwrite)⟩
  rw [((hlisted isPlaced_halfModules).1 hanswers).2, halfModules, List.filter_cons_of_pos hnumbered,
    List.filter_cons_of_neg (by simp [startsRenewal, hfinished, Except.toOption]), List.filter_cons_of_pos hnumbered,
    List.filter_nil]

/-! ### Names that lead elsewhere -/

/-- The files of a module whose name starts with a slash, as an analysis would write them. -/
def slashFinished : FileTree where
  here := ["home"]
  files := Plugin.all.map fun plugin => (["home", "proj", ".jixia", infoName "x" plugin], "")
  directories := []

/-- A directory of analyses without any. -/
def noneFinished : FileTree := ⟨["home"], [], [["home", "proj", ".jixia"]]⟩

/-- A name of so many letters. -/
def letters (count : Nat) : String := String.ofList (List.replicate count 'A')

theorem size_infoName_letters (count : Nat) (plugin : Plugin) :
    (infoName (letters count) plugin).utf8ByteSize = count + (6 + plugin.shortName.utf8ByteSize) := by
  have hletters : (letters count).utf8ByteSize = count := by
    rw [letters, String.utf8ByteSize_ofList]
    induction count with
    | zero => rfl
    | succ count ih => rw [List.replicate_succ, String.utf8Len_cons, ih]; rfl
  simp only [infoName, String.utf8ByteSize_append, hletters]
  rw [show ".".utf8ByteSize = 1 by decide, show ".json".utf8ByteSize = 5 by decide]
  omega

theorem notMem_infoName_letters (count : Nat) (plugin : Plugin) {c : Char} (hc : c = '/' ∨ c = '\x00') :
    c ∉ (infoName (letters count) plugin).toList := by
  have hother : c ≠ 'A' ∧ c ∉ ".".toList ∧ c ∉ plugin.shortName.toList ∧ c ∉ ".json".toList := by
    rcases hc with rfl | rfl <;> cases plugin <;> decide
  simp only [infoName, letters, String.toList_append, String.toList_ofList, List.mem_append, List.mem_replicate, not_or]
  exact ⟨⟨⟨fun hmem => hother.1 hmem.2, hother.2.1⟩, hother.2.2.1⟩, hother.2.2.2⟩

theorem infoName_letters_ne (count : Nat) (plugin : Plugin) {name : String} (hname : name.utf8ByteSize < 6) :
    infoName (letters count) plugin ≠ name := by
  rintro rfl
  rw [size_infoName_letters] at hname
  omega

theorem isPart_infoName_letters (count : Nat) (plugin : Plugin) : Path.IsPart (infoName (letters count) plugin) :=
  ⟨infoName_letters_ne count plugin (by decide), infoName_letters_ne count plugin (by decide),
    notMem_infoName_letters count plugin (by decide)⟩

theorem infoPath_letters (count : Nat) (plugin : Plugin) :
    (ofTexts "proj" ".jixia").infoPath (letters count) plugin =
      (ofTexts "proj" ".jixia").output.join (.relative [infoName (letters count) plugin]) := by
  rw [infoPath, Path.ofText_part (isPart_infoName_letters count plugin)]

theorem isPlaced_letters (count : Nat) :
    (ofTexts "proj" ".jixia").IsPlaced noneFinished (.texts [letters count]) (letters count) where
  written := by rw [Name.written_texts, String.intercalate_singleton]
  below := by
    intro hhead
    have hmem := List.mem_of_head? hhead
    rw [letters, String.toList_ofList] at hmem
    exact absurd (List.eq_of_mem_replicate hmem) (by decide)
  asked hroot := absurd hroot (by decide)

theorem locate_noneFinished :
    noneFinished.locate (ofTexts "proj" ".jixia").output.text = .ok ["home", "proj", ".jixia"] := by
  decide +kernel

/-- The shortest ending leaves room for this many letters. -/
theorem exists?_letters_module :
    noneFinished.exists? ((ofTexts "proj" ".jixia").output.join (.relative [infoName (letters 246) .module])) =
      .ok false := by
  have hpart := isPart_infoName_letters 246 .module
  have hsize : (infoName (letters 246) .module).utf8ByteSize = 255 := size_infoName_letters 246 .module
  have hname : IsName (infoName (letters 246) .module) :=
    ⟨hpart.1, hpart.2.1, infoName_letters_ne 246 .module (by decide), hpart.2.2,
      notMem_infoName_letters 246 .module (by decide), hsize.le⟩
  have hshort : ((ofTexts "proj" ".jixia").output.join (.relative [infoName (letters 246) .module])).text.utf8ByteSize <
      pathBound := by
    rw [text_join (List.cons_ne_nil _ _) (List.cons_ne_nil _ _), textBelow, String.intercalate_singleton,
      String.utf8ByteSize_append, String.utf8ByteSize_append, hsize]
    decide
  rw [exists?_join_name (output_isProper _ _) locate_noneFinished (by decide) hname hshort]
  rfl

theorem exists?_letters_declaration :
    noneFinished.exists? ((ofTexts "proj" ".jixia").output.join (.relative [infoName (letters 246) .declaration])) =
      .error (.longPath (Text.quoted
        ((ofTexts "proj" ".jixia").output.join (.relative [infoName (letters 246) .declaration])).text)) := by
  have hsize : (infoName (letters 246) .declaration).utf8ByteSize = 256 := size_infoName_letters 246 .declaration
  refine exists?_join_long (output_isProper _ _) locate_noneFinished (by decide)
    (isPart_infoName_letters 246 .declaration) (notMem_infoName_letters 246 .declaration (by decide)) ?_
  rw [hsize]
  decide

/-- A module with a slash before its name is listed with all its files there, and one with a long name is listed
although an analysis of it fails. -/
theorem unfinished_listed_not_renewed :
    '$' ∉ (ofTexts "proj" ".jixia").output.text.toList ∧
    (((ofTexts "proj" ".jixia").unfinished slashFinished (.arr [.texts ["/x"]])).modules = [.texts ["/x"]] ∧
      (ofTexts "proj" ".jixia").renewalCall? plainAnalysis slashFinished (.texts ["/x"]) = .ok none) ∧
    ((ofTexts "proj" ".jixia").unfinished noneFinished (.arr [.texts [letters 246]])).modules = [.texts [letters 246]] ∧
    ∀ call, (ofTexts "proj" ".jixia").renewalCall? plainAnalysis noneFinished (.texts [letters 246]) ≠ .ok call := by
  have hdollar : '$' ∉ (ofTexts "proj" ".jixia").output.text.toList := by decide
  have hslash : (ofTexts "proj" ".jixia").isFinished slashFinished (.texts ["/x"]) = .ok false := by decide +kernel
  have hplaced := isPlaced_letters 246
  have hlong : (ofTexts "proj" ".jixia").isFinished noneFinished (.texts [letters 246]) = .ok false := by
    rw [isFinished_eq hplaced.written, Plugin.all, List.allM, infoPath_letters, exists?_letters_module]
    rfl
  refine ⟨hdollar, ⟨modules_unfinished_singleton hslash, by decide +kernel⟩, modules_unfinished_singleton hlong, ?_⟩
  intro call hcall
  obtain ⟨answer, hanswer⟩ := exists?_of_renewalCall? hplaced.written hdollar hcall .declaration
  rw [hplaced.exists?_spelledPath (output_isProper _ _), infoPath_letters, exists?_letters_declaration] at hanswer
  cases hanswer

end ProofDump.Project
