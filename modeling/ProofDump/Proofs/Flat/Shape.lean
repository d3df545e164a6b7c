import ProofDump.Flat.Convert
import ProofDump.Proofs.Except
import ProofDump.Proofs.Value

/-!
# Shapes of records

A record of any kind is converted part by part, and every part is read in one of a few ways. A shape is this
as data: `Shape.form` follows it, and each conversion of a kind of record is `Shape.form` of the shape of that
kind. What all conversions have in common is then proved once, by `Shape.induction`. `Shape.everywhere` asks
something of all leaves of a value of a shape, and `Shape.data` is the value that conversion leads to, if it
leads to one.
-/

namespace ProofDump

/-- The members of a loaded value. What is no sequence has none. -/
def Value.members (value : Value) : List Value :=
  match value.loadedItems with
  | .ok items => items
  | .error _ => []

theorem Value.members_eq {value : Value} {items : List Value} (hitems : value.loadedItems = .ok items) :
    value.members = items := by
  rw [members, hitems]

namespace Flat

/-- How a leaf is read off a loaded value. -/
inductive Reading where
  | handed
  | reported
  | dotted
  /-- A text whose letters become the parts of a name. -/
  | lettered
  | span
  | member (place : Int)
  /-- The same whatever was loaded. -/
  | fixed (value : Value)

def Reading.form (offsets : Offsets) : Reading → Value → Except Fault Form
  | handed, value => .ok (.leaf value)
  | reported, value => .ok (.text value.reported)
  | dotted, value => ident value
  | lettered, value => ident value
  | span, value => range offsets value
  | member place, value => .leaf <$> value.loadedIndex place
  | fixed value, _ => .ok (.leaf value)

inductive Shape where
  | leaf (reading : Reading)
  /-- Null, or of the shape. -/
  | optional (shape : Shape)
  | each (shape : Shape)
  /-- Of the shape in the part with this name. -/
  | inner (name : String) (shape : Shape)
  | record (parts : List (String × Shape))

namespace Shape

mutual

/-- Induction over shapes: to a record from all its parts. -/
@[elab_as_elim]
theorem induction {motive : Shape → Prop} (leaf : ∀ reading, motive (leaf reading))
    (optional : ∀ shape, motive shape → motive (optional shape))
    (each : ∀ shape, motive shape → motive (each shape))
    (inner : ∀ name shape, motive shape → motive (inner name shape))
    (record : ∀ parts : List (String × Shape), (∀ part ∈ parts, motive part.2) → motive (record parts)) :
    ∀ shape, motive shape
  | .leaf reading => leaf reading
  | .optional shape => optional shape (induction leaf optional each inner record shape)
  | .each shape => each shape (induction leaf optional each inner record shape)
  | .inner name shape => inner name shape (induction leaf optional each inner record shape)
  | .record parts => record parts (partsInduction leaf optional each inner record parts)

theorem partsInduction {motive : Shape → Prop} (leaf : ∀ reading, motive (.leaf reading))
    (optional : ∀ shape, motive shape → motive (.optional shape))
    (each : ∀ shape, motive shape → motive (.each shape))
    (inner : ∀ name shape, motive shape → motive (.inner name shape))
    (record : ∀ parts : List (String × Shape), (∀ part ∈ parts, motive part.2) → motive (.record parts)) :
    ∀ parts : List (String × Shape), ∀ part ∈ parts, motive part.2
  | [] => List.forall_mem_nil _
  | (_, shape) :: rest => List.forall_mem_cons.2
      ⟨induction leaf optional each inner record shape, partsInduction leaf optional each inner record rest⟩

end

mutual

/-- The form of a loaded value of the shape. -/
def form (offsets : Offsets) : Shape → Value → Except Fault Form
  | leaf reading, value => reading.form offsets value
  | optional shape, value => Flat.optional (form offsets shape) value
  | each shape, value => Flat.each (form offsets shape) value
  | inner name shape, value => do form offsets shape (← value.attr name)
  | record parts, value => .record <$> formParts offsets parts value

def formParts (offsets : Offsets) : List (String × Shape) → Value → Except Fault (List (String × Form))
  | [], _ => .ok []
  | (name, shape) :: rest, value => do
    let part ← form offsets shape value
    let parts ← formParts offsets rest value
    return (name, part) :: parts

end

/-! ### Leaves and data -/

mutual

/-- Whether all leaves of a value of the shape pass a test. -/
def everywhere (passes : Reading → Value → Bool) : Shape → Value → Bool
  | leaf reading, value => passes reading value
  | optional shape, value => value.isNull || everywhere passes shape value
  | each shape, value => value.members.all fun item => everywhere passes shape item
  | inner name shape, value => everywhere passes shape (value.part name)
  | record parts, value => everywhereIn passes parts value

def everywhereIn (passes : Reading → Value → Bool) : List (String × Shape) → Value → Bool
  | [], _ => true
  | (_, shape) :: rest, value => everywhere passes shape value && everywhereIn passes rest value

end

theorem everywhere_record {passes : Reading → Value → Bool} {parts : List (String × Shape)} {value : Value} :
    (record parts).everywhere passes value = true ↔ ∀ part ∈ parts, part.2.everywhere passes value = true := by
  rw [everywhere]
  induction parts with
  | nil => simp [everywhereIn]
  | cons part rest ih => rw [everywhereIn, Bool.and_eq_true, ih, List.forall_mem_cons]

theorem everywhere_imp {passes others : Reading → Value → Bool}
    (himp : ∀ reading value, passes reading value = true → others reading value = true) {shape : Shape} {value : Value}
    (hpasses : shape.everywhere passes value = true) : shape.everywhere others value = true := by
  induction shape using Shape.induction generalizing value with
  | leaf reading =>
      rw [everywhere] at hpasses ⊢
      exact himp reading value hpasses
  | optional shape ih =>
      rw [everywhere, Bool.or_eq_true] at hpasses ⊢
      exact hpasses.imp_right ih
  | each shape ih =>
      rw [everywhere, List.all_eq_true] at hpasses ⊢
      exact fun item hitem => ih (hpasses item hitem)
  | inner name shape ih =>
      rw [everywhere] at hpasses ⊢
      exact ih hpasses
  | record parts ih =>
      rw [everywhere_record] at hpasses ⊢
      exact fun part hpart => ih part hpart (hpasses part hpart)

/-! ### The kinds of records -/

/-- The part of a record that keeps its name. -/
def part (name : String) (shape : Shape) : String × Shape := (name, inner name shape)

def names : Shape := each (leaf .dotted)

def range : Shape := leaf .span

def moduleInfo : Shape := record [part "docstring" (leaf .handed), part "imports" (leaf .handed)]

def symbol : Shape :=
  record [part "kind" (leaf .reported), part "name" (leaf .dotted), part "type_full" (leaf .handed),
    part "type_readable" (leaf .handed), part "type_fallback" (leaf .handed), part "type_references" names,
    part "value_references" (optional names), part "is_prop" (leaf .handed)]

def excerptParts : List (String × Shape) :=
  [part "original" (leaf .handed), part "range" (optional range), part "pp" (leaf .handed)]

def excerpt : Shape := record excerptParts

def kindedExcerpt : Shape := record (excerptParts ++ [part "kind" (leaf .dotted)])

def paramParts : List (String × Shape) :=
  [part "ref" (optional range), part "id" (optional range), part "type" (optional range),
    part "binder_info" (leaf .lettered)]

def param : Shape := record paramParts

def modifierParts : List (String × Shape) :=
  [part "visibility" (leaf .reported), part "compute_kind" (leaf .reported), part "rec_kind" (leaf .reported),
    part "is_unsafe" (leaf .handed), part "docstring" (optional (leaf (.member 0))),
    ("has_docstring", inner "docstring" (optional (leaf (.member 1)))),
    ("is_noncomputable", leaf (.fixed (.bool false)))]

def modifiers : Shape := record modifierParts

def openNamespace : Shape := record [part "namespace" (leaf .dotted), part "hiding" names]

def openRename : Shape := record [part "name" (leaf .dotted), part "as_" (leaf .dotted)]

def openDecl : Shape := record [part "simple" (optional openNamespace), part "rename" (optional openRename)]

def scope : Shape :=
  record [part "var_decls" (leaf .handed), part "include_vars" names, part "omit_vars" names,
    part "curr_namespace" (leaf .dotted), part "open_decl" (each openDecl)]

def declaration : Shape :=
  record [part "kind" (leaf .reported), part "ref" excerpt, part "name" (leaf .dotted), part "signature" excerpt,
    part "modifiers" modifiers, part "params" (each param), part "type" (optional excerpt),
    part "value" (optional excerpt), part "scope_info" (optional scope)]

def localVariable : Shape :=
  record [part "id" (leaf .dotted), part "name" (leaf .dotted), part "binder_info" (leaf .handed),
    part "type" (leaf .handed), part "value" (leaf .handed), part "is_prop" (leaf .handed)]

def special : Shape := record [part "const" (optional (leaf .dotted)), part "fvar" (optional (leaf .dotted))]

def term : Shape :=
  record [part "context" (each localVariable), part "type" (leaf .handed), part "expected_type" (leaf .handed),
    part "value" (leaf .handed), part "special" (optional special)]

def goal : Shape :=
  record [part "tag" (leaf .dotted), part "context" (each localVariable), part "type" (leaf .handed),
    part "is_prop" (leaf .handed), part "pp" (leaf .handed)]

def tactic : Shape := record [part "references" names, part "before" (each goal), part "after" (each goal)]

def info : Shape :=
  record [part "term" (optional term), part "tactic" (optional tactic),
    part "macro" (optional (inner "expanded" kindedExcerpt)), part "simple" (optional (leaf .reported))]

/-! ### Conversions follow shapes -/

section Form

variable (offsets : Offsets)

@[simp] theorem form_leaf (reading : Reading) : (leaf reading).form offsets = reading.form offsets := by
  funext value
  rw [form]

@[simp] theorem form_optional (shape : Shape) :
    (optional shape).form offsets = Flat.optional (shape.form offsets) := by
  funext value
  rw [form]

@[simp] theorem form_each (shape : Shape) : (each shape).form offsets = Flat.each (shape.form offsets) := by
  funext value
  rw [form]

@[simp] theorem form_inner (name : String) (shape : Shape) :
    (inner name shape).form offsets = fun value => value.attr name >>= shape.form offsets := by
  funext value
  rw [form]

@[simp] theorem form_record (parts : List (String × Shape)) :
    (record parts).form offsets = fun value => .record <$> formParts offsets parts value := by
  funext value
  rw [form]

theorem formParts_eq_mapM (parts : List (String × Shape)) (value : Value) :
    formParts offsets parts value = parts.mapM fun part => (part.1, ·) <$> part.2.form offsets value := by
  induction parts with
  | nil =>
      rw [formParts]
      rfl
  | cons part rest ih =>
      rw [formParts, ih, List.mapM_cons, bind_map_left]

@[simp] theorem formParts_nil (value : Value) : formParts offsets [] value = pure [] := by
  rw [formParts]
  rfl

@[simp] theorem formParts_cons (name : String) (shape : Shape) (rest : List (String × Shape)) (value : Value) :
    formParts offsets ((name, shape) :: rest) value = (do
      let part ← shape.form offsets value
      let parts ← formParts offsets rest value
      pure ((name, part) :: parts)) := by
  rw [formParts]

@[simp] theorem form_handed : Reading.handed.form offsets = fun value => pure (.leaf value) := rfl

@[simp] theorem form_reported : Reading.reported.form offsets = fun value => pure (.text value.reported) := rfl

@[simp] theorem form_dotted : Reading.dotted.form offsets = ident := rfl

@[simp] theorem form_lettered : Reading.lettered.form offsets = ident := rfl

@[simp] theorem form_span : Reading.span.form offsets = Flat.range offsets := rfl

@[simp] theorem form_member (place : Int) :
    (Reading.member place).form offsets = fun value => .leaf <$> value.loadedIndex place := rfl

@[simp] theorem form_fixed (value : Value) : (Reading.fixed value).form offsets = fun _ => pure (.leaf value) := rfl

attribute [simp] part names range leafOf textOf identOf identsOf rangeOf

@[simp] theorem form_moduleInfo : moduleInfo.form offsets = Flat.moduleInfo := by
  funext value
  simp [moduleInfo, Flat.moduleInfo]

@[simp] theorem form_symbol : symbol.form offsets = Flat.symbol := by
  funext value
  simp [symbol, Flat.symbol]

@[simp] theorem form_excerpt : excerpt.form offsets = Flat.excerpt offsets := by
  funext value
  simp [excerpt, excerptParts, Flat.excerpt, Flat.excerptParts]

@[simp] theorem form_kindedExcerpt : kindedExcerpt.form offsets = Flat.kindedExcerpt offsets := by
  funext value
  simp [kindedExcerpt, excerptParts, Flat.kindedExcerpt, Flat.excerptParts]

@[simp] theorem form_param : param.form offsets = Flat.param offsets := by
  funext value
  simp [param, paramParts, Flat.param]

/-- The documentation comment is looked up once and read twice. -/
@[simp] theorem form_modifiers : modifiers.form offsets = Flat.modifiers := by
  funext value
  cases value with
  | obj fields =>
      have hattr (name : String) : (Value.obj fields).attr name = pure ((Value.obj fields).part name) := rfl
      simp [modifiers, modifierParts, Flat.modifiers, docstringMember, hattr]
  | _ =>
      simp only [modifiers, modifierParts, form_record, part, formParts_cons, form_inner]
      rfl

@[simp] theorem form_openNamespace : openNamespace.form offsets = Flat.openNamespace := by
  funext value
  simp [openNamespace, Flat.openNamespace]

@[simp] theorem form_openRename : openRename.form offsets = Flat.openRename := by
  funext value
  simp [openRename, Flat.openRename]

@[simp] theorem form_openDecl : openDecl.form offsets = Flat.openDecl := by
  funext value
  simp [openDecl, Flat.openDecl]

@[simp] theorem form_scope : scope.form offsets = Flat.scope := by
  funext value
  simp [scope, Flat.scope]

@[simp] theorem form_declaration : declaration.form offsets = Flat.declaration offsets := by
  funext value
  simp [declaration, Flat.declaration]

@[simp] theorem form_localVariable : localVariable.form offsets = Flat.variableForm := by
  funext value
  simp [localVariable, Flat.variableForm]

@[simp] theorem form_special : special.form offsets = Flat.special := by
  funext value
  simp [special, Flat.special]

@[simp] theorem form_term : term.form offsets = Flat.term := by
  funext value
  simp [term, Flat.term]

@[simp] theorem form_goal : goal.form offsets = Flat.goal := by
  funext value
  simp [goal, Flat.goal]

@[simp] theorem form_tactic : tactic.form offsets = Flat.tactic := by
  funext value
  simp [tactic, Flat.tactic]

@[simp] theorem form_info : info.form offsets = Flat.info offsets := by
  funext value
  have hok (form : Form) : (.ok form : Except Fault Form) = pure form := rfl
  simp [info, Flat.info, hok]

end Form

end Shape

end Flat

end ProofDump
