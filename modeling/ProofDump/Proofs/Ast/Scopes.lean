import Mathlib.Data.List.DropRight
import ProofDump.Ast.Extract

/-!
# Scopes and the stack of namespaces

A file of commands is a sequence of blocks: commands by themselves, and commands between the opening and the
end of a namespace or a section. The scan keeps one stack for them. A namespace puts its name there, a
section puts nothing there, nor does a namespace of the name that counts as not found, and every end
takes the last entry away. So a block that is over has taken away as many entries as there are blocks in
it, itself included, that put nothing there (`Blocks.entryless`), and a place in a file sees the open
namespaces less what was lost in this way (`kept`).
-/

namespace ProofDump.Ast

/-- What a scope puts on the stack: its name, if it is a namespace whose name is found. -/
def entry (name : Option String) : List String := name.toList.filter (· ≠ unknown)

/-- The number of entries that a scope takes from the stack before it, if so many are taken within it: one
more at its end, unless it put one there. -/
def taken (name : Option String) (within : Nat) : Nat := within + if entry name = [] then 1 else 0

/-- A scope around a place: the name of a namespace or none of a section, and the number of entries that
the blocks before the place in it took away. -/
structure Scope where
  name : Option String
  lost : Nat
  deriving DecidableEq, Repr

/-- The names of the namespaces among scopes, outermost first. -/
def opened (scopes : List Scope) : List String := scopes.filterMap Scope.name

/-- The stack of namespaces within scopes. -/
def kept (scopes : List Scope) : List String :=
  scopes.foldl (fun stack scope => (stack ++ entry scope.name).rdrop scope.lost) []

theorem kept_concat (scopes : List Scope) (scope : Scope) :
    kept (scopes ++ [scope]) = (kept scopes ++ entry scope.name).rdrop scope.lost := by
  rw [kept, List.foldl_append]
  rfl

theorem opened_concat (scopes : List Scope) (scope : Scope) :
    opened (scopes ++ [scope]) = opened scopes ++ scope.name.toList := by
  rw [opened, List.filterMap_append]
  cases hname : scope.name with
  | none => simp [opened, hname]
  | some name => simp [opened, hname]

theorem rdrop_rdrop {α : Type} (entries : List α) (first second : Nat) :
    (entries.rdrop first).rdrop second = entries.rdrop (first + second) := by
  rw [List.rdrop, List.rdrop, List.rdrop, List.take_take, List.length_take]
  congr 1
  omega

theorem rdrop_one {α : Type} (entries : List α) : entries.rdrop 1 = entries.dropLast :=
  List.dropLast_eq_take.symm

theorem dropLast_rdrop_entry (stack : List String) (name : Option String) (within : Nat) :
    ((stack ++ entry name).rdrop within).dropLast = stack.rdrop (taken name within) := by
  rw [← rdrop_one, rdrop_rdrop, taken]
  by_cases hentry : entry name = []
  · rw [if_pos hentry, hentry, List.append_nil]
  · rw [if_neg hentry]
    cases name with
    | none => exact absurd rfl hentry
    | some name =>
        have hname : entry (some name) = [name] := by
          by_cases hname : name = unknown
          · exact absurd (by simp [entry, hname]) hentry
          · simp [entry, hname]
        rw [hname, List.rdrop_concat_succ, Nat.add_zero]

theorem kept_sublist_opened (scopes : List Scope) : (kept scopes).Sublist (opened scopes) := by
  induction scopes using List.reverseRecOn with
  | nil => exact List.Sublist.refl _
  | append_singleton scopes scope ih =>
      rw [kept_concat, opened_concat]
      exact (List.take_sublist _ _).trans (ih.append List.filter_sublist)

/-! ### Places without a loss -/

/-- No open namespace lacks an entry: all of their names are found, and from the outermost namespace inwards
no entry was taken away by a block that is over. -/
def Undisturbed (scopes : List Scope) : Prop :=
  (∀ scope ∈ scopes, scope.name ≠ some unknown) ∧
    ∀ scope ∈ scopes.dropWhile (·.name.isNone), scope.lost = 0

instance (scopes : List Scope) : Decidable (Undisturbed scopes) := inferInstanceAs (Decidable (_ ∧ _))

theorem dropWhile_isNone_eq_nil_iff {scopes : List Scope} :
    scopes.dropWhile (·.name.isNone) = [] ↔ opened scopes = [] := by
  rw [List.dropWhile_eq_nil_iff, opened, List.filterMap_eq_nil_iff]
  simp only [Option.isNone_iff_eq_none]

theorem forall_mem_dropWhile_concat {scopes : List Scope} {scope : Scope} :
    (∀ inner ∈ (scopes ++ [scope]).dropWhile (·.name.isNone), inner.lost = 0) ↔
      (∀ inner ∈ scopes.dropWhile (·.name.isNone), inner.lost = 0) ∧
        (scope.lost = 0 ∨ opened (scopes ++ [scope]) = []) := by
  rw [List.dropWhile_append, opened_concat]
  by_cases hopened : opened scopes = []
  · -- The last scope is the outermost namespace, or there is none.
    rw [dropWhile_isNone_eq_nil_iff.2 hopened, hopened]
    cases hname : scope.name with
    | none => simp [hname]
    | some name => simp [hname]
  · rw [if_neg (by simpa using dropWhile_isNone_eq_nil_iff.not.2 hopened), List.forall_mem_append,
      List.forall_mem_singleton]
    simp [hopened]

theorem undisturbed_concat {scopes : List Scope} {scope : Scope} :
    Undisturbed (scopes ++ [scope]) ↔
      Undisturbed scopes ∧ scope.name ≠ some unknown ∧
        (scope.lost = 0 ∨ opened (scopes ++ [scope]) = []) := by
  rw [Undisturbed, Undisturbed, forall_mem_dropWhile_concat, List.forall_mem_append,
    List.forall_mem_singleton, and_assoc, and_assoc, and_congr_right_iff]
  exact fun _ => and_left_comm

theorem entry_eq_toList_iff {name : Option String} :
    entry name = name.toList ↔ name ≠ some unknown := by
  cases name with
  | none => simp [entry]
  | some name => simp [entry]

theorem kept_concat_eq_opened_iff {scopes : List Scope} {scope : Scope} :
    kept (scopes ++ [scope]) = opened (scopes ++ [scope]) ↔
      kept scopes = opened scopes ∧ scope.name ≠ some unknown ∧
        (scope.lost = 0 ∨ opened (scopes ++ [scope]) = []) := by
  have hscopes := kept_sublist_opened scopes
  have hentry : (entry scope.name).Sublist scope.name.toList := List.filter_sublist
  rw [← entry_eq_toList_iff, kept_concat, opened_concat]
  constructor
  · -- Neither part of the stack can be longer than what it is a part of, so the lengths decide.
    intro heq
    have hlength := congrArg List.length heq
    rw [List.rdrop, List.length_take, List.length_append, List.length_append] at hlength
    have hkept := hscopes.length_le
    have hname := hentry.length_le
    refine ⟨hscopes.eq_of_length (by omega), hentry.eq_of_length (by omega), ?_⟩
    by_cases hlost : scope.lost = 0
    · exact .inl hlost
    · right
      rw [← List.length_eq_zero_iff, List.length_append]
      omega
  · rintro ⟨hkept, hname, hlost⟩
    rw [hkept, hname]
    rcases hlost with hlost | hnone
    · rw [hlost, List.rdrop_zero]
    · rw [hnone, List.rdrop_nil]

/-- The stack is the open namespaces exactly at the places without a loss. -/
theorem kept_eq_opened_iff {scopes : List Scope} : kept scopes = opened scopes ↔ Undisturbed scopes := by
  induction scopes using List.reverseRecOn with
  | nil => exact iff_of_true rfl (by decide)
  | append_singleton scopes scope ih => rw [kept_concat_eq_opened_iff, undisturbed_concat, ih]

/-! ### Blocks -/

/-- A sequence of commands by themselves and of scopes, each with the commands that open and end it. -/
inductive Blocks where
  | nil
  | command (tree : Value) (rest : Blocks)
  | scope (opening : Value) (name : Option String) (body : Blocks) (closing : Value) (rest : Blocks)

/-- A command by itself and the scopes around it, that of the file included. -/
structure Place where
  scopes : List Scope
  tree : Value

namespace Blocks

def commands : Blocks → List Value
  | nil => []
  | command tree rest => tree :: rest.commands
  | scope opening _ body closing rest => opening :: body.commands ++ closing :: rest.commands

def entryless : Blocks → Nat
  | nil => 0
  | command _ rest => rest.entryless
  | scope _ name body _ rest => taken name body.entryless + rest.entryless

def placesIn (outer : List Scope) (inner : Scope) : Blocks → List Place
  | nil => []
  | command tree rest => ⟨outer ++ [inner], tree⟩ :: rest.placesIn outer inner
  | scope _ name body _ rest =>
    body.placesIn (outer ++ [inner]) ⟨name, 0⟩ ++
      rest.placesIn outer { inner with lost := inner.lost + taken name body.entryless }

/-- The places of a file, whose own scope has no name. -/
def places (blocks : Blocks) : List Place := blocks.placesIn [] ⟨none, 0⟩

end Blocks

end ProofDump.Ast
