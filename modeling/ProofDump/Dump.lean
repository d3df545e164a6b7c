import ProofDump.Position
import ProofDump.Value.Report

/-!
# Loaded dumps of a project

The dump of a module has up to five parts: its declarations, its info trees, the offsets at which its
lines start, its symbols and its module information. A part that is null counts as absent. Dumps are
kept under the dotted names of their modules.
-/

namespace ProofDump

/-- The loaded dump of a module. -/
structure Dump where
  declarations : Option Value := none
  trees : Option Value := none
  lines : Option Value := none
  symbols : Option Value := none
  info : Option Value := none

namespace Dump

/-- A part of a dump, unless it is null. -/
def part? (fields : Fields) (name : String) : Option Value :=
  (Fields.get? fields name).filter fun value => !value.isNull

/-- The dump with the given parts. -/
def ofFields (fields : Fields) : Dump where
  declarations := part? fields "decl"
  trees := part? fields "elab"
  lines := part? fields "line"
  symbols := part? fields "sym"
  info := part? fields "mod"

/-- The offsets at which the lines of a module start. -/
def lineStarts (dump : Dump) : LineStarts :=
  match dump.lines with
  | some (.arr items) => .ofValues items
  | _ => .ofValues []

end Dump

/-- The name under which the dump of a module is kept: its parts as reports show them, with dots between
them. -/
def dottedName (module : Value) : Except Fault String := do
  return ".".intercalate ((← module.items).map Value.reported)

/-- The dumps of a project by dotted module name. -/
abbrev Dumps := List (String × Dump)

/-- The dump of a module; a module without one has an empty dump. -/
def Dumps.get (dumps : Dumps) (module : Value) : Except Fault Dump := do
  return (dumps.lookup (← dottedName module)).getD {}

end ProofDump
