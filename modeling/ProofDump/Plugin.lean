import ProofDump.Value.Basic

/-!
# Plugins of the analyser

What the analyser can write about a module. Every plugin has a name, by which it is asked for, and a
short name, which is part of the name of the file it writes.
-/

namespace ProofDump

/-- What the analyser can write about a module. -/
inductive Plugin where
  | module
  | declaration
  | symbol
  | elaboration
  | ast
  | line
  deriving DecidableEq, Repr

namespace Plugin

/-- All plugins. -/
def all : List Plugin := [module, declaration, symbol, elaboration, ast, line]

/-- The name by which a plugin is asked for. -/
def name : Plugin → String
  | module => "module"
  | declaration => "declaration"
  | symbol => "symbol"
  | elaboration => "elaboration"
  | ast => "ast"
  | line => "line"

/-- The name of a plugin in the names of files. -/
def shortName : Plugin → String
  | module => "mod"
  | declaration => "decl"
  | symbol => "sym"
  | elaboration => "elab"
  | ast => "ast"
  | line => "line"

/-- The names of plugins as a value. -/
def names (plugins : List Plugin) : Value := .texts (plugins.map name)

/-- The plugin of a name. -/
def ofName? (name : String) : Option Plugin := all.find? fun plugin => plugin.name = name

/-- The short name of the plugin that a value names. -/
def shortNameOf (value : Value) : Except Fault String :=
  match value.text?.bind ofName? with
  | some plugin => .ok plugin.shortName
  | none => .error (.refused "")

end Plugin

end ProofDump
