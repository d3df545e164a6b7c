import ProofDump.Text.Numeral
import ProofDump.Text.Search

/-!
# The command line

The program has one command, which takes the root of a project and a list of beginnings of module names.
Everything that starts with a dash is an option unless it is a negative number, contains a space or
stands after two dashes. The only option asks for help; it may be shortened, and it may be written
several times behind one dash.
-/

namespace ProofDump.CommandLine

/-- What a word of the command line is. -/
inductive Word where
  | value
  | help
  /-- The option for help with a value, which it does not take. -/
  | badHelp
  | unknown
  deriving DecidableEq, Repr

/-- Whether a text, after its dash, is a number. -/
def isNumber (text : List Char) : Bool :=
  let text := if text.getLast? = some '\n' then text.dropLast else text
  let isDigit (c : Char) : Bool := (Text.digitValue? c).isSome
  match text.dropWhile isDigit with
  | [] => !text.isEmpty
  | '.' :: rest => !rest.isEmpty && rest.all isDigit
  | _ => false

/-- What the letters behind the short option for help make of it. -/
def afterShortHelp : List Char → Word
  | [] => .help
  | '-' :: _ => .badHelp
  | 'h' :: '=' :: _ => .badHelp
  | 'h' :: rest => afterShortHelp rest
  | _ => .help

/-- What a word is that starts with a dash and is not known as an option. -/
def unknownWord (afterDash : List Char) : Word :=
  if isNumber afterDash || afterDash.contains ' ' then .value else .unknown

/-- What a word that starts with two dashes is. -/
def longWord (name : List Char) : Word :=
  if Text.startsWith (name.takeWhile (· ≠ '=')) "help".toList then
    if name.contains '=' then .badHelp else .help
  else unknownWord ('-' :: name)

/-- What a word is, two dashes alone apart. -/
def classify (word : String) : Word :=
  match word.toList with
  | '-' :: '-' :: name => longWord name
  | ['-'] => .value
  | '-' :: 'h' :: '=' :: _ => .badHelp
  | '-' :: 'h' :: rest => afterShortHelp rest
  | '-' :: rest => unknownWord rest
  | _ => .value

/-- What the command line asks for. -/
inductive Request where
  /-- Help about the program. -/
  | help
  /-- Help about the command. -/
  | commandHelp
  /-- Nothing that can be understood. -/
  | misuse
  /-- No command at all. -/
  | nothing
  /-- To index the project at a root; the beginnings are missing when only dashes stand for them. -/
  | index (root : String) (beginnings : Option String)
  deriving DecidableEq, Repr

/-- What the words of the command ask for, after the values before them; `sound` tells that no unknown
option has been met, and `open` that no two dashes have. -/
def commandFrom (values : List String) (sound open? : Bool) : List String → Request
  | [] =>
    match values, sound with
    | [root, beginnings], true =>
      .index root (if beginnings = "--" then none else some beginnings)
    | _, _ => .misuse
  | word :: rest =>
    if !open? then commandFrom (values ++ [word]) sound false rest
    else if word = "--" then commandFrom values sound false rest
    else match classify word with
      | .value => commandFrom (values ++ [word]) sound true rest
      | .help => .commandHelp
      | .badHelp => .misuse
      | .unknown => commandFrom values false true rest

/-- What the words of the command line ask for; `sound` tells that no unknown option has been met. -/
def parseFrom (sound : Bool) : List String → Request
  | [] => if sound then .nothing else .misuse
  | word :: rest =>
    if word = "--" then .misuse
    else match classify word with
      | .value => if word = "jixia" then commandFrom [] sound true rest else .misuse
      | .help => .help
      | .badHelp => .misuse
      | .unknown => parseFrom false rest

/-- What the words of the command line ask for. -/
def parse (words : List String) : Request := parseFrom true words

/-- Help about the program, which goes by the given name. -/
def help (program : String) : String :=
  "usage: " ++ program ++ " [-h] \x7bjixia\x7d ...\n\npositional arguments:\n  \x7bjixia\x7d\n\n" ++
    "options:\n  -h, --help  show this help message and exit\n"

/-- Help about the command of the program, which goes by the given name. -/
def commandHelp (program : String) : String :=
  "usage: " ++ program ++ " jixia [-h] project_root prefixes\n\npositional arguments:\n" ++
    "  project_root  Project to be indexed\n" ++
    "  prefixes      Comma-separated list of module prefixes to be included in the\n" ++
    "                index; e.g., Init,Mathlib\n\n" ++
    "options:\n  -h, --help    show this help message and exit\n"

/-- What the program says when it is only asked to show that it is there. -/
def greeting : String := "Hello from jixia-api!\n"

end ProofDump.CommandLine
