import DocTree.CommandLine.Arguments
import DocTree.Text.Terminal

/-!
# Help and usage messages

The text that explains the command line, and the message for one that cannot be read. A message
shows how the program is used: in general or, where that helps, with the options that were given. A
message repeats what the user wrote, but not what would steer the terminal.

The messages are made from the table of arguments, so an option that is added there shows up in all
of them; only the explanation is written out, because its columns are set by hand.
-/

set_option autoImplicit false

namespace DocTree.CommandLine

open DocTree.Text

/-! ## Usage -/

/-- How the program is used with some arguments; in general when there are none. -/
def usageLine (given : List Argument) : String :=
  if given.isEmpty then "Usage: ndoc [OPTIONS] [FILES]..."
  else
    let options := given.filter fun argument => argument != .files
    let files := if given.contains .files then "<FILES>..." else "[FILES]..."
    "Usage: ndoc " ++ String.join (options.map fun option => option.text ++ " ") ++ files

/-- How the program is used, with every argument but the help as one that could be given; the help
stands in front when it was asked for. -/
def choicesLine (argument : Argument) : String :=
  let choices := .files :: Argument.options.filter fun option => option != .help
  let shown := choices.map fun
    | .files => "FILES"
    | option => option.text
  "Usage: ndoc " ++ (if argument = .help then argument.text ++ " " else "")
    ++ "<" ++ "|".intercalate shown ++ ">"

def helpLines : List String :=
  ["Assemble parsed documentation records into a navigable documentation tree",
   "",
   usageLine [],
   "",
   "Arguments:",
   "  [FILES]...  Record files (glob patterns and directories supported). "
     ++ "If omitted, reads from stdin",
   "",
   "Options:",
   "  -o, --output <OUTPUT>                Output file (defaults to stdout)",
   "  -f, --format <FORMAT>                Output format: json (default), markdown "
     ++ "[default: json]",
   "      --parser <PARSER>                Registered parser to run [default: ndoc]",
   "  -l, --link-template <LINK_TEMPLATE>  Source link template. "
     ++ "Supports $\x7bfile\x7d and $\x7bline\x7d substitution",
   "      --compact                        Write JSON on a single line",
   "  -v, --verbose                        Log pipeline progress to stderr",
   "  -h, --help                           Print help"]

def helpText : String := String.join (helpLines.map (· ++ "\n"))

/-! ## Complaints -/

def Complaint.summary : Complaint → String
  | .missingValue argument =>
    "a value is required for '" ++ argument.text ++ "' but none was supplied"
  | .repeated argument => "the argument '" ++ argument.text ++ "' cannot be used multiple times"
  | .unexpectedValue value argument _ =>
    "unexpected value '" ++ visible value ++ "' for '" ++ argument.text
      ++ "' found; no more were expected"
  | .unknownName name _ => "unexpected argument '" ++ visible ("--" ++ name) ++ "' found"
  | .unknownLetter c => "unexpected argument '" ++ visible ("-" ++ String.singleton c) ++ "' found"

def inputTip (text : String) : String :=
  "to pass '" ++ visible text ++ "' as a value, use '" ++ visible ("-- " ++ text) ++ "'"

def Complaint.tip : Complaint → Option String
  | .unknownName name _ =>
    match Argument.suggest name with
    | some option => some ("a similar argument exists: '--" ++ option.longName ++ "'")
    | none => some (inputTip ("--" ++ name))
  | .unknownLetter c => some (inputTip ("-" ++ String.singleton c))
  | _ => none

/-- The usage line of a complaint, if it has one. A value for an option without one shows the
option, but only when nothing was given before. -/
def Complaint.usage : Complaint → Option String
  | .missingValue _ => none
  | .repeated _ => some (usageLine [])
  | .unexpectedValue _ argument given =>
    some (if given.isEmpty then usageLine [argument] else choicesLine argument)
  | .unknownName name given =>
    match Argument.suggest name with
    | some option =>
      some (usageLine (if given.contains option then given else given ++ [option]))
    | none => some (usageLine given)
  | .unknownLetter _ => some (usageLine [])

def Complaint.message (complaint : Complaint) : String :=
  "error: " ++ complaint.summary
    ++ (match complaint.tip with
      | some tip => "\n\n  tip: " ++ tip
      | none => "")
    ++ (match complaint.usage with
      | some line => "\n\n" ++ line
      | none => "")
    ++ "\n\nFor more information, try '--help'.\n"

end DocTree.CommandLine
