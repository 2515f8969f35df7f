/-!
# Log events

What the program reports about its work besides its result. An event has a level, the part of the
program that it comes from, a message and fields; a line of the log shows all but the part.

The part is there for filters. Its name is a path from the whole program down, and a filter that
names the beginning of such a path means everything below it. No line has a time in it, so the log
of a run is a function of what goes in, like its output.
-/

set_option autoImplicit false

namespace DocTree.Log

inductive Level where
  | error
  | warn
  | info
  | debug
  | trace
deriving DecidableEq, Repr

/-- The levels in order: the more detail, the higher. -/
def Level.rank : Level → Nat
  | .error => 1
  | .warn => 2
  | .info => 3
  | .debug => 4
  | .trace => 5

def Level.label : Level → String
  | .error => "ERROR"
  | .warn => " WARN"
  | .info => " INFO"
  | .debug => "DEBUG"
  | .trace => "TRACE"

inductive Part where
  | program
  | registry
  | assembly
  | merging
  | sections
  | forest
  | finishing
deriving DecidableEq, Repr

/-- The name of a part, by which a filter refers to it and to the parts whose names begin so. -/
def Part.name : Part → String
  | .program => "ndoc"
  | .registry => "ndoc::registry"
  | .assembly => "ndoc::pipeline"
  | .merging => "ndoc::pipeline::ingest"
  | .sections => "ndoc::pipeline::sections"
  | .forest => "ndoc::pipeline::tree"
  | .finishing => "ndoc::pipeline::finalize"

structure Event where
  level : Level
  part : Part
  message : String
  /-- The names of the fields and their values as the line shows them. -/
  fields : List (String × String)
deriving DecidableEq, Repr

def Event.line (event : Event) : String :=
  event.level.label ++ " " ++ event.message
    ++ String.join (event.fields.map fun field => " " ++ field.1 ++ "=" ++ field.2) ++ "\n"

end DocTree.Log
