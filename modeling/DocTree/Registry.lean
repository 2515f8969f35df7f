import DocTree.Assembly.Log
import DocTree.FileSystem

/-!
# Parsers and their registry

A documentation parser makes documentation from the texts of files. The usual one reads a record set
from each text, with a comment parser that can be exchanged, and assembles them. Parsers are
registered under names, and a name that is registered again stands for the later one.

An invocation can fail in three ways, and of two faults the one that comes first in this order is
reported: the name is unknown, a file cannot be read, a text is malformed. All files are read before
any text is looked at. `Proofs.Precedence` states this as a verdict on the names, paths and texts,
and shows that the verdict is what is returned.

How files are read is an argument. The program passes the file system of the run, a test may pass
anything, and the theorems hold for every such function.
-/

set_option autoImplicit false

namespace DocTree

open DocTree.Log

/-! ## Faults

A refusal carries the path or the name that it is about. Its message and what lies behind it are
told apart because a report lists them as two causes. -/

inductive Refusal where
  | unknownParser (name : String)
  | unreadable (path : String) (fault : FileFault)
  | malformed (path : String) (reason : String)
deriving DecidableEq, Repr

def Refusal.message : Refusal → String
  | .unknownParser name => "no parser registered under " ++ Text.quote name
  | .unreadable path _ => "failed to read " ++ path
  | .malformed path _ => "failed to parse records from " ++ path

def Refusal.cause : Refusal → Option String
  | .unknownParser _ => none
  | .unreadable _ fault => some fault.message
  | .malformed _ reason => some reason

/-! ## Parsers

What a parser reports while it works is part of it, and is given as a list of events next to the
result. The files before a malformed one are reported as parsed and the assembly is not. -/

structure SourceText where
  path : String
  text : String

/-- Makes documentation from texts. A parser is free in how it does so; the registry only asks it
for a documentation or a refusal. -/
structure DocParser where
  parseTexts : Options → List SourceText → Except Refusal Documentation
  /-- What is reported while texts are parsed. -/
  events : Options → List SourceText → List Event

abbrev CommentParser := String → Except String RecordSet

def jsonRecords : CommentParser := fun text =>
  match RecordSet.read text with
  | .ok records => .ok records
  | .error fault => .error (fault.report text)

namespace CommentParser

def parseFile (comments : CommentParser) (source : SourceText) : Except Refusal SourceFile :=
  match comments source.text with
  | .ok records => .ok ⟨source.path, records⟩
  | .error reason => .error (.malformed source.path reason)

/-- The records of files; of several malformed texts the first is reported. No file is left out for
being malformed: one is enough to refuse all. -/
def parseFiles (comments : CommentParser) (sources : List SourceText) :
    Except Refusal (List SourceFile) :=
  sources.mapM comments.parseFile

def parsedFiles (comments : CommentParser) : List SourceText → List SourceFile
  | [] => []
  | source :: rest =>
    match comments.parseFile source with
    | .ok file => file :: comments.parsedFiles rest
    | .error _ => []

def parsedEvent (file : SourceFile) : Event :=
  ⟨.debug, .registry, "parsed",
    [("file", file.path), countField "records" file.records.size]⟩

def events (comments : CommentParser) (options : Options) (sources : List SourceText) :
    List Event :=
  (comments.parsedFiles sources).map parsedEvent
    ++ match comments.parseFiles sources with
      | .ok files => (Assembly.ofFiles options files).events files
      | .error _ => []

end CommentParser

namespace DocParser

def ofComments (comments : CommentParser) : DocParser where
  parseTexts options sources := (comments.parseFiles sources).map (Documentation.ofFiles options)
  events := comments.events

def readSources (read : String → Except FileFault String) (paths : List String) :
    Except Refusal (List SourceText) :=
  paths.mapM fun path =>
    match read path with
    | .ok text => .ok ⟨path, text⟩
    | .error fault => .error (.unreadable path fault)

def parse (parser : DocParser) (options : Options) (read : String → Except FileFault String)
    (paths : List String) : Except Refusal Documentation := do
  let sources ← readSources read paths
  parser.parseTexts options sources

end DocParser

/-! ## The registry -/

structure Registry where
  parsers : Catalog DocParser

namespace Registry

def empty : Registry := ⟨Catalog.empty⟩

def register (registry : Registry) (name : String) (parser : DocParser) : Registry :=
  ⟨registry.parsers.insert name parser⟩

def standard : Registry := empty.register "ndoc" (DocParser.ofComments jsonRecords)

def has (registry : Registry) (name : String) : Bool := registry.parsers.contains name

def find (registry : Registry) (name : String) : Except Refusal DocParser :=
  match registry.parsers.get? name with
  | some parser => .ok parser
  | none => .error (.unknownParser name)

/-- Makes documentation from the files at paths, with the parser under a name. An unknown name is
refused before any file is read. -/
def invoke (registry : Registry) (options : Options) (read : String → Except FileFault String)
    (name : String) (paths : List String) : Except Refusal Documentation := do
  let parser ← registry.find name
  parser.parse options read paths

def invokeTexts (registry : Registry) (options : Options) (name : String)
    (sources : List SourceText) : Except Refusal Documentation := do
  let parser ← registry.find name
  parser.parseTexts options sources

def textEvents (registry : Registry) (options : Options) (name : String)
    (sources : List SourceText) : List Event :=
  match registry.find name with
  | .ok parser => parser.events options sources
  | .error _ => []

/-- Reports an invocation with the files at paths. -/
def events (registry : Registry) (options : Options) (read : String → Except FileFault String)
    (name : String) (paths : List String) : List Event :=
  match DocParser.readSources read paths with
  | .ok sources => registry.textEvents options name sources
  | .error _ => []

end Registry

end DocTree
