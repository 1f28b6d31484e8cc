import DeclOrder.Config
import DeclOrder.Discovery
import DeclOrder.Document
import DeclOrder.Response
import DeclOrder.Text.Terminal

/-!
# Checking files

A check reads the configuration, finds the sources and reports those that are out of order, or puts
them in order.  The outcome is a value: what is printed, the exit code and the files afterwards.
-/

namespace DeclOrder

structure CheckArguments where
  paths : List Path := []
  root : Path := { names := [] }
  config : Option Path := none
  fix : Bool := false
  json : Bool := false
  verbose : Bool := false

namespace CheckArguments

/-- Whether a word is made up of short options, of which there is one. -/
def isShort (word : String) : Bool :=
  match word.toList with
  | '-' :: 'v' :: more => more.all (· = 'v')
  | _ => false

/-- Reads the words of a command line by the documented rules of the library that parses them: of
two contrary options the last one counts, and an unknown option and an option without its value are
refused. -/
def ofWords? (arguments : CheckArguments) : List String → Option CheckArguments
  | [] => some arguments
  | "--" :: rest => some { arguments with paths := arguments.paths ++ rest.map Path.ofString }
  | "--root" :: value :: rest => ofWords? { arguments with root := Path.ofString value } rest
  | "--config" :: value :: rest =>
    ofWords? { arguments with config := some (Path.ofString value) } rest
  | word :: rest =>
    if word = "--fix" then ofWords? { arguments with fix := true } rest
    else if word = "--no-fix" then ofWords? { arguments with fix := false } rest
    else if word = "--json" then ofWords? { arguments with json := true } rest
    else if word = "--verbose" || isShort word then ofWords? { arguments with verbose := true } rest
    else
      match Text.after? "--root=".toList word.toList with
      | some value => ofWords? { arguments with root := Path.ofText value } rest
      | none =>
        match Text.after? "--config=".toList word.toList with
        | some value => ofWords? { arguments with config := some (Path.ofText value) } rest
        | none =>
          if word.toList.head? = some '-' && word ≠ "-" then none
          else ofWords? { arguments with paths := arguments.paths ++ [Path.ofString word] } rest

def allPaths (arguments : CheckArguments) : List Path :=
  arguments.root :: arguments.config.toList ++ arguments.paths

/-- The paths that are searched: the given ones, or else the root. -/
def searched (arguments : CheckArguments) : List Path :=
  if arguments.paths.isEmpty then [arguments.root] else arguments.paths

end CheckArguments

/-- What is noted for those who follow a check closely. -/
inductive Event where
  | checking (count : Nat)
  | noScript (path : String)
  | parsed (path : String) (count : Nat)
  | parseFailed (error : SyntaxError)
  | needsReordering (edit : Edit)

namespace Event

/-- The part of the program that notes an event. -/
def origin : Event → String
  | .checking _ => "setup_order.cli"
  | .noScript _ => "setup_order.ingest.vue_adapter"
  | .parsed _ _ => "setup_order.ingest.script_parser"
  | .parseFailed _ => "setup_order.commands"
  | .needsReordering _ => "setup_order.refactor.engine"

def message : Event → String
  | .checking count => "checking " ++ toString count ++ " file(s)"
  | .noScript path => path ++ ": no <script setup> block"
  | .parsed path count => path ++ ": parsed " ++ toString count ++ " top-level statements"
  | .parseFailed error => "parse failed: " ++ error.message
  | .needsReordering edit => edit.path ++ ": declaration span " ++ toString edit.start ++ "-" ++
      toString edit.stop ++ " needs reordering"

def render (event : Event) : String :=
  "DEBUG " ++ event.origin ++ ": " ++ event.message

end Event

/-- What is noted while a plan is made for a document that was read. -/
def Reading.events (options : Options) (path : String) : Reading → List Event
  | .unsupported => []
  | .noScript => [.noScript path]
  | .broken error => [.parseFailed error]
  | .script found =>
    .parsed path found.statements.length ::
      ((found.edit? options).map Event.needsReordering).toList

/-- How far a check has come. -/
structure Progress where
  tree : FileTree
  out : List String := []
  err : List String := []
  responses : List Response := []
  remaining : Nat := 0
  failed : Nat := 0

/-- What a check has come to.  After a failure there is what was done before it. -/
structure CheckOutcome where
  exitCode : Nat
  out : List String := []
  err : List String := []
  tree : FileTree
  failure : Option Failure := none

/-- A line as it is printed for a reader: where the output is no terminal, the library that prints
it is documented to drop control sequences. -/
def printed (line : String) : String :=
  String.ofList (Text.dropSequences line.toList)

namespace Progress

def print (progress : Progress) (lines : List String) : Progress :=
  { progress with out := progress.out ++ lines.map printed }

def complain (progress : Progress) (lines : List String) : Progress :=
  { progress with err := progress.err ++ lines.map printed }

/-- Notes events, exactly as they are, if that is asked for. -/
def note (progress : Progress) (arguments : CheckArguments) (events : List Event) : Progress :=
  if arguments.verbose then { progress with err := progress.err ++ events.map Event.render }
  else progress

def applyPlan (progress : Progress) (arguments : CheckArguments) (path : Path) (text : Text)
    (plan : Plan) : Progress :=
  let written := { progress with
    tree := progress.tree.write path (Text.encode (applyEdits text plan.edits)) }
  if arguments.json then written else written.print ["Fixed " ++ path.render]

def reportFindings (progress : Progress) (arguments : CheckArguments) (plan : Plan) : Progress :=
  let counted := { progress with remaining := progress.remaining + plan.findings.length }
  if arguments.json then counted else counted.print (plan.findings.map Finding.render)

def checkText (parser : Parser) (options : Options) (arguments : CheckArguments)
    (progress : Progress) (path : Path) (text : Text) : Progress :=
  let reading := Reading.ofDocument parser path.render text
  let plan := reading.plan options path.render
  let noted := progress.note arguments (reading.events options path.render)
  let counted := { noted with
    responses := noted.responses ++ [Response.ofPlan path.render text plan]
    failed := noted.failed + plan.errors.length }
  let reported := if arguments.json then counted else counted.complain plan.errors
  if arguments.fix && !plan.edits.isEmpty then reported.applyPlan arguments path text plan
  else reported.reportFindings arguments plan

/-- Takes one file into account; a failure comes with the progress before it. -/
def checkFile (parser : Parser) (options : Options) (arguments : CheckArguments)
    (progress : Progress) (path : Path) : Except (Failure × Progress) Progress :=
  match progress.tree.readText path with
  | .error failure => .error (failure, progress)
  | .ok (.error error) =>
    .ok ({ progress with failed := progress.failed + 1 }.complain
      [path.render ++ ": failed to read: " ++ error.message path])
  | .ok (.ok text) => .ok (checkText parser options arguments progress path text)

def exitCode (progress : Progress) : Nat :=
  if progress.failed ≠ 0 then 2 else if progress.remaining ≠ 0 then 1 else 0

def fail (progress : Progress) (failure : Failure) : CheckOutcome where
  exitCode := 1
  out := progress.out
  err := progress.err
  tree := progress.tree
  failure := some failure

def finish (progress : Progress) (arguments : CheckArguments) : CheckOutcome :=
  let report := if arguments.json
    then [(Json.list (progress.responses.map Response.toJson)).render] else []
  { exitCode := progress.exitCode
    out := progress.out ++ report
    err := progress.err
    tree := progress.tree }

end Progress

def checkTargets (tree : FileTree) (arguments : CheckArguments) : Except Failure (List Path) :=
  Discovery.search tree arguments.searched

def checkFiles (parser : Parser) (options : Options) (tree : FileTree)
    (arguments : CheckArguments) (targets : List Path) : CheckOutcome :=
  let start := Progress.note { tree } arguments [.checking targets.length]
  match targets.foldlM (Progress.checkFile parser options arguments) start with
  | .ok progress => progress.finish arguments
  | .error (failure, progress) => progress.fail failure

def checkWith (parser : Parser) (options : Options) (tree : FileTree)
    (arguments : CheckArguments) : CheckOutcome :=
  match checkTargets tree arguments with
  | .error failure => Progress.fail { tree } failure
  | .ok targets => checkFiles parser options tree arguments targets

/-- Runs a check.  It fails at once when any path of its arguments has a null character. -/
def check (parser : Parser) (tree : FileTree) (arguments : CheckArguments) : CheckOutcome :=
  if arguments.allPaths.any Path.hasNull then Progress.fail { tree } .nullInPath
  else
    match Config.resolve tree (some arguments.root) arguments.config [] with
    | .error (.failed failure) => Progress.fail { tree } failure
    | .error (.refused error) => { exitCode := 2, err := [printed error.message], tree }
    | .ok options => checkWith parser options tree arguments

end DeclOrder
