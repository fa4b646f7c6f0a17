import TableCompiler.CommandLine.Arguments
import TableCompiler.CommandLine.FileSystem
import TableCompiler.CommandLine.Summary
import TableCompiler.Compile
import TableCompiler.Descriptor.Codec
import TableCompiler.Json.Reading
import TableCompiler.Options.Reading
import TableCompiler.Service.Codec

/-!
# Running a command

* `CommandFailure` — why a command ends without its result;
* `Outcome` — what a command leaves behind: the code, both outputs and the log;
* `FileSystem.record` — logs events;
* `Command.run` — carries out a command on the files of a file system;
* `Invocation.run` — the effect of the arguments.
-/

namespace TableCompiler

/-! ### Failures -/

/-- What a file is read for. -/
inductive InputRole where
  | metadata
  | manifest
  | config
deriving DecidableEq

namespace InputRole

def name : InputRole → String
  | .metadata => "metadata"
  | .manifest => "manifest"
  | .config => "config"

end InputRole

/-- Why a command ends without its result. -/
inductive CommandFailure where
  | logging (fault : FileFault)
  | unreadable (role : InputRole) (file : String) (fault : FileFault)
  | malformed (role : InputRole) (file : String)
  | compilation (entitySet : String) (error : CompileError)
  | unwritable (file : String) (fault : FileFault)

namespace CommandFailure

def message : CommandFailure → String
  | .logging fault => "failed to initialize logging: " ++ fault.message
  | .unreadable role file fault => "read " ++ role.name ++ " " ++ file ++ ": " ++ fault.message
  | .malformed role file => "parse " ++ role.name ++ " " ++ file
  | .compilation set error => "compile table for " ++ set ++ ": " ++ error.message
  | .unwritable file fault => "write " ++ file ++ ": " ++ fault.message

end CommandFailure

/-! ### Outcomes -/

/-- What a command leaves behind. -/
structure Outcome where
  exitCode : Nat := 0
  output : List ReportLine := []
  errors : List ReportLine := []
  /-- The events that were logged. -/
  log : List LogEvent := []

namespace Outcome

def ofFailure (f : CommandFailure) (log : List LogEvent := []) : Outcome where
  exitCode := 1
  errors := [.text ("error: " ++ f.message)]
  log := log

end Outcome

variable {m : Type → Type} [Monad m]

namespace FileSystem

def load {α : Type} (fs : FileSystem m) (role : InputRole) (parse : String → Option α)
    (file : String) : ExceptT CommandFailure m α := do
  match ← fs.read file with
  | .error fault => throw (.unreadable role file fault)
  | .ok text =>
    match parse text with
    | some a => return a
    | none => throw (.malformed role file)

def loadService (fs : FileSystem m) (file : String) : ExceptT CommandFailure m Service :=
  fs.load .metadata (fun text => (Json.ofText? text).bind Service.codec.read) file

def loadManifest (fs : FileSystem m) (file : String) : ExceptT CommandFailure m Manifest :=
  fs.load .manifest (fun text => (Json.ofText? text).bind Manifest.codec.read) file

/-- Reads options; without a file they are the default ones. -/
def loadOptions (fs : FileSystem m) : Option String → ExceptT CommandFailure m CompileOptions
  | none => return {}
  | some file => fs.load .config CompileOptions.ofText? file

/-- Logs the events of a level that is logged, and returns them.  If the log is a file they are
appended to it. -/
def record (fs : FileSystem m) (settings : LogSettings) (events : List LogEvent) :
    m (List LogEvent) := do
  let events := settings.select events
  if let some file := settings.file then
    let _ ← fs.append file (settings.text events)
  return events

end FileSystem

namespace CompileArguments

def request (a : CompileArguments) : TableRequest :=
  .ofParts a.entitySet a.navigationPath a.lineItem a.presentationVariant

/-- Reads what a compilation depends on besides the metadata. -/
def context (a : CompileArguments) (fs : FileSystem m) (service : Service) :
    ExceptT CommandFailure m Context := do
  let manifest ← fs.loadManifest a.manifest
  let options ← fs.loadOptions a.config
  return ⟨service, manifest, options⟩

def report (a : CompileArguments) (options : CompileOptions) (table : Table)
    (issues : List Issue) : CompileReport where
  entitySet := a.entitySet
  navigationPath := a.navigationPath
  table := table
  issues := issues
  output := a.output
  isStrict := a.strict || options.strict

/-- Writes the text of a descriptor to the file that was asked for, or shows it. -/
def publish (a : CompileArguments) (fs : FileSystem m) (text : String) :
    m (Except CommandFailure (List ReportLine)) := do
  match a.output with
  | none => return .ok [.text text]
  | some file =>
    match ← fs.write file (text ++ "\n") with
    | .ok _ => return .ok []
    | .error fault => return .error (.unwritable file fault)

/-- Compiles a table and writes its descriptor, once the metadata is there. -/
def runOn (a : CompileArguments) (settings : LogSettings) (fs : FileSystem m)
    (service : Service) : m Outcome := do
  let loading ← fs.record settings [.ofService service]
  match ← (a.context fs service).run with
  | .error failure => return .ofFailure failure loading
  | .ok context =>
    let result := context.compile a.request
    let issues := result.problems.map (·.issue)
    let log := loading ++ (← fs.record settings (LogEvent.ofCompilation settings.format issues))
    match result.value with
    | .error e => return .ofFailure (.compilation a.entitySet e) log
    | .ok table =>
      match ← a.publish fs (Table.codec.write table).pretty with
      | .error failure => return .ofFailure failure log
      | .ok output =>
        let report := a.report context.options table issues
        return {
          exitCode := if report.hasFailed then 1 else 0
          output := output
          errors := if a.summary then report.summary else []
          log := log }

end CompileArguments

def inspect (settings : LogSettings) (fs : FileSystem m) (service : Service) : m Outcome := do
  let log ← fs.record settings [.ofService service]
  return { output := [.table (SetOverview.table service.overview)], log := log }

namespace Command

def metadata : Command → String
  | .compile a => a.metadata
  | .inspect metadata => metadata

/-- Carries out a command; the log is opened first, by appending nothing to it. -/
def run (c : Command) (settings : LogSettings) (fs : FileSystem m) : m Outcome := do
  let opened ← match settings.file with
    | some file => fs.append file ""
    | none => pure (.ok ())
  match opened with
  | .error fault => return .ofFailure (.logging fault)
  | .ok _ =>
    match ← (fs.loadService c.metadata).run with
    | .error failure => return .ofFailure failure
    | .ok service =>
      match c with
      | .compile a => a.runOn settings fs service
      | .inspect _ => TableCompiler.inspect settings fs service

end Command

/-! ### Invocations -/

def programVersion : String := "annotab 0.1.0"

def usage (name : String) (parameters : List Parameter) : List ReportLine :=
  .text ("Usage: " ++ name ++ " [OPTIONS]") :: .text "" :: .text "Options:" ::
    parameters.map fun p => .text ("  --" ++ p.name)

/-- A description of the program or of one of its commands. -/
def describe : Option String → List ReportLine
  | some "compile" =>
    .text "Compile the table of one entity set" :: .text "" ::
      usage "annotab compile" compileParameters
  | some "inspect" =>
    .text "List entity sets and their line items" :: .text "" ::
      usage "annotab inspect" inspectParameters
  | _ =>
    .text "Compile OData UI annotations into table descriptors" :: .text "" ::
      usage "annotab <COMMAND>" programParameters

namespace Invocation

def run (i : Invocation) (fs : FileSystem m) : m Outcome :=
  match i with
  | .command settings c => c.run settings fs
  | .help topic => return { output := describe topic }
  | .version => return { output := [.text programVersion] }
  | .malformed => return { exitCode := 2, errors := [.text "error: malformed arguments"] }

end Invocation

end TableCompiler
