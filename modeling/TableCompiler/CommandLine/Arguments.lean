import TableCompiler.AnnotationPath
import TableCompiler.CommandLine.Log

/-!
# Arguments of the command line

* `Parameter` — an option or switch that a command has;
* `Parameter.scan` — reads options up to the first word that is none;
* `Command` — what is to be done;
* `Invocation.ofArguments` — the meaning of the arguments.

Options for the log may stand before the command or among its own; the latter count.
-/

namespace TableCompiler

/-! ### Parameters -/

/-- The values that an option takes. -/
inductive ValueKind where
  | text
  /-- The name of a file, which is not empty. -/
  | file
  | oneOf (choices : List String)
  | annotationPath

namespace ValueKind

def accepts : ValueKind → String → Bool
  | .text, _ => true
  | .file, value => value != ""
  | .oneOf choices, value => choices.contains value
  | .annotationPath, value =>
    match AnnotationPath.ofText value with
    | .ok _ => true
    | .error _ => false

end ValueKind

/-- What a parameter does. -/
inductive ParameterAction where
  | value (kind : ValueKind)
  /-- A switch that may be given once. -/
  | switch
  /-- A switch that may be repeated. -/
  | counter
  | help
  | version

/-- An option or switch. -/
structure Parameter where
  name : String
  short : Option Char := none
  action : ParameterAction
  required : Bool := false

/-- The options given, in order, with their values; those of switches are empty. -/
abbrev Given := List (String × String)

/-- What a list of arguments begins with. -/
inductive Scan where
  /-- Options, and the arguments from the first word on that is none. -/
  | done (given : Given) (rest : List String)
  | help
  | version
  | malformed

/-- The effect of one argument. -/
inductive ArgumentEffect where
  | given (given : Given)
  /-- The value of an option is the next argument. -/
  | awaiting (name : String) (kind : ValueKind)
  | word
  | help
  | version
  | malformed

namespace Parameter

/-- The effect of a parameter with the value attached to it, if any. -/
def apply (given : Given) (p : Parameter) (attached : Option String) : ArgumentEffect :=
  match p.action, attached with
  | .value kind, none =>
    if given.any (·.1 == p.name) then .malformed else .awaiting p.name kind
  | .value kind, some value =>
    if given.any (·.1 == p.name) || !kind.accepts value then .malformed
    else .given (given ++ [(p.name, value)])
  | .switch, none =>
    if given.any (·.1 == p.name) then .malformed else .given (given ++ [(p.name, "")])
  | .counter, none => .given (given ++ [(p.name, "")])
  | .help, none => .help
  | .version, none => .version
  | _, some _ => .malformed

/-- The effect of a parameter given by its long name, with a value after an equals sign. -/
def applyLong (parameters : List Parameter) (given : Given) (text : String) : ArgumentEffect :=
  let (name, attached) := match Text.cut? '=' text with
    | some (name, value) => (name, some value)
    | none => (text, none)
  match parameters.find? (·.name == name) with
  | some p => p.apply given attached
  | none => .malformed

/-- The effect of switches given by their letters. -/
def applyShort (parameters : List Parameter) (given : Given) : List Char → ArgumentEffect
  | [] => .given given
  | c :: rest =>
    match parameters.find? (·.short == some c) with
    | none => .malformed
    | some p =>
      match p.apply given none with
      | .given given => applyShort parameters given rest
      | effect => effect

def effect (parameters : List Parameter) (given : Given) (argument : String) : ArgumentEffect :=
  match argument.toList with
  | '-' :: '-' :: name => applyLong parameters given (String.ofList name)
  | '-' :: c :: rest => applyShort parameters given (c :: rest)
  | _ => .word

/-- Whether an argument can be the value of an option before it. -/
def isValue (argument : String) : Bool :=
  argument == "-" || !Text.startsWith "-" argument

/-- Reads options up to the first word that is none.  Two dashes end the options. -/
def scan (parameters : List Parameter) (given : Given) : List String → Scan
  | [] => .done given []
  | "--" :: rest => if rest.isEmpty then .done given [] else .malformed
  | argument :: rest =>
    match effect parameters given argument with
    | .given given => scan parameters given rest
    | .word => .done given (argument :: rest)
    | .help => .help
    | .version => .version
    | .malformed => .malformed
    | .awaiting name kind =>
      match rest with
      | value :: rest =>
        if isValue value && kind.accepts value then
          scan parameters (given ++ [(name, value)]) rest
        else .malformed
      | [] => .malformed

end Parameter

/-! ### The parameters of the program -/

def sharedParameters : List Parameter := [
  ⟨"verbose", some 'v', .counter, false⟩,
  ⟨"quiet", some 'q', .counter, false⟩,
  ⟨"color", none, .value (.oneOf ["auto", "always", "never"]), false⟩,
  ⟨"log-level", none, .value (.oneOf ["error", "warn", "info", "debug", "trace"]), false⟩,
  ⟨"log-format", none, .value (.oneOf (LogFormat.all.map (·.name))), false⟩,
  ⟨"log-file", none, .value .file, false⟩,
  ⟨"help", some 'h', .help, false⟩]

def programParameters : List Parameter :=
  sharedParameters ++ [⟨"version", some 'V', .version, false⟩]

def compileParameters : List Parameter := sharedParameters ++ [
  ⟨"metadata", none, .value .file, true⟩,
  ⟨"manifest", none, .value .file, true⟩,
  ⟨"entity-set", none, .value .text, true⟩,
  ⟨"navigation-path", none, .value .text, false⟩,
  ⟨"line-item", none, .value .annotationPath, false⟩,
  ⟨"presentation-variant", none, .value .annotationPath, false⟩,
  ⟨"config", none, .value .file, false⟩,
  ⟨"output", none, .value .file, false⟩,
  ⟨"summary", none, .switch, false⟩,
  ⟨"strict", none, .switch, false⟩]

def inspectParameters : List Parameter :=
  sharedParameters ++ [⟨"metadata", none, .value .file, true⟩]

/-! ### Commands -/

/-- Arguments of the command that compiles a table. -/
structure CompileArguments where
  metadata : String
  manifest : String
  entitySet : String
  navigationPath : Option String := none
  lineItem : Option AnnotationPath := none
  presentationVariant : Option AnnotationPath := none
  config : Option String := none
  output : Option String := none
  summary : Bool := false
  strict : Bool := false

/-- What is to be done. -/
inductive Command where
  | compile (a : CompileArguments)
  | inspect (metadata : String)

namespace Given

def value? (g : Given) (name : String) : Option String := g.lookup name

def count (g : Given) (name : String) : Nat := g.countP (·.1 == name)

def annotationPath? (g : Given) (name : String) : Option AnnotationPath :=
  (g.value? name).bind fun text => (AnnotationPath.ofText text).toOption

/-- Whether the options contradict each other or lack one that is required. -/
def isMalformed (g : Given) (parameters : List Parameter) : Bool :=
  (parameters.any fun p => p.required && (g.value? p.name).isNone)
    || (0 < g.count "verbose" && 0 < g.count "quiet")

def compile? (g : Given) : Option Command := do
  return .compile {
    metadata := ← g.value? "metadata"
    manifest := ← g.value? "manifest"
    entitySet := ← g.value? "entity-set"
    navigationPath := g.value? "navigation-path"
    lineItem := g.annotationPath? "line-item"
    presentationVariant := g.annotationPath? "presentation-variant"
    config := g.value? "config"
    output := g.value? "output"
    summary := 0 < g.count "summary"
    strict := 0 < g.count "strict" }

def inspect? (g : Given) : Option Command :=
  (g.value? "metadata").map .inspect

end Given

namespace LogSettings

/-- The value of an option among those of the command, or else among those before it. -/
def shared? (outer inner : Given) (name : String) : Option String :=
  (inner.value? name).or (outer.value? name)

/-- How often a switch was given among the options of the command, or else before it. -/
def sharedCount (outer inner : Given) (name : String) : Nat :=
  if 0 < inner.count name then inner.count name else outer.count name

/-- The settings of the log.  A level that is named counts more than repeated switches. -/
def ofGiven (outer inner : Given) : LogSettings where
  level := ((shared? outer inner "log-level").bind LogLevel.ofName?).getD <|
    .ofVerbosity (sharedCount outer inner "verbose") (sharedCount outer inner "quiet")
  format := ((shared? outer inner "log-format").bind LogFormat.ofName?).getD .pretty
  file := shared? outer inner "log-file"

end LogSettings

/-! ### Invocations -/

/-- The meaning of the arguments. -/
inductive Invocation where
  | command (log : LogSettings) (command : Command)
  /-- A description of the program or of one of its commands is wanted. -/
  | help (topic : Option String)
  | version
  | malformed

namespace Invocation

def ofCommand (outer : Given) (name : String) (parameters : List Parameter)
    (command : Given → Option Command) (arguments : List String) : Invocation :=
  match Parameter.scan parameters [] arguments with
  | .help => .help (some name)
  | .done given [] =>
    if given.isMalformed parameters || Given.isMalformed outer programParameters then .malformed
    else match command given with
      | some command => .command (.ofGiven outer given) command
      | none => .malformed
  | _ => .malformed

/-- The meaning of the arguments after the word that asks for help. -/
def ofHelp : List String → Invocation
  | [] => .help none
  | [name] =>
    if name = "help" then .help none
    else if name = "compile" ∨ name = "inspect" then .help (some name)
    else .malformed
  | _ => .malformed

def ofArguments (arguments : List String) : Invocation :=
  match Parameter.scan programParameters [] arguments with
  | .help => .help none
  | .version => .version
  | .done outer ("compile" :: rest) =>
    ofCommand outer "compile" compileParameters Given.compile? rest
  | .done outer ("inspect" :: rest) =>
    ofCommand outer "inspect" inspectParameters Given.inspect? rest
  | .done _ ("help" :: rest) => ofHelp rest
  | _ => .malformed

end Invocation

end TableCompiler
