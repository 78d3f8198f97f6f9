import CommandTemplate.Cache.Key
import CommandTemplate.CommandLine.Arguments
import CommandTemplate.CommandLine.FileTree
import CommandTemplate.Compile.DefaultTags

/-!
# Running a command line

A run reads the configuration file, if one is given, then the template, and then compiles the
template.  The first failure ends it, and is reported with its causes, each on a line of its own.
-/

namespace CommandTemplate

inductive RunError
  | configFile (file : Text) (fault : FileFault)
  | invalidConfig (file : Text)
  | templateFile (file : Text) (fault : FileFault)
  | input (fault : FileFault)
  | render (template : Text) (error : CompileError)
deriving DecidableEq

namespace RunError

/-- The wording of an error, with the wordings of its causes after it. -/
def wording : RunError → Text × List Text
  | .configFile file fault => ("Failed to read config file ".toList ++ file, [fault.message])
  | .invalidConfig file =>
    ("Invalid config file ".toList ++ file,
      ["it is no TOML file whose one key is a table of tags".toList])
  | .templateFile file fault => ("Failed to read template file ".toList ++ file, [fault.message])
  | .input fault => ("Failed to read template from stdin".toList, [fault.message])
  | .render template error => ("Failed to render template ".toList ++ template, error.chain)

/-- A number at the end of five places. -/
def numberColumn (n : Nat) : Text :=
  let digits := Text.ofNat n
  List.replicate (5 - digits.length) ' ' ++ digits

/-- Causes on lines of their own, numbered from `n` on. -/
def numbered : Nat → List Text → Text
  | _, [] => []
  | n, cause :: causes =>
    '\n' :: (numberColumn n ++ ':' :: ' ' :: Text.indent (List.replicate 7 ' ') cause) ++
      numbered (n + 1) causes

/-- Causes on lines of their own; a single one has no number. -/
def causeLines : List Text → Text
  | [] => []
  | [cause] =>
    let margin := List.replicate 4 ' '
    "\n\nCaused by:\n".toList ++ margin ++ Text.indent margin cause
  | causes => "\n\nCaused by:".toList ++ numbered 0 causes

def report (error : RunError) : Text :=
  "Error: ".toList ++ error.wording.1 ++ causeLines error.wording.2 ++ ['\n']

end RunError

def UsageError.message : UsageError → Text
  | .unknownOption argument => "unexpected argument '".toList ++ argument ++ "' found".toList
  | .noValue option => long option ++ " needs a value".toList
  | .unexpectedValue argument => "unexpected value in '".toList ++ argument ++ ['\x27']
  | .badValue option value =>
    "invalid value '".toList ++ value ++ "' for ".toList ++ long option
  | .repeated option => long option ++ " cannot be used multiple times".toList
  | .extraArgument argument => "unexpected argument '".toList ++ argument ++ "' found".toList
  | .noTemplate => "no template is given".toList
where
  long (option : CommandOption) : Text :=
    '-' :: '-' :: option.name

def versionLine : Text :=
  "mql-render 0.1.0\n".toList

def usage : Text :=
  ("Usage: mql-render [OPTIONS] <TEMPLATE>\n\n" ++
    "  <TEMPLATE>                  template file ('-' for stdin)\n" ++
    "  -c, --collection <NAME>     replace <NAME> with a collection name\n" ++
    "  -p, --path <FORM:PATH>      replace a field path tag\n" ++
    "  -t, --tag <NAME=VALUE>      set a value tag\n" ++
    "  -s, --stage <JSON>          append a pipeline stage\n" ++
    "  -o, --output <VIEW>         what to print: text, stages or filters\n" ++
    "      --config <FILE>         file with default values of tags\n" ++
    "  -h, --help                  print this summary\n" ++
    "  -V, --version               print the version\n").toList

/-- What a run leaves behind. -/
structure Outcome where
  status : Nat
  output : Text
  errors : Text
deriving DecidableEq

namespace Outcome

def success (output : Text) : Outcome :=
  ⟨0, output, []⟩

def failure (error : RunError) : Outcome :=
  ⟨1, [], error.report⟩

def refusal (error : UsageError) : Outcome :=
  ⟨2, [], "error: ".toList ++ error.message ++ "\n\n".toList ++ usage⟩

end Outcome

namespace Invocation

variable {m : Type → Type} [Monad m]

def readDefaults (surroundings : Surroundings m) (invocation : Invocation) :
    m (Except RunError (List (Text × Text))) :=
  match invocation.config with
  | none => pure (.ok [])
  | some file => do
    match ← surroundings.file file with
    | .error fault => return .error (.configFile file fault)
    | .ok content =>
      match DefaultTags.read? content with
      | some tags => return .ok tags
      | none => return .error (.invalidConfig file)

/-- Reads the template, from standard input if its name is `-`. -/
def readTemplate (surroundings : Surroundings m) (invocation : Invocation) :
    m (Except RunError Text) := do
  if invocation.template = ['-'] then
    return (← surroundings.input).mapError .input
  else
    return (← surroundings.file invocation.template).mapError
      (.templateFile invocation.template)

/-- Compiles a template with the given default values of tags. -/
def compile (invocation : Invocation) (defaults : List (Text × Text)) (source : Text) :
    Except RunError Text :=
  let request : CompileRequest :=
    ⟨invocation.collections, invocation.paths, invocation.stages, defaults, invocation.tags⟩
  (CommandTemplate.compile defaultKey source request invocation.output .unbounded).1.mapError
    (.render invocation.template)

def run (surroundings : Surroundings m) (invocation : Invocation) : m Outcome := do
  match ← invocation.readDefaults surroundings with
  | .error error => return .failure error
  | .ok defaults =>
    match ← invocation.readTemplate surroundings with
    | .error error => return .failure error
    | .ok source =>
      match invocation.compile defaults source with
      | .error error => return .failure error
      | .ok output => return .success (output ++ ['\n'])

end Invocation

def runCommandLine {m : Type → Type} [Monad m] (surroundings : Surroundings m)
    (arguments : List Text) : m Outcome :=
  match Command.read arguments with
  | .error error => pure (.refusal error)
  | .ok (.notice .version) => pure (.success versionLine)
  | .ok (.notice .help) => pure (.success usage)
  | .ok (.render invocation) => invocation.run surroundings

end CommandTemplate
