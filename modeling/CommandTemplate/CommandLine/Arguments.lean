import CommandTemplate.Compile.Basic

/-!
# Command lines

A command line names one template and gives options.  Arguments are taken from left to right, and
the first that is wrong, or that asks for the version or for help, decides.

An option has a long name and mostly a short one.  Its value stands after `=`, right after the
short name, or in the next argument, which then must not begin with `-` unless it is `-` itself.
After `--` there are no more options.
-/

namespace CommandTemplate

/-- An option that takes a value. -/
inductive CommandOption
  | collection
  | path
  | tag
  | stage
  | output
  | config
deriving DecidableEq, Repr

/-- A request to say something about the program itself. -/
inductive Notice
  | version
  | help
deriving DecidableEq, Repr

/-- What an option means. -/
inductive Meaning
  | option (option : CommandOption)
  | notice (notice : Notice)
deriving DecidableEq, Repr

def CommandOption.name : CommandOption → Text
  | .collection => "collection".toList
  | .path => "path".toList
  | .tag => "tag".toList
  | .stage => "stage".toList
  | .output => "output".toList
  | .config => "config".toList

def longNames : List (Text × Meaning) :=
  ("version".toList, .notice .version) :: ("help".toList, .notice .help) ::
    [CommandOption.collection, .path, .tag, .stage, .output, .config].map
      fun option => (option.name, .option option)

def shortNames : List (Char × Meaning) :=
  [('c', .option .collection), ('p', .option .path), ('t', .option .tag), ('s', .option .stage),
    ('o', .option .output), ('V', .notice .version), ('h', .notice .help)]

inductive UsageError
  | unknownOption (argument : Text)
  | noValue (option : CommandOption)
  | unexpectedValue (argument : Text)
  | badValue (option : CommandOption) (value : Text)
  | repeated (option : CommandOption)
  | extraArgument (argument : Text)
  | noTemplate
deriving DecidableEq, Repr

structure Invocation where
  template : Text
  collections : List Text
  paths : List PathArgument
  tags : List (Text × Text)
  stages : List Text
  output : OutputView
  config : Option Text
deriving DecidableEq

inductive Command
  | notice (notice : Notice)
  | render (invocation : Invocation)

def OutputView.name : OutputView → Text
  | .text => "text".toList
  | .stages => "stages".toList
  | .filters => "filters".toList

def OutputView.named? (name : Text) : Option OutputView :=
  [text, stages, filters].find? fun view => view.name = name

inductive ArgumentShape
  /-- The argument after which there are no options. -/
  | endOfOptions
  /-- A long name, with the value after its `=`. -/
  | long (name : Text) (value : Option Text)
  /-- A short name, with the value that stands right after it. -/
  | short (name : Char) (value : Option Text)
  | plain (text : Text)

def ArgumentShape.of : Text → ArgumentShape
  | ['-', '-'] => .endOfOptions
  | '-' :: '-' :: rest =>
    match Text.cut? '=' rest with
    | some (name, value) => .long name (some value)
    | none => .long rest none
  | ['-', name] => .short name none
  | '-' :: name :: '=' :: value => .short name (some value)
  | '-' :: name :: value => .short name (some value)
  | text => .plain text

/-- The part of a command line that is read already. -/
structure Draft where
  template : Option Text
  collections : List Text
  paths : List PathArgument
  tags : List (Text × Text)
  stages : List Text
  output : Option OutputView
  config : Option Text

namespace Draft

/-- The beginning of a command line. -/
def empty : Draft :=
  ⟨none, [], [], [], [], none, none⟩

/-- Takes the value of an option.  Values of options that may be repeated are kept in order. -/
def give (option : CommandOption) (value : Text) (draft : Draft) : Except UsageError Draft :=
  match option with
  | .collection => .ok { draft with collections := draft.collections ++ [value] }
  | .stage => .ok { draft with stages := draft.stages ++ [value] }
  | .path =>
    match PathArgument.parse value with
    | .ok path => .ok { draft with paths := draft.paths ++ [path] }
    | .error _ => .error (.badValue option value)
  | .tag =>
    match readTagArgument value with
    | .ok tag => .ok { draft with tags := draft.tags ++ [tag] }
    | .error _ => .error (.badValue option value)
  | .output =>
    match draft.output, OutputView.named? value with
    | some _, _ => .error (.repeated option)
    | none, some view => .ok { draft with output := some view }
    | none, none => .error (.badValue option value)
  | .config =>
    match draft.config, value with
    | some _, _ => .error (.repeated option)
    | none, [] => .error (.badValue option value)
    | none, file => .ok { draft with config := some file }

/-- Takes an argument that belongs to no option. -/
def place (argument : Text) (draft : Draft) : Except UsageError Draft :=
  match draft.template with
  | some _ => .error (.extraArgument argument)
  | none => .ok { draft with template := some argument }

/-- The invocation that a whole command line asks for. -/
def finish (draft : Draft) : Except UsageError Command :=
  match draft.template with
  | none => .error .noTemplate
  | some template =>
    .ok (.render
      ⟨template, draft.collections, draft.paths, draft.tags, draft.stages,
        draft.output.getD .text, draft.config⟩)

end Draft

inductive Expectation
  | anything
  | valueOf (option : CommandOption)
  /-- No option. -/
  | operand

namespace Command

def readAfter (draft : Draft) : Expectation → List Text → Except UsageError Command
  | .valueOf option, [] => .error (.noValue option)
  | .anything, [] | .operand, [] => draft.finish
  | .operand, argument :: arguments =>
    match draft.place argument with
    | .ok draft => readAfter draft .operand arguments
    | .error error => .error error
  | .valueOf option, argument :: arguments =>
    match ArgumentShape.of argument with
    | .plain value =>
      match draft.give option value with
      | .ok draft => readAfter draft .anything arguments
      | .error error => .error error
    | _ => .error (.noValue option)
  | .anything, argument :: arguments =>
    match ArgumentShape.of argument with
    | .endOfOptions => readAfter draft .operand arguments
    | .plain text =>
      match draft.place text with
      | .ok draft => readAfter draft .anything arguments
      | .error error => .error error
    | .long name value =>
      match longNames.lookup name, value with
      | none, _ => .error (.unknownOption argument)
      | some (.notice about), none => .ok (.notice about)
      | some (.notice _), some _ => .error (.unexpectedValue argument)
      | some (.option chosen), none => readAfter draft (.valueOf chosen) arguments
      | some (.option chosen), some value =>
        match draft.give chosen value with
        | .ok draft => readAfter draft .anything arguments
        | .error error => .error error
    | .short name value =>
      match shortNames.lookup name, value with
      | none, _ => .error (.unknownOption argument)
      | some (.notice about), _ => .ok (.notice about)
      | some (.option chosen), none => readAfter draft (.valueOf chosen) arguments
      | some (.option chosen), some value =>
        match draft.give chosen value with
        | .ok draft => readAfter draft .anything arguments
        | .error error => .error error

def read (arguments : List Text) : Except UsageError Command :=
  readAfter .empty .anything arguments

end Command
end CommandTemplate
