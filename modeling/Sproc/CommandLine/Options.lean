import Sproc.Config

/-!
# Command line options

Options may stand before, between and behind the input files. A short option may carry its value in
the same word, with or without an equals sign, and short options without values may share a word. A
long option may carry its value behind an equals sign. A value in a word of its own does not start
with a dash, unless it is just a dash. Each option may be given once, and everything behind a double
dash is an input file.

## Main definitions

* `Options`, `Options.parse`
-/

namespace Sproc.CommandLine

/-- The form of the output. -/
inductive Format where
  | text
  | json
  deriving DecidableEq, Repr

/-- What a command line asks for. -/
structure Options where
  files : List String := []
  /-- Path of the configuration file. -/
  config : Option String := none
  backend : Option Backend := none
  dialect : Option Dialect := none
  /-- Package clause of the generated file. -/
  package : Option String := none
  logHook : Bool := false
  /-- Path of the generated file. -/
  output : Option String := none
  format : Option Format := none
  denyWarnings : Bool := false
  verbose : Bool := false

/-- An option. -/
inductive Opt where
  | config
  | backend
  | dialect
  | package
  | logHook
  | output
  | format
  | denyWarnings
  | verbose
  | help
  | version
  deriving DecidableEq, Repr

/-- Why a command line is not carried out. -/
inductive Stop where
  /-- It is no valid command line. -/
  | usage
  | help
  | version
  deriving DecidableEq, Repr

namespace Opt

/-- The option of a long name. -/
def ofLong? : String → Option Opt
  | "config" => some config
  | "backend" => some backend
  | "dialect" => some dialect
  | "package" => some package
  | "log-hook" => some logHook
  | "output" => some output
  | "format" => some format
  | "deny-warnings" => some denyWarnings
  | "verbose" => some verbose
  | "help" => some help
  | "version" => some version
  | _ => none

/-- The option of a letter. -/
def ofShort? : Char → Option Opt
  | 'c' => some config
  | 'b' => some backend
  | 'd' => some dialect
  | 'p' => some package
  | 'o' => some output
  | 'f' => some format
  | 'v' => some verbose
  | 'h' => some help
  | 'V' => some version
  | _ => none

/-- Whether an option has a value. -/
def takesValue : Opt → Bool
  | config | backend | dialect | package | output | format => true
  | _ => false

end Opt

namespace Options

/-- Sets an option that is not set yet to a value that could be read. -/
def once {α : Type} (old value : Option α) (set : Option α → Options) : Except Stop Options :=
  match old, value with
  | none, some value => .ok (set (some value))
  | _, _ => .error .usage

/-- A path, which is not empty. -/
def path? (value : String) : Option String :=
  if value.isEmpty then none else some value

/-- The form of a name. -/
def format? : String → Option Format
  | "text" => some .text
  | "json" => some .json
  | _ => none

/-- Sets an option with a value. -/
def setValue (options : Options) (opt : Opt) (value : String) : Except Stop Options :=
  match opt with
  | .config => once options.config (path? value) fun config => { options with config }
  | .backend =>
    once options.backend (Backend.parse value).toOption fun backend => { options with backend }
  | .dialect =>
    once options.dialect (Dialect.parse value).toOption fun dialect => { options with dialect }
  | .package => once options.package (some value) fun package => { options with package }
  | .output => once options.output (path? value) fun output => { options with output }
  | .format => once options.format (format? value) fun format => { options with format }
  | _ => .error .usage

/-- Sets an option without value. -/
def setFlag (options : Options) (opt : Opt) : Except Stop Options :=
  match opt with
  | .logHook => if options.logHook then .error .usage else .ok { options with logHook := true }
  | .denyWarnings =>
    if options.denyWarnings then .error .usage else .ok { options with denyWarnings := true }
  | .verbose => if options.verbose then .error .usage else .ok { options with verbose := true }
  | .help => .error .help
  | .version => .error .version
  | _ => .error .usage

/-- Adds an input file. -/
def addFile (options : Options) (file : String) : Except Stop Options :=
  match path? file with
  | some file => .ok { options with files := options.files ++ [file] }
  | none => .error .usage

/-- Adds input files. -/
def addFiles (options : Options) (files : List String) : Except Stop Options :=
  files.foldlM addFile options

/-- A word that is no value: it starts with a dash and goes on. -/
def isDashed (word : String) : Bool :=
  Text.beginsWith "-" word && word ≠ "-"

/-- Reads the short options of a word. Returns the option whose value is in the next word, if there
is one. -/
def shortCluster (options : Options) : List Char → Except Stop (Options × Option Opt)
  | [] => .ok (options, none)
  | c :: rest =>
    match Opt.ofShort? c with
    | none => .error .usage
    | some opt =>
      if opt.takesValue then
        match rest with
        | [] => .ok (options, some opt)
        | '=' :: value => (options.setValue opt (String.ofList value)).map (·, none)
        | value => (options.setValue opt (String.ofList value)).map (·, none)
      else do
        shortCluster (← options.setFlag opt) rest

/-- Reads a long option without its dashes. Returns the option whose value is in the next word, if
there is one. -/
def longOption (options : Options) (word : List Char) : Except Stop (Options × Option Opt) :=
  match Opt.ofLong? (String.ofList (word.takeWhile (· ≠ '='))), word.dropWhile (· ≠ '=') with
  | none, _ => .error .usage
  | some opt, [] =>
    if opt.takesValue then .ok (options, some opt) else (options.setFlag opt).map (·, none)
  | some opt, _ :: value =>
    if opt.takesValue then (options.setValue opt (String.ofList value)).map (·, none)
    else .error .usage

/-- Reads words, the first of which may be the value of an option. -/
def words (options : Options) (pending : Option Opt) : List String → Except Stop Options
  | [] =>
    match pending with
    | some _ => .error .usage
    | none => .ok options
  | word :: rest =>
    match pending with
    | some opt =>
      if isDashed word then .error .usage
      else do
        words (← options.setValue opt word) none rest
    | none =>
      match word.toList with
      | ['-', '-'] => options.addFiles rest
      | '-' :: '-' :: long => do
        let (options, pending) ← options.longOption long
        words options pending rest
      | '-' :: c :: short => do
        let (options, pending) ← options.shortCluster (c :: short)
        words options pending rest
      | _ => do
        words (← options.addFile word) none rest

/-- Takes the path of the configuration file from the environment when no option gives it. -/
def withDefaultConfig (options : Options) (path : Option String) : Except Stop Options :=
  match options.config, path with
  | none, some path => options.setValue .config path
  | _, _ => .ok options

/-- Reads a command line. `configPath` is the path of the configuration file that the environment
gives. At least one input file is needed. -/
def parse (args : List String) (configPath : Option String) : Except Stop Options := do
  let options ← words {} none args
  let options ← options.withDefaultConfig configPath
  if options.files.isEmpty then throw .usage
  return options

end Options

end Sproc.CommandLine
