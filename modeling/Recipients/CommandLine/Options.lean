/-
# Command line options

Five options take a value, which follows as the next argument or after an equals sign; `--send` takes
none. Each may be given once. The next argument is a value unless it starts with a hyphen, a single
hyphen apart. Two hyphens end the options, and nothing may follow them. An option that asks for a page
about the program ends the reading at once, whatever comes after it.

The context is required, a configuration file and receivers exclude one another, and sending requires a
configuration file. That last demand is waived when receivers are given, because they rule the file out.

Key definitions: `Options`, `OptionName`, `Given`, `Given.scan`, `Request`, `Request.parse?`.
-/
import Recipients.CommandLine.Page

namespace Recipients

/-- An option that takes a value. -/
inductive OptionName where
  | context
  | config
  | receivers
  | event
  | arguments
  deriving DecidableEq

namespace OptionName

/-- The option of this name. -/
def ofName? (name : String) : Option OptionName :=
  if name = "context" then some context
  else if name = "config" then some config
  else if name = "receivers" then some receivers
  else if name = "event" then some event
  else if name = "arguments" then some arguments
  else none

/-- Whether the option may be given this value: a file must have a name. -/
def allows (name : OptionName) (value : String) : Bool :=
  name != config || value != ""

end OptionName

/-- The values that were given, and whether `--send` was. -/
structure Given where
  values : List (OptionName × String)
  send : Bool

/-- What the arguments come to: the values that were given, or a page that was asked for. -/
inductive Scanned where
  | given (given : Given)
  | page (page : Page)

namespace Given

/-- The value of an option. -/
def value? (g : Given) (name : OptionName) : Option String :=
  g.values.lookup name

/-- Takes a value for an option that has none yet. -/
def take? (g : Given) (name : OptionName) (value : String) : Option Given :=
  if (g.value? name).isSome || !name.allows value then none
  else some { g with values := (name, value) :: g.values }

/-- Whether the argument can be the value of the option before it. -/
def isValue (argument : String) : Bool :=
  argument == "-" || argument.toList.head? != some '-'

/-- Takes the arguments in order; nothing comes out if one of them is out of place. -/
def scan : List String → Given → Option Scanned
  | [], g => some (.given g)
  | argument :: rest, g =>
    match argument.toList with
    | '-' :: '-' :: name =>
      let key := String.ofList (name.takeWhile (· != '='))
      match name.dropWhile (· != '=') with
      | _ :: value =>
        match OptionName.ofName? key with
        | some option => (g.take? option (String.ofList value)).bind (scan rest)
        | none => none
      | [] =>
        if key = "" then (if rest.isEmpty then some (.given g) else none)
        else if key = "send" then (if g.send then none else scan rest { g with send := true })
        else
          match Page.ofName? key, OptionName.ofName? key, rest with
          | some page, _, _ => some (.page page)
          | none, some option, value :: rest =>
            if isValue value then (g.take? option value).bind (scan rest) else none
          | none, _, _ => none
    | '-' :: letter :: _ => (Page.ofLetter? letter).map .page
    | _ => none

end Given

/-- What a run is asked to do. -/
structure Options where
  context : String
  config : Option String
  receivers : Option String
  event : Option String
  send : Bool
  arguments : Option String
  deriving DecidableEq

namespace Options

/-- The options that the given values make up, if they go together. -/
def ofGiven? (g : Given) : Option Options :=
  let config := g.value? .config
  let receivers := g.value? .receivers
  if config.isSome && receivers.isSome then none
  else if g.send && config.isNone && receivers.isNone then none
  else
    (g.value? .context).map fun context =>
      ⟨context, config, receivers, g.value? .event, g.send, g.value? .arguments⟩

end Options

/-- What a command line asks for. -/
inductive Request where
  | run (options : Options)
  | page (page : Page)
  deriving DecidableEq

namespace Request

/-- The request that the arguments come to, if their values go together. -/
def ofScanned? : Scanned → Option Request
  | .given g => (Options.ofGiven? g).map run
  | .page p => some (page p)

/-- Reads the arguments of a command line; none is the answer to wrong usage. -/
def parse? (arguments : List String) : Option Request :=
  (Given.scan arguments ⟨[], false⟩).bind ofScanned?

end Request

end Recipients
