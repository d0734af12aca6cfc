/-
# Pages about the program

Two pages can be asked for in place of a run: the list of the options with what each one is for, and the
name with the version. In the list every purpose starts in one column, two blanks after the longest
option.

Key definitions: `Page`, `Page.ofName?`, `Page.ofLetter?`, `optionList`, `Page.text`.
-/
namespace Recipients

/-- A page about the program. -/
inductive Page where
  | help
  | version
  deriving DecidableEq

/-- The options as the list writes them, each with its purpose. An option without a short form is
indented by the width of one. -/
def optionList : List (String × String) :=
  [("    --context <CONTEXT>", "Context object graph: a JSON document, or a path to a file holding one"),
   ("    --config <CONFIG>", "Notification config file (JSON)"),
   ("    --receivers <RECEIVERS>", "Raw receiver mapping as JSON, e.g. " ++
      "'\x7b\"\x7b\x7bowner.email\x7d\x7d\": \"\x7b\x7bowner.full_name\x7d\x7d\"\x7d'"),
   ("    --event <EVENT>", "Event that triggered the notification"),
   ("    --send", "Build the full message and pass it to a dry-run mailer"),
   ("    --arguments <ARGUMENTS>", "Template arguments for --send (JSON) [default: \x7b\x7d]"),
   ("-h, --help", "Print help"),
   ("-V, --version", "Print version")]

/-- The length of the longest option in the list. -/
def optionWidth : Nat :=
  optionList.foldl (fun width entry => max width entry.1.length) 0

/-- The line of an option. -/
def optionLine (entry : String × String) : String :=
  let gap := String.ofList (List.replicate (optionWidth + 2 - entry.1.length) ' ')
  "  " ++ entry.1 ++ gap ++ entry.2 ++ "\n"

namespace Page

/-- The page that the option of this name asks for. -/
def ofName? (name : String) : Option Page :=
  if name = "help" then some help
  else if name = "version" then some version
  else none

/-- The page that the short option of this letter asks for. -/
def ofLetter? (letter : Char) : Option Page :=
  if letter = 'h' then some help
  else if letter = 'V' then some version
  else none

/-- What the page says. -/
def text : Page → String
  | help =>
    "Resolve notification receivers against a JSON context\n\n" ++
      "Usage: rdet [OPTIONS] --context <CONTEXT>\n\nOptions:\n" ++
      String.join (optionList.map optionLine)
  | version => "receiver-determination 0.1.0\n"

end Page

end Recipients
