/-
# The command

Reads the files that the options name, runs the options on them, prints the result and answers the exit
code. A failure is reported on the standard error, and nothing is printed then. A page that was asked for
is printed without a run.
-/
import Recipients.CommandLine.Run

namespace Recipients

/-- The file of this name, if there is one. -/
def readEntry (name : String) : IO (Option FileEntry) := do
  try
    let bytes ← IO.FS.readBinFile name
    return some ((String.fromUTF8? bytes).elim .unreadable .text)
  catch _ =>
    return none

/-- The files of these names. -/
def readEntries (names : List String) : IO Files := do
  let entries ← names.mapM fun name => do return (name, ← readEntry name)
  return fun name => (entries.lookup name).join

end Recipients

open Recipients in
def main (arguments : List String) : IO UInt32 := do
  match Request.parse? arguments with
  | none =>
    IO.eprintln "usage: --context CONTEXT [--config FILE | --receivers MAP] [--event EVENT] [--send] [--arguments VALUE]"
    return 2
  | some (.page page) =>
    IO.print page.text
    return 0
  | some (.run options) =>
    let files ← readEntries (options.context :: options.config.toList)
    let outcome := options.run files
    IO.print outcome.output
    match outcome.failure? with
    | some cause => IO.eprintln cause.message
    | none => pure ()
    return outcome.exitCode.toUInt32
