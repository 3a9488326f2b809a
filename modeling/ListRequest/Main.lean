import ListRequest.Session

/-! # The command line

Runs a session on standard input and output. The only argument is the path of a configuration file.
-/

namespace ListRequest.Main
set_option autoImplicit false

/-- The class of a fault, in angle brackets where a JSON library would have words of its own. -/
def faultClass : Json.Fault → String
  | .endOfText => "<eof>"
  | .malformed => "<syntax>"
  | .wrongShape => "<data>"

def explain : Session.Explanations where
  line _ := faultClass
  configuration _ := faultClass

/-- Why the system could not read a file. -/
def fileFault : IO.Error → FileFault
  | .noFileOrDirectory .. => .missing
  | .permissionDenied _ code words => .system words code.toNat
  | .inappropriateType _ code words => .system words code.toNat
  | e => .other (toString e)

/-- Loads the configuration file at a path. -/
def load (path : String) : IO Session.Configuration := do
  let content ← (IO.FS.readBinFile path).toBaseIO
  let outcome := Parameters.ofFile path (content.mapError fileFault)
  if let .error e := outcome then
    IO.eprintln (e.message explain.configuration)
  return { path, outcome }

/-- Prints the answer to a line; the exit code when the session ends with it. -/
def respond (names : Parameters) (line : List UInt8) : IO (Option UInt32) := do
  match Session.turn explain names line with
  | .reply text =>
    let out ← IO.getStdout
    out.putStr text
    out.flush
    return none
  | .quit => return some 0
  | .unreadable =>
    IO.eprintln "input is not valid UTF-8"
    return some 1
  | .torn =>
    IO.eprintln "a backspace cuts a character apart"
    return some 101

/-- Answers the lines of `input` after those that have been read. -/
partial def converse (names : Parameters) (input : IO.FS.Stream) (unread : List UInt8) :
    IO UInt32 := do
  match unread.span (· ≠ 10) with
  | (line, _ :: rest) =>
    match ← respond names line with
    | some code => return code
    | none => converse names input rest
  | (line, []) =>
    let chunk ← input.read 65536
    if chunk.isEmpty then
      if line.isEmpty then return 0
      return (← respond names line).getD 0
    else converse names input (line ++ chunk.toList)

end ListRequest.Main

/-- Greets and answers requests until the input ends or asks to quit. -/
def main (args : List String) : IO UInt32 := do
  let configuration ← args.head?.mapM ListRequest.Main.load
  IO.print (ListRequest.Session.greeting ListRequest.Main.explain configuration)
  (← IO.getStdout).flush
  let names := ListRequest.Session.names configuration
  ListRequest.Main.converse names (← IO.getStdin) []
