import ApiClient.CommandLine.Outcome

namespace ApiClient.CommandLine

def readText (path : String) : IO (Option String) := do
  try
    return some (← IO.FS.readFile path)
  catch _ =>
    return none

def writeText (root file : String) (rendered : Except Failure String) : IO Render.UnitOutcome := do
  match rendered with
  | .error failure => return ⟨file, some failure.message⟩
  | .ok text =>
    let target := joinPath root file
    try
      IO.FS.createDirAll (parentPath target)
      IO.FS.writeFile target text
      return ⟨file, none⟩
    catch e =>
      return ⟨file,
        some (Failure.render ("Failed to write " ++ target ++ ": " ++ toString e)).message⟩

def fail (message : String) (code : Nat) : IO UInt32 := do
  IO.eprintln ("Error: " ++ message)
  return UInt32.ofNat code

def writeClient (r : Request) (c : Config) (client : Client) : IO UInt32 := do
  try
    IO.FS.createDirAll r.output
  catch e =>
    return ← fail ("Failed to create output directory: " ++ toString e) failed
  let units ← (Render.files c client).mapM fun (file, rendered) => writeText r.output file rendered
  IO.print (lines (Request.reportLines r.output ⟨units⟩))
  return UInt32.ofNat (Request.exitCode ⟨units⟩)

def runRequest (r : Request) : IO UInt32 := do
  let spec ← readText r.spec
  let config ← (r.config.mapM readText)
  let draft := r.draft fun path => if path = r.spec then spec else config.join
  IO.print draft.stdout
  match draft.result with
  | .error failure => fail failure.message failed
  | .ok none => return 0
  | .ok (some (c, client)) => writeClient r c client

end ApiClient.CommandLine

open ApiClient.CommandLine in
def main (args : List String) : IO UInt32 := do
  match Request.ofArguments false args with
  | .error .help =>
    IO.print usage
    return 0
  | .error .wrong => fail "wrong arguments; see --help" wrongUse
  | .ok r => runRequest r
