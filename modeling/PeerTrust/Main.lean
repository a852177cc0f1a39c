import PeerTrust.Probe.Run

/-!
# The probe as a program

The files that a run may look at are read before it, and its report is printed after it. No network
is attached, so that a run that gets as far as connecting reports a failed connection.
-/

namespace PeerTrust.Probe

/-- A file put into the tree, if it can be read. -/
def addFile (fs : FileSystem) (path : FilePath) : IO FileSystem := do
  try
    let content ← IO.FS.readBinFile path.text
    return fs.write path content.toList
  catch _ => return fs

/-- A directory put into the tree with the files in it, or a file. -/
def addPath (fs : FileSystem) (path : FilePath) : IO FileSystem := do
  try
    let dir ← IO.FS.realPath path.text
    if ← dir.isDir then
      let entries ← dir.readDir
      entries.toList.foldlM (fun fs e => addFile fs (path.join e.fileName)) (fs.makeDirectory path)
    else addFile fs path
  catch _ => return fs

/-- The files that a command line may lead to. -/
def gather (arguments : List String) : IO FileSystem := do
  match Request.ofArguments arguments with
  | .run o =>
    let fs ← addFile .empty o.configPath
    match Config.load fs o.configPath with
    | .ok config => (config.client.present ++ config.callHome.present).foldlM addPath fs
    | .error _ => return fs
  | _ => return .empty

/-- A network that nothing is attached to. -/
def noNetwork (_host : String) (_port : UInt16) : Reach := .failed .connectionRefused

end PeerTrust.Probe

open PeerTrust.Probe in
/-- Runs the probe and prints its report. Without a network it does not matter when that is. -/
def main (arguments : List String) : IO UInt32 := do
  let outcome := run (← gather arguments) 0 noNetwork arguments
  IO.print outcome.output
  for line in outcome.lines do
    IO.println line.display
  if let some e := outcome.failure then
    IO.eprintln s!"Error: {e.message}"
  return UInt32.ofNat outcome.exit
