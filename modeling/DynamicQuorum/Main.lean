/-
  DynamicQuorum/Main.lean
  =======================
  **The program on a real disk.**

  The places that a run may read are copied into a tree of files, the run is computed on that
  tree, and what it changed is written back.
-/
import DynamicQuorum.Console.Program

namespace DynamicQuorum.Disk

def pathOf : Location → String
  | "/" :: names => "/" ++ "/".intercalate names
  | names => "/".intercalate names

def copyPlace (t : FileTree) (place : Location) : IO FileTree := do
  try
    return t.put place (← IO.FS.readFile (pathOf place))
  catch
    | .inappropriateType .. => return t.addFolder place
    | _ => return t

/-- Copy what stands on the way along some names into the tree. -/
def copyAlong (t : FileTree) (place : Location) : List String → IO FileTree
  | [] => return t
  | ".." :: names => copyAlong t (Location.up place) names
  | name :: names => do
    let t ← copyPlace t (place ++ [name])
    copyAlong t (place ++ [name]) names

/-- Make the folders and write the files that a run changed. -/
def writeBack (before after : FileTree) : IO Unit := do
  for place in after.folders do
    unless before.isFolder place do
      IO.FS.createDirAll (pathOf place)
  for (place, content) in after.changedSince before do
    unless place.dropLast.isEmpty do
      IO.FS.createDirAll (pathOf place.dropLast)
    IO.FS.writeFile (pathOf place) content

end DynamicQuorum.Disk

open DynamicQuorum in
def main (arguments : List String) : IO UInt32 := do
  let environment : Environment :=
    { home := (← IO.getEnv "HOME").getD ""
      palette := if (← (← IO.getStdout).isTty) then .coloured else .plain
      settingsVariable := ← IO.getEnv "DYNQUORUM_CONFIG"
      filterVariable := ← IO.getEnv "RUST_LOG" }
  let before ← (Program.paths environment arguments).foldlM
    (fun t text => Disk.copyAlong t [] (Path.ofString text).names) FileTree.empty
  let result := Program.run environment before arguments
  Disk.writeBack before result.files
  for entry in result.log do
    IO.eprintln entry.toText
  IO.print result.output
  for line in result.failure.toList do
    IO.eprintln line
  return result.code.toUInt32
