import PolicySync.Resource.Definition

/-!
# Command line

Writes the definitions of the resources into the directory that a variable names.
-/

def main : IO UInt32 := do
  match ← IO.getEnv "CRDS_DIR" with
  | none =>
    IO.eprintln "CRDS_DIR is not set"
    return 101
  | some directory =>
    for (name, text) in PolicySync.Definition.files do
      IO.FS.writeFile (directory ++ "/" ++ name) text
    return 0
