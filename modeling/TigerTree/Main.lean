import TigerTree.Command

set_option autoImplicit false

/-!
The program `tev`. It reads the one input that its arguments ask for, if any, and prints the reply.
-/

namespace TigerTree.Command

/-- The failure that an error of the operating system stands for. -/
def ReadFailure.ofError : IO.Error → ReadFailure
  | .inappropriateType _ code _ => if code = 21 then .isFolder else .notFolder
  | _ => .missing

def Input.read : Input → IO (Except ReadFailure ByteArray)
  | standard => do return .ok (← (← IO.getStdin).readBinToEnd)
  | file path =>
      try
        return .ok (← IO.FS.readBinFile path)
      catch error => return .error (ReadFailure.ofError error)

end TigerTree.Command

open TigerTree.Command in
def main (arguments : List String) : IO UInt32 := do
  let bytes ←
    match parse arguments with
    | some (.run (.eval argument _) _) => (Input.ofArgument argument).read
    | _ => pure (.ok .empty)
  let reply := respond arguments fun _ => bytes
  (← IO.getStderr).putStr reply.errors
  (← IO.getStdout).putStr reply.output
  return reply.exit.toUInt32
