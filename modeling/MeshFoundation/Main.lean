import MeshFoundation.CommandLine.Listing

/-!
# The program

Prints the listing of a payload that is given on the command line. The exit code is zero
if there is one, one if the payload cannot be read, and two if the arguments are wrong.
-/

set_option autoImplicit false

open MeshFoundation CommandLine

def main (arguments : List String) : IO UInt32 := do
  match CommandLine.read arguments with
  | none =>
    helpLines.forM fun line => IO.eprintln line
    return 2
  | some task =>
    match listing task with
    | .ok lines =>
      lines.forM fun line => IO.println line
      return 0
    | .error fault =>
      IO.eprintln ("decoding failed: " ++ fault.message)
      return 1
