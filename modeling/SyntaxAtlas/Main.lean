import SyntaxAtlas.Command.Run
import SyntaxAtlas.FileTree.Json
/-!
The program.

It reads the tree of files that it works on from its standard input, as a JSON document, and runs
the command that its arguments ask for.
-/

/-- Runs one command. -/
def main (arguments : List String) : IO UInt32 := do
  let document ← (← IO.getStdin).readToEnd
  match SyntaxAtlas.FileTree.ofDocument? document.toList with
  | none =>
    IO.eprintln "the standard input lists no files"
    return 2
  | some files =>
    let result := SyntaxAtlas.Command.execute files arguments
    IO.print result.output
    IO.eprint result.errors
    return result.code.toUInt32
