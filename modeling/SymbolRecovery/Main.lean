import SymbolRecovery.CommandLine.Report

/-!
The program: reads its arguments and the file that they name, and prints the report. Notes go to
the error output.
-/
namespace SymbolRecovery

def usage : String :=
  "usage: symbol-recovery [-h] -s SYMBOLS [-m] [-b IMAGE_BASE] [--skip-scopes] [-v]"

def readEntry (path : String) : IO CommandLine.FileEntry := do
  try
    return .bytes (← IO.FS.readBinFile path).toList
  catch
    | .noFileOrDirectory .. => return .missing
    | .inappropriateType _ 21 _ => return .directory
    | .inappropriateType .. => return .beyondFile
    | .invalidArgument .. => return .nameTooLong
    | e => throw e

end SymbolRecovery

open SymbolRecovery in
def main (args : List String) : IO UInt32 := do
  match CommandLine.Arguments.read args with
  | .error refusal =>
    if refusal = .help then IO.println usage else IO.eprintln usage
    return refusal.exitCode.toUInt32
  | .ok arguments =>
    let entry ← match arguments.symbols with
      | .value path => readEntry path
      | _ => pure .missing
    let report := CommandLine.report arguments fun _ => entry
    for line in report.log do
      IO.eprintln line
    for line in report.lines do
      IO.println line
    match report.error with
    | some e =>
      IO.eprintln e.message
      return 1
    | none => return 0
