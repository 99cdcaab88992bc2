import SymbolRecovery.CommandLine.Arguments
import SymbolRecovery.CommandLine.FileTree
import SymbolRecovery.Context.Forest
import SymbolRecovery.Record.Frame
import SymbolRecovery.Run

/-!
What the program prints for a file of symbols: a summary of the run and of what it recovered, and
the notes of the run as far as the user asks for them.
-/
namespace SymbolRecovery.CommandLine

inductive ReportError where
  | blankSymbols
  | blankBase
  | noFile (path : String)
  | isDirectory (path : String)
  | notDirectory (path : String)
  | nameTooLong (path : String)
  | invalidName
  | signature (error : Record.SignatureError)
  | failure (failure : Failure)
deriving Repr, DecidableEq

def ReportError.message : ReportError → String
  | blankSymbols => "expected str, bytes or os.PathLike object, not list"
  | blankBase => "can only concatenate list (not \"uint32\") to list"
  | noFile path => s!"[Errno 2] No such file or directory: {Text.quoted path}"
  | isDirectory path => s!"[Errno 21] Is a directory: {Text.quoted path}"
  | notDirectory path => s!"[Errno 20] Not a directory: {Text.quoted path}"
  | nameTooLong path => s!"[Errno 36] File name too long: {Text.quoted path}"
  | invalidName => "embedded null byte"
  | signature error => error.message
  | failure f => f.message

structure Report where
  lines : List String
  log : List String := []
  error : Option ReportError := none
deriving Repr, DecidableEq

def logLine (n : Note) : String :=
  s!"{n.level.name}:dissect.pdbapply.{n.channel.name}:{n.message}"

/-- Weight from which on notes are shown: warnings, with one more request also information, and
with two or more everything. -/
def shownWeight (verbose : Nat) : Nat := 30 - 10 * min verbose 2

def sectionLine (s : ImageSection) : String :=
  let base := match s.base with
    | some base => Text.hex base
    | none => "pending"
  s!"Section {s.index} {s.name}: rva={Text.hex s.rva} length={Text.hex s.length} base={base}"

def summary (cursor : Cursor) (status : RunStatus) (p : Progress) : List String :=
  let c := p.context
  [s!"Found {cursor.length} symbol records, {status.name}",
    s!"Applied {p.tally.processed} records, skipped {p.tally.skipped}, {p.tally.faulted} faulted"]
  ++ c.sections.values.map sectionLine
  ++ [s!"Found {c.groups.size} COFF groups",
    s!"Found {c.walk.length} scopes in {c.units.length} compile units",
    s!"Found {c.symbols.length} symbols, {c.unresolved.length} unresolved"]
  ++ p.tally.faults.map fun f => s!"Fault {f.text}"

def readSymbols (a : Arguments) (path : String) (entry : FileEntry) :
    Except ReportError (List Record) :=
  if path.toList.contains '\x00' then .error .invalidName
  else match entry with
    | .missing => .error (.noFile path)
    | .directory => .error (.isDirectory path)
    | .beyondFile => .error (.notDirectory path)
    | .nameTooLong => .error (.nameTooLong path)
    | .bytes content =>
      match (Record.decodeFile { bytes := content } a.module).1 with
      | .ok records => .ok records
      | .error e => .error (.signature e)

/-- The line that the program starts with; a blank setting is shown as an empty list. -/
def opening (a : Arguments) : String :=
  match a.symbols with
  | .value path => s!"Applying symbols: {path}"
  | _ => "Applying symbols: []"

def layout? (a : Arguments) : Option LoadLayout :=
  match a.imageBase with
  | .value base => some (.imageBase base)
  | _ => none

/-- Apply records. A blank image base goes unnoticed until there is a section to place. -/
def reportRecords (a : Arguments) (records : List Record) : Report :=
  let context : Context :=
    { layout := layout? a, options := { descendScopes := !a.skipScopes } }
  let outcome := run Registry.standard.lookup context { records }
  let p := outcome.progress
  let log := (outcome.notes.filter (·.shownFrom (shownWeight a.verbose))).map logLine
  if a.imageBase = .blank ∧ p.context.sections.size ≠ 0 then
    { lines := [opening a], log, error := some .blankBase }
  else match outcome.ending with
    | .error e => { lines := [opening a], log, error := some (.failure e) }
    | .ok status => { lines := opening a :: summary p.cursor status p, log }

def report (a : Arguments) (files : String → FileEntry) : Report :=
  match a.symbols with
  | .value path =>
    match readSymbols a path (files path) with
    | .error e => { lines := [opening a], error := some e }
    | .ok records => reportRecords a records
  | _ => { lines := [opening a], error := some .blankSymbols }

end SymbolRecovery.CommandLine
