import SymbolRecovery.Text.IntegerLiteral

/-!
The command line. Options have short and long names; a long name may be cut short as long as it
stays unambiguous. A value follows its option or is joined to it, and options without a value may
share one dash. An argument that looks like an option is never taken as a value, but a negative
number or an argument with a blank in it does not look like one. Two dashes are no value either:
joined to an option they leave it blank.
-/
namespace SymbolRecovery.CommandLine

inductive Flag where
  | help | symbols | module | imageBase | skipScopes | verbose
deriving Repr, DecidableEq

namespace Flag

def names : List (String × Flag) := [
  ("-h", help), ("--help", help), ("-s", symbols), ("--symbols", symbols), ("-m", module),
  ("--module", module), ("-b", imageBase), ("--image-base", imageBase),
  ("--skip-scopes", skipScopes), ("-v", verbose), ("--verbose", verbose)]

def find? (name : String) : Option Flag := names.lookup name

def takesValue : Flag → Bool
  | symbols | imageBase => true
  | _ => false

end Flag

/-- An argument by its looks. Text may be joined to an option, with or without an equals sign
between them, which does not belong to it. -/
inductive Looks where
  | value
  | option (flag : Flag) (isShort : Bool) (joined : Option (List Char))
  | unknownOption
  | separator
deriving Repr, DecidableEq

inductive Refusal where
  | help | usage
deriving Repr, DecidableEq

def Refusal.exitCode : Refusal → Nat
  | help => 0
  | usage => 2

def isDecimal (c : Char) : Bool := (Text.IntegerLiteral.decimalValue? c).isSome

def isNegativeNumber (text : List Char) : Bool :=
  let text := if text.getLast? = some '\n' then text.dropLast else text
  match text with
  | '-' :: digits =>
    let fraction := digits.dropWhile isDecimal
    match fraction with
    | [] => !digits.isEmpty
    | '.' :: places => !places.isEmpty && places.all isDecimal
    | _ => false
  | _ => false

def splitEquals (text : List Char) : List Char × Option (List Char) :=
  match text.dropWhile (· ≠ '=') with
  | [] => (text, none)
  | _ :: rest => (text.takeWhile (· ≠ '='), some rest)

def candidates (text : List Char) : List Looks :=
  match text with
  | '-' :: '-' :: _ =>
    let (name, value) := splitEquals text
    Flag.names.filterMap fun (known, flag) =>
      if name.isPrefixOf known.toList then
        some (.option flag (known.length = 2) value)
      else none
  | '-' :: letter :: rest =>
    Flag.names.filterMap fun (known, flag) =>
      if known.toList = ['-', letter] then some (.option flag true (some rest))
      else if text.isPrefixOf known.toList then some (.option flag false none)
      else none
  | _ => []

def looks (arg : String) : Except Refusal Looks :=
  let text := arg.toList
  if text.head? ≠ some '-' then .ok .value
  else if arg = "--" then .ok .separator
  else match Flag.find? arg with
    | some flag => .ok (.option flag (arg.length = 2) none)
    | none =>
      if text.length = 1 then .ok .value
      else
        let (name, value) := splitEquals text
        match value, Flag.find? (String.ofList name) with
        | some value, some flag => .ok (.option flag (name.length = 2) (some value))
        | _, _ =>
          match candidates text with
          | [candidate] => .ok candidate
          | _ :: _ :: _ => .error .usage
          | [] =>
            if isNegativeNumber text || text.contains ' ' then .ok .value else .ok .unknownOption

def survey : List String → Except Refusal (List (String × Looks))
  | [] => .ok []
  | arg :: args => do
    match ← looks arg with
    | .separator => return (arg, .separator) :: args.map (·, .value)
    | seen => return (arg, seen) :: (← survey args)

/-- What an option with a value was set to, by its last occurrence. -/
inductive Setting (α : Type) where
  | unset
  | blank
  | value (a : α)
deriving Repr, DecidableEq

structure Arguments where
  symbols : Setting String := .unset
  module : Bool := false
  imageBase : Setting Int := .unset
  skipScopes : Bool := false
  verbose : Nat := 0
  hasExtras : Bool := false
deriving Repr, DecidableEq

namespace Arguments

def set (a : Arguments) : Flag → Except Refusal Arguments
  | .help => .error .help
  | .module => .ok { a with module := true }
  | .skipScopes => .ok { a with skipScopes := true }
  | .verbose => .ok { a with verbose := a.verbose + 1 }
  | .symbols | .imageBase => .error .usage

def setValue (a : Arguments) (value : String) : Flag → Except Refusal Arguments
  | .symbols => .ok { a with symbols := .value value }
  | .imageBase =>
    match Text.IntegerLiteral.read? value with
    | some base => .ok { a with imageBase := .value base }
    | none => .error .usage
  | _ => .error .usage

def setBlank (a : Arguments) : Flag → Except Refusal Arguments
  | .symbols => .ok { a with symbols := .blank }
  | .imageBase => .ok { a with imageBase := .blank }
  | _ => .error .usage

def setJoined (a : Arguments) (text : List Char) (flag : Flag) : Except Refusal Arguments :=
  if text = ['-', '-'] then a.setBlank flag else a.setValue (String.ofList text) flag

end Arguments

structure Cluster where
  flags : List Flag := []
  valued : Option (Flag × Option (List Char)) := none
deriving Repr, DecidableEq

/-- Take a short option without a value apart from what is joined to it. Every letter has to be a
short option, up to one that takes a value and with it all that is left. -/
def splitCluster (flag : Flag) : List Char → Except Refusal Cluster
  | [] => .error .usage
  | letter :: rest =>
    match Flag.find? (String.ofList ['-', letter]) with
    | none => .error .usage
    | some next =>
      if next.takesValue then
        let joined := if rest.isEmpty then none else some rest
        .ok { flags := [flag], valued := some (next, joined) }
      else if rest.isEmpty then .ok { flags := [flag, next] }
      else do
        let cluster ← splitCluster next rest
        return { cluster with flags := flag :: cluster.flags }

def cluster (flag : Flag) (isShort : Bool) (joined : Option (List Char)) :
    Except Refusal Cluster :=
  if flag.takesValue then .ok { valued := some (flag, joined) }
  else match joined with
    | none => .ok { flags := [flag] }
    | some text => if isShort then splitCluster flag text else .error .usage

def collect : List (String × Looks) → Arguments → Except Refusal Arguments
  | [], a => .ok a
  | (_, .option flag isShort joined) :: rest, a => do
    let cluster ← cluster flag isShort joined
    match cluster.valued with
    | none => collect rest (← cluster.flags.foldlM Arguments.set a)
    | some (valued, some text) =>
      let a ← cluster.flags.foldlM Arguments.set a
      collect rest (← a.setJoined text valued)
    | some (valued, none) =>
      match rest with
      | (value, .value) :: rest =>
        let a ← cluster.flags.foldlM Arguments.set a
        collect rest (← a.setValue value valued)
      | _ => .error .usage
  | _ :: rest, a => collect rest { a with hasExtras := true }

def Arguments.read (args : List String) : Except Refusal Arguments := do
  let a ← collect (← survey args) {}
  if a.symbols = .unset ∨ a.hasExtras then .error .usage else return a

end SymbolRecovery.CommandLine
