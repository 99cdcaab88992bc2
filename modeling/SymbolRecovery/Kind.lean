import SymbolRecovery.Text.Hexadecimal

/-!
The kinds of symbol record, by the number that a record carries. Any integer can stand for a
kind: those of the CodeView format have a name, and all others are written as a number.
-/
namespace SymbolRecovery

abbrev Kind := Int

namespace Kind

abbrev scopeEnd : Kind := 0x0006
abbrev objectName : Kind := 0x1101
abbrev thunk : Kind := 0x1102
abbrev block : Kind := 0x1103
abbrev label : Kind := 0x1105
abbrev localData : Kind := 0x110C
abbrev globalData : Kind := 0x110D
abbrev publicSymbol : Kind := 0x110E
abbrev localProcedure : Kind := 0x110F
abbrev globalProcedure : Kind := 0x1110
abbrev localThreadData : Kind := 0x1112
abbrev globalThreadData : Kind := 0x1113
abbrev imageSection : Kind := 0x1136
abbrev sectionGroup : Kind := 0x1137
abbrev compiler : Kind := 0x113C
abbrev localProcedureId : Kind := 0x1146
abbrev globalProcedureId : Kind := 0x1147
abbrev inlineSite : Kind := 0x114D
abbrev inlineSiteEnd : Kind := 0x114E
abbrev procedureEnd : Kind := 0x114F
abbrev deferredProcedure : Kind := 0x1155
abbrev deferredProcedureId : Kind := 0x1156

/-- Global, local and deferred procedures, each named by a type or by an id. -/
def procedures : List Kind :=
  [globalProcedure, localProcedure, globalProcedureId, localProcedureId, deferredProcedure,
    deferredProcedureId]

def data : List Kind := [globalData, localData, globalThreadData, localThreadData]

def scopeBegins : List Kind := procedures ++ [block, thunk, inlineSite]

def scopeEnds : List Kind := [scopeEnd, procedureEnd, inlineSiteEnd]

def names : List (Kind × String) := [
  (0x0001, "S_COMPILE"), (0x0005, "S_SSEARCH"), (0x0006, "S_END"), (0x0007, "S_SKIP"),
  (0x0402, "S_ALIGN"), (0x1012, "S_FRAMEPROC"), (0x1101, "S_OBJNAME"), (0x1102, "S_THUNK32"),
  (0x1103, "S_BLOCK32"), (0x1104, "S_WITH32"), (0x1105, "S_LABEL32"), (0x1106, "S_REGISTER"),
  (0x1107, "S_CONSTANT"), (0x1108, "S_UDT"), (0x110B, "S_BPREL32"), (0x110C, "S_LDATA32"),
  (0x110D, "S_GDATA32"), (0x110E, "S_PUB32"), (0x110F, "S_LPROC32"), (0x1110, "S_GPROC32"),
  (0x1111, "S_REGREL32"), (0x1112, "S_LTHREAD32"), (0x1113, "S_GTHREAD32"), (0x1125, "S_PROCREF"),
  (0x1126, "S_DATAREF"), (0x1127, "S_LPROCREF"), (0x112C, "S_TRAMPOLINE"), (0x1136, "S_SECTION"),
  (0x1137, "S_COFFGROUP"), (0x1138, "S_EXPORT"), (0x1139, "S_CALLSITEINFO"),
  (0x113A, "S_FRAMECOOKIE"), (0x113C, "S_COMPILE3"), (0x113D, "S_ENVBLOCK"), (0x113E, "S_LOCAL"),
  (0x1141, "S_DEFRANGE_REGISTER"), (0x1142, "S_DEFRANGE_FRAMEPOINTER_REL"),
  (0x1146, "S_LPROC32_ID"), (0x1147, "S_GPROC32_ID"), (0x114C, "S_BUILDINFO"),
  (0x114D, "S_INLINESITE"), (0x114E, "S_INLINESITE_END"), (0x114F, "S_PROC_ID_END"),
  (0x1155, "S_LPROC32_DPC"), (0x1156, "S_LPROC32_DPC_ID"), (0x115A, "S_CALLEES"),
  (0x115B, "S_CALLERS"), (0x115E, "S_HEAPALLOCSITE")]

def name (kind : Kind) : String := (names.lookup kind).getD (Text.hexPadded kind)

def sorted (kinds : List Kind) : List Kind := (kinds.mergeSort (· ≤ ·)).eraseDups

end Kind
end SymbolRecovery
