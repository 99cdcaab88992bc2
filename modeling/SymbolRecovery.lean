import SymbolRecovery.Main
import SymbolRecovery.Context.Comparison
import SymbolRecovery.Proofs.Role
import SymbolRecovery.Proofs.Effect
import SymbolRecovery.Proofs.Trace
import SymbolRecovery.Proofs.Framing
import SymbolRecovery.Proofs.Cancellation
import SymbolRecovery.Proofs.Completion
import SymbolRecovery.Proofs.Classes
import SymbolRecovery.Proofs.Balance
import SymbolRecovery.Proofs.Nest
import SymbolRecovery.Proofs.Walk
import SymbolRecovery.Proofs.Forest
import SymbolRecovery.Proofs.Retention
import SymbolRecovery.Proofs.Tables
import SymbolRecovery.Proofs.Sections
import SymbolRecovery.Proofs.Registration
import SymbolRecovery.Proofs.Items
import SymbolRecovery.Proofs.Operations
import SymbolRecovery.Proofs.Requests
import SymbolRecovery.Proofs.Relabel
import SymbolRecovery.Proofs.Bare
import SymbolRecovery.Proofs.Agreement
import SymbolRecovery.Proofs.Settling
import SymbolRecovery.Proofs.LateLayout
import SymbolRecovery.Proofs.Placement
import SymbolRecovery.Proofs.RecordedAddresses
import SymbolRecovery.Proofs.Octets
import SymbolRecovery.Proofs.Writing
import SymbolRecovery.Proofs.Unscoped
import SymbolRecovery.Proofs.Interior
import SymbolRecovery.Proofs.Outermost
import SymbolRecovery.Proofs.Skipping
import SymbolRecovery.Proofs.Ledger
import SymbolRecovery.Proofs.Outcomes
import SymbolRecovery.Proofs.Resumption
import SymbolRecovery.Proofs.Overrun
import SymbolRecovery.Proofs.Overlong
import SymbolRecovery.Proofs.Acceptance
import SymbolRecovery.Proofs.Bases
import SymbolRecovery.Proofs.Waiting
import SymbolRecovery.Proofs.Grounding
import SymbolRecovery.Proofs.Rejection
import SymbolRecovery.Proofs.Unwinding
import SymbolRecovery.Proofs.Jumps
import SymbolRecovery.Proofs.Packing
import SymbolRecovery.Proofs.Reading
import SymbolRecovery.Proofs.Forwards
import SymbolRecovery.Proofs.Symbols
import SymbolRecovery.Proofs.Lifetimes
import SymbolRecovery.Proofs.Descent
import SymbolRecovery.Proofs.Descriptions
import SymbolRecovery.Proofs.Tabulation
import SymbolRecovery.Proofs.Units
import SymbolRecovery.Proofs.OffsetIndex
import SymbolRecovery.Proofs.LateResolution
import SymbolRecovery.Proofs.Enrollment
