import Intel8085.Main
import Intel8085.Proofs.Assembly.ByteOrders
import Intel8085.Proofs.Assembly.Extensions
import Intel8085.Proofs.Assembly.HexRecords
import Intel8085.Proofs.Assembly.Inlining
import Intel8085.Proofs.Assembly.LabelRules
import Intel8085.Proofs.Assembly.Lengths
import Intel8085.Proofs.Assembly.ListedLabels
import Intel8085.Proofs.Assembly.ListingTexts
import Intel8085.Proofs.Assembly.NumberOperands
import Intel8085.Proofs.Assembly.Outcomes
import Intel8085.Proofs.Assembly.RecordSizes
import Intel8085.Proofs.Assembly.Reformatting
import Intel8085.Proofs.Disassembly.Decoding
import Intel8085.Proofs.Disassembly.HexTokens
import Intel8085.Proofs.Disassembly.Partition
import Intel8085.Proofs.Disassembly.Reassembly
import Intel8085.Proofs.InstructionSet.Entries
import Intel8085.Proofs.Integers.Ranges
import Intel8085.Proofs.Machine.HexDump
import Intel8085.Proofs.Processor.DecimalNumbers
import Intel8085.Proofs.Session.Breakpoints
import Intel8085.Proofs.Session.Budgets
import Intel8085.Proofs.Session.ConditionalTransfers
import Intel8085.Proofs.Session.HostAccess
import Intel8085.Proofs.Session.Modelling
import Intel8085.Proofs.Session.OperandFields
import Intel8085.Proofs.Session.Outcomes
import Intel8085.Proofs.Session.Polling
import Intel8085.Proofs.Session.PortObservers
import Intel8085.Proofs.Session.Reading
import Intel8085.Proofs.Session.Resets
import Intel8085.Proofs.Session.Runs
import Intel8085.Proofs.Session.StatusRules
import Intel8085.Proofs.Session.Tracing
import Intel8085.Proofs.Session.Words
import Intel8085.Proofs.Shell.Arguments
