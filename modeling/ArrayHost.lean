import ArrayHost.Main
import ArrayHost.Console.Sinks
import ArrayHost.Heap.Operation
import ArrayHost.Proofs.Trace
import ArrayHost.Proofs.SessionParts
import ArrayHost.Proofs.HeapHistory
import ArrayHost.Proofs.ConsoleLines
import ArrayHost.Proofs.LineAccounting
import ArrayHost.Proofs.Alike
import ArrayHost.Proofs.HostCalls
import ArrayHost.Proofs.HostRuns
import ArrayHost.Proofs.RaisedFatal
import ArrayHost.Proofs.Printing
import ArrayHost.Proofs.Flushing
import ArrayHost.Proofs.FailureAtomicity
import ArrayHost.Proofs.LimitedOutput
import ArrayHost.Proofs.EncodedText
import ArrayHost.Proofs.Numerals
import ArrayHost.Proofs.ReadBack
import ArrayHost.Proofs.FlushFaults
import ArrayHost.Proofs.ReportedSize
import ArrayHost.Proofs.BeforeEntry
import ArrayHost.Proofs.FlushedInput
import ArrayHost.Proofs.Linking
import ArrayHost.Proofs.IntegerLines
import ArrayHost.Proofs.HeapTrace
import ArrayHost.Proofs.WellFormedOutput
import ArrayHost.Proofs.HeapJournal
import ArrayHost.Proofs.Metering
import ArrayHost.Proofs.LossyDecoding
import ArrayHost.Proofs.DecodedLines
import ArrayHost.Proofs.ElementwisePrinting
import ArrayHost.Proofs.SharedSinks
import ArrayHost.Proofs.Diagnostics
import ArrayHost.Proofs.Declarations
import ArrayHost.Proofs.Independence
import ArrayHost.Proofs.ArgumentOrder
import ArrayHost.Proofs.OperandTypes
import ArrayHost.Proofs.Progress
import ArrayHost.Proofs.TypeSafety
