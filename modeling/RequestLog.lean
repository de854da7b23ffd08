import RequestLog.Main
import RequestLog.Proofs.Admission
import RequestLog.Proofs.BuildCommand
import RequestLog.Proofs.Cursors
import RequestLog.Proofs.Dispatch
import RequestLog.Proofs.Entries
import RequestLog.Proofs.Exhaustion
import RequestLog.Proofs.HeaderTexts
import RequestLog.Proofs.Headerless
import RequestLog.Proofs.Inspection
import RequestLog.Proofs.JoinedHeaders
import RequestLog.Proofs.Lengths
import RequestLog.Proofs.Lifecycle
import RequestLog.Proofs.NormalForm
import RequestLog.Proofs.OwnFile
import RequestLog.Proofs.Pairing
import RequestLog.Proofs.PrintedCalls
import RequestLog.Proofs.Reassembly
import RequestLog.Proofs.Refusals
import RequestLog.Proofs.Spellings
import RequestLog.Proofs.Verbosity
