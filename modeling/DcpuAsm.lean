import DcpuAsm.Main
import DcpuAsm.Respelling
import DcpuAsm.Source.Checked
import DcpuAsm.Source.Loops
import DcpuAsm.Proofs.RoundTrip
import DcpuAsm.Proofs.CorrectPrefix
import DcpuAsm.Proofs.Concatenation
import DcpuAsm.Proofs.FaithfulErrors
import DcpuAsm.Proofs.EmbeddedOperand
import DcpuAsm.Proofs.LetterCase
import DcpuAsm.Proofs.AcceptanceLog
import DcpuAsm.Proofs.MaskedComments
import DcpuAsm.Proofs.SingleStatement
import DcpuAsm.Proofs.Cli.Observers
import DcpuAsm.Proofs.Offsets
import DcpuAsm.Proofs.Coordinates
import DcpuAsm.Proofs.Numbers
import DcpuAsm.Proofs.Progress
import DcpuAsm.Proofs.Tabulation
import DcpuAsm.Proofs.Dispatch
import DcpuAsm.Proofs.LineEnds
import DcpuAsm.Proofs.JoinedLists
import DcpuAsm.Proofs.WordCounts
import DcpuAsm.Proofs.Skipping
import DcpuAsm.Proofs.Strings
import DcpuAsm.Proofs.CheckedScan
