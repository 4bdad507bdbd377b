import Wordcode.Main
import Wordcode.Trace.Tracer
import Wordcode.Proofs.Safety
import Wordcode.Proofs.Diagnosis
import Wordcode.Proofs.Likeness.Relocation
import Wordcode.Proofs.Likeness.Frame
import Wordcode.Proofs.Protocol
import Wordcode.Proofs.OneWay
import Wordcode.Proofs.Budget
import Wordcode.Proofs.Likeness.Visible
import Wordcode.Proofs.Fault.Carried
import Wordcode.Proofs.Grammar
import Wordcode.Proofs.Fault.Reading
import Wordcode.Proofs.Faulting
import Wordcode.Proofs.Progress
import Wordcode.Proofs.Recurrence
import Wordcode.Proofs.Blaming
import Wordcode.Proofs.Course
import Wordcode.Proofs.Sums
import Wordcode.Proofs.Countdown
import Wordcode.Proofs.Likeness.Unread
import Wordcode.Proofs.Tracing
import Wordcode.Proofs.Fault.Message
import Wordcode.Proofs.Tracing.Lossless
import Wordcode.Proofs.Console.Report
import Wordcode.Proofs.Console.Session
import Wordcode.Proofs.Stack.Balance
