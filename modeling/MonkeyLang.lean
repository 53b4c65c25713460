import MonkeyLang.Grammar.Call
import MonkeyLang.Interpretation
import MonkeyLang.Main
import MonkeyLang.Proofs.Arithmetic
import MonkeyLang.Proofs.CommandLine.Agreement
import MonkeyLang.Proofs.Depth
import MonkeyLang.Proofs.Evaluation.Built
import MonkeyLang.Proofs.Evaluation.FirstError
import MonkeyLang.Proofs.Evaluation.Frame
import MonkeyLang.Proofs.Evaluation.Leaving
import MonkeyLang.Proofs.Evaluation.ReadBack
import MonkeyLang.Proofs.Evaluation.Regular
import MonkeyLang.Proofs.Evaluation.StepLimit
import MonkeyLang.Proofs.Evaluation.Unmarked
import MonkeyLang.Proofs.Evaluation.Unrelated
import MonkeyLang.Proofs.Grammar.Accounting
import MonkeyLang.Proofs.Grammar.Contract
import MonkeyLang.Proofs.Grammar.Enclosure
import MonkeyLang.Proofs.Grammar.Layout
import MonkeyLang.Proofs.Grammar.Outlined
import MonkeyLang.Proofs.Grammar.RoundTrip
import MonkeyLang.Proofs.Session.Results
import MonkeyLang.Proofs.Session.Schedule
import MonkeyLang.Proofs.Shell.Joining
import MonkeyLang.Proofs.Shell.Settled
