import LoopLang.Main
import LoopLang.Proofs.Consuming
import LoopLang.Proofs.Dependence
import LoopLang.Proofs.Endings
import LoopLang.Proofs.FirstWrites
import LoopLang.Proofs.Interleaving
import LoopLang.Proofs.Lines
import LoopLang.Proofs.Nesting
import LoopLang.Proofs.Newlines
import LoopLang.Proofs.Precedence
import LoopLang.Proofs.Printed
import LoopLang.Proofs.Histories
import LoopLang.Proofs.Remainder
import LoopLang.Proofs.Restoring
import LoopLang.Proofs.Resuming
import LoopLang.Proofs.Safety
import LoopLang.Proofs.Sequencing
import LoopLang.Proofs.Sessions
import LoopLang.Proofs.ShortCircuit
import LoopLang.Proofs.Tracing
import LoopLang.Proofs.Words
