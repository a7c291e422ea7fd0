import Tabletop.Main
import Tabletop.Request.Tool
import Tabletop.Session.Step
import Tabletop.Proofs.Journal
import Tabletop.Proofs.Grammar.Spelling
import Tabletop.Proofs.Grammar.FactorReading
import Tabletop.Proofs.Grammar.Acceptance
import Tabletop.Proofs.Grammar.FirstFault
import Tabletop.Proofs.Grammar.Canonical
import Tabletop.Proofs.Grammar.Shortest
import Tabletop.Proofs.Grammar.Conversion
import Tabletop.Proofs.Throws.Script
import Tabletop.Proofs.Throws.Log
import Tabletop.Proofs.Throws.ClosedForm
import Tabletop.Proofs.Command.Ending
import Tabletop.Proofs.Throws.Alike
import Tabletop.Proofs.Throws.Answers
import Tabletop.Proofs.Session.BehindHandle
import Tabletop.Proofs.Session.Replay
import Tabletop.Proofs.Session.Explanation
import Tabletop.Proofs.Grammar.Joined
import Tabletop.Proofs.Grammar.Continuation
import Tabletop.Proofs.Throws.InTurn
import Tabletop.Proofs.Throws.Bounded
import Tabletop.Proofs.Throws.Rounds
import Tabletop.Proofs.Throws.Fair
import Tabletop.Proofs.Throws.FactorOutcomes
import Tabletop.Proofs.Throws.Wrapping
import Tabletop.Proofs.Throws.Narrowing
import Tabletop.Proofs.Throws.Modifiers
import Tabletop.Proofs.Throws.Reach
import Tabletop.Proofs.Command.SingleCode
import Tabletop.Proofs.Session.EntryPoints
import Tabletop.Proofs.Session.Ledger
import Tabletop.Proofs.Session.Throwing
import Tabletop.Proofs.Session.Conservation
import Tabletop.Proofs.Throws.Trace
import Tabletop.Proofs.Session.Listeners
import Tabletop.Proofs.Session.Identifiers
import Tabletop.Proofs.Command.Options
import Tabletop.Proofs.Command.FailFast
import Tabletop.Proofs.Command.StandardInput
import Tabletop.Proofs.Command.Loudness
import Tabletop.Proofs.Command.Explosions
