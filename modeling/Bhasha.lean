import Bhasha.Main
import Bhasha.Proofs.Lexeme.LineBreak
import Bhasha.Proofs.Parse.CursorProgram
import Bhasha.Proofs.Parse.Recovery
import Bhasha.Proofs.Reading.TokenStream
import Bhasha.Proofs.Token.Lines
import Bhasha.Proofs.Reading.Lines
import Bhasha.Proofs.Command.Agreement
import Bhasha.Proofs.Parse.CountingLoop
import Bhasha.Proofs.Reading.Layout
import Bhasha.Proofs.Command.Delivery
import Bhasha.Proofs.Command.LogFile
import Bhasha.Proofs.Command.Input
import Bhasha.Proofs.Parse.Cascade
import Bhasha.Proofs.Parse.Reporter
import Bhasha.Proofs.Parse.Leniency
import Bhasha.Proofs.Tree.Holdings
import Bhasha.Proofs.Parse.Horizon
import Bhasha.Proofs.Parse.Draft
import Bhasha.Proofs.Reading.Journal
import Bhasha.Proofs.Reading.Shortfall
import Bhasha.Proofs.Tree.Indentation
