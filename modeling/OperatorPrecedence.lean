import OperatorPrecedence.CommandLine.Session
import OperatorPrecedence.Evaluation
import OperatorPrecedence.Expression
import OperatorPrecedence.Main
import OperatorPrecedence.Proofs.Balance
import OperatorPrecedence.Proofs.Capacity
import OperatorPrecedence.Proofs.Consumption
import OperatorPrecedence.Proofs.Faults
import OperatorPrecedence.Proofs.Invariant
import OperatorPrecedence.Proofs.Moves
import OperatorPrecedence.Proofs.Position
import OperatorPrecedence.Proofs.Reading
import OperatorPrecedence.Proofs.Safety
import OperatorPrecedence.Proofs.Turns
import OperatorPrecedence.Proofs.Value
import OperatorPrecedence.Proofs.WellFormed
import OperatorPrecedence.Proofs.History
import OperatorPrecedence.Proofs.Parallel
import OperatorPrecedence.Proofs.Terminated
import OperatorPrecedence.Proofs.Sessions
import OperatorPrecedence.Proofs.PostOrder
import OperatorPrecedence.Proofs.Need
import OperatorPrecedence.Proofs.Depth
import OperatorPrecedence.Proofs.Isolation
import OperatorPrecedence.Proofs.Continuation
import OperatorPrecedence.Proofs.Messages
import OperatorPrecedence.Proofs.Writing
import OperatorPrecedence.Proofs.Outcomes
import OperatorPrecedence.Proofs.Displaced
import OperatorPrecedence.Proofs.Decimals
import OperatorPrecedence.Proofs.Literals
import OperatorPrecedence.Proofs.Gathering
import OperatorPrecedence.Proofs.Requests
