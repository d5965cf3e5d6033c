import DepositForm.Entry.Group
import DepositForm.Log
import DepositForm.Main
import DepositForm.Proofs.Announced.Meaning
import DepositForm.Proofs.Choice.Shapes
import DepositForm.Proofs.Choice.Sort
import DepositForm.Proofs.Command.Ending
import DepositForm.Proofs.Command.Init
import DepositForm.Proofs.Document.Drawing
import DepositForm.Proofs.Document.Failing
import DepositForm.Proofs.Document.Following
import DepositForm.Proofs.Document.Formats
import DepositForm.Proofs.Document.Walks
import DepositForm.Proofs.Entry.Distinct
import DepositForm.Proofs.Entry.Steps
import DepositForm.Proofs.Entry.Told
import DepositForm.Proofs.Json.Integers
import DepositForm.Proofs.Json.Shape
import DepositForm.Proofs.Letter.Capitals
import DepositForm.Proofs.Log
import DepositForm.Proofs.Settings.Chain
import DepositForm.Proofs.Settings.Decoded
import DepositForm.Proofs.Settings.Saved
import DepositForm.Proofs.Settings.Variables
