import EncryptedInference.Main
import EncryptedInference.Proofs.Batch.Flat
import EncryptedInference.Proofs.Batch.Native
import EncryptedInference.Proofs.Batch.Refusals
import EncryptedInference.Proofs.Batch.Repacking
import EncryptedInference.Proofs.Client.Attribution
import EncryptedInference.Proofs.Client.Fields
import EncryptedInference.Proofs.Client.Refusals
import EncryptedInference.Proofs.Client.Polls
import EncryptedInference.Proofs.Client.PendingWait
import EncryptedInference.Proofs.CommandLine.Endings
import EncryptedInference.Proofs.CommandLine.Precedence
import EncryptedInference.Proofs.CommandLine.Results
import EncryptedInference.Proofs.Exchange.Retries
import EncryptedInference.Proofs.Host.Following
import EncryptedInference.Proofs.Host.GlobalFlags
import EncryptedInference.Proofs.Host.Isolation
import EncryptedInference.Proofs.Host.Outputs
import EncryptedInference.Proofs.Host.Sessions
import EncryptedInference.Proofs.Host.Verdicts
import EncryptedInference.Proofs.Scores.Best
import EncryptedInference.Proofs.Scores.OneHot
