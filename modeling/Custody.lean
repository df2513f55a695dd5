import Custody.Proofs.Approval.Quorum
import Custody.Proofs.Approval.Reordering
import Custody.Proofs.Envelope.Rereading
import Custody.Proofs.Ethereum.Canonical
import Custody.Proofs.Ethereum.Classification
import Custody.Proofs.Ethereum.Framing
import Custody.Proofs.Ethereum.Language
import Custody.Proofs.PublicKey.Encodings
import Custody.Proofs.Settings.Building
import Custody.Proofs.Settings.Reloading
import Custody.Proofs.Wallet.Coin
import Custody.Proofs.Wallet.Forms
import Custody.Proofs.Wallet.Refusal
import Custody.Proofs.Settings.Wallets
import Custody.Proofs.Settings.Unset
import Custody.Proofs.Settings.Respelling
