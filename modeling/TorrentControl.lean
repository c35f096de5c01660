import TorrentControl.Main
import TorrentControl.Proofs.Addressing
import TorrentControl.Proofs.Aim
import TorrentControl.Proofs.Aliases
import TorrentControl.Proofs.Attempts
import TorrentControl.Proofs.Chains
import TorrentControl.Proofs.Comparison
import TorrentControl.Proofs.Completion
import TorrentControl.Proofs.Concatenation
import TorrentControl.Proofs.Damage
import TorrentControl.Proofs.Endpoint
import TorrentControl.Proofs.Exchange
import TorrentControl.Proofs.Faults
import TorrentControl.Proofs.Lasting
import TorrentControl.Proofs.Layout
import TorrentControl.Proofs.Ledger
import TorrentControl.Proofs.Leftovers
import TorrentControl.Proofs.Linearization
import TorrentControl.Proofs.Locality
import TorrentControl.Proofs.ManifestJson
import TorrentControl.Proofs.Multicall
import TorrentControl.Proofs.OneArgument
import TorrentControl.Proofs.OneStatement
import TorrentControl.Proofs.Paths
import TorrentControl.Proofs.Ratio
import TorrentControl.Proofs.ReadOnly
import TorrentControl.Proofs.RequestLines
import TorrentControl.Proofs.Resolution
import TorrentControl.Proofs.Serving
import TorrentControl.Proofs.Settings
import TorrentControl.Proofs.Switching
import TorrentControl.Proofs.Termination
import TorrentControl.Proofs.ValueJson
import TorrentControl.Proofs.ValueReading
import TorrentControl.Proofs.Views
import TorrentControl.Proofs.Visibility
