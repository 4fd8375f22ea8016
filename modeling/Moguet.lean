import Moguet.Plan.ConflictOrder
import Moguet.Relation.NoMatch
import Moguet.Plan.Guard
import Moguet.Plan.Absence
import Moguet.Review.ChangeReplay
import Moguet.Plan.SelectedRoots
import Moguet.Plan.ProviderSession
import Moguet.Relation.VersionLock
import Moguet.Store.Interleaving
import Moguet.Store.LeafAgreement
import Moguet.Plan.DryRun
import Moguet.Cleanup.Session
import Moguet.Cleanup.Removal
import Moguet.Receipt.SingleUse
import Moguet.Receipt.Lifecycle
import Moguet.Store.Digest
import Moguet.Plan.RootReach
import Moguet.Receipt.ReadBack
import Moguet.Install.ExactEvidence
import Moguet.Source.RemoteRevision
import Moguet.Upgrade.SourceOrder
import Moguet.Local.LocalFirst
import Moguet.Cleanup.ShellCommand
import Moguet.Plan.Capability
import Moguet.Local.DependencyText
import Moguet.Review.MachineOutput
import Moguet.Review.PatchComplete
import Moguet.Source.EntryText
import Moguet.Local.Sections
import Moguet.Cli.Kept
import Moguet.Submodule.DeclaredText
import Moguet.Installed.DescSections
import Moguet.Source.TextScan
import Moguet.Install.AcceptedPlan
import Moguet.Store.Swap
