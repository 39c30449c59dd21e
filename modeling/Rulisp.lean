import Rulisp.TransitionSystem
import Rulisp.HandleCell
import Rulisp.HandleCellProtocol
import Rulisp.Inbox
import Rulisp.InboxLinearizability
import Rulisp.InboxWakeups
import Rulisp.CallbackTunnel
import Rulisp.CallbackClassification
import Rulisp.WrapperForm
import Rulisp.WireAgreement
import Rulisp.LoadAtomicity
import Rulisp.Loader
import Rulisp.LispImage
import Rulisp.LoaderOutcome
import Rulisp.LoaderInvariant
import Rulisp.HandleProvenance
import Rulisp.SessionSafety
import Rulisp.SharedPackage
import Rulisp.DumpHooks
import Rulisp.BufferOwnership
import Rulisp.ManifestRoundTrip
import Rulisp.ManifestRobustness
import Rulisp.ArtifactCheck
import Rulisp.FetchReassembly
import Rulisp.FetchPublication
import Rulisp.HttpdAnsweredOnce
import Rulisp.OracleCallbacks
import Rulisp.ReloadIdentity
import Rulisp.CacheCopies
import Rulisp.SymbolInjectivity
import Rulisp.ExportSyntax
import Rulisp.LifetimeRejection
import Rulisp.MacroAcceptance
import Rulisp.ShimHygiene
import Rulisp.StringTransfer
import Rulisp.PercentDecoding
import Rulisp.CargoName
import Rulisp.HeaderBlocks
import Rulisp.CallBalance
import Rulisp.StashDiscipline
import Rulisp.LastErrorAttribution
import Rulisp.StoredInvocations
import Rulisp.FetchDelivery
import Rulisp.WebServeStops
import Rulisp.HttpdLimits
import Rulisp.ModuleLoads
import Rulisp.WasiConfinement
