import DynLinker.Startup.SearchPathsProperties
import DynLinker.Startup.MainProgramProperties
import DynLinker.Registry.OpenPromotion
import DynLinker.Registry.PermanentFlags
import DynLinker.Registry.FailedOpen
import DynLinker.Cache.NewFormat
import DynLinker.Api.ErrorStores
import DynLinker.Debug.PublishedList
import DynLinker.Api.LastError
import DynLinker.Registry.PhdrWalkReturn
import DynLinker.Tls.ThreadInit
import DynLinker.Api.DlAddr
import DynLinker.Api.SymbolChain
import DynLinker.Api.DlInfo
import DynLinker.Cli.Listing
import DynLinker.Cli.HostileFiles
import DynLinker.Cli.CommandLine
import DynLinker.Startup.MemoryRoutines
import DynLinker.Cache.CorruptCache
import DynLinker.Cache.Architectures
import DynLinker.Registry.ProgramLeases
import DynLinker.Startup.AllocatorProperties
import DynLinker.Sync.LockHandover
import DynLinker.Api.SerInfo
import DynLinker.Tls.ControlBlockRefinement
import DynLinker.Debug.Rendezvous
import DynLinker.Startup.AuxGlobals
import DynLinker.Startup.StandardFds
import DynLinker.Registry.HostDebug
import DynLinker.Sync.SharedRegistry
import DynLinker.Registry.HostGlobals
import DynLinker.Tls.LinkMapFields
