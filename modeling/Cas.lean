import Cas.Lib.FiniteMap
import Cas.Lib.Prefix
import Cas.Lib.Runs
import Cas.Lib.Interleave
import Cas.Lib.Bytes
import Cas.Lib.Codec
import Cas.Lib.Framing
import Cas.Lib.PrefixTree
import Cas.Paths
import Cas.Syncing.Proto
import Cas.Syncing.Closure
import Cas.Syncing.ClosureRep
import Cas.Syncing.Object
import Cas.Syncing.Disk
import Cas.Syncing.Server
import Cas.Syncing.Coherence
import Cas.Syncing.Integrity
import Cas.Syncing.PathSet
import Cas.Syncing.RoundTrip
import Cas.Syncing.Postcard
import Cas.Syncing.Wire
import Cas.Syncing.Crash
import Cas.Syncing.Torn
import Cas.Syncing.Ensure
import Cas.Cli.Lifecycle
import Cas.Cli.SingleDaemon
import Cas.Cli.HandOver
import Cas.Host.Resolve
import Cas.Lib.Effect
import Cas.Host.Calls
import Cas.Fuse.Decision
import Cas.Fuse.World
import Cas.Fuse.Executor
import Cas.Fuse.Fs
import Cas.Fuse.Frames
import Cas.Fuse.Isolation
import Cas.Fuse.Reachable
import Cas.Fuse.View
import Cas.Fuse.Stat
import Cas.Fuse.Rename
import Cas.Fuse.CopyOnWrite
import Cas.Lib.FlatStore
import Cas.Fuse.Masking
import Cas.Fuse.Listing
import Cas.Fuse.Readdir
import Cas.Fuse.Inodes
import Cas.Cli.Successor
import Cas.Fuse.Locks
import Cas.Fuse.Sizes
import Cas.Fuse.Observers
import Cas.Fuse.FreshRead
import Cas.Config.Policy
import Cas.Fuse.Beside
import Cas.Fuse.TwoRuns
import Cas.Host.Attributes
import Cas.Host.Twins
import Cas.Fuse.Secrets
import Cas.Fuse.Concealed
import Cas.Config.Blacklist
import Cas.Fuse.Scan
import Cas.Fuse.InodeRace
import Cas.Syncing.Flushing
import Cas.Syncing.Handlers
import Cas.Syncing.Pool
import Cas.Syncing.DeadClients
import Cas.Syncing.Moves
import Cas.Cli.Stranded
import Cas.Fuse.Descendants
import Cas.Fuse.Hidden
import Cas.Fuse.Rmdir
import Cas.Lib.Positions
import Cas.Fuse.ScanRuns
import Cas.Fuse.Setattr
import Cas.Fuse.PlainMap
import Cas.Fuse.LockRanges
import Cas.Fuse.WriteOpen
import Cas.Fuse.Unlink
import Cas.Fuse.MetaRace
import Cas.Fuse.Exchange
import Cas.Fuse.CopyUpRace
import Cas.Host.AgreeOn
import Cas.Lib.Mounts
import Cas.Isolate.Setup
import Cas.Isolate.Sealed
import Cas.Syncing.Reload
import Cas.Fuse.Sessions
import Cas.Cli.Clean
import Cas.Fuse.Outage
