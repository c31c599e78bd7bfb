import Wslg.Codec.LittleEndian
import Wslg.Lexical.Path
import Wslg.Lexical.Arguments
import Wslg.Logic.Runs
import Wslg.Logic.StateExcept
import Wslg.Protocol.Constants
import Wslg.Server.Send
import Wslg.Server.Receive
import Wslg.Server.OpenClose
import Wslg.Server.Capacity
import Wslg.Server.Readiness
import Wslg.Logic.KeyedStore
import Wslg.Logic.SlidingWindow
import Wslg.WSLGd.ProcessMonitor
import Wslg.WSLGd.CrashLimit
import Wslg.Client.Memory
import Wslg.Client.Reader
import Wslg.Client.Icon
import Wslg.Client.ReadSafety
import Wslg.Client.IconFile
import Wslg.Channel.RoundTrip
import Wslg.Channel.Limits
import Wslg.Channel.Inversion
import Wslg.Client.FileDB
import Wslg.Logic.KeyedSet
import Wslg.Client.FileEntries
import Wslg.Client.Os
import Wslg.Client.Machine
import Wslg.Client.OnCaps
import Wslg.Client.Sync
import Wslg.Client.OnUpdateAppList
import Wslg.Client.Dispatch
import Wslg.Client.Disk
import Wslg.Channel.Framing
import Wslg.Client.Handshake
import Wslg.Client.Provider
import Wslg.Client.Safety
import Wslg.Client.IconBlocks
import Wslg.Client.Sweep
import Wslg.Client.Publish
import Wslg.Client.Rejection
import Wslg.Client.Steps
import Wslg.Client.CommandLine
import Wslg.Client.LifeCycle
import Wslg.Client.Confinement
import Wslg.Client.SyncRun
import Wslg.Client.SyncTable
import Wslg.Client.SyncFiles
import Wslg.Client.DeleteAlone
import Wslg.Client.Replacement
import Wslg.Client.Relaunch
import Wslg.Logic.Inotify
import Wslg.WSLGd.FontMonitor
import Wslg.WSLGd.FontTasks
import Wslg.WSLGd.FontPath
import Wslg.WSLGd.FontSystem
import Wslg.WSLGd.FontWatches
import Wslg.WSLGd.FontGrowth
import Wslg.WSLGd.FontTree
import Wslg.WSLGd.FontsDir
import Wslg.Client.ProviderName
import Wslg.Lexical.Shell
import Wslg.WSLGd.WindowsPath
import Wslg.WSLGd.Startup
import Wslg.WSLGd.FontRehash
import Wslg.Server.ThreadFunc
import Wslg.Client.Boundaries
import Wslg.Logic.Fifo
import Wslg.Client.Replies
import Wslg.Channel.Parties
import Wslg.Client.Taskbar
import Wslg.Logic.Children
import Wslg.WSLGd.Threads
import Wslg.Logic.Credentials
import Wslg.WSLGd.LaunchChild
import Wslg.Client.RemoveAppProvider
import Wslg.Logic.InotifyBuffer
import Wslg.WSLGd.EventBuffer
import Wslg.WSLGd.Environment
import Wslg.WSLGd.Main
import Wslg.WSLGd.Launches
