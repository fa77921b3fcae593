import Defender.Lib.Machine
import Defender.Lib.Wire
import Defender.Ipc.Mmf
import Defender.Ipc.Message
import Defender.Ipc.Service
import Defender.Ipc.Channel
import Defender.Ipc.Framing
import Defender.Ipc.Threads
import Defender.Ipc.Exclusion
import Defender.Ipc.Release
import Defender.Crypto.Sm4
import Defender.Crypto.Sectors
import Defender.Feature.Lmdb
import Defender.Feature.LoadDat
import Defender.Feature.DatFile
import Defender.Feature.Load
import Defender.Feature.FeatureSet
import Defender.Feature.FileHash
import Defender.Feature.Calls
import Defender.Feature.Ending
import Defender.Feature.Life
import Defender.Lib.Ranges
import Defender.Pe.Image
import Defender.Pe.ExcludeList
import Defender.Pe.Digest
import Defender.Pe.Equality
import Defender.Pe.Wrapping
import Defender.Pe.Coverage
import Defender.Pe.HeaderReads
import Defender.Pe.Failures
import Defender.Ipc.Capacity
import Defender.Ipc.Splitting
import Defender.Ipc.Codes
import Defender.Lib.Crew
import Defender.Pool.ThreadPool
import Defender.SysLog.Reader
import Defender.Pool.Tasks
import Defender.Pool.Wakeups
import Defender.SysLog.Collection
import Defender.Lib.RingList
import Defender.UDisk.Monitor
import Defender.Cache.HashTable
import Defender.Cache.Chains
import Defender.Cache.KeySet
import Defender.Cache.PECache
import Defender.Lib.Spread
import Defender.UDisk.Devices
import Defender.UDisk.Relations
import Defender.UDisk.Ignore
import Defender.UDisk.Frame
import Defender.Lib.Search
import Defender.UDisk.VendorProduct
import Defender.UDisk.StringDescriptor
import Defender.SysLog.MessageDlls
import Defender.SysLog.References
import Defender.SysLog.Transparency
import Defender.SysLog.Handles
import Defender.Lib.CString
import Defender.SysLog.Analyse
import Defender.SysLog.Overruns
import Defender.Scan.Folders
import Defender.Scan.Coverage
import Defender.Lib.Reads
import Defender.Pe.Tools
import Defender.Pe.Inside
import Defender.Timer.Timer
import Defender.Timer.Numbers
import Defender.Timer.Cancel
import Defender.Lib.Slots
import Defender.Cache.Inserts
import Defender.Cache.Races
import Defender.Ipc.Counts
import Defender.Clipboard.PngBuffer
import Defender.Pe.Mapping
import Defender.Pe.Recognisers
import Defender.Scan.EaRecords
import Defender.Scan.EaReader
import Defender.Lib.Utf
import Defender.Text.Converters
import Defender.Clipboard.SavePng
import Defender.Clipboard.PngRows
import Defender.Clipboard.PngBounds
import Defender.Clipboard.PngPicture
import Defender.Lib.BlockHash
import Defender.Crypto.HashStream
import Defender.Crypto.Sha1
import Defender.Crypto.Sha256
import Defender.Crypto.Sm3
import Defender.Crypto.Md5
import Defender.Crypto.Hmac
import Defender.Crypto.Sm4Standard
import Defender.Pe.OwnSha1
import Defender.Feature.Digests
import Defender.Feature.Ransomware
import Defender.Pool.Origin
import Defender.Pool.OriginRest
import Defender.Scan.Files
import Defender.Scan.Results
import Defender.Disk.SerialNumber
import Defender.Ipc.Routing
import Defender.Lib.Counted
import Defender.UDisk.Snapshot
