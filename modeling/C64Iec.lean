import C64Iec.Lib.BasicProgram
import C64Iec.Lib.Blocks
import C64Iec.Lib.Chains
import C64Iec.Lib.Lines
import C64Iec.Lib.Memory
import C64Iec.Lib.Polling
import C64Iec.Lib.Runs
import C64Iec.Lib.StopAndWait
import C64Iec.Basic.Bytes
import C64Iec.Client.BlockNumbers
import C64Iec.Client.Bus
import C64Iec.Client.DataBounds
import C64Iec.Client.Datagram
import C64Iec.Client.ErrorPackets
import C64Iec.Client.FileOutput
import C64Iec.Client.Filename
import C64Iec.Client.FilenameBounds
import C64Iec.Client.ForeignFrames
import C64Iec.Client.GetBlock
import C64Iec.Client.GetByte
import C64Iec.Client.LoadClient
import C64Iec.Client.LoadReport
import C64Iec.Client.OpenedName
import C64Iec.Client.Request
import C64Iec.Client.SaveClient
import C64Iec.Client.ServerPort
import C64Iec.Client.Sketch
import C64Iec.Client.Tftp
import C64Iec.Client.TimedOut
import C64Iec.Client.Wedge
import C64Iec.Server.Accesses
import C64Iec.Server.C64File
import C64Iec.Server.Common
import C64Iec.Server.DeviceD64
import C64Iec.Server.DeviceDir
import C64Iec.Server.Directory
import C64Iec.Server.DirectoryMap
import C64Iec.Server.DiskChains
import C64Iec.Server.DiskFiles
import C64Iec.Server.DiskListing
import C64Iec.Server.Echo
import C64Iec.Server.FreshRequest
import C64Iec.Server.GetSession
import C64Iec.Server.Handled
import C64Iec.Server.Opens
import C64Iec.Server.OptionList
import C64Iec.Server.PutSession
import C64Iec.Server.Request
import C64Iec.Server.Tftp
import C64Iec.Server.Turn
import C64Iec.System.Directories
import C64Iec.System.Encoding
import C64Iec.System.Listing
import C64Iec.System.Load
import C64Iec.System.LoadDelivery
import C64Iec.System.Names
import C64Iec.System.RequestOptions
import C64Iec.System.Save
import C64Iec.System.SaveBlocks
import C64Iec.System.SaveDelivery
import C64Iec.System.Senders
import C64Iec.System.Session
import C64Iec.System.Survival
import C64Iec.Server.Calls
import C64Iec.Server.Untouched
import C64Iec.Lib.FileStore
import C64Iec.Server.Stores
import C64Iec.System.Refused
import C64Iec.System.Transfers
import C64Iec.Client.PutByte
import C64Iec.Client.Wave
import C64Iec.Ether.Headers
import C64Iec.Ether.Udp
import C64Iec.Client.Outgoing
import C64Iec.Ether.Wire
import C64Iec.Ether.Answers
import C64Iec.Ether.Ping
import C64Iec.Ether.Resolution
import C64Iec.Ether.DhcpRuns
import C64Iec.Ether.Setup
