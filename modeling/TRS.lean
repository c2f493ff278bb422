import TRS.Lib.Word
import TRS.Lib.Run
import TRS.Lib.Loop
import TRS.Lib.Mem
import TRS.Lib.Queue
import TRS.Memory.BootInfo
import TRS.Memory.Basic
import TRS.Memory.Spec
import TRS.Memory.Init
import TRS.Memory.Ownership
import TRS.Memory.Accounting
import TRS.Memory.Placement
import TRS.Memory.FirstFit
import TRS.Memory.Reservation
import TRS.Memory.Undo
import TRS.App.Loader
import TRS.Stream.Basic
import TRS.Stream.Fifo
import TRS.Stream.Pipe
import TRS.Lib.While
import TRS.Stream.Wait
import TRS.Boot.Framebuffer
import TRS.Boot.Exit
import TRS.Console.Glyphs
import TRS.Console.Scroll
import TRS.Keyboard.Basic
import TRS.Keyboard.Decode
import TRS.Keyboard.Shift
import TRS.Keyboard.Tally
import TRS.Sys.Read
import TRS.Fat.Basic
import TRS.Fat.Handles
import TRS.Fat.Dirent
import TRS.Fat.Listing
import TRS.Fat.Retry
import TRS.Fat.Mount
import TRS.Fat.Volume
import TRS.Fat.EndOfDir
import TRS.Lib.Port
import TRS.Disk.Basic
import TRS.Disk.TaskFile
import TRS.Disk.Lba28
import TRS.Disk.Range
import TRS.Disk.Device
import TRS.Disk.Protocol
import TRS.Disk.Store
import TRS.Lib.CString
import TRS.Libc.String
import TRS.Libc.Compare
import TRS.Libc.Search
import TRS.Terminal.Parser
import TRS.Terminal.Tokens
import TRS.Terminal.Grammar
import TRS.Terminal.Cd
import TRS.Terminal.Buffers
import TRS.Lib.Components
import TRS.Terminal.Directory
import TRS.Disk.Gpt
import TRS.Disk.GptVisits
import TRS.Disk.GptImage
import TRS.Disk.GptSearch
import TRS.Disk.GptSafety
import TRS.Fat.Partition
import TRS.Lib.Pixels
import TRS.Libc.Memory
import TRS.Console.Basic
import TRS.Console.Grid
import TRS.Console.Render
import TRS.Console.Refine
import TRS.Lib.Logged
import TRS.Libc.Access
import TRS.Console.Bounds
import TRS.Console.Visible
import TRS.Console.Erase
import TRS.Lib.Block
import TRS.Lib.WriteBack
import TRS.Lib.Program
import TRS.Lib.Linked
import TRS.Fat.Window
import TRS.Fat.Table
import TRS.Fat.Chain
import TRS.Fat.Isolation
import TRS.Fat.Roam
import TRS.Fat.Sync
import TRS.Fat.Search
