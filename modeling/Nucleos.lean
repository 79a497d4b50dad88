import Nucleos.Lib.ChunkMap
import Nucleos.Lib.FunctionalGraph
import Nucleos.Lib.IntrusiveList
import Nucleos.Lib.Run
import Nucleos.Lib.Rendezvous
import Nucleos.Lib.Mailbox
import Nucleos.Kernel.Proc
import Nucleos.Kernel.Kipc
import Nucleos.Kernel.Call
import Nucleos.Kernel.Step
import Nucleos.Kernel.Update
import Nucleos.Kernel.Frame
import Nucleos.Kernel.Routines
import Nucleos.Kernel.Receive
import Nucleos.Kernel.Asyn
import Nucleos.Kernel.Entry
import Nucleos.Kernel.Protocol
import Nucleos.Kernel.Deadlock
import Nucleos.Kernel.Exit
import Nucleos.Kernel.Refine
import Nucleos.Kernel.Boot
import Nucleos.Kernel.CallerQueue
import Nucleos.Kernel.NoHang
import Nucleos.Kernel.WaitFor
import Nucleos.Kernel.Sendrec
import Nucleos.Kernel.Notice
import Nucleos.Kernel.Notify
import Nucleos.Kernel.Pending
import Nucleos.Kernel.Ledger
import Nucleos.Kernel.Senda
import Nucleos.Kernel.Outbox
import Nucleos.Kernel.Collect
import Nucleos.Kernel.Grant
import Nucleos.Lib.Sharing
import Nucleos.Vm.Heap
import Nucleos.Vm.Region
import Nucleos.Vm.Frame
import Nucleos.Vm.Sound
import Nucleos.Vm.Update
import Nucleos.Vm.Work
import Nucleos.Vm.Tidy
import Nucleos.Vm.Copy
import Nucleos.Vm.Pages
import Nucleos.Vm.Operation
import Nucleos.Vm.Remap
import Nucleos.Vm.Shape
import Nucleos.Vm.Layout
import Nucleos.Vm.AddressSpace
import Nucleos.Vm.Fork
import Nucleos.Vm.Mirror
import Nucleos.Vm.Isolation
import Nucleos.Vfs.Lock
import Nucleos.Vfs.LockRun
import Nucleos.Lib.RefCount
import Nucleos.Vfs.Pipe
import Nucleos.Vfs.PipeSplit
import Nucleos.Vfs.PipeStream
import Nucleos.Vfs.Files
import Nucleos.Vfs.FileCounts
import Nucleos.Vfs.FileRun
import Nucleos.Vfs.Mount
import Nucleos.Vfs.Residue
import Nucleos.Vfs.Path
import Nucleos.Vfs.Confine
import Nucleos.Kernel.Irq
import Nucleos.Kernel.IrqMask
import Nucleos.Kernel.IrqHook
import Nucleos.Kernel.Privctl
import Nucleos.Kernel.SendMask
import Nucleos.Kernel.PrivSet
import Nucleos.Lib.Buckets
import Nucleos.Lib.DoubleList
import Nucleos.Minixfs.Cache
import Nucleos.Minixfs.CacheRun
import Nucleos.Vfs.Wake
import Nucleos.Vfs.WakeRelease
import Nucleos.Vfs.WakeRun
import Nucleos.Lib.SortedList
import Nucleos.Timers.Queue
import Nucleos.Timers.Expire
import Nucleos.Ds.Store
import Nucleos.Inet.Options
import Nucleos.Ds.Updates
import Nucleos.Inet.Arrive
import Nucleos.Vm.Unmap
import Nucleos.Vm.Brk
import Nucleos.Kernel.Umap
import Nucleos.Ipc.Shm
import Nucleos.Vfs.PipeSelect
import Nucleos.Ipc.Sem
import Nucleos.Vfs.Reopen
import Nucleos.Inet.AnyOrder
import Nucleos.Minixfs.Scattered
