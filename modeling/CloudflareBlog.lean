import CloudflareBlog.Lib.Records
import CloudflareBlog.Lib.Buffer
import CloudflareBlog.Lib.Simd
import CloudflareBlog.Lib.Aes
import CloudflareBlog.Lib.Avx2
import CloudflareBlog.Lib.BitWalk
import CloudflareBlog.Lib.BitFilter
import CloudflareBlog.Lib.LinearProbing
import CloudflareBlog.Lib.FirstMinimum
import CloudflareBlog.Lib.Memory
import CloudflareBlog.Lib.Displacement
import CloudflareBlog.Lib.Pages
import CloudflareBlog.Lib.Aarch64
import CloudflareBlog.Lib.Checked
import CloudflareBlog.Lib.Code
import CloudflareBlog.Lib.Machine
import CloudflareBlog.Lib.X86
import CloudflareBlog.Lib.Sink
import CloudflareBlog.Lib.Adrp
import CloudflareBlog.Lib.Raising
import CloudflareBlog.Lib.CircularScan
import CloudflareBlog.Lib.Text
import CloudflareBlog.Lib.CString
import CloudflareBlog.Lib.ByteOrder
import CloudflareBlog.Mmuniq.ReadLoop
import CloudflareBlog.Mmuniq.Bloom
import CloudflareBlog.Mmuniq.FindNl
import CloudflareBlog.Mmuniq.HashTable
import CloudflareBlog.Mmuniq.InsertSequence
import CloudflareBlog.Mmuniq.Program
import CloudflareBlog.Mmuniq.Hash
import CloudflareBlog.Mmuniq.Accounting
import CloudflareBlog.Mmuniq.Iteration
import CloudflareBlog.Mmuniq.LengthRound
import CloudflareBlog.Mmuniq.Run
import CloudflareBlog.Mmuniq.Bounds
import CloudflareBlog.Mmuniq.Batching
import CloudflareBlog.Mmuniq.Uniqueness
import CloudflareBlog.Mmuniq.Completeness
import CloudflareBlog.Mmuniq.Provenance
import CloudflareBlog.Mmuniq.Writes
import CloudflareBlog.Mmdist.Distance
import CloudflareBlog.Mmdist.Queries
import CloudflareBlog.Mmdist.Database
import CloudflareBlog.Mmdist.Exact
import CloudflareBlog.Mmdist.Transposed
import CloudflareBlog.Mmdist.Pruned
import CloudflareBlog.Mmdist.Saturating
import CloudflareBlog.Mmdist.Hex
import CloudflareBlog.Mmdist.Loading
import CloudflareBlog.ObjFile.Elf
import CloudflareBlog.ObjFile.Loader
import CloudflareBlog.ObjFile.Placement
import CloudflareBlog.ObjFile.Slots
import CloudflareBlog.ObjFile.X86
import CloudflareBlog.ObjFile.Permissions
import CloudflareBlog.ObjFile.Aarch64
import CloudflareBlog.ObjFile.Aarch64Pages
import CloudflareBlog.ObjFile.Dispatch
import CloudflareBlog.ObjFile.Lookup
import CloudflareBlog.Connectx.Udp
import CloudflareBlog.Connectx.Connect4
import CloudflareBlog.Connectx.Ports
import CloudflareBlog.Connectx.Ephemeral
import CloudflareBlog.Connectx.Netlink
import CloudflareBlog.Connectx.Release
import CloudflareBlog.Gadget.Fill
import CloudflareBlog.Gadget.X86
import CloudflareBlog.Gadget.X86Calls
import CloudflareBlog.Gadget.X86Jumps
import CloudflareBlog.Lib.Armv8
import CloudflareBlog.Gadget.Aarch64
import CloudflareBlog.Gadget.Aarch64Layout
import CloudflareBlog.Gadget.Aarch64Flow
import CloudflareBlog.Gadget.Aarch64Calls
import CloudflareBlog.Gadget.Aarch64Branches
import CloudflareBlog.Gadget.Aarch64Frame
import CloudflareBlog.Lib.Driven
import CloudflareBlog.TcpSplice.Tbpf
import CloudflareBlog.TcpSplice.EchoNaive
import CloudflareBlog.TcpSplice.EchoIosubmit
import CloudflareBlog.TcpSplice.Iosubmit
import CloudflareBlog.TcpSplice.Net
import CloudflareBlog.EPaper.Etag
import CloudflareBlog.Lib.Limbs
import CloudflareBlog.Lib.Llvm
import CloudflareBlog.Ebpf.Sub64
import CloudflareBlog.Lib.PackedBits
import CloudflareBlog.EPaper.Binary
import CloudflareBlog.Lib.Diffusion
import CloudflareBlog.Lib.Raster
import CloudflareBlog.EPaper.Dither
import CloudflareBlog.EPaper.FloydSteinberg
import CloudflareBlog.Lib.KeyOrder
import CloudflareBlog.Ebpf.ReadTtl
import CloudflareBlog.Lib.RingQueue
import CloudflareBlog.IoSubmit.AioRing
import CloudflareBlog.IoSubmit.AioPoll
import CloudflareBlog.Lib.Descriptors
import CloudflareBlog.Lib.Packet
import CloudflareBlog.Lib.Tally
import CloudflareBlog.Lib.Ebpf
import CloudflareBlog.Lib.Dispatch
import CloudflareBlog.Lib.KeyedFold
import CloudflareBlog.Lib.Bins
import CloudflareBlog.Ebpf.AttachTtl
import CloudflareBlog.Ebpf.MagicConn
import CloudflareBlog.DroppingPackets.XdpDrop
import CloudflareBlog.SlowDownloads.SendRate
import CloudflareBlog.KernelFuzzing.Coverage
import CloudflareBlog.KernelFuzzing.Decoding
import CloudflareBlog.Mmdist.Finish
import CloudflareBlog.ScmRights.HandOver
import CloudflareBlog.Alerts.Silences
import CloudflareBlog.Ssdp.Histogram
import CloudflareBlog.Lib.Pieces
import CloudflareBlog.TcpSplice.TestBurst
import CloudflareBlog.Lib.Listing
import CloudflareBlog.Lib.X86Asm
import CloudflareBlog.Lib.X86Terms
import CloudflareBlog.Lib.X86Calls
import CloudflareBlog.Lib.Arm64Asm
import CloudflareBlog.Lib.BpfAsm
import CloudflareBlog.TailCall.Fib
import CloudflareBlog.TailCall.FibOkay
import CloudflareBlog.TailCall.FibOkayLoops
import CloudflareBlog.TailCall.FibOkayCorrect
import CloudflareBlog.TailCall.FibCool
import CloudflareBlog.TailCall.FibCoolArm64
import CloudflareBlog.Lib.SipHash
import CloudflareBlog.Mmuniq.Csiphash
import CloudflareBlog.KernelFuzzing.Siphash
import CloudflareBlog.Mmuniq.BloomRounds
import CloudflareBlog.Lib.Logged
import CloudflareBlog.KernelFuzzing.MainLoop
import CloudflareBlog.Ebpf.Compiled
import CloudflareBlog.Lib.Replace
import CloudflareBlog.EPaper.Escape
import CloudflareBlog.Lib.Returning
import CloudflareBlog.EPaper.TemplateParser
import CloudflareBlog.EPaper.TemplateRenderer
