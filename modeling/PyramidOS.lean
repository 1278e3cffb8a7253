import PyramidOS.RunProofs
import PyramidOS.BitmapProofs
import PyramidOS.KernelBaseProofs
import PyramidOS.PmmProofs
import PyramidOS.PmmScanProofs
import PyramidOS.PmmInvProofs
import PyramidOS.PmmAllocProofs
import PyramidOS.PmmInitProofs
import PyramidOS.PmmRunProofs
import PyramidOS.PmmOwnerProofs
import PyramidOS.PmmReachProofs
import PyramidOS.PagingProofs
import PyramidOS.PmmUsableProofs
import PyramidOS.VmmProofs
import PyramidOS.BlockTilingProofs
import PyramidOS.HeapProofs
import PyramidOS.LinkedSegProofs
import PyramidOS.VmmRunProofs
import PyramidOS.VmmFramesProofs
import PyramidOS.HeapListProofs
import PyramidOS.HeapKfreeProofs
import PyramidOS.HeapKmallocProofs
import PyramidOS.HeapRunProofs
import PyramidOS.HeapOrderProofs
import PyramidOS.StringProofs
import PyramidOS.VfsMountProofs
import PyramidOS.VfsFileProofs
import PyramidOS.BlockProofs
import PyramidOS.FsProofs
import PyramidOS.HeapClientProofs
import PyramidOS.HeapFitProofs
import PyramidOS.FsHeapProofs
import PyramidOS.FsBootProofs
import PyramidOS.FsRunProofs
import PyramidOS.PyfsReadProofs
import PyramidOS.DiskReadProofs
import PyramidOS.BootInfoProofs
import PyramidOS.KernelLoadProofs
import PyramidOS.ShellProofs
import PyramidOS.HeapDoubleFreeProofs
import PyramidOS.PmmStatsProofs
import PyramidOS.VfsTableProofs
import PyramidOS.KeyboardProofs
import PyramidOS.KeyboardIdleProofs
import PyramidOS.ArabicJoinProofs
import PyramidOS.DeviceProofs
import PyramidOS.MbrProofs
import PyramidOS.MbrScanProofs
import PyramidOS.VfsPathProofs
import PyramidOS.DirectoryProofs
import PyramidOS.RegistryProofs
import PyramidOS.VfsReadProofs
import PyramidOS.MbrPartitionProofs
import PyramidOS.PyfsCreateProofs
import PyramidOS.AtaProofs
import PyramidOS.ShellDiskreadProofs
import PyramidOS.TerminalProofs
import PyramidOS.ShellEchoProofs
import PyramidOS.ComparisonProofs
import PyramidOS.StringOrderProofs
import PyramidOS.ChecksumProofs
import PyramidOS.KeyboardShiftProofs
import PyramidOS.ChsProofs
import PyramidOS.FatalScreenProofs
import PyramidOS.PmmReadsProofs
import PyramidOS.RunReversalProofs
import PyramidOS.RtlLayoutProofs
import PyramidOS.IdtProofs
import PyramidOS.WordStackProofs
import PyramidOS.IrqRunProofs
import PyramidOS.BootImageProofs
import PyramidOS.LoadStoreProofs
import PyramidOS.HeapProgramProofs
import PyramidOS.HeapWindowProofs
import PyramidOS.PagedHeapProofs
import PyramidOS.AtaInitProofs
import PyramidOS.AtaBlockProofs
import PyramidOS.SelftestProofs
import PyramidOS.SelftestPmmProofs
