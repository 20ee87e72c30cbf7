import BootableUefi.Foundation.Pieces
import BootableUefi.Firmware.Status
import BootableUefi.Foundation.Runs
import BootableUefi.BootLogic.Escalation
import BootableUefi.Flash.Containment
import BootableUefi.Flash.Partition
import BootableUefi.Flash.ExpandedImage
import BootableUefi.Flash.SparseReads
import BootableUefi.Flash.Erase
import BootableUefi.Flash.EraseRanges
import BootableUefi.Flash.FillZero
import BootableUefi.BootImage.Header
import BootableUefi.BootImage.Memory
import BootableUefi.BootImage.Start
import BootableUefi.BootImage.Steps
import BootableUefi.BootImage.Stages
import BootableUefi.BootImage.SignedRegion
import BootableUefi.BootImage.PageBalance
import BootableUefi.Fastboot.Usb
import BootableUefi.Fastboot.Commands
import BootableUefi.Fastboot.Download
import BootableUefi.Fastboot.Responses
import BootableUefi.Flash.FillPattern
import BootableUefi.Fastboot.HandlerRules
import BootableUefi.Fastboot.Buffers
import BootableUefi.Fastboot.Refusals
import BootableUefi.BootImage.PoolFrees
import BootableUefi.BootImage.OsVerification
import BootableUefi.Foundation.Strings
import BootableUefi.Gpt.Partitions
import BootableUefi.Gpt.Labels
import BootableUefi.Foundation.Extents
import BootableUefi.BootImage.E820
import BootableUefi.BootLogic.OneShot
import BootableUefi.Foundation.Files
import BootableUefi.Warmdump.Regions
import BootableUefi.Efilinux.FileSystems
import BootableUefi.Efilinux.Main
import BootableUefi.Warmdump.RoundTrip
import BootableUefi.Efilinux.Starts
import BootableUefi.Efilinux.StartFrees
import BootableUefi.Efilinux.BlockOwnership
import BootableUefi.Gpt.Cache
import BootableUefi.Gpt.CacheFill
import BootableUefi.Gpt.EntryArray
import BootableUefi.Gpt.Names
import BootableUefi.BootImage.PageSearch
import BootableUefi.BootImage.Emalloc
import BootableUefi.BootImage.RamdiskPlacement
import BootableUefi.BootImage.CommandLine
import BootableUefi.BootImage.Copies
import BootableUefi.BootImage.Milestones
import BootableUefi.BootImage.ImageReads
import BootableUefi.Fastboot.BootReads
import BootableUefi.Efilinux.FileLength
import BootableUefi.Fastboot.SplitCmdline
import BootableUefi.Foundation.Words
import BootableUefi.Foundation.Digits
import BootableUefi.Fastboot.Numbers
import BootableUefi.Efilinux.Acpi
import BootableUefi.Efilinux.Rsci
import BootableUefi.Fastboot.Divisors
import BootableUefi.Foundation.Pool
import BootableUefi.Warmdump.ReadFile
import BootableUefi.Foundation.Skipping
import BootableUefi.Efilinux.Arguments
import BootableUefi.Efilinux.ParseArgs
import BootableUefi.Fastboot.Variables
import BootableUefi.Fastboot.Partsize
import BootableUefi.Fastboot.Printing
import BootableUefi.BootImage.Strstr
import BootableUefi.Foundation.Occurrences
import BootableUefi.Foundation.StringSets
import BootableUefi.Efilinux.Pmic
import BootableUefi.Log.Buffer
import BootableUefi.Log.Saved
import BootableUefi.Splash.Bmp
import BootableUefi.Splash.Paint
import BootableUefi.Splash.Reads
import BootableUefi.Splash.Bounds
import BootableUefi.Splash.Pixels
import BootableUefi.Foundation.Placements
import BootableUefi.BootImage.Handoff
import BootableUefi.BootImage.JumpMemory
import BootableUefi.Flash.Outcome
import BootableUefi.Fastboot.Session
import BootableUefi.Warmdump.Handshake
import BootableUefi.Efilinux.EnergyMgmt
import BootableUefi.Efilinux.Attempts
import BootableUefi.Foundation.Layout
import BootableUefi.Flash.Encoding
import BootableUefi.Fastboot.Host
import BootableUefi.BootLogic.Told
import BootableUefi.Splash.Display
import BootableUefi.Gpt.Format
import BootableUefi.BootImage.Encoding
import BootableUefi.Fastboot.FlashedBoot
import BootableUefi.Efilinux.TargetPartitions
import BootableUefi.Efilinux.RescueMode
