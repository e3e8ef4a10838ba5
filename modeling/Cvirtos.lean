import Cvirtos.Lib.Memory
import Cvirtos.Lib.Loop
import Cvirtos.Lib.LastWriter
import Cvirtos.Usb.Error
import Cvirtos.Usb.Dwc2.Dma
import Cvirtos.Usb.Dwc2.Isoch
import Cvirtos.Usb.Uvc.Capture
import Cvirtos.Usb.Uvc.FrameIntegrity
import Cvirtos.Usb.Uvc.FrameAssembly
import Cvirtos.Usb.Uvc.FrameStream
import Cvirtos.Usb.Uvc.CaptureBudget
import Cvirtos.Jpu.Header
import Cvirtos.Jpu.Decoder
import Cvirtos.Jpu.HeaderTables
import Cvirtos.Jpu.HeaderScan
import Cvirtos.Jpu.HeaderSafety
import Cvirtos.Jpu.HeaderAcceptance
import Cvirtos.Jpu.HeaderEncoding
import Cvirtos.Jpu.HeaderRecovery
import Cvirtos.Jpu.HuffmanCodes
import Cvirtos.Jpu.HeaderFields
import Cvirtos.Lib.Transition
import Cvirtos.Logger.LineLock
import Cvirtos.Logger.LineLockSafety
import Cvirtos.Lib.Triple
import Cvirtos.Lib.Fuel
import Cvirtos.Usb.Device
import Cvirtos.Usb.Hub
import Cvirtos.Usb.WalkRules
import Cvirtos.Usb.EnumerationAddresses
import Cvirtos.Usb.DeviceTree
import Cvirtos.Usb.TreeBus
import Cvirtos.Usb.EnumerationReturns
import Cvirtos.Usb.EnumerationTree
import Cvirtos.Usb.DefaultAddress
import Cvirtos.Ipc.Mailbox
import Cvirtos.Ipc.Frames
import Cvirtos.Ipc.Publication
import Cvirtos.Ipc.Replies
import Cvirtos.Jpu.Pool
import Cvirtos.Lib.FirstFit
import Cvirtos.Jpu.PoolSafety
import Cvirtos.Jpu.Planes
import Cvirtos.Lib.FirstMax
import Cvirtos.Usb.Uvc.Descriptor
import Cvirtos.Usb.Uvc.DescriptorScan
import Cvirtos.Usb.Uvc.StreamScan
import Cvirtos.Usb.Uvc.DescriptorSafety
import Cvirtos.Usb.Uvc.StreamSelection
import Cvirtos.Usb.Dwc2.Channel
import Cvirtos.Usb.Dwc2.Control
import Cvirtos.Lib.AlternatingBit
import Cvirtos.Usb.Dwc2.ControlWrite
import Cvirtos.Usb.Dwc2.ControlRead
import Cvirtos.Lib.WriteBack
import Cvirtos.Arch.Cache
import Cvirtos.Usb.Dwc2.Coherence
import Cvirtos.Usb.Dwc2.IsochChannel
import Cvirtos.Usb.Uvc.CaptureChannel
import Cvirtos.Usb.Dwc2.ControlCoherence
import Cvirtos.Usb.Dwc2.Kept
import Cvirtos.Usb.Uvc.CaptureRules
import Cvirtos.Usb.Uvc.CaptureCoherence
import Cvirtos.Usb.WindowCoherence
import Cvirtos.Usb.Dwc2.ChannelVerdict
import Cvirtos.Usb.Uvc.FramePreference
import Cvirtos.Usb.Uvc.AltReselection
import Cvirtos.Jpu.DecodeStart
import Cvirtos.Jpu.OutputSize
import Cvirtos.Jpu.Bitstream
import Cvirtos.Jpu.HuffmanDecoding
import Cvirtos.Jpu.HuffmanUpload
import Cvirtos.Jpu.Dequantisation
import Cvirtos.Jpu.HeaderValidity
import Cvirtos.Usb.Uvc.FrameFid
import Cvirtos.Usb.Uvc.FlipStream
import Cvirtos.Gpio
import Cvirtos.Usb.RootPort
import Cvirtos.Jpu.PoolRegion
import Cvirtos.Usb.Uvc.FrameInterval
import Cvirtos.Lib.Records
import Cvirtos.Usb.Uvc.DescriptorInsertion
import Cvirtos.Lib.LittleEndian
import Cvirtos.Usb.Uvc.ControlEntities
import Cvirtos.Usb.Uvc.Stream
import Cvirtos.Lib.Kept
import Cvirtos.Usb.Uvc.FrameLosses
import Cvirtos.Lib.Rv64
import Cvirtos.Arch.Asm
import Cvirtos.Usb.SetupPacket
import Cvirtos.Usb.Dwc2.SetupLog
import Cvirtos.Usb.Uvc.Controls
import Cvirtos.Usb.Uvc.ControlSettings
import Cvirtos.Usb.Uvc.ServingMachine
import Cvirtos.Usb.Uvc.CaptureRefinement
import Cvirtos.Lib.Poll
import Cvirtos.Arch.Time
import Cvirtos.Jpu.Reset
import Cvirtos.Jpu.Session
import Cvirtos.Pipeline
import Cvirtos.Arch.Heartbeat
import Cvirtos.Usb.Dwc2.ChannelRegs
import Cvirtos.Usb.EndpointTransfers
import Cvirtos.Usb.Uvc.Session
