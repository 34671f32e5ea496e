import EtherChip.Bench.Demo
import EtherChip.Bench.Session
import EtherChip.Bus.Lines
import EtherChip.Bus.Master
import EtherChip.Bus.Sampler
import EtherChip.Bytes
import EtherChip.Chip
import EtherChip.Dump.Registers
import EtherChip.Dump.Ring
import EtherChip.Error
import EtherChip.Framing.Burst
import EtherChip.Framing.Decoder
import EtherChip.Framing.Frame
import EtherChip.Framing.Operation
import EtherChip.Host.Errno
import EtherChip.Host.Interface
import EtherChip.Host.Network
import EtherChip.Host.Socket
import EtherChip.Memory.AddressSpace
import EtherChip.Memory.Map
import EtherChip.Model
import EtherChip.Net.Address
import EtherChip.Net.Config
import EtherChip.SaveState.File
import EtherChip.SaveState.Layout
import EtherChip.SaveState.State
import EtherChip.SaveState.Storage
import EtherChip.Service.Dhcp
import EtherChip.Service.Header
import EtherChip.Service.Sntp
import EtherChip.Socket.Command
import EtherChip.Socket.Engine
import EtherChip.Socket.Poll
import EtherChip.Socket.Registers
import EtherChip.Socket.Ring
import EtherChip.Text.Blank
import EtherChip.Text.Hex
import EtherChip.Text.Hidden
import EtherChip.Text.Quoted
import EtherChip.Proofs.Bench.Clock
import EtherChip.Proofs.Bench.Demos
import EtherChip.Proofs.Bench.Exchange
import EtherChip.Proofs.Bench.Patience
import EtherChip.Proofs.Bench.Play
import EtherChip.Proofs.Bench.Replies
import EtherChip.Proofs.Bus.Access
import EtherChip.Proofs.Bus.Acknowledge
import EtherChip.Proofs.Bus.Bytewise
import EtherChip.Proofs.Bus.Exchange
import EtherChip.Proofs.Bus.FlatAccess
import EtherChip.Proofs.Bus.History
import EtherChip.Proofs.Bus.Isolation
import EtherChip.Proofs.Bus.Ownership
import EtherChip.Proofs.Bus.Reset
import EtherChip.Proofs.Bus.RingBurst
import EtherChip.Proofs.Bus.Sampling
import EtherChip.Proofs.Bus.SettledAccess
import EtherChip.Proofs.Bus.Transaction
import EtherChip.Proofs.Bus.Waveform
import EtherChip.Proofs.Checked.Address
import EtherChip.Proofs.Checked.Chip
import EtherChip.Proofs.Checked.Course
import EtherChip.Proofs.Checked.Dump
import EtherChip.Proofs.Checked.Memory
import EtherChip.Proofs.Checked.Primitive
import EtherChip.Proofs.Checked.Ring
import EtherChip.Proofs.Checked.Service
import EtherChip.Proofs.Checked.Socket
import EtherChip.Proofs.Dump.Ring
import EtherChip.Proofs.Framing.BurstGrammar
import EtherChip.Proofs.Framing.FrameGrammar
import EtherChip.Proofs.Framing.Selection
import EtherChip.Proofs.Framing.Walk
import EtherChip.Proofs.Host.Coupling
import EtherChip.Proofs.Host.FirstDatagram
import EtherChip.Proofs.Host.Inlet
import EtherChip.Proofs.Host.Ledger
import EtherChip.Proofs.Host.NetworkInlet
import EtherChip.Proofs.Host.Outcome
import EtherChip.Proofs.Host.Recorded
import EtherChip.Proofs.Host.Stages
import EtherChip.Proofs.Memory.Coupling
import EtherChip.Proofs.Memory.GiveBack
import EtherChip.Proofs.Memory.Ownership
import EtherChip.Proofs.Memory.SoftReset
import EtherChip.Proofs.Memory.Still
import EtherChip.Proofs.Memory.Storage
import EtherChip.Proofs.Memory.Tick
import EtherChip.Proofs.Memory.Unread
import EtherChip.Proofs.Memory.WriteEffect
import EtherChip.Proofs.SaveState.Format
import EtherChip.Proofs.SaveState.Layout
import EtherChip.Proofs.SaveState.Normal
import EtherChip.Proofs.SaveState.Restore
import EtherChip.Proofs.SaveState.Stored
import EtherChip.Proofs.Service.Lease
import EtherChip.Proofs.Service.OptionArea
import EtherChip.Proofs.Socket.Attempt
import EtherChip.Proofs.Socket.Bank
import EtherChip.Proofs.Socket.Change
import EtherChip.Proofs.Socket.Coupling
import EtherChip.Proofs.Socket.Delivery
import EtherChip.Proofs.Socket.Dispatch
import EtherChip.Proofs.Socket.Edges
import EtherChip.Proofs.Socket.Flood
import EtherChip.Proofs.Socket.Interrupt
import EtherChip.Proofs.Socket.Operation
import EtherChip.Proofs.Socket.Ownership
import EtherChip.Proofs.Socket.Pointers
import EtherChip.Proofs.Socket.Promise
import EtherChip.Proofs.Socket.Receive
import EtherChip.Proofs.Socket.ReceivedDatagrams
import EtherChip.Proofs.Socket.ReceivedStream
import EtherChip.Proofs.Socket.Refusal
import EtherChip.Proofs.Socket.RingCopy
import EtherChip.Proofs.Socket.Session
import EtherChip.Proofs.Socket.Stage
import EtherChip.Proofs.Socket.Stream
import EtherChip.Proofs.Socket.Trace
import EtherChip.Proofs.Socket.Transmit
import EtherChip.Proofs.Socket.Unread
import EtherChip.Proofs.Text.Reading
