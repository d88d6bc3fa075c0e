import UsbDevice.Config
import UsbDevice.Critical
import UsbDevice.Debug.MeteredSink
import UsbDevice.Fault
import UsbDevice.Holder
import UsbDevice.InterruptLine
import UsbDevice.Session.Record
import UsbDevice.Proofs.ControllerAction
import UsbDevice.Proofs.SessionReach
import UsbDevice.Proofs.ControlSlot
import UsbDevice.Proofs.FieldWrites
import UsbDevice.Proofs.ControlPackets
import UsbDevice.Proofs.ReportOrigin
import UsbDevice.Proofs.BusResetBarrier
import UsbDevice.Proofs.RunHistory
import UsbDevice.Proofs.MaskedSections
import UsbDevice.Proofs.MaskedRuns
import UsbDevice.Proofs.ArmedEnables
import UsbDevice.Proofs.HeldGuards
import UsbDevice.Proofs.HaltLatch
import UsbDevice.Proofs.SetupDelivery
import UsbDevice.Proofs.StepOutcome
import UsbDevice.Proofs.Diagnostics
import UsbDevice.Proofs.BlindRuns
import UsbDevice.Proofs.LentBytes
import UsbDevice.Proofs.CallbackOrder
import UsbDevice.Proofs.BegunInterrupts
import UsbDevice.Proofs.EnabledSources
import UsbDevice.Proofs.MessageDelivery
import UsbDevice.Proofs.RegisterFootprint
import UsbDevice.Proofs.FullSinks
import UsbDevice.Proofs.PacketSplit
import UsbDevice.Proofs.PacketConservation
import UsbDevice.Proofs.SetupCapture
import UsbDevice.Proofs.InertEndpoints
import UsbDevice.Proofs.SlotConsistency
import UsbDevice.Proofs.SectionSnapshot
import UsbDevice.Proofs.QueuedTransfers
import UsbDevice.Proofs.VectorCodes
import UsbDevice.Proofs.VectorVerdict
import UsbDevice.Proofs.SummedFields
import UsbDevice.Proofs.EncodedSources
import UsbDevice.Proofs.UnstartedSlots
import UsbDevice.Proofs.ChipCalls
