import UsbDevice.Endpoint
import UsbDevice.Register.Field

namespace UsbDevice

/-! Configuration of the module as a whole. -/

namespace ModuleConfig

def moduleEnable : BitField 16 := { name := "USB_EN", shift := 0 }
def pullUpEnable : BitField 16 := { name := "PUR_EN", shift := 1 }
def pullUpInput : BitField 16 := { name := "PUR_IN", shift := 2 }
def blockReady : BitField 16 := { name := "BLKRDY", shift := 3 }
def frameTrigger : BitField 16 := { name := "FNTEN", shift := 4 }

def layout : Layout 16 where
  name := "USBCNF"
  fields := [moduleEnable, pullUpEnable, pullUpInput, blockReady, frameTrigger]

end ModuleConfig

/-! Supply of the module: the flags and the enables of the supply interrupts, and the regulators. -/

namespace PowerControl

def overloadFlag : BitField 16 := { name := "VUOVLIFG", shift := 0 }
def busOnFlag : BitField 16 := { name := "VBONIFG", shift := 1 }
def busOffFlag : BitField 16 := { name := "VBOFFIFG", shift := 2 }
def bandgapValid : BitField 16 := { name := "USBBGVBV", shift := 3 }
def detectEnable : BitField 16 := { name := "USBDETEN", shift := 4 }
def overloadAutoOff : BitField 16 := { name := "OVLAOFF", shift := 5 }
def regulatorAutoOn : BitField 16 := { name := "SLDOAON", shift := 6 }
def overloadEnable : BitField 16 := { name := "VUOVLIE", shift := 8 }
def busOnEnable : BitField 16 := { name := "VBONIE", shift := 9 }
def busOffEnable : BitField 16 := { name := "VBOFFIE", shift := 10 }
def supplyEnable : BitField 16 := { name := "VUSBEN", shift := 11 }
def regulatorEnable : BitField 16 := { name := "SLDOEN", shift := 12 }

def layout : Layout 16 where
  name := "USBPWRCTL"
  fields := [overloadFlag, busOnFlag, busOffFlag, bandgapValid, detectEnable, overloadAutoOff, regulatorAutoOn,
    overloadEnable, busOnEnable, busOffEnable, supplyEnable, regulatorEnable]

/-- The enables of the three supply interrupts. -/
def enables : Word := overloadEnable.mask ||| busOnEnable.mask ||| busOffEnable.mask

def clearEnables : FieldValue 16 := overloadEnable.clear + busOnEnable.clear + busOffEnable.clear

def clearFlags : FieldValue 16 := overloadFlag.clear + busOnFlag.clear + busOffFlag.clear

end PowerControl

namespace EndpointConfig

def interruptIndication : BitField 8 := { name := "USBIIE", shift := 2 }
def stall : BitField 8 := { name := "STALL", shift := 3 }
def doubleBuffer : BitField 8 := { name := "DBUF", shift := 4 }
def toggle : BitField 8 := { name := "TOGGLE", shift := 5 }
def bufferEnable : BitField 8 := { name := "UBME", shift := 7 }

def layout : Layout 8 where
  name := "EPCNF"
  fields := [interruptIndication, stall, doubleBuffer, toggle, bufferEnable]

end EndpointConfig

/-! Byte count of a packet of endpoint 0, and whether the endpoint answers NAK. -/

namespace EndpointCount

def count : BitField 8 := { name := "CNT", shift := 0, width := 4 }
def nak : BitField 8 := { name := "NAK", shift := 7 }

def layout : Layout 8 where
  name := "EP0CNT"
  fields := [count, nak]

end EndpointCount

/-! One bit for each endpoint number. -/

namespace EndpointBits

def endpointZero : BitField 8 := { name := "EP0", shift := 0 }

def layout : Layout 8 where
  name := "EPINT"
  fields := [endpointZero, { name := "EP1", shift := 1 }, { name := "EP2", shift := 2 },
    { name := "EP3", shift := 3 }, { name := "EP4", shift := 4 }, { name := "EP5", shift := 5 },
    { name := "EP6", shift := 6 }, { name := "EP7", shift := 7 }]

end EndpointBits

namespace BusControl

/-- Direction of the data stage on endpoint 0. -/
def direction : BitField 8 := { name := "DIR", shift := 0 }
def resetEnable : BitField 8 := { name := "FRSTE", shift := 4 }
def remoteWakeup : BitField 8 := { name := "RWUP", shift := 5 }
def functionEnable : BitField 8 := { name := "FEN", shift := 6 }

def layout : Layout 8 where
  name := "USBCTL"
  fields := [direction, resetEnable, remoteWakeup, functionEnable]

def toward (d : Direction) : FieldValue 8 := direction.val (BitVec.ofNat 8 d.value)

end BusControl

namespace BusEnable

def reset : BitField 8 := { name := "RSTRIE", shift := 2 }
def suspend : BitField 8 := { name := "SUSRIE", shift := 3 }
def resume : BitField 8 := { name := "RESRIE", shift := 4 }
def setup : BitField 8 := { name := "SETUPIE", shift := 6 }
def setupOverwrite : BitField 8 := { name := "STPOWIE", shift := 7 }

def layout : Layout 8 where
  name := "USBIE"
  fields := [reset, suspend, resume, setup, setupOverwrite]

end BusEnable

namespace BusFlag

def reset : BitField 8 := { name := "RSTRIFG", shift := 2 }
def suspend : BitField 8 := { name := "SUSRIFG", shift := 3 }
def resume : BitField 8 := { name := "RESRIFG", shift := 4 }
def setup : BitField 8 := { name := "SETUPIFG", shift := 6 }
def setupOverwrite : BitField 8 := { name := "STPOWIFG", shift := 7 }

def layout : Layout 8 where
  name := "USBIFG"
  fields := [reset, suspend, resume, setup, setupOverwrite]

end BusFlag

namespace FunctionAddress

def address : BitField 8 := { name := "FA", shift := 0, width := 7 }

def layout : Layout 8 where
  name := "USBFUNADR"
  fields := [address]

end FunctionAddress

/-- Every register of the module that is made of fields, with its width. -/
def layouts : List ((w : Nat) × Layout w) :=
  [⟨16, ModuleConfig.layout⟩, ⟨16, PowerControl.layout⟩, ⟨8, EndpointConfig.layout⟩, ⟨8, EndpointCount.layout⟩,
    ⟨8, EndpointBits.layout⟩, ⟨8, BusControl.layout⟩, ⟨8, BusEnable.layout⟩, ⟨8, BusFlag.layout⟩,
    ⟨8, FunctionAddress.layout⟩]

end UsbDevice
