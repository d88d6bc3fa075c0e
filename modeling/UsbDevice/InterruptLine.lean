namespace UsbDevice

/-- The interrupt lines of the chip. -/
inductive InterruptLine
  | realTimeClock
  | port2
  | timer2Capture
  | timer2
  | serialB1
  | serialA1
  | port1
  | timer1Capture
  | timer1
  | dma
  | usb
  | timer0Capture
  | timer0
  | converter
  | serialB0
  | serialA0
  | watchdog
  | timerBCapture
  | timerB
  | comparator
  | userNonMaskable
  | systemNonMaskable
deriving DecidableEq, Repr

namespace InterruptLine

def all : List InterruptLine :=
  [realTimeClock, port2, timer2Capture, timer2, serialB1, serialA1, port1, timer1Capture, timer1, dma, usb,
    timer0Capture, timer0, converter, serialB0, serialA0, watchdog, timerBCapture, timerB, comparator,
    userNonMaskable, systemNonMaskable]

def name : InterruptLine → String
  | realTimeClock => "RTC"
  | port2 => "PORT2"
  | timer2Capture => "TIMER2_A1"
  | timer2 => "TIMER2_A0"
  | serialB1 => "USCI_B1"
  | serialA1 => "USCI_A1"
  | port1 => "PORT1"
  | timer1Capture => "TIMER1_A1"
  | timer1 => "TIMER1_A0"
  | dma => "DMA"
  | usb => "USB_UBM"
  | timer0Capture => "TIMER0_A1"
  | timer0 => "TIMER0_A0"
  | converter => "ADC12"
  | serialB0 => "USCI_B0"
  | serialA0 => "USCI_A0"
  | watchdog => "WDT"
  | timerBCapture => "TIMER0_B1"
  | timerB => "TIMER0_B0"
  | comparator => "COMP_B"
  | userNonMaskable => "UNMI"
  | systemNonMaskable => "SYSNMI"

/-- Place of the line in the interrupt table of the chip. -/
def number : InterruptLine → BitVec 32
  | realTimeClock => 41
  | port2 => 42
  | timer2Capture => 43
  | timer2 => 44
  | serialB1 => 45
  | serialA1 => 46
  | port1 => 47
  | timer1Capture => 48
  | timer1 => 49
  | dma => 50
  | usb => 51
  | timer0Capture => 52
  | timer0 => 53
  | converter => 54
  | serialB0 => 55
  | serialA0 => 56
  | watchdog => 57
  | timerBCapture => 58
  | timerB => 59
  | comparator => 60
  | userNonMaskable => 61
  | systemNonMaskable => 62

end InterruptLine

end UsbDevice
