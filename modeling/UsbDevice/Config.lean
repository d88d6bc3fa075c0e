namespace UsbDevice

/-- What the firmware is built to report. -/
structure Config where
  /-- Print a message for each packet. -/
  traceUsb : Bool := false
  /-- Print the state of the controller before stopping at a fault. -/
  debugPanics : Bool := true
deriving DecidableEq, Repr

end UsbDevice
