namespace UsbDevice

/-- Why a request was refused. -/
inductive ErrorCode
  | fail
  | busy
  | already
  | off
  | reserve
  | inval
  | size
  | cancel
  | nomem
  | nosupport
  | nodevice
  | uninstalled
  | noack
deriving DecidableEq, Repr

namespace ErrorCode

def all : List ErrorCode :=
  [fail, busy, already, off, reserve, inval, size, cancel, nomem, nosupport, nodevice, uninstalled, noack]

def name : ErrorCode → String
  | fail => "FAIL"
  | busy => "BUSY"
  | already => "ALREADY"
  | off => "OFF"
  | reserve => "RESERVE"
  | inval => "INVAL"
  | size => "SIZE"
  | cancel => "CANCEL"
  | nomem => "NOMEM"
  | nosupport => "NOSUPPORT"
  | nodevice => "NODEVICE"
  | uninstalled => "UNINSTALLED"
  | noack => "NOACK"

/-- The number that stands for the error outside the kernel. -/
def code : ErrorCode → Nat
  | fail => 1
  | busy => 2
  | already => 3
  | off => 4
  | reserve => 5
  | inval => 6
  | size => 7
  | cancel => 8
  | nomem => 9
  | nosupport => 10
  | nodevice => 11
  | uninstalled => 12
  | noack => 13

end ErrorCode

end UsbDevice
