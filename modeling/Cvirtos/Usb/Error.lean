import Mathlib.Algebra.Order.Ring.Nat

/-!
# USB stack errors

`UsbError` and `UsbResult` of `drivers/usb/error.rs`, shared by the host and the class code.
-/

set_option autoImplicit false

namespace Cvirtos.Usb

inductive UsbError where
  | notImplemented
  | timeout
  | hardware (msg : String)
  | protocol (msg : String)
  | stall
  | notPresent
  deriving DecidableEq, Repr

abbrev UsbResult (α : Type) := Except UsbError α

end Cvirtos.Usb
