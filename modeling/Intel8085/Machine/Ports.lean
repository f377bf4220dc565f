import Intel8085.Machine.Fault
import Intel8085.Storage.Bank
import Intel8085.Storage.Word

/-!
# Ports

There are 256 ports of a byte each.  Observers are registered on a port.  When a write changes the
value of the port, every observer of it is told, in the order of registration, and the journal keeps
what each was told.  A device that drives a port from outside tells no observer.
-/

set_option autoImplicit false

namespace Intel8085

structure PortEvent where
  observer : String
  port : UInt8
  old : UInt8
  new : UInt8
  deriving DecidableEq, Repr

/-- The ports with their observers in the order of registration, and the journal of what the
observers were told, the newest event first. -/
structure Ports where
  values : Bank UInt8 8
  observers : List (UInt8 × String)
  journal : List PortEvent
  deriving DecidableEq

namespace Ports

def count : Nat := 256

def silent : Ports where
  values := .filled 0 8
  observers := []
  journal := []

def read (ports : Ports) (port : UInt8) : UInt8 :=
  ports.values.get port.toNat

def observersOf (ports : Ports) (port : UInt8) : List String :=
  (ports.observers.filter fun entry => entry.1 == port).map fun entry => entry.2

def eventsOf (ports : Ports) (port old new : UInt8) : List PortEvent :=
  (ports.observersOf port).map fun observer => { observer, port, old, new }

/-- The ports after a write; the observers are told if the value changes. -/
def write (ports : Ports) (port value : UInt8) : Ports :=
  let old := ports.read port
  let events := if old = value then [] else ports.eventsOf port old value
  { ports with
    values := ports.values.set port.toNat value
    journal := events.reverse ++ ports.journal }

/-- The ports after a device has driven one of them. -/
def drive (ports : Ports) (port value : UInt8) : Ports :=
  { ports with values := ports.values.set port.toNat value }

def observe (ports : Ports) (port : UInt8) (observer : String) : Ports :=
  { ports with observers := ports.observers ++ [(port, observer)] }

/-- Every port zero again; observers stay. -/
def reset (ports : Ports) : Ports :=
  { ports with values := .filled 0 8 }

def events (ports : Ports) : List PortEvent :=
  ports.journal.reverse

def clearJournal (ports : Ports) : Ports :=
  { ports with journal := [] }

def port (number : Int) : Except Fault UInt8 :=
  if 0 ≤ number ∧ number ≤ 0xFF then .ok (byteOf number) else .error (.portOutOfBounds number)

end Ports

end Intel8085
