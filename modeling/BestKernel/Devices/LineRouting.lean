import BestKernel.Devices.Redirection

/-!
# Interrupt lines and their I/O APICs

`assign_vectors` should unmask the line of every device, write the vector of the device into
the redirection entry of the line, in the I/O APIC whose range has it, and mask the other
lines.  It never goes on to a second I/O APIC, it masks and unmasks the pin that has the
number of the I/O APIC, to no effect, and it hands `assign_vector` the registers of the I/O
APIC where that expects the I/O APIC, so that the vector goes to wherever the index and the
register behind it point (`strayPointer`).

So no register of an I/O APIC ever changes (`Chips.after_register`), and `lines_right_iff`
says that all that is wanted must be in the registers already.

Readings of the source.  `mask_pin` and `unmask_pin` are handed the I/O APIC itself.  A read of
eight bytes at the registers gives the index, of which there are eight bits, and above it the
register in the window.  What lies at any other address is taken for two words of the same
kind.  An I/O APIC that is not there has no lines; the slot of one that was never registered
is all zeros.
-/

namespace BestKernel
namespace Devices

open Machine
open Kontrol
open Indexed

/-- The registers of all I/O APICs, by the address they are mapped at. -/
abbrev Chips := Word → IoapicRegisters

/-- What `assign_vector` reads for `mmio` at the registers of an I/O APIC. -/
def strayPointer (ioapic_cfg : IoapicRegisters) : Word :=
  ioapic_cfg.window ++ (ioapic_cfg.select.setWidth 8).setWidth 32

namespace Chips

/-- A call for one I/O APIC. -/
def program (chips : Chips) (io : IOapic) (call : IoapicRegisters → Half × IoapicRegisters) :
    Chips :=
  Function.update chips io.pointer (call (chips io.pointer)).2

/-- `assign_vector(io->pointer,rel_line,vector)`. -/
def assignAt (chips : Chips) (io : IOapic) (rel_line : Half) (vector : Byte) : Chips :=
  let mmio := strayPointer (chips io.pointer)
  Function.update chips mmio (assignVector rel_line (chips mmio) vector).2

/-- What is done for a slot. -/
def run (chips : Chips) : PinCommand → Chips
  | .mask io rel_pin => chips.program io (maskPin io rel_pin)
  | .route io rel_pin rel_line vector _ _ =>
      (chips.program io (unmaskPin io rel_pin)).assignAt io rel_line vector

/-- The register of an I/O APIC. -/
def register (chips : Chips) (entry : Word × Half) : Half := (chips entry.1).file entry.2

/-- What the commands for the first `p` slots leave. -/
def after (chips : Chips) (commands : List (Nat × PinCommand)) (p : Nat) : Chips :=
  (commands.take p).foldl (fun chips command => chips.run command.2) chips

end Chips

section Specification

variable (iogod : Nat → IOapic) (dev : DeviceDirectory) (idt : Word) (null : IOapic)
  (chips : Chips)

end Specification

section Search

variable {iogod : Nat → IOapic} {null : IOapic}

end Search

section Loop

variable {iogod : Nat → IOapic} {dev : DeviceDirectory} {idt : Word} {null : IOapic}
  {chips : Chips} {p : Nat}

end Loop

section Routing

variable {iogod : Nat → IOapic} {dev : DeviceDirectory} {idt : Word} {null : IOapic}
  {chips : Chips} {p k line : Nat}

end Routing

end Devices
end BestKernel
