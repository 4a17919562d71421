import HalmExamples.Foundation.Word
import HalmExamples.Halm.Interface
import HalmExamples.FlashCfi.Chip

/-!
# The driver

The functions of `flash_cfi.c` with `uint32_t` and `size_t` of 32 bits.  Bus
addresses are relative to `interface->address`, where the chip is mapped, and
every write to the bus is listed in order.  A call that fails an assertion
gives nothing.
-/

set_option autoImplicit false

namespace HalmExamples.FlashCfi

open Foundation Halm

def blockSize : Nat := 65536
def sectorSize : Nat := 4096

structure FlashCFI where
  offset : Nat
  size : Nat
  deriving DecidableEq

structure Outcome (Value : Type) where
  value : Value
  interface : FlashCFI
  cycles : List BusCycle

/-! ## Commands -/

def eraseBlock (offset : Nat) : Option (List BusCycle) :=
  if offset % blockSize = 0 then
    some [⟨0x5555, 0x00AA⟩, ⟨0x2AAA, 0x0055⟩, ⟨0x5555, 0x0080⟩,
      ⟨0x5555, 0x00AA⟩, ⟨0x2AAA, 0x0055⟩, ⟨offset >>> 1, 0x0050⟩]
  else none

def eraseSector (offset : Nat) : Option (List BusCycle) :=
  if offset % sectorSize = 0 then
    some [⟨0x5555, 0x00AA⟩, ⟨0x2AAA, 0x0055⟩, ⟨0x5555, 0x0080⟩,
      ⟨0x5555, 0x00AA⟩, ⟨0x2AAA, 0x0055⟩, ⟨offset >>> 1, 0x0030⟩]
  else none

def writeWord (offset : Nat) (value : UInt16) : Option (List BusCycle) :=
  if offset % 2 = 0 then
    some [⟨0x5555, 0x00AA⟩, ⟨0x2AAA, 0x0055⟩, ⟨0x5555, 0x00A0⟩, ⟨offset >>> 1, value⟩]
  else none

/-! ## Interface -/

def interfaceInit (size : Nat) : FlashCFI := { offset := 0, size := size }

def interfaceGetParam (interface : FlashCFI) : Parameter → Result × Option Nat
  | .flashBlockSize => (.ok, some blockSize)
  | .flashSectorSize => (.ok, some sectorSize)
  | .position => (.ok, some interface.offset)
  | .size => (.ok, some interface.size)
  | _ => (.invalid, none)

def eraseParam (interface : FlashCFI) (unit : Nat) (command : Nat → Option (List BusCycle))
    (position : Nat) : Option (Outcome Result) :=
  if position ≥ interface.size then some ⟨.address, interface, []⟩
  else if position % unit ≠ 0 then some ⟨.address, interface, []⟩
  else (command position).map fun cycles => ⟨.ok, interface, cycles⟩

def interfaceSetParam (interface : FlashCFI) (parameter : Parameter) (data : Nat) :
    Option (Outcome Result) :=
  match parameter with
  | .flashEraseBlock => eraseParam interface blockSize eraseBlock data
  | .flashEraseSector => eraseParam interface sectorSize eraseSector data
  | .position =>
      if data < interface.size then some ⟨.ok, { interface with offset := data }, []⟩
      else some ⟨.address, interface, []⟩
  | _ => some ⟨.invalid, interface, []⟩

def FlashCFI.clamp (interface : FlashCFI) (length : Nat) : Nat :=
  if wrap32 (interface.offset + length) > interface.size then
    sub32 interface.size interface.offset
  else length

def FlashCFI.advance (interface : FlashCFI) (length : Nat) : FlashCFI :=
  let offset := wrap32 (interface.offset + length)
  { interface with offset := if offset = interface.size then 0 else offset }

/-- `memory` is what the processor reads at each byte from `interface->address`. -/
def interfaceRead (interface : FlashCFI) (memory : Nat → UInt8) (length : Nat) :
    Option (Outcome (List UInt8)) :=
  if length % 2 = 0 then
    let count := interface.clamp length
    some
      { value := (List.range count).map fun index => memory (interface.offset + index)
        interface := interface.advance count
        cycles := [] }
  else none

/-- `((const uint16_t *)buffer)[index / 2]` for an even index. -/
def inputWord (buffer : Nat → UInt8) (index : Nat) : UInt16 :=
  (buffer index).toUInt16 ||| (buffer (index + 1)).toUInt16 <<< 8

/-- The loop of `interfaceWrite` from `index` on, for the iterations that remain. -/
def writeWords (offset : Nat) (buffer : Nat → UInt8) (index : Nat) :
    Nat → Option (List BusCycle)
  | 0 => some []
  | remaining + 1 =>
      match writeWord (wrap32 (offset + index)) (inputWord buffer index) with
      | none => none
      | some cycles => (writeWords offset buffer (index + 2) remaining).map (cycles ++ ·)

def interfaceWrite (interface : FlashCFI) (buffer : Nat → UInt8) (length : Nat) :
    Option (Outcome Nat) :=
  if length % 2 = 0 then
    let count := interface.clamp length
    (writeWords interface.offset buffer 0 ((count + 1) / 2)).map fun cycles =>
      { value := count, interface := interface.advance count, cycles := cycles }
  else none

/-! ## The driver on its chip -/

inductive Request where
  | getParam (parameter : Parameter)
  | setParam (parameter : Parameter) (data : Nat)
  | read (length : Nat)
  | write (buffer : Nat → UInt8) (length : Nat)

inductive Response where
  | param (result : Result) (value : Option Nat)
  | bytes (read : List UInt8)
  | count (written : Nat)
  deriving DecidableEq

structure Device where
  interface : FlashCFI
  chip : Chip

def Device.settle {Value : Type} (device : Device) (outcome : Outcome Value)
    (response : Value → Response) : Response × Device :=
  (response outcome.value, ⟨outcome.interface, device.chip.accept outcome.cycles⟩)

def Device.handle (device : Device) : Request → Option (Response × Device)
  | .getParam parameter =>
      let (result, value) := interfaceGetParam device.interface parameter
      some (.param result value, device)
  | .setParam parameter data =>
      (interfaceSetParam device.interface parameter data).map fun outcome =>
        device.settle outcome fun result => .param result none
  | .read length =>
      (interfaceRead device.interface device.chip.byteAt length).map fun outcome =>
        device.settle outcome .bytes
  | .write buffer length =>
      (interfaceWrite device.interface buffer length).map fun outcome =>
        device.settle outcome .count

end HalmExamples.FlashCfi
