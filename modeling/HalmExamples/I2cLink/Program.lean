/-!
# Two boards on one I2C bus

`templates/i2c_test.jinja2` is the master: once a second it sends the number of the round to
a register of the slave.  `templates/i2c_slave.jinja2` is the slave: it shows the lowest bits
of the register with its LEDs.  A transfer can take place between any two statements of the
slave, and it can break off.
-/

set_option autoImplicit false

namespace HalmExamples.I2cLink

/-! ## The slave -/

def ledCount : Nat := 3

inductive Control where
  | wait
  | clearEvent
  | setPosition
  | read
  | writeLed (state : UInt8) (index : Nat)
  deriving DecidableEq

structure Slave where
  register : UInt8
  event : Bool
  leds : Nat → Bool
  control : Control

def initialSlave (register : UInt8) : Slave :=
  { register := register, event := false, leds := fun _ => false, control := .wait }

/-- `state & (1 << i)` -/
def shown (state : UInt8) (index : Nat) : Bool := state.toNat.testBit index

/-- `valid` tells which LEDs the board has. -/
def slaveStatement (valid : Nat → Bool) (slave : Slave) : Slave :=
  match slave.control with
  | .wait => if slave.event then { slave with control := .clearEvent } else slave
  | .clearEvent => { slave with event := false, control := .setPosition }
  | .setPosition => { slave with control := .read }
  | .read => { slave with control := .writeLed slave.register 0 }
  | .writeLed state index =>
      if index < ledCount then
        { slave with
          leds := fun led =>
            if led = index ∧ valid led = true then shown state led else slave.leds led
          control := .writeLed state (index + 1) }
      else { slave with control := .wait }

/-- `onDeviceMemoryChanged` follows on what the driver stores. -/
def Slave.receive (slave : Slave) (value : UInt8) : Slave :=
  { slave with register := value, event := true }

/-! ## The master -/

structure Master where
  iteration : UInt8
  /-- Lit at the start of a round and put out when the transfer succeeds. -/
  led : Bool
  deriving DecidableEq

/-- What becomes of a packet: how many of its bytes the slave takes, what `ifWrite` returns,
and whether the status is good in the zerocopy mode. -/
structure Transfer where
  taken : Nat
  count : Nat
  status : Bool
  deriving DecidableEq

/-- `{0, buffer}`: the position in the memory of the slave and the value. -/
def packet (buffer : UInt8) : List UInt8 := [0, buffer]

/-- What `deviceWrite` returns. -/
def deviceWrite (zerocopy : Bool) (transfer : Transfer) (buffer : UInt8) : Bool :=
  if transfer.count ≠ (packet buffer).length then false
  else if zerocopy then transfer.status else true

def masterRound (zerocopy : Bool) (transfer : Transfer) (master : Master) : Master :=
  { iteration := master.iteration + 1
    led := !deviceWrite zerocopy transfer master.iteration }

/-! ## Both -/

structure Link where
  master : Master
  slave : Slave

def initialLink (register : UInt8) : Link :=
  { master := { iteration := 0, led := false }, slave := initialSlave register }

inductive Label where
  | slave
  | round (transfer : Transfer)
  deriving DecidableEq

/-- What the driver reports is so: without zerocopy the slave has taken as many bytes as `ifWrite`
counts, and with it a packet that was queued whole, and whose status is good, has been taken
whole. -/
def Transfer.Honest (zerocopy : Bool) (transfer : Transfer) : Prop :=
  if zerocopy then transfer.count = 2 → transfer.status = true → 2 ≤ transfer.taken
  else transfer.count ≤ transfer.taken

theorem deviceWrite_iff (zerocopy : Bool) (transfer : Transfer) (buffer : UInt8) :
    deviceWrite zerocopy transfer buffer = true ↔
      transfer.count = 2 ∧ (zerocopy = true → transfer.status = true) := by
  unfold deviceWrite packet
  cases zerocopy <;> simp

/-- A transfer that the master takes for good has reached the slave. -/
theorem Transfer.Honest.taken {zerocopy : Bool} {transfer : Transfer} {buffer : UInt8}
    (honest : transfer.Honest zerocopy) (good : deviceWrite zerocopy transfer buffer = true) :
    2 ≤ transfer.taken := by
  obtain ⟨whole, status⟩ := (deviceWrite_iff zerocopy transfer buffer).mp good
  cases zerocopy with
  | false => exact whole ▸ honest
  | true => exact honest whole (status rfl)

def Slave.take (slave : Slave) : List UInt8 → Slave
  | [_, value] => slave.receive value
  | _ => slave

def step (valid : Nat → Bool) (zerocopy : Bool) (link : Link) : Label → Option Link
  | .slave => some { link with slave := slaveStatement valid link.slave }
  | .round transfer =>
      some { master := masterRound zerocopy transfer link.master
             slave := link.slave.take ((packet link.master.iteration).take transfer.taken) }

end HalmExamples.I2cLink
