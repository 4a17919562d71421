import HalmExamples.Foundation.Polling

/-!
# Bringing up the PHY

`phyInit` of `eth_raw/main.c` on an arbitrary PHY behind the management interface, which
may answer differently on each access and after each delay.  Every access is logged.
-/

set_option autoImplicit false

namespace HalmExamples.EthRaw

open Foundation

/-- `PHY_REG_BMCR` and so on -/
def phyRegBmcr : Nat := 0x00
def phyRegBmsr : Nat := 0x01
def phyRegIdr1 : Nat := 0x02
def phyRegIdr2 : Nat := 0x03

def phyBmcrAutoNegRestart : UInt16 := 0x0200
def phyBmcrAutoNegEnable : UInt16 := 0x1000
def phyBmcrReset : UInt16 := 0x8000
def phyBmsrLinkUp : UInt16 := 0x0004
def phyBmsrAutoNegCompleted : UInt16 := 0x0020

def phyTimeout : Nat := 1000

/-- What a PHY does on an access and during a delay of some milliseconds. -/
structure Phy (State : Type) where
  read : State → Nat → UInt16 × State
  write : State → Nat → UInt16 → State
  delay : State → Nat → State

inductive Access where
  | read (address : Nat) (value : UInt16)
  | write (address : Nat) (value : UInt16)
  | delay (milliseconds : Nat)
  deriving DecidableEq

structure Mdio (State : Type) where
  phy : State
  log : List Access

section Program
variable {State : Type} (phy : Phy State)

def phyReadReg (address : Nat) (mdio : Mdio State) : UInt16 × Mdio State :=
  let (value, next) := phy.read mdio.phy address
  (value, { phy := next, log := mdio.log ++ [.read address value] })

def phyWriteReg (address : Nat) (value : UInt16) (mdio : Mdio State) : Mdio State :=
  { phy := phy.write mdio.phy address value, log := mdio.log ++ [.write address value] }

def mdelay (milliseconds : Nat) (mdio : Mdio State) : Mdio State :=
  { phy := phy.delay mdio.phy milliseconds, log := mdio.log ++ [.delay milliseconds] }

/-- A loop over `timeout` that reads a register until the value passes. -/
def waitReg (address : Nat) (passes : UInt16 → Bool) (mdio : Mdio State) : Bool × Mdio State :=
  Polling.poll (phyReadReg phy address) (mdelay phy 10) passes phyTimeout mdio

def phyInit (mdio : Mdio State) : Bool × Mdio State :=
  let written := phyWriteReg phy phyRegBmcr phyBmcrReset mdio
  -- whether the reset has ended is not looked at
  let (_, reset) := waitReg phy phyRegBmcr (fun value => value &&& phyBmcrReset == 0) written
  let (idr1, first) := phyReadReg phy phyRegIdr1 reset
  let (idr2, second) := phyReadReg phy phyRegIdr2 first
  if idr1 = 0x0007 ∧ idr2 = 0xC0F1 then
    let restarted :=
      phyWriteReg phy phyRegBmcr (phyBmcrAutoNegEnable ||| phyBmcrAutoNegRestart) second
    let (autoNegotiationEnded, negotiated) :=
      waitReg phy phyRegBmsr (fun value => value &&& phyBmsrAutoNegCompleted != 0) restarted
    if autoNegotiationEnded then
      waitReg phy phyRegBmsr (fun value => value &&& phyBmsrLinkUp != 0) negotiated
    else (false, negotiated)
  else (false, second)

end Program

/-! ## What is seen on the bus -/

def polled (address : Nat) (values : List UInt16) : List Access :=
  values.flatMap fun value => [.read address value, .delay 10]

/-- A waiting loop on the bus, and whether it ended with a value that passes. -/
inductive Waited (address : Nat) (passes : UInt16 → Bool) : Bool → List Access → Prop where
  | passed (values : List UInt16) (value : UInt16) (few : values.length < phyTimeout)
      (failed : ∀ value ∈ values, passes value = false) (ok : passes value = true) :
      Waited address passes true (polled address values ++ [.read address value])
  | expired (values : List UInt16) (all : values.length = phyTimeout)
      (failed : ∀ value ∈ values, passes value = false) :
      Waited address passes false (polled address values)

section Waiting
variable {State : Type} (phy : Phy State)

theorem after_log (address count : Nat) (mdio : Mdio State) :
    (Polling.after (phyReadReg phy address) (mdelay phy 10) count mdio).log =
      mdio.log ++
        polled address (Polling.values (phyReadReg phy address) (mdelay phy 10) count mdio) := by
  induction count generalizing mdio with
  | zero => exact (List.append_nil _).symm
  | succ count ih =>
      rw [Polling.after, Polling.values, ih]
      simp only [mdelay, phyReadReg, polled, List.flatMap_cons, List.append_assoc,
        List.cons_append, List.nil_append]

theorem waitReg_waited (address : Nat) (passes : UInt16 → Bool) (mdio : Mdio State) :
    ∃ added, (waitReg phy address passes mdio).2.log = mdio.log ++ added ∧
      Waited address passes (waitReg phy address passes mdio).1 added := by
  have cases := Polling.poll_cases (phyReadReg phy address) (mdelay phy 10) passes phyTimeout mdio
  rcases cases with ⟨ended, failed⟩ | ⟨count, less, ended, ok, failed⟩
  · rw [waitReg, ended]
    exact ⟨_, after_log phy address phyTimeout mdio,
      .expired _ (Polling.values_length _ _ phyTimeout mdio) failed⟩
  · rw [waitReg, ended]
    refine ⟨_, ?_, .passed _ _ ?_ failed ok⟩
    · simp only [phyReadReg, List.append_assoc, after_log]
    · rw [Polling.values_length]
      exact less

end Waiting

/-- What `phyInit` does on the bus, and its result. -/
inductive Initialised : Bool → List Access → Prop where
  | other (ended : Bool) (reset : List Access) (idr1 idr2 : UInt16)
      (waited : Waited phyRegBmcr (fun value => value &&& phyBmcrReset == 0) ended reset)
      (different : ¬ (idr1 = 0x0007 ∧ idr2 = 0xC0F1)) :
      Initialised false ([.write phyRegBmcr phyBmcrReset] ++ reset ++
        [.read phyRegIdr1 idr1, .read phyRegIdr2 idr2])
  | stuck (ended : Bool) (reset negotiation : List Access)
      (waited : Waited phyRegBmcr (fun value => value &&& phyBmcrReset == 0) ended reset)
      (failed : Waited phyRegBmsr (fun value => value &&& phyBmsrAutoNegCompleted != 0) false
        negotiation) :
      Initialised false ([.write phyRegBmcr phyBmcrReset] ++ reset ++
        [.read phyRegIdr1 0x0007, .read phyRegIdr2 0xC0F1,
          .write phyRegBmcr (phyBmcrAutoNegEnable ||| phyBmcrAutoNegRestart)] ++ negotiation)
  | negotiated (ended up : Bool) (reset negotiation link : List Access)
      (waited : Waited phyRegBmcr (fun value => value &&& phyBmcrReset == 0) ended reset)
      (completed : Waited phyRegBmsr (fun value => value &&& phyBmsrAutoNegCompleted != 0) true
        negotiation)
      (status : Waited phyRegBmsr (fun value => value &&& phyBmsrLinkUp != 0) up link) :
      Initialised up ([.write phyRegBmcr phyBmcrReset] ++ reset ++
        [.read phyRegIdr1 0x0007, .read phyRegIdr2 0xC0F1,
          .write phyRegBmcr (phyBmcrAutoNegEnable ||| phyBmcrAutoNegRestart)] ++ negotiation ++
        link)

theorem phyInit_initialised {State : Type} (phy : Phy State) (state : State) :
    Initialised (phyInit phy ⟨state, []⟩).1 (phyInit phy ⟨state, []⟩).2.log := by
  unfold phyInit
  dsimp only
  obtain ⟨reset, resetLog, waited⟩ := waitReg_waited phy phyRegBmcr
    (fun value => value &&& phyBmcrReset == 0) (phyWriteReg phy phyRegBmcr phyBmcrReset ⟨state, []⟩)
  generalize waitReg phy phyRegBmcr (fun value => value &&& phyBmcrReset == 0)
    (phyWriteReg phy phyRegBmcr phyBmcrReset ⟨state, []⟩) = first at resetLog waited ⊢
  have idr1Log : (phyReadReg phy phyRegIdr1 first.2).2.log =
      first.2.log ++ [.read phyRegIdr1 (phyReadReg phy phyRegIdr1 first.2).1] := rfl
  generalize phyReadReg phy phyRegIdr1 first.2 = second at idr1Log ⊢
  have idr2Log : (phyReadReg phy phyRegIdr2 second.2).2.log =
      second.2.log ++ [.read phyRegIdr2 (phyReadReg phy phyRegIdr2 second.2).1] := rfl
  generalize phyReadReg phy phyRegIdr2 second.2 = third at idr2Log ⊢
  have identified : third.2.log = [.write phyRegBmcr phyBmcrReset] ++ reset ++
      [.read phyRegIdr1 second.1, .read phyRegIdr2 third.1] := by
    rw [idr2Log, idr1Log, resetLog, List.append_assoc]
    rfl
  by_cases known : second.1 = 0x0007 ∧ third.1 = 0xC0F1
  · rw [if_pos known]
    rw [known.1, known.2] at identified
    obtain ⟨negotiation, negotiationLog, completed⟩ := waitReg_waited phy phyRegBmsr
      (fun value => value &&& phyBmsrAutoNegCompleted != 0)
      (phyWriteReg phy phyRegBmcr (phyBmcrAutoNegEnable ||| phyBmcrAutoNegRestart) third.2)
    generalize waitReg phy phyRegBmsr (fun value => value &&& phyBmsrAutoNegCompleted != 0)
      (phyWriteReg phy phyRegBmcr (phyBmcrAutoNegEnable ||| phyBmcrAutoNegRestart) third.2) =
      fourth at negotiationLog completed ⊢
    have restarted : fourth.2.log = [.write phyRegBmcr phyBmcrReset] ++ reset ++
        [.read phyRegIdr1 0x0007, .read phyRegIdr2 0xC0F1,
          .write phyRegBmcr (phyBmcrAutoNegEnable ||| phyBmcrAutoNegRestart)] ++ negotiation := by
      rw [negotiationLog, phyWriteReg, identified]
      simp only [List.append_assoc, List.cons_append, List.nil_append]
    cases success : fourth.1 with
    | false =>
        rw [success] at completed
        rw [if_neg nofun, restarted]
        exact .stuck first.1 reset negotiation waited completed
    | true =>
        rw [success] at completed
        obtain ⟨link, linkLog, status⟩ := waitReg_waited phy phyRegBmsr
          (fun value => value &&& phyBmsrLinkUp != 0) fourth.2
        rw [if_pos rfl, linkLog, restarted]
        exact .negotiated first.1 _ reset negotiation link waited completed status
  · rw [if_neg known]
    dsimp only
    rw [identified]
    exact .other first.1 reset second.1 third.1 waited known

/-! ## What follows from it -/

def Access.isWrite : Access → Bool
  | .write _ _ => true
  | _ => false

def Access.isRead : Access → Bool
  | .read _ _ => true
  | _ => false

def delayed : List Access → Nat
  | [] => 0
  | .delay milliseconds :: rest => milliseconds + delayed rest
  | .read _ _ :: rest | .write _ _ :: rest => delayed rest

theorem delayed_append (first second : List Access) :
    delayed (first ++ second) = delayed first + delayed second := by
  induction first with
  | nil => exact (Nat.zero_add _).symm
  | cons access rest ih =>
      cases access with
      | delay milliseconds =>
          simp only [List.cons_append, delayed, ih, Nat.add_assoc]
      | read | write => simp only [List.cons_append, delayed, ih]

section Polled
variable (address : Nat) (values : List UInt16)

theorem polled_cons (value : UInt16) (rest : List UInt16) :
    polled address (value :: rest) = .read address value :: .delay 10 :: polled address rest := rfl

theorem polled_writes : (polled address values).filter Access.isWrite = [] := by
  induction values with
  | nil => rfl
  | cons value rest ih =>
      rw [polled_cons, List.filter_cons_of_neg Bool.false_ne_true,
        List.filter_cons_of_neg Bool.false_ne_true]
      exact ih

theorem polled_reads : (polled address values).countP Access.isRead = values.length := by
  induction values with
  | nil => rfl
  | cons value rest ih =>
      rw [polled_cons, List.countP_cons_of_pos rfl, List.countP_cons_of_neg Bool.false_ne_true, ih,
        List.length_cons]

theorem polled_delayed : delayed (polled address values) = 10 * values.length := by
  induction values with
  | nil => rfl
  | cons value rest ih =>
      rw [polled_cons, delayed, delayed, ih, List.length_cons]
      omega

end Polled

/-- A waiting loop writes nothing and takes at most `PHY_TIMEOUT` reads and delays. -/
theorem Waited.bounded {address : Nat} {passes : UInt16 → Bool} {ended : Bool}
    {log : List Access} (waited : Waited address passes ended log) :
    log.filter Access.isWrite = [] ∧ log.countP Access.isRead ≤ phyTimeout ∧
      delayed log ≤ 10 * phyTimeout := by
  cases waited with
  | passed values value few failed ok =>
      simp only [List.filter_append, List.countP_append, delayed_append, polled_writes,
        polled_reads, polled_delayed]
      exact ⟨rfl, few, by simp only [delayed]; omega⟩
  | expired values all failed =>
      simp only [polled_writes, polled_reads, polled_delayed, all]
      exact ⟨trivial, Nat.le_refl _, Nat.le_refl _⟩

/-- The last thing of a loop that gave up is a delay. -/
theorem Waited.ends_delayed {address : Nat} {passes : UInt16 → Bool} {log : List Access}
    (waited : Waited address passes false log) : ∃ earlier, log = earlier ++ [.delay 10] := by
  cases waited with
  | expired values all failed =>
      have some : values ≠ [] := by
        rintro rfl
        exact absurd all (by decide)
      refine ⟨polled address values.dropLast ++ [.read address (values.getLast some)], ?_⟩
      have whole := congrArg (polled address) (List.dropLast_concat_getLast some)
      rw [List.append_assoc]
      exact whole.symm.trans List.flatMap_append

/-- A value that passed is the last thing seen, and none that did not is. -/
theorem Waited.last_iff {address : Nat} {passes : UInt16 → Bool} {ended : Bool}
    {log : List Access} (waited : Waited address passes ended log) (earlier : List Access) :
    ended = true ↔ ∃ value, passes value = true ∧
      (earlier ++ log).getLast? = some (.read address value) := by
  cases ended with
  | true =>
      cases waited with
      | passed values value few failed ok =>
          refine iff_of_true rfl ⟨value, ok, ?_⟩
          rw [← List.append_assoc, List.getLast?_concat]
  | false =>
      obtain ⟨before, rfl⟩ := waited.ends_delayed
      refine iff_of_false nofun ?_
      rintro ⟨value, _, last⟩
      rw [← List.append_assoc, List.getLast?_concat] at last
      cases last

structure Identified (log : List Access) : Prop where
  idr1 : .read phyRegIdr1 0x0007 ∈ log
  idr2 : .read phyRegIdr2 0xC0F1 ∈ log

/-- The identification was right, and both waits that follow ended within their limits. -/
def CameUp (log : List Access) : Prop :=
  ∃ ended reset negotiation link,
    Waited phyRegBmcr (fun value => value &&& phyBmcrReset == 0) ended reset ∧
    Waited phyRegBmsr (fun value => value &&& phyBmsrAutoNegCompleted != 0) true negotiation ∧
    Waited phyRegBmsr (fun value => value &&& phyBmsrLinkUp != 0) true link ∧
    log = [.write phyRegBmcr phyBmcrReset] ++ reset ++
      [.read phyRegIdr1 0x0007, .read phyRegIdr2 0xC0F1,
        .write phyRegBmcr (phyBmcrAutoNegEnable ||| phyBmcrAutoNegRestart)] ++ negotiation ++ link

structure PhyInitSpec (ready : Bool) (log : List Access) : Prop where
  order : Initialised ready log
  cameUp : ready = true ↔ CameUp log
  linkUp : ready = true ↔ ∃ value, (value &&& phyBmsrLinkUp != 0) = true ∧
    log.getLast? = some (.read phyRegBmsr value)
  /-- Only a PHY with the right identification is written to after the reset. -/
  writes : log.filter Access.isWrite = [.write phyRegBmcr phyBmcrReset] ∧ ready = false ∨
    log.filter Access.isWrite = [.write phyRegBmcr phyBmcrReset,
      .write phyRegBmcr (phyBmcrAutoNegEnable ||| phyBmcrAutoNegRestart)] ∧ Identified log
  reads : log.countP Access.isRead ≤ 3 * phyTimeout + 2
  delays : delayed log ≤ 30 * phyTimeout

section Initialised
variable {ready : Bool} {log : List Access} (initialised : Initialised ready log)
include initialised

theorem Initialised.linkUp :
    ready = true ↔ ∃ value, (value &&& phyBmsrLinkUp != 0) = true ∧
      log.getLast? = some (.read phyRegBmsr value) := by
  cases initialised with
  | other ended reset idr1 idr2 waited different =>
      refine iff_of_false nofun ?_
      rintro ⟨value, _, last⟩
      rw [List.getLast?_append] at last
      exact absurd (Access.read.inj (Option.some.inj last)).1 (by decide)
  | stuck ended reset negotiation waited failed =>
      obtain ⟨before, rfl⟩ := failed.ends_delayed
      refine iff_of_false nofun ?_
      rintro ⟨value, _, last⟩
      rw [← List.append_assoc, List.getLast?_concat] at last
      cases last
  | negotiated ended up reset negotiation link waited completed status =>
      exact status.last_iff _

theorem Initialised.cameUp :
    ready = true ↔ CameUp log := by
  constructor
  · rintro rfl
    cases initialised with
    | negotiated ended up reset negotiation link waited completed status =>
        exact ⟨ended, reset, negotiation, link, waited, completed, status, rfl⟩
  · rintro ⟨_, reset, negotiation, link, _, _, status, rfl⟩
    exact initialised.linkUp.mpr ((status.last_iff _).mp rfl)

theorem Initialised.writes :
    log.filter Access.isWrite = [.write phyRegBmcr phyBmcrReset] ∧ ready = false ∨
      log.filter Access.isWrite = [.write phyRegBmcr phyBmcrReset,
        .write phyRegBmcr (phyBmcrAutoNegEnable ||| phyBmcrAutoNegRestart)] ∧ Identified log := by
  cases initialised with
  | other ended reset idr1 idr2 waited different =>
      exact .inl ⟨by simp [List.filter_cons, waited.bounded.1, Access.isWrite], rfl⟩
  | stuck ended reset negotiation waited failed =>
      refine .inr ⟨?_, by simp, by simp⟩
      simp [List.filter_cons, waited.bounded.1, failed.bounded.1, Access.isWrite]
  | negotiated ended up reset negotiation link waited completed status =>
      refine .inr ⟨?_, by simp, by simp⟩
      simp [List.filter_cons, waited.bounded.1, completed.bounded.1, status.bounded.1,
        Access.isWrite]

theorem Initialised.reads :
    log.countP Access.isRead ≤ 3 * phyTimeout + 2 := by
  cases initialised with
  | other ended reset idr1 idr2 waited different =>
      have first := waited.bounded.2.1
      simp [List.countP_cons, Access.isRead]
      omega
  | stuck ended reset negotiation waited failed =>
      have first := waited.bounded.2.1
      have second := failed.bounded.2.1
      simp [List.countP_cons, Access.isRead]
      omega
  | negotiated ended up reset negotiation link waited completed status =>
      have first := waited.bounded.2.1
      have second := completed.bounded.2.1
      have third := status.bounded.2.1
      simp [List.countP_cons, Access.isRead]
      omega

theorem Initialised.delays :
    delayed log ≤ 30 * phyTimeout := by
  cases initialised with
  | other ended reset idr1 idr2 waited different =>
      have first := waited.bounded.2.2
      simp only [delayed_append, delayed]
      omega
  | stuck ended reset negotiation waited failed =>
      have first := waited.bounded.2.2
      have second := failed.bounded.2.2
      simp only [delayed_append, delayed]
      omega
  | negotiated ended up reset negotiation link waited completed status =>
      have first := waited.bounded.2.2
      have second := completed.bounded.2.2
      have third := status.bounded.2.2
      simp only [delayed_append, delayed]
      omega

end Initialised

theorem phyInit_spec {State : Type} (phy : Phy State) (state : State) :
    PhyInitSpec (phyInit phy ⟨state, []⟩).1 (phyInit phy ⟨state, []⟩).2.log := by
  have initialised := phyInit_initialised phy state
  exact ⟨initialised, initialised.cameUp, initialised.linkUp, initialised.writes,
    initialised.reads, initialised.delays⟩

end HalmExamples.EthRaw
