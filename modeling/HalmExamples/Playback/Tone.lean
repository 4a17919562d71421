import HalmExamples.Foundation.Schedule
import HalmExamples.Playback.Transmitter

/-!
# The I2S tone example

`templates/i2s_tone.jinja2`: both callbacks and `main` from the set-up of the requests on.
The streams run while `main` still enqueues, and a stream refuses a request if its queue is
full, which the program does not notice.
-/

set_option autoImplicit false

namespace HalmExamples.Playback.Tone

open Foundation Foundation.Playback

/-! ## The buffers -/

def patternL : List Int := [
  0, 2337, 4663, 6965, 9231, 11450, 13611, 15703, 17715, 19636, 21457, 23169, 24763, 26231, 27565,
  28758, 29805, 30701, 31439, 32018, 32433, 32683, 32767, 32683, 32433, 32018, 31439, 30701, 29805,
  28758, 27565, 26231, 24763, 23169, 21457, 19636, 17715, 15703, 13611, 11450, 9231, 6965, 4663,
  2337, 0, -2337, -4663, -6965, -9231, -11450, -13611, -15703, -17715, -19636, -21457, -23169,
  -24763, -26231, -27565, -28758, -29805, -30701, -31439, -32018, -32433, -32683, -32767, -32683,
  -32433, -32018, -31439, -30701, -29805, -28758, -27565, -26231, -24763, -23169, -21457, -19636,
  -17715, -15703, -13611, -11450, -9231, -6965, -4663, -2337]

def patternR : List Int := [
  0, 17715, 29805, 32433, 24763, 9231, -9231, -24763, -32433, -29805, -17715]

def sampleL (i : Nat) : Int := patternL.getD (i % patternL.length) 0

def sampleR (i : Nat) : Int := patternR.getD (i % patternR.length) 0

def channelCount : Nat := 2

abbrev bufferCount : Nat := 3

def bufferLength : Nat := patternL.length * 4

/-- What `fillBuffers` writes to one of the transmit buffers. -/
def filledBuffer : List Int := (List.range bufferLength).flatMap fun i => [sampleL i, sampleR i]

/-! ## The machine -/

abbrev RequestId := Fin bufferCount

def bufferCapacity : Nat := bufferLength * channelCount * sampleSize

inductive Control where
  | setRequests (i : Nat)
  | enqueueRx (i : Nat)
  | enqueueTx (i : Nat)
  | forever
  deriving DecidableEq

structure Machine where
  rx : List RequestId
  rxRequests : RequestId → StreamRequest
  tx : Transmitter bufferCount Int
  control : Control

def initialMachine : Machine :=
  { rx := []
    rxRequests := fun _ => { capacity := 0, length := 0 }
    tx := .idle
    control := .setRequests 0 }

def txBuffers (_ : RequestId) : List Int := filledBuffer

section Machine
variable (size : Nat) (hasRx : Bool)

def onDataReceived (machine : Machine) (request : RequestId) : Machine :=
  { machine with
    rxRequests := setLength machine.rxRequests request 0
    rx := enqueue size machine.rx request }

def emptyRequest : StreamRequest := { capacity := bufferCapacity, length := 0 }

/-- The second loop does with a request what its callback does. -/
def mainStep (machine : Machine) : Machine :=
  match machine.control with
  | .setRequests i =>
      if inside : i < bufferCount then
        { machine with
          rxRequests :=
            if hasRx then Function.update machine.rxRequests ⟨i, inside⟩ emptyRequest
            else machine.rxRequests
          tx := { machine.tx with
            requests := Function.update machine.tx.requests ⟨i, inside⟩ emptyRequest }
          control := .setRequests (i + 1) }
      else { machine with control := .enqueueRx 0 }
  | .enqueueRx i =>
      if inside : i < bufferCount then
        let next := if hasRx then onDataReceived size machine ⟨i, inside⟩ else machine
        { next with control := .enqueueTx i }
      else { machine with control := .forever }
  | .enqueueTx i =>
      if inside : i < bufferCount then
        { machine with
          tx := machine.tx.refill size ⟨i, inside⟩
          control := .enqueueRx (i + 1) }
      else { machine with control := .forever }
  | .forever => machine

inductive Label where
  | main
  | rxComplete (length : Nat)
  | txWord
  | txComplete (status : StreamRequestStatus)
  deriving DecidableEq

def step (machine : Machine) : Label → Option Machine
  | .main => some (mainStep size hasRx machine)
  | .rxComplete length =>
      match machine.rx with
      | [] => none
      | request :: rest =>
          if length ≤ (machine.rxRequests request).capacity then
            some (onDataReceived size
              { machine with rx := rest, rxRequests := setLength machine.rxRequests request length }
              request)
          else none
  | .txWord => (machine.tx.sendWord txBuffers).map fun tx => { machine with tx := tx }
  | .txComplete status =>
      (machine.tx.complete size status).map fun tx => { machine with tx := tx }

end Machine

/-! ## The wave -/

def wave : Nat → Int := alternating sampleL sampleR

/-- In words. -/
def wavePeriod : Nat := channelCount * patternL.length

theorem sampleL_periodic : Function.Periodic sampleL patternL.length := by
  intro i
  simp only [sampleL, Nat.add_mod_right]

/-- `ARRAY_SIZE(patternL)` is a multiple of `ARRAY_SIZE(patternR)`. -/
theorem sampleR_periodic : Function.Periodic sampleR patternL.length := by
  intro i
  have multiple : patternL.length = patternR.length * 8 := by decide
  simp only [sampleR, multiple, Nat.add_mul_mod_self_left]

theorem wave_periodic : Function.Periodic wave wavePeriod :=
  alternating_periodic sampleL_periodic sampleR_periodic

theorem txBuffers_looping : Looping wave wavePeriod bufferCapacity txBuffers where
  holds _ := by
    have words : bufferCapacity / sampleSize = 2 * bufferLength := by decide
    rw [txBuffers, filledBuffer, flatMap_alternating, words, wave]
  whole := by decide
  periodic := wave_periodic

/-! ## Runs -/

def prepared : Control → Nat
  | .setRequests i => i
  | .enqueueRx _ | .enqueueTx _ | .forever => bufferCount

def handed : Control → Nat
  | .setRequests _ => 0
  | .enqueueRx i | .enqueueTx i => i
  | .forever => bufferCount

def Sound (size : Nat) (machine : Machine) : Prop :=
  prepared machine.control ≤ bufferCount ∧
    Plays wave wavePeriod size bufferCapacity (prepared machine.control) (handed machine.control)
      machine.tx

def CutWhole (machine : Machine) : Label → Prop
  | .txComplete status => machine.tx.CutWhole wavePeriod status
  | .main | .rxComplete _ | .txWord => True

section Sound
variable {size : Nat} {hasRx : Bool} {machine next : Machine}

theorem Sound.congr (sound : Sound size machine) (tx : next.tx = machine.tx)
    (before : prepared next.control = prepared machine.control)
    (after : handed next.control = handed machine.control) : Sound size next := by
  unfold Sound
  rw [tx, before, after]
  exact sound

theorem Sound.mainStep (sound : Sound size machine) : Sound size (mainStep size hasRx machine) := by
  obtain ⟨bounded, plays⟩ := sound
  unfold Tone.mainStep
  cases control : machine.control with
  | forever => exact ⟨bounded, plays⟩
  | setRequests i =>
      rw [control] at bounded plays
      dsimp only
      by_cases inside : i < bufferCount
      · rw [dif_pos inside]
        exact ⟨inside, plays.prepare inside 0⟩
      · rw [dif_neg inside]
        have all : i = bufferCount := Nat.le_antisymm bounded (Nat.not_lt.mp inside)
        subst all
        exact ⟨Nat.le_refl _, plays⟩
  | enqueueRx i =>
      rw [control] at plays
      dsimp only
      by_cases inside : i < bufferCount
      · rw [dif_pos inside]
        cases hasRx with
        | true => exact ⟨Nat.le_refl _, plays⟩
        | false => exact ⟨Nat.le_refl _, plays⟩
      · rw [dif_neg inside]
        have all : i = bufferCount := Nat.le_antisymm plays.ordered (Nat.not_lt.mp inside)
        subst all
        exact ⟨Nat.le_refl _, plays⟩
  | enqueueTx i =>
      rw [control] at plays
      dsimp only
      by_cases inside : i < bufferCount
      · rw [dif_pos inside]
        exact ⟨Nat.le_refl _, plays.hand inside inside⟩
      · rw [dif_neg inside]
        have all : i = bufferCount := Nat.le_antisymm plays.ordered (Nat.not_lt.mp inside)
        subst all
        exact ⟨Nat.le_refl _, plays⟩

theorem Sound.step {label : Label} (sound : Sound size machine) (cutWhole : CutWhole machine label)
    (taken : step size hasRx machine label = some next) : Sound size next := by
  cases label with
  | main =>
      cases taken
      exact sound.mainStep
  | rxComplete length =>
      unfold Tone.step at taken
      cases queue : machine.rx with
      | nil => rw [queue] at taken; cases taken
      | cons request rest =>
          rw [queue] at taken
          dsimp only at taken
          split at taken
          · cases taken
            exact sound.congr rfl rfl rfl
          · cases taken
  | txWord =>
      obtain ⟨tx, sent, rfl⟩ := Option.map_eq_some_iff.mp taken
      exact ⟨sound.1, sound.2.sendWord txBuffers_looping sent⟩
  | txComplete status =>
      obtain ⟨tx, ended, rfl⟩ := Option.map_eq_some_iff.mp taken
      exact ⟨sound.1, sound.2.complete cutWhole ended⟩

end Sound

/-- Whenever the buffers are handed over, however many of them fit the queue and however late
their ends are noticed, the tone has no break, and no buffer gets lost that the stream has once
taken. -/
theorem tone_unbroken (size : Nat) (hasRx : Bool) (labels : List Label) (final : Machine)
    (along : Schedule.Along (step size hasRx) CutWhole labels initialMachine)
    (done : Schedule.run (step size hasRx) labels initialMachine = some final) :
    final.tx.stream.sent = upTo wave final.tx.stream.sent.length ∧
      final.tx.stream.queue.Nodup ∧
      final.tx.stream.queue.length = min size (handed final.control) := by
  have sound := Schedule.run_preserves (step size hasRx) CutWhole (Sound size)
    (fun _ _ _ sound cutWhole taken => sound.step cutWhole taken) labels initialMachine final
    ⟨Nat.zero_le _, plays_idle⟩ along done
  exact ⟨sound.2.inPhase.played, sound.2.rounds.once, sound.2.rounds.length⟩

/-- All is handed over and the first buffer is sent; its end is noticed after a word of the
second one. -/
def lateEnd : List Label :=
  List.replicate 12 .main ++ (List.replicate (2 * bufferLength) .txWord ++
    [.txWord, .txComplete .completed, .txWord])

def handedOver : Machine := (mainStep 2 false)^[12] initialMachine

theorem firstBuffer_sent :
    Schedule.run (step 2 false) (List.replicate (2 * bufferLength) .txWord) handedOver =
      some { handedOver with
        tx :=
          { handedOver.tx with
            stream := { handedOver.tx.stream with ended := 1, sent := filledBuffer } } } := by
  have words : handedOver.tx.words txBuffers 0 = filledBuffer := by decide +kernel
  have length : filledBuffer.length = 2 * bufferLength := by decide +kernel
  have sent := run_block (step 2 false) .txWord
    (fun stream => { handedOver with tx := { handedOver.tx with stream := stream } })
    (handedOver.tx.words txBuffers) 0 (fun stream => Option.map_map ..) handedOver.tx.stream rfl rfl
    (by rw [words]; exact List.ne_nil_of_length_pos (length ▸ by decide))
  rw [words, length] at sent
  exact sent

theorem tone_unbroken_late_end :
    ∃ final, Schedule.run (step 2 false) lateEnd initialMachine = some final ∧
      final.tx.stream.queue = [1, 0] ∧ final.tx.stream.sent = upTo wave 706 := by
  have ends : (Schedule.run (step 2 false) lateEnd initialMachine).map
      (fun final => (final.tx.stream.queue, final.tx.stream.sent.length)) =
        some ([1, 0], 706) := by
    have ready : Schedule.run (step 2 false) (List.replicate 12 .main) initialMachine =
        some handedOver := rfl
    rw [lateEnd, Schedule.run_append, ready, Option.bind_some, Schedule.run_append,
      firstBuffer_sent, Option.bind_some]
    decide +kernel
  obtain ⟨final, done, same⟩ := Option.map_eq_some_iff.mp ends
  obtain ⟨queue, count⟩ := Prod.mk.inj same
  have along : Schedule.Along (step 2 false) CutWhole lateEnd initialMachine := by
    refine Schedule.along_of_forall (step 2 false) CutWhole lateEnd (fun label member machine => ?_)
      initialMachine
    simp only [lateEnd, List.mem_append, List.mem_replicate, List.mem_cons, List.not_mem_nil,
      or_false] at member
    rcases member with ⟨_, rfl⟩ | ⟨_, rfl⟩ | rfl | rfl | rfl
    · trivial
    · trivial
    · trivial
    · exact nofun
    · trivial
  refine ⟨final, done, queue, ?_⟩
  rw [← count]
  exact (tone_unbroken 2 false lateEnd final along done).1

end HalmExamples.Playback.Tone
