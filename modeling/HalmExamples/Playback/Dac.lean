import HalmExamples.Foundation.Schedule
import HalmExamples.Playback.Transmitter

/-!
# The DAC stream example

`templates/dac_dma.jinja2`: two requests over the halves of one array, which holds a
sampled wave that goes up and down.
-/

set_option autoImplicit false

namespace HalmExamples.Playback.Dac

open Foundation Foundation.Playback

def table : List Nat := [
  0, 157, 629, 1410, 2494, 3869, 5522, 7437, 9597, 11980, 14562, 17321, 20227, 23255, 26374, 29555,
  32767, 35979, 39160, 42279, 45307, 48213, 50972, 53554, 55937, 58097, 60012, 61665, 63040, 64124,
  64905, 65377, 65535]

abbrev bufferCount : Nat := 2

def bufferLength : Nat := 512

def width : Nat := (table.length - 1) * 2

/-- `abs((int)i % width - width / 2)` -/
def tableIndex (i : Nat) : Nat := ((i : Int) % width - width / 2).natAbs

/-- An entry that `fillBuffers` reads, none if it is outside of the table. -/
def entry (i : Nat) : Option Nat := table[tableIndex i]?

def fillBuffers : Option (List Nat) := (List.range (bufferLength * 2)).mapM entry

/-! ## The machine -/

/-- The requests start with their capacities set. -/
def bufferCapacity : Nat := bufferLength * sampleSize

inductive Control where
  | enqueueRequest (i : Nat)
  | forever
  deriving DecidableEq

structure Machine where
  tx : Transmitter bufferCount Nat
  control : Control

def initialMachine : Machine :=
  { tx :=
      { stream := emptyPlayer
        requests := fun _ => { capacity := bufferCapacity, length := 0 } }
    control := .enqueueRequest 0 }

/-- `buffers` and `buffers + BUFFER_LENGTH` -/
def half (array : List Nat) (request : Fin bufferCount) : List Nat :=
  (array.drop (request * bufferLength)).take bufferLength

section Machine
variable (size : Nat) (array : List Nat)

def mainStep (machine : Machine) : Machine :=
  match machine.control with
  | .enqueueRequest i =>
      if inside : i < bufferCount then
        { tx := machine.tx.refill size ⟨i, inside⟩, control := .enqueueRequest (i + 1) }
      else { machine with control := .forever }
  | .forever => machine

inductive Label where
  | main
  | conversion
  | conversionCompleted (status : StreamRequestStatus)
  deriving DecidableEq

def step (machine : Machine) : Label → Option Machine
  | .main => some (mainStep size machine)
  | .conversion => (machine.tx.sendWord (half array)).map fun tx => { machine with tx := tx }
  | .conversionCompleted status =>
      (machine.tx.complete size status).map fun tx => { machine with tx := tx }

end Machine

/-! ## The wave -/

def wave (i : Nat) : Nat := table.getD (tableIndex i) 0

theorem tableIndex_le (i : Nat) : tableIndex i ≤ 32 := by
  simp only [tableIndex, width, table, List.length_cons, List.length_nil]
  omega

theorem entry_eq (i : Nat) : entry i = some (wave i) := by
  have inside : tableIndex i < table.length := Nat.lt_succ_of_le (tableIndex_le i)
  rw [entry, wave, List.getD_eq_getElem?_getD, List.getElem?_eq_getElem inside, Option.getD_some]

theorem fillBuffers_eq : fillBuffers = some (upTo wave (bufferLength * 2)) := by
  have all : entry = fun i => some (wave i) := funext entry_eq
  rw [fillBuffers, all, upTo]
  exact List.mapM_pure

theorem wave_periodic : Function.Periodic wave width := by
  intro i
  have index : tableIndex (i + width) = tableIndex i := by
    simp only [tableIndex, width, table, List.length_cons, List.length_nil]
    omega
  rw [wave, wave, index]

theorem half_looping : Looping wave width bufferCapacity (half (upTo wave (bufferLength * 2))) where
  holds request := by
    have words : bufferCapacity / sampleSize = bufferLength := by decide
    have whole : width ∣ request * bufferLength :=
      Nat.dvd_mul_left_of_dvd (by decide : width ∣ bufferLength) request
    have inside : request * bufferLength + bufferLength ≤ bufferLength * 2 := by
      rw [← Nat.succ_mul, Nat.mul_comm]
      exact Nat.mul_le_mul_left bufferLength request.isLt
    rw [half, words, upTo_part wave_periodic whole inside]
  whole := by decide
  periodic := wave_periodic

/-! ## Runs -/

def handed : Control → Nat
  | .enqueueRequest i => i
  | .forever => bufferCount

def Sound (size : Nat) (machine : Machine) : Prop :=
  Plays wave width size bufferCapacity bufferCount (handed machine.control) machine.tx

def CutWhole (machine : Machine) : Label → Prop
  | .conversionCompleted status => machine.tx.CutWhole width status
  | .main | .conversion => True

section Sound
variable {size : Nat} {machine next : Machine}

theorem sound_initial (size : Nat) : Sound size initialMachine :=
  ⟨fun _ _ => rfl, fun _ member => absurd member List.not_mem_nil,
    fun _ member => absurd member List.not_mem_nil, Nat.zero_le _,
    ⟨List.nodup_nil, (Nat.min_zero size).symm⟩, inPhase_empty wave width⟩

theorem Sound.mainStep (sound : Sound size machine) : Sound size (mainStep size machine) := by
  unfold Dac.mainStep
  unfold Sound at sound
  cases control : machine.control with
  | forever => exact sound
  | enqueueRequest i =>
      rw [control] at sound
      dsimp only
      by_cases inside : i < bufferCount
      · rw [dif_pos inside]
        exact sound.hand inside inside
      · rw [dif_neg inside]
        have all : i = bufferCount := Nat.le_antisymm sound.ordered (Nat.not_lt.mp inside)
        subst all
        exact sound

theorem Sound.step {label : Label} (sound : Sound size machine) (cutWhole : CutWhole machine label)
    (taken : step size (upTo wave (bufferLength * 2)) machine label = some next) :
    Sound size next := by
  cases label with
  | main =>
      cases taken
      exact sound.mainStep
  | conversion =>
      obtain ⟨tx, sent, rfl⟩ := Option.map_eq_some_iff.mp taken
      exact Plays.sendWord sound half_looping sent
  | conversionCompleted status =>
      obtain ⟨tx, ended, rfl⟩ := Option.map_eq_some_iff.mp taken
      exact Plays.complete sound cutWhole ended

end Sound

/-- The array is filled from inside of the table, and the DAC gets the wave without a break,
however late the ends of the requests are noticed. -/
theorem wave_unbroken (size : Nat) :
    ∃ array, fillBuffers = some array ∧ ∀ (labels : List Label) (final : Machine),
      Schedule.Along (step size array) CutWhole labels initialMachine →
      Schedule.run (step size array) labels initialMachine = some final →
      final.tx.stream.sent = upTo wave final.tx.stream.sent.length ∧
        final.tx.stream.queue.Nodup ∧
        final.tx.stream.queue.length = min size (handed final.control) := by
  refine ⟨_, fillBuffers_eq, fun labels final along done => ?_⟩
  have sound :=
    Schedule.run_preserves (step size (upTo wave (bufferLength * 2))) CutWhole (Sound size)
    (fun _ _ _ sound cutWhole taken => sound.step cutWhole taken) labels initialMachine final
    (sound_initial size) along done
  exact ⟨sound.inPhase.played, sound.rounds.once, sound.rounds.length⟩

/-- Both requests are handed over and the first is converted; its end is noticed after a value of
the second one. -/
def lateEnd : List Label :=
  List.replicate 3 .main ++ (List.replicate bufferLength .conversion ++
    [.conversion, .conversionCompleted .completed, .conversion])

def handedOver : Machine := (mainStep 2)^[3] initialMachine

theorem firstHalf_sent :
    Schedule.run (step 2 (upTo wave (bufferLength * 2)))
        (List.replicate bufferLength .conversion) handedOver =
      some { handedOver with
        tx :=
          { handedOver.tx with
            stream :=
              { handedOver.tx.stream with ended := 1, sent := upTo wave bufferLength } } } := by
  have words : handedOver.tx.words (half (upTo wave (bufferLength * 2))) 0 =
      upTo wave bufferLength := by
    rw [Transmitter.words, half_looping.holds 0, List.take_of_length_le]
    · rfl
    · rw [upTo_length]
      decide
  have sent := run_block (step 2 (upTo wave (bufferLength * 2))) .conversion
    (fun stream => { handedOver with tx := { handedOver.tx with stream := stream } })
    (handedOver.tx.words (half (upTo wave (bufferLength * 2)))) 0
    (fun stream => Option.map_map ..) handedOver.tx.stream rfl rfl
    (by rw [words]; exact List.ne_nil_of_length_pos (by rw [upTo_length]; decide))
  have idle : handedOver.tx.stream.ended = 0 ∧ handedOver.tx.stream.sent = [] := ⟨rfl, rfl⟩
  rw [words, upTo_length, idle.1, idle.2, List.nil_append] at sent
  exact sent

theorem lateEnd_ends :
    (Schedule.run (step 2 (upTo wave (bufferLength * 2))) lateEnd initialMachine).map
      (fun final => (final.tx.stream.queue, final.tx.stream.sent.length)) =
        some ([1, 0], 514) := by
  have ready : Schedule.run (step 2 (upTo wave (bufferLength * 2))) (List.replicate 3 .main)
      initialMachine = some handedOver := rfl
  rw [lateEnd, Schedule.run_append, ready, Option.bind_some, Schedule.run_append,
    firstHalf_sent, Option.bind_some]
  decide +kernel

theorem wave_unbroken_late_end :
    ∃ array final, fillBuffers = some array ∧
      Schedule.run (step 2 array) lateEnd initialMachine = some final ∧
      final.tx.stream.queue = [1, 0] ∧ final.tx.stream.sent = upTo wave 514 := by
  obtain ⟨array, filled, unbroken⟩ := wave_unbroken 2
  have same : array = upTo wave (bufferLength * 2) :=
    Option.some.inj (filled.symm.trans fillBuffers_eq)
  rw [same] at filled unbroken
  obtain ⟨final, done, ends⟩ := Option.map_eq_some_iff.mp lateEnd_ends
  obtain ⟨queue, count⟩ := Prod.mk.inj ends
  have along : Schedule.Along (step 2 (upTo wave (bufferLength * 2))) CutWhole lateEnd
      initialMachine := by
    refine Schedule.along_of_forall _ CutWhole lateEnd (fun label member machine => ?_)
      initialMachine
    simp only [lateEnd, List.mem_append, List.mem_replicate, List.mem_cons, List.not_mem_nil,
      or_false] at member
    rcases member with ⟨_, rfl⟩ | ⟨_, rfl⟩ | rfl | rfl | rfl
    · trivial
    · trivial
    · trivial
    · exact nofun
    · trivial
  refine ⟨_, final, filled, done, queue, ?_⟩
  rw [← count]
  exact (unbroken lateEnd final along done).1

end HalmExamples.Playback.Dac
