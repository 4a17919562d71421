import HalmExamples.DmaMemcopy.Program
import HalmExamples.Foundation.Schedule

/-!
# What the checks of the memory copy say

The flag may be up for a copy that was checked too early, and the channel may be at work while the
destination is cleared and read.  The LED goes out only over a destination that is right; which
of two ways the rounds go depends on whether the flag is up at their start.
-/

set_option autoImplicit false

namespace HalmExamples.DmaMemcopy

open Foundation

def roundLength (bufferLength number : Nat) : Nat := bufferLevel bufferLength + number % 32

theorem roundLength_lt (bufferLength number : Nat) (long : 32 < bufferLength) :
    roundLength bufferLength number < bufferLength := by
  have wrapped := Nat.mod_lt number (show 0 < 32 by decide)
  unfold roundLength bufferLevel
  omega

theorem roundLength_succ (bufferLength number : Nat) (long : 32 < bufferLength) :
    roundLength bufferLength (number + 1) =
      if roundLength bufferLength number + 1 = bufferLength then bufferLevel bufferLength
      else roundLength bufferLength number + 1 := by
  unfold roundLength bufferLevel
  split <;> omega

/-! ## Steps -/

section Steps
variable {bufferLength : Nat} {machine next : Machine}

theorem step_move (taken : step bufferLength machine .move = some next) :
    ∃ copy, machine.channel = some copy ∧ copy.offset < copy.total ∧
      next = machine.move bufferLength copy := by
  cases busy : machine.channel with
  | none => simp [step, busy] at taken
  | some copy =>
      by_cases left : copy.offset < copy.total
      · refine ⟨copy, rfl, left, ?_⟩
        simpa [step, busy, left] using taken.symm
      · simp [step, busy, left] at taken

theorem step_ended {ok : Bool} (taken : step bufferLength machine (.ended ok) = some next) :
    ∃ copy, machine.channel = some copy ∧ (ok = true → copy.total ≤ copy.offset) ∧
      next = onMemoryCopied ok { machine with channel := none } := by
  cases busy : machine.channel with
  | none => simp [step, busy] at taken
  | some copy =>
      by_cases early : ok = true ∧ copy.offset < copy.total
      · simp [step, busy, early] at taken
      · refine ⟨copy, rfl, ?_, ?_⟩
        · exact fun completed => Nat.le_of_not_lt fun left => early ⟨completed, left⟩
        · simpa [step, busy, early] using taken.symm

end Steps

/-! ## What a destination holds -/

def Holds (buffer : Nat → UInt32) (length bound : Nat) : Prop :=
  ∀ index < bound, buffer index = expected length index

theorem srcBuffer_eq (bufferLength index : Nat) (inside : index < bufferLength) :
    srcBuffer bufferLength index = UInt32.ofNat index :=
  if_pos inside

theorem Holds.moved {buffer : Nat → UInt32} {length bound : Nat}
    (holds : Holds buffer length bound) (bufferLength offset : Nat) (left : offset < length)
    (inside : offset < bufferLength) :
    Holds (Function.update buffer offset (srcBuffer bufferLength offset)) length bound := by
  intro index low
  by_cases same : index = offset
  · rw [same, Function.update_self, srcBuffer_eq _ _ inside, expected, if_pos left]
  · rw [Function.update_of_ne same]
    exact holds index low

theorem Holds.extend {buffer : Nat → UInt32} {offset bound : Nat}
    (holds : Holds buffer offset bound) (bufferLength : Nat) (inside : offset < bufferLength) :
    Holds (Function.update buffer offset (srcBuffer bufferLength offset)) (offset + 1) bound := by
  intro index low
  by_cases same : index = offset
  · rw [same, Function.update_self, srcBuffer_eq _ _ inside, expected,
      if_pos (Nat.lt_succ_self offset)]
  · rw [Function.update_of_ne same, holds index low, expected, expected]
    exact if_congr ⟨fun less => Nat.lt_succ_of_lt less,
      fun less => Nat.lt_of_le_of_ne (Nat.le_of_lt_succ less) same⟩ rfl rfl

theorem Holds.clear {buffer : Nat → UInt32} {index : Nat} (holds : Holds buffer 0 index) :
    Holds (Function.update buffer index 0) 0 (index + 1) := by
  intro entry low
  by_cases same : entry = index
  · rw [same, Function.update_self]
    rfl
  · rw [Function.update_of_ne same]
    exact holds entry (Nat.lt_of_le_of_ne (Nat.le_of_lt_succ low) same)

/-! ## The invariant of every run -/

def Lowered (machine : Machine) : Prop :=
  ∀ copy, machine.channel = some copy → machine.dmaEvent = false

def Copies (machine : Machine) (length : Nat) : Prop :=
  ∀ copy, machine.channel = some copy → copy.total = length

def Shown (bufferLength : Nat) (machine : Machine) (length : Nat) : Prop :=
  machine.led = false → Holds machine.dstBuffer length bufferLength ∧ Copies machine length

def Stage (bufferLength : Nat) (machine : Machine) : Prop :=
  match machine.control with
  | .waiting | .clearTimer | .lightLed =>
      Lowered machine ∧ ∀ number, machine.rounds = number + 1 →
        Shown bufferLength machine (roundLength bufferLength number)
  | .clearing _ | .starting => Lowered machine ∧ machine.led = true
  | .pending | .testEvent =>
      (machine.dmaEvent = true → Copies machine machine.length) ∧ machine.led = true
  | .clearEvent => Copies machine machine.length ∧ machine.led = true
  | .verifying index =>
      Lowered machine ∧ Copies machine machine.length ∧ machine.led = true ∧
        Holds machine.dstBuffer machine.length index
  | .putOut =>
      Lowered machine ∧ Copies machine machine.length ∧
        Holds machine.dstBuffer machine.length bufferLength
  | .advance => Lowered machine ∧ Shown bufferLength machine machine.length

structure Sound (bufferLength : Nat) (machine : Machine) : Prop where
  length_eq : machine.length = roundLength bufferLength machine.rounds
  inside : ∀ copy, machine.channel = some copy → copy.total < bufferLength
  stage : Stage bufferLength machine

theorem sound_initial (bufferLength : Nat) : Sound bufferLength (initialMachine bufferLength) := by
  refine ⟨rfl, fun copy busy => ?_, fun copy busy => ?_, fun number done => ?_⟩
  · cases busy
  · cases busy
  · cases done

/-- What the interrupts leave of a stage: they change nothing that only `main` writes, the flag
rises when the channel falls idle, and the destination changes only to what the copy has there. -/
theorem Stage.frame {bufferLength : Nat} {machine next : Machine}
    (stage : Stage bufferLength machine) (place : next.control = machine.control)
    (led : next.led = machine.led) (rounds : next.rounds = machine.rounds)
    (length : next.length = machine.length)
    (flag : next.channel = none ∨ next.dmaEvent = machine.dmaEvent)
    (channel : ∀ copy, next.channel = some copy →
      ∃ earlier, machine.channel = some earlier ∧ copy.total = earlier.total)
    (holds : ∀ size bound, Copies machine size → Holds machine.dstBuffer size bound →
      Holds next.dstBuffer size bound) : Stage bufferLength next := by
  have copies : ∀ size, Copies machine size → Copies next size := by
    intro size all copy busy
    obtain ⟨earlier, was, total⟩ := channel copy busy
    rw [total]
    exact all earlier was
  have lowered : Lowered machine → Lowered next := by
    intro down copy busy
    obtain ⟨earlier, was, _⟩ := channel copy busy
    rw [flag.resolve_left (by rw [busy]; exact Option.some_ne_none copy)]
    exact down earlier was
  have raised : ∀ size, (machine.dmaEvent = true → Copies machine size) →
      next.dmaEvent = true → Copies next size := by
    intro size right up copy busy
    have same := flag.resolve_left (by rw [busy]; exact Option.some_ne_none copy)
    exact copies size (right (same ▸ up)) copy busy
  have shown : ∀ size, Shown bufferLength machine size → Shown bufferLength next size := by
    intro size right out
    obtain ⟨inBuffer, inChannel⟩ := right (led ▸ out)
    exact ⟨holds size _ inChannel inBuffer, copies size inChannel⟩
  cases here : machine.control with
  | waiting | clearTimer | lightLed =>
      simp only [Stage, place, here, rounds] at stage ⊢
      exact ⟨lowered stage.1, fun number done => shown _ (stage.2 number done)⟩
  | clearing index | starting =>
      simp only [Stage, place, here, led] at stage ⊢
      exact ⟨lowered stage.1, stage.2⟩
  | pending | testEvent =>
      simp only [Stage, place, here, led, length] at stage ⊢
      exact ⟨raised _ stage.1, stage.2⟩
  | clearEvent =>
      simp only [Stage, place, here, led, length] at stage ⊢
      exact ⟨copies _ stage.1, stage.2⟩
  | verifying index =>
      simp only [Stage, place, here, led, length] at stage ⊢
      exact ⟨lowered stage.1, copies _ stage.2.1, stage.2.2.1, holds _ _ stage.2.1 stage.2.2.2⟩
  | putOut =>
      simp only [Stage, place, here, length] at stage ⊢
      exact ⟨lowered stage.1, copies _ stage.2.1, holds _ _ stage.2.1 stage.2.2⟩
  | advance =>
      simp only [Stage, place, here, length] at stage ⊢
      exact ⟨lowered stage.1, shown _ stage.2⟩

section Preserved
variable {bufferLength : Nat} {machine : Machine}

theorem sound_move (sound : Sound bufferLength machine) (copy : Copy)
    (busy : machine.channel = some copy) (left : copy.offset < copy.total) :
    Sound bufferLength (machine.move bufferLength copy) := by
  have inside := sound.inside copy busy
  refine ⟨sound.length_eq, ?_, sound.stage.frame rfl rfl rfl rfl (.inr rfl) ?_ ?_⟩
  · intro moved works
    cases works
    exact inside
  · intro moved works
    cases works
    exact ⟨copy, busy, rfl⟩
  · intro size bound all right
    exact right.moved bufferLength copy.offset (all copy busy ▸ left) (Nat.lt_trans left inside)

theorem sound_ended (sound : Sound bufferLength machine) (ok : Bool) :
    Sound bufferLength (onMemoryCopied ok { machine with channel := none }) := by
  cases ok <;>
  · refine ⟨sound.length_eq, ?_, sound.stage.frame rfl rfl rfl rfl (.inl rfl) ?_ fun _ _ _ => id⟩
    · intro copy busy
      cases busy
    · intro copy busy
      cases busy

theorem sound_statement (long : 32 < bufferLength) (sound : Sound bufferLength machine)
    (accepted : Bool) : Sound bufferLength (statement bufferLength accepted machine) := by
  have stage := sound.stage
  have short : machine.length < bufferLength := by
    rw [sound.length_eq]
    exact roundLength_lt _ _ long
  cases here : machine.control with
  | waiting =>
      simp only [Stage, here] at stage
      simp only [statement, here]
      split
      · exact ⟨sound.length_eq, sound.inside, stage⟩
      · exact sound
  | clearTimer =>
      simp only [Stage, here] at stage
      simp only [statement, here]
      exact ⟨sound.length_eq, sound.inside, stage⟩
  | lightLed =>
      simp only [Stage, here] at stage
      simp only [statement, here]
      exact ⟨sound.length_eq, sound.inside, stage.1, rfl⟩
  | clearing index =>
      simp only [Stage, here] at stage
      simp only [statement, here]
      split
      · exact ⟨sound.length_eq, sound.inside, stage⟩
      · exact ⟨sound.length_eq, sound.inside, stage⟩
  | starting =>
      simp only [Stage, here] at stage
      simp only [statement, here]
      cases accepted with
      | true =>
          refine ⟨sound.length_eq, ?_, fun _ => ?_, stage.2⟩
          · intro copy busy
            cases busy
            exact short
          · intro copy busy
            cases busy
            rfl
      | false =>
          refine ⟨sound.length_eq, sound.inside, fun up => ?_, stage.2⟩
          intro copy busy
          rw [stage.1 copy busy] at up
          cases up
  | pending =>
      simp only [Stage, here] at stage
      simp only [statement, here]
      split
      · exact ⟨sound.length_eq, sound.inside, stage⟩
      · exact sound
  | testEvent =>
      simp only [Stage, here] at stage
      simp only [statement, here]
      split
      · rename_i up
        exact ⟨sound.length_eq, sound.inside, stage.1 up, stage.2⟩
      · rename_i down
        refine ⟨sound.length_eq, sound.inside, fun _ _ => ?_, fun out => ?_⟩
        · exact Bool.eq_false_iff.mpr down
        · exact absurd (stage.2.symm.trans out) (by decide)
  | clearEvent =>
      simp only [Stage, here] at stage
      simp only [statement, here]
      exact ⟨sound.length_eq, sound.inside, fun _ _ => rfl, stage.1, stage.2, fun _ low =>
        absurd low (Nat.not_lt_zero _)⟩
  | verifying index =>
      simp only [Stage, here] at stage
      obtain ⟨lowered, copies, lit, holds⟩ := stage
      simp only [statement, here]
      split
      · split
        · rename_i right
          refine ⟨sound.length_eq, sound.inside, lowered, copies, lit, fun entry low => ?_⟩
          rcases Nat.lt_succ_iff_lt_or_eq.mp low with less | rfl
          · exact holds entry less
          · exact right
        · exact ⟨sound.length_eq, sound.inside, lowered, fun out =>
            absurd (lit.symm.trans out) (by decide)⟩
      · rename_i passed
        exact ⟨sound.length_eq, sound.inside, lowered, copies, fun entry low =>
          holds entry (Nat.lt_of_lt_of_le low (Nat.le_of_not_lt passed))⟩
  | putOut =>
      simp only [Stage, here] at stage
      simp only [statement, here]
      exact ⟨sound.length_eq, sound.inside, stage.1, fun _ => ⟨stage.2.2, stage.2.1⟩⟩
  | advance =>
      simp only [Stage, here] at stage
      simp only [statement, here]
      refine ⟨?_, sound.inside, stage.1, fun number done => ?_⟩
      · rw [roundLength_succ _ _ long, ← sound.length_eq]
      · rw [← Nat.succ.inj done, ← sound.length_eq]
        exact stage.2

theorem sound_step (long : 32 < bufferLength) (label : Label) (next : Machine)
    (sound : Sound bufferLength machine) (taken : step bufferLength machine label = some next) :
    Sound bufferLength next := by
  cases label with
  | main accepted =>
      cases taken
      exact sound_statement long sound accepted
  | move =>
      obtain ⟨copy, busy, left, rfl⟩ := step_move taken
      exact sound_move sound copy busy left
  | ended ok =>
      obtain ⟨_, _, _, rfl⟩ := step_ended taken
      exact sound_ended sound ok
  | overflow =>
      cases taken
      exact ⟨sound.length_eq, sound.inside, sound.stage⟩

end Preserved

theorem sound_run (bufferLength : Nat) (long : 32 < bufferLength) (labels : List Label)
    (final : Machine)
    (done : Schedule.run (step bufferLength) labels (initialMachine bufferLength) = some final) :
    Sound bufferLength final :=
  Schedule.run_invariant (step bufferLength) (Sound bufferLength)
    (fun _ label next sound taken => sound_step long label next sound taken)
    labels _ final (sound_initial bufferLength) done

/-- In every run, whatever the channel does and whenever the timer overflows: while the loop waits
with the LED out, the destination is what the copy of the last round should have made of it. -/
theorem led_out_right (bufferLength : Nat) (long : 32 < bufferLength) (labels : List Label)
    (final : Machine)
    (done : Schedule.run (step bufferLength) labels (initialMachine bufferLength) = some final)
    (waits : final.control = .waiting) (out : final.led = false) (number : Nat)
    (last : final.rounds = number + 1) :
    Holds final.dstBuffer (roundLength bufferLength number) bufferLength := by
  have stage := (sound_run bufferLength long labels final done).stage
  rw [Stage, waits] at stage
  exact (stage.2 number last out).1

/-- The statements of a round up to the start of its copy. -/
def roundStart (bufferLength : Nat) : List Label :=
  .overflow :: List.replicate (bufferLength + 5) (.main true)

def roundCheck (bufferLength : Nat) : List Label := List.replicate (bufferLength + 6) (.main true)

def firstRound : List Label :=
  roundStart 40 ++ (List.replicate 8 .move ++ [.ended true]) ++ roundCheck 40

theorem led_out_right_first_round :
    ∃ final, Schedule.run (step 40) firstRound (initialMachine 40) = some final ∧
      Holds final.dstBuffer 8 40 ∧ final.dstBuffer 7 = 7 ∧ final.dstBuffer 8 = 0 := by
  have state : (Schedule.run (step 40) firstRound (initialMachine 40)).map
      (fun machine => (machine.control, machine.led, machine.rounds)) =
        some (.waiting, false, 1) := by rfl
  obtain ⟨final, done, is⟩ := Option.map_eq_some_iff.mp state
  simp only [Prod.mk.injEq] at is
  have holds : Holds final.dstBuffer 8 40 :=
    led_out_right 40 (by decide) firstRound final done is.1 is.2.1 0 is.2.2
  exact ⟨final, done, holds, holds 7 (by decide), holds 8 (by decide)⟩

/-! ## Runs with enough time -/

/-- The channel takes each copy and completes it, not before `main` has seen the end of the one
before, and the timer does not overflow from the start of a round to the end of its copy. -/
def Regular (machine : Machine) : Label → Prop
  | .main accepted => machine.control = .starting → accepted = true
  | .move => True
  | .ended ok => ok = true ∧ machine.dmaEvent = false
  | .overflow =>
      machine.channel = none ∧
        match machine.control with
        | .lightLed | .clearing _ | .starting => False
        | _ => True

def Idle (machine : Machine) (flag : Bool) : Prop :=
  machine.channel = none ∧ machine.dmaEvent = flag

/-- Rounds that wait for their copy. -/
def InStep (bufferLength first : Nat) (machine : Machine) : Prop :=
  match machine.control with
  | .waiting => Idle machine false ∧ (machine.rounds ≠ first → machine.led = false)
  | .clearTimer => Idle machine false
  | .lightLed => Idle machine false ∧ machine.timEvent = false
  | .clearing index =>
      Idle machine false ∧ machine.timEvent = false ∧ Holds machine.dstBuffer 0 index
  | .starting =>
      Idle machine false ∧ machine.timEvent = false ∧ Holds machine.dstBuffer 0 bufferLength
  | .pending =>
      (∃ offset, machine.channel = some ⟨offset, machine.length⟩ ∧ machine.dmaEvent = false ∧
        machine.timEvent = false ∧ offset ≤ machine.length ∧
          Holds machine.dstBuffer offset bufferLength) ∨
        Idle machine true ∧ Holds machine.dstBuffer machine.length bufferLength
  | .testEvent | .clearEvent =>
      Idle machine true ∧ Holds machine.dstBuffer machine.length bufferLength
  | .verifying _ | .putOut =>
      Idle machine false ∧ Holds machine.dstBuffer machine.length bufferLength
  | .advance => Idle machine false ∧ machine.led = false

def Running (machine : Machine) (flag : Bool) : Prop :=
  machine.channel ≠ none ∧ machine.dmaEvent = flag ∧ machine.timEvent = false

/-- Rounds that take the end of the copy before for their own. -/
def Behind (machine : Machine) : Prop :=
  match machine.control with
  | .clearTimer => Idle machine true
  | .lightLed | .clearing _ | .starting => Idle machine true ∧ machine.timEvent = false
  | .pending | .testEvent | .clearEvent => Running machine true
  | .waiting | .verifying _ | .putOut | .advance => Idle machine true ∨ Running machine false

section Regular
variable {bufferLength first : Nat} {machine next : Machine}

theorem inStep_statement (long : 32 < bufferLength) (sound : Sound bufferLength machine)
    (stage : InStep bufferLength first machine) (accepted : Bool)
    (regular : Regular machine (.main accepted)) :
    InStep bufferLength first (statement bufferLength accepted machine) := by
  have short : machine.length < bufferLength := by
    rw [sound.length_eq]
    exact roundLength_lt _ _ long
  cases here : machine.control with
  | waiting =>
      simp only [InStep, here] at stage
      simp only [statement, here]
      split
      · exact stage.1
      · simpa only [InStep, here] using stage
  | clearTimer =>
      simp only [InStep, here] at stage
      simp only [statement, here]
      exact ⟨stage, rfl⟩
  | lightLed =>
      simp only [InStep, here] at stage
      simp only [statement, here]
      exact ⟨stage.1, stage.2, fun _ low => absurd low (Nat.not_lt_zero _)⟩
  | clearing index =>
      simp only [InStep, here] at stage
      obtain ⟨idle, early, holds⟩ := stage
      simp only [statement, here]
      split
      · exact ⟨idle, early, holds.clear⟩
      · rename_i passed
        exact ⟨idle, early, fun entry low =>
          holds entry (Nat.lt_of_lt_of_le low (Nat.le_of_not_lt passed))⟩
  | starting =>
      simp only [InStep, here] at stage
      simp only [statement, here, regular here]
      exact .inl ⟨0, rfl, stage.1.2, stage.2.1, Nat.zero_le _, stage.2.2⟩
  | pending =>
      simp only [InStep, here] at stage
      simp only [statement, here]
      rcases stage with ⟨offset, busy, down, early, left, holds⟩ | ready
      · have stays : ¬ (machine.dmaEvent || machine.timEvent) = true := by
          rw [down, early]
          decide
        rw [if_neg stays]
        simp only [InStep, here]
        exact .inl ⟨offset, busy, down, early, left, holds⟩
      · have leaves : (machine.dmaEvent || machine.timEvent) = true := by
          rw [ready.1.2, Bool.true_or]
        rw [if_pos leaves]
        exact ready
  | testEvent =>
      simp only [InStep, here] at stage
      simp only [statement, here]
      rw [if_pos stage.1.2]
      exact stage
  | clearEvent =>
      simp only [InStep, here] at stage
      simp only [statement, here]
      exact ⟨⟨stage.1.1, rfl⟩, stage.2⟩
  | verifying index =>
      simp only [InStep, here] at stage
      simp only [statement, here]
      split
      · rename_i inside
        rw [if_pos (stage.2 index inside)]
        exact stage
      · exact stage
  | putOut =>
      simp only [InStep, here] at stage
      simp only [statement, here]
      exact ⟨stage.1, rfl⟩
  | advance =>
      simp only [InStep, here] at stage
      simp only [statement, here]
      exact ⟨stage.1, fun _ => stage.2⟩

theorem inStep_busy (stage : InStep bufferLength first machine) (copy : Copy)
    (busy : machine.channel = some copy) :
    machine.control = .pending ∧ copy.total = machine.length ∧ copy.offset ≤ machine.length ∧
      machine.dmaEvent = false ∧ machine.timEvent = false ∧
        Holds machine.dstBuffer copy.offset bufferLength := by
  have never : ∀ flag, ¬ Idle machine flag := by
    intro flag idle
    rw [idle.1] at busy
    cases busy
  cases here : machine.control with
  | pending =>
      simp only [InStep, here] at stage
      rcases stage with ⟨offset, works, down, early, left, holds⟩ | ready
      · cases works.symm.trans busy
        exact ⟨rfl, rfl, left, down, early, holds⟩
      · exact absurd ready.1 (never true)
  | clearTimer =>
      simp only [InStep, here] at stage
      exact absurd stage (never false)
  | testEvent | clearEvent =>
      simp only [InStep, here] at stage
      exact absurd stage.1 (never true)
  | _ =>
      simp only [InStep, here] at stage
      exact absurd stage.1 (never false)

theorem inStep_step (long : 32 < bufferLength) (label : Label)
    (sound : Sound bufferLength machine) (stage : InStep bufferLength first machine)
    (regular : Regular machine label) (taken : step bufferLength machine label = some next) :
    InStep bufferLength first next := by
  cases label with
  | main accepted =>
      cases taken
      exact inStep_statement long sound stage accepted regular
  | move =>
      obtain ⟨copy, busy, left, rfl⟩ := step_move taken
      obtain ⟨here, total, _, down, early, holds⟩ := inStep_busy stage copy busy
      have inside := Nat.lt_trans left (sound.inside copy busy)
      rw [InStep, show (machine.move bufferLength copy).control = .pending from here]
      refine .inl ⟨copy.offset + 1, ?_, down, early, total ▸ left, ?_⟩
      · rw [Machine.move, total]
      · exact holds.extend bufferLength inside
  | ended ok =>
      obtain ⟨copy, busy, complete, rfl⟩ := step_ended taken
      obtain ⟨here, total, within, down, early, holds⟩ := inStep_busy stage copy busy
      have whole : copy.offset = machine.length :=
        Nat.le_antisymm within (total ▸ complete regular.1)
      rw [regular.1]
      simp only [onMemoryCopied, if_true, InStep, here]
      exact .inr ⟨⟨rfl, rfl⟩, whole ▸ holds⟩
  | overflow =>
      cases taken
      obtain ⟨idle, place⟩ := regular
      cases here : machine.control with
      | lightLed | clearing index | starting =>
          simp only [here] at place
      | pending =>
          simp only [InStep, here] at stage ⊢
          rcases stage with ⟨offset, busy, _⟩ | ready
          · rw [idle] at busy
            cases busy
          · exact .inr ready
      | _ =>
          simp only [InStep, here] at stage ⊢
          exact stage

theorem behind_statement (stage : Behind machine) (accepted : Bool)
    (regular : Regular machine (.main accepted)) :
    Behind (statement bufferLength accepted machine) := by
  cases here : machine.control with
  | waiting =>
      simp only [Behind, here] at stage
      simp only [statement, here]
      rcases stage with idle | running
      · split
        · exact idle
        · simp only [Behind, here]
          exact .inl idle
      · rw [if_neg (Bool.eq_false_iff.mp running.2.2)]
        simp only [Behind, here]
        exact .inr running
  | clearTimer =>
      simp only [Behind, here] at stage
      simp only [statement, here]
      exact ⟨stage, rfl⟩
  | lightLed =>
      simp only [Behind, here] at stage
      simp only [statement, here]
      exact stage
  | clearing index =>
      simp only [Behind, here] at stage
      simp only [statement, here]
      split <;> exact stage
  | starting =>
      simp only [Behind, here] at stage
      simp only [statement, here, regular here]
      exact ⟨Option.some_ne_none _, stage.1.2, stage.2⟩
  | pending =>
      simp only [Behind, here] at stage
      simp only [statement, here]
      have leaves : (machine.dmaEvent || machine.timEvent) = true := by
        rw [stage.2.1, Bool.true_or]
      rw [if_pos leaves]
      exact stage
  | testEvent =>
      simp only [Behind, here] at stage
      simp only [statement, here]
      rw [if_pos stage.2.1]
      exact stage
  | clearEvent =>
      simp only [Behind, here] at stage
      simp only [statement, here]
      exact .inr ⟨stage.1, rfl, stage.2.2⟩
  | verifying index =>
      simp only [Behind, here] at stage
      simp only [statement, here]
      split
      · split <;> exact stage
      · exact stage
  | putOut =>
      simp only [Behind, here] at stage
      simp only [statement, here]
      exact stage
  | advance =>
      simp only [Behind, here] at stage
      simp only [statement, here]
      exact stage

theorem behind_step (label : Label) (stage : Behind machine) (regular : Regular machine label)
    (taken : step bufferLength machine label = some next) : Behind next := by
  cases label with
  | main accepted =>
      cases taken
      exact behind_statement stage accepted regular
  | move =>
      obtain ⟨copy, busy, left, rfl⟩ := step_move taken
      have idle : ∀ flag, Idle machine flag → Idle (machine.move bufferLength copy) flag := by
        intro flag rests
        rw [rests.1] at busy
        cases busy
      have running : ∀ flag, Running machine flag →
          Running (machine.move bufferLength copy) flag :=
        fun flag works => ⟨Option.some_ne_none _, works.2⟩
      have place : (machine.move bufferLength copy).control = machine.control := rfl
      cases here : machine.control with
      | clearTimer =>
          simp only [Behind, place, here] at stage ⊢
          exact idle true stage
      | lightLed | clearing index | starting =>
          simp only [Behind, place, here] at stage ⊢
          exact ⟨idle true stage.1, stage.2⟩
      | pending | testEvent | clearEvent =>
          simp only [Behind, place, here] at stage ⊢
          exact running true stage
      | _ =>
          simp only [Behind, place, here] at stage ⊢
          exact stage.imp (idle true) (running false)
  | ended ok =>
      obtain ⟨copy, busy, _, rfl⟩ := step_ended taken
      have rests : ∀ flag, ¬ Idle machine flag := by
        intro flag idle
        rw [idle.1] at busy
        cases busy
      have seen : ¬ Running machine true := by
        intro running
        exact absurd (running.2.1.symm.trans regular.2) (by decide)
      rw [regular.1]
      cases here : machine.control with
      | clearTimer =>
          simp only [Behind, here] at stage
          exact absurd stage (rests true)
      | lightLed | clearing index | starting =>
          simp only [Behind, here] at stage
          exact absurd stage.1 (rests true)
      | pending | testEvent | clearEvent =>
          simp only [Behind, here] at stage
          exact absurd stage seen
      | _ =>
          simp only [onMemoryCopied, if_true, Behind]
          exact .inl ⟨rfl, rfl⟩
  | overflow =>
      cases taken
      obtain ⟨rests, place⟩ := regular
      cases here : machine.control with
      | clearTimer =>
          simp only [Behind, here] at stage ⊢
          exact stage
      | lightLed | clearing index | starting =>
          simp only [here] at place
      | pending | testEvent | clearEvent =>
          simp only [Behind, here] at stage
          exact absurd rests stage.1
      | _ =>
          simp only [Behind, here] at stage ⊢
          exact .inl (stage.resolve_right fun running => running.1 rests)

end Regular

/-- In a run with enough time from a wait with the channel idle, the flag decides: if it is down
there, every round waits for its copy and puts the LED out; if it is up, because a copy ended
late, it stays so, and whenever `main` turns to the check the copy is still on its way. -/
theorem flag_decides (bufferLength : Nat) (long : 32 < bufferLength) (before after : List Label)
    (middle final : Machine)
    (reached : Schedule.run (step bufferLength) before (initialMachine bufferLength) = some middle)
    (waits : middle.control = .waiting) (idle : middle.channel = none)
    (regular : Schedule.Along (step bufferLength) Regular after middle)
    (done : Schedule.run (step bufferLength) after middle = some final) :
    (final.control = .clearEvent → (final.channel = none ↔ middle.dmaEvent = false)) ∧
      (final.control = .waiting →
        (final.channel = none → final.dmaEvent = middle.dmaEvent) ∧
        (middle.dmaEvent = false → final.rounds ≠ middle.rounds → final.led = false)) := by
  cases flag : middle.dmaEvent with
  | false =>
      have begins : InStep bufferLength middle.rounds middle := by
        rw [InStep, waits]
        exact ⟨⟨idle, flag⟩, fun moved => absurd rfl moved⟩
      have stage := Schedule.run_preserves (step bufferLength) Regular
        (fun machine => Sound bufferLength machine ∧ InStep bufferLength middle.rounds machine)
        (fun _ label next holds allowed taken =>
          ⟨sound_step long label next holds.1 taken,
            inStep_step long label holds.1 holds.2 allowed taken⟩)
        after middle final ⟨sound_run bufferLength long before middle reached, begins⟩ regular done
      refine ⟨fun checks => ?_, fun waiting => ?_⟩
      · have ready := stage.2
        rw [InStep, checks] at ready
        exact iff_of_true ready.1.1 rfl
      · have ready := stage.2
        rw [InStep, waiting] at ready
        exact ⟨fun _ => ready.1.2, fun _ => ready.2⟩
  | true =>
      have begins : Behind middle := by
        rw [Behind, waits]
        exact .inl ⟨idle, flag⟩
      have stage := Schedule.run_preserves (step bufferLength) Regular Behind
        (fun _ label _ holds allowed taken => behind_step label holds allowed taken)
        after middle final begins regular done
      refine ⟨fun checks => ?_, fun waiting => ⟨fun rests => ?_, fun down => ?_⟩⟩
      · rw [Behind, checks] at stage
        exact iff_of_false stage.1 (by decide)
      · rw [Behind, waiting] at stage
        exact (stage.resolve_right fun running => running.1 rests).2
      · cases down

/-- The first round, whose copy ends after the timer has overflowed. -/
def lateRound : List Label :=
  roundStart 33 ++ [.overflow, .main true, .main true, .main true, .move, .ended true]

def nextRound : List Label := List.replicate 40 (.main true)

theorem flag_decides_late_copy :
    ∃ middle final, Schedule.run (step 33) lateRound (initialMachine 33) = some middle ∧
      Schedule.run (step 33) nextRound middle = some final ∧ final.channel ≠ none := by
  have late : (Schedule.run (step 33) lateRound (initialMachine 33)).map (fun machine =>
      (machine.control, machine.channel, machine.dmaEvent)) = some (.waiting, none, true) := by rfl
  have later : (Schedule.run (step 33) (lateRound ++ nextRound) (initialMachine 33)).map
      Machine.control = some .clearEvent := by rfl
  obtain ⟨middle, reached, is⟩ := Option.map_eq_some_iff.mp late
  simp only [Prod.mk.injEq] at is
  obtain ⟨final, both, checks⟩ := Option.map_eq_some_iff.mp later
  rw [Schedule.run_append, reached, Option.bind_some] at both
  have regular : Schedule.Along (step 33) Regular nextRound middle :=
    Schedule.along_of_forall (step 33) Regular nextRound
      (fun _ member _ => List.eq_of_mem_replicate member ▸ fun _ => rfl) middle
  have decides := flag_decides 33 (by decide) lateRound nextRound middle final reached is.1 is.2.1
    regular both
  refine ⟨middle, final, reached, both, fun idle => ?_⟩
  have down := (decides.1 checks).mp idle
  rw [is.2.2] at down
  cases down

end HalmExamples.DmaMemcopy
