import HalmExamples.Foundation.Custody
import HalmExamples.Foundation.Schedule
import Mathlib.Data.Nat.Periodic

/-!
# Playing a periodic wave from blocks

A player sends the words of the blocks in its queue, one after the other.  A block that has
been sent is taken out when its end is noticed, at once or after words of later blocks.  If
each block holds the beginning of a wave and is a whole number of its periods long, then the
blocks may follow each other in any order and with any pauses: what has been sent is the
beginning of the wave.
-/

set_option autoImplicit false

namespace Foundation.Playback

variable {Block Word : Type}

def upTo (wave : Nat → Word) (count : Nat) : List Word := (List.range count).map wave

@[simp] theorem upTo_length (wave : Nat → Word) (count : Nat) :
    (upTo wave count).length = count := by
  simp [upTo]

theorem upTo_succ (wave : Nat → Word) (count : Nat) :
    upTo wave (count + 1) = upTo wave count ++ [wave count] := by
  simp [upTo, List.range_succ]

theorem upTo_getElem? (wave : Nat → Word) (count position : Nat) (word : Word)
    (found : (upTo wave count)[position]? = some word) : word = wave position := by
  obtain ⟨inside, rfl⟩ := List.getElem?_eq_some_iff.mp found
  simp [upTo]

/-- A part that starts with a period is like the beginning. -/
theorem upTo_part {wave : Nat → Word} {period start count total : Nat}
    (periodic : Function.Periodic wave period) (whole : period ∣ start)
    (inside : start + count ≤ total) :
    ((upTo wave total).drop start).take count = upTo wave count := by
  apply List.ext_getElem
  · rw [List.length_take, List.length_drop, upTo_length, upTo_length]
    omega
  · intro index _ _
    rw [List.getElem_take, List.getElem_drop]
    simp only [upTo, List.getElem_map, List.getElem_range]
    rw [← periodic.map_mod_nat (start + index), Nat.add_mod, Nat.mod_eq_zero_of_dvd whole,
      Nat.zero_add, Nat.mod_mod, periodic.map_mod_nat]

def alternating (even odd : Nat → Word) (index : Nat) : Word :=
  if index % 2 = 0 then even (index / 2) else odd (index / 2)

theorem flatMap_alternating (even odd : Nat → Word) (count : Nat) :
    (List.range count).flatMap (fun index => [even index, odd index]) =
      upTo (alternating even odd) (2 * count) := by
  induction count with
  | zero => rfl
  | succ count ih =>
      have first : alternating even odd (2 * count) = even count := by
        simp [alternating]
      have second : alternating even odd (2 * count + 1) = odd count := by
        have half : (2 * count + 1) / 2 = count := by omega
        simp [alternating, half]
      rw [List.range_succ, List.flatMap_append, ih, Nat.mul_succ, upTo_succ, upTo_succ, first,
        second, List.append_assoc]
      rfl

theorem alternating_periodic {even odd : Nat → Word} {period : Nat}
    (evenPeriodic : Function.Periodic even period) (oddPeriodic : Function.Periodic odd period) :
    Function.Periodic (alternating even odd) (2 * period) := by
  intro index
  have parity : (index + 2 * period) % 2 = index % 2 := by omega
  have half : (index + 2 * period) / 2 = index / 2 + period := by omega
  simp only [alternating, parity, half]
  rw [evenPeriodic, oddPeriodic]

/-! ## The player -/

structure Player (Block Word : Type) where
  queue : List Block
  /-- How many blocks at the front are all sent, their ends not yet noticed. -/
  ended : Nat
  /-- How many words of the block behind these are sent. -/
  position : Nat
  /-- All that was ever sent, oldest first. -/
  sent : List Word

def emptyPlayer : Player Block Word := { queue := [], ended := 0, position := 0, sent := [] }

namespace Player
variable (content : Block → List Word) (player : Player Block Word)

/-- A word of a block with so many has gone out. -/
def advance (length : Nat) (word : Word) : Player Block Word :=
  if player.position + 1 = length then
    { player with ended := player.ended + 1, position := 0, sent := player.sent ++ [word] }
  else { player with position := player.position + 1, sent := player.sent ++ [word] }

def transmit : Option (Player Block Word) :=
  match player.queue[player.ended]? with
  | none => none
  | some block =>
      match (content block)[player.position]? with
      | none => none
      | some word => some (player.advance (content block).length word)

/-- The end of the oldest block is noticed, or it is `cut` short while it is sent. -/
def finish (cut : Bool) : Option (Block × Player Block Word) :=
  match player.queue with
  | [] => none
  | block :: rest =>
      if 0 < player.ended then
        some (block, { player with queue := rest, ended := player.ended - 1 })
      else if cut then some (block, { player with queue := rest, position := 0 })
      else none

def enqueue (size : Nat) (block : Block) : Player Block Word :=
  { player with queue := Foundation.enqueue size player.queue block }

end Player

section Steps
variable {content : Block → List Word} {player next : Player Block Word} {block : Block}

theorem advance_queue (length : Nat) (word : Word) :
    (player.advance length word).queue = player.queue := by
  unfold Player.advance
  split <;> rfl

theorem advance_sent (length : Nat) (word : Word) :
    (player.advance length word).sent = player.sent ++ [word] := by
  unfold Player.advance
  split <;> rfl

theorem transmit_eq_some (taken : player.transmit content = some next) :
    ∃ block ∈ player.queue, ∃ word, (content block)[player.position]? = some word ∧
      next = player.advance (content block).length word := by
  unfold Player.transmit at taken
  cases here : player.queue[player.ended]? with
  | none => simp only [here] at taken; cases taken
  | some block =>
      cases found : (content block)[player.position]? with
      | none => simp only [here, found] at taken; cases taken
      | some word =>
          simp only [here, found] at taken
          exact ⟨block, List.mem_of_getElem? here, word, found, (Option.some.inj taken).symm⟩

theorem finish_eq_some {cut : Bool} (taken : player.finish cut = some (block, next)) :
    ∃ rest, player.queue = block :: rest ∧ next.queue = rest ∧ next.sent = player.sent ∧
      (next.position = player.position ∨
        cut = true ∧ player.ended = 0 ∧ next.position = 0) := by
  unfold Player.finish at taken
  cases queue : player.queue with
  | nil => rw [queue] at taken; cases taken
  | cons first rest =>
      rw [queue] at taken
      dsimp only at taken
      by_cases late : 0 < player.ended
      · rw [if_pos late] at taken
        cases taken
        exact ⟨rest, rfl, rfl, rfl, .inl rfl⟩
      · cases cut with
        | false =>
            rw [if_neg late] at taken
            cases taken
        | true =>
            rw [if_neg late, if_pos rfl] at taken
            cases taken
            exact ⟨rest, rfl, rfl, rfl, .inr ⟨rfl, Nat.eq_zero_of_not_pos late, rfl⟩⟩

end Steps

/-! ## A block goes out -/

section Whole
variable {State Label : Type} (step : State → Label → Option State) (label : Label)
  (embed : Player Block Word → State) (content : Block → List Word) (block : Block)

theorem run_part
    (each : ∀ player, step (embed player) label = (player.transmit content).map embed)
    (count : Nat) (player : Player Block Word) (here : player.queue[player.ended]? = some block)
    (fits : player.position + count < (content block).length) :
    Schedule.run step (List.replicate count label) (embed player) =
      some (embed { player with
        position := player.position + count
        sent := player.sent ++ ((content block).drop player.position).take count }) := by
  induction count generalizing player with
  | zero => simp [Schedule.run]
  | succ count ih =>
      have inside : player.position < (content block).length := by omega
      have more : player.position + 1 ≠ (content block).length := by omega
      have taken : step (embed player) label = some (embed { player with
          position := player.position + 1
          sent := player.sent ++ [(content block)[player.position]] }) := by
        rw [each, Player.transmit, here]
        simp only [List.getElem?_eq_getElem inside, Player.advance, if_neg more, Option.map_some]
      rw [List.replicate_succ, Schedule.run, taken]
      dsimp only
      rw [ih _ (by exact here) (by dsimp only; omega), List.drop_eq_getElem_cons inside,
        List.take_succ_cons]
      simp [Nat.add_assoc, Nat.add_comm 1]

/-- A block that has not begun goes out from its first word to its last. -/
theorem run_block
    (each : ∀ player, step (embed player) label = (player.transmit content).map embed)
    (player : Player Block Word) (here : player.queue[player.ended]? = some block)
    (start : player.position = 0) (words : content block ≠ []) :
    Schedule.run step (List.replicate (content block).length label) (embed player) =
      some (embed { player with
        ended := player.ended + 1, sent := player.sent ++ content block }) := by
  obtain ⟨early, last, whole⟩ := List.eq_nil_or_concat (content block) |>.resolve_left words
  rw [List.concat_eq_append] at whole
  have length : (content block).length = early.length + 1 := by simp [whole]
  rw [length, List.replicate_succ', Schedule.run_append,
    run_part step label embed content block each early.length player here (by omega)]
  have taken : step (embed { player with
      position := player.position + early.length
      sent := player.sent ++ ((content block).drop player.position).take early.length }) label =
      some (embed { player with
        ended := player.ended + 1, sent := player.sent ++ content block }) := by
    rw [each, Player.transmit]
    simp [here, start, whole, Player.advance]
  rw [Option.bind_some, Schedule.run, taken]
  rfl

end Whole

/-! ## In phase -/

/-- All that was sent is the beginning of the wave, and the next word continues it. -/
structure InPhase (wave : Nat → Word) (period : Nat) (player : Player Block Word) : Prop where
  played : player.sent = upTo wave player.sent.length
  aligned : player.sent.length % period = player.position % period

section InPhase
variable {wave : Nat → Word} {period : Nat} {content : Block → List Word}
  {player next : Player Block Word} {block : Block}

theorem inPhase_empty (wave : Nat → Word) (period : Nat) :
    InPhase wave period (emptyPlayer : Player Block Word) :=
  ⟨rfl, rfl⟩

theorem InPhase.enqueue (inPhase : InPhase wave period player) (size : Nat) (block : Block) :
    InPhase wave period (player.enqueue size block) :=
  ⟨inPhase.played, inPhase.aligned⟩

theorem InPhase.transmit (periodic : Function.Periodic wave period)
    (inPhase : InPhase wave period player)
    (waves : ∀ block ∈ player.queue, ∃ count, content block = upTo wave count ∧ period ∣ count)
    (taken : player.transmit content = some next) : InPhase wave period next := by
  obtain ⟨block, member, word, found, rfl⟩ := transmit_eq_some taken
  obtain ⟨count, holds, whole⟩ := waves block member
  rw [holds] at found
  have continued : word = wave player.sent.length := by
    rw [upTo_getElem? wave count _ word found, ← periodic.map_mod_nat player.position,
      ← inPhase.aligned, periodic.map_mod_nat]
  have onward : (player.sent.length + 1) % period = (player.position + 1) % period := by
    rw [Nat.add_mod, inPhase.aligned, ← Nat.add_mod]
  constructor
  · rw [advance_sent, List.length_append, List.length_singleton, upTo_succ, ← inPhase.played,
      continued]
  · rw [advance_sent, List.length_append, List.length_singleton, onward, holds, upTo_length]
    unfold Player.advance
    split
    · rename_i last
      rw [last, Nat.mod_eq_zero_of_dvd whole, Nat.zero_mod]
    · rfl

/-- A block that is cut short must be cut after a whole number of periods. -/
theorem InPhase.finish (inPhase : InPhase wave period player) (cut : Bool)
    (whole : cut = true → player.ended = 0 → period ∣ player.position)
    (taken : player.finish cut = some (block, next)) : InPhase wave period next := by
  obtain ⟨rest, _, _, sent, moved⟩ := finish_eq_some taken
  refine ⟨sent ▸ inPhase.played, ?_⟩
  rw [sent, inPhase.aligned]
  rcases moved with same | ⟨early, current, start⟩
  · rw [same]
  · rw [start, Nat.mod_eq_zero_of_dvd (whole early current), Nat.zero_mod]

end InPhase

/-! ## Blocks that go round

A block that was taken out of the queue is put back at its end, so none gets lost later. -/

section Round
variable {size : Nat} {queue rest : List Block} {block : Block}

/-- Each block at most once, and as many as there are or fit. -/
structure Rounds (size count : Nat) (queue : List Block) : Prop where
  once : queue.Nodup
  length : queue.length = min size count

theorem Rounds.requeue {count : Nat} (rounds : Rounds size count (block :: rest)) :
    Rounds size count (Foundation.enqueue size rest block) := by
  have length := rounds.length
  rw [List.length_cons] at length
  have room : rest.length < size := by omega
  have fresh := List.nodup_cons.mp rounds.once
  rw [enqueue_of_room size rest block room]
  refine ⟨?_, ?_⟩
  · exact List.nodup_append.mpr ⟨fresh.2, List.nodup_singleton block, fun other member same last =>
      fun equal => fresh.1 (List.mem_singleton.mp last ▸ equal ▸ member)⟩
  · rw [List.length_append, List.length_singleton, length]

theorem Rounds.enqueue {count : Nat} (rounds : Rounds size count queue) (fresh : block ∉ queue) :
    Rounds size (count + 1) (Foundation.enqueue size queue block) := by
  have length := rounds.length
  by_cases room : queue.length < size
  · rw [enqueue_of_room size queue block room]
    refine ⟨?_, ?_⟩
    · exact List.nodup_append.mpr ⟨rounds.once, List.nodup_singleton block,
        fun other member same last equal => fresh (List.mem_singleton.mp last ▸ equal ▸ member)⟩
    · rw [List.length_append, List.length_singleton]
      omega
  · rw [Foundation.enqueue, if_neg room]
    exact ⟨rounds.once, by omega⟩

theorem mem_enqueue {other : Block} (member : other ∈ Foundation.enqueue size queue block) :
    other ∈ queue ∨ other = block := by
  unfold Foundation.enqueue at member
  split at member
  · exact (List.mem_append.mp member).imp id List.mem_singleton.mp
  · exact Or.inl member

end Round

end Foundation.Playback
