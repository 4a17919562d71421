import HalmExamples.EthRaw.Safety
import HalmExamples.EthRaw.Transfer
import HalmExamples.Foundation.Schedule

/-!
# The loop of the board

`main` of `eth_raw/main.c` statement by statement.  Frames arrive between any two
statements and call `onFrameReady`; a request is answered chunk by chunk, each as often as
the interface refuses it.  Whenever the loop waits, the board is as if every frame had been
handled at once on its arrival.
-/

set_option autoImplicit false

namespace HalmExamples.EthRaw

open Foundation

inductive LoopControl where
  | wait
  | clearEvent
  | readFrame
  | handleFrame (frame : Frame)
  | sendChunk (mac : List UInt8) (offsets : List Nat)
  deriving DecidableEq

structure LoopMachine where
  board : Board
  /-- Received frames in the buffers of the proxy, oldest first. -/
  fifo : List Frame
  event : Bool
  control : LoopControl
  deriving DecidableEq

def initialLoop (board : Board) : LoopMachine :=
  { board := board, fifo := [], event := false, control := .wait }

/-- The next statement; `written` says whether `ifWrite` takes the frame. -/
def loopStatement (written : Bool) (machine : LoopMachine) : Option LoopMachine :=
  match machine.control with
  | .wait => some (if machine.event then { machine with control := .clearEvent } else machine)
  | .clearEvent => some { machine with event := false, control := .readFrame }
  | .readFrame =>
      match machine.fifo with
      | [] => some { machine with control := .wait }
      | frame :: rest => some { machine with fifo := rest, control := .handleFrame frame }
  | .handleFrame frame =>
      if IsRequest frame then
        some { machine with control := .sendChunk (EthHeader.src.bytes frame) chunkOffsets }
      else
        (handleEthFrame machine.board frame).board.map fun board =>
          { machine with board := board, control := .readFrame }
  | .sendChunk _ [] => some { machine with control := .readFrame }
  | .sendChunk mac (offset :: rest) =>
      if written then
        (sendMemChunk machine.board mac offset chunkSize).map fun board =>
          { machine with board := board, control := .sendChunk mac rest }
      else some machine

inductive LoopLabel where
  | main (written : Bool)
  | arrival (frame : Frame)
  deriving DecidableEq

/-- The proxy has buffers for `room` frames; it drops a frame for which it has none. -/
def loopStep (room : Nat) (machine : LoopMachine) : LoopLabel → Option LoopMachine
  | .main written => loopStatement written machine
  | .arrival frame =>
      if EthHeader.size ≤ frame.length ∧ frame.length ≤ boardEthBuffer ∧
          machine.fifo.length < room then
        some { machine with fifo := machine.fifo ++ [frame], event := true }
      else none

def LoopLabel.frames : LoopLabel → List Frame
  | .main _ => []
  | .arrival frame => [frame]

def arrivedFrames (labels : List LoopLabel) : List Frame := labels.flatMap LoopLabel.frames

/-! ## What is left to do -/

def finish : LoopControl → Board → Option Board
  | .handleFrame frame, board => (handleEthFrame board frame).board
  | .sendChunk mac offsets, board =>
      offsets.foldlM (fun current offset => sendMemChunk current mac offset chunkSize) board
  | .wait, board | .clearEvent, board | .readFrame, board => some board

theorem deliver_append (first second : List Frame) (board : Board) :
    deliver (first ++ second) board = (deliver first board).bind (deliver second) := by
  induction first generalizing board with
  | nil => rfl
  | cons frame rest ih =>
      rw [List.cons_append, deliver, deliver]
      cases (handleEthFrame board frame).board with
      | none => rfl
      | some next => exact ih next

theorem deliver_singleton (frame : Frame) (board : Board) :
    deliver [frame] board = (handleEthFrame board frame).board := by
  rw [deliver]
  cases (handleEthFrame board frame).board <;> rfl

/-- Of the frames that have arrived, some are handled once the one in hand is, and the rest
is in the queue, of which the loop knows. -/
structure Serving (start : Board) (arrived : List Frame) (machine : LoopMachine) : Prop where
  handled : ∃ done, arrived = done ++ machine.fifo ∧
    deliver done start = finish machine.control machine.board
  noticed : machine.control = .wait → machine.event = false → machine.fifo = []

section Steps
variable {start : Board} {arrived : List Frame} {machine next : LoopMachine}

theorem Serving.statement (serving : Serving start arrived machine) (written : Bool)
    (taken : loopStatement written machine = some next) : Serving start arrived next := by
  obtain ⟨⟨done, split, state⟩, noticed⟩ := serving
  cases here : machine.control with
  | wait =>
      simp only [loopStatement, here] at taken
      cases taken
      rw [here] at state
      split
      · exact ⟨⟨done, split, state⟩, nofun⟩
      · exact ⟨⟨done, split, by rw [here]; exact state⟩, noticed⟩
  | clearEvent =>
      simp only [loopStatement, here] at taken
      cases taken
      rw [here] at state
      exact ⟨⟨done, split, state⟩, nofun⟩
  | readFrame =>
      rw [here] at state
      cases queue : machine.fifo with
      | nil =>
          simp only [loopStatement, here, queue] at taken
          cases taken
          exact ⟨⟨done, by rw [split, queue], state⟩, fun _ _ => rfl⟩
      | cons frame rest =>
          simp only [loopStatement, here, queue] at taken
          cases taken
          refine ⟨⟨done ++ [frame], ?_, ?_⟩, nofun⟩
          · rw [split, queue, List.append_assoc]
            rfl
          · rw [deliver_append, state]
            exact deliver_singleton frame machine.board
  | handleFrame frame =>
      rw [here] at state
      by_cases request : IsRequest frame
      · simp only [loopStatement, here, if_pos request] at taken
        cases taken
        refine ⟨⟨done, split, ?_⟩, nofun⟩
        rw [state, finish, handleEthFrame_request machine.board frame request]
        rfl
      · simp only [loopStatement, here, if_neg request] at taken
        obtain ⟨board, handled, rfl⟩ := Option.map_eq_some_iff.mp taken
        exact ⟨⟨done, split, state.trans handled⟩, nofun⟩
  | sendChunk mac offsets =>
      rw [here] at state
      cases offsets with
      | nil =>
          simp only [loopStatement, here] at taken
          cases taken
          exact ⟨⟨done, split, state⟩, nofun⟩
      | cons offset rest =>
          cases written with
          | false =>
              simp only [loopStatement, here] at taken
              cases taken
              exact ⟨⟨done, split, by rw [here]; exact state⟩, noticed⟩
          | true =>
              simp only [loopStatement, here, if_true] at taken
              obtain ⟨board, sent, rfl⟩ := Option.map_eq_some_iff.mp taken
              refine ⟨⟨done, split, ?_⟩, nofun⟩
              rw [state, finish, List.foldlM_cons, sent]
              rfl

theorem Serving.step (room : Nat) (serving : Serving start arrived machine) (label : LoopLabel)
    (taken : loopStep room machine label = some next) :
    Serving start (arrived ++ label.frames) next := by
  cases label with
  | main written =>
      rw [LoopLabel.frames, List.append_nil]
      exact serving.statement written taken
  | arrival frame =>
      obtain ⟨done, split, state⟩ := serving.handled
      obtain ⟨_, same⟩ := Option.ite_none_right_eq_some.mp taken
      cases same
      refine ⟨⟨done, ?_, state⟩, nofun⟩
      rw [split, List.append_assoc]
      rfl

end Steps

/-- In every run, when the loop waits with no event, each frame that has arrived has been
handled, once and in the order of arrival. -/
theorem waiting_board (room : Nat) (start : Board) (labels : List LoopLabel)
    (final : LoopMachine)
    (done : Schedule.run (loopStep room) labels (initialLoop start) = some final)
    (waiting : final.control = .wait) (quiet : final.event = false) :
    final.fifo = [] ∧ deliver (arrivedFrames labels) start = some final.board := by
  have serving := Schedule.run_history (loopStep room) LoopLabel.frames (fun _ _ => True)
    (Serving start) (fun _ _ label _ serving _ taken => serving.step room label taken) labels []
    (initialLoop start) final ⟨⟨[], rfl, rfl⟩, fun _ _ => rfl⟩
    (Schedule.along_true _ labels _) done
  obtain ⟨⟨handled, split, state⟩, noticed⟩ := serving
  have empty := noticed waiting quiet
  rw [empty, List.append_nil, List.nil_append] at split
  rw [waiting, finish, ← split] at state
  exact ⟨empty, state⟩

/-- A data packet is stored; then a request arrives, whose first reply is refused once. -/
def servedRun : List LoopLabel :=
  [.arrival storedFrame] ++ List.replicate 6 (.main true) ++
    [.arrival (makeDataRequest broadcast.cells (macBytes emptyBoard.address))] ++
    List.replicate 4 (.main true) ++ [.main false] ++ List.replicate 19 (.main true)

theorem waiting_board_served :
    ∃ final, Schedule.run (loopStep 4) servedRun (initialLoop emptyBoard) = some final ∧
      final.fifo = [] ∧ final.board.sent.length = 16 ∧
      window final.board.arena.cells 16 4 = [0xDE, 0xAD, 0xBE, 0xEF] ∧
      deliver (arrivedFrames servedRun) emptyBoard = some final.board := by
  have ends : (Schedule.run (loopStep 4) servedRun (initialLoop emptyBoard)).map
      (fun final => (decide (final.control = .wait), final.event, final.board.sent.length,
        window final.board.arena.cells 16 4)) =
        some (true, false, 16, [0xDE, 0xAD, 0xBE, 0xEF]) := rfl
  obtain ⟨final, done, same⟩ := Option.map_eq_some_iff.mp ends
  simp only [Prod.mk.injEq, decide_eq_true_eq] at same
  obtain ⟨waiting, quiet, count, stored⟩ := same
  obtain ⟨empty, delivered⟩ := waiting_board 4 emptyBoard servedRun final done waiting quiet
  exact ⟨final, done, empty, count, stored, delivered⟩

/-! ## Getting done -/

/-- Statements of the loop alone, the interface taking each frame, lead to a machine. -/
def Reaches (room : Nat) (machine next : LoopMachine) : Prop :=
  ∃ count, Schedule.run (loopStep room) (List.replicate count (.main true)) machine = some next

section Reaches
variable {room : Nat} {machine middle next : LoopMachine}

theorem reaches_refl (room : Nat) (machine : LoopMachine) : Reaches room machine machine :=
  ⟨0, rfl⟩

theorem Reaches.trans (first : Reaches room machine middle) (second : Reaches room middle next) :
    Reaches room machine next := by
  obtain ⟨early, toMiddle⟩ := first
  obtain ⟨late, toNext⟩ := second
  refine ⟨early + late, ?_⟩
  rw [← List.replicate_append_replicate, Schedule.run_append, toMiddle]
  exact toNext

theorem reaches_statement (taken : loopStatement true machine = some next) :
    Reaches room machine next := by
  refine ⟨1, ?_⟩
  simp only [List.replicate, Schedule.run, loopStep, taken]

end Reaches

theorem reaches_sent (room : Nat) (mac : List UInt8) (offsets : List Nat) (machine : LoopMachine)
    (here : machine.control = .sendChunk mac offsets) (board : Board)
    (sent : finish (.sendChunk mac offsets) machine.board = some board) :
    Reaches room machine { machine with board := board, control := .readFrame } := by
  induction offsets generalizing machine with
  | nil =>
      cases sent
      apply reaches_statement
      simp only [loopStatement, here]
  | cons offset rest ih =>
      rw [finish, List.foldlM_cons] at sent
      obtain ⟨later, first, others⟩ := Option.bind_eq_some_iff.mp sent
      have one : Reaches room machine
          { machine with board := later, control := .sendChunk mac rest } := by
        apply reaches_statement
        simp only [loopStatement, here, if_true, first, Option.map_some]
      exact one.trans
        (ih { machine with board := later, control := .sendChunk mac rest } rfl others)

theorem reaches_handled (room : Nat) (frame : Frame) (machine : LoopMachine)
    (here : machine.control = .handleFrame frame) (board : Board)
    (handled : (handleEthFrame machine.board frame).board = some board) :
    Reaches room machine { machine with board := board, control := .readFrame } := by
  by_cases request : IsRequest frame
  · have one : Reaches room machine
        { machine with control := .sendChunk (EthHeader.src.bytes frame) chunkOffsets } := by
      apply reaches_statement
      simp only [loopStatement, here, if_pos request]
    rw [handleEthFrame_request machine.board frame request] at handled
    exact one.trans (reaches_sent room _ chunkOffsets _ rfl board handled)
  · apply reaches_statement
    simp only [loopStatement, here, if_neg request, handled, Option.map_some]

theorem reaches_read (room : Nat) (queue : List Frame) (machine : LoopMachine)
    (here : machine.control = .readFrame) (waiting : machine.fifo = queue) (board : Board)
    (delivered : deliver queue machine.board = some board) :
    Reaches room machine { machine with board := board, fifo := [], control := .wait } := by
  induction queue generalizing machine with
  | nil =>
      cases delivered
      apply reaches_statement
      simp only [loopStatement, here, waiting]
  | cons frame rest ih =>
      obtain ⟨later, first, others⟩ := Option.bind_eq_some_iff.mp delivered
      have one : Reaches room machine
          { machine with fifo := rest, control := .handleFrame frame } := by
        apply reaches_statement
        simp only [loopStatement, here, waiting]
      have two := reaches_handled room frame
        { machine with fifo := rest, control := .handleFrame frame } rfl later first
      exact (one.trans two).trans (ih { machine with
        board := later, fifo := rest, control := .readFrame } rfl rfl others)

/-- The frame in hand and the queue are handled up to the next wait. -/
theorem reaches_wait (room : Nat) (machine : LoopMachine) (reading : machine.control ≠ .wait)
    (cleared : machine.control ≠ .clearEvent) (board : Board)
    (rest : (finish machine.control machine.board).bind (deliver machine.fifo) = some board) :
    Reaches room machine { machine with board := board, fifo := [], control := .wait } := by
  obtain ⟨later, first, others⟩ := Option.bind_eq_some_iff.mp rest
  cases here : machine.control with
  | wait => exact absurd here reading
  | clearEvent => exact absurd here cleared
  | readFrame =>
      rw [here] at first
      cases first
      exact reaches_read room machine.fifo machine here rfl board others
  | handleFrame frame =>
      rw [here] at first
      exact (reaches_handled room frame machine here later first).trans
        (reaches_read room machine.fifo
          { machine with board := later, control := .readFrame } rfl rfl board others)
  | sendChunk mac offsets =>
      rw [here] at first
      exact (reaches_sent room mac offsets machine here later first).trans
        (reaches_read room machine.fifo
          { machine with board := later, control := .readFrame } rfl rfl board others)

theorem reaches_quiet (room : Nat) (machine : LoopMachine) (board : Board)
    (cleared : machine.control = .clearEvent)
    (rest : deliver machine.fifo machine.board = some board) :
    Reaches room machine (initialLoop board) := by
  have one : Reaches room machine { machine with event := false, control := .readFrame } := by
    apply reaches_statement
    simp only [loopStatement, cleared]
  exact one.trans (reaches_read room machine.fifo
    { machine with event := false, control := .readFrame } rfl rfl board rest)

theorem reaches_quiet_of_wait (room : Nat) (machine : LoopMachine) (board : Board)
    (waiting : machine.control = .wait) (noticed : machine.event = false → machine.fifo = [])
    (rest : deliver machine.fifo machine.board = some board) :
    Reaches room machine (initialLoop board) := by
  cases flag : machine.event with
  | false =>
      obtain ⟨current, fifo, event, control⟩ := machine
      cases waiting
      cases flag
      cases noticed rfl
      cases rest
      exact reaches_refl room _
  | true =>
      have one : Reaches room machine { machine with control := .clearEvent } := by
        apply reaches_statement
        simp only [loopStatement, waiting, flag, if_true]
      exact one.trans (reaches_quiet room { machine with control := .clearEvent } board rfl rest)

/-- The proxy takes no frame that is shorter than its header or longer than a buffer. -/
theorem arrivedFrames_bounds (room : Nat) (labels : List LoopLabel) (machine next : LoopMachine)
    (done : Schedule.run (loopStep room) labels machine = some next) :
    ∀ frame ∈ arrivedFrames labels,
      EthHeader.size ≤ frame.length ∧ frame.length ≤ boardEthBuffer := by
  refine Schedule.run_history (loopStep room) LoopLabel.frames (fun _ _ => True)
    (fun past _ => ∀ frame ∈ past, EthHeader.size ≤ frame.length ∧
      frame.length ≤ boardEthBuffer) ?_ labels [] machine next
    (fun _ member => absurd member List.not_mem_nil) (Schedule.along_true _ labels _) done
  intro past before label after bounded _ taken frame member
  rcases List.mem_append.mp member with old | new
  · exact bounded frame old
  · cases label with
    | main written => exact absurd new List.not_mem_nil
    | arrival taken' =>
        obtain ⟨fits, _⟩ := Option.ite_none_right_eq_some.mp taken
        rw [LoopLabel.frames, List.mem_singleton] at new
        exact new ▸ ⟨fits.1, fits.2.1⟩

theorem deliver_of_straight (frames : List Frame)
    (bounds : ∀ frame ∈ frames, EthHeader.size ≤ frame.length ∧ frame.length ≤ boardEthBuffer)
    (straight : ∀ frame ∈ frames, ¬ WrapsPastGuards frame) (board : Board) :
    ∃ final, deliver frames board = some final := by
  induction frames generalizing board with
  | nil => exact ⟨board, rfl⟩
  | cons frame rest ih =>
      obtain ⟨header, upper⟩ := bounds frame List.mem_cons_self
      have safe := memory_safe_of_straight board frame header (lt_of_le_of_lt upper (by decide))
        (straight frame List.mem_cons_self)
      obtain ⟨next, handled, _⟩ := safe.other_bytes_kept
      rw [deliver, handled, Option.bind_some]
      exact ih (fun other member => bounds other (List.mem_cons_of_mem frame member))
        (fun other member => straight other (List.mem_cons_of_mem frame member)) next

/-- From whatever state a run has reached, with no further frame and an interface that takes
what it is given, the loop comes to wait with every frame handled, unless the sum of a frame
has wrapped past the guards. -/
theorem loop_settles (room : Nat) (start : Board) (labels : List LoopLabel) (machine : LoopMachine)
    (done : Schedule.run (loopStep room) labels (initialLoop start) = some machine)
    (straight : ∀ frame ∈ arrivedFrames labels, ¬ WrapsPastGuards frame) :
    ∃ board, deliver (arrivedFrames labels) start = some board ∧
      Reaches room machine (initialLoop board) := by
  obtain ⟨board, defined⟩ := deliver_of_straight (arrivedFrames labels)
    (arrivedFrames_bounds room labels _ machine done) straight start
  refine ⟨board, defined, ?_⟩
  have serving := Schedule.run_history (loopStep room) LoopLabel.frames (fun _ _ => True)
    (Serving start) (fun _ _ label _ serving _ taken => serving.step room label taken) labels []
    (initialLoop start) machine ⟨⟨[], rfl, rfl⟩, fun _ _ => rfl⟩
    (Schedule.along_true _ labels _) done
  obtain ⟨⟨handled, split, state⟩, noticed⟩ := serving
  rw [List.nil_append] at split
  have rest : (finish machine.control machine.board).bind (deliver machine.fifo) = some board := by
    rw [← state, ← deliver_append, ← split]
    exact defined
  by_cases waiting : machine.control = .wait
  · rw [waiting] at rest
    exact reaches_quiet_of_wait room machine board waiting (noticed waiting) rest
  · by_cases cleared : machine.control = .clearEvent
    · rw [cleared] at rest
      exact reaches_quiet room machine board cleared rest
    · exact (reaches_wait room machine waiting cleared board rest).trans
        (reaches_quiet_of_wait room { machine with board := board, fifo := [], control := .wait }
          board rfl (fun _ => rfl) rfl)

/-- In the middle of the replies, with the first one refused. -/
theorem loop_settles_served :
    ∃ machine board,
      Schedule.run (loopStep 4) (servedRun.take 15) (initialLoop emptyBoard) = some machine ∧
      machine.board.sent.length = 2 ∧
      deliver (arrivedFrames (servedRun.take 15)) emptyBoard = some board ∧
      Reaches 4 machine (initialLoop board) := by
  have ends : (Schedule.run (loopStep 4) (servedRun.take 15) (initialLoop emptyBoard)).map
      (fun machine => machine.board.sent.length) = some 2 := rfl
  obtain ⟨machine, done, count⟩ := Option.map_eq_some_iff.mp ends
  obtain ⟨board, delivered, reaches⟩ := loop_settles 4 emptyBoard (servedRun.take 15) machine
    done (by decide)
  exact ⟨machine, board, done, count, delivered, reaches⟩

end HalmExamples.EthRaw
