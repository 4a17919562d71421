import HalmExamples.AdcStream.Program
import HalmExamples.Foundation.TextBuffer
import HalmExamples.Foundation.Words

/-!
# The lines of the ADC stream

The texts that `onConversionCompleted` of `adc_dma_stream/main.c` sends to the serial
interface.  An array of `count * 6 + 3` characters takes a line and the terminator of
its last `sprintf`, and nothing more.
-/

set_option autoImplicit false

namespace HalmExamples.AdcStream.Output

open Foundation

inductive Board where
  | lpc17xx
  | lpc43xx
  | lpc82x
  deriving DecidableEq

/-- On one of them the output is under `#ifdef NDEBUG`. -/
def Board.prints (board : Board) (ndebug : Bool) : Bool :=
  match board with
  | .lpc17xx | .lpc43xx => true
  | .lpc82x => ndebug

def terminator : Char := Char.ofNat 0

/-- `"\r\n"` -/
def lineEnd : List Char := ['\r', '\n']

/-- `"%5u "` with its argument. -/
def sampleText (value : UInt16) : List Char :=
  (Nat.toDigits 10 value.toNat).leftpad 5 ' ' ++ [' ']

abbrev textSize (count : Nat) : Nat := count * 6 + 3

structure Progress where
  /-- The cell that `buffer` points to. -/
  buffer : Nat
  /-- The cells that have been read, in this order. -/
  read : List Nat
  /-- The texts that `ifWrite` has been called with. -/
  written : List (List Char)
  deriving DecidableEq

/-- `++buffer`, after the cell has been read. -/
def Progress.advance (progress : Progress) : Progress :=
  { progress with buffer := progress.buffer + 1, read := progress.read ++ [progress.buffer] }

/-- The inner loop for as many samples as are left. -/
def putSamples {size : Nat} (memory : Nat → UInt16) :
    Nat → Progress → TextBuffer Char size → Option (Progress × TextBuffer Char size)
  | 0, progress, iter => some (progress, iter)
  | samples + 1, progress, iter =>
      (iter.putTerminated terminator (sampleText (memory progress.buffer))).bind
        (putSamples memory samples progress.advance)

/-- One round of the outer loop, with what is in `text` before. -/
def putLine (memory : Nat → UInt16) (count : Nat) (text : Region Char (textSize count))
    (progress : Progress) : Option Progress :=
  (putSamples memory count progress (TextBuffer.start text)).bind fun (progress, iter) =>
    (iter.putTerminated terminator lineEnd).map fun iter =>
      { progress with written := progress.written ++ [iter.written] }

def putLines (memory : Nat → UInt16) (count : Nat) (stack : Nat → Region Char (textSize count)) :
    Nat → Progress → Option Progress
  | 0, progress => some progress
  | chunks + 1, progress =>
      (putLine memory count (stack chunks) progress).bind (putLines memory count stack chunks)

structure EventTuple where
  /-- The texts that `ifWrite` has been called with. -/
  serial : List (List Char)
  /-- The requests that have been enqueued. -/
  stream : List StreamRequest
  led : Bool
  deriving DecidableEq

/-- The cells that are read, and the context behind the call; there is no result where a text
does not fit into its array. -/
def onConversionCompleted (board : Board) (ndebug : Bool) (config : Config)
    (memory : Nat → UInt16) (stack : Nat → Region Char (textSize config.pinCount))
    (context : EventTuple) (request : StreamRequest) : Option (List Nat × EventTuple) :=
  let progress : Progress := { buffer := request.buffer, read := [], written := context.serial }
  let done :=
    if board.prints ndebug then
      putLines memory config.pinCount stack (chunks config request)
        { progress with written := progress.written ++ [lineEnd] }
    else some progress
  done.map fun progress =>
    (progress.read,
      { serial := progress.written
        stream := context.stream ++ [{ request with length := 0 }]
        led := !context.led })

/-! ## Reading a line -/

def isBlank (character : Char) : Bool :=
  character = ' ' || character = '\r' || character = '\n'

def number? (word : List Char) : Option Nat :=
  if word.all Char.isDigit then some (Nat.ofDigitChars 10 word 0) else none

def numbers? (line : List Char) : Option (List Nat) := (words isBlank line).mapM number?

def lineText (values : List UInt16) : List Char := values.flatMap sampleText ++ lineEnd

theorem digits_length (value : UInt16) : (Nat.toDigits 10 value.toNat).length ≤ 5 := by
  have limit := value.toNat_lt
  rw [Nat.length_toDigits_le_iff (by decide) (by decide)]
  omega

theorem sampleText_length (value : UInt16) : (sampleText value).length = 6 := by
  have short := digits_length value
  rw [sampleText, List.length_append, List.length_leftpad, List.length_singleton]
  omega

theorem samplesText_length (values : List UInt16) :
    (values.flatMap sampleText).length = 6 * values.length := by
  induction values with
  | nil => rfl
  | cons value rest ih =>
      rw [List.flatMap_cons, List.length_append, ih, sampleText_length, List.length_cons]
      omega

theorem digits_solid (value : UInt16) :
    ∀ character ∈ Nat.toDigits 10 value.toNat, isBlank character = false := by
  intro character member
  have digit := Nat.isDigit_of_mem_toDigits (by decide) (by decide) member
  by_contra blank
  simp only [isBlank, Bool.not_eq_false, Bool.or_eq_true, decide_eq_true_eq] at blank
  rcases blank with (rfl | rfl) | rfl <;> exact absurd digit (by decide)

theorem words_sampleText_append (value : UInt16) (text : List Char) :
    words isBlank (sampleText value ++ text) =
      Nat.toDigits 10 value.toNat :: words isBlank text := by
  rw [sampleText, List.leftpad, List.append_assoc, List.append_assoc,
    words_replicate_append (by decide), List.singleton_append, words_append_cons (by decide),
    words_of_solid Nat.toDigits_ne_nil (digits_solid value)]
  rfl

theorem number?_digits (value : UInt16) :
    number? (Nat.toDigits 10 value.toNat) = some value.toNat := by
  have all : (Nat.toDigits 10 value.toNat).all Char.isDigit = true :=
    List.all_eq_true.mpr fun character member =>
      Nat.isDigit_of_mem_toDigits (by decide) (by decide) member
  rw [number?, if_pos all, Nat.ofDigitChars_ten_toDigits]

theorem numbers?_lineText (values : List UInt16) :
    numbers? (lineText values) = some (values.map UInt16.toNat) := by
  induction values with
  | nil => decide
  | cons value rest ih =>
      rw [numbers?, lineText] at ih ⊢
      rw [List.flatMap_cons, List.append_assoc, words_sampleText_append, List.mapM_cons,
        number?_digits, ih]
      rfl

/-! ## The loops -/

section Loops
variable (memory : Nat → UInt16)

def samplesAt (buffer count : Nat) : List UInt16 := (List.range' buffer count).map memory

theorem samplesAt_length (buffer count : Nat) : (samplesAt memory buffer count).length = count := by
  rw [samplesAt, List.length_map, List.length_range']

theorem samplesAt_append (buffer first second : Nat) :
    samplesAt memory buffer first ++ samplesAt memory (buffer + first) second =
      samplesAt memory buffer (first + second) := by
  rw [samplesAt, samplesAt, samplesAt, ← List.map_append, List.range'_append_1]

def Progress.skip (progress : Progress) (count : Nat) : Progress :=
  { progress with
    buffer := progress.buffer + count
    read := progress.read ++ List.range' progress.buffer count }

theorem advance_skip (progress : Progress) (count : Nat) :
    progress.advance.skip count = progress.skip (count + 1) := by
  simp [Progress.advance, Progress.skip, List.range'_succ, Nat.add_comm, Nat.add_left_comm]

/-- The inner loop leaves room for the end of the line. -/
theorem putSamples_holds {size : Nat} (samples : Nat) (progress : Progress) (text : List Char)
    (iter : TextBuffer Char size) (holds : iter.Holds text)
    (fits : text.length + 6 * samples < size) :
    ∃ next, putSamples memory samples progress iter = some (progress.skip samples, next) ∧
      next.Holds (text ++ (samplesAt memory progress.buffer samples).flatMap sampleText) := by
  induction samples generalizing progress text iter with
  | zero => exact ⟨iter, by simp [putSamples, Progress.skip], by simpa [samplesAt] using holds⟩
  | succ samples ih =>
      have length := sampleText_length (memory progress.buffer)
      obtain ⟨middle, put, holds, _⟩ := TextBuffer.putTerminated_holds terminator text
        (sampleText (memory progress.buffer)) iter holds (by omega)
      obtain ⟨next, rest, holds⟩ := ih progress.advance
        (text ++ sampleText (memory progress.buffer)) middle holds (by
          rw [List.length_append]
          omega)
      refine ⟨next, ?_, ?_⟩
      · rw [putSamples, put, Option.bind_some, rest, advance_skip]
      · rw [samplesAt, List.range'_succ, List.map_cons, List.flatMap_cons, ← List.append_assoc]
        exact holds

/-- A line and its terminator take the whole array. -/
theorem lineText_length (buffer count : Nat) :
    (lineText (samplesAt memory buffer count)).length + 1 = textSize count := by
  rw [lineText, List.length_append, samplesText_length, samplesAt_length]
  simp [lineEnd, textSize]
  omega

/-- A shorter array is overrun, by the end of the line at the latest. -/
theorem putSamples_overruns {size : Nat} (samples : Nat) (progress : Progress) (text : List Char)
    (iter : TextBuffer Char size) (holds : iter.Holds text)
    (short : size < text.length + textSize samples) :
    (putSamples memory samples progress iter).bind
      (fun (_, iter) => iter.putTerminated terminator lineEnd) = none := by
  induction samples generalizing progress text iter with
  | zero =>
      exact TextBuffer.putTerminated_eq_none terminator text lineEnd iter holds (by
        simp [textSize] at short
        simp [lineEnd]
        omega)
  | succ samples ih =>
      have length := sampleText_length (memory progress.buffer)
      rw [putSamples]
      by_cases fits : text.length + (sampleText (memory progress.buffer)).length < size
      · obtain ⟨middle, put, holds, _⟩ :=
          TextBuffer.putTerminated_holds terminator text _ iter holds fits
        rw [put, Option.bind_some]
        refine ih _ _ middle holds ?_
        rw [List.length_append]
        simp only [textSize] at short ⊢
        omega
      · rw [TextBuffer.putTerminated_eq_none terminator text _ iter holds (by omega)]
        rfl

theorem putLine_eq (count : Nat) (text : Region Char (textSize count)) (progress : Progress) :
    putLine memory count text progress =
      some { progress.skip count with
        written := progress.written ++ [lineText (samplesAt memory progress.buffer count)] } := by
  obtain ⟨iter, samples, holds⟩ := putSamples_holds memory count progress []
    (TextBuffer.start text) (TextBuffer.holds_start text) (by simp [textSize]; omega)
  rw [List.nil_append] at holds
  have whole := lineText_length memory progress.buffer count
  rw [lineText, List.length_append] at whole
  obtain ⟨last, put, holds, _⟩ := TextBuffer.putTerminated_holds terminator _ lineEnd iter holds
    (by omega)
  simp only [putLine, samples, Option.bind_some, put, Option.map_some, holds.written_eq]
  rfl

def linesFrom (count : Nat) : Nat → Nat → List (List Char)
  | 0, _ => []
  | chunks + 1, buffer =>
      lineText (samplesAt memory buffer count) :: linesFrom count chunks (buffer + count)

theorem putLines_eq (count : Nat) (stack : Nat → Region Char (textSize count)) (chunks : Nat)
    (progress : Progress) :
    putLines memory count stack chunks progress =
      some { progress.skip (chunks * count) with
        written := progress.written ++ linesFrom memory count chunks progress.buffer } := by
  induction chunks generalizing progress with
  | zero => simp [putLines, Progress.skip, linesFrom]
  | succ chunks ih =>
      rw [putLines, putLine_eq, Option.bind_some, ih, Nat.succ_mul, Nat.add_comm (chunks * count)]
      simp [Progress.skip, linesFrom, List.range'_append_1, Nat.add_assoc]

theorem linesFrom_length (count chunks buffer : Nat) :
    (linesFrom memory count chunks buffer).length = chunks := by
  induction chunks generalizing buffer with
  | zero => rfl
  | succ chunks ih => rw [linesFrom, List.length_cons, ih]

theorem linesFrom_getElem? (count chunks buffer chunk : Nat) (inside : chunk < chunks) :
    (linesFrom memory count chunks buffer)[chunk]? =
      some (lineText (samplesAt memory (buffer + chunk * count) count)) := by
  induction chunks generalizing buffer chunk with
  | zero => omega
  | succ chunks ih =>
      cases chunk with
      | zero => simp [linesFrom]
      | succ chunk =>
          rw [linesFrom, List.getElem?_cons_succ, ih _ _ (by omega), Nat.succ_mul, Nat.add_assoc,
            Nat.add_comm count]

end Loops

/-- The output for `k` samples: which cells have been read and which lines have been written. -/
structure Faithful (memory : Nat → UInt16) (count buffer k : Nat) (read : List Nat)
    (lines : List (List Char)) : Prop where
  read_eq : read = List.range' buffer (k / count * count)
  lines_length : lines.length = k / count
  line : ∀ chunk < k / count, ∃ text, lines[chunk]? = some text ∧
    text.length = 6 * count + 2 ∧ text.length + 1 = textSize count ∧
    numbers? text = some ((samplesAt memory (buffer + chunk * count) count).map UInt16.toNat)

theorem onConversionCompleted_eq (board : Board) (ndebug : Bool)
    (prints : board.prints ndebug = true) (config : Config) (memory : Nat → UInt16)
    (stack : Nat → Region Char (textSize config.pinCount)) (context : EventTuple)
    (request : StreamRequest) :
    onConversionCompleted board ndebug config memory stack context request =
      some (List.range' request.buffer (chunks config request * config.pinCount),
        { serial := context.serial ++ [lineEnd] ++
            linesFrom memory config.pinCount (chunks config request) request.buffer
          stream := context.stream ++ [{ request with length := 0 }]
          led := !context.led }) := by
  simp only [onConversionCompleted, prints, if_true, putLines_eq, Option.map_some, Progress.skip,
    List.nil_append]

/-- The callback never runs over its array; where it prints, it prints all samples of whole
chunks, and where it does not, it reads nothing.  The request is enqueued in either case. -/
theorem output_faithful (board : Board) (ndebug : Bool) (config : Config)
    (memory : Nat → UInt16) (stack : Nat → Region Char (textSize config.pinCount))
    (context : EventTuple) (request : StreamRequest) (k : Nat)
    (even : request.length = 2 * k) :
    ∃ read next,
      onConversionCompleted board ndebug config memory stack context request = some (read, next) ∧
      next.stream = context.stream ++ [{ request with length := 0 }] ∧
      next.led = !context.led ∧
      if board.prints ndebug then
        ∃ lines, next.serial = context.serial ++ [lineEnd] ++ lines ∧
          Faithful memory config.pinCount request.buffer k read lines
      else read = [] ∧ next.serial = context.serial := by
  have count : chunks config request = k / config.pinCount := by
    rw [chunks, even, Nat.shiftRight_eq_div_pow, Nat.pow_one, Nat.mul_div_cancel_left k (by decide)]
  cases prints : board.prints ndebug with
  | false =>
      rw [onConversionCompleted, prints]
      exact ⟨[], _, rfl, rfl, rfl, rfl, rfl⟩
  | true =>
      rw [onConversionCompleted_eq board ndebug prints, count]
      refine ⟨_, _, rfl, rfl, rfl, linesFrom memory config.pinCount _ request.buffer, rfl, rfl,
        ?_, ?_⟩
      · exact linesFrom_length memory _ _ _
      · intro chunk inside
        have whole := lineText_length memory (request.buffer + chunk * config.pinCount)
          config.pinCount
        refine ⟨_, linesFrom_getElem? memory _ _ _ chunk inside, ?_, whole, numbers?_lineText _⟩
        unfold textSize at whole
        omega

/-- Five samples of two pins make two lines. -/
theorem output_faithful_two_pins :
    ∃ read next lines,
      onConversionCompleted .lpc43xx false ⟨10, 2⟩ (fun cell => UInt16.ofNat (13107 * cell))
        (fun _ => Region.filled _ ' ') ⟨[], [], false⟩ ⟨40, 10, 0⟩ = some (read, next) ∧
      next.serial = [lineEnd] ++ lines ∧
      Faithful (fun cell => UInt16.ofNat (13107 * cell)) 2 0 5 read lines :=
  have ⟨read, next, done, _, _, lines, serial, faithful⟩ :=
    output_faithful .lpc43xx false ⟨10, 2⟩ (fun cell => UInt16.ofNat (13107 * cell))
      (fun _ => Region.filled _ ' ') ⟨[], [], false⟩ ⟨40, 10, 0⟩ 5 rfl
  ⟨read, next, lines, done, serial, faithful⟩

/-- Two samples of one pin in a debug build for the board that leaves the output out. -/
theorem debug_build_silent :
    onConversionCompleted .lpc82x false ⟨2, 1⟩ (fun _ => 7) (fun _ => Region.filled _ ' ')
      ⟨[], [], false⟩ ⟨4, 4, 0⟩ = some ([], ⟨[], [⟨4, 0, 0⟩], true⟩) := by
  decide

/-! ## The callback of the machine

The machine of the stream takes the callback one step at a time.  Without a conversion in between
it formats the samples whose texts are written here. -/

section Machine
variable (config : Config)

theorem run_samples (request : RequestId) (chunk left index : Nat) (formatted : List UInt16)
    (machine : Machine) (counted : index + left = config.pinCount)
    (here : machine.callback = .nextSample request chunk index formatted) :
    Schedule.run (step config) (List.replicate (left + 1) .callback) machine =
      some { machine with
        callback := .nextChunk request (chunk + 1) (formatted ++
          samplesAt machine.memory ((machine.requests request).buffer + formatted.length)
            left) } := by
  induction left generalizing index formatted machine with
  | zero =>
      have done : ¬ index < config.pinCount := by omega
      simp [Schedule.run, step, AdcStream.onConversionCompleted, here, done, samplesAt]
  | succ left ih =>
      have inside : index < config.pinCount := by omega
      rw [List.replicate_succ, Schedule.run, step, AdcStream.onConversionCompleted, here]
      simp only [if_pos inside]
      rw [ih (index + 1) _ _ (by omega) rfl]
      simp [samplesAt, List.range'_succ, Nat.add_assoc]

theorem run_chunks (request : RequestId) (left chunk : Nat) (formatted : List UInt16)
    (machine : Machine) (counted : chunk + left = chunks config (machine.requests request))
    (here : machine.callback = .nextChunk request chunk formatted) :
    Schedule.run (step config) (List.replicate (left * (config.pinCount + 2) + 1) .callback)
        machine =
      some (machine.finish request (formatted ++
        samplesAt machine.memory ((machine.requests request).buffer + formatted.length)
          (left * config.pinCount))) := by
  induction left generalizing chunk formatted machine with
  | zero =>
      have done : ¬ chunk < chunks config (machine.requests request) := by omega
      simp [Schedule.run, step, AdcStream.onConversionCompleted, here, done, samplesAt]
  | succ left ih =>
      have inside : chunk < chunks config (machine.requests request) := by omega
      have split : (left + 1) * (config.pinCount + 2) + 1 =
          1 + (config.pinCount + 1) + (left * (config.pinCount + 2) + 1) := by
        rw [Nat.succ_mul]
        omega
      have later : chunk + 1 + left = chunks config (machine.requests request) := by omega
      have starts : Schedule.run (step config) (List.replicate 1 .callback) machine =
          some { machine with callback := .nextSample request chunk 0 formatted } := by
        simp [Schedule.run, step, AdcStream.onConversionCompleted, here, inside]
      have samples := run_samples config request chunk config.pinCount 0 formatted
        { machine with callback := .nextSample request chunk 0 formatted } (Nat.zero_add _) rfl
      let block := samplesAt machine.memory
        ((machine.requests request).buffer + formatted.length) config.pinCount
      have others := ih (chunk + 1) (formatted ++ block)
        { machine with callback := .nextChunk request (chunk + 1) (formatted ++ block) } later rfl
      rw [split, List.replicate_add, List.replicate_add, Schedule.run_append, Schedule.run_append,
        starts, Option.bind_some, samples, Option.bind_some]
      refine others.trans ?_
      rw [List.append_assoc, List.length_append, samplesAt_length, ← Nat.add_assoc,
        samplesAt_append, Nat.succ_mul, Nat.add_comm (left * config.pinCount)]
      rfl

/-- The call as a whole: the machine formats the samples of the cells that are read here. -/
theorem callback_agrees (board : Board) (ndebug : Bool) (prints : board.prints ndebug = true)
    (stack : Nat → Region Char (textSize config.pinCount)) (context : EventTuple)
    (request : RequestId) (rest : List RequestId) (machine : Machine)
    (idle : machine.callback = .idle) (completed : machine.completed = request :: rest) :
    ∃ read next,
      onConversionCompleted board ndebug config machine.memory stack context
        (machine.requests request) = some (read, next) ∧
      Schedule.run (step config) (List.replicate
          (chunks config (machine.requests request) * (config.pinCount + 2) + 2) .callback)
          machine =
        some ({ machine with completed := rest }.finish request (read.map machine.memory)) := by
  refine ⟨_, _, onConversionCompleted_eq board ndebug prints config machine.memory stack context
    (machine.requests request), ?_⟩
  rw [List.replicate_succ, Schedule.run, step, AdcStream.onConversionCompleted, idle]
  simp only [completed]
  exact run_chunks config request (chunks config (machine.requests request)) 0 []
    { machine with completed := rest, callback := .nextChunk request 0 [] } (Nat.zero_add _) rfl

end Machine

end HalmExamples.AdcStream.Output
