import HalmExamples.Foundation.Coverage
import HalmExamples.UsbUac.RateChange

/-!
# Capacities and rows of the arenas

`changeRate` gives each request one millisecond of the rate as its capacity and a row of its
arena as its buffer.  The rows have room for 48 frames, whatever rates are advertised.
-/

set_option autoImplicit false

namespace HalmExamples.UsbUac

open Foundation

abbrev bufferLength : Nat := 48

/-- The bytes of a frame, and those of a row of an arena. -/
def frameSize : Nat := channelCount * 2

def rowSize : Nat := bufferLength * channelCount * 2

inductive Direction where
  | mic
  | spk
  deriving DecidableEq

/-- The addresses of `micArena` and `spkArena`, which do not overlap. -/
structure ArenaLayout where
  micArena : Nat
  spkArena : Nat
  apart : micArena + bufferCount * rowSize ≤ spkArena ∨ spkArena + bufferCount * rowSize ≤ micArena

/-- The stream that the requests of a direction are for. -/
def StreamPackage.serves (package : StreamPackage) : Direction → Bool
  | .mic => package.rx
  | .spk => package.tx

def ArenaLayout.arena (layout : ArenaLayout) : Direction → Nat
  | .mic => layout.micArena
  | .spk => layout.spkArena

def ArenaLayout.row (layout : ArenaLayout) (direction : Direction) (row : RequestId) : Span :=
  ⟨layout.arena direction + row.val * rowSize, rowSize⟩

def Machine.requestOf (machine : Machine) (direction : Direction) (request : RequestId) :
    StreamRequest :=
  match direction with
  | .mic => machine.micRequests request
  | .spk => machine.spkRequests request

def ArenaLayout.region (layout : ArenaLayout) (direction : Direction) (request : StreamRequest) :
    Span :=
  ⟨layout.arena direction + request.buffer.val * rowSize, request.capacity⟩

/-- The requests of the streams that exist fit into the arenas and take one millisecond. -/
structure Fits (package : StreamPackage) (layout : ArenaLayout) (machine : Machine) (rate : Nat) :
    Prop where
  inRow : ∀ direction request, package.serves direction = true →
    (layout.region direction (machine.requestOf direction request)).Inside
      (layout.row direction request)
  apart : ∀ direction request other target, package.serves direction = true →
    package.serves other = true → (direction, request) ≠ (other, target) →
    (layout.region direction (machine.requestOf direction request)).Apart
      (layout.region other (machine.requestOf other target))
  whole : ∀ direction request, package.serves direction = true →
    frameSize ∣ (machine.requestOf direction request).capacity
  enough : ∀ direction request, package.serves direction = true →
    rate ≤ (machine.requestOf direction request).capacity / frameSize * 1000

/-- The rate of a call of `changeRate` that returns with this step. -/
def changedRate : Control → Label → Option Nat
  | .changeRate .setRate rate _, .main _ => some rate
  | _, _ => none

def CallFits (package : StreamPackage) (layout : ArenaLayout) (machine : Machine) (label : Label) :
    Prop :=
  ∀ rate ∈ changedRate machine.control label,
    Fits package layout (rateEffect package machine rate .setRate) rate

def RateSupported (package : StreamPackage) (machine : Machine) (label : Label) : Prop :=
  ∀ rate ∈ changedRate machine.control label,
    package.rx = true ∨ package.tx = true → rate ≤ bufferLength * 1000

instance (package : StreamPackage) (machine : Machine) (label : Label) :
    Decidable (RateSupported package machine label) :=
  inferInstanceAs (Decidable (∀ rate ∈ changedRate machine.control label,
    package.rx = true ∨ package.tx = true → rate ≤ bufferLength * 1000))

/-! ## Rows -/

theorem rows_apart (layout : ArenaLayout) (direction other : Direction)
    (request target : RequestId) (different : (direction, request) ≠ (other, target)) :
    (layout.row direction request).Apart (layout.row other target) := by
  have first := request.isLt
  have second := target.isLt
  have arenas := layout.apart
  rintro index ⟨⟨low, high⟩, ⟨otherLow, otherHigh⟩⟩
  simp only [ArenaLayout.row, rowSize, bufferLength, channelCount] at *
  by_cases same : direction = other
  · subst same
    have distinct : request.val ≠ target.val := fun is => different (by rw [Fin.ext is])
    omega
  · cases direction <;> cases other <;> simp_all only [ArenaLayout.arena, not_true_eq_false] <;>
      omega

/-- A capacity of some whole frames, 48 of them for the largest rate that is supported. -/
theorem chunkSize_frames (rate : Nat) :
    chunkSize rate = wrap32 (rate + 999) / 1000 * frameSize := by
  rw [chunkSize, frameSize, Nat.mul_assoc]

/-- The milliseconds are rounded up, without a wrap. -/
theorem chunkSize_supported (rate : Nat) (supported : rate ≤ bufferLength * 1000) :
    chunkSize rate = (rate + 999) / 1000 * frameSize := by
  simp only [bufferLength] at supported
  have plain : wrap32 (rate + 999) = rate + 999 := Nat.mod_eq_of_lt (by omega)
  rw [chunkSize_frames, plain]

theorem chunkSize_le (rate : Nat) (supported : rate ≤ bufferLength * 1000) :
    chunkSize rate ≤ rowSize := by
  rw [chunkSize_supported rate supported, rowSize, Nat.mul_assoc]
  simp only [bufferLength] at supported ⊢
  exact Nat.mul_le_mul_right frameSize (by omega)

theorem le_frames (rate : Nat) (supported : rate ≤ bufferLength * 1000) :
    rate ≤ chunkSize rate / frameSize * 1000 := by
  rw [chunkSize_supported rate supported, Nat.mul_div_cancel _ (by decide)]
  clear supported
  omega

/-! ## Requests that are set up -/

def SetUp (package : StreamPackage) (machine : Machine) (rate : Nat) : Prop :=
  ∀ direction request, package.serves direction = true →
    (machine.requestOf direction request).capacity = chunkSize rate ∧
      (machine.requestOf direction request).buffer = request

theorem fits_iff (package : StreamPackage) (layout : ArenaLayout) (machine : Machine) (rate : Nat)
    (setUp : SetUp package machine rate) :
    Fits package layout machine rate ↔
      (package.rx = true ∨ package.tx = true → rate ≤ bufferLength * 1000) := by
  constructor
  · intro fits some
    have served : ∃ direction, package.serves direction = true := by
      rcases some with rx | tx
      · exact ⟨.mic, rx⟩
      · exact ⟨.spk, tx⟩
    obtain ⟨direction, served⟩ := served
    have inRow := fits.inRow direction ⟨0, by decide⟩ served
    have enough := fits.enough direction ⟨0, by decide⟩ served
    have place := (setUp direction ⟨0, by decide⟩ served).2
    rw [ArenaLayout.region, ArenaLayout.row, place, Span.inside_iff_of_start] at inRow
    have frames := Nat.div_le_div_right (c := frameSize) inRow
    have row : rowSize / frameSize = bufferLength := by decide
    rw [row] at frames
    exact Nat.le_trans enough (Nat.mul_le_mul_right 1000 frames)
  · intro supported
    have allowed (direction : Direction) (served : package.serves direction = true) :
        rate ≤ bufferLength * 1000 := by
      refine supported ?_
      cases direction with
      | mic => exact Or.inl served
      | spk => exact Or.inr served
    have inRow (direction : Direction) (request : RequestId)
        (served : package.serves direction = true) :
        (layout.region direction (machine.requestOf direction request)).Inside
          (layout.row direction request) := by
      obtain ⟨capacity, place⟩ := setUp direction request served
      rw [ArenaLayout.region, ArenaLayout.row, place, Span.inside_iff_of_start, capacity]
      exact chunkSize_le rate (allowed direction served)
    refine ⟨inRow, ?_, ?_, ?_⟩
    · intro direction request other target served also different
      exact (rows_apart layout direction other request target different).mono
        (inRow direction request served) (inRow other target also)
    · intro direction request served
      rw [(setUp direction request served).1, chunkSize_frames]
      exact Nat.dvd_mul_left _ _
    · intro direction request served
      rw [(setUp direction request served).1]
      exact le_frames rate (allowed direction served)

/-! ## What leaves capacities and buffers alone -/

/-- The chunk, and the requests but for their lengths. -/
def Machine.areas (machine : Machine) : Nat × (Direction → RequestId → Nat × RequestId) :=
  (machine.chunk, fun direction request =>
    ((machine.requestOf direction request).capacity, (machine.requestOf direction request).buffer))

theorem update_length (requests : RequestId → StreamRequest) (changed request : RequestId)
    (length : Nat) :
    let after := Function.update requests changed { requests changed with length := length }
    ((after request).capacity, (after request).buffer) =
      ((requests request).capacity, (requests request).buffer) := by
  by_cases is : request = changed
  · subst is
    simp
  · simp [Function.update_of_ne is]

theorem setMicLength_areas (machine : Machine) (request : RequestId) (length : Nat) :
    (machine.setMicLength request length).areas = machine.areas := by
  refine Prod.ext rfl (funext fun direction => funext fun other => ?_)
  cases direction with
  | mic => exact update_length machine.micRequests request other length
  | spk => rfl

theorem dropOutdated_areas (queue : List RequestId) (machine : Machine) :
    (dropOutdated queue machine).areas = machine.areas := by
  induction queue generalizing machine with
  | nil => rfl
  | cons outdated rest ih =>
      rw [dropOutdated]
      split
      · rw [ih]
        exact setMicLength_areas machine outdated 0
      · rfl

theorem onDataReceived_areas (machine : Machine) (request : RequestId)
    (status : RequestStatus) : (onDataReceived machine request status).areas = machine.areas := by
  rw [onDataReceived]
  split
  · exact dropOutdated_areas machine.micQueue machine
  · exact setMicLength_areas machine request 0

theorem streamClearRx_areas (pending : List RequestId) (machine : Machine) :
    (streamClearRx pending machine).areas = machine.areas := by
  induction pending generalizing machine with
  | nil => rfl
  | cons request rest ih =>
      rw [streamClearRx, ih, onDataReceived_areas]
      rfl

theorem streamClearTx_areas (pending : List RequestId) (machine : Machine) :
    (streamClearTx pending machine).areas = machine.areas := by
  obtain ⟨spkQueue, playing, changed⟩ := streamClearTx_changes pending machine
  rw [changed]
  rfl

/-! ## The calls -/

/-- The requests that a statement of `changeRate` leaves to be set up. -/
def leftFor : Direction → RateStatement → List RequestId
  | _, .setChunk | _, .clearMicQueue | _, .clearRx | _, .clearTx | _, .clearSpkQueue =>
      List.finRange bufferCount
  | _, .setSpkRequest request rest => request :: rest
  | .mic, .pushSpkRequest request rest | .mic, .setMicRequest request rest => request :: rest
  | .spk, .pushSpkRequest _ rest | .spk, .setMicRequest _ rest => rest
  | _, .enqueueMicRequest _ rest => rest
  | _, .setRate => []

/-- How far a call has come. -/
structure Progressed (package : StreamPackage) (machine : Machine) (statement : RateStatement)
    (rate : Nat) : Prop where
  chunk : statement ≠ .setChunk → machine.areas.1 = chunkSize rate
  area : ∀ direction request, package.serves direction = true →
    request ∉ leftFor direction statement →
    machine.areas.2 direction request = (chunkSize rate, request)

def Progressing (package : StreamPackage) (machine : Machine) : Prop :=
  ∀ statement rate caller, machine.control = .changeRate statement rate caller →
    Progressed package machine statement rate

theorem Progressing.same {package : StreamPackage} {machine next : Machine}
    (progressing : Progressing package machine) (areas : next.areas = machine.areas)
    (control : next.control = machine.control) : Progressing package next := by
  intro statement rate caller here
  obtain ⟨chunk, area⟩ := progressing statement rate caller (control ▸ here)
  exact ⟨areas ▸ chunk, areas ▸ area⟩

theorem setUp_of_progressed {package : StreamPackage} {machine : Machine} {rate : Nat}
    (progressed : Progressed package machine .setRate rate) : SetUp package machine rate :=
  fun direction request served =>
    Prod.mk.inj (progressed.area direction request served List.not_mem_nil)

theorem set_or_kept (requests : RequestId → StreamRequest) (chunk : Nat)
    (request other : RequestId) (rest : List RequestId) (done : other ∉ rest) :
    let after := Function.update requests request
      { capacity := chunk, length := 0, buffer := request }
    ((after other).capacity, (after other).buffer) = (chunk, other) ∨
      other ∉ request :: rest ∧ ((after other).capacity, (after other).buffer) =
        ((requests other).capacity, (requests other).buffer) := by
  by_cases is : other = request
  · subst is
    exact Or.inl (by simp)
  · exact Or.inr ⟨List.not_mem_cons_of_ne_of_not_mem is done, by simp [Function.update_of_ne is]⟩

theorem leftFor_nextRequest (direction : Direction) (rest : List RequestId) :
    leftFor direction (nextRequest rest) = rest := by
  cases rest <;> rfl

section NextStatement
variable {package : StreamPackage} {machine after : Machine} {statement next : RateStatement}
  {rate : Nat}

/-- Each request that is not left is one that was not left before, or the one set up now. -/
theorem Progressed.step (progressed : Progressed package machine statement rate)
    (started : statement ≠ .setChunk) (chunk : after.areas.1 = machine.areas.1)
    (area : ∀ direction request, package.serves direction = true →
      request ∉ leftFor direction next →
      after.areas.2 direction request = (machine.areas.1, request) ∨
        request ∉ leftFor direction statement ∧
          after.areas.2 direction request = machine.areas.2 direction request) :
    Progressed package after next rate := by
  have current := progressed.chunk started
  refine ⟨fun _ => chunk.trans current, fun direction request served done => ?_⟩
  rcases area direction request served done with set | ⟨before, kept⟩
  · rw [set, current]
  · rw [kept]
    exact progressed.area direction request served before

theorem Progressed.pass (progressed : Progressed package machine statement rate)
    (started : statement ≠ .setChunk) (areas : after.areas = machine.areas)
    (left : ∀ direction, leftFor direction statement = leftFor direction next) :
    Progressed package after next rate :=
  progressed.step started (congrArg Prod.fst areas) fun direction request _ done =>
    Or.inr ⟨left direction ▸ done, by rw [areas]⟩

theorem Progressed.progressing (progressed : Progressed package after next rate) (caller : Caller)
    (here : after.control = .changeRate next rate caller) : Progressing package after := by
  intro statement other target control
  cases here.symm.trans control
  exact progressed

end NextStatement

theorem progressed_start (package : StreamPackage) (machine : Machine) (rate : Nat) :
    Progressed package machine .setChunk rate :=
  ⟨fun started => absurd rfl started,
    fun _ request _ done => absurd (List.mem_finRange request) done⟩

theorem progressing_changeRate (package : StreamPackage) (machine : Machine)
    (statement : RateStatement) (rate : Nat) (caller : Caller)
    (progressed : Progressed package machine statement rate) :
    Progressing package
      { rateEffect package machine rate statement with
        control := rateNext rate caller statement } := by
  cases statement with
  | setChunk =>
      refine Progressed.progressing ⟨fun _ => rfl, fun direction request _ done => ?_⟩ caller rfl
      exact absurd (List.mem_finRange request) done
  | clearMicQueue | pushSpkRequest request rest =>
      refine (progressed.pass (by simp) ?_ ?_).progressing caller rfl
      · simp only [rateEffect]
        split <;> rfl
      · intro direction
        cases direction <;> rfl
  | clearRx =>
      refine (progressed.pass (by simp) ?_ fun direction => ?_).progressing caller rfl
      · simp only [rateEffect]
        split
        · exact streamClearRx_areas machine.rx machine
        · rfl
      · cases direction <;> rfl
  | clearTx =>
      refine (progressed.pass (by simp) ?_ fun direction => ?_).progressing caller rfl
      · simp only [rateEffect]
        split
        · exact streamClearTx_areas machine.tx machine
        · rfl
      · cases direction <;> rfl
  | clearSpkQueue | enqueueMicRequest request rest =>
      refine (progressed.pass (by simp) ?_ fun direction => ?_).progressing caller rfl
      · simp only [rateEffect]
        split <;> rfl
      · rw [leftFor_nextRequest]
        cases direction <;> rfl
  | setSpkRequest request rest =>
      refine (progressed.step (by simp) ?_ ?_).progressing caller rfl
      · simp only [rateEffect]
        split <;> rfl
      · intro direction other served done
        cases direction with
        | mic =>
            refine Or.inr ⟨done, ?_⟩
            simp only [rateEffect]
            split <;> rfl
        | spk =>
            have both : package.tx = true := served
            simp only [rateEffect, both, if_true]
            exact set_or_kept machine.spkRequests machine.chunk request other rest done
  | setMicRequest request rest =>
      refine (progressed.step (by simp) ?_ ?_).progressing caller rfl
      · simp only [rateEffect]
        split <;> rfl
      · intro direction other served done
        cases direction with
        | mic =>
            have both : package.rx = true := served
            simp only [rateEffect, both, if_true]
            exact set_or_kept machine.micRequests machine.chunk request other rest done
        | spk =>
            refine Or.inr ⟨done, ?_⟩
            simp only [rateEffect]
            split <;> rfl
  | setRate =>
      intro statement other target control
      cases caller <;> cases control

/-! ## Runs -/

theorem mainStep_elsewhere (package : StreamPackage) (count : Nat) (machine next : Machine)
    (idle : ∀ statement rate caller, machine.control ≠ .changeRate statement rate caller)
    (unread : machine.control ≠ .readRate)
    (taken : mainStep package count machine = some next) :
    next.reported = machine.reported ∧
      ∀ statement rate caller, next.control ≠ .changeRate statement rate caller := by
  cases here : machine.control with
  | changeRate statement rate caller => exact absurd here (idle statement rate caller)
  | readRate => exact absurd here unread
  | setCallback | clearUpdated | clearRateChanged rate =>
      simp only [mainStep, here] at taken
      cases taken
      exact ⟨rfl, by simp⟩
  | checkRateChanged =>
      simp only [mainStep, here] at taken
      cases taken
      refine ⟨rfl, fun statement rate caller control => ?_⟩
      dsimp only at control
      split at control <;> cases control
  | _ =>
      obtain ⟨same, resting⟩ :=
        mainStep_idle count (by rw [here]; rfl) (by simp [here]) taken
      refine ⟨same.reported, fun statement rate caller control => ?_⟩
      rw [control] at resting
      cases caller <;> cases resting

theorem mainStep_progressing (package : StreamPackage) (count : Nat) (machine next : Machine)
    (progressing : Progressing package machine)
    (taken : mainStep package count machine = some next) : Progressing package next := by
  cases here : machine.control with
  | changeRate statement rate caller =>
      simp only [mainStep, here] at taken
      cases taken
      exact progressing_changeRate package machine statement rate caller
        (progressing statement rate caller here)
  | readRate =>
      simp only [mainStep, here, Option.map_eq_some_iff] at taken
      obtain ⟨rate, _, rfl⟩ := taken
      exact (progressed_start package _ rate).progressing .loop rfl
  | _ =>
      have elsewhere := mainStep_elsewhere package count machine next
        (by simp [here]) (by simp [here]) taken
      exact fun statement rate caller control => absurd control (elsewhere.2 statement rate caller)

theorem step_progressing (package : StreamPackage) (machine : Machine) (label : Label)
    (next : Machine) (progressing : Progressing package machine)
    (taken : step package machine label = some next) : Progressing package next := by
  cases label with
  | main count => exact mainStep_progressing package count machine next progressing taken
  | rxComplete status length =>
      obtain ⟨request, rest, _, _, rfl⟩ := step_rxComplete taken
      refine progressing.same ?_ ?_
      · rw [onDataReceived_areas, setMicLength_areas]
        rfl
      · obtain ⟨rx, micQueue, micRequests, changed⟩ := onDataReceived_changes
          ({ machine with rx := rest }.setMicLength request length) request status
        rw [changed]
        rfl
  | txComplete =>
      obtain ⟨request, rest, _, rfl⟩ := step_txComplete taken
      obtain ⟨spkQueue, playing, changed⟩ := onDataSent_changes { machine with tx := rest } request
      rw [changed]
      exact progressing.same rfl rfl
  | uac event =>
      obtain ⟨_, rfl⟩ := step_uac taken
      obtain ⟨frame, events, suspended, updated, reported, changed, _⟩ :=
        onUacEvent_changes package event machine
      rw [changed]
      exact progressing.same rfl rfl

theorem progressing_initial (package : StreamPackage) (first : Nat) :
    Progressing package (initialMachine first) :=
  (progressed_start package _ first).progressing .start rfl

theorem callFits_iff (package : StreamPackage) (layout : ArenaLayout) (machine : Machine)
    (label : Label) (progressing : Progressing package machine) :
    CallFits package layout machine label ↔ RateSupported package machine label := by
  refine forall_congr' fun rate => imp_congr_right fun changed => ?_
  have setUp : SetUp package machine rate := by
    unfold changedRate at changed
    split at changed
    · cases changed
      exact setUp_of_progressed (progressing _ _ _ ‹_›)
    · simp at changed
  exact fits_iff package layout (rateEffect package machine rate .setRate) rate setUp

/-- In every run each call of `changeRate` leaves requests that fit exactly if its rate is at most
48000, the rate for which the rows are long enough. -/
theorem calls_fit_iff (package : StreamPackage) (layout : ArenaLayout) (first : Nat)
    (labels : List Label) :
    Schedule.Along (step package) (CallFits package layout) labels (initialMachine first) ↔
      Schedule.Along (step package) (RateSupported package) labels (initialMachine first) := by
  exact Schedule.along_congr (step package) (Progressing package) (fun _ => True)
    (CallFits package layout) (RateSupported package)
    (fun machine label next progressing _ =>
      step_progressing package machine label next progressing)
    (fun machine label progressing _ => callFits_iff package layout machine label progressing)
    labels (fun _ _ => trivial) (initialMachine first) (progressing_initial package first)

/-- With 96000 as the first rate each request runs over its row into the next one. -/
theorem rows_overrun :
    ∃ final, Schedule.run (step bothStreams) startLabels (initialMachine 96000) = some final ∧
      ¬ Fits bothStreams ⟨0, 960, Or.inl (by decide)⟩ final 96000 := by
  have view : (Schedule.run (step bothStreams) startLabels (initialMachine 96000)).map
      (fun final => ((final.requestOf .spk ⟨0, by decide⟩).capacity,
        (final.requestOf .spk ⟨0, by decide⟩).buffer)) = some (384, ⟨0, by decide⟩) := by
    decide +kernel
  obtain ⟨final, done, area⟩ := Option.map_eq_some_iff.mp view
  obtain ⟨capacity, place⟩ := Prod.mk.inj area
  refine ⟨final, done, fun fits => ?_⟩
  have inRow := fits.inRow .spk ⟨0, by decide⟩ rfl
  rw [ArenaLayout.region, ArenaLayout.row, place, Span.inside_iff_of_start, capacity] at inRow
  exact absurd inRow (by decide)

/-! ## Lists of rates -/

/-- The UAC reports advertised rates only. -/
def ReportsAdvertised (advertised : List Nat) : Label → Prop
  | .uac event => ∀ rate ∈ event.rate, rate ∈ advertised
  | _ => True

/-- The rates that a machine knows are advertised. -/
structure Known (advertised : List Nat) (machine : Machine) : Prop where
  reported : ∀ rate ∈ machine.reported, rate ∈ advertised
  changed : ∀ statement rate caller, machine.control = .changeRate statement rate caller →
    rate ∈ advertised

section Known
variable {advertised : List Nat} {machine next : Machine}

theorem Known.same (known : Known advertised machine) (reported : next.reported = machine.reported)
    (control : next.control = machine.control) : Known advertised next :=
  ⟨reported ▸ known.reported, control ▸ known.changed⟩

theorem onUacEvent_reported (package : StreamPackage) (event : UacEvent) (machine : Machine) :
    (onUacEvent package event machine).reported = event.rate.or machine.reported := by
  simp only [onUacEvent]
  obtain ⟨dataReceived, woken, received, _⟩ :=
    uacDataReceived_changes package event.available machine
  obtain ⟨suspended, updated, changed, _⟩ := uacSuspended_changes event.suspended
    (uacReported event.rate (if event.startOfFrame then uacStartOfFrame event.highSpeed
      (uacDataReceived package event.available machine)
      else uacDataReceived package event.available machine))
  rw [changed, received]
  cases event.startOfFrame <;> cases event.rate <;> rfl

theorem rateEffect_reported (package : StreamPackage) (machine : Machine) (rate : Nat)
    (statement : RateStatement) :
    (rateEffect package machine rate statement).reported = machine.reported := by
  by_cases sets : statement = .setRate
  · subst sets
    rfl
  · exact (rateEffect_sameRates package machine rate statement sets).reported

theorem rateNext_rate {rate other : Nat} {caller target : Caller}
    {statement following : RateStatement}
    (control : rateNext rate caller statement = .changeRate following other target) :
    other = rate := by
  cases statement with
  | setRate => cases caller <;> cases control
  | _ => exact (Control.changeRate.inj control).2.1.symm

theorem mainStep_known (package : StreamPackage) (count : Nat) (known : Known advertised machine)
    (taken : mainStep package count machine = some next) : Known advertised next := by
  cases here : machine.control with
  | changeRate statement rate caller =>
      simp only [mainStep, here] at taken
      cases taken
      refine ⟨?_, fun following other target control => ?_⟩
      · rw [rateEffect_reported]
        exact known.reported
      · rw [rateNext_rate control]
        exact known.changed statement rate caller here
  | readRate =>
      simp only [mainStep, here, Option.map_eq_some_iff] at taken
      obtain ⟨rate, read, rfl⟩ := taken
      refine ⟨known.reported, fun statement other caller control => ?_⟩
      cases control
      exact known.reported rate read
  | _ =>
      have elsewhere := mainStep_elsewhere package count machine next
        (by simp [here]) (by simp [here]) taken
      refine ⟨elsewhere.1 ▸ known.reported, fun statement rate caller control => ?_⟩
      exact absurd control (elsewhere.2 statement rate caller)

theorem step_known (package : StreamPackage) (label : Label) (known : Known advertised machine)
    (reports : ReportsAdvertised advertised label)
    (taken : step package machine label = some next) : Known advertised next := by
  cases label with
  | main count => exact mainStep_known package count known taken
  | rxComplete status length =>
      obtain ⟨request, rest, _, _, rfl⟩ := step_rxComplete taken
      obtain ⟨rx, micQueue, micRequests, changed⟩ := onDataReceived_changes
        ({ machine with rx := rest }.setMicLength request length) request status
      rw [changed]
      exact known.same rfl rfl
  | txComplete =>
      obtain ⟨request, rest, _, rfl⟩ := step_txComplete taken
      obtain ⟨spkQueue, playing, changed⟩ := onDataSent_changes { machine with tx := rest } request
      rw [changed]
      exact known.same rfl rfl
  | uac event =>
      obtain ⟨_, rfl⟩ := step_uac taken
      obtain ⟨frame, events, suspended, updated, reported, changed, _⟩ :=
        onUacEvent_changes package event machine
      refine ⟨fun rate reported => ?_, ?_⟩
      · rw [onUacEvent_reported] at reported
        rcases Option.or_eq_some_iff.mp reported with told | ⟨_, earlier⟩
        · exact reports rate told
        · exact known.reported rate earlier
      · rw [changed]
        exact known.changed

end Known

/-- With a list of rates that are at most 48000, such as the default one, each call fits in every
run. -/
theorem advertised_fit (package : StreamPackage) (layout : ArenaLayout) (advertised : List Nat)
    (supported : ∀ rate ∈ advertised, rate ≤ bufferLength * 1000) (first : Nat)
    (isFirst : first ∈ advertised) (labels : List Label)
    (reports : ∀ label ∈ labels, ReportsAdvertised advertised label) :
    Schedule.Along (step package) (CallFits package layout) labels (initialMachine first) := by
  have start : Progressing package (initialMachine first) ∧
      Known advertised (initialMachine first) := by
    refine ⟨progressing_initial package first, by simp [initialMachine],
      fun statement rate caller control => ?_⟩
    cases control
    exact isFirst
  refine (Schedule.along_congr (step package)
    (fun machine => Progressing package machine ∧ Known advertised machine)
    (ReportsAdvertised advertised) (CallFits package layout) (fun _ _ => True)
    (fun machine label next both here taken =>
      ⟨step_progressing package machine label next both.1 taken,
        step_known package label both.2 here taken⟩) ?_ labels reports _ start).mpr
    (Schedule.along_true (step package) labels _)
  intro machine label both _
  refine iff_of_true ((callFits_iff package layout machine label both.1).mpr ?_) trivial
  intro rate changed _
  unfold changedRate at changed
  split at changed
  · cases changed
    exact supported _ (both.2.changed _ _ _ ‹_›)
  · simp at changed

end HalmExamples.UsbUac
