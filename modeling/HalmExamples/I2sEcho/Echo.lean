import HalmExamples.I2sEcho.Program

/-!
# The echo forwards every captured buffer

A request that `rx` has completed is on its way through the queue and the hand of
`main` to `tx`, in the order of the completions.  The event flag is cleared before the
queue is drained, so a completion that comes later sets it again; `first` lets the loop
go back to sleep with one buffer in the queue.
-/

set_option autoImplicit false

namespace HalmExamples.I2sEcho

open Foundation

def held : Control → List RequestId
  | .checkCount i => (List.finRange bufferCount).drop i
  | .setRequest request => (List.finRange bufferCount).drop request
  | .enqueueRequest request => (List.finRange bufferCount).drop request
  | .sendRequest request => [request]
  | _ => []

/-- The request between the queue and `tx`. -/
def forwarded : Control → List RequestId
  | .sendRequest request => [request]
  | _ => []

/-- From here the loop reaches its wait without looking at the queue. -/
def asleep : Control → Bool
  | .checkCount _ | .setRequest _ | .enqueueRequest _ | .wait => true
  | _ => false

/-- Each request is in one place. -/
def Accounted (machine : Machine) : Prop :=
  ∀ request, machine.rx.count request + machine.queue.count request +
    (held machine.control).count request + machine.tx.count request = 1

def Receiving (value : StreamRequest) : Prop :=
  value.callback = some .onDataReceived ∧ value.length = 0

def Sending (value : StreamRequest) : Prop := value.callback = some .onDataSent

structure EchoInv (machine : Machine) : Prop where
  accounted : Accounted machine
  receiving : ∀ request ∈ machine.rx, Receiving (machine.requests request)
  ready : ∀ request, machine.control = .enqueueRequest request →
    Receiving (machine.requests request)
  sending : ∀ request ∈ machine.tx ++ (forwarded machine.control ++ machine.queue),
    Sending (machine.requests request)
  ordered : machine.received = machine.sent ++ (forwarded machine.control ++ machine.queue)
  front : machine.control = .takeRequest → machine.queue ≠ []
  gate : machine.control = .checkSize → machine.first = true
  woken : asleep machine.control = true → machine.event = false →
    machine.queue = [] ∨ machine.first = true ∧ machine.queue.length < 2

theorem initialMachine_inv : EchoInv initialMachine where
  accounted request := by
    rw [show (held initialMachine.control).count request = 1 from count_finRange _ request]
    rfl
  receiving := nofun
  ready := nofun
  sending := nofun
  ordered := rfl
  front := nofun
  gate := nofun
  woken _ _ := Or.inl rfl

/-! ## One place for each request -/

section Places

variable {machine : Machine}

theorem Accounted.length (accounted : Accounted machine) :
    machine.rx.length + machine.queue.length + (held machine.control).length +
      machine.tx.length = bufferCount := by
  have once : ∀ request, (machine.rx ++ machine.queue ++ held machine.control ++
      machine.tx).count request = 1 := by
    intro request
    simp only [List.count_append]
    exact accounted request
  have total := length_eq_of_count_one _ once
  simpa only [List.length_append] using total

theorem forall_update (fits : StreamRequest → Prop) (requests : RequestId → StreamRequest)
    (changed : RequestId) (value : StreamRequest) (place : List RequestId)
    (elsewhere : place.count changed = 0)
    (all : ∀ request ∈ place, fits (requests request)) :
    ∀ request ∈ place, fits (Function.update requests changed value request) := by
  intro request member
  have different : request ≠ changed := by
    rintro rfl
    exact List.count_eq_zero.mp elsewhere member
  rw [Function.update_of_ne different]
  exact all request member

theorem count_forwarded_le (control : Control) (request : RequestId) :
    (forwarded control).count request ≤ (held control).count request := by
  cases control with
  | sendRequest => exact Nat.le_refl _
  | _ => exact Nat.zero_le _

theorem drop_finRange (request : RequestId) :
    (List.finRange bufferCount).drop request =
      request :: (List.finRange bufferCount).drop (request + 1) := by
  rw [List.drop_eq_getElem_cons (by simp), List.getElem_finRange]
  rfl

end Places

/-! ## Completions -/

section Completions

variable {machine : Machine}

/-- The first request of `rx` is taken out, and its fields are written. -/
theorem EchoInv.rx_alone (inv : EchoInv machine) (request : RequestId) (rest : List RequestId)
    (pending : machine.rx = request :: rest) :
    rest.count request = 0 ∧
      (machine.tx ++ (forwarded machine.control ++ machine.queue)).count request = 0 := by
  have once := inv.accounted request
  have inHand := count_forwarded_le machine.control request
  rw [pending, List.count_cons_self] at once
  simp only [List.count_append]
  omega

theorem EchoInv.captured (inv : EchoInv machine) (request : RequestId) (rest : List RequestId)
    (pending : machine.rx = request :: rest) (value : StreamRequest) (sends : Sending value) :
    EchoInv { machine with
      rx := rest
      requests := Function.update machine.requests request value
      queue := pointerQueuePushBack machine.queue request
      event := true
      received := machine.received ++ [request] } := by
  obtain ⟨restAlone, outAlone⟩ := inv.rx_alone request rest pending
  have size := inv.accounted.length
  rw [pending, List.length_cons] at size
  have pushed : pointerQueuePushBack machine.queue request = machine.queue ++ [request] :=
    enqueue_of_room _ _ _ (by omega)
  have once := inv.accounted
  rw [pushed]
  refine ⟨?_, ?_, ?_, ?_, ?_, ?_, inv.gate, nofun⟩
  · intro other
    have := once other
    rw [pending, count_cons_split] at this
    dsimp only
    rw [List.count_append]
    omega
  · exact forall_update Receiving _ _ _ _ restAlone fun other member =>
      inv.receiving other (by rw [pending]; exact List.mem_cons_of_mem _ member)
  · intro other enqueues
    have different : other ≠ request := by
      rintro rfl
      have := once other
      rw [enqueues, pending, held, drop_finRange, List.count_cons_self, List.count_cons_self]
        at this
      omega
    dsimp only
    rw [Function.update_of_ne different]
    exact inv.ready other enqueues
  · intro other member
    rw [← List.append_assoc, ← List.append_assoc] at member
    rcases List.mem_append.mp member with before | added
    · rw [List.append_assoc] at before
      exact forall_update Sending _ _ _ _ outAlone inv.sending other before
    · rw [List.mem_singleton.mp added]
      dsimp only
      rwa [Function.update_self]
  · show machine.received ++ [request] = _
    rw [inv.ordered, List.append_assoc, List.append_assoc]
  · intro _ empty
    simp at empty

/-- A request goes back to `rx`, from `rx` itself or from `tx`. -/
theorem EchoInv.returned (inv : EchoInv machine) (request : RequestId) (rx tx : List RequestId)
    (value : StreamRequest) (receives : Receiving value)
    (fromRx : rx ⊆ machine.rx) (fromTx : tx ⊆ machine.tx)
    (moved : ∀ other, rx.count other + tx.count other + [request].count other =
      machine.rx.count other + machine.tx.count other) :
    EchoInv { machine with
      rx := streamEnqueue rx request
      tx := tx
      requests := Function.update machine.requests request value } := by
  have once : ∀ other, rx.count other + machine.queue.count other +
      (held machine.control).count other + tx.count other + [request].count other = 1 := by
    intro other
    have before := inv.accounted other
    have after := moved other
    omega
  have alone := once request
  rw [List.count_singleton_self] at alone
  have size : rx.length + machine.queue.length + (held machine.control).length + tx.length + 1 =
      bufferCount := by
    have total := length_eq_of_count_one
      (rx ++ machine.queue ++ held machine.control ++ tx ++ [request]) (by
        intro other
        simp only [List.count_append]
        exact once other)
    simpa only [List.length_append, List.length_singleton] using total
  have enqueued : streamEnqueue rx request = rx ++ [request] :=
    enqueue_of_room _ _ _ (by omega)
  have inHand := count_forwarded_le machine.control request
  rw [enqueued]
  refine ⟨?_, ?_, ?_, ?_, inv.ordered, inv.front, inv.gate, inv.woken⟩
  · intro other
    have := once other
    dsimp only
    rw [List.count_append]
    omega
  · intro other member
    rcases List.mem_append.mp member with before | added
    · exact forall_update Receiving _ _ _ _ (by omega)
        (fun earlier isEarlier => inv.receiving earlier (fromRx isEarlier)) other before
    · rw [List.mem_singleton.mp added]
      dsimp only
      rwa [Function.update_self]
  · intro other enqueues
    have different : other ≠ request := by
      rintro rfl
      rw [enqueues, held, drop_finRange, List.count_cons_self] at alone
      omega
    dsimp only
    rw [Function.update_of_ne different]
    exact inv.ready other enqueues
  · apply forall_update Sending
    · simp only [List.count_append]
      omega
    · intro other member
      apply inv.sending other
      rcases List.mem_append.mp member with inTx | later
      · exact List.mem_append_left _ (fromTx inTx)
      · exact List.mem_append_right _ later

theorem EchoInv.rxComplete (inv : EchoInv machine) (status : StreamRequestStatus) (length : Nat)
    (final : Machine) (taken : step machine (.rxComplete status length) = some final) :
    EchoInv final := by
  simp only [step] at taken
  cases pending : machine.rx with
  | nil => simp [pending] at taken
  | cons request rest =>
      simp only [pending] at taken
      split at taken
      · have receives : (machine.requests request).callback = some .onDataReceived :=
          (inv.receiving request (by rw [pending]; exact List.mem_cons_self)).1
        simp only [call, Machine.setRequest, Function.update_self, receives] at taken
        cases status with
        | completed =>
            simp only [onDataReceived, Machine.setRequest, Function.update_self,
              Function.update_idem, if_true] at taken
            cases taken
            exact inv.captured request rest pending _ rfl
        | failed =>
            simp only [onDataReceived, Machine.setRequest, Function.update_self,
              Function.update_idem, reduceCtorEq, if_false] at taken
            cases taken
            apply inv.returned request rest machine.tx _ ⟨rfl, rfl⟩
            · rw [pending]
              exact List.subset_cons_self _ _
            · exact List.Subset.refl _
            · intro other
              rw [pending, count_cons_split request rest]
              omega
        | cancelled => simp [onDataReceived] at taken
      · simp at taken

theorem EchoInv.txComplete (inv : EchoInv machine) (status : StreamRequestStatus)
    (final : Machine) (taken : step machine (.txComplete status) = some final) :
    EchoInv final := by
  simp only [step] at taken
  cases sending : machine.tx with
  | nil => simp [sending] at taken
  | cons request rest =>
      have sends : (machine.requests request).callback = some .onDataSent :=
        inv.sending request (by rw [sending]; exact List.mem_cons_self)
      simp only [sending, call, sends, onDataSent, Machine.setRequest] at taken
      cases taken
      apply inv.returned request machine.rx rest _ ⟨rfl, rfl⟩
      · exact List.Subset.refl _
      · rw [sending]
        exact List.subset_cons_self _ _
      · intro other
        rw [sending, count_cons_split request rest]
        omega

end Completions

/-! ## The statements of `main` -/

section Statements

variable {machine : Machine}

theorem EchoInv.moves (inv : EchoInv machine) (event first : Bool) (control : Control)
    (sameHeld : held control = held machine.control)
    (sameForwarded : forwarded control = forwarded machine.control)
    (ready : ∀ request, control = .enqueueRequest request →
      Receiving (machine.requests request))
    (front : control = .takeRequest → machine.queue ≠ [])
    (gate : control = .checkSize → first = true)
    (woken : asleep control = true → event = false →
      machine.queue = [] ∨ first = true ∧ machine.queue.length < 2) :
    EchoInv { machine with event := event, first := first, control := control } where
  accounted request := by
    have before := inv.accounted request
    rw [← sameHeld] at before
    exact before
  receiving := inv.receiving
  ready := ready
  sending := by
    rw [sameForwarded]
    exact inv.sending
  ordered := by
    rw [sameForwarded]
    exact inv.ordered
  front := front
  gate := gate
  woken := woken

/-- Where `main` relies on nothing it has found out about the queue. -/
def forgetful : Control → Bool
  | .enqueueRequest _ | .takeRequest | .checkSize => false
  | control => !asleep control

theorem EchoInv.passes (inv : EchoInv machine) (event first : Bool) (control : Control)
    (sameHeld : held control = held machine.control)
    (sameForwarded : forwarded control = forwarded machine.control)
    (forgets : forgetful control = true) :
    EchoInv { machine with event := event, first := first, control := control } := by
  apply inv.moves event first control sameHeld sameForwarded
  · rintro request rfl
    cases forgets
  · rintro rfl
    cases forgets
  · rintro rfl
    cases forgets
  · intro sleeps
    cases control <;> simp [asleep, forgetful] at sleeps forgets

theorem EchoInv.mainStep (inv : EchoInv machine) (final : Machine)
    (taken : mainStep machine = some final) : EchoInv final := by
  have once := inv.accounted
  have sending := inv.sending
  have ordered := inv.ordered
  have woken := inv.woken
  have size := inv.accounted.length
  simp only [I2sEcho.mainStep] at taken
  cases here : machine.control with
  | checkCount i =>
      simp only [here] at taken
      split at taken
      · rename_i inside
        cases taken
        exact inv.moves _ _ _ (by rw [here]; rfl) (by rw [here]; rfl) (by simp) (by simp) (by simp)
          (by rw [here] at woken; exact woken)
      · rename_i outside
        cases taken
        have none : (List.finRange bufferCount).drop i = [] :=
          List.drop_eq_nil_of_le (by rw [List.length_finRange]; omega)
        exact inv.moves _ _ _ (by rw [here, held, none]; rfl) (by rw [here]; rfl) (by simp)
          (by simp) (by simp) (by rw [here] at woken; exact woken)
  | setRequest request =>
      simp only [here] at taken
      cases taken
      have alone := once request
      rw [here, held, drop_finRange, List.count_cons_self] at alone
      rw [here] at sending ordered woken
      refine ⟨?_, ?_, ?_, ?_, ordered, nofun, nofun, woken⟩
      · rw [Accounted, here] at once
        exact once
      · exact forall_update Receiving machine.requests _ _ machine.rx (by omega) inv.receiving
      · intro other enqueues
        cases enqueues
        dsimp only [Machine.setRequest]
        rw [Function.update_self]
        exact ⟨rfl, rfl⟩
      · apply forall_update Sending _ _ _ _ _ sending
        simp only [forwarded, List.count_append, List.count_nil]
        omega
  | enqueueRequest request =>
      simp only [here] at taken
      cases taken
      have ready := inv.ready request here
      rw [here, held, drop_finRange, List.length_cons] at size
      have enqueued : streamEnqueue machine.rx request = machine.rx ++ [request] :=
        enqueue_of_room _ _ _ (by omega)
      rw [here] at sending ordered woken
      rw [enqueued]
      refine ⟨?_, ?_, nofun, sending, ordered, nofun, nofun, woken⟩
      · intro other
        have before := once other
        rw [here, held, drop_finRange, count_cons_split] at before
        dsimp only [held]
        rw [List.count_append]
        omega
      · intro other member
        rcases List.mem_append.mp member with before | added
        · exact inv.receiving other before
        · rw [List.mem_singleton.mp added]
          exact ready
  | wait =>
      simp only [here] at taken
      split at taken
      · cases taken
        exact inv.passes _ _ _ (by rw [here]; rfl) (by rw [here]; rfl) rfl
      · cases taken
        exact inv
  | clearEvent =>
      simp only [here] at taken
      cases taken
      exact inv.passes _ _ _ (by rw [here]; rfl) (by rw [here]; rfl) rfl
  | checkFirst =>
      simp only [here] at taken
      split at taken
      · rename_i isFirst
        cases taken
        exact inv.moves _ _ _ (by rw [here]; rfl) (by rw [here]; rfl) nofun nofun
          (fun _ => isFirst) nofun
      · cases taken
        exact inv.passes _ _ _ (by rw [here]; rfl) (by rw [here]; rfl) rfl
  | checkSize =>
      simp only [here] at taken
      split at taken
      · rename_i few
        cases taken
        exact inv.moves _ _ _ (by rw [here]; rfl) (by rw [here]; rfl) nofun nofun nofun
          (fun _ _ => Or.inr ⟨inv.gate here, few⟩)
      · cases taken
        exact inv.passes _ _ _ (by rw [here]; rfl) (by rw [here]; rfl) rfl
  | clearFirst =>
      simp only [here] at taken
      cases taken
      exact inv.passes _ _ _ (by rw [here]; rfl) (by rw [here]; rfl) rfl
  | checkQueue =>
      simp only [here] at taken
      split at taken
      · rename_i empty
        cases taken
        exact inv.moves _ _ _ (by rw [here]; rfl) (by rw [here]; rfl) nofun nofun nofun
          (fun _ _ => Or.inl (List.isEmpty_iff.mp empty))
      · rename_i notEmpty
        cases taken
        exact inv.moves _ _ _ (by rw [here]; rfl) (by rw [here]; rfl) nofun
          (fun _ empty => notEmpty (List.isEmpty_iff.mpr empty)) nofun nofun
  | takeRequest =>
      simp only [here] at taken
      cases queue : machine.queue with
      | nil => exact absurd queue (inv.front here)
      | cons request rest =>
          simp only [queue] at taken
          cases taken
          rw [here, queue] at sending ordered
          refine ⟨?_, inv.receiving, nofun, sending, ordered, nofun, nofun, nofun⟩
          intro other
          have before := once other
          rw [here, queue, count_cons_split] at before
          simp only [held, List.count_nil] at before ⊢
          omega
  | sendRequest request =>
      simp only [here] at taken
      cases taken
      rw [here, held, List.length_singleton] at size
      have enqueued : streamEnqueue machine.tx request = machine.tx ++ [request] :=
        enqueue_of_room _ _ _ (by omega)
      rw [here] at sending ordered
      rw [enqueued]
      refine ⟨?_, inv.receiving, nofun, ?_, ?_, nofun, nofun, nofun⟩
      · intro other
        have before := once other
        rw [here] at before
        simp only [held, List.count_append, List.count_nil] at before ⊢
        omega
      · simpa only [forwarded, List.nil_append, List.append_assoc] using sending
      · simpa only [forwarded, List.nil_append, List.append_assoc] using ordered

end Statements

/-! ## Every run -/

theorem step_inv (machine : Machine) (label : Label) (final : Machine) (inv : EchoInv machine)
    (taken : step machine label = some final) : EchoInv final := by
  cases label with
  | main => exact inv.mainStep final taken
  | rxComplete status length => exact inv.rxComplete status length final taken
  | txComplete status => exact inv.txComplete status final taken

/-- What holds at every moment. -/
structure EchoSafe (machine : Machine) : Prop where
  one_place : ∀ request, machine.rx.count request + machine.queue.count request +
    (held machine.control).count request + machine.tx.count request = 1
  in_rx : ∀ request ∈ machine.rx,
    (machine.requests request).callback = some .onDataReceived ∧
      (machine.requests request).length = 0
  in_queue : ∀ request ∈ machine.queue, (machine.requests request).callback = some .onDataSent
  in_tx : ∀ request ∈ machine.tx, (machine.requests request).callback = some .onDataSent
  in_order : machine.sent <+: machine.received
  no_lost_wakeup : machine.control = .wait → machine.event = false →
    machine.queue = [] ∨ machine.first = true ∧ machine.queue.length < 2

theorem echo_safe (labels : List Label) (final : Machine)
    (done : Schedule.run step labels initialMachine = some final) : EchoSafe final := by
  have inv := Schedule.run_invariant step EchoInv step_inv labels _ final initialMachine_inv done
  refine ⟨inv.accounted, inv.receiving, ?_, ?_, ?_, ?_⟩
  · intro request member
    exact inv.sending request (List.mem_append_right _ (List.mem_append_right _ member))
  · intro request member
    exact inv.sending request (List.mem_append_left _ member)
  · rw [inv.ordered]
    exact List.prefix_append _ _
  · intro waits
    exact inv.woken (by rw [waits]; rfl)

/-- `main` is never stuck, and a pending request can be completed or fail. -/
theorem echo_goes_on (labels : List Label) (final : Machine)
    (done : Schedule.run step labels initialMachine = some final) :
    (step final .main).isSome ∧
      (final.rx ≠ [] → ∀ status ≠ .cancelled, (step final (.rxComplete status 0)).isSome) ∧
      (final.tx ≠ [] → ∀ status, (step final (.txComplete status)).isSome) := by
  have inv := Schedule.run_invariant step EchoInv step_inv labels _ final initialMachine_inv done
  refine ⟨?_, ?_, ?_⟩
  · simp only [step, mainStep]
    cases here : final.control with
    | takeRequest =>
        cases queue : final.queue with
        | nil => exact absurd queue (inv.front here)
        | cons => rfl
    | checkCount | wait | checkFirst | checkSize | checkQueue =>
        dsimp only
        split <;> rfl
    | _ => rfl
  · intro pending status allowed
    obtain ⟨request, rest, isRx⟩ := List.exists_cons_of_ne_nil pending
    have receives := (inv.receiving request (by rw [isRx]; exact List.mem_cons_self)).1
    simp only [step, isRx, Nat.zero_le, if_true, call, Machine.setRequest, Function.update_self,
      receives]
    cases status with
    | completed => rfl
    | failed => rfl
    | cancelled => exact absurd rfl allowed
  · intro sending status
    obtain ⟨request, rest, isTx⟩ := List.exists_cons_of_ne_nil sending
    have sends : (final.requests request).callback = some .onDataSent :=
      inv.sending request (by rw [isTx]; exact List.mem_cons_self)
    simp only [step, isTx, call, sends]
    rfl

/-- Two captures arrive, the first while the loop sleeps; both are handed to `tx`. -/
def twoCapturesLabels : List Label :=
  List.replicate 17 .main ++
    [.rxComplete .completed 2048, .main, .main, .main, .main, .rxComplete .failed 100,
     .rxComplete .completed 2048] ++ List.replicate 11 .main ++ [.txComplete .completed]

theorem echo_safe_two_captures :
    ∃ final, Schedule.run step twoCapturesLabels initialMachine = some final ∧
      final.sent = [0, 2] ∧ final.rx = [3, 4, 1, 0] ∧ final.tx = [2] ∧ EchoSafe final := by
  have reached : (Schedule.run step twoCapturesLabels initialMachine).map
      (fun final => (final.sent, final.rx, final.tx)) = some ([0, 2], [3, 4, 1, 0], [2]) := by
    decide +kernel
  obtain ⟨final, done, view⟩ := Option.map_eq_some_iff.mp reached
  obtain ⟨sent, others⟩ := Prod.mk.inj view
  obtain ⟨rx, tx⟩ := Prod.mk.inj others
  exact ⟨final, done, sent, rx, tx, echo_safe twoCapturesLabels final done⟩

end HalmExamples.I2sEcho
