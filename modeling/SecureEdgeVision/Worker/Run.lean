import SecureEdgeVision.Worker.Pipeline

/-! A run of the worker pipeline over one source: the sampling gate, the frames it lets through,
and the sink. What source, lifecycle, detector and sink do is part of the input. -/
namespace SecureEdge

open Binary64 (Finite)

/-- A rate that passed its setting's bounds. -/
structure SampleFps where
  value : Finite
  pos : Finite.zero < value
  le : value ≤ ⟨false, 120 * 2 ^ 46, 1028, by decide, by decide, Or.inl (by decide)⟩

/-- `_SamplingGate`. A sum or quotient that is `none` overflowed to infinity. -/
structure SamplingGate where
  intervalSeconds : Option Finite
  lastObserved : Option NonNegativeFloat
  nextAllowed : Option (Option Finite)

namespace SamplingGate

def create (rate : SampleFps) : SamplingGate := ⟨Finite.one.div rate.value, none, none⟩

/-- `current < self._next_allowed` -/
def early (current : NonNegativeFloat) : Option Finite → Bool
  | none => true
  | some allowed => current.value < allowed

/-- `_SamplingGate.accept`, with the gate after it. -/
def accept (gate : SamplingGate) (timestamp : PyReal) :
    Except WorkerPipelineError (SamplingGate × Bool) := do
  let current ← nonnegativeFinite timestamp "frame sample timing"
  let _ ← require (gate.lastObserved.all fun last => ¬ current.value < last.value)
    "frame sample timing moved backwards"
  if gate.nextAllowed.any (early current) then
    pure ({ gate with lastObserved := some current }, false)
  else
    pure (⟨gate.intervalSeconds, some current, some (gate.intervalSeconds.bind current.value.add)⟩,
      true)

end SamplingGate

/-- One turn of the loop: the lifecycle checks, the read, what `process_frame` meets on the frame
that was read, and the sink. -/
structure Round where
  checkBefore : Except WorkerFailure Unit
  read : Except WorkerFailure (Option CapturedFrame)
  checkRead : Except WorkerFailure Unit
  frame : FrameCall
  checkProcessed : Except WorkerFailure Unit
  sinkRaises : Bool
  checkSent : Except WorkerFailure Unit

/-- `max_events`: none, a `bool` or no integer at all, or an `int`. -/
inductive MaxEvents where
  | none
  | other
  | int (n : ℤ)

/-- The bound that a run checks before it starts. -/
def MaxEvents.bound? : MaxEvents → Except WorkerPipelineError (Option ℕ)
  | .none => .ok Option.none
  | .other => .error ⟨"maximum event count is invalid"⟩
  | .int n => if n ≤ 0 then .error ⟨"maximum event count is invalid"⟩ else .ok (some n.toNat)

/-- One call of `run` with what it meets. After the last round the source is at its end. -/
structure RunCall where
  sinkCallable : Bool
  maxEvents : MaxEvents
  sourceEnter : Except WorkerFailure Unit
  lifecycleEnter : Except WorkerFailure Unit
  firstCheck : Except WorkerFailure Unit
  rounds : List Round
  lifecycleExit : Except WorkerFailure Unit
  sourceExit : Except WorkerFailure Unit

/-- What a run does at its boundaries. -/
inductive RunEffect where
  | read
  | processed (frame : FrameCall) (outcome : Except WorkerFailure DetectionEvent)
  | sunk (event : DetectionEvent) (raised : Bool)

/-- The event that a call of `process_frame` returned. -/
def RunEffect.returned? : RunEffect → Option DetectionEvent
  | .processed _ (.ok event) => some event
  | _ => none

/-- How a round ends: at the end of the source, with a frame that is not sampled, or with an
event in the sink. -/
inductive RoundEnd where
  | finished
  | skipped (gate : SamplingGate)
  | emitted (gate : SamplingGate)

/-- The state and the effects of a part of a run, and its result. -/
structure Ran (α : Type) where
  state : PipelineState
  effects : List RunEffect
  outcome : Except WorkerFailure α

/-- Leaving a `with` block whose `__exit__` does not suppress. -/
def Ran.leave {α : Type} (ran : Ran α) (exit : Except WorkerFailure Unit) : Ran α :=
  match exit with
  | .error e => { ran with outcome := .error e }
  | .ok () => ran

/-- Every exception of a run surfaces as a `WorkerPipelineError`. -/
def WorkerFailure.surfaced : WorkerFailure → WorkerPipelineError
  | .pipeline e => e
  | .escaped => ⟨"local worker pipeline failed"⟩

namespace PrivacyWorkerPipeline
variable (pipeline : PrivacyWorkerPipeline)

/-- The part of a round in which an accepted frame becomes an event in the sink. -/
def emit (state : PipelineState) (gate : SamplingGate) (round : Round) (captured : CapturedFrame) :
    Ran RoundEnd :=
  let frame := { round.frame with captured := some captured }
  match pipeline.processFrame state frame with
  | (state, .error e) => ⟨state, [.read, .processed frame (.error e)], .error e⟩
  | (state, .ok event) =>
    let effects := [.read, .processed frame (.ok event)]
    match round.checkProcessed with
    | .error e => ⟨state, effects, .error e⟩
    | .ok () =>
      let effects := effects ++ [.sunk event round.sinkRaises]
      if round.sinkRaises then
        ⟨state, effects, .error (.pipeline ⟨"metadata sink failed"⟩)⟩
      else
        match round.checkSent with
        | .error e => ⟨state, effects, .error e⟩
        | .ok () => ⟨state, effects, .ok (.emitted gate)⟩

/-- The body of the loop. -/
def turn (state : PipelineState) (gate : SamplingGate) (round : Round) : Ran RoundEnd :=
  match round.checkBefore with
  | .error e => ⟨state, [], .error e⟩
  | .ok () =>
    match round.read with
    | .error e => ⟨state, [.read], .error e⟩
    | .ok captured =>
      match round.checkRead with
      | .error e => ⟨state, [.read], .error e⟩
      | .ok () =>
        match captured with
        | none => ⟨state, [.read], .ok .finished⟩
        | some captured =>
          match gate.accept captured.sampleTimeSeconds with
          | .error e => ⟨state, [.read], .error (.pipeline e)⟩
          | .ok (gate, false) => ⟨state, [.read], .ok (.skipped gate)⟩
          | .ok (gate, true) => pipeline.emit state gate round captured

/-- `max_events is None or emitted < max_events` -/
def mayEmit (emitted : ℕ) : Option ℕ → Bool
  | none => true
  | some bound => emitted < bound

/-- The loop, with the number of events emitted so far. -/
def loop (bound : Option ℕ) (state : PipelineState) (gate : SamplingGate) (emitted : ℕ) :
    List Round → Ran ℕ
  | [] => ⟨state, if mayEmit emitted bound then [.read] else [], .ok emitted⟩
  | round :: rounds =>
    if mayEmit emitted bound then
      let first := pipeline.turn state gate round
      match first.outcome with
      | .error e => ⟨first.state, first.effects, .error e⟩
      | .ok .finished => ⟨first.state, first.effects, .ok emitted⟩
      | .ok (.skipped gate) =>
        let rest := loop bound first.state gate emitted rounds
        ⟨rest.state, first.effects ++ rest.effects, rest.outcome⟩
      | .ok (.emitted gate) =>
        let rest := loop bound first.state gate (emitted + 1) rounds
        ⟨rest.state, first.effects ++ rest.effects, rest.outcome⟩
    else ⟨state, [], .ok emitted⟩

/-- The `with` statement of a run. -/
def runWith (rate : SampleFps) (bound : Option ℕ) (state : PipelineState) (call : RunCall) :
    Ran ℕ :=
  match call.sourceEnter with
  | .error e => ⟨state, [], .error e⟩
  | .ok () =>
    let inner : Ran ℕ :=
      match call.lifecycleEnter with
      | .error e => ⟨state, [], .error e⟩
      | .ok () =>
        let body : Ran ℕ :=
          match call.firstCheck with
          | .error e => ⟨state, [], .error e⟩
          | .ok () => pipeline.loop bound state (.create rate) 0 call.rounds
        body.leave call.lifecycleExit
    inner.leave call.sourceExit

/-- `PrivacyWorkerPipeline.run`, with its effects. -/
def run (rate : SampleFps) (state : PipelineState) (call : RunCall) :
    PipelineState × List RunEffect × Except WorkerPipelineError ℕ :=
  if call.sinkCallable then
    match call.maxEvents.bound? with
    | .error e => (state, [], .error e)
    | .ok bound =>
      let ran := pipeline.runWith rate bound state call
      (ran.state, ran.effects, ran.outcome.mapError WorkerFailure.surfaced)
  else (state, [], .error ⟨"metadata sink is invalid"⟩)

/-- A check that raises before a round ends the loop there. -/
theorem loop_of_checkBefore {round : Round} {e : WorkerFailure} (h : round.checkBefore = .error e)
    (bound : Option ℕ) (state : PipelineState) (gate : SamplingGate) (emitted : ℕ)
    (rounds : List Round) :
    (pipeline.loop bound state gate emitted (round :: rounds)).effects = [] := by
  have hturn : pipeline.turn state gate round = ⟨state, [], .error e⟩ := by
    unfold turn
    rw [h]
  unfold loop
  rw [hturn]
  split_ifs <;> rfl

section Issued

/-- What is returned inside a round is issued, however the round ends. -/
theorem issued_emit (state : PipelineState) (gate : SamplingGate) (round : Round)
    (captured : CapturedFrame) :
    pipeline.Issued state ((pipeline.emit state gate round captured).effects.filterMap
      RunEffect.returned?) (pipeline.emit state gate round captured).state := by
  unfold emit
  dsimp only
  rcases processFrame_cases pipeline state { round.frame with captured := some captured } with
    ⟨e, hs⟩ | ⟨event, hevent, hs⟩ <;> rw [hs]
  · exact rfl
  · dsimp only
    cases round.checkProcessed with
    | error e => exact ⟨hevent, rfl⟩
    | ok u =>
      dsimp only
      cases round.sinkRaises with
      | true => exact ⟨hevent, rfl⟩
      | false => cases round.checkSent <;> exact ⟨hevent, rfl⟩

theorem issued_turn (state : PipelineState) (gate : SamplingGate) (round : Round) :
    pipeline.Issued state ((pipeline.turn state gate round).effects.filterMap
      RunEffect.returned?) (pipeline.turn state gate round).state := by
  unfold turn
  cases round.checkBefore with
  | error e => exact rfl
  | ok u =>
    dsimp only
    cases round.read with
    | error e => exact rfl
    | ok captured =>
      dsimp only
      cases round.checkRead with
      | error e => exact rfl
      | ok u =>
        dsimp only
        cases captured with
        | none => exact rfl
        | some captured =>
          dsimp only
          rcases gate.accept captured.sampleTimeSeconds with e | ⟨gate, _ | _⟩
          · exact rfl
          · exact rfl
          · exact pipeline.issued_emit state gate round captured

theorem issued_loop (bound : Option ℕ) (state : PipelineState) (gate : SamplingGate)
    (emitted : ℕ) (rounds : List Round) :
    pipeline.Issued state ((pipeline.loop bound state gate emitted rounds).effects.filterMap
      RunEffect.returned?) (pipeline.loop bound state gate emitted rounds).state := by
  induction rounds generalizing state gate emitted with
  | nil =>
    unfold loop
    split_ifs <;> exact rfl
  | cons round rounds ih =>
    have hturn := pipeline.issued_turn state gate round
    unfold loop
    split_ifs
    · dsimp only
      rcases (pipeline.turn state gate round).outcome with e | _ | gate | gate
      · exact hturn
      · exact hturn
      · dsimp only
        rw [List.filterMap_append]
        exact hturn.append (ih _ _ _)
      · dsimp only
        rw [List.filterMap_append]
        exact hturn.append (ih _ _ _)
    · exact rfl

theorem Ran.leave_state {α : Type} (ran : Ran α) (exit : Except WorkerFailure Unit) :
    (ran.leave exit).state = ran.state ∧ (ran.leave exit).effects = ran.effects := by
  cases exit <;> exact ⟨rfl, rfl⟩

/-- A run takes the state along with the events returned inside it, whatever its result. -/
theorem issued_run (rate : SampleFps) (state : PipelineState) (call : RunCall) :
    pipeline.Issued state ((pipeline.run rate state call).2.1.filterMap RunEffect.returned?)
      (pipeline.run rate state call).1 := by
  unfold run
  split_ifs
  · cases call.maxEvents.bound? with
    | error e => exact rfl
    | ok bound =>
      dsimp only
      unfold runWith
      cases call.sourceEnter with
      | error e => exact rfl
      | ok u =>
        dsimp only
        rw [(Ran.leave_state _ _).1, (Ran.leave_state _ _).2]
        cases call.lifecycleEnter with
        | error e => exact rfl
        | ok u =>
          dsimp only
          rw [(Ran.leave_state _ _).1, (Ran.leave_state _ _).2]
          cases call.firstCheck with
          | error e => exact rfl
          | ok u => exact pipeline.issued_loop bound state _ 0 call.rounds
  · exact rfl

end Issued

end PrivacyWorkerPipeline

end SecureEdge
