import SecureEdgeVision.Runs.Traced
import SecureEdgeVision.Worker.Run

/-! A worker run step by step: every lifecycle check, read, sampling decision, frame processed and
event sent, with its outcome. The steps are those of the run. -/
namespace SecureEdge

open Runs (Traced)

/-- A call made inside the loop, with its outcome. -/
inductive WorkerStep where
  | check (outcome : Except WorkerFailure Unit)
  | read (outcome : Except WorkerFailure (Option CapturedFrame))
  | sample (captured : CapturedFrame) (outcome : Except WorkerPipelineError Bool)
  | process (frame : FrameCall) (outcome : Except WorkerFailure DetectionEvent)
  | send (event : DetectionEvent) (raised : Bool)

namespace WorkerStep

def fails : WorkerStep → Bool
  | check outcome => !outcome.isOk
  | read outcome => !outcome.isOk
  | sample _ outcome => !outcome.isOk
  | process _ outcome => !outcome.isOk
  | send _ raised => raised

/-- The step as an effect of the run; checks and sampling have none. -/
def effect? : WorkerStep → Option RunEffect
  | check _ => none
  | read _ => some .read
  | sample _ _ => none
  | process frame outcome => some (.processed frame outcome)
  | send event raised => some (.sunk event raised)

def read? : WorkerStep → Option (Except WorkerFailure (Option CapturedFrame))
  | read outcome => some outcome
  | _ => none

/-- A frame that the source yielded. -/
def yielded? : WorkerStep → Option CapturedFrame
  | read (.ok (some captured)) => some captured
  | _ => none

def sampled? : WorkerStep → Option CapturedFrame
  | sample captured _ => some captured
  | _ => none

def processed? : WorkerStep → Option (FrameCall × Except WorkerFailure DetectionEvent)
  | process frame outcome => some (frame, outcome)
  | _ => none

def returned? : WorkerStep → Option DetectionEvent
  | process _ (.ok event) => some event
  | _ => none

/-- An event handed to the sink. -/
def sent? : WorkerStep → Option DetectionEvent
  | send event _ => some event
  | _ => none

/-- An event that the sink took without raising. -/
def delivered? : WorkerStep → Option DetectionEvent
  | send event false => some event
  | _ => none

end WorkerStep

namespace PrivacyWorkerPipeline
variable (pipeline : PrivacyWorkerPipeline)

/-- The part of a round in which an accepted frame becomes an event in the sink, step by step. -/
def emitSteps (state : PipelineState) (gate : SamplingGate) (round : Round)
    (captured : CapturedFrame) :
    Traced WorkerStep WorkerFailure (PipelineState × RoundEnd) := do
  let frame := { round.frame with captured := some captured }
  let processed := pipeline.processFrame state frame
  let event ← .call (.process frame processed.2) processed.2
  let _ ← .call (.check round.checkProcessed) round.checkProcessed
  let _ ← .call (.send event round.sinkRaises)
    (if round.sinkRaises then .error (.pipeline ⟨"metadata sink failed"⟩) else .ok ())
  let _ ← .call (.check round.checkSent) round.checkSent
  pure (processed.1, .emitted gate)

/-- The body of the loop, step by step. -/
def turnSteps (state : PipelineState) (gate : SamplingGate) (round : Round) :
    Traced WorkerStep WorkerFailure (PipelineState × RoundEnd) := do
  let _ ← .call (.check round.checkBefore) round.checkBefore
  let captured ← .call (.read round.read) round.read
  let _ ← .call (.check round.checkRead) round.checkRead
  match captured with
  | none => pure (state, .finished)
  | some captured =>
    let decision := gate.accept captured.sampleTimeSeconds
    let (gate, accepted) ← .call (.sample captured (decision.map Prod.snd))
      (decision.mapError .pipeline)
    if accepted then pipeline.emitSteps state gate round captured
    else pure (state, .skipped gate)

/-- The loop, step by step. The source is at its end after the last round. -/
def loopSteps (bound : Option ℕ) (state : PipelineState) (gate : SamplingGate) (emitted : ℕ) :
    List Round → Traced WorkerStep WorkerFailure ℕ
  | [] =>
    if mayEmit emitted bound then do
      let _ ← .call (.read (.ok none)) (.ok ())
      pure emitted
    else pure emitted
  | round :: rounds =>
    if mayEmit emitted bound then do
      let (state, ended) ← pipeline.turnSteps state gate round
      match ended with
      | .finished => pure emitted
      | .skipped gate => loopSteps bound state gate emitted rounds
      | .emitted gate => loopSteps bound state gate (emitted + 1) rounds
    else pure emitted

section Refinement

/-- Up to the sampling of its frame a round has read it. -/
theorem emitSteps_traces (state : PipelineState) (gate : SamplingGate) (round : Round)
    (captured : CapturedFrame) :
    RunEffect.read ::
        (pipeline.emitSteps state gate round captured).calls.filterMap WorkerStep.effect? =
      (pipeline.emit state gate round captured).effects ∧
    (pipeline.emitSteps state gate round captured).result =
      (pipeline.emit state gate round captured).outcome.map
        ((pipeline.emit state gate round captured).state, ·) := by
  unfold emitSteps emit
  dsimp only
  rcases pipeline.processFrame state { round.frame with captured := some captured } with
    ⟨state, e | event⟩
  · exact ⟨rfl, rfl⟩
  · cases round.checkProcessed with
    | error e => exact ⟨rfl, rfl⟩
    | ok u =>
      cases round.sinkRaises with
      | true => exact ⟨rfl, rfl⟩
      | false => cases round.checkSent <;> exact ⟨rfl, rfl⟩

theorem turnSteps_traces (state : PipelineState) (gate : SamplingGate) (round : Round) :
    (pipeline.turnSteps state gate round).calls.filterMap WorkerStep.effect? =
      (pipeline.turn state gate round).effects ∧
    (pipeline.turnSteps state gate round).result =
      (pipeline.turn state gate round).outcome.map
        ((pipeline.turn state gate round).state, ·) := by
  unfold turnSteps turn
  cases round.checkBefore with
  | error e => exact ⟨rfl, rfl⟩
  | ok u =>
    cases round.read with
    | error e => exact ⟨rfl, rfl⟩
    | ok captured =>
      cases round.checkRead with
      | error e => exact ⟨rfl, rfl⟩
      | ok u =>
        cases captured with
        | none => exact ⟨rfl, rfl⟩
        | some captured =>
          simp only [Traced.call, Traced.ok_bind]
          rcases gate.accept captured.sampleTimeSeconds with e | ⟨gate, _ | _⟩
          · exact ⟨rfl, rfl⟩
          · exact ⟨rfl, rfl⟩
          · exact pipeline.emitSteps_traces state gate round captured

/-- The steps of the loop are those of its effects and its result. -/
theorem loopSteps_traces (bound : Option ℕ) (state : PipelineState) (gate : SamplingGate)
    (emitted : ℕ) (rounds : List Round) :
    (pipeline.loopSteps bound state gate emitted rounds).calls.filterMap WorkerStep.effect? =
      (pipeline.loop bound state gate emitted rounds).effects ∧
    (pipeline.loopSteps bound state gate emitted rounds).result =
      (pipeline.loop bound state gate emitted rounds).outcome := by
  induction rounds generalizing state gate emitted with
  | nil =>
    unfold loopSteps loop
    split_ifs <;> exact ⟨rfl, rfl⟩
  | cons round rounds ih =>
    unfold loopSteps loop
    split_ifs
    · obtain ⟨heffects, hresult⟩ := pipeline.turnSteps_traces state gate round
      revert heffects hresult
      rcases pipeline.turnSteps state gate round with ⟨calls, result⟩
      rcases pipeline.turn state gate round with ⟨state, effects, e | _ | gate | gate⟩ <;>
        dsimp only [Except.map] <;> rintro rfl rfl
      · exact ⟨rfl, rfl⟩
      · exact ⟨by simp [Traced.ok_bind, Traced.pure_eq], rfl⟩
      · refine ⟨?_, (ih state gate emitted).2⟩
        rw [← (ih state gate emitted).1, ← List.filterMap_append]
        rfl
      · refine ⟨?_, (ih state gate (emitted + 1)).2⟩
        rw [← (ih state gate (emitted + 1)).1, ← List.filterMap_append]
        rfl
    · exact ⟨rfl, rfl⟩

end Refinement

section Stopping

theorem emitSteps_stops (state : PipelineState) (gate : SamplingGate) (round : Round)
    (captured : CapturedFrame) :
    (pipeline.emitSteps state gate round captured).Stops WorkerStep.fails := by
  unfold emitSteps
  refine Traced.stops_call_bind ?_ fun event => ?_
  · rfl
  refine Traced.stops_call_bind ?_ fun _ => ?_
  · rfl
  refine Traced.stops_call_bind ?_ fun _ => ?_
  · cases h : round.sinkRaises <;> rfl
  refine Traced.stops_call_bind ?_ fun _ => ?_
  · rfl
  exact Traced.stops_pure _

theorem turnSteps_stops (state : PipelineState) (gate : SamplingGate) (round : Round) :
    (pipeline.turnSteps state gate round).Stops WorkerStep.fails := by
  unfold turnSteps
  refine Traced.stops_call_bind ?_ fun _ => ?_
  · rfl
  refine Traced.stops_call_bind ?_ fun captured => ?_
  · rfl
  refine Traced.stops_call_bind ?_ fun _ => ?_
  · rfl
  cases captured with
  | none => exact Traced.stops_pure _
  | some captured =>
    refine Traced.stops_call_bind ?_ fun decision => ?_
    · cases gate.accept captured.sampleTimeSeconds <;> rfl
    obtain ⟨gate, _ | _⟩ := decision
    · exact Traced.stops_pure _
    · exact pipeline.emitSteps_stops state gate round captured

/-- Nothing is called in the loop after a call that failed. -/
theorem loopSteps_stops (bound : Option ℕ) (state : PipelineState) (gate : SamplingGate)
    (emitted : ℕ) (rounds : List Round) :
    (pipeline.loopSteps bound state gate emitted rounds).Stops WorkerStep.fails := by
  induction rounds generalizing state gate emitted with
  | nil =>
    unfold loopSteps
    split_ifs
    · refine Traced.stops_call_bind ?_ fun _ => Traced.stops_pure _
      rfl
    · exact Traced.stops_pure _
  | cons round rounds ih =>
    unfold loopSteps
    split_ifs
    · apply Traced.stops_bind (pipeline.turnSteps_stops state gate round)
      rintro ⟨state, _ | gate | gate⟩ _
      · exact Traced.stops_pure _
      · exact ih state gate emitted
      · exact ih state gate (emitted + 1)
    · exact Traced.stops_pure _

end Stopping

end PrivacyWorkerPipeline

end SecureEdge
