import SecureEdgeVision.Contracts.ReadBack
import SecureEdgeVision.Worker.Run

/-! The identity of a worker's events: their numbers and identifiers along every sequence of
calls of one pipeline. -/
namespace SecureEdge

/-- A call on the pipeline. -/
inductive PipelineCall where
  | processFrame (call : FrameCall)
  | run (call : RunCall)

inductive PipelineAnswer where
  | processed (outcome : Except WorkerFailure DetectionEvent)
  | ran (effects : List RunEffect) (outcome : Except WorkerPipelineError ℕ)

/-- The events that `process_frame` returned during the call. -/
def PipelineAnswer.events : PipelineAnswer → List DetectionEvent
  | .processed outcome => outcome.toOption.toList
  | .ran effects _ => effects.filterMap RunEffect.returned?

namespace PrivacyWorkerPipeline
variable (pipeline : PrivacyWorkerPipeline) (rate : SampleFps)

def serve (state : PipelineState) : PipelineCall → PipelineState × PipelineAnswer
  | .processFrame call =>
    let (state, outcome) := pipeline.processFrame state call
    (state, .processed outcome)
  | .run call =>
    let (state, effects, outcome) := pipeline.run rate state call
    (state, .ran effects outcome)

/-- The state after a sequence of calls on a new pipeline. -/
def served (calls : List PipelineCall) : PipelineState :=
  (Runs.run (pipeline.serve rate) .initial calls).1

end PrivacyWorkerPipeline

end SecureEdge
