import SecureEdgeVision.Worker.Lifecycle

/-! A signed worker run with two threads. The main thread opens the transport, runs the pipeline
and sends the final heartbeat; the heartbeat thread of the lifecycle runs beside it. -/
namespace SecureEdge

structure SignedWorkerRunner where
  pipeline : PrivacyWorkerPipeline
  sampleFps : SampleFps
  lifecycle : WorkerHeartbeatLifecycle

/-- Where the main thread stands in the loop of the pipeline. -/
inductive LoopPoint where
  | firstCheck
  | head
  | reading
  | checkRead (captured : Option CapturedFrame)
  | sampling (captured : CapturedFrame)
  | checkProcessed (event : DetectionEvent)
  | sinking (event : DetectionEvent)
  | checkSent
deriving DecidableEq

/-- Where the main thread stands in `SignedWorkerRunner.run`. An exception on its way out is the
`raised` of the blocks it leaves. -/
inductive MainPhase where
  | entering
  | building
  | validating
  | openingSource
  | enteringHeartbeat
  | checkingStart
  | looping (point : LoopPoint)
  | stopping (raised : Bool)
  | joining (raised : Bool)
  | checkingStop
  | closingSource (raised : Bool)
  | degrading
  | closingTransport (raised : Bool)
  | finished (raised : Bool)
deriving DecidableEq

def Called.boundary {α : Type} : Called α → Boundary α
  | .raised => .raised
  | .returned value => .returned value

/-- What the main thread meets at the boundary of its step: every exception is an `Exception`. -/
structure MainMet where
  raises : Bool
  read : Option CapturedFrame
  frame : FrameCall
  utcClock : Called ClockValue
  transport : Called Unit

/-- What the runner does at its transport, and the failures that it records. -/
inductive RunnerEvent where
  | entered
  | heartbeat (heartbeat : NodeHeartbeat) (delivered : Bool)
  | detection (event : DetectionEvent)
  | failureRecorded
  | pipelineRaised
  | exited
deriving DecidableEq

/-- The local variables of the pipeline's `run`. -/
structure LoopState where
  pipeline : PipelineState
  bound : Option ℕ
  gate : SamplingGate
  emitted : ℕ

structure RunnerState where
  main : MainPhase
  maxEvents : MaxEvents
  loop : LoopState
  activity : HeartbeatActivity
  log : List RunnerEvent

/-- A step of one of the two threads. -/
inductive RunnerAction where
  | main (met : MainMet)
  | thread (met : ThreadMet)

/-- The loop goes on, is left at its end, or is left with an exception. -/
inductive LoopNext where
  | at (point : LoopPoint)
  | returned
  | raised

def LoopNext.main : LoopNext → MainPhase
  | .at point => .looping point
  | .returned => .stopping false
  | .raised => .stopping true

/-- The attempt that `_send` made, if it came as far as the transport. -/
def attempted (heartbeat : Option NodeHeartbeat) (transport : Boundary Unit) : List RunnerEvent :=
  heartbeat.toList.map (RunnerEvent.heartbeat · (transport = .returned ()))

namespace SignedWorkerRunner
variable (runner : SignedWorkerRunner)

def initial (state : PipelineState) (maxEvents : MaxEvents) : RunnerState :=
  ⟨.entering, maxEvents, ⟨state, none, .create runner.sampleFps, 0⟩, .initial, []⟩

/-- The frame that was read passes the gate and becomes an event. -/
def sample (met : MainMet) (loop : LoopState) (captured : CapturedFrame) : LoopState × LoopNext :=
  match loop.gate.accept captured.sampleTimeSeconds with
  | .error _ => (loop, .raised)
  | .ok (gate, false) => ({ loop with gate := gate }, .at .head)
  | .ok (gate, true) =>
    let frame := { met.frame with captured := some captured }
    match runner.pipeline.processFrame loop.pipeline frame with
    | (state, .error _) => ({ loop with gate := gate, pipeline := state }, .raised)
    | (state, .ok event) =>
      ({ loop with gate := gate, pipeline := state }, .at (.checkProcessed event))

/-- One step of the loop. Each `check` reads the flag at its own time. -/
def loopStep (met : MainMet) (failed : Bool) (loop : LoopState) :
    LoopPoint → LoopState × LoopNext × List RunnerEvent
  | .firstCheck => (loop, if failed then .raised else .at .head, [])
  | .head =>
    if PrivacyWorkerPipeline.mayEmit loop.emitted loop.bound then
      (loop, if failed then .raised else .at .reading, [])
    else (loop, .returned, [])
  | .reading => (loop, if met.raises then .raised else .at (.checkRead met.read), [])
  | .checkRead captured =>
    let next := captured.elim LoopNext.returned fun frame => .at (.sampling frame)
    (loop, if failed then .raised else next, [])
  | .sampling captured =>
    let (loop, next) := runner.sample met loop captured
    (loop, next, [])
  | .checkProcessed event => (loop, if failed then .raised else .at (.sinking event), [])
  | .sinking event =>
    if met.raises then (loop, .raised, [.detection event])
    else ({ loop with emitted := loop.emitted + 1 }, .at .checkSent, [.detection event])
  | .checkSent => (loop, if failed then .raised else .at .head, [])

/-- The pipeline's `run` leaves with an exception, which the runner catches. -/
def raised (s : RunnerState) : RunnerState :=
  { s with main := .degrading, log := s.log ++ [.pipelineRaised] }

/-- `__enter__` of the lifecycle up to its `check`. No other thread runs yet. -/
def enterHeartbeat (met : MainMet) (s : RunnerState) : RunnerState :=
  let utcClock := met.utcClock.boundary
  let transport := met.transport.boundary
  let (heartbeat, sent) := runner.lifecycle.send .healthy utcClock transport
  let s := { s with
    activity := s.activity.enter runner.lifecycle utcClock transport met.raises
    log := s.log ++ attempted heartbeat transport }
  match sent with
  | .error _ => { s with main := .closingSource true }
  | .ok () =>
    if met.raises then
      { s with main := .closingSource true, log := s.log ++ [.failureRecorded] }
    else { s with main := .checkingStart }

/-- `best_effort_degraded` -/
def degrade (met : MainMet) (s : RunnerState) : RunnerState :=
  if ¬ s.activity.started ∨ s.activity.flags.failure ∨ s.activity.degradedSent then
    { s with main := .closingTransport true }
  else
    let utcClock := met.utcClock.boundary
    let transport := met.transport.boundary
    let heartbeat := (runner.lifecycle.send .degraded utcClock transport).1
    { s with
      main := .closingTransport true
      activity := s.activity.step runner.lifecycle (.degraded utcClock transport)
      log := s.log ++ attempted heartbeat transport }

/-- One step of `SignedWorkerRunner.run`. A join waits until the heartbeat thread has ended. -/
def mainStep (met : MainMet) (s : RunnerState) : RunnerState :=
  let failed := s.activity.flags.failure
  match s.main with
  | .entering =>
    if met.raises then { s with main := .finished true }
    else { s with main := .building, log := s.log ++ [.entered] }
  | .building => { s with main := if met.raises then .closingTransport true else .validating }
  | .validating =>
    match s.maxEvents.bound? with
    | .error _ => raised s
    | .ok bound => { s with main := .openingSource, loop := { s.loop with bound := bound } }
  | .openingSource => if met.raises then raised s else { s with main := .enteringHeartbeat }
  | .enteringHeartbeat => runner.enterHeartbeat met s
  | .checkingStart =>
    { s with main := if failed then .closingSource true else .looping .firstCheck }
  | .looping point =>
    let (loop, next, events) := runner.loopStep met failed s.loop point
    { s with main := next.main, loop := loop, log := s.log ++ events }
  | .stopping raised =>
    { s with main := .joining raised, activity := s.activity.step runner.lifecycle .stop }
  | .joining raised =>
    match s.activity.thread with
    | .ended _ => { s with main := if raised then .closingSource true else .checkingStop }
    | _ => s
  | .checkingStop => { s with main := .closingSource failed }
  | .closingSource isRaised =>
    if isRaised || met.raises then raised s else { s with main := .closingTransport false }
  | .degrading => runner.degrade met s
  | .closingTransport raised =>
    { s with main := .finished (raised || met.raises), log := s.log ++ [.exited] }
  | .finished _ => s

/-- What a step of the heartbeat thread leaves in the log. -/
def threadEvents (met : ThreadMet) (activity : HeartbeatActivity) : List RunnerEvent :=
  if activity.thread = .failing then [.failureRecorded]
  else attempted (runner.lifecycle.runStep met activity.flags activity.thread).2.2 met.transport

def step (s : RunnerState) : RunnerAction → RunnerState
  | .main met => runner.mainStep met s
  | .thread met =>
    { s with
      activity := s.activity.step runner.lifecycle (.thread met)
      log := s.log ++ runner.threadEvents met s.activity }

/-- Any interleaving of the two threads from the call of `run`. -/
def run (state : PipelineState) (maxEvents : MaxEvents) (actions : List RunnerAction) :
    RunnerState := actions.foldl runner.step (runner.initial state maxEvents)

section Activity

/-- A step of the runner is a sequence of steps of its heartbeat activity. -/
theorem activity_step (s : RunnerState) (a : RunnerAction) :
    ∃ actions : List ActivityAction, (runner.step s a).activity =
      actions.foldl (HeartbeatActivity.step runner.lifecycle) s.activity := by
  cases a with
  | thread met => exact ⟨[.thread met], rfl⟩
  | main met =>
    show ∃ actions : List ActivityAction, (runner.mainStep met s).activity = _
    unfold mainStep
    cases s.main with
    | entering =>
      dsimp only
      split_ifs <;> exact ⟨[], rfl⟩
    | building => exact ⟨[], rfl⟩
    | validating =>
      dsimp only
      cases s.maxEvents.bound? <;> exact ⟨[], rfl⟩
    | openingSource =>
      dsimp only
      split_ifs <;> exact ⟨[], rfl⟩
    | enteringHeartbeat =>
      refine ⟨[.enter met.utcClock.boundary met.transport.boundary met.raises], ?_⟩
      dsimp only [enterHeartbeat]
      split
      · rfl
      · split_ifs <;> rfl
    | checkingStart => exact ⟨[], rfl⟩
    | looping point => exact ⟨[], rfl⟩
    | stopping raised => exact ⟨[.stop], rfl⟩
    | joining raised =>
      dsimp only
      cases s.activity.thread <;> exact ⟨[], rfl⟩
    | checkingStop => exact ⟨[], rfl⟩
    | closingSource raised =>
      dsimp only
      split_ifs <;> exact ⟨[], rfl⟩
    | degrading =>
      dsimp only [degrade]
      split_ifs
      · exact ⟨[], rfl⟩
      · exact ⟨[.degraded met.utcClock.boundary met.transport.boundary], rfl⟩
    | closingTransport raised => exact ⟨[], rfl⟩
    | finished raised => exact ⟨[], rfl⟩

/-- The activity inside a run of the runner is a run of the activity on its own. -/
theorem activity_run (state : PipelineState) (maxEvents : MaxEvents)
    (actions : List RunnerAction) :
    ∃ activityActions, (runner.run state maxEvents actions).activity =
      HeartbeatActivity.run runner.lifecycle activityActions := by
  induction actions using List.reverseRecOn with
  | nil => exact ⟨[], rfl⟩
  | append_singleton earlier a ih =>
    obtain ⟨before, hbefore⟩ := ih
    obtain ⟨after, hafter⟩ := runner.activity_step (runner.run state maxEvents earlier) a
    refine ⟨before ++ after, ?_⟩
    rw [HeartbeatActivity.run_append, ← hbefore, ← hafter, run, List.foldl_append]
    rfl

end Activity

section Turn

/-- The loop alone, with what its steps meet and what the flag reads at each of them. -/
def runLoop : List (MainMet × Bool) → LoopState → LoopPoint →
    LoopState × LoopNext × List RunnerEvent
  | [], loop, point => (loop, .at point, [])
  | (met, failed) :: steps, loop, point =>
    match runner.loopStep met failed loop point with
    | (loop, .at point, events) =>
      let rest := runLoop steps loop point
      (rest.1, rest.2.1, events ++ rest.2.2)
    | left => left

/-- What `check` gives for the flag. -/
def checked (failed : Bool) : Except WorkerFailure Unit :=
  if failed then .error (.pipeline ⟨"heartbeat activity failed"⟩) else .ok ()

/-- The round of the pipeline that consecutive steps of the loop make up. -/
def roundOf (met : ℕ → MainMet) (failed : ℕ → Bool) : Round where
  checkBefore := checked (failed 0)
  read := if (met 1).raises then .error .escaped else .ok (met 1).read
  checkRead := checked (failed 2)
  frame := (met 3).frame
  checkProcessed := checked (failed 4)
  sinkRaises := (met 5).raises
  checkSent := checked (failed 6)

/-- Where the loop stands after a round. -/
def nextOf : Except WorkerFailure RoundEnd → LoopNext
  | .error _ => .raised
  | .ok .finished => .returned
  | .ok (.skipped _) => .at .head
  | .ok (.emitted _) => .at .head

def sunkOf : RunEffect → Option RunnerEvent
  | .sunk event _ => some (.detection event)
  | _ => none

/-- What `k` consecutive steps meet, from the `n`-th on. -/
def stepsFrom (met : ℕ → MainMet) (failed : ℕ → Bool) (n k : ℕ) : List (MainMet × Bool) :=
  (List.range' n k).map fun i => (met i, failed i)

theorem stepsFrom_succ (met : ℕ → MainMet) (failed : ℕ → Bool) (n k : ℕ) :
    stepsFrom met failed n (k + 1) = (met n, failed n) :: stepsFrom met failed (n + 1) k := rfl

theorem stepsFrom_zero (met : ℕ → MainMet) (failed : ℕ → Bool) (n : ℕ) :
    stepsFrom met failed n 0 = [] := rfl

/-- From the accepted frame on, the loop emits as the pipeline does. -/
theorem runLoop_emit (met : ℕ → MainMet) (failed : ℕ → Bool) (loop : LoopState)
    (captured : CapturedFrame) {gate : SamplingGate}
    (hgate : loop.gate.accept captured.sampleTimeSeconds = .ok (gate, true)) :
    ∃ k, let ran := runner.pipeline.emit loop.pipeline gate (roundOf met failed) captured
      let left := runner.runLoop (stepsFrom met failed 3 (k + 1)) loop (.sampling captured)
      left.1.pipeline = ran.state ∧ left.2.1 = nextOf ran.outcome ∧
        left.2.2 = ran.effects.filterMap sunkOf := by
  unfold PrivacyWorkerPipeline.emit
  rcases hprocess : runner.pipeline.processFrame loop.pipeline
    { (met 3).frame with captured := some captured } with ⟨state, failure | event⟩
  · refine ⟨0, ?_⟩
    simp [stepsFrom_succ, runLoop, loopStep, sample, roundOf, nextOf, sunkOf, hgate, hprocess]
  · cases hprocessed : failed 4 with
    | true =>
      refine ⟨1, ?_⟩
      simp [stepsFrom_succ, runLoop, loopStep, sample, roundOf, checked, nextOf, sunkOf, hgate,
        hprocess, hprocessed]
    | false =>
      cases hsink : (met 5).raises with
      | true =>
        refine ⟨2, ?_⟩
        simp [stepsFrom_succ, runLoop, loopStep, sample, roundOf, checked, nextOf, sunkOf, hgate,
          hprocess, hprocessed, hsink, List.filterMap_cons]
      | false =>
        refine ⟨3, ?_⟩
        cases hsent : failed 6 <;>
          simp [stepsFrom_succ, stepsFrom_zero, runLoop, loopStep, sample, roundOf, checked,
            nextOf, sunkOf, hgate, hprocess, hprocessed, hsink, hsent, List.filterMap_cons]

/-- The steps of the loop from its head make up a turn of the pipeline. -/
theorem runLoop_turn (met : ℕ → MainMet) (failed : ℕ → Bool) (loop : LoopState)
    (hmay : PrivacyWorkerPipeline.mayEmit loop.emitted loop.bound = true) :
    ∃ k, let ran := runner.pipeline.turn loop.pipeline loop.gate (roundOf met failed)
      let left := runner.runLoop (stepsFrom met failed 0 (k + 1)) loop .head
      left.1.pipeline = ran.state ∧ left.2.1 = nextOf ran.outcome ∧
        left.2.2 = ran.effects.filterMap sunkOf := by
  unfold PrivacyWorkerPipeline.turn
  cases hbefore : failed 0 with
  | true =>
    refine ⟨0, ?_⟩
    simp [stepsFrom_succ, runLoop, loopStep, roundOf, checked, nextOf, hmay, hbefore]
  | false =>
    cases hraises : (met 1).raises with
    | true =>
      refine ⟨1, ?_⟩
      simp [stepsFrom_succ, runLoop, loopStep, roundOf, checked, nextOf, sunkOf, hmay, hbefore,
        hraises]
    | false =>
      cases hread : failed 2 with
      | true =>
        refine ⟨2, ?_⟩
        simp [stepsFrom_succ, runLoop, loopStep, roundOf, checked, nextOf, sunkOf, hmay, hbefore,
          hraises, hread]
      | false =>
        cases hcaptured : (met 1).read with
        | none =>
          refine ⟨2, ?_⟩
          simp [stepsFrom_succ, runLoop, loopStep, roundOf, checked, nextOf, sunkOf, hmay, hbefore,
            hraises, hread, hcaptured]
        | some captured =>
          rcases hgate : loop.gate.accept captured.sampleTimeSeconds with failure | ⟨gate, _ | _⟩
          · refine ⟨3, ?_⟩
            simp [stepsFrom_succ, runLoop, loopStep, sample, roundOf, checked, nextOf, sunkOf,
              hmay, hbefore, hraises, hread, hcaptured, hgate]
          · refine ⟨3, ?_⟩
            simp [stepsFrom_succ, stepsFrom_zero, runLoop, loopStep, sample, roundOf, checked,
              nextOf, sunkOf, hmay, hbefore, hraises, hread, hcaptured, hgate]
          · obtain ⟨k, hk⟩ := runner.runLoop_emit met failed loop captured hgate
            refine ⟨k + 3, ?_⟩
            simpa [stepsFrom_succ, runLoop, loopStep, roundOf, checked, hmay, hbefore, hraises,
              hread, hcaptured, hgate] using hk

end Turn

end SignedWorkerRunner

end SecureEdge
