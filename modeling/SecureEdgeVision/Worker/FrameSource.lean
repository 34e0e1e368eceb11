import SecureEdgeVision.Runs.Custody
import SecureEdgeVision.Worker.Cadence

/-! The local frame source: which capture it holds, what it calls on captures, and what its calls
return. What the file system, OpenCV and the clock do is part of a call. -/
namespace SecureEdge

open Binary64 (Finite)
open Runs (Handling)

/-- The source argument that `__init__` let through. -/
inductive LocalSource where
  | camera (index : ℕ)
  | file (path : String)
deriving DecidableEq

structure OpenCvFrameSource where
  source : LocalSource
  hasCaptureFactory : Bool
  fpsProperty : Option ℤ
  frameCountProperty : Option ℤ

/-- The fields that calls change. A capture is named by how many the factory returned before it. -/
structure SourceState where
  capture : Option ℕ
  sourceFps : Option SourceFps
  expectedFrames : Option ℕ
  frameIndex : ℕ
  created : ℕ

def SourceState.initial : SourceState := ⟨none, none, none, 0, 0⟩

/-- One call of `__enter__`: what `is_file`, the import of OpenCV, the factory, `isOpened`, and
`float(get(..))` of the rate and of the frame count do, in order. What a quiet release does changes
nothing. -/
structure EnterCall where
  isFile : Called Bool
  openCv : Called (ℤ × ℤ)
  factory : Called Unit
  isOpened : Called Bool
  fps : Called (Option Finite)
  frameCount : Called (Option Finite)

/-- One call of `read`: the clock, what the capture decoded and whether it has a frame, and the
clock again. -/
structure ReadCall where
  started : Called PyReal
  decoded : Called (Bool × Bool)
  finished : Called PyReal

inductive SourceCall where
  | enter (call : EnterCall)
  | read (call : ReadCall)
  | close (release : Called Unit)
  | exit (raising : Bool) (release : Called Unit)

inductive SourceAnswer where
  | entered
  | frame (captured : CapturedFrame)
  | endOfFile
  | closed
  | left

/-- The state after a call, what it did with captures (`isOpened`, `get` and `read` use one), and
its answer. -/
structure Stepped where
  state : SourceState
  effects : List Handling
  answer : Except WorkerFailure SourceAnswer

structure SourceRecord where
  call : SourceCall
  effects : List Handling
  answer : Except WorkerFailure SourceAnswer

def Stepped.fail (state : SourceState) (effects : List Handling) (message : String) : Stepped :=
  ⟨state, effects, .error (.pipeline ⟨message⟩)⟩

/-- `_optional_positive_capture_value` -/
def optionalPositiveCaptureValue (property : Option ℤ) (value : Called (Option Finite)) :
    Option SourceFps :=
  match property, value with
  | some _, .returned (some x) => if h : Finite.zero < x then some ⟨x, h⟩ else none
  | _, _ => none

/-- `math.ceil` of a positive value. -/
def ceil (x : SourceFps) : ℕ :=
  (x.value.magnitude + (Binary64.unitsPerOne - 1)) / Binary64.unitsPerOne

/-- The query of a property, which is made only when there is one. -/
def queries (property : Option ℤ) (capture : ℕ) : List Handling :=
  if property.isSome then [.use capture] else []

namespace OpenCvFrameSource
variable (source : OpenCvFrameSource)

/-- The checks before the capture factory is chosen. -/
def checkPath (call : EnterCall) : Except WorkerPipelineError Unit :=
  match source.source with
  | .camera _ => .ok ()
  | .file _ =>
    match call.isFile with
    | .returned true => .ok ()
    | _ => .error ⟨"local media source is unavailable"⟩

/-- The properties asked for, after OpenCV is imported when no factory is given. -/
def properties (call : EnterCall) : Except WorkerPipelineError (Option ℤ × Option ℤ) :=
  if source.hasCaptureFactory then .ok (source.fpsProperty, source.frameCountProperty)
  else
    match call.openCv with
    | .raised => .error ⟨"OpenCV frame acquisition is unavailable"⟩
    | .returned (fps, frameCount) => .ok (some fps, some frameCount)

/-- The frame count that a file declares when it is opened. -/
def declaredFrames (call : EnterCall) : Option ℕ :=
  match source.properties call with
  | .error _ => none
  | .ok (_, frameCount) => (optionalPositiveCaptureValue frameCount call.frameCount).map ceil

/-- `__enter__` from the call of the factory on. -/
def openCapture (state : SourceState) (call : EnterCall)
    (fpsProperty frameCountProperty : Option ℤ) : Stepped :=
  match call.factory with
  | .raised => .fail state [] "local frame source could not be opened"
  | .returned () =>
    let capture := state.created
    let state := { state with created := state.created + 1 }
    match call.isOpened with
    | .returned true =>
      let state := { state with capture := some capture, frameIndex := 0 }
      match source.source with
      | .camera _ => ⟨state, [.acquire capture, .use capture], .ok .entered⟩
      | .file _ =>
        ⟨{ state with
            sourceFps := optionalPositiveCaptureValue fpsProperty call.fps
            expectedFrames :=
              (optionalPositiveCaptureValue frameCountProperty call.frameCount).map ceil },
          [.acquire capture, .use capture] ++ queries fpsProperty capture ++
            queries frameCountProperty capture,
          .ok .entered⟩
    | _ =>
      .fail state [.acquire capture, .use capture, .release capture]
        "local frame source could not be opened"

/-- `__enter__` -/
def enter (state : SourceState) (call : EnterCall) : Stepped :=
  if state.capture.isSome then .fail state [] "local frame source is already open"
  else
    match source.checkPath call with
    | .error e => ⟨state, [], .error (.pipeline e)⟩
    | .ok () =>
      match source.properties call with
      | .error e => ⟨state, [], .error (.pipeline e)⟩
      | .ok (fpsProperty, frameCountProperty) =>
        source.openCapture state call fpsProperty frameCountProperty

/-- `decoded, frame = capture.read()`, as whether each of them is there. -/
def captureRead (decoded : Called (Bool × Bool)) : Except WorkerPipelineError (Bool × Bool) :=
  match decoded with
  | .raised => .error ⟨"local frame acquisition failed"⟩
  | .returned result => .ok result

/-- The sample time of the next frame, which may fail to be computed. -/
def sampleTime (state : SourceState) (finished : NonNegativeFloat) : Except WorkerFailure PyReal :=
  match state.sourceFps with
  | none => .ok (.float finished.value)
  | some fps => (frameTime fps state.frameIndex).elim (.error .escaped) .ok

/-- What `read` makes of a capture that decoded nothing. -/
def decodedNothing (state : SourceState) : Except WorkerPipelineError Unit :=
  match source.source with
  | .camera _ => .error ⟨"local camera frame acquisition failed"⟩
  | .file _ =>
    require (state.expectedFrames.all (· ≤ state.frameIndex) = true)
      "local media ended before its declared frame count"

/-- `read` from what the capture decoded on. -/
def decode (state : SourceState) (call : ReadCall) (started : NonNegativeFloat) :
    Except WorkerFailure (Option CapturedFrame) := do
  let (decoded, present) ← captureRead call.decoded
  let finished ← monotonicValue call.finished "local source clock"
  let decodeMs ← elapsedMs started finished "local frame decode timing"
  if decoded then
    let _ ← require (present = true) "local frame acquisition returned no frame"
    let sampleTimeSeconds ← sampleTime state finished
    pure (some ⟨.float decodeMs.value, sampleTimeSeconds⟩)
  else
    let _ ← source.decodedNothing state
    pure none

/-- `read` -/
def read (state : SourceState) (call : ReadCall) : Stepped :=
  match state.capture with
  | none => .fail state [] "local frame source is not open"
  | some capture =>
    match monotonicValue call.started "local source clock" with
    | .error e => ⟨state, [], .error (.pipeline e)⟩
    | .ok started =>
      match source.decode state call started with
      | .error e => ⟨state, [.use capture], .error e⟩
      | .ok none => ⟨state, [.use capture], .ok .endOfFile⟩
      | .ok (some captured) =>
        ⟨{ state with frameIndex := state.frameIndex + 1 }, [.use capture], .ok (.frame captured)⟩

end OpenCvFrameSource

/-- `close` -/
def SourceState.close (state : SourceState) (release : Called Unit) : Stepped :=
  match state.capture with
  | none => ⟨state, [], .ok .closed⟩
  | some capture =>
    let closed := { state with capture := none }
    match release with
    | .raised => .fail closed [.release capture] "local frame source could not be released"
    | .returned () => ⟨closed, [.release capture], .ok .closed⟩

/-- `__exit__`: an error of `close` is raised only when no other exception is on its way. -/
def SourceState.exit (state : SourceState) (raising : Bool) (release : Called Unit) : Stepped :=
  let closed := state.close release
  match closed.answer with
  | .error (.pipeline e) =>
    if raising then { closed with answer := .ok .left }
    else { closed with answer := .error (.pipeline e) }
  | .error .escaped => { closed with answer := .error .escaped }
  | .ok _ => { closed with answer := .ok .left }

namespace OpenCvFrameSource
variable (source : OpenCvFrameSource)

/-- One call on the source. -/
def step (state : SourceState) : SourceCall → Stepped
  | .enter call => source.enter state call
  | .read call => source.read state call
  | .close release => state.close release
  | .exit raising release => state.exit raising release

/-- The source as a machine that answers calls and keeps a record of them. -/
def machine (state : SourceState) (call : SourceCall) : SourceState × SourceRecord :=
  let stepped := source.step state call
  (stepped.state, ⟨call, stepped.effects, stepped.answer⟩)

/-- The state after some calls on a new source. -/
def after (calls : List SourceCall) : SourceState := (Runs.run source.machine .initial calls).1

/-- The record of the calls, in order. -/
def history (calls : List SourceCall) : List SourceRecord :=
  (Runs.run source.machine .initial calls).2

/-- What the calls did with captures, in order. -/
def handlings (calls : List SourceCall) : List Handling :=
  (source.history calls).flatMap SourceRecord.effects

end OpenCvFrameSource

end SecureEdge
