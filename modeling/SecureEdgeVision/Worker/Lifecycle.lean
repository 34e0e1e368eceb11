import SecureEdgeVision.Contracts.Validate
import SecureEdgeVision.Worker.Run

/-! The heartbeat activity of a worker: a thread that sends heartbeats until it is stopped, and
the flag that reports its failure to the main thread. -/
namespace SecureEdge

open Binary64 (Finite)
open Python (Str)

/-- What an injected callable did: it returned, raised an `Exception`, or raised something
outside `Exception`. -/
inductive Boundary (α : Type) where
  | returned (value : α)
  | raised
  | interrupted
deriving DecidableEq

/-- What a UTC clock returned. The contract of a heartbeat also reads strings. -/
inductive ClockValue where
  | datetime (value : PyDatetime)
  | text (value : Str)
deriving DecidableEq

/-- The validation of `timestamp_utc`. -/
def ClockValue.timestamp? : ClockValue → Option UtcTimestamp
  | .datetime (.utc timestamp) => some timestamp
  | .datetime _ => none
  | .text value => validateUtcTimestamp (.string value)

/-- A `HeartbeatError`, another `Exception`, or something outside `Exception`. -/
inductive LifecycleFailure where
  | heartbeat (message : String)
  | ordinary
  | interrupted
deriving DecidableEq

/-- How `_run` ended: the wait function asked for it, a failure was recorded, or an exception
escaped the thread. -/
inductive ThreadEnd where
  | stopRequested
  | failureRecorded
  | escaped (failure : LifecycleFailure)
deriving DecidableEq

/-- Where the thread stands in `_run`. -/
inductive ThreadPhase where
  | unstarted
  | starting
  | waiting (previous : NonNegativeFloat)
  | reading (previous : NonNegativeFloat)
  | sending (current : NonNegativeFloat)
  | failing
  | stopping
  | ended (how : ThreadEnd)
deriving DecidableEq

/-- What the thread meets at its boundaries. The wait function may return no `bool`. -/
structure ThreadMet where
  monotonic : Boundary PyReal
  wait : Boundary (Option Bool)
  utcClock : Boundary ClockValue
  transport : Boundary Unit
deriving DecidableEq

/-- `_stop` and `_failure`, which both threads use. -/
structure HeartbeatFlags where
  stop : Bool
  failure : Bool
deriving DecidableEq

structure WorkerHeartbeatLifecycle where
  nodeId : Str

namespace WorkerHeartbeatLifecycle

/-- The sign check of a finite reading. -/
def finiteReading (x : Finite) : Except LifecycleFailure NonNegativeFloat :=
  if h : Finite.zero ≤ x then .ok ⟨x, h⟩
  else .error (.heartbeat "heartbeat monotonic clock is invalid")

/-- `float(value)` overflows outside the handler of the clock. -/
def floatReading (value : Option Finite) : Except LifecycleFailure NonNegativeFloat :=
  value.elim (.error .ordinary) finiteReading

/-- `_monotonic_value` -/
def monotonicValue (clock : Boundary PyReal) : Except LifecycleFailure NonNegativeFloat :=
  match clock with
  | .raised => .error (.heartbeat "heartbeat monotonic clock failed")
  | .interrupted => .error .interrupted
  | .returned .other => .error (.heartbeat "heartbeat monotonic clock is invalid")
  | .returned .nonFinite => .error (.heartbeat "heartbeat monotonic clock is invalid")
  | .returned (.float x) => floatReading (some x)
  | .returned (.int n) => floatReading (Binary64.ofInt n)

variable (lifecycle : WorkerHeartbeatLifecycle)

/-- `NodeHeartbeat(...)`, unless the validation fails. -/
def heartbeat? (status : HealthStatus) (value : ClockValue) : Option NodeHeartbeat := do
  let nodeId ← validateSafeIdentifier (.string lifecycle.nodeId)
  let timestampUtc ← value.timestamp?
  pure ⟨nodeId, timestampUtc, status⟩

/-- `_send`: the heartbeat that reached the transport, and how it went. -/
def send (status : HealthStatus) (utcClock : Boundary ClockValue) (transport : Boundary Unit) :
    Option NodeHeartbeat × Except LifecycleFailure Unit :=
  match utcClock with
  | .interrupted => (none, .error .interrupted)
  | .raised => (none, .error (.heartbeat "heartbeat delivery failed"))
  | .returned value =>
    match lifecycle.heartbeat? status value with
    | none => (none, .error (.heartbeat "heartbeat delivery failed"))
    | some heartbeat =>
      match transport with
      | .returned () => (some heartbeat, .ok ())
      | .raised => (some heartbeat, .error (.heartbeat "heartbeat delivery failed"))
      | .interrupted => (some heartbeat, .error .interrupted)

/-- `except Exception` in the loop of `_run`. -/
def caught : LifecycleFailure → ThreadPhase
  | .interrupted => .ended (.escaped .interrupted)
  | _ => .failing

/-- One step of `_run`, with the heartbeat that it attempted. -/
def runStep (met : ThreadMet) (flags : HeartbeatFlags) :
    ThreadPhase → HeartbeatFlags × ThreadPhase × Option NodeHeartbeat
  | .unstarted => (flags, .unstarted, none)
  | .starting =>
    -- This reading is outside the `try` of the loop.
    match monotonicValue met.monotonic with
    | .ok previous => (flags, .waiting previous, none)
    | .error failure => (flags, .ended (.escaped failure), none)
  | .waiting previous =>
    match met.wait with
    | .returned (some true) => (flags, .ended .stopRequested, none)
    | .returned (some false) => (flags, .reading previous, none)
    | .returned none => (flags, caught .ordinary, none)
    | .raised => (flags, caught .ordinary, none)
    | .interrupted => (flags, caught .interrupted, none)
  | .reading previous =>
    match monotonicValue met.monotonic with
    | .ok current =>
      if current.value < previous.value then (flags, caught .ordinary, none)
      else (flags, .sending current, none)
    | .error failure => (flags, caught failure, none)
  | .sending current =>
    match lifecycle.send .healthy met.utcClock met.transport with
    | (heartbeat, .ok ()) => (flags, .waiting current, heartbeat)
    | (heartbeat, .error failure) => (flags, caught failure, heartbeat)
  | .failing => ({ flags with failure := true }, .stopping, none)
  | .stopping => ({ flags with stop := true }, .ended .failureRecorded, none)
  | .ended how => (flags, .ended how, none)

end WorkerHeartbeatLifecycle

/-- A lifecycle with its thread. -/
structure HeartbeatActivity where
  flags : HeartbeatFlags
  started : Bool
  degradedSent : Bool
  thread : ThreadPhase
deriving DecidableEq

/-- A step of the main thread in one of the lifecycle's methods, or a step of the heartbeat
thread. The main thread may call the methods in any order. -/
inductive ActivityAction where
  | enter (utcClock : Boundary ClockValue) (transport : Boundary Unit) (startRaises : Bool)
  | stop
  | join (raises : Bool)
  | check
  | degraded (utcClock : Boundary ClockValue) (transport : Boundary Unit)
  | thread (met : ThreadMet)

namespace HeartbeatActivity

def initial : HeartbeatActivity := ⟨⟨false, false⟩, false, false, .unstarted⟩

/-- `check`. A `HeartbeatError` is a `WorkerPipelineError`. -/
def check (s : HeartbeatActivity) : Except WorkerPipelineError Unit :=
  if s.flags.failure then .error ⟨"heartbeat activity failed"⟩ else .ok ()

/-- `__enter__` up to its `check`. -/
def enter (lifecycle : WorkerHeartbeatLifecycle) (s : HeartbeatActivity)
    (utcClock : Boundary ClockValue) (transport : Boundary Unit) (startRaises : Bool) :
    HeartbeatActivity :=
  if s.started then s
  else
    match (lifecycle.send .healthy utcClock transport).2 with
    | .error _ => s
    | .ok () =>
      if startRaises then { s with flags := ⟨true, true⟩, started := true }
      else { s with started := true, thread := .starting }

def step (lifecycle : WorkerHeartbeatLifecycle) (s : HeartbeatActivity) :
    ActivityAction → HeartbeatActivity
  | .enter utcClock transport startRaises => s.enter lifecycle utcClock transport startRaises
  | .stop => { s with flags := { s.flags with stop := true } }
  | .join raises => { s with flags := { s.flags with failure := s.flags.failure || raises } }
  | .check => s
  | .degraded _ _ =>
    { s with degradedSent := s.degradedSent || s.started && !s.flags.failure }
  | .thread met =>
    let (flags, thread, _) := lifecycle.runStep met s.flags s.thread
    { s with flags := flags, thread := thread }

def run (lifecycle : WorkerHeartbeatLifecycle) (actions : List ActivityAction) :
    HeartbeatActivity := actions.foldl (step lifecycle) initial

variable (lifecycle : WorkerHeartbeatLifecycle)

/-- The thread is gone although the wait function never asked it to stop. -/
def Died (s : HeartbeatActivity) : Prop :=
  ∃ how, s.thread = .ended how ∧ how ≠ .stopRequested

/-- A thread that died raised the alarm: the next check raises, and the loop of the worker that
meets it emits nothing more. -/
def Alarmed (s : HeartbeatActivity) : Prop :=
  s.Died → s.flags.failure = true ∧
    s.check = .error ⟨"heartbeat activity failed"⟩ ∧
    ∀ (pipeline : PrivacyWorkerPipeline) bound state gate emitted round rounds,
      round.checkBefore = liftM s.check →
        (pipeline.loop bound state gate emitted (round :: rounds)).effects = []

/-- An exception escapes the thread at this step: its first clock reading fails, which is made
outside the `try`, or a boundary raises outside `Exception`. -/
def Escapes (s : HeartbeatActivity) : ActivityAction → Prop
  | .thread met =>
    match s.thread with
    | .starting => (WorkerHeartbeatLifecycle.monotonicValue met.monotonic).isOk = false
    | .waiting _ => met.wait = .interrupted
    | .reading _ => met.monotonic = .interrupted
    | .sending _ => met.utcClock = .interrupted ∨
        ∃ value, met.utcClock = .returned value ∧ lifecycle.heartbeat? .healthy value ≠ none ∧
          met.transport = .interrupted
    | _ => False
  | _ => False

end HeartbeatActivity

namespace WorkerHeartbeatLifecycle
variable {lifecycle : WorkerHeartbeatLifecycle}

theorem floatReading_ne_interrupted (value : Option Finite) :
    floatReading value ≠ .error .interrupted := by
  cases value with
  | none => rintro ⟨⟩
  | some x =>
    unfold floatReading
    rw [Option.elim_some, finiteReading]
    split_ifs <;> rintro ⟨⟩

theorem monotonicValue_interrupted {clock : Boundary PyReal} :
    monotonicValue clock = .error .interrupted ↔ clock = .interrupted := by
  unfold monotonicValue
  split
  · exact ⟨nofun, nofun⟩
  · exact ⟨fun _ => rfl, fun _ => rfl⟩
  · exact ⟨nofun, nofun⟩
  · exact ⟨nofun, nofun⟩
  · exact ⟨fun h => absurd h (floatReading_ne_interrupted _), nofun⟩
  · exact ⟨fun h => absurd h (floatReading_ne_interrupted _), nofun⟩

theorem send_interrupted (status : HealthStatus) {utcClock : Boundary ClockValue}
    {transport : Boundary Unit} :
    (lifecycle.send status utcClock transport).2 = .error .interrupted ↔
      utcClock = .interrupted ∨ ∃ value, utcClock = .returned value ∧
        lifecycle.heartbeat? status value ≠ none ∧ transport = .interrupted := by
  unfold send
  cases utcClock with
  | interrupted => exact ⟨fun _ => Or.inl rfl, fun _ => rfl⟩
  | raised => simp
  | returned value =>
    dsimp only
    cases hheartbeat : lifecycle.heartbeat? status value with
    | none => simp [hheartbeat]
    | some heartbeat => cases transport <;> simp [hheartbeat]

/-- A caught failure leads to the alarm unless it escapes. -/
theorem caught_cases (failure : LifecycleFailure) :
    failure = .interrupted ∧ caught failure = .ended (.escaped .interrupted) ∨
      failure ≠ .interrupted ∧ caught failure = .failing := by
  cases failure with
  | interrupted => exact Or.inl ⟨rfl, rfl⟩
  | heartbeat message => exact Or.inr ⟨nofun, rfl⟩
  | ordinary => exact Or.inr ⟨nofun, rfl⟩

theorem runStep_flags {met : ThreadMet} {flags : HeartbeatFlags} {phase : ThreadPhase}
    (hfailing : phase ≠ .failing) (hstopping : phase ≠ .stopping) :
    (lifecycle.runStep met flags phase).1 = flags := by
  unfold runStep
  cases phase with
  | unstarted => rfl
  | starting => dsimp only; split <;> rfl
  | waiting previous => dsimp only; split <;> rfl
  | reading previous =>
    dsimp only
    split
    · split_ifs <;> rfl
    · rfl
  | sending current => dsimp only; split <;> rfl
  | failing => exact absurd rfl hfailing
  | stopping => exact absurd rfl hstopping
  | ended how => rfl

theorem caught_ne_stopping (failure : LifecycleFailure) : caught failure ≠ .stopping := by
  rcases caught_cases failure with ⟨-, hc⟩ | ⟨-, hc⟩ <;> rw [hc] <;> nofun

/-- The thread is about to stop the activity only behind a record of the failure. -/
theorem runStep_stopping {met : ThreadMet} {flags : HeartbeatFlags} {phase : ThreadPhase}
    (h : (lifecycle.runStep met flags phase).2.1 = .stopping) :
    (lifecycle.runStep met flags phase).1.failure = true := by
  cases phase with
  | failing => rfl
  | unstarted => cases h
  | stopping => cases h
  | ended how => cases h
  | starting =>
    unfold runStep at h
    dsimp only at h
    split at h <;> cases h
  | waiting previous =>
    unfold runStep at h
    dsimp only at h
    split at h <;> cases h
  | reading previous =>
    unfold runStep at h
    dsimp only at h
    split at h
    · split at h
      · cases h
      · cases h
    · exact absurd h (caught_ne_stopping _)
  | sending current =>
    unfold runStep at h
    dsimp only at h
    split at h
    · cases h
    · exact absurd h (caught_ne_stopping _)

/-- The steps of the thread after which it is gone. -/
theorem runStep_ended {met : ThreadMet} {flags : HeartbeatFlags} {phase : ThreadPhase}
    {how : ThreadEnd} (h : (lifecycle.runStep met flags phase).2.1 = .ended how) :
    phase = .ended how ∨ how = .stopRequested ∨ phase = .stopping ∧ how = .failureRecorded ∨
      ∃ failure, how = .escaped failure := by
  have hcaught : ∀ {failure}, caught failure = .ended how → ∃ failure, how = .escaped failure := by
    intro failure hfailure
    rcases caught_cases failure with ⟨-, hc⟩ | ⟨-, hc⟩ <;> rw [hc] at hfailure
    · exact ⟨_, (ThreadPhase.ended.inj hfailure).symm⟩
    · cases hfailure
  cases phase with
  | unstarted => cases h
  | starting =>
    unfold runStep at h
    dsimp only at h
    split at h
    · cases h
    · exact Or.inr (Or.inr (Or.inr ⟨_, (ThreadPhase.ended.inj h).symm⟩))
  | waiting previous =>
    unfold runStep at h
    dsimp only at h
    split at h <;> dsimp only at h
    · exact Or.inr (Or.inl (ThreadPhase.ended.inj h).symm)
    · cases h
    · exact Or.inr (Or.inr (Or.inr (hcaught h)))
    · exact Or.inr (Or.inr (Or.inr (hcaught h)))
    · exact Or.inr (Or.inr (Or.inr (hcaught h)))
  | reading previous =>
    unfold runStep at h
    dsimp only at h
    split at h
    · split at h
      · dsimp only at h
        exact Or.inr (Or.inr (Or.inr (hcaught h)))
      · cases h
    · exact Or.inr (Or.inr (Or.inr (hcaught h)))
  | sending current =>
    unfold runStep at h
    dsimp only at h
    split at h
    · cases h
    · exact Or.inr (Or.inr (Or.inr (hcaught h)))
  | failing => cases h
  | stopping => exact Or.inr (Or.inr (Or.inl ⟨rfl, (ThreadPhase.ended.inj h).symm⟩))
  | ended how' => exact Or.inl h

end WorkerHeartbeatLifecycle

namespace HeartbeatActivity
variable {lifecycle : WorkerHeartbeatLifecycle} {s : HeartbeatActivity}

open WorkerHeartbeatLifecycle (caught caught_cases)

/-- The thread escapes exactly at the steps that let an exception out. -/
theorem escapes_iff {met : ThreadMet} (hrunning : ∀ how, s.thread ≠ .ended how) :
    Escapes lifecycle s (.thread met) ↔
      ∃ failure, (lifecycle.runStep met s.flags s.thread).2.1 = .ended (.escaped failure) := by
  have hcaught : ∀ failure, (∃ escaped, caught failure = .ended (.escaped escaped)) ↔
      failure = .interrupted := by
    intro failure
    rcases caught_cases failure with ⟨rfl, hc⟩ | ⟨hne, hc⟩ <;> rw [hc]
    · exact ⟨fun _ => rfl, fun _ => ⟨_, rfl⟩⟩
    · exact ⟨nofun, fun h => absurd h hne⟩
  unfold Escapes WorkerHeartbeatLifecycle.runStep
  cases hthread : s.thread with
  | unstarted => exact ⟨nofun, nofun⟩
  | starting =>
    dsimp only
    cases WorkerHeartbeatLifecycle.monotonicValue met.monotonic with
    | ok previous => exact ⟨nofun, nofun⟩
    | error failure => exact ⟨fun _ => ⟨failure, rfl⟩, fun _ => rfl⟩
  | waiting previous =>
    dsimp only
    rcases met.wait with (_ | _ | _) | _ | _
    · exact ⟨nofun, nofun⟩
    · exact ⟨nofun, nofun⟩
    · exact ⟨nofun, nofun⟩
    · exact ⟨nofun, nofun⟩
    · exact ⟨fun _ => ⟨_, rfl⟩, fun _ => rfl⟩
  | reading previous =>
    dsimp only
    rw [← WorkerHeartbeatLifecycle.monotonicValue_interrupted]
    cases WorkerHeartbeatLifecycle.monotonicValue met.monotonic with
    | ok current =>
      dsimp only
      split_ifs
      · exact ⟨nofun, nofun⟩
      · exact ⟨nofun, nofun⟩
    | error failure =>
      rw [Except.error.injEq, ← hcaught]
  | sending current =>
    dsimp only
    rw [← WorkerHeartbeatLifecycle.send_interrupted .healthy]
    rcases lifecycle.send .healthy met.utcClock met.transport with ⟨heartbeat, failure | u⟩
    · rw [Except.error.injEq, ← hcaught]
    · exact ⟨nofun, nofun⟩
  | failing => exact ⟨nofun, nofun⟩
  | stopping => exact ⟨nofun, nofun⟩
  | ended how => exact absurd hthread (hrunning how)

/-- Only the thread itself can end, and nothing takes the alarm back. -/
theorem step_frame (lifecycle : WorkerHeartbeatLifecycle) (s : HeartbeatActivity)
    (a : ActivityAction) :
    (s.flags.failure = true → (s.step lifecycle a).flags.failure = true) ∧
      ((∀ met, a ≠ .thread met) → (s.step lifecycle a).thread = s.thread ∨
        (s.step lifecycle a).thread = .starting) := by
  cases a with
  | enter utcClock transport startRaises =>
    unfold step enter
    dsimp only
    by_cases hstarted : s.started = true
    · rw [if_pos hstarted]
      exact ⟨id, fun _ => Or.inl rfl⟩
    · rw [if_neg hstarted]
      cases (lifecycle.send .healthy utcClock transport).2 with
      | error failure => exact ⟨id, fun _ => Or.inl rfl⟩
      | ok u =>
        cases startRaises with
        | true => exact ⟨fun _ => rfl, fun _ => Or.inl rfl⟩
        | false => exact ⟨id, fun _ => Or.inr rfl⟩
  | stop => exact ⟨id, fun _ => Or.inl rfl⟩
  | join raises => exact ⟨fun h => by simp [step, h], fun _ => Or.inl rfl⟩
  | check => exact ⟨id, fun _ => Or.inl rfl⟩
  | degraded utcClock transport => exact ⟨id, fun _ => Or.inl rfl⟩
  | thread met =>
    refine ⟨fun h => ?_, fun hne => absurd rfl (hne met)⟩
    show (lifecycle.runStep met s.flags s.thread).1.failure = true
    by_cases hfailing : s.thread = .failing
    · rw [hfailing]
      rfl
    by_cases hstopping : s.thread = .stopping
    · rw [hstopping]
      exact h
    rw [WorkerHeartbeatLifecycle.runStep_flags hfailing hstopping]
    exact h

/-- Behind the record of a failure the alarm is raised. -/
def Sound (s : HeartbeatActivity) : Prop :=
  (s.thread = .stopping ∨ s.Died) → s.flags.failure = true

theorem Sound.step (h : s.Sound) (a : ActivityAction)
    (hescapes : Escapes lifecycle s a → s.flags.failure = true) :
    (s.step lifecycle a).Sound := by
  obtain ⟨hkeeps, hthread⟩ := step_frame lifecycle s a
  by_cases hother : ∀ met, a ≠ .thread met
  · intro hgone
    rcases hthread hother with hsame | hstarting
    · unfold Died at hgone
      rw [hsame] at hgone
      exact hkeeps (h hgone)
    · unfold Died at hgone
      rw [hstarting] at hgone
      rcases hgone with hstop | ⟨how, hended, -⟩
      · cases hstop
      · cases hended
  obtain ⟨met, hmet⟩ := not_forall.mp hother
  obtain rfl := not_not.mp hmet
  intro hgone
  by_cases hended : ∃ how, s.thread = .ended how
  · obtain ⟨how, hended⟩ := hended
    have hsame : s.step lifecycle (.thread met) = s := by
      unfold HeartbeatActivity.step
      rw [hended]
      show ({ s with thread := .ended how } : HeartbeatActivity) = s
      rw [← hended]
    rw [hsame] at hgone ⊢
    exact h hgone
  have hrunning : ∀ how, s.thread ≠ .ended how := fun how hhow => hended ⟨how, hhow⟩
  rcases hgone with hstop | ⟨how, hhow, hne⟩
  · exact WorkerHeartbeatLifecycle.runStep_stopping hstop
  · rcases WorkerHeartbeatLifecycle.runStep_ended hhow with
      hsame | rfl | ⟨hstopping, -⟩ | ⟨failure, rfl⟩
    · exact absurd hsame (hrunning how)
    · exact absurd rfl hne
    · exact hkeeps (h (Or.inl hstopping))
    · exact hkeeps (hescapes ((escapes_iff hrunning).mpr ⟨failure, hhow⟩))

theorem check_of_failure (h : s.flags.failure = true) :
    s.check = .error ⟨"heartbeat activity failed"⟩ := if_pos h

theorem Sound.alarmed (h : s.Sound) : s.Alarmed := by
  intro hdied
  have hfailure : s.flags.failure = true := h (Or.inr hdied)
  refine ⟨hfailure, check_of_failure hfailure, ?_⟩
  intro pipeline bound state gate emitted round rounds hround
  rw [check_of_failure hfailure] at hround
  exact pipeline.loop_of_checkBefore hround bound state gate emitted rounds

/-- An exception that escapes a thread without a recorded failure is lost. -/
theorem not_alarmed_of_escapes {a : ActivityAction} (h : Escapes lifecycle s a)
    (hfailure : s.flags.failure = false) : ¬ (s.step lifecycle a).Alarmed := by
  cases a with
  | thread met =>
    have hrunning : ∀ how, s.thread ≠ .ended how := by
      intro how hhow
      unfold Escapes at h
      rw [hhow] at h
      exact h
    obtain ⟨failure, hended⟩ := (escapes_iff hrunning).mp h
    have hflags : (lifecycle.runStep met s.flags s.thread).1 = s.flags := by
      apply WorkerHeartbeatLifecycle.runStep_flags <;> intro hphase <;> rw [hphase] at hended <;>
        cases hended
    intro halarmed
    have hraised : (lifecycle.runStep met s.flags s.thread).1.failure = true :=
      (halarmed ⟨.escaped failure, hended, nofun⟩).1
    rw [hflags, hfailure] at hraised
    cases hraised
  | enter utcClock transport startRaises => exact h.elim
  | stop => exact h.elim
  | join raises => exact h.elim
  | check => exact h.elim
  | degraded utcClock transport => exact h.elim

theorem run_append (before after : List ActivityAction) :
    run lifecycle (before ++ after) = after.foldl (step lifecycle) (run lifecycle before) :=
  List.foldl_append

theorem run_concat (before : List ActivityAction) (a : ActivityAction) :
    run lifecycle (before ++ [a]) = (run lifecycle before).step lifecycle a :=
  run_append before [a]

/-- Every state of a run in which no exception is lost is sound. -/
theorem sound_run (actions : List ActivityAction)
    (h : ∀ before a after, actions = before ++ a :: after →
      Escapes lifecycle (run lifecycle before) a → (run lifecycle before).flags.failure = true) :
    (run lifecycle actions).Sound := by
  induction actions using List.reverseRecOn with
  | nil =>
    intro hgone
    rcases hgone with hstop | ⟨how, hended, -⟩
    · cases hstop
    · cases hended
  | append_singleton before a ih =>
    rw [run_concat]
    apply Sound.step
    · apply ih
      intro earlier b later hsplit
      apply h earlier b (later ++ [a])
      rw [hsplit, List.append_assoc, List.cons_append]
    · exact h before a [] rfl

/-- The heartbeat thread never dies silently in a run exactly if each exception that escapes it
finds a failure already recorded. -/
theorem thread_death_alarmed_iff (lifecycle : WorkerHeartbeatLifecycle)
    (actions : List ActivityAction) :
    (∀ before after, actions = before ++ after → (run lifecycle before).Alarmed) ↔
      ∀ before a after, actions = before ++ a :: after →
        Escapes lifecycle (run lifecycle before) a →
          (run lifecycle before).flags.failure = true := by
  constructor
  · intro halarmed before a after hsplit hescapes
    by_contra hfailure
    apply not_alarmed_of_escapes hescapes (eq_false_of_ne_true hfailure)
    rw [← run_concat]
    apply halarmed _ after
    rw [hsplit, List.append_assoc, List.singleton_append]
  · intro hkept before after hsplit
    apply Sound.alarmed
    apply sound_run
    intro earlier a later hearlier
    apply hkept earlier a (later ++ after)
    rw [hsplit, hearlier, List.append_assoc, List.cons_append]

/-- A first reading of the clock that raises kills the thread unnoticed: `check` passes. -/
theorem thread_death_unnoticed :
    let now : UtcTimestamp := ⟨⟨63893000000000000, by decide⟩, .utc⟩
    let met : ThreadMet := ⟨.raised, .raised, .raised, .raised⟩
    let s := run ⟨Str.ofString "edge-1"⟩
      [.enter (.returned (.datetime (.utc now))) (.returned ()) false, .thread met]
    s.Died ∧ s.flags.failure = false ∧ s.check = .ok () := by
  refine ⟨⟨.escaped (.heartbeat "heartbeat monotonic clock failed"), ?_, nofun⟩, ?_, ?_⟩
  · decide
  · decide
  · decide

end HeartbeatActivity

end SecureEdge
