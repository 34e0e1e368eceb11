import SecureEdgeVision.Runs.Serial
import SecureEdgeVision.Worker.Runner

/-! The order of a worker's deliveries, along every interleaving of its two threads. -/
namespace SecureEdge

open Runs (Guarded)

namespace RunnerEvent

/-- A call of `send_heartbeat` or `send_detection`. -/
def isAttempt : RunnerEvent → Bool
  | .heartbeat _ _ => true
  | .detection _ => true
  | _ => false

def isDegraded : RunnerEvent → Bool
  | .heartbeat sent _ => sent.status = .degraded
  | _ => false

variable {before log : List RunnerEvent} {e : RunnerEvent}

/-- The transport is open after these events. -/
def Opened (before : List RunnerEvent) : Prop := .entered ∈ before ∧ .exited ∉ before

/-- The first attempt was a healthy heartbeat, and it was delivered. -/
def InitialDelivered (before : List RunnerEvent) : Prop :=
  ∃ sent : NodeHeartbeat, sent.status = .healthy ∧
    before.find? isAttempt = some (.heartbeat sent true)

/-- What may follow the events so far. -/
def Allowed (before : List RunnerEvent) : RunnerEvent → Prop
  | .heartbeat sent _ =>
    Opened before ∧ before.any isDegraded = false ∧
      (sent.status = .healthy ∨ sent.status = .degraded ∧ .pipelineRaised ∈ before ∧
        InitialDelivered before ∧ .failureRecorded ∉ before)
  | .detection _ =>
    Opened before ∧ before.any isDegraded = false ∧ InitialDelivered before
  | .failureRecorded => before.any isDegraded = false
  | _ => True

theorem find?_concat (hfirst : before.find? isAttempt = none) :
    (before ++ [e]).find? isAttempt = [e].find? isAttempt := by
  rw [List.find?_append, hfirst, Option.none_or]

theorem InitialDelivered.append (h : InitialDelivered before) (after : List RunnerEvent) :
    InitialDelivered (before ++ after) := by
  obtain ⟨sent, hhealthy, hfirst⟩ := h
  refine ⟨sent, hhealthy, ?_⟩
  rw [List.find?_append, hfirst, Option.some_or]

/-- An attempt is allowed only on an open transport and before any degraded heartbeat. -/
theorem Allowed.attempt (h : Allowed before e) (hattempt : e.isAttempt = true) :
    Opened before ∧ before.any isDegraded = false := by
  cases e with
  | heartbeat sent delivered => exact ⟨h.1, h.2.1⟩
  | detection event => exact ⟨h.1, h.2.1⟩
  | entered => cases hattempt
  | failureRecorded => cases hattempt
  | pipelineRaised => cases hattempt
  | exited => cases hattempt

theorem any_isDegraded_eq_false_of_first (h : log.find? isAttempt = none) :
    log.any isDegraded = false := by
  rw [List.any_eq_false]
  intro e he hdegraded
  have hnone := List.find?_eq_none.mp h e he
  cases e with
  | heartbeat sent delivered => exact hnone rfl
  | detection event => cases hdegraded
  | entered => cases hdegraded
  | failureRecorded => cases hdegraded
  | pipelineRaised => cases hdegraded
  | exited => cases hdegraded

end RunnerEvent

/-- The thread may still attempt a heartbeat or record a failure. -/
def ThreadPhase.live : ThreadPhase → Bool
  | .starting => true
  | .waiting _ => true
  | .reading _ => true
  | .sending _ => true
  | .failing => true
  | _ => false

/-- How far the run has come: before the transport, before the heartbeat activity, beside it,
after it, at the exit of the transport, and at its end. -/
def MainPhase.stage : MainPhase → ℕ
  | .entering => 0
  | .building => 1
  | .validating => 1
  | .openingSource => 1
  | .enteringHeartbeat => 1
  | .checkingStart => 2
  | .looping _ => 2
  | .stopping _ => 2
  | .joining _ => 2
  | .checkingStop => 3
  | .closingSource _ => 3
  | .degrading => 3
  | .closingTransport _ => 4
  | .finished _ => 5

namespace WorkerHeartbeatLifecycle
variable {lifecycle : WorkerHeartbeatLifecycle}

theorem send_status {status : HealthStatus} {utcClock : Boundary ClockValue}
    {transport : Boundary Unit} {heartbeat : NodeHeartbeat}
    (h : (lifecycle.send status utcClock transport).1 = some heartbeat) :
    heartbeat.status = status := by
  unfold send at h
  cases utcClock with
  | interrupted => cases h
  | raised => cases h
  | returned value =>
    dsimp only at h
    cases hvalue : lifecycle.heartbeat? status value with
    | none =>
      rw [hvalue] at h
      cases h
    | some valid =>
      rw [hvalue] at h
      have hvalid : valid = heartbeat := by
        cases transport <;> exact Option.some.inj h
      rw [← hvalid]
      unfold heartbeat? at hvalue
      obtain ⟨nodeId, -, hrest⟩ := Option.bind_eq_some_iff.mp hvalue
      obtain ⟨timestampUtc, -, hrest⟩ := Option.bind_eq_some_iff.mp hrest
      rw [← Option.some.inj hrest]

theorem send_delivered {status : HealthStatus} {utcClock : Boundary ClockValue}
    {transport : Boundary Unit} (h : (lifecycle.send status utcClock transport).2 = .ok ()) :
    ∃ heartbeat, (lifecycle.send status utcClock transport).1 = some heartbeat ∧
      transport = .returned () := by
  unfold send at h ⊢
  cases utcClock with
  | interrupted => cases h
  | raised => cases h
  | returned value =>
    dsimp only at h ⊢
    cases hvalue : lifecycle.heartbeat? status value with
    | none =>
      rw [hvalue] at h
      cases h
    | some heartbeat =>
      rw [hvalue] at h
      cases transport with
      | raised => cases h
      | interrupted => cases h
      | returned u => exact ⟨heartbeat, rfl, rfl⟩

theorem runStep_heartbeat {met : ThreadMet} {flags : HeartbeatFlags} {phase : ThreadPhase}
    {heartbeat : NodeHeartbeat} (h : (lifecycle.runStep met flags phase).2.2 = some heartbeat) :
    phase.live = true ∧ heartbeat.status = .healthy := by
  unfold runStep at h
  cases phase with
  | unstarted => cases h
  | starting =>
    dsimp only at h
    split at h <;> cases h
  | waiting previous =>
    dsimp only at h
    split at h <;> cases h
  | reading previous =>
    dsimp only at h
    split at h
    · split at h <;> cases h
    · cases h
  | sending current =>
    have hsent : (lifecycle.send .healthy met.utcClock met.transport).1 = some heartbeat := by
      dsimp only at h
      split at h <;> rename_i hsend <;> rw [hsend] <;> exact h
    exact ⟨rfl, send_status hsent⟩
  | failing => cases h
  | stopping => cases h
  | ended how => cases h

/-- A thread that is not alive stays so and leaves the alarm as it is. -/
theorem runStep_not_live {met : ThreadMet} {flags : HeartbeatFlags} {phase : ThreadPhase}
    (h : phase.live = false) :
    (lifecycle.runStep met flags phase).2.1.live = false ∧
      (lifecycle.runStep met flags phase).1.failure = flags.failure := by
  cases phase with
  | unstarted => exact ⟨rfl, rfl⟩
  | stopping => exact ⟨rfl, rfl⟩
  | ended how => exact ⟨rfl, rfl⟩
  | starting => cases h
  | waiting previous => cases h
  | reading previous => cases h
  | sending current => cases h
  | failing => cases h

end WorkerHeartbeatLifecycle

namespace RunnerState
variable {s : RunnerState}

open RunnerEvent (Allowed InitialDelivered Opened isAttempt isDegraded)

/-- The invariant of both threads. Only beside the activity is the heartbeat thread alive, and
its alarm is the last thing it raises. -/
structure Inv (s : RunnerState) : Prop where
  guarded : Guarded Allowed s.log
  entered : 1 ≤ s.main.stage → s.main.stage ≤ 4 → .entered ∈ s.log
  exited : s.main.stage ≤ 4 → .exited ∉ s.log
  fresh : s.main.stage ≤ 1 → s.log.find? isAttempt = none ∧ s.activity.started = false ∧
    s.activity.flags.failure = false
  delivered : s.activity.started = true → InitialDelivered s.log
  beside : s.main.stage = 2 → s.activity.started = true
  live : s.activity.thread.live = true → s.main.stage = 2 ∧ s.activity.flags.failure = false
  recorded : .failureRecorded ∈ s.log ↔ s.activity.flags.failure = true
  degraded : s.log.any isDegraded = true → 4 ≤ s.main.stage
  raised : s.main = .degrading → .pipelineRaised ∈ s.log

theorem Inv.opened (h : s.Inv) (hlow : 1 ≤ s.main.stage) (hhigh : s.main.stage ≤ 4) :
    Opened s.log := ⟨h.entered hlow hhigh, h.exited hhigh⟩

theorem Inv.not_degraded (h : s.Inv) (hstage : s.main.stage < 4) :
    s.log.any isDegraded = false := by
  by_contra hdegraded
  have := h.degraded (eq_true_of_ne_false hdegraded)
  omega

/-- The main thread goes on, and leaves no live thread behind. -/
theorem Inv.move (h : s.Inv) {main : MainPhase} (loop : LoopState)
    (hle : s.main.stage ≤ main.stage)
    (hentered : 1 ≤ main.stage → main.stage ≤ 4 → .entered ∈ s.log)
    (hbeside : main.stage = 2 → s.main.stage = 2)
    (hlive : s.activity.thread.live = true → main.stage = 2)
    (hraised : main = .degrading → .pipelineRaised ∈ s.log) :
    Inv { s with main := main, loop := loop } where
  guarded := h.guarded
  entered := hentered
  exited hhigh := h.exited (hle.trans hhigh)
  fresh hlow := h.fresh (hle.trans hlow)
  delivered := h.delivered
  beside hstage := h.beside (hbeside hstage)
  live hthread := ⟨hlive hthread, (h.live hthread).2⟩
  recorded := h.recorded
  degraded hdegraded := (h.degraded hdegraded).trans hle
  raised := hraised

/-- Away from the activity the heartbeat thread is not alive. -/
theorem Inv.not_live (h : s.Inv) (hstage : s.main.stage ≠ 2) :
    s.activity.thread.live = false := by
  by_contra hlive
  exact hstage (h.live (eq_true_of_ne_false hlive)).1

/-- A move away from the activity, without a live thread. -/
theorem Inv.moveAway (h : s.Inv) {main : MainPhase} (loop : LoopState) (hlow : 1 ≤ s.main.stage)
    (hle : s.main.stage ≤ main.stage) (hlive : s.activity.thread.live = false)
    (hbeside : main.stage ≠ 2) (hdegrading : main ≠ .degrading) :
    Inv { s with main := main, loop := loop } := by
  apply h.move loop hle
  · exact fun _ hhigh => h.entered hlow (hle.trans hhigh)
  · exact fun hstage => absurd hstage hbeside
  · rw [hlive]
    nofun
  · exact fun hmain => absurd hmain hdegrading

/-- A move beside the activity. -/
theorem Inv.moveBeside (h : s.Inv) {main : MainPhase} (loop : LoopState)
    (hstage : s.main.stage = 2) (hmain : main.stage = 2) :
    Inv { s with main := main, loop := loop } := by
  apply h.move loop
  · rw [hstage, hmain]
  · exact fun _ _ => h.entered (by omega) (by omega)
  · exact fun _ => hstage
  · exact fun _ => hmain
  · intro hdegrading
    rw [hdegrading] at hmain
    cases hmain

/-- The log grows by an event that is allowed. -/
theorem Inv.append (h : s.Inv) {e : RunnerEvent} (hallowed : Allowed s.log e)
    (hexited : e = .exited → s.main.stage = 5) (hrecorded : e ≠ .failureRecorded)
    (hattempt : s.main.stage ≤ 1 → e.isAttempt = false)
    (hdegraded : e.isDegraded = true → 4 ≤ s.main.stage) :
    Inv { s with log := s.log ++ [e] } where
  guarded := Runs.guarded_concat.mpr ⟨h.guarded, hallowed⟩
  entered hlow hhigh := List.mem_append_left _ (h.entered hlow hhigh)
  exited hhigh hmem := by
    rcases List.mem_append.mp hmem with hlog | he
    · exact h.exited hhigh hlog
    · have hstage := hexited (List.mem_singleton.mp he).symm
      change s.main.stage ≤ 4 at hhigh
      omega
  fresh hlow := by
    obtain ⟨hfirst, hquiet⟩ := h.fresh hlow
    refine ⟨?_, hquiet⟩
    show (s.log ++ [e]).find? isAttempt = none
    rw [RunnerEvent.find?_concat hfirst, List.find?_singleton, hattempt hlow]
    rfl
  delivered hstarted := (h.delivered hstarted).append [e]
  beside := h.beside
  live := h.live
  recorded := by
    show .failureRecorded ∈ s.log ++ [e] ↔ _
    rw [List.mem_append, List.mem_singleton, or_iff_left hrecorded.symm]
    exact h.recorded
  degraded hany := by
    change (s.log ++ [e]).any isDegraded = true at hany
    rw [List.any_append, Bool.or_eq_true] at hany
    rcases hany with hlog | he
    · exact h.degraded hlog
    · exact hdegraded (by simpa using he)
  raised hmain := List.mem_append_left _ (h.raised hmain)

/-- The activity changes in nothing that the run relies on. -/
theorem Inv.activity (h : s.Inv) {activity : HeartbeatActivity}
    (hstarted : activity.started = s.activity.started)
    (hfailure : activity.flags.failure = s.activity.flags.failure)
    (hlive : activity.thread.live = true → s.activity.thread.live = true) :
    Inv { s with activity := activity } where
  guarded := h.guarded
  entered := h.entered
  exited := h.exited
  fresh hlow := by
    show _ ∧ activity.started = false ∧ activity.flags.failure = false
    rw [hstarted, hfailure]
    exact h.fresh hlow
  delivered hactivity := h.delivered (hstarted ▸ hactivity)
  beside hstage := hstarted.trans (h.beside hstage)
  live hthread := ⟨(h.live (hlive hthread)).1, hfailure.trans (h.live (hlive hthread)).2⟩
  recorded := by
    show .failureRecorded ∈ s.log ↔ activity.flags.failure = true
    rw [hfailure]
    exact h.recorded
  degraded := h.degraded
  raised := h.raised

/-- What `_send` attempted is in the log, at the time at which it may be. -/
theorem Inv.attempt (h : s.Inv) {heartbeat : Option NodeHeartbeat} (transport : Boundary Unit)
    (hstage : 2 ≤ s.main.stage)
    (hallowed : ∀ sent delivered, heartbeat = some sent → Allowed s.log (.heartbeat sent delivered))
    (hdegraded : ∀ sent, heartbeat = some sent → sent.status = .degraded → 4 ≤ s.main.stage) :
    Inv { s with log := s.log ++ attempted heartbeat transport } := by
  cases heartbeat with
  | none =>
    show Inv { s with log := s.log ++ [] }
    rw [List.append_nil]
    exact h
  | some sent =>
    apply h.append (hallowed sent _ rfl) nofun nofun
    · intro hlow
      omega
    · intro he
      exact hdegraded sent rfl (of_decide_eq_true he)

/-- A healthy heartbeat may be sent as long as the activity is not over. -/
theorem Inv.allowed_healthy (h : s.Inv) {sent : NodeHeartbeat} (hhealthy : sent.status = .healthy)
    (hlow : 1 ≤ s.main.stage) (hhigh : s.main.stage < 4) (delivered : Bool) :
    Allowed s.log (.heartbeat sent delivered) :=
  ⟨h.opened hlow (by omega), h.not_degraded hhigh, Or.inl hhealthy⟩

/-- The pipeline raises: every open block has been left. -/
theorem Inv.raise (h : s.Inv) (hlow : 1 ≤ s.main.stage) (hhigh : s.main.stage ≤ 3)
    (hlive : s.activity.thread.live = false) : (SignedWorkerRunner.raised s).Inv := by
  have happend : Inv { s with log := s.log ++ [.pipelineRaised] } :=
    h.append trivial nofun nofun (fun _ => rfl) nofun
  refine happend.move s.loop hhigh (fun _ _ => happend.entered hlow (by
    show s.main.stage ≤ 4
    omega)) nofun ?_ (fun _ => List.mem_append_right _ (List.mem_singleton_self _))
  intro hthread
  rw [show s.activity.thread.live = true from hthread] at hlive
  cases hlive

end RunnerState

namespace SignedWorkerRunner
variable {runner : SignedWorkerRunner} {s : RunnerState}

open RunnerState (Inv)
open RunnerEvent (Allowed InitialDelivered isAttempt isDegraded)

theorem inv_initial (state : PipelineState) (maxEvents : MaxEvents) :
    (runner.initial state maxEvents).Inv where
  guarded := Runs.Guarded.nil
  entered hlow := by cases hlow
  exited _ hmem := by cases hmem
  fresh _ := ⟨rfl, rfl, rfl⟩
  delivered hstarted := by cases hstarted
  beside hstage := by cases hstage
  live hthread := by cases hthread
  recorded := ⟨fun hmem => (List.not_mem_nil hmem).elim, fun hfailure => by cases hfailure⟩
  degraded hany := by cases hany
  raised hmain := by cases hmain

/-- The lifecycle is entered on an open transport that nothing was sent over. -/
theorem inv_enterHeartbeat (met : MainMet) (hmain : s.main = .enteringHeartbeat) (h : s.Inv) :
    (runner.enterHeartbeat met s).Inv := by
  have hstage : s.main.stage = 1 := by rw [hmain]; rfl
  obtain ⟨hfirst, hstarted, hfailure⟩ := h.fresh hstage.le
  have hnotLive : s.activity.thread.live = false := h.not_live (by omega)
  have hentered : .entered ∈ s.log := h.entered hstage.ge (by omega)
  unfold enterHeartbeat
  generalize met.utcClock.boundary = utcClock
  generalize met.transport.boundary = transport
  dsimp only
  unfold HeartbeatActivity.enter
  rw [if_neg (ne_true_of_eq_false hstarted)]
  cases hsent : (runner.lifecycle.send .healthy utcClock transport).2 with
  | error failure =>
    dsimp only
    have hmove : Inv { s with main := .closingSource true, loop := s.loop } :=
      h.moveAway s.loop hstage.ge (hstage.trans_le (Nat.le_add_left 1 2)) hnotLive nofun nofun
    apply hmove.attempt transport (show 2 ≤ 3 by omega)
    · intro sent delivered hheartbeat
      exact hmove.allowed_healthy (WorkerHeartbeatLifecycle.send_status hheartbeat)
        (show 1 ≤ 3 by omega) (show 3 < 4 by omega) delivered
    · intro sent hheartbeat hdegraded
      rw [WorkerHeartbeatLifecycle.send_status hheartbeat] at hdegraded
      cases hdegraded
  | ok u =>
    obtain ⟨sent, hheartbeat, rfl⟩ := WorkerHeartbeatLifecycle.send_delivered hsent
    have hhealthy : sent.status = .healthy := WorkerHeartbeatLifecycle.send_status hheartbeat
    rw [hheartbeat]
    have hattempted : attempted (some sent) (.returned ()) = [.heartbeat sent true] := rfl
    have hguarded : Guarded Allowed (s.log ++ [.heartbeat sent true]) :=
      Runs.guarded_concat.mpr ⟨h.guarded, h.allowed_healthy hhealthy hstage.ge (by omega) true⟩
    have hdelivered : InitialDelivered (s.log ++ [.heartbeat sent true]) :=
      ⟨sent, hhealthy, RunnerEvent.find?_concat hfirst⟩
    have hquiet : (s.log ++ [RunnerEvent.heartbeat sent true]).any isDegraded = false := by
      rw [List.any_append, RunnerEvent.any_isDegraded_eq_false_of_first hfirst]
      simp [isDegraded, hhealthy]
    have hexited : RunnerEvent.exited ∉ s.log := h.exited (by omega)
    have hrecorded : RunnerEvent.failureRecorded ∉ s.log := by
      rw [h.recorded, hfailure]
      nofun
    cases met.raises with
    | true =>
      dsimp only
      rw [if_pos rfl, if_pos rfl, hattempted]
      exact {
        guarded := Runs.guarded_concat.mpr ⟨hguarded, hquiet⟩
        entered := fun _ _ => by simp [hentered]
        exited := fun _ => by simp [hexited]
        fresh := nofun
        delivered := fun _ => hdelivered.append _
        beside := nofun
        live := fun hthread => by
          rw [show s.activity.thread.live = true from hthread] at hnotLive
          cases hnotLive
        recorded := ⟨fun _ => rfl, fun _ => by simp⟩
        degraded := fun hany => by
          rw [List.any_append, hquiet] at hany
          cases hany
        raised := nofun }
    | false =>
      dsimp only
      rw [if_neg nofun, if_neg nofun, hattempted]
      exact {
        guarded := hguarded
        entered := fun _ _ => by simp [hentered]
        exited := fun _ => by simp [hexited]
        fresh := nofun
        delivered := fun _ => hdelivered
        beside := fun _ => rfl
        live := fun _ => ⟨rfl, hfailure⟩
        recorded := by simp [hrecorded, hfailure]
        degraded := fun hany => by
          rw [hquiet] at hany
          cases hany
        raised := nofun }

/-- The degraded heartbeat ends the deliveries. -/
theorem inv_degrade (met : MainMet) (hmain : s.main = .degrading) (h : s.Inv) :
    (runner.degrade met s).Inv := by
  have hstage : s.main.stage = 3 := by rw [hmain]; rfl
  have hmove : Inv { s with main := .closingTransport true, loop := s.loop } :=
    h.moveAway s.loop (by omega) (hstage.trans_le (Nat.le_succ 3)) (h.not_live (by omega)) nofun
      nofun
  unfold degrade
  split_ifs with hskip
  · exact hmove
  obtain ⟨hstarted, hrest⟩ := not_or.mp hskip
  have hfailure : s.activity.flags.failure ≠ true := (not_or.mp hrest).1
  have hallowed : ∀ sent delivered, (runner.lifecycle.send .degraded met.utcClock.boundary
      met.transport.boundary).1 = some sent → Allowed s.log (.heartbeat sent delivered) := by
    intro sent delivered hheartbeat
    refine ⟨h.opened (by omega) (by omega), h.not_degraded (by omega), Or.inr
      ⟨WorkerHeartbeatLifecycle.send_status hheartbeat, h.raised hmain,
        h.delivered (not_not.mp hstarted), ?_⟩⟩
    rw [h.recorded]
    exact hfailure
  have hattempt := hmove.attempt met.transport.boundary (show 2 ≤ 4 by omega) hallowed
    fun _ _ _ => le_rfl
  exact hattempt.activity rfl rfl id

/-- The loop sends nothing but detections, beside a delivered heartbeat. -/
theorem inv_looping (met : MainMet) (point : LoopPoint) (hmain : s.main = .looping point)
    (h : s.Inv) : (runner.mainStep met s).Inv := by
  have hstage : s.main.stage = 2 := by rw [hmain]; rfl
  have hmove : ∀ (next : LoopNext) loop, Inv { s with main := next.main, loop := loop } := by
    intro next loop
    apply h.moveBeside loop hstage
    cases next <;> rfl
  have hquiet : ∀ next loop,
      Inv { s with main := LoopNext.main next, loop := loop, log := s.log ++ [] } := by
    intro next loop
    rw [List.append_nil]
    exact hmove next loop
  have hdetection : ∀ next loop event, Inv { s with
      main := LoopNext.main next, loop := loop, log := s.log ++ [.detection event] } := by
    intro next loop event
    refine (hmove next loop).append ⟨h.opened (by omega) (by omega), h.not_degraded (by omega),
      h.delivered (h.beside hstage)⟩ nofun nofun ?_ nofun
    intro hlow
    have hnext : next.main.stage = 2 := by cases next <;> rfl
    rw [hnext] at hlow
    omega
  unfold mainStep
  rw [hmain]
  cases point with
  | firstCheck => exact hquiet _ _
  | head =>
    dsimp only [loopStep]
    split_ifs
    · exact hquiet _ _
    · exact hquiet _ _
    · exact hquiet _ _
  | reading => exact hquiet _ _
  | checkRead captured => exact hquiet _ _
  | sampling captured => exact hquiet _ _
  | checkProcessed event => exact hquiet _ _
  | sinking event =>
    dsimp only [loopStep]
    split_ifs
    · exact hdetection _ _ event
    · exact hdetection _ _ event
  | checkSent => exact hquiet _ _

/-- The transport is opened, or the run ends there. -/
theorem inv_entering (met : MainMet) (hmain : s.main = .entering) (h : s.Inv) :
    (runner.mainStep met s).Inv := by
  have hstage : s.main.stage = 0 := by rw [hmain]; rfl
  have hnotLive : s.activity.thread.live = true → False := by
    rw [h.not_live (by omega)]
    nofun
  unfold mainStep
  rw [hmain]
  dsimp only
  split_ifs
  · apply h.move s.loop
    · rw [hstage]
      exact Nat.zero_le 5
    · exact fun _ hhigh => absurd hhigh (show ¬ 5 ≤ 4 by omega)
    · nofun
    · exact fun hthread => (hnotLive hthread).elim
    · nofun
  · have happend : Inv { s with log := s.log ++ [.entered] } :=
      h.append trivial nofun nofun (fun _ => rfl) nofun
    apply happend.move s.loop
    · show s.main.stage ≤ 1
      omega
    · exact fun _ _ => List.mem_append_right _ (List.mem_singleton_self _)
    · nofun
    · exact fun hthread => (hnotLive hthread).elim
    · nofun

/-- The end of the thread lets the main thread leave the activity. -/
theorem inv_joining (met : MainMet) (raised : Bool) (hmain : s.main = .joining raised)
    (h : s.Inv) : (runner.mainStep met s).Inv := by
  have hstage : s.main.stage = 2 := by rw [hmain]; rfl
  unfold mainStep
  rw [hmain]
  cases hthread : s.activity.thread with
  | ended how =>
    have hnotLive : s.activity.thread.live = false := by
      rw [hthread]
      rfl
    have hle : s.main.stage ≤ 3 := by omega
    cases raised with
    | true => exact h.moveAway s.loop (by omega) hle hnotLive nofun nofun
    | false => exact h.moveAway s.loop (by omega) hle hnotLive nofun nofun
  | unstarted => exact h
  | starting => exact h
  | waiting previous => exact h
  | reading previous => exact h
  | sending current => exact h
  | failing => exact h
  | stopping => exact h

/-- One step of the main thread. -/
theorem inv_mainStep (met : MainMet) (h : s.Inv) : (runner.mainStep met s).Inv := by
  cases hmain : s.main with
  | entering => exact inv_entering met hmain h
  | building =>
    have hstage : s.main.stage = 1 := by rw [hmain]; rfl
    have hnotLive := h.not_live (by omega)
    unfold mainStep
    rw [hmain]
    cases met.raises with
    | true =>
      have hle : s.main.stage ≤ 4 := by omega
      exact h.moveAway s.loop hstage.ge hle hnotLive nofun nofun
    | false => exact h.moveAway s.loop hstage.ge hstage.le hnotLive nofun nofun
  | validating =>
    have hstage : s.main.stage = 1 := by rw [hmain]; rfl
    have hnotLive := h.not_live (by omega)
    unfold mainStep
    rw [hmain]
    dsimp only
    cases s.maxEvents.bound? with
    | error e => exact h.raise hstage.ge (by omega) hnotLive
    | ok bound =>
      exact h.moveAway { s.loop with bound := bound } hstage.ge hstage.le hnotLive nofun nofun
  | openingSource =>
    have hstage : s.main.stage = 1 := by rw [hmain]; rfl
    have hnotLive := h.not_live (by omega)
    unfold mainStep
    rw [hmain]
    dsimp only
    split_ifs
    · exact h.raise hstage.ge (by omega) hnotLive
    · exact h.moveAway s.loop hstage.ge hstage.le hnotLive nofun nofun
  | enteringHeartbeat =>
    unfold mainStep
    rw [hmain]
    exact inv_enterHeartbeat met hmain h
  | checkingStart =>
    have hstage : s.main.stage = 2 := by rw [hmain]; rfl
    unfold mainStep
    rw [hmain]
    cases hfailure : s.activity.flags.failure with
    | true =>
      have hnotLive : s.activity.thread.live = false := by
        by_contra hlive
        rw [(h.live (eq_true_of_ne_false hlive)).2] at hfailure
        cases hfailure
      exact h.moveAway s.loop (by omega) (hstage.trans_le (Nat.le_succ 2)) hnotLive nofun nofun
    | false => exact h.moveBeside s.loop hstage rfl
  | looping point => exact inv_looping met point hmain h
  | stopping raised =>
    have hstage : s.main.stage = 2 := by rw [hmain]; rfl
    unfold mainStep
    rw [hmain]
    have hjoining : Inv { s with main := .joining raised, loop := s.loop } :=
      h.moveBeside s.loop hstage rfl
    exact hjoining.activity rfl rfl id
  | joining raised => exact inv_joining met raised hmain h
  | checkingStop =>
    have hstage : s.main.stage = 3 := by rw [hmain]; rfl
    unfold mainStep
    rw [hmain]
    exact h.moveAway s.loop (by omega) hstage.le (h.not_live (by omega)) nofun nofun
  | closingSource raised =>
    have hstage : s.main.stage = 3 := by rw [hmain]; rfl
    have hnotLive := h.not_live (by omega)
    unfold mainStep
    rw [hmain]
    dsimp only
    split_ifs
    · exact h.raise (by omega) hstage.le hnotLive
    · exact h.moveAway s.loop (by omega) (hstage.trans_le (Nat.le_succ 3)) hnotLive nofun nofun
  | degrading =>
    unfold mainStep
    rw [hmain]
    exact inv_degrade met hmain h
  | closingTransport raised =>
    have hstage : s.main.stage = 4 := by rw [hmain]; rfl
    unfold mainStep
    rw [hmain]
    have hfinished : Inv { s with main := .finished (raised || met.raises), loop := s.loop } :=
      h.moveAway s.loop (by omega) (hstage.trans_le (Nat.le_succ 4)) (h.not_live (by omega)) nofun
        nofun
    exact hfinished.append trivial (fun _ => rfl) nofun (fun _ => rfl) nofun
  | finished raised =>
    unfold mainStep
    rw [hmain]
    exact h

/-- The thread records its failure as the last thing that it does to the alarm. -/
theorem inv_failing (met : ThreadMet) (hthread : s.activity.thread = .failing) (h : s.Inv) :
    (runner.step s (.thread met)).Inv := by
  have hlive : s.activity.thread.live = true := by
    rw [hthread]
    rfl
  obtain ⟨hstage, -⟩ := h.live hlive
  unfold step threadEvents HeartbeatActivity.step
  dsimp only
  rw [if_pos hthread, hthread]
  have hquiet : s.log.any isDegraded = false := h.not_degraded (by omega)
  have hentered : .entered ∈ s.log := h.entered (by omega) (by omega)
  have hexited : RunnerEvent.exited ∉ s.log := h.exited (by omega)
  exact {
    guarded := Runs.guarded_concat.mpr ⟨h.guarded, hquiet⟩
    entered := fun _ _ => List.mem_append_left _ hentered
    exited := fun _ => by simp [hexited]
    fresh := fun hlow => absurd (hstage.ge.trans hlow) (by omega)
    delivered := fun hstarted => (h.delivered hstarted).append _
    beside := h.beside
    live := nofun
    recorded := ⟨fun _ => rfl, fun _ => by simp⟩
    degraded := fun hany => by
      rw [List.any_append, hquiet] at hany
      cases hany
    raised := fun hmain => List.mem_append_left _ (h.raised hmain) }

/-- One step of the heartbeat thread. -/
theorem inv_threadStep (met : ThreadMet) (h : s.Inv) : (runner.step s (.thread met)).Inv := by
  by_cases hfailing : s.activity.thread = .failing
  · exact inv_failing met hfailing h
  have hactivity : Inv { s with activity := s.activity.step runner.lifecycle (.thread met) } := by
    by_cases hlive : s.activity.thread.live = true
    · have hstopping : s.activity.thread ≠ .stopping := by
        intro hstopping
        rw [hstopping] at hlive
        cases hlive
      apply h.activity
      · rfl
      · show (runner.lifecycle.runStep met s.activity.flags s.activity.thread).1.failure = _
        rw [WorkerHeartbeatLifecycle.runStep_flags hfailing hstopping]
      · exact fun _ => hlive
    · have hdead : (runner.lifecycle.runStep met s.activity.flags s.activity.thread).2.1.live =
          false ∧ (runner.lifecycle.runStep met s.activity.flags s.activity.thread).1.failure =
            s.activity.flags.failure :=
        WorkerHeartbeatLifecycle.runStep_not_live (eq_false_of_ne_true hlive)
      apply h.activity
      · rfl
      · exact hdead.2
      · intro hthread
        exact absurd hthread (ne_true_of_eq_false hdead.1)
  unfold step threadEvents
  dsimp only
  rw [if_neg hfailing]
  cases hheartbeat : (runner.lifecycle.runStep met s.activity.flags s.activity.thread).2.2 with
  | none =>
    show Inv { s with
      activity := s.activity.step runner.lifecycle (.thread met), log := s.log ++ [] }
    rw [List.append_nil]
    exact hactivity
  | some sent =>
    obtain ⟨hlive, hhealthy⟩ := WorkerHeartbeatLifecycle.runStep_heartbeat hheartbeat
    have hstage : s.main.stage = 2 := (h.live hlive).1
    apply hactivity.attempt met.transport hstage.ge
    · rintro _ delivered ⟨⟩
      exact h.allowed_healthy hhealthy (by omega) (by omega) delivered
    · rintro _ ⟨⟩ hdegraded
      rw [hhealthy] at hdegraded
      cases hdegraded

theorem inv_step (a : RunnerAction) (h : s.Inv) : (runner.step s a).Inv := by
  cases a with
  | main met => exact inv_mainStep met h
  | thread met => exact inv_threadStep met h

/-- The invariant holds along every interleaving. -/
theorem inv_run (state : PipelineState) (maxEvents : MaxEvents) (actions : List RunnerAction) :
    (runner.run state maxEvents actions).Inv :=
  List.foldlRecOn actions runner.step (inv_initial state maxEvents) fun _ hs a _ => inv_step a hs

end SignedWorkerRunner

namespace RunnerEvent
variable {log : List RunnerEvent}

theorem isAttempt_of_isDegraded {e : RunnerEvent} (h : e.isDegraded = true) :
    e.isAttempt = true := by
  cases e with
  | heartbeat sent delivered => rfl
  | detection event => rfl
  | entered => cases h
  | failureRecorded => cases h
  | pipelineRaised => cases h
  | exited => cases h

/-- The first attempt of all is a healthy heartbeat. -/
theorem first_healthy (h : Guarded Allowed log) {e : RunnerEvent}
    (hfirst : log.find? isAttempt = some e) :
    ∃ sent delivered, e = .heartbeat sent delivered ∧ sent.status = .healthy := by
  obtain ⟨hattempt, before, after, hsplit, hnone⟩ := List.find?_eq_some_iff_append.mp hfirst
  have hearlier : before.find? isAttempt = none := by
    rw [List.find?_eq_none]
    intro e' he' hattempt'
    have hnot := hnone e' he'
    rw [hattempt'] at hnot
    cases hnot
  have hundelivered : ¬ InitialDelivered before := by
    rintro ⟨sent, -, hsome⟩
    rw [hearlier] at hsome
    cases hsome
  have hallowed := h before e after hsplit
  cases e with
  | heartbeat sent delivered =>
    rcases hallowed.2.2 with hhealthy | ⟨-, -, hdelivered, -⟩
    · exact ⟨sent, delivered, rfl, hhealthy⟩
    · exact absurd hdelivered hundelivered
  | detection event => exact absurd hallowed.2.2 hundelivered
  | entered => cases hattempt
  | failureRecorded => cases hattempt
  | pipelineRaised => cases hattempt
  | exited => cases hattempt

/-- At most one degraded heartbeat is attempted. -/
theorem countP_isDegraded_le (h : Guarded Allowed log) : log.countP isDegraded ≤ 1 := by
  induction log using List.reverseRecOn with
  | nil => exact Nat.zero_le 1
  | append_singleton before e ih =>
    obtain ⟨hbefore, he⟩ := Runs.guarded_concat.mp h
    rw [List.countP_append, List.countP_singleton]
    by_cases hdegraded : e.isDegraded = true
    · have hnone : before.countP isDegraded = 0 := by
        rw [List.countP_eq_zero, ← List.any_eq_false]
        exact (he.attempt (isAttempt_of_isDegraded hdegraded)).2
      rw [hnone, if_pos hdegraded]
    · rw [if_neg hdegraded]
      exact ih hbefore

/-- After a degraded heartbeat nothing is attempted and no failure is recorded. -/
theorem after_degraded (h : Guarded Allowed log) {before after : List RunnerEvent}
    {e : RunnerEvent} (hsplit : log = before ++ e :: after) (hdegraded : e.isDegraded = true) :
    ∀ later ∈ after, later.isAttempt = false ∧ later ≠ .failureRecorded := by
  intro later hlater
  obtain ⟨between, rest, rfl⟩ := List.append_of_mem hlater
  have hallowed : Allowed (before ++ e :: between) later := by
    apply h _ later rest
    rw [hsplit, List.append_assoc, List.cons_append]
  have hany : (before ++ e :: between).any isDegraded = true := by
    rw [List.any_append, List.any_cons, hdegraded, Bool.true_or, Bool.or_true]
  constructor
  · by_contra hattempt
    rw [(hallowed.attempt (eq_true_of_ne_false hattempt)).2] at hany
    cases hany
  · rintro rfl
    rw [show _ = false from hallowed] at hany
    cases hany

/-- What allows a degraded heartbeat. -/
theorem allowed_degraded {before : List RunnerEvent} {e : RunnerEvent} (h : Allowed before e)
    (hdegraded : e.isDegraded = true) :
    .pipelineRaised ∈ before ∧ InitialDelivered before ∧ .failureRecorded ∉ before := by
  cases e with
  | heartbeat sent delivered =>
    rcases h.2.2 with hhealthy | ⟨-, hallowed⟩
    · have hstatus : sent.status = .degraded := of_decide_eq_true hdegraded
      rw [hhealthy] at hstatus
      cases hstatus
    · exact hallowed
  | detection event => cases hdegraded
  | entered => cases hdegraded
  | failureRecorded => cases hdegraded
  | pipelineRaised => cases hdegraded
  | exited => cases hdegraded

end RunnerEvent

namespace SignedWorkerRunner

open RunnerEvent (Allowed InitialDelivered Opened isAttempt isDegraded)

/-- Deliveries stay inside the transport, begin with a delivered healthy heartbeat, and end with
the only degraded one. -/
theorem deliveries_ordered (runner : SignedWorkerRunner) (state : PipelineState)
    (maxEvents : MaxEvents) (actions : List RunnerAction) :
    let log := (runner.run state maxEvents actions).log
    (∀ before e after, log = before ++ e :: after → e.isAttempt = true → Opened before) ∧
    (∀ e, log.find? isAttempt = some e →
      ∃ sent delivered, e = .heartbeat sent delivered ∧ sent.status = .healthy) ∧
    (∀ before event after, log = before ++ .detection event :: after → InitialDelivered before) ∧
    log.countP isDegraded ≤ 1 ∧
    ∀ before e after, log = before ++ e :: after → e.isDegraded = true →
      .pipelineRaised ∈ before ∧ InitialDelivered before ∧ .failureRecorded ∉ log ∧
        ∀ later ∈ after, later.isAttempt = false := by
  intro log
  have hguarded : Guarded Allowed log := (inv_run state maxEvents actions).guarded
  refine ⟨?_, ?_, ?_, RunnerEvent.countP_isDegraded_le hguarded, ?_⟩
  · intro before e after hsplit hattempt
    exact ((hguarded before e after hsplit).attempt hattempt).1
  · intro e hfirst
    exact RunnerEvent.first_healthy hguarded hfirst
  · intro before event after hsplit
    exact (hguarded before _ after hsplit).2.2
  · intro before e after hsplit hdegraded
    obtain ⟨hraised, hdelivered, hunrecorded⟩ :=
      RunnerEvent.allowed_degraded (hguarded before e after hsplit) hdegraded
    have hafter := RunnerEvent.after_degraded hguarded hsplit hdegraded
    refine ⟨hraised, hdelivered, ?_, fun later hlater => (hafter later hlater).1⟩
    rw [hsplit, List.mem_append, List.mem_cons]
    rintro (hbefore | rfl | hlater)
    · exact hunrecorded hbefore
    · cases hdegraded
    · exact (hafter _ hlater).2 rfl

end SignedWorkerRunner

end SecureEdge
