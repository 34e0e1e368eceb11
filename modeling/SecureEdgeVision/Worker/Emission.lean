import SecureEdgeVision.Worker.RunSteps

/-! What a worker run emits: the events that processing the accepted frames returned, in order, up
to the bound or the first failure. -/
namespace SecureEdge

open Runs (Traced)

namespace SamplingGate

/-- The frames that a gate accepts of those it is shown, until it raises. -/
def accepted (gate : SamplingGate) : List CapturedFrame → List CapturedFrame
  | [] => []
  | captured :: frames =>
    match gate.accept captured.sampleTimeSeconds with
    | .error _ => []
    | .ok (gate, true) => captured :: gate.accepted frames
    | .ok (gate, false) => gate.accepted frames

/-- The gate after frames on which it does not raise. -/
def after (gate : SamplingGate) : List CapturedFrame → Except WorkerPipelineError SamplingGate
  | [] => .ok gate
  | captured :: frames =>
    match gate.accept captured.sampleTimeSeconds with
    | .error e => .error e
    | .ok (gate, _) => gate.after frames

theorem accepted_append {gate next : SamplingGate} {before : List CapturedFrame}
    (h : gate.after before = .ok next) (frames : List CapturedFrame) :
    gate.accepted (before ++ frames) = gate.accepted before ++ next.accepted frames := by
  induction before generalizing gate with
  | nil =>
    cases h
    rfl
  | cons captured before ih =>
    revert h
    simp only [after, accepted, List.cons_append]
    rcases gate.accept captured.sampleTimeSeconds with e | ⟨gate, _ | _⟩
    · exact nofun
    · exact ih
    · exact fun h => congrArg _ (ih h)

theorem after_append {gate next : SamplingGate} {before : List CapturedFrame}
    (h : gate.after before = .ok next) (frames : List CapturedFrame) :
    gate.after (before ++ frames) = next.after frames := by
  induction before generalizing gate with
  | nil =>
    cases h
    rfl
  | cons captured before ih =>
    revert h
    simp only [after, List.cons_append]
    rcases gate.accept captured.sampleTimeSeconds with e | ⟨gate, decision⟩
    · exact nofun
    · exact ih

theorem single_of_error {gate : SamplingGate} {captured : CapturedFrame} {e : WorkerPipelineError}
    (h : gate.accept captured.sampleTimeSeconds = .error e) : gate.accepted [captured] = [] := by
  simp only [accepted, h]

theorem single_of_skipped {gate next : SamplingGate} {captured : CapturedFrame}
    (h : gate.accept captured.sampleTimeSeconds = .ok (next, false)) :
    gate.accepted [captured] = [] ∧ gate.after [captured] = .ok next := by
  simp only [accepted, after, h, and_self]

theorem single_of_taken {gate next : SamplingGate} {captured : CapturedFrame}
    (h : gate.accept captured.sampleTimeSeconds = .ok (next, true)) :
    gate.accepted [captured] = [captured] ∧ gate.after [captured] = .ok next := by
  simp only [accepted, after, h, and_self]

end SamplingGate

/-- One list is the other, or the computation was cut and lacks one entry. -/
def Upto {α : Type} (cut : Prop) (whole part : List α) : Prop :=
  whole = part ∨ cut ∧ ∃ a, whole = part ++ [a]

theorem Upto.append {α : Type} {cut : Prop} {before whole part : List α} (h : Upto cut whole part) :
    Upto cut (before ++ whole) (before ++ part) := by
  rcases h with rfl | ⟨hcut, a, rfl⟩
  · exact .inl rfl
  · exact .inr ⟨hcut, a, (List.append_assoc _ _ _).symm⟩

theorem Upto.eq {α : Type} {cut : Prop} {whole part : List α} (h : Upto cut whole part)
    (hcut : ¬ cut) : whole = part :=
  h.resolve_right fun h => hcut h.1

theorem Upto.mono {α : Type} {cut cut' : Prop} {whole part : List α} (h : Upto cut whole part)
    (hcut : cut → cut') : Upto cut' whole part :=
  h.imp_right fun h => ⟨hcut h.1, h.2⟩

/-- How the steps of a part of a run follow from the reads offered to it, the gate and the state it
starts with. It ends with a state and a gate unless it is cut. -/
structure Emits (pipeline : PrivacyWorkerPipeline) (state : PipelineState) (gate : SamplingGate)
    (offered : List (Except WorkerFailure (Option CapturedFrame))) (steps : List WorkerStep)
    (ended : Option (PipelineState × SamplingGate)) : Prop where
  reads : steps.filterMap WorkerStep.read? <+: offered
  readAll : ended.isSome = true → steps.filterMap WorkerStep.read? = offered
  sampled : Upto (ended = none) (steps.filterMap WorkerStep.yielded?)
    (steps.filterMap WorkerStep.sampled?)
  accepted : (steps.filterMap WorkerStep.processed?).map (fun call => call.1.captured) =
    (gate.accepted (steps.filterMap WorkerStep.sampled?)).map some
  outcomes : (steps.filterMap WorkerStep.processed?).map Prod.snd =
    (Runs.run pipeline.processFrame state
      ((steps.filterMap WorkerStep.processed?).map Prod.fst)).2
  sent : Upto (ended = none) (steps.filterMap WorkerStep.returned?)
    (steps.filterMap WorkerStep.sent?)
  delivered : Upto (ended = none) (steps.filterMap WorkerStep.sent?)
    (steps.filterMap WorkerStep.delivered?)
  after : ∀ state' gate', ended = some (state', gate') →
    (Runs.run pipeline.processFrame state
      ((steps.filterMap WorkerStep.processed?).map Prod.fst)).1 = state' ∧
    gate.after (steps.filterMap WorkerStep.sampled?) = .ok gate'

variable {pipeline : PrivacyWorkerPipeline}

theorem Emits.nil {state : PipelineState} {gate : SamplingGate} :
    Emits pipeline state gate [] [] (some (state, gate)) := by
  refine ⟨List.prefix_rfl, fun _ => rfl, .inl rfl, rfl, rfl, .inl rfl, .inl rfl, ?_⟩
  rintro _ _ ⟨⟩
  exact ⟨rfl, rfl⟩

/-- A part that ended is followed by the next. -/
theorem Emits.append {state state' : PipelineState} {gate gate' : SamplingGate}
    {offered offered' : List (Except WorkerFailure (Option CapturedFrame))}
    {steps steps' : List WorkerStep} {ended : Option (PipelineState × SamplingGate)}
    (h : Emits pipeline state gate offered steps (some (state', gate')))
    (h' : Emits pipeline state' gate' offered' steps' ended) :
    Emits pipeline state gate (offered ++ offered') (steps ++ steps') ended := by
  obtain ⟨hstate, hgate⟩ := h.after state' gate' rfl
  have hreads := h.readAll rfl
  have hsampled := h.sampled.eq nofun
  have hsent := h.sent.eq nofun
  have hdelivered := h.delivered.eq nofun
  constructor
  · rw [List.filterMap_append, hreads]
    exact (List.prefix_append_right_inj _).mpr h'.reads
  · intro hended
    rw [List.filterMap_append, hreads, h'.readAll hended]
  · rw [List.filterMap_append, List.filterMap_append, hsampled]
    exact h'.sampled.append
  · rw [List.filterMap_append, List.filterMap_append, List.map_append,
      SamplingGate.accepted_append hgate, List.map_append, h.accepted, h'.accepted]
  · rw [List.filterMap_append, List.map_append, List.map_append, Runs.run_append_outputs, hstate,
      h.outcomes, h'.outcomes]
  · rw [List.filterMap_append, List.filterMap_append, hsent]
    exact h'.sent.append
  · rw [List.filterMap_append, List.filterMap_append, hdelivered]
    exact h'.delivered.append
  · intro last lastGate hended
    rw [List.filterMap_append, List.filterMap_append, List.map_append, Runs.run_append_state,
      hstate, SamplingGate.after_append hgate]
    exact h'.after last lastGate hended

/-- The events that a round which ended so has delivered. -/
def RoundEnd.events : RoundEnd → ℕ
  | .finished => 0
  | .skipped _ => 0
  | .emitted _ => 1

/-- The arguments of a run pass, and its source and its lifecycle are entered. -/
structure RunCall.Entered (call : RunCall) : Prop where
  sink : call.sinkCallable = true
  maxEvents : ∃ bound, call.maxEvents.bound? = .ok bound
  source : call.sourceEnter = .ok ()
  lifecycle : call.lifecycleEnter = .ok ()

namespace PrivacyWorkerPipeline

theorem cut_short {P : PipelineState → SamplingGate → Prop} (state : PipelineState)
    (gate : SamplingGate) (h : none = some (state, gate)) : P state gate :=
  (Option.some_ne_none _ h.symm).elim

/-- The state and the gate with which a round is left. -/
def leftWith (gate : SamplingGate) :
    Except WorkerFailure (PipelineState × RoundEnd) → Option (PipelineState × SamplingGate)
  | .error _ => none
  | .ok (state, .finished) => some (state, gate)
  | .ok (state, .skipped gate) => some (state, gate)
  | .ok (state, .emitted gate) => some (state, gate)

/-- A round whose frame is accepted hands the event it becomes to the sink, or is cut. -/
theorem emitSteps_emits (pipeline : PrivacyWorkerPipeline) (state : PipelineState)
    {gate next : SamplingGate} {captured : CapturedFrame}
    (haccept : gate.accept captured.sampleTimeSeconds = .ok (next, true)) (round : Round)
    (u u' : Unit) :
    Emits pipeline state gate [.ok (some captured)]
      (.check (.ok u) :: .read (.ok (some captured)) :: .check (.ok u') ::
        .sample captured (.ok true) :: (pipeline.emitSteps state next round captured).calls)
      (leftWith gate (pipeline.emitSteps state next round captured).result) := by
  obtain ⟨haccepted, hafter⟩ := SamplingGate.single_of_taken haccept
  have hprocessed : [some captured] = (gate.accepted [captured]).map some := by
    rw [haccepted]
    rfl
  unfold emitSteps
  dsimp only
  rcases hprocess : pipeline.processFrame state { round.frame with captured := some captured } with
    ⟨state', e | event⟩
  · refine ⟨List.prefix_rfl, nofun, .inl rfl, hprocessed, ?_, .inl rfl, .inl rfl, cut_short⟩
    exact (congrArg (fun answer => [answer.2]) hprocess).symm
  · have houtcomes : [Except.ok event] = [(pipeline.processFrame state
        { round.frame with captured := some captured }).2] := by rw [hprocess]
    have hstate : (pipeline.processFrame state
        { round.frame with captured := some captured }).1 = state' := by rw [hprocess]
    cases round.checkProcessed with
    | error e =>
      exact ⟨List.prefix_rfl, nofun, .inl rfl, hprocessed, houtcomes, .inr ⟨rfl, event, rfl⟩,
        .inl rfl, cut_short⟩
    | ok u =>
      cases round.sinkRaises with
      | true =>
        exact ⟨List.prefix_rfl, nofun, .inl rfl, hprocessed, houtcomes, .inl rfl,
          .inr ⟨rfl, event, rfl⟩, cut_short⟩
      | false =>
        cases round.checkSent with
        | error e =>
          exact ⟨List.prefix_rfl, nofun, .inl rfl, hprocessed, houtcomes, .inl rfl, .inl rfl,
            cut_short⟩
        | ok u =>
          refine ⟨List.prefix_rfl, fun _ => rfl, .inl rfl, hprocessed, houtcomes, .inl rfl,
            .inl rfl, ?_⟩
          rintro _ _ ⟨⟩
          exact ⟨hstate, hafter⟩

theorem turnSteps_emits (pipeline : PrivacyWorkerPipeline) (state : PipelineState)
    (gate : SamplingGate) (round : Round) :
    Emits pipeline state gate [round.read] (pipeline.turnSteps state gate round).calls
      (leftWith gate (pipeline.turnSteps state gate round).result) := by
  unfold turnSteps
  cases round.checkBefore with
  | error e =>
    exact ⟨List.nil_prefix, (by rintro ⟨⟩), .inl rfl, rfl, rfl, .inl rfl, .inl rfl, cut_short⟩
  | ok u =>
    cases hread : round.read with
    | error e =>
      exact ⟨List.prefix_rfl, (by rintro ⟨⟩), .inl rfl, rfl, rfl, .inl rfl, .inl rfl, cut_short⟩
    | ok captured =>
      cases round.checkRead with
      | error e =>
        refine ⟨List.prefix_rfl, (by rintro ⟨⟩), ?_, rfl, rfl, .inl rfl, .inl rfl, cut_short⟩
        cases captured with
        | none => exact .inl rfl
        | some captured => exact .inr ⟨rfl, captured, rfl⟩
      | ok u' =>
        cases captured with
        | none =>
          refine ⟨List.prefix_rfl, fun _ => rfl, .inl rfl, rfl, rfl, .inl rfl, .inl rfl, ?_⟩
          rintro _ _ ⟨⟩
          exact ⟨rfl, rfl⟩
        | some captured =>
          simp only [Traced.call, Traced.ok_bind]
          rcases haccept : gate.accept captured.sampleTimeSeconds with e | ⟨next, _ | _⟩
          · have hnone : [] = (gate.accepted [captured]).map some := by
              rw [SamplingGate.single_of_error haccept]
              rfl
            exact ⟨List.prefix_rfl, (by rintro ⟨⟩), .inl rfl, hnone, rfl, .inl rfl, .inl rfl,
              cut_short⟩
          · obtain ⟨haccepted, hafter⟩ := SamplingGate.single_of_skipped haccept
            have hnone : [] = (gate.accepted [captured]).map some := by
              rw [haccepted]
              rfl
            refine ⟨List.prefix_rfl, fun _ => rfl, .inl rfl, hnone, rfl, .inl rfl, .inl rfl, ?_⟩
            rintro _ _ ⟨⟩
            exact ⟨rfl, hafter⟩
          · exact emitSteps_emits pipeline state haccept round u u'

/-- The loop is fed a prefix of the source's reads and is cut only by raising. -/
theorem loopSteps_emits (pipeline : PrivacyWorkerPipeline) (bound : Option ℕ)
    (state : PipelineState) (gate : SamplingGate) (emitted : ℕ) (rounds : List Round) :
    ∃ offered ended, offered <+: rounds.map Round.read ++ [.ok none] ∧
      Emits pipeline state gate offered
        (pipeline.loopSteps bound state gate emitted rounds).calls ended ∧
      (ended = none →
        ∃ e, (pipeline.loopSteps bound state gate emitted rounds).result = .error e) := by
  induction rounds generalizing state gate emitted with
  | nil =>
    unfold loopSteps
    split_ifs
    · refine ⟨[.ok none], some (state, gate), List.prefix_rfl, ?_, (by rintro ⟨⟩)⟩
      refine ⟨List.prefix_rfl, fun _ => rfl, .inl rfl, rfl, rfl, .inl rfl, .inl rfl, ?_⟩
      rintro _ _ ⟨⟩
      exact ⟨rfl, rfl⟩
    · exact ⟨[], some (state, gate), List.nil_prefix, .nil, (by rintro ⟨⟩)⟩
  | cons round rounds ih =>
    unfold loopSteps
    split_ifs
    · have hturn := turnSteps_emits pipeline state gate round
      have hfirst : [round.read] <+: (round :: rounds).map Round.read ++ [.ok none] :=
        ⟨rounds.map Round.read ++ [.ok none], rfl⟩
      revert hturn
      rcases pipeline.turnSteps state gate round with ⟨calls, e | ⟨state', _ | next | next⟩⟩ <;>
        intro hturn
      · exact ⟨[round.read], none, hfirst, hturn, fun _ => ⟨e, rfl⟩⟩
      · refine ⟨[round.read], some (state', gate), hfirst, ?_, (by rintro ⟨⟩)⟩
        rw [Traced.ok_bind, Traced.pure_eq, List.append_nil]
        exact hturn
      · obtain ⟨offered, ended, hoffered, hrest, hcut⟩ := ih state' next emitted
        refine ⟨round.read :: offered, ended, ?_, hturn.append hrest, hcut⟩
        exact List.cons_prefix_cons.mpr ⟨rfl, hoffered⟩
      · obtain ⟨offered, ended, hoffered, hrest, hcut⟩ := ih state' next (emitted + 1)
        refine ⟨round.read :: offered, ended, ?_, hturn.append hrest, hcut⟩
        exact List.cons_prefix_cons.mpr ⟨rfl, hoffered⟩
    · exact ⟨[], some (state, gate), List.nil_prefix, .nil, (by rintro ⟨⟩)⟩

section EndOfFile

/-- A round that the loop goes on after has read a frame. -/
theorem turnSteps_continues (pipeline : PrivacyWorkerPipeline) {state state' : PipelineState}
    {gate : SamplingGate} {round : Round} {ended : RoundEnd}
    (h : (pipeline.turnSteps state gate round).result = .ok (state', ended))
    (hended : ended ≠ .finished) : round.read ≠ .ok none := by
  intro hread
  unfold turnSteps at h
  rw [hread] at h
  revert h
  cases round.checkBefore with
  | error e => exact nofun
  | ok u =>
    cases round.checkRead with
    | error e => exact nofun
    | ok u =>
      rintro ⟨⟩
      exact hended rfl

theorem last_of_prefix_single {α : Type} {before after : List α} {a b : α}
    (h : before ++ a :: after <+: [b]) : after = [] := by
  have hlength := h.length_le
  rw [List.length_append, List.length_cons, List.length_singleton] at hlength
  exact List.eq_nil_of_length_eq_zero (by omega)

/-- Nothing is read once the source is at its end. -/
theorem loopSteps_end (pipeline : PrivacyWorkerPipeline) (bound : Option ℕ)
    (state : PipelineState) (gate : SamplingGate) (emitted : ℕ) (rounds : List Round)
    {before after : List (Except WorkerFailure (Option CapturedFrame))}
    (h : (pipeline.loopSteps bound state gate emitted rounds).calls.filterMap WorkerStep.read? =
      before ++ .ok none :: after) : after = [] := by
  induction rounds generalizing state gate emitted before with
  | nil =>
    unfold loopSteps at h
    split_ifs at h
    · apply last_of_prefix_single (b := .ok none)
      rw [← h]
      exact List.prefix_rfl
    · cases before <;> cases h
  | cons round rounds ih =>
    unfold loopSteps at h
    split_ifs at h
    · have hturn := turnSteps_emits pipeline state gate round
      have hrest : ∀ {calls rest : List WorkerStep},
          calls.filterMap WorkerStep.read? = [round.read] →
          round.read ≠ .ok none →
          (calls ++ rest).filterMap WorkerStep.read? = before ++ .ok none :: after →
          ∃ before', rest.filterMap WorkerStep.read? = before' ++ .ok none :: after := by
        intro calls rest hcalls hread hsplit
        rw [List.filterMap_append, hcalls] at hsplit
        cases before with
        | nil => exact absurd (List.cons.inj hsplit).1 hread
        | cons first before => exact ⟨before, (List.cons.inj hsplit).2⟩
      have hnext := fun {state' ended} =>
        @turnSteps_continues pipeline state state' gate round ended
      revert h hturn hnext
      rcases pipeline.turnSteps state gate round with ⟨calls, e | ⟨state', _ | next | next⟩⟩ <;>
        intro h hturn hnext
      · exact last_of_prefix_single (h ▸ hturn.reads)
      · rw [Traced.ok_bind, Traced.pure_eq, List.append_nil] at h
        exact last_of_prefix_single (h ▸ hturn.reads)
      · obtain ⟨before', hbefore⟩ := hrest (hturn.readAll rfl) (hnext rfl (by rintro ⟨⟩)) h
        exact ih _ _ _ hbefore
      · obtain ⟨before', hbefore⟩ := hrest (hturn.readAll rfl) (hnext rfl (by rintro ⟨⟩)) h
        exact ih _ _ _ hbefore
    · cases before <;> cases h

end EndOfFile

section Counting

/-- At most one event is delivered, and nothing is read, processed or sent after it. -/
def DeliversLast (steps : List WorkerStep) : Prop :=
  steps.filterMap WorkerStep.delivered? = [] ∨ ∃ before event,
    steps.filterMap WorkerStep.effect? = before ++ [.sunk event false] ∧
    steps.filterMap WorkerStep.delivered? = [event]

theorem raised {e : WorkerFailure} {P : PipelineState → RoundEnd → Prop} (state : PipelineState)
    (ended : RoundEnd) (h : Except.error e = .ok (state, ended)) : P state ended := by
  cases h

theorem emitSteps_delivers (pipeline : PrivacyWorkerPipeline) (state : PipelineState)
    (gate : SamplingGate) (round : Round) (captured : CapturedFrame) :
    DeliversLast (pipeline.emitSteps state gate round captured).calls ∧
    ∀ state' ended, (pipeline.emitSteps state gate round captured).result = .ok (state', ended) →
      ((pipeline.emitSteps state gate round captured).calls.filterMap
        WorkerStep.delivered?).length = ended.events := by
  unfold emitSteps
  dsimp only
  rcases pipeline.processFrame state { round.frame with captured := some captured } with
    ⟨state', e | event⟩
  · exact ⟨.inl rfl, raised⟩
  · cases round.checkProcessed with
    | error e => exact ⟨.inl rfl, raised⟩
    | ok u =>
      cases round.sinkRaises with
      | true => exact ⟨.inl rfl, raised⟩
      | false =>
        cases round.checkSent with
        | error e => exact ⟨.inr ⟨[.processed _ _], event, rfl, rfl⟩, raised⟩
        | ok u =>
          refine ⟨.inr ⟨[.processed _ _], event, rfl, rfl⟩, ?_⟩
          rintro _ _ ⟨⟩
          rfl

theorem DeliversLast.after {steps : List WorkerStep} (h : DeliversLast steps)
    (before : List WorkerStep) (hbefore : before.filterMap WorkerStep.delivered? = []) :
    DeliversLast (before ++ steps) := by
  unfold DeliversLast
  rw [List.filterMap_append, List.filterMap_append, hbefore, List.nil_append]
  rcases h with h | ⟨effects, event, heffects, hdelivered⟩
  · exact .inl h
  · refine .inr ⟨before.filterMap WorkerStep.effect? ++ effects, event, ?_, hdelivered⟩
    rw [heffects, List.append_assoc]

theorem turnSteps_delivers (pipeline : PrivacyWorkerPipeline) (state : PipelineState)
    (gate : SamplingGate) (round : Round) :
    DeliversLast (pipeline.turnSteps state gate round).calls ∧
    ∀ state' ended, (pipeline.turnSteps state gate round).result = .ok (state', ended) →
      ((pipeline.turnSteps state gate round).calls.filterMap WorkerStep.delivered?).length =
        ended.events := by
  unfold turnSteps
  cases round.checkBefore with
  | error e => exact ⟨.inl rfl, raised⟩
  | ok u =>
    cases round.read with
    | error e => exact ⟨.inl rfl, raised⟩
    | ok captured =>
      cases round.checkRead with
      | error e => exact ⟨.inl rfl, raised⟩
      | ok u' =>
        cases captured with
        | none =>
          refine ⟨.inl rfl, ?_⟩
          rintro _ _ ⟨⟩
          rfl
        | some captured =>
          simp only [Traced.call, Traced.ok_bind]
          rcases gate.accept captured.sampleTimeSeconds with e | ⟨next, _ | _⟩
          · exact ⟨.inl rfl, raised⟩
          · refine ⟨.inl rfl, ?_⟩
            rintro _ _ ⟨⟩
            rfl
          · obtain ⟨hlast, hcount⟩ := emitSteps_delivers pipeline state next round captured
            exact ⟨hlast.after [.check _, .read _, .check _, .sample _ _] rfl, hcount⟩

theorem DeliversLast.length_le {steps : List WorkerStep} (h : DeliversLast steps) :
    (steps.filterMap WorkerStep.delivered?).length ≤ 1 := by
  rcases h with h | ⟨_, _, _, h⟩ <;> simp [h]

theorem DeliversLast.ends {steps : List WorkerStep} (h : DeliversLast steps)
    (hone : (steps.filterMap WorkerStep.delivered?).length = 1) : ∃ before event,
    steps.filterMap WorkerStep.effect? = before ++ [.sunk event false] := by
  rcases h with h | ⟨before, event, heffects, _⟩
  · rw [h] at hone
    cases hone
  · exact ⟨before, event, heffects⟩

/-- At the bound the loop is over. -/
theorem loopSteps_full (pipeline : PrivacyWorkerPipeline) (n : ℕ) (state : PipelineState)
    (gate : SamplingGate) (rounds : List Round) :
    pipeline.loopSteps (some n) state gate n rounds = pure n := by
  have hfull : ¬ mayEmit n (some n) = true := by simp [mayEmit]
  cases rounds with
  | nil => exact if_neg hfull
  | cons round rounds => exact if_neg hfull

/-- A loop that starts at `emitted` counts what it delivers, stays within the bound and ends with
the send that reaches it. -/
structure LoopDelivers (bound : Option ℕ) (emitted : ℕ)
    (steps : Traced WorkerStep WorkerFailure ℕ) : Prop where
  counts : ∀ m, steps.result = .ok m →
    m = emitted + (steps.calls.filterMap WorkerStep.delivered?).length
  within : ∀ n, bound = some n → emitted ≤ n →
    emitted + (steps.calls.filterMap WorkerStep.delivered?).length ≤ n
  ends : ∀ n, bound = some n → emitted < n →
    emitted + (steps.calls.filterMap WorkerStep.delivered?).length = n → ∃ before event,
      steps.calls.filterMap WorkerStep.effect? = before ++ [.sunk event false]

section LoopDelivers
variable {bound : Option ℕ} {emitted : ℕ} {calls : List WorkerStep}
variable {rest : Traced WorkerStep WorkerFailure ℕ}

theorem LoopDelivers.stopped (h : calls.filterMap WorkerStep.delivered? = []) :
    LoopDelivers bound emitted ⟨calls, .ok emitted⟩ := by
  constructor
  · rintro _ ⟨⟩
    simp [h]
  · intro n _ hle
    simpa [h] using hle
  · intro n _ hlt heq
    simp only [h, List.length_nil] at heq
    omega

theorem LoopDelivers.failed {e : WorkerFailure} (hmay : mayEmit emitted bound = true)
    (h : DeliversLast calls) : LoopDelivers bound emitted ⟨calls, .error e⟩ := by
  have hle := h.length_le
  constructor
  · intro m hm
    cases hm
  · rintro n rfl _
    have hlt : emitted < n := of_decide_eq_true hmay
    dsimp only
    omega
  · intro n _ _ heq
    dsimp only at heq
    exact h.ends (by omega)

theorem LoopDelivers.skipped (hnone : calls.filterMap WorkerStep.delivered? = [])
    (h : LoopDelivers bound emitted rest) :
    LoopDelivers bound emitted ⟨calls ++ rest.calls, rest.result⟩ := by
  constructor <;> dsimp only <;> rw [List.filterMap_append, hnone, List.nil_append]
  · exact h.counts
  · exact h.within
  · intro n hn hlt heq
    obtain ⟨before, event, hends⟩ := h.ends n hn hlt heq
    refine ⟨calls.filterMap WorkerStep.effect? ++ before, event, ?_⟩
    rw [List.filterMap_append, hends, List.append_assoc]

/-- The send that reaches the bound is the last call, since the loop is over then. -/
theorem LoopDelivers.sent (hmay : mayEmit emitted bound = true) (hlast : DeliversLast calls)
    (hone : (calls.filterMap WorkerStep.delivered?).length = 1)
    (h : LoopDelivers bound (emitted + 1) rest)
    (hover : bound = some (emitted + 1) → rest.calls = []) :
    LoopDelivers bound emitted ⟨calls ++ rest.calls, rest.result⟩ := by
  constructor <;> dsimp only <;>
    rw [List.filterMap_append, List.length_append, hone, ← Nat.add_assoc]
  · exact h.counts
  · rintro n rfl _
    exact h.within n rfl (of_decide_eq_true hmay)
  · rintro n rfl hlt heq
    rw [List.filterMap_append]
    rcases Nat.lt_or_eq_of_le (Nat.succ_le_of_lt hlt) with hmore | rfl
    · obtain ⟨before, event, hends⟩ := h.ends n rfl hmore heq
      refine ⟨calls.filterMap WorkerStep.effect? ++ before, event, ?_⟩
      rw [hends, List.append_assoc]
    · rw [hover rfl, List.filterMap_nil, List.append_nil]
      exact hlast.ends hone

end LoopDelivers

theorem loopSteps_delivers (pipeline : PrivacyWorkerPipeline) (bound : Option ℕ)
    (state : PipelineState) (gate : SamplingGate) (emitted : ℕ) (rounds : List Round) :
    LoopDelivers bound emitted (pipeline.loopSteps bound state gate emitted rounds) := by
  induction rounds generalizing state gate emitted with
  | nil =>
    unfold loopSteps
    split_ifs
    · exact LoopDelivers.stopped rfl
    · exact LoopDelivers.stopped rfl
  | cons round rounds ih =>
    unfold loopSteps
    split_ifs with hmay
    · obtain ⟨hlast, hcount⟩ := turnSteps_delivers pipeline state gate round
      revert hlast hcount
      rcases pipeline.turnSteps state gate round with ⟨calls, e | ⟨state', _ | next | next⟩⟩ <;>
        intro hlast hcount
      · exact LoopDelivers.failed hmay hlast
      · have hnone := List.eq_nil_of_length_eq_zero (hcount state' .finished rfl)
        rw [Traced.ok_bind, Traced.pure_eq, List.append_nil]
        exact LoopDelivers.stopped hnone
      · have hnone := List.eq_nil_of_length_eq_zero (hcount state' (.skipped next) rfl)
        exact (ih state' next emitted).skipped hnone
      · refine LoopDelivers.sent hmay hlast (hcount state' (.emitted next) rfl)
          (ih state' next (emitted + 1)) ?_
        rintro rfl
        dsimp only
        rw [loopSteps_full, Traced.pure_eq]
    · exact LoopDelivers.stopped rfl

/-- At most so many events are delivered, and the last effect is the send that reaches the bound. -/
def DeliversWithin (n : ℕ) (steps : List WorkerStep) : Prop :=
  (steps.filterMap WorkerStep.delivered?).length ≤ n ∧
    ((steps.filterMap WorkerStep.delivered?).length = n → ∃ before event,
      steps.filterMap WorkerStep.effect? = before ++ [.sunk event false])

theorem delivered_of_effect {step : WorkerStep} {event : DetectionEvent}
    (h : step.effect? = some (.sunk event false)) : step.delivered? = some event := by
  cases step <;> cases h
  rfl

theorem DeliversWithin.nothing_after {n : ℕ} {before after : List WorkerStep}
    (h : DeliversWithin n (before ++ after))
    (hcount : (before.filterMap WorkerStep.delivered?).length = n) :
    after.filterMap WorkerStep.effect? = [] := by
  obtain ⟨hle, hends⟩ := h
  rw [List.filterMap_append, List.length_append] at hle hends
  have hnone : after.filterMap WorkerStep.delivered? = [] :=
    List.eq_nil_of_length_eq_zero (by omega)
  obtain ⟨earlier, event, heffects⟩ := hends (by rw [hnone, List.length_nil, Nat.add_zero, hcount])
  rw [List.filterMap_append] at heffects
  by_contra hsome
  obtain ⟨effects, last, hlast⟩ := (List.eq_nil_or_concat' _).resolve_left hsome
  rw [hlast, ← List.append_assoc] at heffects
  have hmem : RunEffect.sunk event false ∈ after.filterMap WorkerStep.effect? := by
    rw [hlast, List.singleton_inj.mp (List.append_inj_right' heffects rfl)]
    exact List.mem_append_right _ List.mem_cons_self
  obtain ⟨step, hstep, heffect⟩ := List.mem_filterMap.mp hmem
  have hdelivered := List.mem_filterMap.mpr ⟨step, hstep, delivered_of_effect heffect⟩
  rw [hnone] at hdelivered
  exact List.not_mem_nil hdelivered

end Counting

section Done

theorem emitSteps_ended (pipeline : PrivacyWorkerPipeline) {state state' : PipelineState}
    {gate : SamplingGate} {round : Round} {captured : CapturedFrame} {ended : RoundEnd}
    (h : (pipeline.emitSteps state gate round captured).result = .ok (state', ended)) :
    ended = .emitted gate := by
  unfold emitSteps at h
  revert h
  dsimp only
  rcases pipeline.processFrame state { round.frame with captured := some captured } with
    ⟨next, e | event⟩
  · exact nofun
  · cases round.checkProcessed with
    | error e => exact nofun
    | ok u =>
      cases round.sinkRaises with
      | true => exact nofun
      | false =>
        cases round.checkSent with
        | error e => exact nofun
        | ok u' =>
          rintro ⟨⟩
          rfl

/-- A round that ends the loop has read the end of the source. -/
theorem turnSteps_finished (pipeline : PrivacyWorkerPipeline) {state state' : PipelineState}
    {gate : SamplingGate} {round : Round}
    (h : (pipeline.turnSteps state gate round).result = .ok (state', .finished)) :
    .ok none ∈ (pipeline.turnSteps state gate round).calls.filterMap WorkerStep.read? := by
  unfold turnSteps at h ⊢
  revert h
  cases round.checkBefore with
  | error e =>
    intro h
    cases h
  | ok u =>
    cases round.read with
    | error e =>
      intro h
      cases h
    | ok captured =>
      cases round.checkRead with
      | error e =>
        intro h
        cases h
      | ok u' =>
        cases captured with
        | none => exact fun _ => List.mem_singleton_self _
        | some captured =>
          simp only [Traced.call, Traced.ok_bind]
          rcases gate.accept captured.sampleTimeSeconds with e | ⟨next, _ | _⟩ <;> intro h
          · cases h
          · cases h
          · cases pipeline.emitSteps_ended h

theorem bound_of_not_mayEmit {bound : Option ℕ} {emitted : ℕ}
    (hle : ∀ n, bound = some n → emitted ≤ n) (h : ¬ mayEmit emitted bound = true) :
    bound = some emitted := by
  cases bound with
  | none => exact absurd rfl h
  | some n =>
    have hn := hle n rfl
    have hlt : ¬ emitted < n := fun hlt => h (decide_eq_true hlt)
    congr 1
    omega

/-- A loop returns only at the end of the source or at the bound. -/
theorem loopSteps_done (pipeline : PrivacyWorkerPipeline) (bound : Option ℕ)
    (state : PipelineState) (gate : SamplingGate) (emitted : ℕ) (rounds : List Round)
    (hle : ∀ n, bound = some n → emitted ≤ n) {m : ℕ}
    (h : (pipeline.loopSteps bound state gate emitted rounds).result = .ok m) :
    .ok none ∈ (pipeline.loopSteps bound state gate emitted rounds).calls.filterMap
      WorkerStep.read? ∨ bound = some m := by
  induction rounds generalizing state gate emitted with
  | nil =>
    unfold loopSteps at h ⊢
    split_ifs at h ⊢ with hmay
    · exact .inl (List.mem_singleton_self _)
    · cases h
      exact .inr (bound_of_not_mayEmit hle hmay)
  | cons round rounds ih =>
    unfold loopSteps at h ⊢
    split_ifs at h ⊢ with hmay
    · have hfinished := fun {state'} => @turnSteps_finished pipeline state state' gate round
      revert h hfinished
      rcases pipeline.turnSteps state gate round with ⟨calls, e | ⟨state', _ | next | next⟩⟩ <;>
        intro h hfinished
      · cases h
      · left
        rw [Traced.ok_bind, Traced.pure_eq, List.append_nil]
        exact hfinished rfl
      · rw [Traced.ok_bind, List.filterMap_append]
        exact (ih state' next emitted hle h).imp_left (List.mem_append_right _)
      · have hnext : ∀ n, bound = some n → emitted + 1 ≤ n := by
          rintro n rfl
          exact of_decide_eq_true hmay
        rw [Traced.ok_bind, List.filterMap_append]
        exact (ih state' next (emitted + 1) hnext h).imp_left (List.mem_append_right _)
    · cases h
      exact .inr (bound_of_not_mayEmit hle hmay)

end Done

section Run
variable (pipeline : PrivacyWorkerPipeline) (rate : SampleFps) (state : PipelineState)
  (call : RunCall)

/-- The steps inside the `with` statement. -/
def bodySteps (bound : Option ℕ) : Traced WorkerStep WorkerFailure ℕ := do
  let _ ← .call (.check call.firstCheck) call.firstCheck
  pipeline.loopSteps bound state (.create rate) 0 call.rounds

/-- The steps of a run: none, unless its arguments pass and source and lifecycle are entered. -/
def runSteps : Traced WorkerStep WorkerFailure ℕ := do
  let _ ← ⟨[], if call.sinkCallable then .ok () else
    .error (.pipeline ⟨"metadata sink is invalid"⟩)⟩
  let bound ← ⟨[], call.maxEvents.bound?.mapError .pipeline⟩
  let _ ← ⟨[], call.sourceEnter⟩
  let _ ← ⟨[], call.lifecycleEnter⟩
  pipeline.bodySteps rate state call bound

theorem runSteps_cases :
    (¬ call.Entered ∧ ∃ e, pipeline.runSteps rate state call = ⟨[], .error e⟩) ∨
    call.Entered ∧ ∃ bound, call.maxEvents.bound? = .ok bound ∧
      pipeline.runSteps rate state call = pipeline.bodySteps rate state call bound := by
  unfold runSteps
  cases hsink : call.sinkCallable with
  | false => exact .inl ⟨fun h => Bool.noConfusion (h.sink.symm.trans hsink), _, rfl⟩
  | true =>
    cases hmax : call.maxEvents.bound? with
    | error e =>
      refine .inl ⟨fun h => ?_, _, rfl⟩
      obtain ⟨bound, hbound⟩ := h.maxEvents
      cases hmax.symm.trans hbound
    | ok bound =>
      cases hsource : call.sourceEnter with
      | error e =>
        refine .inl ⟨fun h => ?_, _, rfl⟩
        cases hsource.symm.trans h.source
      | ok u =>
        cases hlifecycle : call.lifecycleEnter with
        | error e =>
          refine .inl ⟨fun h => ?_, _, rfl⟩
          cases hlifecycle.symm.trans h.lifecycle
        | ok u' => exact .inr ⟨⟨hsink, ⟨bound, hmax⟩, hsource, hlifecycle⟩, bound, rfl, rfl⟩

theorem leave_ok {α : Type} {ran : Ran α} {exit : Except WorkerFailure Unit} {a : α}
    (h : (ran.leave exit).outcome = .ok a) : exit = .ok () ∧ ran.outcome = .ok a := by
  cases exit with
  | error e => cases h
  | ok u => exact ⟨rfl, h⟩

theorem mapError_eq_ok {ε δ α : Type} {f : ε → δ} {x : Except ε α} {a : α}
    (h : x.mapError f = .ok a) : x = .ok a := by
  cases x with
  | error e => cases h
  | ok b =>
    cases h
    rfl

/-- The steps of the `with` statement are those of its effects. -/
theorem bodySteps_traces (bound : Option ℕ) (hsource : call.sourceEnter = .ok ())
    (hlifecycle : call.lifecycleEnter = .ok ()) :
    (pipeline.bodySteps rate state call bound).calls.filterMap WorkerStep.effect? =
      (pipeline.runWith rate bound state call).effects ∧
    ∀ n, (pipeline.runWith rate bound state call).outcome = .ok n →
      (pipeline.bodySteps rate state call bound).result = .ok n ∧
      call.lifecycleExit = .ok () ∧ call.sourceExit = .ok () := by
  unfold runWith bodySteps
  rw [hsource, hlifecycle]
  dsimp only
  rw [(Ran.leave_state _ _).2, (Ran.leave_state _ _).2]
  obtain ⟨heffects, hresult⟩ := pipeline.loopSteps_traces bound state (.create rate) 0 call.rounds
  cases call.firstCheck with
  | error e =>
    refine ⟨rfl, fun n hn => ?_⟩
    obtain ⟨-, hinner⟩ := leave_ok hn
    cases (leave_ok hinner).2
  | ok u =>
    refine ⟨heffects, fun n hn => ?_⟩
    obtain ⟨hsourceExit, hinner⟩ := leave_ok hn
    obtain ⟨hlifecycleExit, hloop⟩ := leave_ok hinner
    exact ⟨hresult.trans hloop, hlifecycleExit, hsourceExit⟩

/-- The steps of a run are those of its effects, and a run that returns has the result of its
steps. -/
theorem runSteps_traces :
    (pipeline.runSteps rate state call).calls.filterMap WorkerStep.effect? =
      (pipeline.run rate state call).2.1 ∧
    ∀ n, (pipeline.run rate state call).2.2 = .ok n →
      (pipeline.runSteps rate state call).result = .ok n ∧
      call.sourceEnter = .ok () ∧ call.lifecycleEnter = .ok () ∧
      call.lifecycleExit = .ok () ∧ call.sourceExit = .ok () := by
  unfold runSteps run
  cases call.sinkCallable with
  | false => exact ⟨rfl, nofun⟩
  | true =>
    cases call.maxEvents.bound? with
    | error e => exact ⟨rfl, nofun⟩
    | ok bound =>
      rw [if_pos rfl]
      dsimp only
      cases hsource : call.sourceEnter with
      | error e =>
        refine ⟨?_, fun n hn => ?_⟩
        · rw [runWith, hsource]
          rfl
        · rw [runWith, hsource] at hn
          cases hn
      | ok u =>
        cases hlifecycle : call.lifecycleEnter with
        | error e =>
          refine ⟨?_, fun n hn => ?_⟩
          · rw [runWith, hsource, hlifecycle]
            dsimp only
            rw [(Ran.leave_state _ _).2]
            rfl
          · have hwith := mapError_eq_ok hn
            rw [runWith, hsource, hlifecycle] at hwith
            cases (leave_ok hwith).2
        | ok u =>
          obtain ⟨heffects, hresult⟩ :=
            pipeline.bodySteps_traces rate state call bound hsource hlifecycle
          refine ⟨heffects, fun n hn => ?_⟩
          obtain ⟨hsteps, hexits⟩ := hresult n (mapError_eq_ok hn)
          exact ⟨hsteps, rfl, rfl, hexits⟩

/-- The first lifecycle check of a run that is let into its loop. -/
theorem bodySteps_cases (bound : Option ℕ) :
    (∃ e, pipeline.bodySteps rate state call bound = ⟨[.check (.error e)], .error e⟩) ∨
    pipeline.bodySteps rate state call bound =
      ⟨.check (.ok ()) :: (pipeline.loopSteps bound state (.create rate) 0 call.rounds).calls,
        (pipeline.loopSteps bound state (.create rate) 0 call.rounds).result⟩ := by
  unfold bodySteps
  cases call.firstCheck with
  | error e => exact .inl ⟨e, rfl⟩
  | ok u => exact .inr rfl

theorem runSteps_emits : ∃ offered ended, offered <+: call.rounds.map Round.read ++ [.ok none] ∧
    Emits pipeline state (.create rate) offered (pipeline.runSteps rate state call).calls ended ∧
    (ended = none → ∃ e, (pipeline.runSteps rate state call).result = .error e) := by
  rcases pipeline.runSteps_cases rate state call with ⟨-, e, hrun⟩ | ⟨-, bound, -, hrun⟩ <;>
    rw [hrun]
  · exact ⟨[], some (state, .create rate), List.nil_prefix, .nil, nofun⟩
  · rcases pipeline.bodySteps_cases rate state call bound with ⟨e, hbody⟩ | hbody <;> rw [hbody]
    · refine ⟨[], some (state, .create rate), List.nil_prefix, ?_, nofun⟩
      refine ⟨List.prefix_rfl, fun _ => rfl, .inl rfl, rfl, rfl, .inl rfl, .inl rfl, ?_⟩
      rintro _ _ ⟨⟩
      exact ⟨rfl, rfl⟩
    · obtain ⟨offered, ended, hoffered, h, hcut⟩ :=
        loopSteps_emits pipeline bound state (.create rate) 0 call.rounds
      exact ⟨offered, ended, hoffered, ⟨h.reads, h.readAll, h.sampled, h.accepted, h.outcomes,
        h.sent, h.delivered, h.after⟩, hcut⟩

theorem bodySteps_stops (bound : Option ℕ) :
    (pipeline.bodySteps rate state call bound).Stops WorkerStep.fails := by
  unfold bodySteps
  refine Traced.stops_call_bind ?_ fun _ => pipeline.loopSteps_stops _ _ _ _ _
  rfl

theorem runSteps_failed {before after : List WorkerStep} {step : WorkerStep}
    (h : (pipeline.runSteps rate state call).calls = before ++ step :: after)
    (hstep : step.fails = true) :
    after = [] ∧ ∃ e, (pipeline.runSteps rate state call).result = .error e := by
  rcases pipeline.runSteps_cases rate state call with ⟨-, e, hrun⟩ | ⟨-, bound, -, hrun⟩ <;>
    rw [hrun] at h ⊢
  · cases before <;> cases h
  · exact (pipeline.bodySteps_stops rate state call bound).failed h hstep

/-- A run reads and delivers as its loop does. -/
theorem runSteps_loop {P : List WorkerStep → Prop} (hnil : P [])
    (hcheck : ∀ outcome, P [.check outcome])
    (hloop : ∀ bound, call.maxEvents.bound? = .ok bound → P (.check (.ok ()) ::
      (pipeline.loopSteps bound state (.create rate) 0 call.rounds).calls)) :
    P (pipeline.runSteps rate state call).calls := by
  rcases pipeline.runSteps_cases rate state call with ⟨-, e, hrun⟩ | ⟨-, bound, hbound, hrun⟩ <;>
    rw [hrun]
  · exact hnil
  · rcases pipeline.bodySteps_cases rate state call bound with ⟨e, hbody⟩ | hbody <;> rw [hbody]
    · exact hcheck _
    · exact hloop bound hbound

theorem runSteps_end {before after : List (Except WorkerFailure (Option CapturedFrame))} :
    (pipeline.runSteps rate state call).calls.filterMap WorkerStep.read? =
      before ++ .ok none :: after → after = [] := by
  apply pipeline.runSteps_loop rate state call
    (P := fun steps => steps.filterMap WorkerStep.read? = before ++ .ok none :: after → after = [])
  · intro h
    cases before <;> cases h
  · intro _ h
    cases before <;> cases h
  · intro bound _ h
    exact pipeline.loopSteps_end bound state _ 0 call.rounds h

theorem maxEvents_pos {maxEvents : MaxEvents} {n : ℕ} (h : maxEvents.bound? = .ok (some n)) :
    0 < n := by
  cases maxEvents with
  | none => cases h
  | other => cases h
  | int m =>
    unfold MaxEvents.bound? at h
    dsimp only at h
    split_ifs at h with hm
    cases h
    omega

/-- A run stays within its bound and ends with the send that reaches it. -/
theorem runSteps_within {n : ℕ} (h : call.maxEvents.bound? = .ok (some n)) :
    DeliversWithin n (pipeline.runSteps rate state call).calls := by
  have hpos := maxEvents_pos h
  apply pipeline.runSteps_loop rate state call
  · exact ⟨Nat.zero_le n, fun heq => absurd heq hpos.ne⟩
  · exact fun _ => ⟨Nat.zero_le n, fun heq => absurd heq hpos.ne⟩
  · intro bound hbound
    rw [h] at hbound
    obtain rfl := Except.ok.inj hbound
    have hloop := loopSteps_delivers pipeline (some n) state (.create rate) 0 call.rounds
    have hle := hloop.within n rfl (Nat.zero_le n)
    have hends := hloop.ends n rfl hpos
    rw [Nat.zero_add] at hle hends
    exact ⟨hle, hends⟩

theorem runSteps_count {n : ℕ} (h : (pipeline.runSteps rate state call).result = .ok n) :
    n = ((pipeline.runSteps rate state call).calls.filterMap WorkerStep.delivered?).length := by
  rcases pipeline.runSteps_cases rate state call with ⟨-, e, hrun⟩ | ⟨-, bound, -, hrun⟩ <;>
    rw [hrun] at h ⊢
  · cases h
  · rcases pipeline.bodySteps_cases rate state call bound with ⟨e, hbody⟩ | hbody <;>
      rw [hbody] at h ⊢
    · cases h
    · have hloop := loopSteps_delivers pipeline bound state (.create rate) 0 call.rounds
      have hcount := hloop.counts n h
      rw [Nat.zero_add] at hcount
      exact hcount

theorem not_entered (h : ¬ call.Entered) :
    ∃ e, pipeline.runSteps rate state call = ⟨[], .error e⟩ := by
  rcases pipeline.runSteps_cases rate state call with ⟨-, hrun⟩ | ⟨hentered, -⟩
  · exact hrun
  · exact absurd hentered h

/-- A run that is let in raises with its last step, or it ends at the end of the source or at its
bound. -/
theorem runSteps_ends (h : call.Entered) :
    ((∃ e, (pipeline.runSteps rate state call).result = .error e) ∧ ∃ before step,
      (pipeline.runSteps rate state call).calls = before ++ [step] ∧ step.fails = true) ∨
    ∃ n, (pipeline.runSteps rate state call).result = .ok n ∧
      (.ok none ∈ (pipeline.runSteps rate state call).calls.filterMap WorkerStep.read? ∨
        call.maxEvents.bound? = .ok (some n)) := by
  rcases pipeline.runSteps_cases rate state call with ⟨hnot, -⟩ | ⟨-, bound, hbound, hrun⟩
  · exact absurd h hnot
  · rw [hrun]
    cases hresult : (pipeline.bodySteps rate state call bound).result with
    | error e =>
      exact .inl ⟨⟨e, rfl⟩, (pipeline.bodySteps_stops rate state call bound).last hresult⟩
    | ok n =>
      refine .inr ⟨n, rfl, ?_⟩
      rcases pipeline.bodySteps_cases rate state call bound with ⟨e, hbody⟩ | hbody <;>
        rw [hbody] at hresult ⊢
      · cases hresult
      · rw [hbound]
        have hdone := pipeline.loopSteps_done bound state (.create rate) 0 call.rounds
          (fun n _ => Nat.zero_le n) hresult
        exact hdone.imp_right (congrArg Except.ok)

/-- A run returns what its steps come to where both exits pass. -/
theorem run_eq_ok_iff {n : ℕ} : (pipeline.run rate state call).2.2 = .ok n ↔
    (pipeline.runSteps rate state call).result = .ok n ∧
      call.lifecycleExit = .ok () ∧ call.sourceExit = .ok () := by
  constructor
  · intro h
    obtain ⟨hresult, -, -, hexits⟩ := (pipeline.runSteps_traces rate state call).2 n h
    exact ⟨hresult, hexits⟩
  · rintro ⟨hresult, hlifecycle, hsource⟩
    rcases pipeline.runSteps_cases rate state call with ⟨-, e, hrun⟩ | ⟨h, bound, hbound, hrun⟩ <;>
      rw [hrun] at hresult
    · cases hresult
    · have hloop := (pipeline.loopSteps_traces bound state (.create rate) 0 call.rounds).2
      unfold run runWith
      rw [if_pos h.sink, hbound, h.source, h.lifecycle, hlifecycle, hsource]
      unfold bodySteps at hresult
      cases hcheck : call.firstCheck with
      | error e =>
        rw [hcheck] at hresult
        cases hresult
      | ok u =>
        rw [hcheck] at hresult
        exact congrArg (Except.mapError WorkerFailure.surfaced) (hloop.symm.trans hresult)

/-- When a run raises: its arguments or an entry, a step, or an exit. -/
theorem run_raises_iff : (∃ e, (pipeline.run rate state call).2.2 = .error e) ↔
    ¬ call.Entered ∨
    (∃ step ∈ (pipeline.runSteps rate state call).calls, step.fails = true) ∨
    call.lifecycleExit ≠ .ok () ∨ call.sourceExit ≠ .ok () := by
  have hok : (∃ e, (pipeline.run rate state call).2.2 = .error e) ↔
      ∀ n, (pipeline.run rate state call).2.2 ≠ .ok n := by
    cases (pipeline.run rate state call).2.2 <;> simp
  rw [hok]
  constructor
  · intro hraises
    by_cases hentered : call.Entered
    · rcases pipeline.runSteps_ends rate state call hentered with
        ⟨-, before, step, hcalls, hfails⟩ | ⟨n, hresult, -⟩
      · right
        left
        exact ⟨step, by simp [hcalls], hfails⟩
      · have hexits : ¬(call.lifecycleExit = .ok () ∧ call.sourceExit = .ok ()) := fun hexits =>
          hraises n ((pipeline.run_eq_ok_iff rate state call).mpr ⟨hresult, hexits⟩)
        exact .inr (.inr (not_and_or.mp hexits))
    · exact .inl hentered
  · intro hcause n hn
    obtain ⟨hresult, hlifecycle, hsource⟩ := (pipeline.run_eq_ok_iff rate state call).mp hn
    rcases hcause with hentered | ⟨step, hstep, hfails⟩ | hexit | hexit
    · obtain ⟨e, hrun⟩ := pipeline.not_entered rate state call hentered
      rw [hrun] at hresult
      cases hresult
    · obtain ⟨before, after, hcalls⟩ := List.append_of_mem hstep
      obtain ⟨-, e, he⟩ := pipeline.runSteps_failed rate state call hcalls hfails
      cases hresult.symm.trans he
    · exact hexit hlifecycle
    · exact hexit hsource

/-- What a run emits. It reads the source in order and not past its end. The frames processed are
those that the gate accepts of the frames read, the events sent are those that processing them
returned, each sent once, and only a run that raises lacks the last of them. Nothing is called
after a failure, and nothing is read, processed or sent after the bound. A run that is let in ends
with a failure, at the end of its source or at its bound, and only what failed makes it raise. -/
theorem run_emits (pipeline : PrivacyWorkerPipeline) (rate : SampleFps) (state : PipelineState)
    (call : RunCall) :
    let steps := (pipeline.runSteps rate state call).calls
    let outcome := (pipeline.run rate state call).2.2
    let raised := ∃ e, outcome = .error e
    let sampled := steps.filterMap WorkerStep.sampled?
    let processed := steps.filterMap WorkerStep.processed?
    let sent := steps.filterMap WorkerStep.sent?
    let delivered := steps.filterMap WorkerStep.delivered?
    steps.filterMap WorkerStep.effect? = (pipeline.run rate state call).2.1 ∧
    steps.filterMap WorkerStep.read? <+: call.rounds.map Round.read ++ [.ok none] ∧
    (∀ before after, steps.filterMap WorkerStep.read? = before ++ .ok none :: after →
      after = []) ∧
    Upto raised (steps.filterMap WorkerStep.yielded?) sampled ∧
    processed.map (fun call => call.1.captured) =
      ((SamplingGate.create rate).accepted sampled).map some ∧
    processed.map Prod.snd =
      (Runs.run pipeline.processFrame state (processed.map Prod.fst)).2 ∧
    Upto raised (steps.filterMap WorkerStep.returned?) sent ∧
    Upto raised sent delivered ∧
    (∀ before step after, steps = before ++ step :: after → step.fails = true →
      after = [] ∧ raised) ∧
    (∀ bound, call.maxEvents.bound? = .ok (some bound) → delivered.length ≤ bound ∧
      ∀ before after, steps = before ++ after →
        (before.filterMap WorkerStep.delivered?).length = bound →
        after.filterMap WorkerStep.effect? = []) ∧
    (¬ call.Entered → steps = []) ∧
    (call.Entered → (∃ before step, steps = before ++ [step] ∧ step.fails = true) ∨
      .ok none ∈ steps.filterMap WorkerStep.read? ∨
      call.maxEvents.bound? = .ok (some delivered.length)) ∧
    (raised ↔ ¬ call.Entered ∨ (∃ step ∈ steps, step.fails = true) ∨
      call.lifecycleExit ≠ .ok () ∨ call.sourceExit ≠ .ok ()) ∧
    ∀ n, outcome = .ok n → n = delivered.length ∧
      (.ok none ∈ steps.filterMap WorkerStep.read? ∨ call.maxEvents.bound? = .ok (some n)) ∧
      call.sourceEnter = .ok () ∧ call.lifecycleEnter = .ok () ∧
      call.lifecycleExit = .ok () ∧ call.sourceExit = .ok () := by
  intro steps outcome raised sampled processed sent delivered
  obtain ⟨heffects, hreturned⟩ := pipeline.runSteps_traces rate state call
  obtain ⟨offered, ended, hoffered, h, hcut⟩ := pipeline.runSteps_emits rate state call
  have hraised : (∃ e, (pipeline.runSteps rate state call).result = .error e) → raised := by
    rintro ⟨e, he⟩
    cases hrun : outcome with
    | error e' => exact ⟨e', hrun⟩
    | ok n =>
      have hresult := (hreturned n hrun).1
      rw [he] at hresult
      cases hresult
  refine ⟨heffects, h.reads.trans hoffered, ?_, h.sampled.mono ?_, h.accepted, h.outcomes,
    h.sent.mono ?_, h.delivered.mono ?_, ?_, ?_, ?_, ?_,
    pipeline.run_raises_iff rate state call, ?_⟩
  · intro before after
    exact pipeline.runSteps_end rate state call
  · exact fun hended => hraised (hcut hended)
  · exact fun hended => hraised (hcut hended)
  · exact fun hended => hraised (hcut hended)
  · intro before step after hsteps hfails
    obtain ⟨hafter, hresult⟩ := pipeline.runSteps_failed rate state call hsteps hfails
    exact ⟨hafter, hraised hresult⟩
  · intro bound hbound
    have hwithin := pipeline.runSteps_within rate state call hbound
    refine ⟨hwithin.1, fun before after hsteps hcount => ?_⟩
    exact DeliversWithin.nothing_after (hsteps ▸ hwithin) hcount
  · intro hentered
    obtain ⟨e, hrun⟩ := pipeline.not_entered rate state call hentered
    exact congrArg Traced.calls hrun
  · intro hentered
    rcases pipeline.runSteps_ends rate state call hentered with ⟨-, hfails⟩ | ⟨n, hresult, hdone⟩
    · exact .inl hfails
    · rw [pipeline.runSteps_count rate state call hresult] at hdone
      exact .inr hdone
  · intro n hn
    obtain ⟨hresult, hcalls⟩ := hreturned n hn
    refine ⟨pipeline.runSteps_count rate state call hresult, ?_, hcalls⟩
    have hentered : call.Entered := by
      by_contra hnot
      obtain ⟨e, hrun⟩ := pipeline.not_entered rate state call hnot
      rw [hrun] at hresult
      cases hresult
    rcases pipeline.runSteps_ends rate state call hentered with ⟨⟨e, he⟩, -⟩ | ⟨m, hm, hdone⟩
    · cases hresult.symm.trans he
    · rwa [Except.ok.inj (hm.symm.trans hresult)] at hdone

end Run

end PrivacyWorkerPipeline

end SecureEdge
