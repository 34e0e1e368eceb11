import SecureEdgeVision.Worker.FrameSource

/-! The captures of a frame source: every one that the factory returned is released exactly once,
and none is used after that. -/
namespace SecureEdge

open Runs (Custody Handling)

/-- Who holds which capture. -/
def SourceState.custody (state : SourceState) : Custody := ⟨state.created, state.capture⟩

namespace OpenCvFrameSource
variable (source : OpenCvFrameSource)

theorem follow_use {custody : Custody} {capture : ℕ} (h : custody.held = some capture) :
    custody.follow [.use capture] = some custody := by
  simp [Custody.follow, Custody.step, h]

theorem follow_queries {custody : Custody} {capture : ℕ} (h : custody.held = some capture)
    (property : Option ℤ) : custody.follow (queries property capture) = some custody := by
  unfold queries
  split_ifs
  · exact follow_use h
  · rfl

/-- Opening a capture acquires one, and releases it again unless it is kept. -/
theorem openCapture_follows {state : SourceState} (h : state.capture = none) (call : EnterCall)
    (fpsProperty frameCountProperty : Option ℤ) :
    state.custody.follow (source.openCapture state call fpsProperty frameCountProperty).effects =
      some (source.openCapture state call fpsProperty frameCountProperty).state.custody := by
  have hopened : state.custody.follow [.acquire state.created, .use state.created] =
      some ⟨state.created + 1, some state.created⟩ := by
    simp [Custody.follow, Custody.step, SourceState.custody, h]
  have hreleased : state.custody.follow
      [.acquire state.created, .use state.created, .release state.created] =
      some ⟨state.created + 1, none⟩ := by
    simp [Custody.follow, Custody.step, SourceState.custody, h]
  have hunchanged : some (⟨state.created + 1, none⟩ : Custody) =
      some ⟨state.created + 1, state.capture⟩ := by rw [h]
  unfold openCapture
  cases call.factory with
  | raised => rfl
  | returned u =>
    cases call.isOpened with
    | raised => exact hreleased.trans hunchanged
    | returned opened =>
      cases opened with
      | false => exact hreleased.trans hunchanged
      | true =>
        dsimp only
        cases source.source with
        | camera index => exact hopened
        | file path =>
          dsimp only
          rw [Custody.follow_append, Custody.follow_append, hopened, Option.bind_some,
            follow_queries rfl, Option.bind_some, follow_queries rfl]
          rfl

theorem enter_follows (state : SourceState) (call : EnterCall) :
    state.custody.follow (source.enter state call).effects =
      some (source.enter state call).state.custody := by
  unfold enter
  split_ifs with hopen
  · rfl
  · cases source.checkPath call with
    | error e => rfl
    | ok u =>
      cases source.properties call with
      | error e => rfl
      | ok properties =>
        exact source.openCapture_follows (Option.not_isSome_iff_eq_none.mp hopen) call _ _

theorem read_follows (state : SourceState) (call : ReadCall) :
    state.custody.follow (source.read state call).effects =
      some (source.read state call).state.custody := by
  unfold read
  cases hcapture : state.capture with
  | none => rfl
  | some capture =>
    have huse : state.custody.follow [.use capture] = some state.custody := follow_use hcapture
    dsimp only
    cases monotonicValue call.started "local source clock" with
    | error e => rfl
    | ok started =>
      dsimp only
      rcases source.decode state call started with e | _ | captured
      · exact huse
      · exact huse
      · have hsame : some state.custody = some ⟨state.created, some capture⟩ := by
          rw [SourceState.custody, hcapture]
        exact huse.trans hsame

theorem close_follows (state : SourceState) (release : Called Unit) :
    state.custody.follow (state.close release).effects =
      some (state.close release).state.custody := by
  unfold SourceState.close
  cases hcapture : state.capture with
  | none => rfl
  | some capture =>
    have hrelease : state.custody.follow [.release capture] = some ⟨state.created, none⟩ := by
      simp [Custody.follow, Custody.step, SourceState.custody, hcapture]
    cases release with
    | raised => exact hrelease
    | returned u => exact hrelease

theorem close_state (state : SourceState) (release : Called Unit) :
    (state.close release).state = { state with capture := none } := by
  obtain ⟨capture, sourceFps, expectedFrames, frameIndex, created⟩ := state
  cases capture with
  | none => rfl
  | some capture => cases release <;> rfl

/-- Leaving does with captures what closing does. -/
theorem exit_eq_close (state : SourceState) (raising : Bool) (release : Called Unit) :
    (state.exit raising release).state = (state.close release).state ∧
      (state.exit raising release).effects = (state.close release).effects := by
  unfold SourceState.exit
  dsimp only
  rcases (state.close release).answer with (e | _) | answer
  · cases raising <;> exact ⟨rfl, rfl⟩
  · exact ⟨rfl, rfl⟩
  · exact ⟨rfl, rfl⟩

/-- Every call does with captures what custody of one at a time allows. -/
theorem step_follows (state : SourceState) (call : SourceCall) :
    state.custody.follow (source.step state call).effects =
      some (source.step state call).state.custody := by
  cases call with
  | enter call => exact source.enter_follows state call
  | read call => exact source.read_follows state call
  | close release => exact close_follows state release
  | exit raising release =>
    obtain ⟨hstate, heffects⟩ := exit_eq_close state raising release
    show state.custody.follow (state.exit raising release).effects =
      some (state.exit raising release).state.custody
    rw [hstate, heffects]
    exact close_follows state release

/-- And so does every run. -/
theorem run_follows (state : SourceState) (calls : List SourceCall) :
    state.custody.follow ((Runs.run source.machine state calls).2.flatMap SourceRecord.effects) =
      some (Runs.run source.machine state calls).1.custody := by
  induction calls generalizing state with
  | nil => rfl
  | cons call calls ih =>
    rw [Runs.run_cons_outputs, Runs.run_cons_state, List.flatMap_cons, Custody.follow_append]
    have hstep := source.step_follows state call
    rw [show (source.machine state call).2.effects = (source.step state call).effects from rfl,
      hstep, Option.bind_some]
    exact ih _

/-- An entry raises and keeps what it found, having released any capture it created, or starts over
with what the file declares. -/
theorem enter_cases (state : SourceState) (call : EnterCall) :
    (∃ e, (source.enter state call).answer = .error e ∧
      (source.enter state call).state =
        { state with created := (source.enter state call).state.created } ∧
      ((source.enter state call).effects = [] ∨
        ∃ k, (source.enter state call).effects = [.acquire k, .use k, .release k])) ∨
    ((source.enter state call).answer = .ok .entered ∧
      (source.enter state call).state.frameIndex = 0 ∧
      ∀ path, source.source = .file path →
        (source.enter state call).state.expectedFrames = source.declaredFrames call) := by
  unfold enter declaredFrames
  split_ifs
  · exact .inl ⟨_, rfl, rfl, .inl rfl⟩
  · cases source.checkPath call with
    | error e => exact .inl ⟨_, rfl, rfl, .inl rfl⟩
    | ok u =>
      cases source.properties call with
      | error e => exact .inl ⟨_, rfl, rfl, .inl rfl⟩
      | ok properties =>
        obtain ⟨fpsProperty, frameCountProperty⟩ := properties
        dsimp only
        unfold openCapture
        cases call.factory with
        | raised => exact .inl ⟨_, rfl, rfl, .inl rfl⟩
        | returned u =>
          cases call.isOpened with
          | raised => exact .inl ⟨_, rfl, rfl, .inr ⟨_, rfl⟩⟩
          | returned opened =>
            cases opened with
            | false => exact .inl ⟨_, rfl, rfl, .inr ⟨_, rfl⟩⟩
            | true =>
              cases source.source with
              | camera index => exact .inr ⟨rfl, rfl, nofun⟩
              | file path => exact .inr ⟨rfl, rfl, fun _ _ => rfl⟩

theorem enter_raises {state : SourceState} {call : EnterCall} {e : WorkerFailure}
    (h : (source.enter state call).answer = .error e) :
    (source.enter state call).state.capture = state.capture ∧
      ∀ k, .acquire k ∈ (source.enter state call).effects →
        .release k ∈ (source.enter state call).effects := by
  rcases source.enter_cases state call with ⟨_, -, hstate, heffects⟩ | ⟨hanswer, -⟩
  · refine ⟨by rw [hstate], fun k hk => ?_⟩
    rcases heffects with hnone | ⟨capture, hsome⟩
    · rw [hnone] at hk
      cases hk
    · rw [hsome] at hk ⊢
      simp only [List.mem_cons, Handling.acquire.injEq, reduceCtorEq, List.not_mem_nil, or_false]
        at hk
      simp [hk]
  · rw [hanswer] at h
    cases h

section Declared

/-- The frames decoded since the last entry, one record later. -/
def countDecoded (decoded : ℕ) (record : SourceRecord) : ℕ :=
  match record.call, record.answer with
  | .enter _, .ok _ => 0
  | .read _, .ok (.frame _) => decoded + 1
  | _, _ => decoded

def decodedSinceEntry (history : List SourceRecord) : ℕ := history.foldl countDecoded 0

/-- The frame count that the file declared at the last entry, one record later. -/
def noteDeclared (declared : Option ℕ) (record : SourceRecord) : Option ℕ :=
  match record.call, record.answer with
  | .enter call, .ok _ => source.declaredFrames call
  | _, _ => declared

def declaredAtEntry (history : List SourceRecord) : Option ℕ :=
  history.foldl source.noteDeclared none

theorem step_tracks (state : SourceState) (call : SourceCall) :
    (source.machine state call).1.frameIndex =
      countDecoded state.frameIndex (source.machine state call).2 ∧
    ∀ path, source.source = .file path → (source.machine state call).1.expectedFrames =
      source.noteDeclared state.expectedFrames (source.machine state call).2 := by
  cases call with
  | enter call =>
    unfold machine step countDecoded noteDeclared
    dsimp only
    rcases source.enter_cases state call with ⟨e, hanswer, hstate, -⟩ | ⟨hanswer, hindex, hdeclared⟩
    · rw [hanswer, hstate]
      exact ⟨rfl, fun _ _ => rfl⟩
    · rw [hanswer]
      exact ⟨hindex, hdeclared⟩
  | read call =>
    unfold machine step read
    dsimp only
    cases state.capture with
    | none => exact ⟨rfl, fun _ _ => rfl⟩
    | some capture =>
      dsimp only
      cases monotonicValue call.started "local source clock" with
      | error e => exact ⟨rfl, fun _ _ => rfl⟩
      | ok started =>
        dsimp only
        rcases source.decode state call started with e | _ | captured <;>
          exact ⟨rfl, fun _ _ => rfl⟩
  | close release =>
    show (state.close release).state.frameIndex = state.frameIndex ∧
      ∀ path, source.source = .file path →
        (state.close release).state.expectedFrames = state.expectedFrames
    rw [close_state]
    exact ⟨rfl, fun _ _ => rfl⟩
  | exit raising release =>
    show (state.exit raising release).state.frameIndex = state.frameIndex ∧
      ∀ path, source.source = .file path →
        (state.exit raising release).state.expectedFrames = state.expectedFrames
    rw [(exit_eq_close state raising release).1, close_state]
    exact ⟨rfl, fun _ _ => rfl⟩

/-- A source knows how many frames it decoded since it was last entered and, for a file, how many
the file declared then. -/
theorem after_tracks (calls : List SourceCall) :
    (source.after calls).frameIndex = decodedSinceEntry (source.history calls) ∧
    ∀ path, source.source = .file path →
      (source.after calls).expectedFrames = source.declaredAtEntry (source.history calls) := by
  unfold after history
  induction calls using List.reverseRecOn with
  | nil => exact ⟨rfl, fun _ _ => rfl⟩
  | append_singleton calls call ih =>
    obtain ⟨hdecoded, hdeclared⟩ := ih
    rw [Runs.run_concat]
    generalize Runs.run source.machine .initial calls = before at hdecoded hdeclared ⊢
    obtain ⟨hindex, hexpected⟩ := source.step_tracks before.1 call
    unfold decodedSinceEntry at hdecoded ⊢
    unfold declaredAtEntry at hdeclared ⊢
    dsimp only
    rw [List.foldl_append, List.foldl_append, ← hdecoded]
    refine ⟨hindex, fun path hpath => ?_⟩
    rw [← hdeclared path hpath]
    exact hexpected path hpath

/-- A file is at its end only once it gave the frames it declared. -/
theorem decode_end {state : SourceState} {call : ReadCall} {started : NonNegativeFloat}
    (h : source.decode state call started = .ok none) :
    (∃ path, source.source = .file path) ∧
      ∀ expected ∈ state.expectedFrames, expected ≤ state.frameIndex := by
  unfold decode at h
  obtain ⟨⟨decoded, present⟩, -, h⟩ := Python.bind_eq_ok.mp h
  dsimp only at h
  obtain ⟨finished, -, h⟩ := Python.bind_eq_ok.mp h
  obtain ⟨decodeMs, -, h⟩ := Python.bind_eq_ok.mp h
  cases decoded with
  | true =>
    rw [if_pos rfl] at h
    obtain ⟨_, -, h⟩ := Python.bind_eq_ok.mp h
    obtain ⟨sampleTime, -, h⟩ := Python.bind_eq_ok.mp h
    cases h
  | false =>
    rw [if_neg Bool.false_ne_true] at h
    obtain ⟨_, hnothing, -⟩ := Python.bind_eq_ok.mp h
    replace hnothing := PrivacyWorkerPipeline.liftM_eq_ok.mp hnothing
    unfold decodedNothing at hnothing
    cases hsource : source.source with
    | camera index =>
      rw [hsource] at hnothing
      cases hnothing
    | file path =>
      rw [hsource] at hnothing
      have hall := PrivacyWorkerPipeline.require_ok hnothing
      refine ⟨⟨path, rfl⟩, ?_⟩
      intro expected hmem
      rw [Option.mem_def.mp hmem] at hall
      simpa using hall

theorem read_end {state : SourceState} {call : ReadCall}
    (h : (source.read state call).answer = .ok .endOfFile) :
    (∃ path, source.source = .file path) ∧
      ∀ expected ∈ state.expectedFrames, expected ≤ state.frameIndex := by
  unfold read at h
  cases hcapture : state.capture with
  | none =>
    rw [hcapture] at h
    cases h
  | some capture =>
    rw [hcapture] at h
    dsimp only at h
    cases hstarted : monotonicValue call.started "local source clock" with
    | error e =>
      rw [hstarted] at h
      cases h
    | ok started =>
      rw [hstarted] at h
      dsimp only at h
      rcases hdecode : source.decode state call started with e | _ | captured
      · rw [hdecode] at h
        cases h
      · exact source.decode_end hdecode
      · rw [hdecode] at h
        cases h

end Declared

/-- Along any calls on a new source, every capture that the factory returned is released once
unless it is the one held, none is used outside its custody, and none is created before the
earlier ones are released. An entry that raises has released what it created, and a file comes to
its end only after the frames that it declared when it was entered. -/
theorem captures_released_once (calls : List SourceCall) :
    let log := source.handlings calls
    let state := source.after calls
    (∀ k, .acquire k ∈ log →
      log.count (.release k) = if state.capture = some k then 0 else 1) ∧
    (∀ k, log.count (.release k) ≤ 1) ∧
    (∀ before k after, log = before ++ .use k :: after →
      before.count (.acquire k) = 1 ∧ before.count (.release k) = 0) ∧
    (∀ before k after d, log = before ++ .acquire k :: after → .acquire d ∈ before →
      before.count (.release d) = 1) ∧
    (∀ call e, (source.enter state call).answer = .error e →
      (source.enter state call).state.capture = state.capture ∧
        ∀ k, .acquire k ∈ (source.enter state call).effects →
          .release k ∈ (source.enter state call).effects) ∧
    ∀ call, (source.read state call).answer = .ok .endOfFile →
      (∃ path, source.source = .file path) ∧
        ∀ declared ∈ source.declaredAtEntry (source.history calls),
          declared ≤ decodedSinceEntry (source.history calls) := by
  intro log state
  have hfollow : Custody.follow ⟨0, none⟩ log = some state.custody :=
    source.run_follows .initial calls
  have haccounts := Custody.accounts_of_follow hfollow
  refine ⟨fun k hk => ?_, fun k => ?_, ?_, ?_, ?_, ?_⟩
  · have hacquired := haccounts.acquired k
    have hpos := List.count_pos_iff.mpr hk
    have hlt : k < state.custody.acquired := by
      by_contra hlt
      rw [if_neg hlt] at hacquired
      omega
    rw [haccounts.released k]
    by_cases hheld : state.capture = some k
    · rw [if_pos hheld]
      exact if_neg fun h => h.2 hheld
    · rw [if_neg hheld]
      exact if_pos ⟨hlt, hheld⟩
  · rw [haccounts.released k]
    split_ifs <;> omega
  · rintro before k after hlog
    exact Custody.held_at_use (hlog ▸ hfollow)
  · rintro before k after d hlog hd
    exact Custody.released_before_acquire (hlog ▸ hfollow) hd
  · exact fun call e h => source.enter_raises h
  · intro call h
    obtain ⟨⟨path, hpath⟩, hexpected⟩ := source.read_end h
    obtain ⟨hdecoded, hdeclared⟩ := source.after_tracks calls
    refine ⟨⟨path, hpath⟩, ?_⟩
    rw [← hdeclared path hpath, ← hdecoded]
    exact hexpected

end OpenCvFrameSource

end SecureEdge
