import SecureEdgeVision.Aggregator.Decoding
import SecureEdgeVision.Aggregator.Routes
import SecureEdgeVision.Json.Depth

/-! What a request body alone can make the aggregator answer. Every failure of decoding is the
422 of a malformed request, except where the body opens more containers than the interpreter
can follow: that recursion error is not caught, and looks like an outage. -/
namespace SecureEdge

open Json (OpensBeyond ScanError loads)

theorem wireScanner_ordinary : wireScanner.Ordinary where
  number text rest h := by
    rw [wireScanner_converts] at h
    obtain ⟨⟨token, rest'⟩, -, he⟩ := Option.map_eq_some_iff.mp h
    obtain ⟨he, -⟩ := Prod.mk.inj he
    unfold convertNumber at he
    split at he
    · split at he <;> cases he
    · split at he <;> cases he
  number_length text n rest h := by
    rw [wireScanner_converts] at h
    obtain ⟨⟨token, rest'⟩, hmatch, he⟩ := Option.map_eq_some_iff.mp h
    obtain ⟨-, rfl⟩ := Prod.mk.inj he
    exact Json.matchNumber_length hmatch
  constant _ h := by cases h
  object fields h := by
    unfold wireScanner uniqueObject at h
    dsimp only at h
    split_ifs at h
    cases h

/-- A validated model, or the failure of a malformed request. -/
def Sanitized {α : Type} (result : Except WireError α) : Prop :=
  (∃ model, result = .ok model) ∨ result = .error (.failure .invalidRequest)

/-- The text of the body, where it is UTF-8, opens no more containers than the interpreter
can follow. -/
def NestsWithin (depth : ℕ) (payload : ByteArray) : Prop :=
  ∀ text, String.fromUTF8? payload = some text →
    ¬ OpensBeyond wireScanner depth (Json.skipSpace text.toList)

section Decoding
variable {α : Type} (validate : Data → Option α) (depth : ℕ) (payload : ByteArray)

theorem parseWireModel_recursion :
    parseWireModel validate depth payload = .error .recursion ↔ ¬ NestsWithin depth payload := by
  unfold parseWireModel NestsWithin
  cases htext : String.fromUTF8? payload with
  | none =>
    refine iff_of_false (fun h => by cases h) (not_not.mpr fun text h => ?_)
    cases h
  | some text =>
    have hnests : (∀ text', some text = some text' →
        ¬ OpensBeyond wireScanner depth (Json.skipSpace text'.toList)) ↔
          loads wireScanner depth text.toList ≠ .error .recursion := by
      rw [ne_eq, Json.loads_recursion_iff wireScanner_ordinary]
      constructor
      · exact fun h => h text rfl
      · rintro h text' he
        rw [← Option.some.inj he]
        exact h
    rw [hnests]
    dsimp only
    cases hloads : loads wireScanner depth text.toList with
    | error e => cases e <;> simp
    | ok data =>
      dsimp only
      cases validate data <;> simp

theorem parseWireModel_cases : Sanitized (parseWireModel validate depth payload) ∨
    parseWireModel validate depth payload = .error .recursion := by
  unfold parseWireModel Sanitized
  cases String.fromUTF8? payload with
  | none => exact Or.inl (Or.inr rfl)
  | some text =>
    dsimp only
    cases loads wireScanner depth text.toList with
    | error e =>
      cases e with
      | recursion => exact Or.inr rfl
      | decode => exact Or.inl (Or.inr rfl)
      | value => exact Or.inl (Or.inr rfl)
    | ok data =>
      dsimp only
      cases validate data with
      | none => exact Or.inl (Or.inr rfl)
      | some model => exact Or.inl (Or.inl ⟨model, rfl⟩)

theorem sanitized_parseWireModel :
    Sanitized (parseWireModel validate depth payload) ↔ NestsWithin depth payload := by
  have hrecursion := parseWireModel_recursion validate depth payload
  rcases parseWireModel_cases validate depth payload with h | h
  · refine iff_of_true h (not_not.mp fun hnests => ?_)
    rcases h with ⟨model, h⟩ | h <;> rw [hrecursion.mpr hnests] at h <;> cases h
  · refine iff_of_false ?_ (hrecursion.mp h)
    rw [h]
    rintro (⟨model, he⟩ | he) <;> cases he

end Decoding

namespace AggregatorApp
variable (app : AggregatorApp)

/-- The request passes the checks before decoding, and this is its body. -/
def Receives (request : HttpRequest) (payload : ByteArray) : Prop :=
  requireJson request = .ok () ∧ readBoundedBody request app.maxRequestBytes = .ok payload

variable {app} {request : HttpRequest} {payload : ByteArray}

theorem readDetection_of_receives (h : app.Receives request payload) :
    app.readDetection request = parseDetectionEnvelope app.depth payload := by
  unfold readDetection
  rw [h.1, h.2]
  rfl

theorem readHeartbeat_of_receives (hquery : requireNoQuery request = .ok ())
    (h : app.Receives request payload) :
    app.readHeartbeat request = parseNodeHeartbeat app.depth payload := by
  unfold readHeartbeat
  rw [hquery, h.1, h.2]
  rfl

/-- A body that no model comes of is answered with an outage exactly where it nests too deep. -/
theorem ingestDetection_status (h : app.Receives request payload)
    (hmodel : ∀ envelope, parseDetectionEnvelope app.depth payload ≠ .ok envelope)
    (state : IngestState) (surroundings : IngestSurroundings) :
    (app.ingestDetection state request surroundings).2.status ≠ 503 ↔
      NestsWithin app.depth payload := by
  have hrecursion := parseWireModel_recursion validateSignedDetectionEnvelope app.depth payload
  unfold ingestDetection
  rw [readDetection_of_receives h]
  rcases parseWireModel_cases validateSignedDetectionEnvelope app.depth payload with
    (⟨model, hok⟩ | hfailed) | hdeep
  · exact absurd hok (hmodel model)
  · refine iff_of_true ?_ (not_not.mp fun hnests => ?_)
    · rw [parseDetectionEnvelope, hfailed]
      show (WireError.failure .invalidRequest).response.status ≠ 503
      decide
    · rw [hrecursion.mpr hnests] at hfailed
      cases hfailed
  · refine iff_of_false ?_ (hrecursion.mp hdeep)
    rw [parseDetectionEnvelope, hdeep]
    show ¬ WireError.recursion.response.status ≠ 503
    decide

theorem recordHeartbeat_status (hquery : requireNoQuery request = .ok ())
    (h : app.Receives request payload)
    (hmodel : ∀ heartbeat, parseNodeHeartbeat app.depth payload ≠ .ok heartbeat)
    (state : IngestState) (surroundings : HeartbeatSurroundings) :
    (app.recordHeartbeat state request surroundings).2.status ≠ 503 ↔
      NestsWithin app.depth payload := by
  have hrecursion := parseWireModel_recursion validateNodeHeartbeat app.depth payload
  unfold recordHeartbeat
  rw [readHeartbeat_of_receives hquery h]
  rcases parseWireModel_cases validateNodeHeartbeat app.depth payload with
    (⟨model, hok⟩ | hfailed) | hdeep
  · exact absurd hok (hmodel model)
  · refine iff_of_true ?_ (not_not.mp fun hnests => ?_)
    · rw [parseNodeHeartbeat, hfailed]
      show (WireError.failure .invalidRequest).response.status ≠ 503
      decide
    · rw [hrecursion.mpr hnests] at hfailed
      cases hfailed
  · refine iff_of_false ?_ (hrecursion.mp hdeep)
    rw [parseNodeHeartbeat, hdeep]
    show ¬ WireError.recursion.response.status ≠ 503
    decide

end AggregatorApp

/-- Decoding a body ends in a model or in the 422, and no malformed body is answered with a
503, exactly where its text nests within what the interpreter can follow. -/
theorem body_sanitized_iff_nestsWithin (depth : ℕ) (payload : ByteArray) :
    (Sanitized (parseDetectionEnvelope depth payload) ↔ NestsWithin depth payload) ∧
    (Sanitized (parseNodeHeartbeat depth payload) ↔ NestsWithin depth payload) ∧
    (∀ app : AggregatorApp, app.depth = depth → ∀ request, app.Receives request payload →
      (∀ envelope, parseDetectionEnvelope depth payload ≠ .ok envelope) →
      ∀ state surroundings, (app.ingestDetection state request surroundings).2.status ≠ 503 ↔
        NestsWithin depth payload) ∧
    ∀ app : AggregatorApp, app.depth = depth → ∀ request, requireNoQuery request = .ok () →
      app.Receives request payload →
      (∀ heartbeat, parseNodeHeartbeat depth payload ≠ .ok heartbeat) →
      ∀ state surroundings, (app.recordHeartbeat state request surroundings).2.status ≠ 503 ↔
        NestsWithin depth payload := by
  refine ⟨sanitized_parseWireModel _ depth payload, sanitized_parseWireModel _ depth payload,
    ?_, ?_⟩
  · rintro app rfl request hreceives hmodel state surroundings
    exact AggregatorApp.ingestDetection_status hreceives hmodel state surroundings
  · rintro app rfl request hquery hreceives hmodel state surroundings
    exact AggregatorApp.recordHeartbeat_status hquery hreceives hmodel state surroundings

theorem parseWireModel_brackets {α : Type} (validate : Data → Option α) (depth : ℕ) :
    parseWireModel validate depth (String.ofList (List.replicate (depth + 1) '[')).toUTF8 =
      .error .recursion := by
  rw [parseWireModel_recursion]
  intro h
  refine h _ (fromUTF8?_toUTF8 _) ?_
  have hopens := Json.opensBeyond_brackets wireScanner depth []
  rw [List.append_nil] at hopens
  rw [String.toList_ofList, List.replicate_succ, Json.skipSpace_cons _ (by decide),
    ← List.replicate_succ]
  exact hopens

/-- A body of 1001 opening brackets, where the interpreter leaves room for 1000: no model, no
422, and a post that is answered as an outage. -/
theorem brackets_look_like_outage :
    ∃ payload : ByteArray, payload = (String.ofList (List.replicate 1001 '[')).toUTF8 ∧
      ¬ Sanitized (parseDetectionEnvelope 1000 payload) ∧
      ¬ Sanitized (parseNodeHeartbeat 1000 payload) ∧
      ∀ app : AggregatorApp, app.depth = 1000 → payload.size ≤ app.maxRequestBytes →
        ∀ state surroundings, (app.ingestDetection state
          ⟨some "application/json", none, [], [payload], false⟩ surroundings).2.status = 503 := by
  have hdetection := parseWireModel_brackets validateSignedDetectionEnvelope 1000
  have hheartbeat := parseWireModel_brackets validateNodeHeartbeat 1000
  refine ⟨_, rfl, ?_, ?_, ?_⟩
  · rintro (⟨model, h⟩ | h) <;> exact absurd (hdetection.symm.trans h) (by simp)
  · rintro (⟨model, h⟩ | h) <;> exact absurd (hheartbeat.symm.trans h) (by simp)
  · intro app hdepth hsize state surroundings
    unfold AggregatorApp.ingestDetection
    rw [app.readDetection_single hsize, hdepth, parseDetectionEnvelope, hdetection]
    rfl

end SecureEdge
