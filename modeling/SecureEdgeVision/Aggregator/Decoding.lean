import SecureEdgeVision.Aggregator.Wire
import SecureEdgeVision.Contracts.Acceptance

/-! What strict decoding accepts, said of the document tree that the body is the text of. -/
namespace SecureEdge

open Json (Tree Literal NumberToken PyNumber ScanError Value Represents Strict loads treeScanner)
open Python (Str)

/-- The conversion of the built-in `int` and of a `float` that refuses infinities. -/
def convertNumber (token : NumberToken) : Except ScanError PyNumber :=
  if token.isFloat then
    match token.toFloat? with
    | some x => .ok (.float x)
    | none => .error .value
  else
    match token.toInt? with
    | some n => .ok (.int n)
    | none => .error .value

theorem wireScanner_converts : wireScanner.Converts convertNumber := fun _ => rfl

theorem wireScanner_strict : Strict wireScanner convertNumber readNumber where
  literal n := by
    cases n with
    | constant name => rfl
    | number token =>
      unfold Json.Scanner.literal convertNumber readNumber
      dsimp only
      split_ifs
      · cases token.toFloat? <;> rfl
      · cases token.toInt? <;> rfl
  object _ := rfl

/-- Not `NaN`, not infinite, and no overflow to infinity. -/
def Literal.IsFinite : Literal → Prop
  | .number token => token.isFloat = true → token.toFloat?.isSome = true
  | .constant _ => False

/-- No integer of more digits than `int` converts. -/
def Literal.WithinDigits : Literal → Prop
  | .number token => token.isFloat = false → token.whole.length ≤ NumberToken.maxStrDigits
  | .constant _ => True

theorem readNumber_isSome {literal : Literal} (h : Literal.WithinDigits literal) :
    (readNumber literal).isSome = true ↔ Literal.IsFinite literal := by
  cases literal with
  | constant name => simp [readNumber, Literal.IsFinite]
  | number token =>
    unfold readNumber Literal.IsFinite
    unfold Literal.WithinDigits at h
    dsimp only at h ⊢
    split_ifs with hfloat
    · simp [hfloat]
    · have hdigits := h (by simpa using hfloat)
      simp [hfloat, NumberToken.toInt?, Nat.not_lt.mpr hdigits]

theorem withinDigits_of_isSome {literal : Literal} (h : (readNumber literal).isSome = true) :
    Literal.WithinDigits literal := by
  cases literal with
  | constant name => trivial
  | number token =>
    intro hfloat
    unfold readNumber NumberToken.toInt? at h
    dsimp only at h
    rw [if_neg (by simp [hfloat])] at h
    by_cases hdigits : NumberToken.maxStrDigits < token.whole.length
    · rw [if_pos hdigits] at h
      cases h
    · exact Nat.not_lt.mp hdigits

theorem readable_iff {tree : Tree} (h : ∀ n ∈ tree.numbers, Literal.WithinDigits n) :
    Readable tree ↔ tree.Clean Literal.IsFinite := by
  constructor
  · intro hclean
    exact (hclean.imp fun _ _ => trivial).of_numbers fun n hn =>
      (readNumber_isSome (h n hn)).mp (hclean.of_mem_numbers n hn)
  · intro hclean
    exact (hclean.imp fun _ _ => trivial).of_numbers fun n hn =>
      (readNumber_isSome (h n hn)).mpr (hclean.of_mem_numbers n hn)

section Decoding
variable {α : Type} {validate : Data → Option α} {P : α → Tree → Prop} {payload : ByteArray}
  {text : String} {depth : ℕ} {tree : Tree}

/-- Strict decoding of the text of a tree accepts what the grammar says of the tree. -/
theorem parseWireModel_eq_ok (hvalidate : Decides validate P)
    (htext : String.fromUTF8? payload = some text)
    (htree : loads treeScanner depth text.toList = .ok tree) (x : α) :
    parseWireModel validate depth payload = .ok x ↔ Readable tree ∧ P x tree := by
  have hloads := Json.loads_follows wireScanner_converts htree
  unfold parseWireModel
  rw [htext]
  dsimp only
  rw [hloads]
  rcases Json.strict_cases wireScanner_strict tree with
    ⟨hhooks, hbad⟩ | ⟨data, hhooks, hclean, hrep⟩
  · rw [hhooks]
    exact iff_of_false (fun h => by cases h) fun h => hbad h.1
  · rw [hhooks]
    dsimp only
    rw [← hvalidate tree data hclean hrep x]
    cases hmodel : validate data with
    | none => exact iff_of_false (fun h => by cases h) fun h => by cases h.2
    | some model => simp [hclean]

/-- What is accepted has a tree, which the model stands for. -/
theorem exists_tree_of_parse (hvalidate : Decides validate P) {x : α}
    (h : parseWireModel validate depth payload = .ok x) :
    ∃ text tree, String.fromUTF8? payload = some text ∧
      loads treeScanner depth text.toList = .ok tree ∧ Readable tree ∧ P x tree := by
  have hparse := h
  unfold parseWireModel at h
  cases htext : String.fromUTF8? payload with
  | none =>
    rw [htext] at h
    cases h
  | some text =>
    rw [htext] at h
    dsimp only at h
    cases hloads : loads wireScanner depth text.toList with
    | error e =>
      rw [hloads] at h
      cases e <;> cases h
    | ok data =>
      obtain ⟨tree, htree, -⟩ := Json.exists_tree wireScanner_converts hloads
      exact ⟨text, tree, rfl, htree, (parseWireModel_eq_ok hvalidate htext htree x).mp hparse⟩

end Decoding

/-- Strict decoding accepts exactly the wire grammar: no repeated key, finite numbers, the
fields of the models and nothing else, and every leaf as its contract declares it. -/
theorem strict_decoding_accepts_wire_grammar {payload : ByteArray} {text : String} {depth : ℕ}
    {tree : Tree} (htext : String.fromUTF8? payload = some text)
    (htree : loads treeScanner depth text.toList = .ok tree)
    (hdigits : ∀ n ∈ tree.numbers, Literal.WithinDigits n)
    (envelope : SignedDetectionEnvelope) :
    parseDetectionEnvelope depth payload = .ok envelope ↔
      tree.Clean Literal.IsFinite ∧ IsSignedDetectionEnvelope envelope tree := by
  rw [← readable_iff hdigits]
  exact parseWireModel_eq_ok decides_signedDetectionEnvelope htext htree envelope

/-- A body that a worker sends, and one that repeats a key. -/
theorem strict_decoding_accepts_wire_grammar_samples :
    (∃ payload text tree envelope, String.fromUTF8? payload = some text ∧
      loads treeScanner 5 text.toList = .ok tree ∧
      parseDetectionEnvelope 5 payload = .ok envelope ∧
      tree.Clean Literal.IsFinite ∧ IsSignedDetectionEnvelope envelope tree) ∧
    ∀ envelope, parseDetectionEnvelope 5 "\x7b\"a\":0,\"a\":0\x7d".toUTF8 ≠ .ok envelope := by
  constructor
  · let edge : SafeIdentifier := ⟨"edge-1", by decide⟩
    let event := DetectionEvent.sample edge edge edge ⟨63893000000000000, by decide⟩
    obtain ⟨envelope, hsign⟩ := exists_sign_sample edge edge edge ⟨63893000000000000, by decide⟩ 7
    obtain ⟨payload, received, -, -, -, hparse, -⟩ :=
      signed_event_verifies_after_wire Ed25519.checksum_lawful Json.exactRepr_floatRepr le_rfl event
        (7 : UInt8) hsign
    obtain ⟨text, tree, htext, htree, hreadable, -⟩ :=
      exists_tree_of_parse decides_signedDetectionEnvelope hparse
    have hgrammar := (strict_decoding_accepts_wire_grammar htext htree
      (fun n hn => withinDigits_of_isSome (hreadable.of_mem_numbers n hn)) received).mp hparse
    exact ⟨payload, text, tree, received, htext, htree, hparse, hgrammar⟩
  · intro envelope hparse
    let zero : Tree := .number (.number ⟨false, ['0'], [], none⟩)
    let key := Str.ofString "a"
    let last : List Char := ['"', 'a', '"', ':', '0', '}']
    let rest : List Char := '"' :: 'a' :: '"' :: ':' :: '0' :: ',' :: last
    have hlast : Json.scanFields (Json.scanValue treeScanner 4) 11 last = .ok ([(key, zero)], []) :=
      have hkey : Json.scanString last.tail = some (key, [':', '0', '}']) := rfl
      have hzero : Json.scanValue treeScanner 4 ['0', '}'] = .ok (zero, ['}']) := rfl
      Json.scanFields_last hkey hzero
    have hfields : Json.scanFields (Json.scanValue treeScanner 4) 12 rest =
        .ok ([(key, zero), (key, zero)], []) :=
      have hkey : Json.scanString rest.tail = some (key, ':' :: '0' :: ',' :: last) := rfl
      have hzero : Json.scanValue treeScanner 4 ('0' :: ',' :: last) =
          .ok (zero, ',' :: last) := rfl
      Json.scanFields_comma hkey hzero hlast
    have hobject : Json.scanObject (Json.scanValue treeScanner 4) rest =
        .ok ([(key, zero), (key, zero)], []) := hfields
    have hscan : Json.scanValue treeScanner 5 ('{' :: rest) =
        .ok (.object [(key, zero), (key, zero)], []) := by
      rw [Json.scanValue, if_neg (by decide), if_pos rfl, hobject]
      rfl
    have htree : loads treeScanner 5 "\x7b\"a\":0,\"a\":0\x7d".toList =
        .ok (.object [(key, zero), (key, zero)]) := by
      show loads treeScanner 5 ('{' :: rest) = _
      rw [loads, if_neg (by decide), Json.skipSpace_cons _ rfl, hscan]
      rfl
    have hdigits : ∀ n ∈ (Value.object [(key, zero), (key, zero)] : Tree).numbers,
        Literal.WithinDigits n := by
      intro n hn
      simp only [zero, Value.numbers, Value.numbersFields, List.append_nil, List.cons_append,
        List.nil_append, List.mem_cons, List.not_mem_nil, or_false, or_self] at hn
      subst hn
      exact fun _ => by decide
    have hclean := ((strict_decoding_accepts_wire_grammar (fromUTF8?_toUTF8 _) htree hdigits
      envelope).mp hparse).1
    cases hclean with
    | object hkeys _ => simp at hkeys

end SecureEdge
