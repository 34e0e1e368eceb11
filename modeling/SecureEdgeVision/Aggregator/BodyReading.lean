import SecureEdgeVision.Aggregator.DigitLimit

/-! The bounded body and its stream. The reader's outcome is a function of the header and of the
concatenated chunks, and no chunk is requested once the bound is crossed. -/
namespace SecureEdge

/-- `b"".join(chunks)` -/
def joinChunks (chunks : List ByteArray) : ByteArray := chunks.foldl (· ++ ·) ByteArray.empty

def totalSize (chunks : List ByteArray) : ℕ := (chunks.map ByteArray.size).sum

/-- A reading of the stream: its result, and the chunks held at each request for another. -/
structure StreamReading (α : Type) where
  result : Except RequestFailure α
  requests : List (List ByteArray)

/-- The loop over the stream with its requests. -/
def readStream (maximum : ℕ) (streamRaises : Bool) (held : List ByteArray) (total : ℕ) :
    List ByteArray → StreamReading (List ByteArray × ℕ)
  | [] => ⟨if streamRaises then .error .invalidRequest else .ok (held, total), [held]⟩
  | chunk :: chunks =>
    let total := total + chunk.size
    if maximum < total then ⟨.error .requestTooLarge, [held]⟩
    else
      let rest := readStream maximum streamRaises (if chunk.size = 0 then held else held ++ [chunk])
        total chunks
      ⟨rest.result, held :: rest.requests⟩

/-- `_read_bounded_body` with its requests. -/
def readBody (request : HttpRequest) (maximum : ℕ) : StreamReading ByteArray :=
  match contentLength request maximum with
  | .error failure => ⟨.error failure, []⟩
  | .ok declared =>
    let stream := readStream maximum request.streamRaises [] 0 request.chunks
    ⟨do
      let (chunks, total) ← stream.result
      match declared with
      | none => pure (joinChunks chunks)
      | some length =>
        if length ≠ total then .error .invalidRequest else pure (joinChunks chunks),
      stream.requests⟩

theorem readStream_result (maximum : ℕ) (streamRaises : Bool) (held chunks : List ByteArray)
    (total : ℕ) : (readStream maximum streamRaises held total chunks).result =
      readChunks maximum streamRaises held total chunks := by
  induction chunks generalizing held total with
  | nil => rfl
  | cons chunk chunks ih =>
    unfold readStream readChunks
    dsimp only
    split_ifs
    · rfl
    · exact ih _ _
    · exact ih _ _

/-- Recording the requests changes no outcome. -/
theorem readBody_result (request : HttpRequest) (maximum : ℕ) :
    (readBody request maximum).result = readBoundedBody request maximum := by
  unfold readBody readBoundedBody
  cases contentLength request maximum with
  | error failure => rfl
  | ok declared =>
    simp only [Python.ok_bind, readStream_result]
    rfl

section Joining

theorem foldl_append_eq (start : ByteArray) (chunks : List ByteArray) :
    chunks.foldl (· ++ ·) start = start ++ joinChunks chunks := by
  unfold joinChunks
  induction chunks generalizing start with
  | nil => exact ByteArray.append_empty.symm
  | cons chunk chunks ih =>
    rw [List.foldl_cons, List.foldl_cons, ih, ih (ByteArray.empty ++ chunk),
      ByteArray.empty_append, ByteArray.append_assoc]

@[simp] theorem joinChunks_cons (chunk : ByteArray) (chunks : List ByteArray) :
    joinChunks (chunk :: chunks) = chunk ++ joinChunks chunks := by
  unfold joinChunks
  rw [List.foldl_cons, foldl_append_eq, ByteArray.empty_append]
  rfl

theorem joinChunks_append (held chunks : List ByteArray) :
    joinChunks (held ++ chunks) = joinChunks held ++ joinChunks chunks := by
  conv_lhs => unfold joinChunks
  rw [List.foldl_append, foldl_append_eq]
  rfl

theorem size_joinChunks (chunks : List ByteArray) :
    (joinChunks chunks).size = totalSize chunks := by
  induction chunks with
  | nil => rfl
  | cons chunk chunks ih =>
    rw [joinChunks_cons, ByteArray.size_append, ih]
    rfl

theorem totalSize_append (held chunks : List ByteArray) :
    totalSize (held ++ chunks) = totalSize held + totalSize chunks := by
  unfold totalSize
  rw [List.map_append, List.sum_append]

/-- Skipping an empty chunk loses nothing. -/
theorem totalSize_keep (held : List ByteArray) (chunk : ByteArray) :
    totalSize (if chunk.size = 0 then held else held ++ [chunk]) = totalSize held + chunk.size := by
  split_ifs with hempty
  · rw [hempty, Nat.add_zero]
  · rw [totalSize_append]
    rfl

theorem joinChunks_keep (held : List ByteArray) (chunk : ByteArray) :
    joinChunks (if chunk.size = 0 then held else held ++ [chunk]) = joinChunks held ++ chunk := by
  split_ifs with hempty
  · rw [ByteArray.size_eq_zero_iff.mp hempty, ByteArray.append_empty]
  · rw [joinChunks_append, joinChunks_cons]
    exact congrArg _ ByteArray.append_empty

end Joining

/-- The loop crosses the bound as soon as all the chunks together do, and keeps them otherwise. -/
theorem readStream_outcome {maximum : ℕ} (held chunks : List ByteArray)
    (h : totalSize held ≤ maximum) :
    (maximum < totalSize held + totalSize chunks →
      (readStream maximum false held (totalSize held) chunks).result = .error .requestTooLarge) ∧
    (totalSize held + totalSize chunks ≤ maximum → ∃ kept,
      (readStream maximum false held (totalSize held) chunks).result =
        .ok (kept, totalSize held + totalSize chunks) ∧
      joinChunks kept = joinChunks held ++ joinChunks chunks) := by
  induction chunks generalizing held with
  | nil =>
    constructor
    · intro hcross
      exact absurd hcross (Nat.not_lt.mpr h)
    · intro _
      exact ⟨held, rfl, ByteArray.append_empty.symm⟩
  | cons chunk chunks ih =>
    have htotal : totalSize held + totalSize (chunk :: chunks) =
        totalSize held + chunk.size + totalSize chunks := by
      rw [Nat.add_assoc]
      rfl
    rw [htotal]
    unfold readStream
    dsimp only
    by_cases hbound : maximum < totalSize held + chunk.size
    · rw [if_pos hbound]
      constructor
      · intro _
        rfl
      · intro hle
        omega
    · rw [if_neg hbound]
      have hrest := ih (if chunk.size = 0 then held else held ++ [chunk]) (by
        rw [totalSize_keep]
        omega)
      rw [totalSize_keep, joinChunks_keep, ByteArray.append_assoc] at hrest
      rw [joinChunks_cons]
      exact hrest

/-- Every request comes while the chunks already read stay within the bound, and so do the chunks
held. -/
theorem readStream_requests {maximum : ℕ} (streamRaises : Bool) (held chunks : List ByteArray)
    (h : totalSize held ≤ maximum) :
    (∀ asked ∈ (readStream maximum streamRaises held (totalSize held) chunks).requests,
      totalSize asked ≤ maximum) ∧
    ∀ i < (readStream maximum streamRaises held (totalSize held) chunks).requests.length,
      totalSize held + totalSize (chunks.take i) ≤ maximum := by
  induction chunks generalizing held with
  | nil =>
    constructor
    · intro asked hasked
      rw [List.mem_singleton.mp hasked]
      exact h
    · intro i _
      rw [List.take_nil]
      exact h
  | cons chunk chunks ih =>
    unfold readStream
    dsimp only
    by_cases hbound : maximum < totalSize held + chunk.size
    · rw [if_pos hbound]
      constructor
      · intro asked hasked
        rw [List.mem_singleton.mp hasked]
        exact h
      · intro i hi
        rw [Nat.lt_one_iff.mp hi]
        exact h
    · rw [if_neg hbound]
      obtain ⟨hheld, hread⟩ := ih (if chunk.size = 0 then held else held ++ [chunk]) (by
        rw [totalSize_keep]
        omega)
      rw [totalSize_keep] at hheld hread
      constructor
      · intro asked hasked
        rcases List.mem_cons.mp hasked with rfl | hasked
        · exact h
        · exact hheld asked hasked
      · intro i hi
        cases i with
        | zero => exact h
        | succ i =>
          have htake : totalSize ((chunk :: chunks).take (i + 1)) =
              chunk.size + totalSize (chunks.take i) := rfl
          rw [htake, ← Nat.add_assoc]
          exact hread i (Nat.lt_of_succ_lt_succ hi)

/-- What a declared length and the body itself decide: refused for the header, for a length over
the limit, declared or real, or for a length that is not the declared one. -/
def boundedBody (header : Option String) (body : ByteArray) (maximum : ℕ) :
    Except RequestFailure ByteArray :=
  match header with
  | none => if maximum < body.size then .error .requestTooLarge else .ok body
  | some raw =>
    if ¬ IsAsciiDecimal raw.toList then .error .invalidRequest
    else if maximum < Python.decimalValue raw.toList then .error .requestTooLarge
    else if maximum < body.size then .error .requestTooLarge
    else if Python.decimalValue raw.toList ≠ body.size then .error .invalidRequest
    else .ok body

/-- The header alone refuses the body. -/
def RefusedHeader (header : Option String) (maximum : ℕ) : Prop :=
  ∃ raw, header = some raw ∧
    (¬ IsAsciiDecimal raw.toList ∨ maximum < Python.decimalValue raw.toList)

section Reading
variable (contentType : Option String) (header : Option String) (query : List (String × String))
  (chunks : List ByteArray) (maximum : ℕ)

theorem readBody_refused (h : RefusedHeader header maximum) (streamRaises : Bool) :
    readBody ⟨contentType, header, query, chunks, streamRaises⟩ maximum =
      ⟨boundedBody header (joinChunks chunks) maximum, []⟩ := by
  obtain ⟨raw, rfl, hraw⟩ := h
  unfold readBody boundedBody
  dsimp only
  by_cases hdecimal : IsAsciiDecimal raw.toList
  · have hlarge := hraw.resolve_left (not_not_intro hdecimal)
    rw [contentLength_decimal rfl hdecimal, if_pos hlarge, if_neg (not_not_intro hdecimal),
      if_pos hlarge]
  · rw [contentLength_invalid rfl hdecimal, if_pos hdecimal]

/-- The number a header that is not refused declares. -/
theorem contentLength_admitted (h : ¬ RefusedHeader header maximum) (streamRaises : Bool) :
    contentLength ⟨contentType, header, query, chunks, streamRaises⟩ maximum =
      .ok (header.map fun raw => Python.decimalValue raw.toList) := by
  cases header with
  | none => rfl
  | some raw =>
    have hdecimal : IsAsciiDecimal raw.toList := by
      by_contra hdecimal
      exact h ⟨raw, rfl, .inl hdecimal⟩
    have hsmall : ¬ maximum < Python.decimalValue raw.toList := fun hlarge =>
      h ⟨raw, rfl, .inr hlarge⟩
    rw [contentLength_decimal rfl hdecimal, if_neg hsmall]
    rfl

theorem boundedBody_admitted (h : ¬ RefusedHeader header maximum) (body : ByteArray) :
    boundedBody header body maximum =
      if maximum < body.size then .error .requestTooLarge
      else if ∃ raw, header = some raw ∧ Python.decimalValue raw.toList ≠ body.size then
        .error .invalidRequest
      else .ok body := by
  cases header with
  | none => simp [boundedBody]
  | some raw =>
    have hdecimal : IsAsciiDecimal raw.toList := by
      by_contra hdecimal
      exact h ⟨raw, rfl, .inl hdecimal⟩
    have hsmall : ¬ maximum < Python.decimalValue raw.toList := fun hlarge =>
      h ⟨raw, rfl, .inr hlarge⟩
    simp [boundedBody, hdecimal, hsmall]

theorem readBody_admitted (h : ¬ RefusedHeader header maximum) :
    readBody ⟨contentType, header, query, chunks, false⟩ maximum =
      ⟨boundedBody header (joinChunks chunks) maximum,
        (readStream maximum false [] 0 chunks).requests⟩ := by
  unfold readBody
  rw [contentLength_admitted contentType header query chunks maximum h,
    boundedBody_admitted header maximum h, size_joinChunks]
  dsimp only
  obtain ⟨hcross, hwithin⟩ := readStream_outcome [] chunks (Nat.zero_le maximum)
  rw [show totalSize [] = 0 from rfl, Nat.zero_add] at hcross hwithin
  by_cases hlarge : maximum < totalSize chunks
  · rw [hcross hlarge, if_pos hlarge]
    rfl
  · obtain ⟨kept, hresult, hjoin⟩ := hwithin (Nat.le_of_not_lt hlarge)
    rw [show joinChunks [] = ByteArray.empty from rfl, ByteArray.empty_append] at hjoin
    rw [hresult, if_neg hlarge, Python.ok_bind]
    cases header with
    | none => simp [hjoin, Pure.pure, Except.pure]
    | some raw => simp [hjoin, Pure.pure, Except.pure]

/-- However the stream splits the body, the reader's outcome is that of the whole body: a refused
header costs no request, no chunk is requested after the one that crosses the limit, and the chunks
held stay within it. -/
theorem bounded_body_independent_of_chunking :
    readBoundedBody ⟨contentType, header, query, chunks, false⟩ maximum =
      boundedBody header (joinChunks chunks) maximum ∧
    (∀ others, joinChunks others = joinChunks chunks →
      readBoundedBody ⟨contentType, header, query, others, false⟩ maximum =
        readBoundedBody ⟨contentType, header, query, chunks, false⟩ maximum) ∧
    let reading := readBody ⟨contentType, header, query, chunks, false⟩ maximum
    reading.result = readBoundedBody ⟨contentType, header, query, chunks, false⟩ maximum ∧
    (RefusedHeader header maximum → reading.requests = []) ∧
    (∀ i < reading.requests.length, totalSize (chunks.take i) ≤ maximum) ∧
    ∀ held ∈ reading.requests, totalSize held ≤ maximum := by
  have houtcome : ∀ chunks, readBoundedBody ⟨contentType, header, query, chunks, false⟩ maximum =
      boundedBody header (joinChunks chunks) maximum := by
    intro chunks
    rw [← readBody_result]
    by_cases hrefused : RefusedHeader header maximum
    · rw [readBody_refused contentType header query chunks maximum hrefused]
    · rw [readBody_admitted contentType header query chunks maximum hrefused]
  have hrequests : (∀ held ∈ (readBody ⟨contentType, header, query, chunks, false⟩
      maximum).requests, totalSize held ≤ maximum) ∧
      ∀ i < (readBody ⟨contentType, header, query, chunks, false⟩ maximum).requests.length,
        totalSize (chunks.take i) ≤ maximum := by
    by_cases hrefused : RefusedHeader header maximum
    · rw [readBody_refused contentType header query chunks maximum hrefused]
      exact ⟨nofun, nofun⟩
    · rw [readBody_admitted contentType header query chunks maximum hrefused]
      have hstream := readStream_requests false [] chunks (Nat.zero_le maximum)
      simpa only [show totalSize [] = 0 from rfl, Nat.zero_add] using hstream
  refine ⟨houtcome chunks, ?_, readBody_result _ _, ?_, hrequests.2, hrequests.1⟩
  · intro others hjoin
    rw [houtcome, houtcome, hjoin]
  · intro hrefused
    rw [readBody_refused contentType header query chunks maximum hrefused]

end Reading

end SecureEdge
