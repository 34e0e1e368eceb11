import SecureEdgeVision.Aggregator.Wire

/-! What the posts check of a request before its body is decoded: media type, query, declared
and streamed length. -/
namespace SecureEdge

/-- A request as its handler reads it. The body stream yields its chunks, then ends or
raises. -/
structure HttpRequest where
  contentType : Option String
  contentLength : Option String
  query : List (String × String)
  chunks : List ByteArray
  streamRaises : Bool

def RequestFailure.requestTooLarge : RequestFailure := ⟨413, "request_too_large"⟩

/-- `str.strip` -/
def strip (cs : List Char) : List Char :=
  ((cs.dropWhile isSpace).reverse.dropWhile isSpace).reverse

/-- `_require_json`. Text with a character outside ASCII never lowers to `application/json`. -/
def requireJson (request : HttpRequest) : Except RequestFailure Unit :=
  let mediaType := (strip ((request.contentType.getD "").toList.takeWhile (· ≠ ';'))).map
    Char.toLower
  if mediaType = "application/json".toList then .ok () else .error .invalidRequest

/-- `_require_no_query` -/
def requireNoQuery (request : HttpRequest) : Except RequestFailure Unit :=
  if request.query = [] then .ok () else .error .invalidRequest

/-- `raw.lstrip("0") or "0"` -/
def normalizeDigits (raw : List Char) : List Char :=
  match raw.dropWhile (· = '0') with
  | [] => ['0']
  | c :: rest => c :: rest

/-- The decimal text is longer than the maximum's, or as long and lexicographically larger. -/
def exceedsDecimal (normalized : List Char) (maximum : ℕ) : Bool :=
  let maximumDecimal := Python.decimal maximum
  maximumDecimal.length < normalized.length ||
    (normalized.length = maximumDecimal.length && maximumDecimal < normalized)

/-- `_content_length`. An ASCII decimal is a nonempty run of the ten digits. -/
def contentLength (request : HttpRequest) (maximum : ℕ) : Except RequestFailure (Option ℕ) :=
  match request.contentLength with
  | none => .ok none
  | some raw =>
    if raw.toList = [] ∨ raw.toList.all Char.isDigit = false then .error .invalidRequest
    else if exceedsDecimal (normalizeDigits raw.toList) maximum then .error .requestTooLarge
    else .ok (some (Python.decimalValue (normalizeDigits raw.toList)))

/-- The loop over the stream, with the chunks held so far and their total length. -/
def readChunks (maximum : ℕ) (streamRaises : Bool) (held : List ByteArray) (total : ℕ) :
    List ByteArray → Except RequestFailure (List ByteArray × ℕ)
  | [] => if streamRaises then .error .invalidRequest else .ok (held, total)
  | chunk :: chunks =>
    let total := total + chunk.size
    if maximum < total then .error .requestTooLarge
    else
      readChunks maximum streamRaises (if chunk.size = 0 then held else held ++ [chunk]) total
        chunks

/-- `_read_bounded_body` -/
def readBoundedBody (request : HttpRequest) (maximum : ℕ) : Except RequestFailure ByteArray := do
  let declared ← contentLength request maximum
  let (chunks, total) ← readChunks maximum request.streamRaises [] 0 request.chunks
  match declared with
  | none => pure (chunks.foldl (· ++ ·) ByteArray.empty)
  | some length =>
    if length ≠ total then .error .invalidRequest
    else pure (chunks.foldl (· ++ ·) ByteArray.empty)

theorem requireJson_json {request : HttpRequest}
    (h : request.contentType = some "application/json") : requireJson request = .ok () := by
  unfold requireJson
  rw [h]
  exact if_pos (by decide)

theorem requireJson_missing {request : HttpRequest} (h : request.contentType = none) :
    requireJson request = .error .invalidRequest := by
  unfold requireJson
  rw [h]
  exact if_neg (by decide)

/-- A body that comes in one chunk within the bound is read as it is. -/
theorem readBoundedBody_single {payload : ByteArray} {maximum : ℕ} (h : payload.size ≤ maximum)
    (contentType : Option String) (query : List (String × String)) :
    readBoundedBody ⟨contentType, none, query, [payload], false⟩ maximum = .ok payload := by
  have hbound : ¬ maximum < 0 + payload.size := by omega
  unfold readBoundedBody contentLength
  simp only [Python.ok_bind, readChunks, if_neg hbound, Bool.false_eq_true, ↓reduceIte]
  split_ifs with hempty
  · rw [ByteArray.size_eq_zero_iff.mp hempty]
    rfl
  · rw [List.nil_append, List.foldl_cons, ByteArray.empty_append]
    rfl

end SecureEdge
