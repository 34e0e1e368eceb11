import SecureEdgeVision.Contracts.ReadBack
import SecureEdgeVision.Persistence.Records
import SecureEdgeVision.Python.IsoMicroseconds

/-! Timestamps as the database stores them: text that reads back as the same instant, and that
orders as the instants do. -/
namespace SecureEdge

open Python (Str Datetime fromisoformat isoformatMicroseconds replace)

namespace UtcTimestampType

def offsetText : List Char := ['+', '0', '0', ':', '0', '0']

/-- `process_bind_param` for a UTC timestamp. -/
def processBindParam (value : UtcDatetime) : String :=
  String.ofList (replace offsetText ['Z'] (isoformatMicroseconds value.datetime ++ offsetText))

/-- `process_result_value` for a text. -/
def processResultValue (value : String) : Except PersistenceError UtcDatetime :=
  match h : fromisoformat (Str.ofChars (replace ['Z'] offsetText value.toList)) with
  | none => .error ⟨"stored timestamp is invalid"⟩
  | some parsed =>
    if parsed.offset = some 0 then
      .ok ⟨parsed.micros, by
        unfold maxMicros
        exact Datetime.micros_le (Python.fromisoformat_isValid h)⟩
    else .error ⟨"stored timestamp is invalid"⟩

theorem processBindParam_toList (t : UtcDatetime) :
    (processBindParam t).toList = isoformatMicroseconds t.datetime ++ ['Z'] := by
  have hplus : ∀ c ∈ isoformatMicroseconds t.datetime, c ≠ '+' := by
    rintro c hc rfl
    exact absurd (Python.mem_isoformatMicroseconds hc) (by decide)
  rw [processBindParam, String.toList_ofList, offsetText, Python.replace_append hplus,
    Python.replace_self]

/-- What is stored for an instant is read back as that instant. -/
theorem processResultValue_processBindParam (t : UtcDatetime) :
    processResultValue (processBindParam t) = .ok t := by
  have hz : ∀ c ∈ isoformatMicroseconds t.datetime, c ≠ 'Z' := by
    rintro c hc rfl
    exact absurd (Python.mem_isoformatMicroseconds hc) (by decide)
  have hread : fromisoformat (Str.ofChars (replace ['Z'] offsetText (processBindParam t).toList)) =
      some t.datetime := by
    rw [processBindParam_toList, Python.replace_append hz, Python.replace_self]
    exact Python.fromisoformat_isoformatMicroseconds (Datetime.isValid_ofMicros t.micros_le _)
      (Or.inr rfl)
  unfold processResultValue
  split
  · rename_i h
    rw [hread] at h
    cases h
  · rename_i parsed h
    rw [hread] at h
    obtain rfl := Option.some.inj h
    rw [if_pos t.datetime_offset]
    exact congrArg Except.ok (UtcDatetime.micros_injective t.datetime_micros)

/-- An earlier instant has the smaller text. -/
theorem processBindParam_strictMono : StrictMono processBindParam := by
  intro a b h
  rw [String.lt_iff_toList_lt, processBindParam_toList, processBindParam_toList]
  refine Python.append_lt_append ?_ (Python.isoformatMicroseconds_lt b.micros_le h _)
  rw [Python.isoformatMicroseconds_length, Python.isoformatMicroseconds_length]

/-- The comparison that SQL makes on the stored texts. -/
theorem processBindParam_lt_iff {a b : UtcDatetime} :
    processBindParam a < processBindParam b ↔ a < b := processBindParam_strictMono.lt_iff_lt

end UtcTimestampType

end SecureEdge
