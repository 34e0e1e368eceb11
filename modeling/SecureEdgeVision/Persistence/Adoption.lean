import SecureEdgeVision.Persistence.StoredSchema

/-! Adoption of an existing database: what its checks say once it passed the schema check. -/
namespace SecureEdge

open Binary64 (Finite)
open Python (CaseTable Dict)

section Checked
variable {table : CaseTable}

namespace StoredTable

namespace Checked
variable {stored : StoredTable table} {declared : DeclaredTable} {c : StoredCheck}
  {d : CheckConstraint}

end Checked

end StoredTable

end Checked

end SecureEdge
