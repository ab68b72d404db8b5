import ApiTest.Net.ServeMux

/-! The routes of the portal API, as `PortalAPI.Mount` registers them: each
handler behind the authentication middleware, the state-changing ones behind the
CSRF header check as well. -/

namespace ApiTest.Portal

open Text Net

inductive PortalHandler where
  | me
  | server
  | wellknown
  | dashboard
  | endpoints
  | endpointDetail
  | auditMeta
  | auditEvents
  | auditEventDetail
  | auditTimeseries
  | auditBreakdown
  | auditStats
  | auditStream
  | auditExportNDJSON
  | auditReplay
  | tryIt
  | listKeys
  | createKey
  | deleteKey
  deriving DecidableEq, Repr

/-- A registration; `csrf` says that the handler is wrapped in
`requireCSRFHeader`. -/
structure PortalRoute where
  pattern : GoString
  handler : PortalHandler
  csrf : Bool
  deriving DecidableEq, Repr

/-- The registrations of `PortalAPI.Mount`, in its order. -/
def portalRoutes : List PortalRoute :=
  [⟨lit "GET /api/v1/portal/me", .me, false⟩,
    ⟨lit "GET /api/v1/portal/server", .server, false⟩,
    ⟨lit "GET /api/v1/portal/wellknown", .wellknown, false⟩,
    ⟨lit "GET /api/v1/portal/dashboard", .dashboard, false⟩,
    ⟨lit "GET /api/v1/portal/endpoints", .endpoints, false⟩,
    ⟨lit "GET /api/v1/portal/endpoints/\x7bname\x7d", .endpointDetail, false⟩,
    ⟨lit "GET /api/v1/portal/audit/meta", .auditMeta, false⟩,
    ⟨lit "GET /api/v1/portal/audit/events", .auditEvents, false⟩,
    ⟨lit "GET /api/v1/portal/audit/events/\x7bid\x7d", .auditEventDetail, false⟩,
    ⟨lit "GET /api/v1/portal/audit/timeseries", .auditTimeseries, false⟩,
    ⟨lit "GET /api/v1/portal/audit/breakdown", .auditBreakdown, false⟩,
    ⟨lit "GET /api/v1/portal/audit/stats", .auditStats, false⟩,
    ⟨lit "GET /api/v1/portal/audit/stream", .auditStream, false⟩,
    ⟨lit "GET /api/v1/portal/audit/export.ndjson", .auditExportNDJSON, false⟩,
    ⟨lit "POST /api/v1/portal/audit/replay/\x7bid\x7d", .auditReplay, true⟩,
    ⟨lit "POST /api/v1/portal/tryit/\x7bgroup\x7d/\x7broute\x7d", .tryIt, true⟩,
    ⟨lit "GET /api/v1/admin/keys", .listKeys, false⟩,
    ⟨lit "POST /api/v1/admin/keys", .createKey, true⟩,
    ⟨lit "DELETE /api/v1/admin/keys/\x7bname\x7d", .deleteKey, true⟩]

end ApiTest.Portal
