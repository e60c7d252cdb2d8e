import FastapiM8.Health

/-! The aggregate of health checks: the most severe of their statuses, as a policy judges them. -/
namespace FastapiM8

namespace HealthStatus

def severity : HealthStatus → ℕ
  | .ok => 0
  | .degraded => 1
  | .unknown => 2
  | .fail => 3

/-- Statuses from the least severe one up. -/
instance : LinearOrder HealthStatus := LinearOrder.lift' severity fun a b h => by
  cases a <;> cases b <;> first | rfl | contradiction

end HealthStatus

end FastapiM8
