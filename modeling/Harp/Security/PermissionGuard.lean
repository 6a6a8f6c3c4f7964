import Harp.Core.AgentConfig

/-
  The permission guard (`src/security/PermissionGuard.ts`).
-/

namespace Harp

/-- `permissionGuard.can(agentId, permission)`. -/
def PermissionGuard.can (agentId : AgentId) (permission : Permission) : Bool :=
  (agentConfigs agentId).permissions.contains permission

end Harp
