import SciChain.Derive.Block

namespace SciChain.Engine
open Derive

instance : Inhabited L2BlockInfo := ⟨⟨default, ⟨0, 0⟩, 0⟩⟩

/-- How far the chain is known at each level of safety. -/
structure EngineSyncState where
  unsafeHead : L2BlockInfo
  localSafeHead : L2BlockInfo
  safeHead : L2BlockInfo
  finalizedHead : L2BlockInfo
  deriving DecidableEq, Repr

instance : Inhabited EngineSyncState := ⟨⟨default, default, default, default⟩⟩

structure EngineSyncStateUpdate where
  unsafeHead : Option L2BlockInfo := none
  localSafeHead : Option L2BlockInfo := none
  safeHead : Option L2BlockInfo := none
  finalizedHead : Option L2BlockInfo := none
  deriving DecidableEq, Repr

namespace EngineSyncState

def applyUpdate (s : EngineSyncState) (update : EngineSyncStateUpdate) : EngineSyncState where
  unsafeHead := update.unsafeHead.getD s.unsafeHead
  localSafeHead := update.localSafeHead.getD s.localSafeHead
  safeHead := update.safeHead.getD s.safeHead
  finalizedHead := update.finalizedHead.getD s.finalizedHead

end EngineSyncState

/-- The chain as the engine controller sees it. -/
structure EngineState where
  syncState : EngineSyncState
  elSyncFinished : Bool
  deriving DecidableEq, Repr

end SciChain.Engine
