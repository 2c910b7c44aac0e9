import Allegiance.Binary64.Arithmetic
import Allegiance.Binary64.Decimal

namespace Allegiance

/-- With `legacy` the threshold of a player without kills is zero, which the first weapon
reaches. -/
inductive ZeroKillPolicy
  | unknown
  | legacy
  deriving DecidableEq

namespace ZeroKillPolicy

def name : ZeroKillPolicy → String
  | unknown => "unknown"
  | legacy => "legacy"

end ZeroKillPolicy

structure Tuning where
  thresholdRatio : Binary64
  zeroKills : ZeroKillPolicy
  deriving DecidableEq

namespace Tuning

def defaultRatio : Binary64 := .ofDecimal false 8 (-1)

def standard : Tuning := ⟨defaultRatio, .unknown⟩

def threshold (tuning : Tuning) (total : UInt32) : Binary64 :=
  .ofNat total.toNat * tuning.thresholdRatio

end Tuning

end Allegiance
