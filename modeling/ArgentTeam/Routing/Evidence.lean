import ArgentTeam.Routing.Registry
import Mathlib.Algebra.Order.Ring.Int
import Mathlib.Data.List.Dedup

/-!
# What is known of a model

Besides what a model claims there is what is known of it, by category of task. Nothing known of a
category counts as unknown, and unknown meets no minimum. The gate is independent of the floor: a
model can claim a capability that there is no evidence for.
-/

namespace ArgentTeam

namespace Routing

inductive EvidenceStatus
  | verified
  | provisional
  | unknown
  | rejected

/-- `evidence_status_rank`. -/
def EvidenceStatus.rank : EvidenceStatus → ℤ
  | rejected => -1
  | unknown => 0
  | provisional => 1
  | verified => 2

inductive EvidenceCategory
  | coordinationBasicReasoning
  | repositoryCoding
  | debuggingRootCause
  | architecture
  | securityReview
  | toolAgent
  | longContext
  deriving DecidableEq

/-- `capability_category`. -/
def Capability.category : Capability → EvidenceCategory
  | coordination | simpleAnalysis => .coordinationBasicReasoning
  | codeImplementation | complexCodeImplementation | repositoryReasoning => .repositoryCoding
  | debugging | rootCauseAnalysis => .debuggingRootCause
  | architecture => .architecture
  | securityReview | codeReview => .securityReview
  | toolUse | vision | structuredOutput => .toolAgent
  | longContext => .longContext

structure EvidenceEntry where
  modelId : String
  category : EvidenceCategory
  status : EvidenceStatus

/-- `EvidenceRegistry`: the values of its dictionary. -/
structure EvidenceRegistry where
  /-- The values of `_entries`. -/
  entries : List EvidenceEntry
  /-- The keys of `_entries`. -/
  keys : (entries.map fun e => (e.modelId, e.category)).Nodup

def EvidenceRegistry.getStatus (registry : EvidenceRegistry) (modelId : String)
    (category : EvidenceCategory) : EvidenceStatus :=
  ((registry.entries.find? fun e => e.modelId = modelId ∧ e.category = category).map
    EvidenceEntry.status).getD .unknown

/-- `evidence_status_for_capabilities`; what is done with the result does not depend on the order
of the categories. -/
def evidenceStatusForCapabilities (registry : EvidenceRegistry) (modelId : String)
    (requiredCapabilities : List Capability) : List EvidenceStatus :=
  (requiredCapabilities.map Capability.category).dedup.map (registry.getStatus modelId)

def satisfiesEvidence (registry : EvidenceRegistry) (modelId : String)
    (requiredCapabilities : List Capability) (minimumStatus : EvidenceStatus) : Bool :=
  if minimumStatus.rank ≤ 0 then true
  else (evidenceStatusForCapabilities registry modelId requiredCapabilities).all fun status =>
    minimumStatus.rank ≤ status.rank

section

variable {registry : EvidenceRegistry} {modelId : String} {capabilities : List Capability}
  {minimum : EvidenceStatus}

theorem satisfiesEvidence_iff (hminimum : 0 < minimum.rank) :
    satisfiesEvidence registry modelId capabilities minimum ↔
      ∀ c ∈ capabilities, minimum.rank ≤ (registry.getStatus modelId c.category).rank := by
  rw [satisfiesEvidence, if_neg (not_le.mpr hminimum)]
  simp [evidenceStatusForCapabilities]

end

end Routing

end ArgentTeam
