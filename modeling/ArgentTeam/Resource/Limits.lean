import ArgentTeam.Resource.Governor

/-!
# The limits of the active jobs

A policy bounds how many jobs of each kind are active at a time and how much memory is reserved for
them. What an admitted job leaves of these bounds follows from the steps that have let it pass,
except that no step counts the medium or the heavy jobs: their own limits hold after an admission
exactly if they have not been reached before it (`within_cons_iff`).
-/

namespace ArgentTeam

namespace Resource

open Scheduler

/-- The jobs are within the limits of the policy. -/
structure Within (policy : ResourcePolicy) (snapshot : HostResourceSnapshot)
    (jobs : List (String × String)) : Prop where
  writers : (writerActive jobs : ℤ) ≤ policy.maxWritersGlobal
  light : (activeCounts jobs .light : ℤ) ≤ policy.maxLight
  medium : (activeCounts jobs .medium : ℤ) ≤ policy.maxMedium
  heavy : (activeCounts jobs .heavy : ℤ) ≤ policy.maxHeavy
  alone : 0 < activeCounts jobs .exclusive → jobs.length = 1
  reserve : ∀ available ∈ snapshot.memAvailableBytes,
    Resource.reserve policy snapshot ≤ available - activeReservedBytes jobs policy

section Cons

variable {policy : ResourcePolicy} {jobs : List (String × String)} {jobId : String}
  {c k : ResourceClass}

@[simp]
theorem classes_cons : classes ((jobId, c.value) :: jobs) = c :: classes jobs := by
  simp [classes]

theorem activeCounts_cons : activeCounts ((jobId, c.value) :: jobs) k =
    activeCounts jobs k + if c = k then 1 else 0 := by
  rw [activeCounts, classes_cons, List.count_cons]
  simp [activeCounts]

theorem writerActive_cons : writerActive ((jobId, c.value) :: jobs) =
    writerActive jobs + if c.isWriterClass then 1 else 0 := by
  simp only [writerActive, activeCounts_cons]
  cases c <;> simp [ResourceClass.isWriterClass] <;> omega

theorem activeReservedBytes_cons : activeReservedBytes ((jobId, c.value) :: jobs) policy =
    (policy.limitsFor c).memoryMaxBytes + activeReservedBytes jobs policy := by
  simp [activeReservedBytes]

theorem classes_eq_nil (h : writerActive jobs + activeCounts jobs .light = 0) :
    classes jobs = [] := by
  simp only [writerActive, activeCounts, Nat.add_eq_zero_iff, List.count_eq_zero] at h
  obtain ⟨⟨⟨hmedium, hheavy⟩, hexclusive⟩, hlight⟩ := h
  refine List.eq_nil_iff_forall_not_mem.mpr fun c hc => ?_
  cases c with
  | light => exact hlight hc
  | medium => exact hmedium hc
  | heavy => exact hheavy hc
  | exclusive => exact hexclusive hc

theorem eq_nil_of_classes_eq_nil (h : classes jobs = [])
    (hknown : ∀ item ∈ jobs, (ResourceClass.ofValue? item.2).isSome) : jobs = [] := by
  refine List.eq_nil_iff_forall_not_mem.mpr fun item hitem => ?_
  have hsome := hknown item hitem
  rw [List.filterMap_eq_nil_iff.mp h item hitem] at hsome
  exact Bool.noConfusion hsome

end Cons

/-- What an admission would have to look at besides. -/
structure Spare (policy : ResourcePolicy) (jobs : List (String × String)) (c : ResourceClass) :
    Prop where
  medium : c = .medium → (activeCounts jobs .medium : ℤ) < policy.maxMedium
  heavy : c = .heavy → (activeCounts jobs .heavy : ℤ) < policy.maxHeavy
  counted : c = .exclusive → ∀ item ∈ jobs, (ResourceClass.ofValue? item.2).isSome = true

theorem isEmpty_of_passes {py : Interpreter} {policy : ResourcePolicy}
    {snapshot : HostResourceSnapshot} {candidate : Candidate}
    (h : Passes py policy snapshot candidate) (hc : candidate.resourceClass = .exclusive)
    (hcounted : ∀ item ∈ snapshot.activeJobs, (ResourceClass.ofValue? item.2).isSome) :
    snapshot.activeJobs = [] :=
  eq_nil_of_classes_eq_nil (classes_eq_nil (h.concurrent.alone hc)) hcounted

/-- **When an admission keeps the limits**: a medium or heavy job keeps them exactly if there is
room for one more of its class, and a job that asks to be alone if the others are of classes that
are counted; all the other limits are kept by the steps of the decision. -/
theorem within_cons_iff {governor : ResourceGovernor} {py : Interpreter} {c : ResourceClass}
    {snapshot : HostResourceSnapshot} {request : Request} {policy : Option ResourcePolicy}
    {d : AdmissionDecision} (hd : governor.decide py c.value snapshot request policy = some d)
    (hadmits : d.Admits)
    (hwithin : Within (policy.getD governor.policy) snapshot snapshot.activeJobs)
    (jobId : String) :
    Within (policy.getD governor.policy) snapshot ((jobId, c.value) :: snapshot.activeJobs) ↔
      Spare (policy.getD governor.policy) snapshot.activeJobs c := by
  generalize hpolicy : policy.getD governor.policy = pol at hwithin ⊢
  simp only [ResourceGovernor.decide, hpolicy, ResourceClass.ofValue?_value, Option.map_some,
    Option.some.injEq] at hd
  rw [← hd] at hadmits
  have hpasses := admits_iff.mp hadmits
  constructor
  · intro h
    refine ⟨?_, ?_, ?_⟩
    · rintro rfl
      have hmedium := h.medium
      rw [activeCounts_cons, if_pos rfl] at hmedium
      omega
    · rintro rfl
      have hheavy := h.heavy
      rw [activeCounts_cons, if_pos rfl] at hheavy
      omega
    · rintro rfl item hitem
      have hlength := h.alone (by rw [activeCounts_cons, if_pos rfl]; omega)
      rw [List.length_cons] at hlength
      have hnil : snapshot.activeJobs = [] := List.length_eq_zero_iff.mp (by omega)
      rw [hnil] at hitem
      exact absurd hitem List.not_mem_nil
  · intro h
    refine ⟨?_, ?_, ?_, ?_, ?_, ?_⟩
    · rw [writerActive_cons]
      have hwriters := hwithin.writers
      split
      next hwriter =>
        have hroom := hpasses.concurrent.writers hwriter
        omega
      · simpa using hwriters
    · rw [activeCounts_cons]
      have hlight := hwithin.light
      split
      next hc =>
        have hroom := hpasses.concurrent.light hc
        omega
      · simpa using hlight
    · rw [activeCounts_cons]
      have hmedium := hwithin.medium
      split
      next hc =>
        have hroom := h.medium hc
        omega
      · simpa using hmedium
    · rw [activeCounts_cons]
      have hheavy := hwithin.heavy
      split
      next hc =>
        have hroom := h.heavy hc
        omega
      · simpa using hheavy
    · intro hexclusive
      rw [activeCounts_cons, hpasses.concurrent.shared] at hexclusive
      have hc : c = .exclusive := by
        by_contra hne
        simp [hne] at hexclusive
      rw [isEmpty_of_passes hpasses hc (h.counted hc), List.length_singleton]
    · intro available havailable
      have hroom := hpasses.memory available havailable
      rw [activeReservedBytes_cons]
      simp only at hroom
      omega

/-! ### A second medium job -/

def plainInterpreter : Interpreter where
  nowIsoDefault := "2026-01-01T00:00:00+00:00"
  plusSeconds _ _ := "2026-01-01T00:05:00+00:00"
  lower := PyStr.lower

/-- A host with plenty of everything. -/
def roomyHost (activeJobs : List (String × String)) : HostResourceSnapshot where
  memTotalBytes := some (gib 64)
  memAvailableBytes := some (gib 48)
  swapTotalBytes := some (gib 8)
  swapFreeBytes := some (gib 8)
  rootFreeBytes := some (gib 100)
  rootFreeRatio := some (1 / 2)
  workspaceFreeBytes := some (gib 100)
  tmpFsType := some "ext4"
  load5min := some (1 / 10)
  cpuCount := some 8
  activeJobs := activeJobs

/-- A policy of two writers, not more than one of which is to be a medium job. -/
def twoWriters : ResourcePolicy := { maxWritersGlobal := 2 }

/-- A light job beside a medium one keeps the limits. -/
theorem within_cons_light :
    ∃ d, ({} : ResourceGovernor).decide plainInterpreter "LIGHT" (roomyHost [("j1", "MEDIUM")]) {}
      none = some d ∧ d.Admits ∧
      Within {} (roomyHost [("j1", "MEDIUM")]) [("j2", "LIGHT"), ("j1", "MEDIUM")] := by
  refine ⟨({} : ResourceGovernor).decideCandidate plainInterpreter {} (roomyHost [("j1", "MEDIUM")])
    { resourceClass := .light }, rfl, by decide +kernel, ?_⟩
  refine (@within_cons_iff {} plainInterpreter .light _ {} none _ rfl (by decide +kernel) ?_
    "j2").mpr ⟨ResourceClass.noConfusion, ResourceClass.noConfusion,
      ResourceClass.noConfusion⟩
  exact ⟨by decide, by decide, by decide, by decide, fun h => absurd h (by decide),
    by decide +kernel⟩

/-- **Two medium jobs at a time**, where the policy allows one: the second is admitted although
the first has reached their limit. -/
theorem second_medium_admitted :
    Within twoWriters (roomyHost [("j1", "MEDIUM")]) [("j1", "MEDIUM")] ∧
      (∃ d, ResourceGovernor.decide ⟨twoWriters⟩ plainInterpreter "MEDIUM"
        (roomyHost [("j1", "MEDIUM")]) {} none = some d ∧ d.decision = .allow) ∧
      ¬Within twoWriters (roomyHost [("j1", "MEDIUM")]) [("j2", "MEDIUM"), ("j1", "MEDIUM")] := by
  refine ⟨?_, ⟨_, rfl, by decide +kernel⟩, fun h => absurd h.medium (by decide)⟩
  exact ⟨by decide, by decide, by decide, by decide, fun h => absurd h (by decide),
    by decide +kernel⟩

end Resource

end ArgentTeam
