import ArgentTeam.Resource.Governor
import Mathlib.Algebra.Order.BigOperators.Group.List
import Mathlib.Algebra.Order.Field.Rat
import Mathlib.Data.List.Perm.Subperm

/-!
# A host under more pressure

One snapshot is no better than another if it has no more memory, no more room and no less load, and
all the active jobs of the other. Each step of the decision lets pass on the better host what it
lets pass on the worse one, so an admission there is an admission here, under limits that are not
lower (`admits_of_noBetter`) – as long as no class has a ceiling below zero, for a job of such a
class would give memory back.
-/

namespace ArgentTeam

namespace Resource

open Scheduler

/-- Two known values, the first of which is not larger. -/
def AtMost {α : Type} [LE α] (a b : Option α) : Prop := ∃ x y, a = some x ∧ b = some y ∧ x ≤ y

/-- Two known values that are the same. -/
def Same {α : Type} (a b : Option α) : Prop := ∃ x, a = some x ∧ b = some x

/-- Two fully known snapshots, the first of which is no better than the second. -/
structure NoBetter (s' s : HostResourceSnapshot) : Prop where
  memTotal : Same s'.memTotalBytes s.memTotalBytes
  memAvailable : AtMost s'.memAvailableBytes s.memAvailableBytes
  swapTotal : Same s'.swapTotalBytes s.swapTotalBytes
  swapFree : AtMost s'.swapFreeBytes s.swapFreeBytes
  rootFree : AtMost s'.rootFreeBytes s.rootFreeBytes
  rootFreeRatio : AtMost s'.rootFreeRatio s.rootFreeRatio
  workspaceFree : AtMost s'.workspaceFreeBytes s.workspaceFreeBytes
  /-- The same kind of `/tmp`. -/
  tmpFsType : Same s'.tmpFsType s.tmpFsType
  load : AtMost s.load5min s'.load5min
  cpus : Same s'.cpuCount s.cpuCount
  activeJobs : s.activeJobs.Subperm s'.activeJobs
  known : fieldActiveJobs ∉ s.unknownFields ∧ fieldActiveJobs ∉ s'.unknownFields

/-- No class has a ceiling below zero. -/
def NonnegativeCeilings (policy : ResourcePolicy) : Prop :=
  ∀ c, 0 ≤ (policy.limitsFor c).memoryMaxBytes

instance (policy : ResourcePolicy) : Decidable (NonnegativeCeilings policy) :=
  decidable_of_iff (∀ c ∈ ResourceClass.all, 0 ≤ (policy.limitsFor c).memoryMaxBytes)
    ⟨fun h c => h c (by cases c <;> simp [ResourceClass.all]), fun h c _ => h c⟩

section Mono

variable {s s' : HostResourceSnapshot} {policy : ResourcePolicy} {py : Interpreter}
  {candidate : Candidate}

theorem classes_subperm (h : NoBetter s' s) :
    (classes s.activeJobs).Subperm (classes s'.activeJobs) := by
  obtain ⟨jobs, hperm, hsub⟩ := h.activeJobs
  exact ⟨classes jobs, hperm.filterMap _, hsub.filterMap _⟩

theorem activeCounts_le (h : NoBetter s' s) (c : ResourceClass) :
    activeCounts s.activeJobs c ≤ activeCounts s'.activeJobs c := (classes_subperm h).count_le c

theorem writerActive_le (h : NoBetter s' s) :
    writerActive s.activeJobs ≤ writerActive s'.activeJobs :=
  Nat.add_le_add (Nat.add_le_add (activeCounts_le h .medium) (activeCounts_le h .heavy))
    (activeCounts_le h .exclusive)

theorem activeReservedBytes_le (hceilings : NonnegativeCeilings policy) (h : NoBetter s' s) :
    activeReservedBytes s.activeJobs policy ≤ activeReservedBytes s'.activeJobs policy := by
  obtain ⟨l, hperm, hsub⟩ := classes_subperm h
  unfold activeReservedBytes
  rw [← (hperm.map _).sum_eq]
  refine (hsub.map _).sum_le_sum fun x hx => ?_
  obtain ⟨c, -, rfl⟩ := List.mem_map.mp hx
  exact hceilings c

theorem Evident.mono (h : NoBetter s' s) {rc : ResourceClass} : Evident s rc := by
  obtain ⟨_, -, hmem⟩ := h.memTotal
  obtain ⟨-, _, -, havail, -⟩ := h.memAvailable
  obtain ⟨_, -, hswap⟩ := h.swapTotal
  obtain ⟨-, _, -, hfree, -⟩ := h.swapFree
  obtain ⟨-, _, -, hroot, -⟩ := h.rootFree
  obtain ⟨_, -, htmp⟩ := h.tmpFsType
  obtain ⟨_, -, hload, -⟩ := h.load
  obtain ⟨_, -, hcpus⟩ := h.cpus
  exact ⟨by simp [hmem], by simp [havail], by simp [hswap], by simp [hfree], by simp [hroot],
    by simp [htmp], h.known.1, fun _ => by simp [hload], fun _ => by simp [hcpus]⟩

theorem Concurrent.mono {rc : ResourceClass} (h : NoBetter s' s)
    (hpass : Concurrent policy s'.activeJobs rc) : Concurrent policy s.activeJobs rc := by
  have hwriters := writerActive_le h
  have hlight := activeCounts_le h .light
  have hexclusive := activeCounts_le h .exclusive
  refine ⟨fun hrc => ?_, ?_, fun hrc => ?_, fun hrc => ?_⟩
  · have := hpass.alone hrc
    omega
  · have := hpass.shared
    omega
  · have := hpass.writers hrc
    omega
  · have := hpass.light hrc
    omega

/-- The share of the swap space in use does not grow on the better host. -/
theorem swapRatio_le (h : NoBetter s' s) {ratio : ℚ} (hratio : ratio ∈ swapRatio s) :
    ∃ ratio' ∈ swapRatio s', ratio ≤ ratio' := by
  obtain ⟨total, htotal', htotal⟩ := h.swapTotal
  obtain ⟨free', free, hfree', hfree, hle⟩ := h.swapFree
  simp only [swapRatio, htotal, hfree, Option.getD_some, Option.mem_def] at hratio
  simp only [swapRatio, htotal', hfree', Option.getD_some, Option.mem_def]
  split at hratio
  next hpos =>
    obtain rfl := Option.some.inj hratio
    rw [if_pos hpos]
    refine ⟨_, rfl, ?_⟩
    have hpos' : (0 : ℚ) ≤ total := by exact_mod_cast hpos.le
    have hused : ((total - free : ℤ) : ℚ) ≤ (total - free' : ℤ) := by exact_mod_cast by omega
    gcongr
  · cases hratio

theorem diskLow_mono (h : NoBetter s' s) (hlow : diskLow policy s' candidate = false) :
    diskLow policy s candidate = false := by
  obtain ⟨root', root, hroot', hroot, hle⟩ := h.rootFree
  obtain ⟨ratio', ratio, hratio', hratio, hle'⟩ := h.rootFreeRatio
  obtain ⟨room', room, hroom', hroom, hle''⟩ := h.workspaceFree
  simp only [diskLow, hroot', hratio', hroom', Option.any_some, Bool.or_eq_false_iff,
    decide_eq_false_iff_not] at hlow
  simp only [diskLow, hroot, hratio, hroom, Option.any_some, Bool.or_eq_false_iff,
    decide_eq_false_iff_not]
  obtain ⟨⟨hbytes, hshare⟩, htemp⟩ := hlow
  refine ⟨⟨fun hlt => hbytes (lt_of_le_of_lt hle hlt),
    fun hlt => hshare (lt_of_le_of_lt hle' hlt)⟩, ?_⟩
  cases hestimated : candidate.estimatedTempBytes with
  | none => rfl
  | some estimated =>
    simp only [hestimated, decide_eq_false_iff_not] at htemp ⊢
    exact fun hlt => htemp (lt_of_le_of_lt hle'' hlt)

theorem reserve_eq (h : NoBetter s' s) : reserve policy s' = reserve policy s := by
  obtain ⟨total, htotal', htotal⟩ := h.memTotal
  rw [reserve, reserve, htotal', htotal]

theorem overloaded_mono (h : NoBetter s' s) (hload : overloaded policy s) :
    overloaded policy s' := by
  obtain ⟨load, load', hl, hl', hle⟩ := h.load
  obtain ⟨cpus, hc', hc⟩ := h.cpus
  simp only [overloaded, hl, hc, Bool.and_eq_true, decide_eq_true_eq] at hload
  simp only [overloaded, hl', hc', Bool.and_eq_true, decide_eq_true_eq]
  exact ⟨hload.1, lt_of_lt_of_le hload.2 hle⟩

/-- What no step refuses on the worse host, none refuses on the better one. -/
theorem Passes.mono (hceilings : NonnegativeCeilings policy) (h : NoBetter s' s)
    (hpasses : Passes py policy s' candidate) : Passes py policy s candidate := by
  refine ⟨Evident.mono h, hpasses.concurrent.mono h, fun hwriter ratio hratio => ?_,
    diskLow_mono h hpasses.disks, fun htmp => hpasses.tmpfs ⟨?_, htmp.2⟩,
    fun available havail => ?_, fun hload => hpasses.load ⟨hload.1, overloaded_mono h hload.2⟩⟩
  · obtain ⟨ratio', hratio', hle⟩ := swapRatio_le h hratio
    obtain ⟨hblock, hwarning⟩ := hpasses.swap hwriter ratio' hratio'
    exact ⟨lt_of_le_of_lt hle hblock, lt_of_le_of_lt hle hwarning⟩
  · obtain ⟨kind, hkind', hkind⟩ := h.tmpFsType
    rw [hkind', ← hkind]
    exact htmp.1
  · obtain ⟨available', _, havail', havail'', hle⟩ := h.memAvailable
    obtain rfl := Option.mem_unique havail'' havail
    have hroom := hpasses.memory available' havail'
    have hreserved := activeReservedBytes_le hceilings h
    rw [reserve_eq h] at hroom
    omega

theorem effectiveLimits_mono {governor : ResourceGovernor} {c : ResourceClass}
    (h : NoBetter s' s) :
    (governor.effectiveLimits c s' (reserve policy s')).memoryMaxBytes ≤
      (governor.effectiveLimits c s (reserve policy s)).memoryMaxBytes := by
  obtain ⟨available', available, havail', havail, hle⟩ := h.memAvailable
  simp only [ResourceGovernor.effectiveLimits, havail', havail, reserve_eq h]
  exact effectiveMemoryMax_mono hle

end Mono

/-- **Admission is monotone**: where no ceiling is below zero, what is admitted on a host is
admitted on every host that is no worse, with an effective memory limit that is not lower. -/
theorem admits_of_noBetter {governor : ResourceGovernor} {py : Interpreter} {c : ResourceClass}
    {s s' : HostResourceSnapshot} {request : Request} {policy : Option ResourcePolicy}
    {d d' : AdmissionDecision} (hceilings : NonnegativeCeilings (policy.getD governor.policy))
    (h : NoBetter s' s) (hd : governor.decide py c.value s request policy = some d)
    (hd' : governor.decide py c.value s' request policy = some d') (hadmits : d'.Admits) :
    d.Admits ∧ ∃ limits limits', d.effectiveLimits = some limits ∧
      d'.effectiveLimits = some limits' ∧ limits'.memoryMaxBytes ≤ limits.memoryMaxBytes := by
  simp only [ResourceGovernor.decide, ResourceClass.ofValue?_value, Option.map_some,
    Option.some.injEq] at hd hd'
  rw [← hd'] at hadmits
  have hpasses' := admits_iff.mp hadmits
  have hpasses := hpasses'.mono hceilings h
  rw [← hd, ← hd']
  exact ⟨admits_iff.mpr hpasses, _, _, effectiveLimits_decideCandidate hpasses,
    effectiveLimits_decideCandidate hpasses', effectiveLimits_mono h⟩

/-! ### A ceiling below zero -/

def quietInterpreter : Interpreter where
  nowIsoDefault := "2026-01-01T00:00:00+00:00"
  plusSeconds _ _ := "2026-01-01T00:05:00+00:00"
  lower := PyStr.lower

/-- A host with some memory and plenty of all else. -/
def hostWith (memAvailableBytes : ℤ) (activeJobs : List (String × String)) :
    HostResourceSnapshot where
  memTotalBytes := some (gib 4)
  memAvailableBytes := some memAvailableBytes
  swapTotalBytes := some (gib 8)
  swapFreeBytes := some (gib 8)
  rootFreeBytes := some (gib 100)
  rootFreeRatio := some (1 / 2)
  workspaceFreeBytes := some (gib 100)
  tmpFsType := some "ext4"
  load5min := some (1 / 10)
  cpuCount := some 8
  activeJobs := activeJobs

theorem noBetter_hostWith {available available' : ℤ}
    {activeJobs activeJobs' : List (String × String)}
    (hle : available' ≤ available) (hsub : activeJobs.Subperm activeJobs') :
    NoBetter (hostWith available' activeJobs') (hostWith available activeJobs) :=
  ⟨⟨_, rfl, rfl⟩, ⟨_, _, rfl, rfl, hle⟩, ⟨_, rfl, rfl⟩, ⟨_, _, rfl, rfl, le_refl _⟩,
    ⟨_, _, rfl, rfl, le_refl _⟩, ⟨_, _, rfl, rfl, le_refl _⟩, ⟨_, _, rfl, rfl, le_refl _⟩,
    ⟨_, rfl, rfl⟩, ⟨_, _, rfl, rfl, le_refl _⟩, ⟨_, rfl, rfl⟩, hsub,
    ⟨List.not_mem_nil, List.not_mem_nil⟩⟩

/-- A light job beside another one, and on a host with more memory where it is alone. -/
theorem light_admitted_alone :
    ∃ d d', ({} : ResourceGovernor).decide quietInterpreter "LIGHT" (hostWith (gib 4) []) {}
        none = some d ∧
      ({} : ResourceGovernor).decide quietInterpreter "LIGHT"
        (hostWith (gib (7 / 2)) [("j", "LIGHT")]) {} none = some d' ∧
      d.Admits ∧ ∃ limits limits', d.effectiveLimits = some limits ∧
        d'.effectiveLimits = some limits' ∧ limits'.memoryMaxBytes ≤ limits.memoryMaxBytes :=
  ⟨_, _, rfl, rfl, @admits_of_noBetter {} quietInterpreter .light _ _ {} none _ _
    (by decide +kernel) (noBetter_hostWith (by decide +kernel) (List.nil_subperm)) rfl rfl
    (by decide +kernel)⟩

/-- A policy whose light jobs give memory back. -/
def givingPolicy : ResourcePolicy := { lightLimits := ⟨0, -1, 0, 100, none⟩ }

/-- **A ceiling below zero**: a light job is admitted beside another one, and deferred on the same
host without it. -/
theorem deferred_alone :
    NoBetter (hostWith (gib (3 / 2) - 2) [("j", "LIGHT")]) (hostWith (gib (3 / 2) - 2) []) ∧
      (∃ d', ResourceGovernor.decide ⟨givingPolicy⟩ quietInterpreter "LIGHT"
        (hostWith (gib (3 / 2) - 2) [("j", "LIGHT")]) {} none = some d' ∧ d'.Admits) ∧
      ∃ d, ResourceGovernor.decide ⟨givingPolicy⟩ quietInterpreter "LIGHT"
        (hostWith (gib (3 / 2) - 2) []) {} none = some d ∧ ¬d.Admits :=
  ⟨noBetter_hostWith (le_refl _) List.nil_subperm, ⟨_, rfl, by decide +kernel⟩,
    ⟨_, rfl, by decide +kernel⟩⟩

end Resource

end ArgentTeam
