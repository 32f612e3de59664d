import ArgentTeam.External.CiStore

/-!
# What a CI wait remembers

That a required check has vanished can be seen only by comparing with what was there before,
and what was there before is in the evidence of the last observation. Every observation that
is written down replaces it, also one that has seen nothing: `vanished_check_noticed` says
which observations a wait can make without forgetting.
-/

namespace ArgentTeam

namespace External

open Supervisor

/-- An observation of a wait: when, what the adapter answers, and when the wait is due again
if it is put off. -/
structure Observation where
  now : Time
  answer : CiAnswer
  nextCheckAt : Time

section Observe

variable (iso : Time → PyStr)

def observe (w : CiWaitRow) (o : Observation) : CiWaitRow :=
  if !w.isOpen then w
  else
    match processCiWait iso w o.now o.answer with
    | none => CiStore.putOff w none none o.nextCheckAt w
    | some (.backoff state _ _ e) => CiStore.putOff w state e o.nextCheckAt w
    | some (.wake _ _ _ state e eventVersion) =>
      CiStore.ended o.now state (eventVersion.getD w.eventVersion) e w

def Wakes (w : CiWaitRow) (o : Observation) : Prop :=
  ∃ outcome, processCiWait iso w o.now o.answer = some outcome ∧ outcome.wakes = true

end Observe

/-! ### What is to be noticed -/

def normNames (read : CiRead) : List PyStr := read.checks.map fun c => normCheckName c.name

def CiWaitRow.required (w : CiWaitRow) : List PyStr := w.policy.requiredChecks.getD []

/-- A clean read of the head that the wait is bound to. -/
structure OfHead (w : CiWaitRow) (read : CiRead) : Prop where
  valid : validateRead read w.ref = none
  clean : read.providerError = none
  head : read.prHeadSha = .str w.expectedSubject

/-- An observation that has seen a name at the head of the wait. -/
def Sees (w : CiWaitRow) (o : Observation) (n : PyStr) : Prop :=
  ∃ read, o.answer = .read read ∧ OfHead w read ∧ n ∈ normNames read

/-- An observation from which a name is missing, of a pull request that is open. -/
def Misses (w : CiWaitRow) (o : Observation) (n : PyStr) : Prop :=
  ∃ read, o.answer = .read read ∧ Bound w read ∧ n ∉ normNames read

/-- While the wait is open, a required check that was seen and is missing wakes the job. -/
def NoticesVanished (iso : Time → PyStr) (w : CiWaitRow) (os : List Observation) : Prop :=
  ∀ bs o ds, os = bs ++ o :: ds → (Runs.run (observe iso) w bs).isOpen = true →
    ∀ n ∈ w.required.map normCheckName, (∃ b ∈ bs, Sees w b n) → Misses w o n →
      Wakes iso (Runs.run (observe iso) w bs) o

/-! ### What a wait must not do to its memory -/

def CiWaitRow.remembered (w : CiWaitRow) : List PyStr := w.priorNames.getD []

/-- The names that an answer which does not count leaves in the place of those that were
there. -/
def overwritten (w : CiWaitRow) : CiAnswer → Option (List PyStr)
  | .noAdapter => none
  | .raises _ => if parseCiRef w.ref = none then none else some []
  | .read read =>
    if validateRead read w.ref = none ∧ (read.providerError ≠ none ∨ read.prHeadSha = .null ∨
        (read.prHeadSha = .str w.expectedSubject ∧ read.baseRef = optStr w.policy.expectedBase ∧
          read.prState = .unknown)) then some (namesOf read.checks)
    else none

def headEvidence (w : CiWaitRow) (now : Time) (read : CiRead) : CiEvidence :=
  if read.baseRef ≠ optStr w.policy.expectedBase then
    readEvidence w now read .stale .unknown "base_ref_changed"
  else if read.prState = .unknown then
    readEvidence w now read (.ci .unknown) .unknown "unknown_pr_state"
  else if read.prState = .closed then readEvidence w now read .closed .unknown "pr_closed"
  else if read.prState = .merged then
    readEvidence w now read .merged .unknown "pr_merged_unexpected"
  else checksEvidence w now read

def deadlineEvidence (w : CiWaitRow) (now : Time) : CiEvidence :=
  evidence w ⟨none, [], none⟩ now none .unknown "ci_deadline" none none

/-- An observation that lets the wait forget nothing. -/
structure Retains (iso : Time → PyStr) (w : CiWaitRow) (o : Observation) : Prop where
  required : ∀ n ∈ w.required, normCheckName n = n
  named : ∀ read, o.answer = .read read → ∀ c ∈ read.checks, normCheckName c.name = c.name
  fits : ∀ read, o.answer = .read read → OfHead w read →
    (headEvidence w o.now read).Fits iso
  late : ¬w.InTime o.now → (deadlineEvidence w o.now).Fits iso
  kept : ∀ names, overwritten w o.answer = some names →
    ∀ n ∈ w.remembered, n ∈ w.required → n ∈ names

variable {iso : Time → PyStr} {w v : CiWaitRow} {o : Observation} {read : CiRead} {n : PyStr}
  {now : Time} {answer : CiAnswer}

/-! ### What an observation writes down -/

theorem OfHead.congr (h : OfHead w read) (hs : SameWait w v) : OfHead v read where
  valid := by rw [hs.ref]; exact h.valid
  clean := h.clean
  head := by rw [hs.expectedSubject]; exact h.head

/-- A clean read of the head is decided on, where its evidence fits. -/
theorem processCiWait_ne_none (h : OfHead w read) (htime : w.InTime now)
    (hfits : (headEvidence w now read).Fits iso) :
    processCiWait iso w now (.read read) ≠ none := by
  have hnull : Json.str w.expectedSubject ≠ .null := fun h => by cases h
  rw [processCiWait, if_neg (deadline_any_eq_false htime)]
  simp only [h.valid, aboutRead, h.clean, h.head, hnull, ne_eq, not_true_eq_false, if_false,
    dumpEvidence_eq]
  unfold headEvidence at hfits
  split_ifs at hfits ⊢ <;> simp_all [aboutChecks, dumpEvidence_eq]

inductive WrittenDown (w : CiWaitRow) (answer : CiAnswer) : Option CiEvidence → Prop
  /-- Nothing: nobody was asked, or the read was not let through. -/
  | nothing (h : ∀ read, answer = .read read → validateRead read w.ref ≠ none) :
    WrittenDown w answer none
  | overwritten {e} (h : overwritten w answer = some (e.observedCheckNames.getD [])) :
    WrittenDown w answer (some e)
  /-- The checks of the pull request, none of the required ones having vanished. -/
  | checks {read e} (hanswer : answer = .read read) (hbound : Bound w read)
    (hnames : e.observedCheckNames = some (namesOf read.checks))
    (hsame : requiredSetMateriallyChanged w read = false) : WrittenDown w answer (some e)

theorem observedCheckNames_checksEvidence :
    (checksEvidence w now read).observedCheckNames = some (namesOf read.checks) := by
  simp only [checksEvidence]
  split_ifs <;> rfl

/-- **What is written down where the wait is put off.** -/
theorem writtenDown {state : Option Observed} {outcome reason : String} {e : Option CiEvidence}
    (h : processCiWait iso w now answer = some (.backoff state outcome reason e)) :
    WrittenDown w answer e := by
  unfold processCiWait at h
  split at h
  · obtain ⟨_, -, hout⟩ := Option.map_eq_some_iff.mp h
    cases hout
  · cases answer with
    | noAdapter =>
      cases h
      exact .nothing fun _ h => by cases h
    | raises name =>
      simp only at h
      split at h
      · cases h
        exact .nothing fun _ h => by cases h
      next href =>
        obtain ⟨e', he, hout⟩ := Option.map_eq_some_iff.mp h
        rw [dumpEvidence_eq] at he
        cases hout
        cases (Option.ite_none_right_eq_some.mp he).2
        exact .overwritten (by rw [overwritten, if_neg href]; rfl)
    | read read =>
      simp only at h
      split at h
      next hvalid =>
        cases h
        refine .nothing fun read' heq => ?_
        cases heq
        rw [hvalid]
        exact fun h => by cases h
      next hvalid =>
        -- an answer that does not count, by the exit that was taken
        have hover : ∀ {state' : Observed} {classification : CiFailureClass} {reason' : String}
            {e' : CiEvidence},
            dumpEvidence iso (readEvidence w now read state' classification reason') = some e' →
            (read.providerError ≠ none ∨ read.prHeadSha = .null ∨
              (read.prHeadSha = .str w.expectedSubject ∧
                read.baseRef = optStr w.policy.expectedBase ∧ read.prState = .unknown)) →
            WrittenDown w (.read read) (some e') := by
          intro state' classification reason' e' he hcase
          rw [dumpEvidence_eq] at he
          cases (Option.ite_none_right_eq_some.mp he).2
          exact .overwritten (by rw [overwritten, if_pos ⟨hvalid, hcase⟩]; rfl)
        unfold aboutRead at h
        simp only at h
        split at h
        next herror =>
          obtain ⟨e', he, hout⟩ := Option.map_eq_some_iff.mp h
          cases hout
          exact hover he (.inl (by rw [herror]; exact fun h => by cases h))
        next herror =>
          obtain ⟨e', he, hout⟩ := Option.map_eq_some_iff.mp h
          cases hout
          exact hover he (.inl (by rw [herror]; exact fun h => by cases h))
        next hclean =>
          split_ifs at h with h₁ h₂ h₃ h₄ h₅ h₆
          · obtain ⟨e', he, hout⟩ := Option.map_eq_some_iff.mp h
            cases hout
            exact hover he (.inr (.inl h₁))
          · obtain ⟨_, -, hout⟩ := Option.map_eq_some_iff.mp h
            cases hout
          · obtain ⟨_, -, hout⟩ := Option.map_eq_some_iff.mp h
            cases hout
          · obtain ⟨e', he, hout⟩ := Option.map_eq_some_iff.mp h
            cases hout
            exact hover he (.inr (.inr ⟨not_not.mp h₂, not_not.mp h₃, h₄⟩))
          · obtain ⟨_, -, hout⟩ := Option.map_eq_some_iff.mp h
            cases hout
          · obtain ⟨_, -, hout⟩ := Option.map_eq_some_iff.mp h
            cases hout
          · have hopened : read.prState = .opened := by
              have hother : read.prState ≠ .other := prState_ne_other_of_valid hvalid
              revert h₄ h₅ h₆ hother
              cases read.prState <;> simp
            unfold aboutChecks at h
            obtain ⟨e', he, hout⟩ := Option.map_eq_some_iff.mp h
            rw [dumpEvidence_eq] at he
            cases (Option.ite_none_right_eq_some.mp he).2
            split at hout
            · cases hout
            next hsame =>
              split at hout
              · cases hout
              · cases hout
                exact .checks rfl ⟨hvalid, hclean, not_not.mp h₂, not_not.mp h₃, hopened⟩
                  observedCheckNames_checksEvidence (by simpa using hsame)

/-! ### The memory of a wait -/

theorem sameWait_observe : SameWait w (observe iso w o) := by
  unfold observe
  split
  · exact SameWait.refl w
  split
  · exact sameWait_putOff
  · exact sameWait_putOff
  · exact ⟨rfl, rfl, rfl, rfl, rfl⟩

theorem sameWait_run {os : List Observation} : SameWait w (Runs.run (observe iso) w os) :=
  Runs.run_always (I := SameWait w) (fun _ _ h => h.trans sameWait_observe) (SameWait.refl w)

theorem required_congr (h : SameWait w v) : v.required = w.required := by
  rw [CiWaitRow.required, CiWaitRow.required, CiWaitRow.policy, CiWaitRow.policy, h.ciPolicy]

theorem sees_congr (h : SameWait w v) : Sees v o n ↔ Sees w o n := by
  refine exists_congr fun read => and_congr_right fun _ => and_congr_left fun _ => ?_
  exact ⟨fun hv => hv.congr ⟨h.waitId.symm, h.jobId.symm, h.ref.symm, h.expectedSubject.symm,
    h.ciPolicy.symm⟩, fun hw => hw.congr h⟩

theorem remembered_putOff {state : Option Observed} {e : Option CiEvidence} {nextCheckAt : Time}
    (hopen : w.isOpen) :
    (CiStore.putOff w state e nextCheckAt w).remembered =
      ((e.or w.ciEvidence).bind CiEvidence.observedCheckNames).getD [] := by
  rw [CiStore.putOff, if_pos hopen]
  rfl

/-- A name that is remembered and missing has vanished. -/
theorem changed_of_missing (hmem : n ∈ w.remembered) (hreq : n ∈ w.required)
    (hmissing : n ∉ namesOf read.checks) : requiredSetMateriallyChanged w read := by
  refine List.any_eq_true.mpr ⟨n, hreq, ?_⟩
  rw [CiWaitRow.remembered] at hmem
  cases hprior : w.priorNames with
  | none =>
    rw [hprior] at hmem
    cases hmem
  | some prior =>
    rw [hprior] at hmem
    simp only [Option.any_some, Bool.and_eq_true, Bool.not_eq_true', List.elem_eq_contains]
    exact ⟨by simpa using hmem, by simpa using hmissing⟩

theorem mem_normNames_iff (h : ∀ c ∈ read.checks, normCheckName c.name = c.name) :
    n ∈ normNames read ↔ n ∈ namesOf read.checks := by
  rw [normNames, namesOf, List.map_congr_left h]

/-- Once the deadline has passed, the job is woken. -/
theorem wakes_of_late (hlate : ¬w.InTime o.now)
    (hfits : ¬w.InTime o.now → (deadlineEvidence w o.now).Fits iso) :
    processCiWait iso w o.now o.answer =
      some (.wake .waitDeadline .external "ci_deadline" none (deadlineEvidence w o.now) none) := by
  have hdeadline : (w.deadlineAt.any fun t => decide (t ≤ o.now)) = true := by
    by_contra hnot
    refine hlate fun t ht => ?_
    rw [ht] at hnot
    simpa using hnot
  have hdump : dumpEvidence iso (deadlineEvidence w o.now) = some (deadlineEvidence w o.now) := by
    rw [dumpEvidence_eq, if_pos (hfits hlate)]
  unfold processCiWait
  rw [if_pos hdeadline]
  exact congrArg (Option.map _) hdump

/-- **One observation that retains**: what was remembered stays, and what it sees is added. -/
theorem remembered_observe (hret : Retains iso w o) (hopen : w.isOpen)
    (hstill : (observe iso w o).isOpen) (hreq : n ∈ w.required)
    (h : n ∈ w.remembered ∨ Sees w o n) : n ∈ (observe iso w o).remembered := by
  rw [observe, if_neg (by simp [hopen])] at hstill ⊢
  cases hout : processCiWait iso w o.now o.answer with
  | none =>
    rw [remembered_putOff hopen]
    refine h.resolve_right ?_
    rintro ⟨read, hanswer, hhead, -⟩
    by_cases htime : w.InTime o.now
    · rw [hanswer] at hout
      exact processCiWait_ne_none hhead htime (hret.fits read hanswer hhead) hout
    · rw [wakes_of_late htime hret.late] at hout
      cases hout
  | some outcome =>
    rw [hout] at hstill
    cases outcome with
    | wake => cases hstill
    | backoff state outcome reason e =>
      rw [remembered_putOff hopen]
      have hwritten := writtenDown hout
      generalize ha : o.answer = answer at hwritten
      cases hwritten with
      | nothing hnone =>
        refine h.resolve_right ?_
        rintro ⟨read, hanswer, hhead, -⟩
        exact hnone read (ha ▸ hanswer) hhead.valid
      | @overwritten e hover =>
        change n ∈ e.observedCheckNames.getD []
        rcases h with hmem | ⟨read, hanswer, hhead, hseen⟩
        · exact hret.kept _ (ha ▸ hover) n hmem hreq
        · rw [← ha, hanswer, overwritten] at hover
          have hnames := Option.some.inj (Option.ite_none_right_eq_some.mp hover).2
          rw [← hnames]
          exact (mem_normNames_iff (hret.named read hanswer)).mp hseen
      | @checks read e hanswer hbound hnames hsame =>
        change n ∈ e.observedCheckNames.getD []
        rw [hnames, Option.getD_some]
        rcases h with hmem | ⟨read', hanswer', -, hseen⟩
        · by_contra hmissing
          rw [changed_of_missing hmem hreq hmissing] at hsame
          cases hsame
        · rw [ha.trans hanswer] at hanswer'
          cases hanswer'
          exact (mem_normNames_iff (hret.named read (ha.trans hanswer))).mp hseen

theorem isOpen_of_observe (h : (observe iso w o).isOpen) : w.isOpen := by
  by_contra hclosed
  rw [observe, if_pos (by simpa using hclosed)] at h
  exact hclosed h

/-- **A run of observations that retain**: while the wait is open, it remembers every required
name that it has seen. -/
theorem remembered_run {os : List Observation} (h : Runs.Along (observe iso) (Retains iso) w os)
    (hopen : (Runs.run (observe iso) w os).isOpen) (hreq : n ∈ w.required)
    (hseen : ∃ o ∈ os, Sees w o n) : n ∈ (Runs.run (observe iso) w os).remembered := by
  induction os using List.reverseRecOn with
  | nil =>
    obtain ⟨_, hmem, -⟩ := hseen
    cases hmem
  | append_singleton os o ih =>
    rw [Runs.run_append] at hopen ⊢
    obtain ⟨hos, ho, -⟩ := Runs.along_append.mp h
    have hs : SameWait w (Runs.run (observe iso) w os) := sameWait_run
    have hopen' := isOpen_of_observe hopen
    refine remembered_observe ho hopen' hopen (by rwa [required_congr hs]) ?_
    obtain ⟨o', hmem, hsees⟩ := hseen
    rcases List.mem_append.mp hmem with hmem | hmem
    · exact .inl (ih hos hopen' ⟨o', hmem, hsees⟩)
    · rw [List.mem_singleton.mp hmem] at hsees
      exact .inr ((sees_congr hs).mpr hsees)

/-- A required name that is remembered and missing wakes the job. -/
theorem wakes_of_missing (hret : Retains iso w o) (hmem : n ∈ w.remembered)
    (hreq : n ∈ w.required) (hmiss : Misses w o n) : Wakes iso w o := by
  by_cases htime : w.InTime o.now
  · obtain ⟨read, hanswer, hbound, hmissing⟩ := hmiss
    have hchanged : requiredSetMateriallyChanged w read = true := by
      refine changed_of_missing hmem hreq fun hin => hmissing ?_
      exact (mem_normNames_iff (hret.named read hanswer)).mpr hin
    have hfits := hret.fits read hanswer ⟨hbound.valid, hbound.clean, hbound.head⟩
    have hhead : headEvidence w o.now read = checksEvidence w o.now read := by
      simp [headEvidence, hbound.base, hbound.opened]
    rw [hhead] at hfits
    rw [Wakes, hanswer, processCiWait_of_bound hbound htime, aboutChecks, dumpEvidence_eq,
      if_pos hfits, Option.map_some]
    exact ⟨_, rfl, by rw [if_pos hchanged]; rfl⟩
  · exact ⟨_, wakes_of_late htime hret.late, rfl⟩

/-- **A required check that has vanished is noticed**, in every run of observations that let
the wait forget nothing. -/
theorem vanished_check_noticed {os : List Observation}
    (h : Runs.Along (observe iso) (Retains iso) w os) : NoticesVanished iso w os := by
  rintro bs o ds rfl hopen n hn hseen hmiss
  obtain ⟨hbs, hos⟩ := Runs.along_append.mp h
  have ho := hos.1
  have hs : SameWait w (Runs.run (observe iso) w bs) := sameWait_run
  -- the name is required as it is written
  obtain ⟨m, hm, rfl⟩ := List.mem_map.mp hn
  have hnorm : normCheckName m = m := ho.required m (by rwa [required_congr hs])
  rw [hnorm] at hseen hmiss
  obtain ⟨read, hanswer, hbound, hmissing⟩ := hmiss
  exact wakes_of_missing ho (remembered_run hbs hopen hm hseen) (by rwa [required_congr hs])
    ⟨read, hanswer, hbound.congr hs, hmissing⟩

/-! ### A check that vanishes unnoticed -/

def twoChecks : CiWaitRow :=
  { ciWait with
    ciPolicy := some ⟨some [PyStr.ofString "ci", PyStr.ofString "lint"], [],
      some (PyStr.ofString "main")⟩ }

def runningCheck (name : PyStr) : ReadCheck :=
  { name := name, conclusion := none, status := .inProgress, runRef := none, detailsUrl := none,
    checkId := 2 }

/-- Both checks are there; the adapter raises; one of them is gone. -/
def ciVanishes : List Observation :=
  [⟨60, .read (ciRead [greenCheck (PyStr.ofString "ci"),
    runningCheck (PyStr.ofString "lint")]), 120⟩,
    ⟨120, .raises "TimeoutError", 240⟩,
    ⟨240, .read (ciRead [runningCheck (PyStr.ofString "lint")]), 540⟩]

theorem bound_bothChecks : Bound twoChecks
    (ciRead [greenCheck (PyStr.ofString "ci"), runningCheck (PyStr.ofString "lint")]) := by
  constructor <;> decide

theorem bound_oneCheck : Bound twoChecks (ciRead [runningCheck (PyStr.ofString "lint")]) := by
  constructor <;> decide +kernel

theorem vanished_check_not_noticed : ¬NoticesVanished isoOfExample twoChecks ciVanishes := by
  intro h
  have hfirst := bound_bothChecks
  have hlast := bound_oneCheck
  obtain ⟨outcome, hout, hwakes⟩ := h (ciVanishes.take 2) _ [] rfl (by decide +kernel)
    (PyStr.ofString "ci") (by decide)
    ⟨_, List.mem_cons_self, _, rfl, ⟨hfirst.valid, hfirst.clean, hfirst.head⟩, by decide⟩
    ⟨_, rfl, hlast, by decide⟩
  have hnot : ((processCiWait isoOfExample
      (Runs.run (observe isoOfExample) twoChecks (ciVanishes.take 2)) 240
      (.read (ciRead [runningCheck (PyStr.ofString "lint")]))).any CiOutcome.wakes) = false := by
    decide +kernel
  rw [hout] at hnot
  change outcome.wakes = false at hnot
  rw [hwakes] at hnot
  cases hnot

/-- Both checks are there, and then one of them is gone. -/
def ciVanishesAtOnce : List Observation := [ciVanishes.head (by decide),
    ciVanishes.getLast (by decide)]

theorem vanished_check_noticed_at_once :
    Runs.Along (observe isoOfExample) (Retains isoOfExample) twoChecks ciVanishesAtOnce ∧
      NoticesVanished isoOfExample twoChecks ciVanishesAtOnce := by
  have hretains : ∀ (w : CiWaitRow) (o : Observation) (checks : List ReadCheck),
      o.answer = .read (ciRead checks) → Bound w (ciRead checks) → w.InTime o.now →
      (w.required.all fun n => decide (normCheckName n = n)) = true →
      (checks.all fun c => decide (normCheckName c.name = c.name)) = true →
      (checksEvidence w o.now (ciRead checks)).Fits isoOfExample → Retains isoOfExample w o := by
    intro w o checks hanswer hbound htime hreq hnames hfits
    refine ⟨?_, ?_, ?_, fun h => absurd htime h, ?_⟩
    · simpa using hreq
    · rintro read hread c hc
      rw [hanswer] at hread
      cases hread
      simpa using List.all_eq_true.mp hnames c hc
    · rintro read hread -
      rw [hanswer] at hread
      cases hread
      simpa [headEvidence, hbound.base, hbound.opened] using hfits
    · intro names hover
      rw [hanswer, overwritten, if_neg] at hover
      · cases hover
      · rintro ⟨-, herror | hnull | ⟨-, -, hunknown⟩⟩
        · exact herror rfl
        · cases hnull
        · cases hunknown
  have halong : Runs.Along (observe isoOfExample) (Retains isoOfExample) twoChecks
      ciVanishesAtOnce := by
    refine ⟨hretains _ _ [greenCheck (PyStr.ofString "ci"), runningCheck (PyStr.ofString "lint")]
        rfl bound_bothChecks (fun t h => by cases h) (by decide) (by decide +kernel)
        (by decide +kernel),
      hretains _ _ [runningCheck (PyStr.ofString "lint")] rfl
        (bound_oneCheck.congr sameWait_observe) ?_ (by decide +kernel) (by decide)
        (by decide +kernel), trivial⟩
    intro t h
    have hnone : (observe isoOfExample twoChecks
        (ciVanishes.head (by decide))).deadlineAt = none := by decide +kernel
    rw [hnone] at h
    cases h
  exact ⟨halong, vanished_check_noticed halong⟩

end External

end ArgentTeam
