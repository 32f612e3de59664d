import ArgentTeam.Context.Build

/-!
# The budget of a context pack

Items are removed one by one, in the order of their groups, until what is rendered fits. So the
removed ones are the first of that order, and one fewer would not have been enough
(`exists_trimmed`). `fitted_of_build` puts this together with what the validation of the pack has
checked and with what the duplicates leave of the required items.
-/

namespace ArgentTeam

namespace Context

/-! ### Trimming -/

section Trim

variable {soft : ℤ} {render : List ContextItem → ℤ} {items removable remaining : List ContextItem}

/-- The loop removes the first of the removable items, and no more than it has to. -/
theorem trimLoop_eq (hnodup : remaining.Nodup) (hover : soft < render remaining) :
    ∃ gone rest, removable = gone ++ rest ∧
      trimLoop soft render removable remaining = remaining.filter (fun it => it ∉ gone) ∧
      ∀ init last, gone = init ++ [last] →
        soft < render (remaining.filter fun it => it ∉ init) := by
  induction removable generalizing remaining with
  | nil =>
    refine ⟨[], [], rfl, ?_, fun init last h => ?_⟩
    · rw [trimLoop, List.filter_eq_self.mpr (by simp)]
    · exact absurd h (by simp)
  | cons it removable ih =>
    have herase : remaining.erase it = remaining.filter (fun a => a ≠ it) := by
      rw [hnodup.erase_eq_filter it]
      exact List.filter_congr fun a _ => by simp [bne, beq_eq_decide]
    have hwhole : remaining.filter (fun a => a ∉ ([] : List ContextItem)) = remaining :=
      List.filter_eq_self.mpr (by simp)
    rw [trimLoop]
    split
    next hfits =>
      refine ⟨[it], removable, rfl, ?_, fun init last h => ?_⟩
      · rw [herase]
        simp
      · have hinit : init = [] := by
          cases init with
          | nil => rfl
          | cons a init => simp at h
        rwa [hinit, hwhole]
    next hmore =>
      obtain ⟨gone, rest, rfl, hleft, hlast⟩ := ih (hnodup.erase it) (not_le.mp hmore)
      have hfilter : ∀ xs : List ContextItem, (remaining.erase it).filter (fun a => a ∉ xs) =
          remaining.filter fun a => a ∉ it :: xs := by
        intro xs
        rw [herase, List.filter_filter]
        refine List.filter_congr fun a _ => ?_
        by_cases ha : a = it <;> simp [ha]
      refine ⟨it :: gone, rest, rfl, by rw [hleft, hfilter], fun init last h => ?_⟩
      cases init with
      | nil => rwa [hwhole]
      | cons a init =>
        obtain ⟨rfl, hgone⟩ := List.cons.inj h
        rw [← hfilter]
        exact hlast init last hgone

/-- What trimming does to a list of items: which are removed, in which order. -/
structure Trimmed (soft : ℤ) (render : List ContextItem → ℤ)
    (items final gone : List ContextItem) : Prop where
  kept : final = items.filter fun it => it ∉ gone
  removable : ∀ it ∈ gone, it ∈ items ∧ (trimGroup it).isSome = true
  ordered : gone.Pairwise fun a b => trimLe a b = true
  lowest : ∀ it ∈ gone, ∀ kept ∈ final, ∀ g g', trimGroup it = some g → trimGroup kept = some g' →
    g ≤ g'
  needed : ∀ init last, gone = init ++ [last] → soft < render (items.filter fun it => it ∉ init)

theorem trimmed_nil : Trimmed soft render items items [] where
  kept := (List.filter_eq_self.mpr (by simp)).symm
  removable := nofun
  ordered := .nil
  lowest := nofun
  needed := fun init last h => by simp at h

/-- **What trimming removes**: the first items of the order, and no more than it has to. -/
theorem exists_trimmed (hnodup : items.Nodup) :
    ∃ gone, Trimmed soft render items (trim items soft render) gone := by
  unfold trim
  split
  next hfits => exact ⟨[], trimmed_nil⟩
  next hover =>
    set order := (items.filter fun it => (trimGroup it).isSome).insertionSort fun a b => trimLe a b
      with horder
    have hmem : ∀ it, it ∈ order ↔ it ∈ items ∧ (trimGroup it).isSome = true := by
      intro it
      rw [horder, List.mem_insertionSort, List.mem_filter]
    have hsorted : order.Pairwise fun a b => trimLe a b = true :=
      List.pairwise_insertionSort (fun a b : ContextItem => trimLe a b = true) _
    obtain ⟨gone, rest, hsplit, hleft, hneeded⟩ :=
      @trimLoop_eq _ _ order _ hnodup (not_le.mp hover)
    rw [hsplit] at hsorted hmem
    rw [hsplit] at hleft
    refine ⟨gone, hsplit ▸ hleft, fun it hit => (hmem it).mp (List.mem_append_left _ hit),
      (List.pairwise_append.mp hsorted).1, fun it hit kept hkept g g' hg hg' => ?_, hneeded⟩
    -- what is left and could have been removed comes later in the order
    rw [hsplit, hleft, List.mem_filter] at hkept
    have hrest : kept ∈ rest := by
      have hin := (hmem kept).mpr ⟨hkept.1, by rw [hg']; rfl⟩
      exact (List.mem_append.mp hin).resolve_left (by simpa using hkept.2)
    have hle := (List.pairwise_append.mp hsorted).2.2 it hit kept hrest
    rw [trimLe, hg, hg', numberedLe_eq_true] at hle
    simp only [Option.getD_some, Nat.cast_lt, Nat.cast_inj] at hle
    omega

end Trim

/-! ### Items of the inputs -/

section Items

variable {sha : Sha256} {call : BuildCall} {it it' : ContextItem}

/-- What every item that the builder makes is. -/
structure Wellmade (sha : Sha256) (it : ContextItem) : Prop where
  id : makeItemId sha it.trustClass it.sourceType it.sourceRef it.content = .ok it.id
  hash : itemContentHash sha it.content = .ok it.contentHash
  plain : it.importance = Importance.required.value → it.metadata = []

theorem wellmade_makeItem {trustClass : TrustClass} {importance sourceRef content : PyStr}
    {sourceType : String} (h : makeItem sha trustClass importance sourceType sourceRef content =
      .ok it) : Wellmade sha it := by
  simp only [makeItem, bind_eq_ok, pure_eq_ok] at h
  obtain ⟨id, hid, digest, hdigest, rfl⟩ := h
  exact ⟨hid, hdigest, fun _ => rfl⟩

theorem wellmade_artifactItem {a : ArtifactRef} (h : artifactItem sha a = .ok it) :
    Wellmade sha it := by
  simp only [artifactItem, makeItem, bind_eq_ok, pure_eq_ok] at h
  obtain ⟨_, -, _, -, id, hid, digest, hdigest, rfl⟩ := h
  exact ⟨hid, hdigest, fun h => absurd h
    (show Importance.normal.value ≠ Importance.required.value by decide)⟩

theorem wellmade_of_collectItems {items : List ContextItem}
    (h : collectItems sha call = .ok items) (hit : it ∈ items) : Wellmade sha it := by
  simp only [collectItems, bind_eq_ok, pure_eq_ok] at h
  obtain ⟨objective, hobjective, acceptance, hacceptance, constraints, hconstraints, policies,
    hpolicies, facts, hfacts, artifacts, hartifacts, history, hhistory, results, hresults, rfl⟩ := h
  simp only [List.mem_cons, List.mem_append] at hit
  rcases hit with rfl | (((((hmem | hmem) | hmem) | hmem) | hmem) | hmem) | hmem
  · exact wellmade_makeItem hobjective
  · obtain ⟨x, -, hx⟩ := exists_of_mem_mapM hacceptance hmem
    exact wellmade_makeItem hx
  · obtain ⟨x, -, hx⟩ := exists_of_mem_mapM hconstraints hmem
    exact wellmade_makeItem hx
  · obtain ⟨x, -, hx⟩ := exists_of_mem_mapM hpolicies hmem
    exact wellmade_makeItem hx
  · obtain ⟨x, -, hx⟩ := exists_of_mem_mapM hfacts hmem
    exact wellmade_makeItem hx
  · obtain ⟨x, -, hx⟩ := exists_of_mem_mapM hartifacts hmem
    exact wellmade_artifactItem hx
  · obtain ⟨x, -, hx⟩ := exists_of_mem_mapM hhistory hmem
    exact wellmade_makeItem hx
  · obtain ⟨x, -, hx⟩ := exists_of_mem_mapM hresults hmem
    exact wellmade_makeItem hx

/-- Two required items with the same key and the same content are the same. -/
theorem Wellmade.eq_of_required (h : Wellmade sha it) (h' : Wellmade sha it')
    (hkey : dedupKey it = dedupKey it') (hcontent : it.content = it'.content)
    (hit : it.importance = Importance.required.value)
    (hit' : it'.importance = Importance.required.value) : it = it' := by
  simp only [dedupKey, Prod.mk.injEq] at hkey
  obtain ⟨htrust, htype, href, hhash⟩ := hkey
  have hid := h.id
  rw [htrust, htype, href, hcontent, h'.id, Except.ok.injEq] at hid
  have hmeta := (h.plain hit).trans (h'.plain hit').symm
  cases it
  cases it'
  simp_all

theorem required_of_rank {s : PyStr} (h : 4 ≤ Importance.rank s) :
    s = Importance.required.value := by
  by_contra hne
  rw [Importance.rank, if_neg hne] at h
  split at h
  · omega
  · split at h
    · omega
    · split at h <;> omega

/-- A required item is left by the duplicates, if no other content has its hash. -/
theorem mem_dedup_of_required {items : List ContextItem}
    (hwell : ∀ it ∈ items, Wellmade sha it) (hit : it ∈ items)
    (himportance : it.importance = Importance.required.value)
    (hhash : ∀ b ∈ items, b.contentHash = it.contentHash → b.content = it.content) :
    it ∈ dedup items := by
  have hfilled := Chosen.filled_choose dedupKey
    (fun it : ContextItem => Importance.rank it.importance) items
  obtain ⟨b, hb, hkey⟩ := hfilled.total it hit
  obtain ⟨hbmem, hbest⟩ := hfilled.best b hb
  have hrequired : b.importance = Importance.required.value := by
    refine required_of_rank (le_trans ?_ (hbest it hit hkey.symm))
    simp only [himportance]
    decide
  have hcontent := hhash b hbmem (by simpa [dedupKey] using congrArg (fun k => k.2.2.2) hkey)
  rw [← (hwell b hbmem).eq_of_required (hwell it hit) hkey hcontent hrequired himportance]
  exact mem_dedup.mpr hb

end Items

/-! ### The budget -/

section Fitted

variable {sha : Sha256} {call : BuildCall} {pack : ContextPack}

/-- What holds of a pack that has been built. -/
structure Fitted (call : BuildCall) (tier : BudgetTier) (items : List ContextItem)
    (pack : ContextPack) : Prop where
  required : ∀ it ∈ items, it.importance = Importance.required.value →
    (∀ b ∈ items, b.contentHash = it.contentHash → b.content = it.content) → it ∈ pack.items
  tokens : pack.tokenCount = estimateTokens (pack.render none)
  hard : pack.tokenCount ≤ tier.hard
  /-- They are beyond the soft one only for a reason, which is recorded and which the policy
  permits. -/
  expansion : tier.softMax < pack.tokenCount → ∃ reason, pack.expansionReason = some reason ∧
    call.expansionReason = some reason ∧ ExpansionReason.known reason = true ∧
      call.policy.allowExpansion = true
  trimmed : ∃ gone, Trimmed tier.softMax call.renderTokens (dedup items) pack.items gone

theorem fit_eq_ok {tier : BudgetTier} {items final : List ContextItem} {reason : Option PyStr}
    (hnodup : items.Nodup) (h : fit call tier items = .ok (final, reason)) :
    (∃ gone, Trimmed tier.softMax call.renderTokens items final gone) ∧
      ∀ r, reason = some r → call.expansionReason = some r ∧ ExpansionReason.known r ∧
        call.policy.allowExpansion := by
  unfold fit at h
  split at h
  · simp only at h
    split at h
    · simp only [bind_eq_ok] at h
      obtain ⟨_, -, h⟩ := h
      split at h
      · cases h
      next r hr =>
        simp only [bind_eq_ok, check_eq_ok] at h
        obtain ⟨_, hallow, h⟩ := h
        split at h
        next hknown =>
          cases h
          refine ⟨exists_trimmed hnodup, ?_⟩
          rintro _ ⟨⟩
          exact ⟨hr, hknown, hallow⟩
        · cases h
    · cases h
      refine ⟨exists_trimmed hnodup, ?_⟩
      rintro r ⟨⟩
  · cases h
    refine ⟨⟨[], trimmed_nil⟩, ?_⟩
    rintro r ⟨⟩

theorem Trimmed.mem_of_required {soft : ℤ} {render : List ContextItem → ℤ}
    {items final gone : List ContextItem} (h : Trimmed soft render items final gone)
    {it : ContextItem} (hit : it ∈ items)
    (himportance : it.importance = Importance.required.value) :
    it ∈ final := by
  rw [h.kept, List.mem_filter]
  refine ⟨hit, ?_⟩
  simp only [decide_not, Bool.not_eq_true', decide_eq_false_iff_not]
  intro hgone
  have hgroup := (h.removable it hgone).2
  rw [trimGroup, if_pos himportance] at hgroup
  cases hgroup

/-- **The budget and the required context**: a pack that is built has all required items, fits
the hard budget, exceeds the soft one only for a permitted reason, and lacks no more than it
has to. -/
theorem fitted_of_build (h : build sha call = .ok pack) :
    ∃ tier items, call.policy.tierFor call.capability = .ok tier ∧
      collectItems sha call = .ok items ∧ Fitted call tier items pack := by
  simp only [build, buildFrom, bind_eq_ok, pure_eq_ok, check_eq_ok] at h
  obtain ⟨tier, htier, items, hitems, _, -, _, -, ⟨final, reason⟩, hfit, built, hbuilt, _, hvalid,
    rfl⟩ := h
  obtain ⟨⟨gone, htrimmed⟩, hreason⟩ := fit_eq_ok (nodup_dedup items) hfit
  obtain ⟨-, -, -, -, hbudget, -, -, -⟩ := validateContextPack_eq_ok.mp hvalid
  obtain ⟨-, htokens, ⟨-, hhard⟩, -, hexpansion, -⟩ := validateBudget_eq_ok.mp hbudget
  simp only [assemble, bind_eq_ok, pure_eq_ok] at hbuilt
  obtain ⟨digest, -, packId, -, rfl⟩ := hbuilt
  refine ⟨tier, items, htier, hitems, fun it hit himportance hhash => ?_, htokens, hhard,
    fun hover => ?_, gone, htrimmed⟩
  · exact htrimmed.mem_of_required (mem_dedup_of_required
      (fun it hit => wellmade_of_collectItems hitems hit) hit himportance hhash) himportance
  · obtain ⟨r, rfl⟩ := Option.isSome_iff_exists.mp (hexpansion.mp hover)
    exact ⟨r, rfl, hreason r rfl⟩

/-- A hash that tells short texts apart by their lengths. -/
def plainDigest (n : ℕ) : PyStr :=
  (List.replicate n (PyChar.scalar '0') ++
    PyChar.scalar '1' :: List.replicate 64 (PyChar.scalar '0')).take 64

theorem validHex_plainDigest (n : ℕ) : validHex (plainDigest n) 64 := by
  have hlength : (plainDigest n).length = 64 := by simp [plainDigest]
  have hdigits : ∀ c ∈ plainDigest n, c ∈ PyStr.ofString "0123456789abcdef" := by
    intro c hc
    have hmem := List.mem_of_mem_take hc
    simp only [List.mem_append, List.mem_replicate, List.mem_cons] at hmem
    rcases hmem with ⟨-, rfl⟩ | rfl | ⟨-, rfl⟩ <;> decide
  simpa [validHex, hlength] using hdigits

/-- SHA-256 with these digests. -/
def plainSha : Sha256 where
  ofText s := plainDigest s.length
  ofJson _ := plainDigest 64
  hexText _ := validHex_plainDigest _
  hexJson _ := validHex_plainDigest _

/-- A call with an objective and a history, for which the soft budget is too small. -/
def smallCall : BuildCall where
  jobId := []
  dispatchId := []
  role := []
  objective := [.scalar 'a']
  history := [[.scalar 'b']]
  policy := { flash := ⟨0, 56, 0, 100⟩ }

/-- Its pack is within the budget. -/
theorem fitted_small : ∃ pack tier items, build plainSha smallCall = .ok pack ∧
    collectItems plainSha smallCall = .ok items ∧ Fitted smallCall tier items pack := by
  have hok : (build plainSha smallCall).isOk = true := by decide +kernel
  rcases hbuild : build plainSha smallCall with e | pack
  · rw [hbuild] at hok
    cases hok
  · obtain ⟨tier, items, -, hitems, hfitted⟩ := fitted_of_build hbuild
    exact ⟨pack, tier, items, rfl, hitems, hfitted⟩

end Fitted

end Context

end ArgentTeam
