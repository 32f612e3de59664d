import ArgentTeam.Context.Budget

/-!
# What a pack hashes and what it renders

The validation of a pack recomputes its content hash from the items, and the number of its tokens
from the text that is rendered. But the text is rendered from the fields, and that these are the
projection of the items is not checked: every accepted pack can be given any objective
(`accepted_withObjective`). Nor does the hash know the order of the items, which the projection
follows.

Where a pack carries the projection of its items, and these are in the order in which a pack is
built, the hash does say what is rendered (`items_eq_of_hash`).
-/

namespace ArgentTeam

namespace Context

variable {sha : Sha256} {p q : ContextPack}

/-- The values that the law of the hash compares packs by. -/
structure SameHash (p q : ContextPack) : Prop where
  jobId : p.jobId = q.jobId
  dispatchId : p.dispatchId = q.dispatchId
  role : p.role = q.role
  version : p.version = q.version
  contentHash : p.contentHash = q.contentHash

/-- Two packs render the same text, but for the line of the id. -/
def SameText (p q : ContextPack) : Prop := ∀ id, p.render (some id) = q.render (some id)

/-! ### What is rendered -/

@[simp]
theorem unlines_append (xs ys : List PyStr) : unlines (xs ++ ys) = unlines xs ++ unlines ys :=
  List.flatMap_append

theorem SameHash.identity (h : SameHash p q) : p.identity = q.identity := by
  rw [ContextPack.identity, ContextPack.identity, h.version, h.jobId, h.dispatchId, h.role]

theorem sameText_iff (h : p.identity = q.identity) :
    SameText p q ↔ unlines p.lines = unlines q.lines := by
  simp only [SameText, ContextPack.render, renderMessage, h, unlines_append, Option.getD_some,
    List.append_cancel_left_eq, forall_const]

/-! ### Another objective -/

/-- A pack with another objective, and a budget for it. -/
def ContextPack.withObjective (pack : ContextPack) (objective : PyStr) : ContextPack :=
  let tokens := { pack with objective }.renderTokenCount
  { pack with
    objective
    budgetSoft := tokens
    budgetHard := tokens
    budgetEstimated := tokens
    tokenCount := tokens
    expansionReason := none }

theorem estimateTokens_pos (text : PyStr) : 0 < estimateTokens text :=
  lt_of_lt_of_le one_pos (le_max_left _ _)

/-- **Every accepted pack is accepted with any other objective.** -/
theorem accepted_withObjective (h : validateContextPack sha p = .ok ()) (objective : PyStr) :
    validateContextPack sha (p.withObjective objective) = .ok () := by
  rw [validateContextPack_eq_ok] at h ⊢
  obtain ⟨hversion, hid, hlength, hitems, -, hcount, hprovenance, hhash⟩ := h
  refine ⟨hversion, hid, hlength, hitems, validateBudget_eq_ok.mpr ?_, hcount, hprovenance, hhash⟩
  have hpos : 0 ≤ (p.withObjective objective).tokenCount := (estimateTokens_pos _).le
  exact ⟨⟨hpos, le_rfl⟩, rfl, ⟨hpos, le_rfl⟩, le_rfl,
    iff_of_false (lt_irrefl _) Bool.false_ne_true, rfl⟩

theorem sameHash_withObjective (p : ContextPack) (objective : PyStr) :
    SameHash p (p.withObjective objective) := ⟨rfl, rfl, rfl, rfl, rfl⟩

theorem not_sameText_withObjective (p : ContextPack) (c : PyChar) :
    ¬SameText p (p.withObjective (p.objective ++ [c])) := by
  rw [sameText_iff (sameHash_withObjective p _).identity]
  intro h
  have hlength := congrArg List.length h
  simp only [PackFields.lines, unlines_append, List.length_append] at hlength
  simp only [ContextPack.withObjective, unlines, List.flatMap_cons, List.flatMap_nil,
    List.length_append, List.length_cons, List.length_nil] at hlength
  omega

/-! ### Packs that carry their projection -/

/-- The items are in the order in which a pack is built, which tells them apart. -/
def ContextPack.Ordered (pack : ContextPack) : Prop :=
  pack.items.Pairwise fun a b => dedupLe a b = true ∧ dedupLe b a = false

/-- The fields are the projection of the items, in the order in which a pack is built. -/
structure ContextPack.Projected (pack : ContextPack) : Prop where
  ordered : pack.Ordered
  fields : pack.toPackFields = projectItems pack.items

/-- An item that is accepted is given by what is hashed of it. -/
theorem eq_of_itemCanonical {a b : ContextItem} (ha : validateItem sha a = .ok ())
    (hb : validateItem sha b = .ok ()) (h : itemCanonical a = itemCanonical b) : a = b := by
  simp only [validateItem, bind_eq_ok, check_eq_ok, decide_eq_true_eq] at ha hb
  obtain ⟨_, -, _, -, _, -, ida, hida, _, hia, da, hda, _, hca, -⟩ := ha
  obtain ⟨_, -, _, -, _, -, idb, hidb, _, hib, db, hdb, _, hcb, -⟩ := hb
  simp only [itemCanonical, Json.dict, List.map_cons, List.map_nil, Json.obj.injEq, List.cons.injEq,
    Prod.mk.injEq, true_and, and_true, Json.str.injEq, Json.arr.injEq] at h
  obtain ⟨htrust, himportance, htype, href, hcontent, hmeta⟩ := h
  have hmetadata : a.metadata = b.metadata := by
    refine List.map_injective_iff.mpr (fun e f hef => ?_) hmeta
    simp only [Json.arr.injEq, List.cons.injEq, Json.str.injEq, and_true] at hef
    exact Prod.ext hef.1 hef.2
  rw [htrust, htype, href, hcontent, hidb] at hida
  rw [hcontent, hdb] at hda
  have hid : a.id = b.id := by rw [hia, hib, Except.ok.inj hida]
  have hhash : a.contentHash = b.contentHash := by rw [hca, hcb, Except.ok.inj hda]
  cases a
  cases b
  simp_all

/-- Lists with the same image are the same, if the map tells their elements apart. -/
theorem eq_of_map_eq {α β : Type} {f : α → β} {xs ys : List α}
    (hinj : ∀ x ∈ xs, ∀ y ∈ ys, f x = f y → x = y) (h : xs.map f = ys.map f) : xs = ys := by
  induction xs generalizing ys with
  | nil => exact (List.map_eq_nil_iff.mp h.symm).symm
  | cons x xs ih =>
    cases ys with
    | nil => cases h
    | cons y ys =>
      obtain ⟨hxy, hrest⟩ := List.cons.inj h
      rw [hinj x List.mem_cons_self y List.mem_cons_self hxy,
        ih (fun x hx y hy => hinj x (List.mem_cons_of_mem _ hx)
          y (List.mem_cons_of_mem _ hy)) hrest]

theorem json_eq_ok {v : Json} {digest : PyStr} (h : sha.json v = .ok digest) :
    digest = sha.ofJson v := by
  unfold Sha256.json at h
  split at h
  · exact (Except.ok.inj h).symm
  · cases h

/-- SHA-256 tells what is hashed of two packs apart. -/
def NoCollision (sha : Sha256) (p q : ContextPack) : Prop :=
  sha.ofJson (canonicalContent p.items p.role p.version) =
      sha.ofJson (canonicalContent q.items q.role q.version) →
    canonicalContent p.items p.role p.version = canonicalContent q.items q.role q.version

/-- Accepted packs with the same hash have the same items, in some order. -/
theorem perm_of_hash (hp : validateContextPack sha p = .ok ())
    (hq : validateContextPack sha q = .ok ()) (hsame : SameHash p q)
    (hsha : NoCollision sha p q) : p.items.Perm q.items := by
  obtain ⟨-, -, -, hpitems, -, -, -, hphash⟩ := validateContextPack_eq_ok.mp hp
  obtain ⟨-, -, -, hqitems, -, -, -, hqhash⟩ := validateContextPack_eq_ok.mp hq
  have hcanonical := hsha (by
    rw [← json_eq_ok hphash, ← json_eq_ok hqhash, hsame.contentHash])
  simp only [canonicalContent, Json.dict, List.map_cons, List.map_nil, Json.obj.injEq,
    List.cons.injEq, Prod.mk.injEq, true_and, and_true, Json.arr.injEq] at hcanonical
  obtain ⟨-, -, hmap⟩ := hcanonical
  have hsorted := eq_of_map_eq (fun x hx y hy => eq_of_itemCanonical
    (hpitems x ((List.mem_insertionSort _).mp hx)) (hqitems y ((List.mem_insertionSort _).mp hy)))
    hmap
  refine (List.perm_insertionSort (fun a b => textsLe (itemSortKey a) (itemSortKey b) = true)
    p.items).symm.trans ?_
  rw [hsorted]
  exact List.perm_insertionSort _ q.items

/-- **What the hash says**: accepted packs with the same hash, each in the order in which a pack is
built, have the same items. -/
theorem items_eq_of_hash (hp : validateContextPack sha p = .ok ())
    (hq : validateContextPack sha q = .ok ()) (hsame : SameHash p q)
    (hsha : NoCollision sha p q) (hpo : p.Ordered) (hqo : q.Ordered) : p.items = q.items := by
  refine @List.Perm.eq_of_pairwise _ (fun a b => dedupLe a b = true ∧ dedupLe b a = false) _ _
    (fun a b _ _ hab hba => ?_) hpo hqo (perm_of_hash hp hq hsame hsha)
  rw [hab.1] at hba
  cases hba.2

/-- **The hash and the prompt**: every accepted pack has another one, accepted with the same
hash, that renders another text. Next to a pack that carries the projection of its items, a pack
renders the same text exactly if its fields make the text of the projection of its own. -/
theorem rendered_iff_projected (sha : Sha256) :
    (∀ p, validateContextPack sha p = .ok () →
      ∃ q, validateContextPack sha q = .ok () ∧ SameHash p q ∧ ¬SameText p q) ∧
    ∀ p q, validateContextPack sha p = .ok () → validateContextPack sha q = .ok () →
      SameHash p q → NoCollision sha p q → p.Ordered → q.Projected →
        (SameText p q ↔ unlines p.lines = unlines (projectItems p.items).lines) := by
  refine ⟨fun p hp => ?_, fun p q hp hq hsame hsha hordered hprojected => ?_⟩
  · exact ⟨_, accepted_withObjective hp (p.objective ++ [.scalar 'x']),
      sameHash_withObjective p _, not_sameText_withObjective p _⟩
  · rw [sameText_iff hsame.identity, hprojected.fields,
      items_eq_of_hash hp hq hsame hsha hordered hprojected.ordered]

/-! ### Two prompts of one hash -/

section Altered

variable (sha : Sha256)

/-- The fields of a prompt with an objective and nothing else. -/
def bareFields (objective : Char) : PackFields := { objective := [.scalar objective] }

/-- A pack without items that has them. -/
def bare (objective : Char) : ContextPack :=
  { bareFields objective with
    version := contextPackVersion
    contextPackId := packIdPlaceholder
    jobId := []
    dispatchId := []
    role := []
    createdAt := []
    budgetSoft := 100
    budgetHard := 100
    budgetEstimated := 56
    tokenCount := 56
    expansionReason := none
    provenance := []
    contentHash := sha.ofJson (canonicalContent [] [] contextPackVersion)
    items := [] }

theorem accepted_bare (objective : Char) (htokens : estimateTokens (renderMessage packIdPlaceholder
    ⟨contextPackVersion, [], [], []⟩ (bareFields objective)) = 56) :
    validateContextPack sha (bare sha objective) = .ok () := by
  have hid : validId packIdPlaceholder "cp_" 24 = true := by decide +kernel
  have hencodable : ((canonicalContent [] [] contextPackVersion).scan
    Sha256.unencodable).isNone = true := by decide
  have hbudget : validateBudget (bare sha objective) = .ok () :=
    validateBudget_eq_ok.mpr ⟨⟨show (0 : ℤ) ≤ 100 by decide, le_rfl⟩, htokens.symm,
      ⟨show (0 : ℤ) ≤ 56 by decide, show (56 : ℤ) ≤ 100 by decide⟩, le_rfl,
      iff_of_false (show ¬(100 : ℤ) < 56 by decide) Bool.false_ne_true, rfl⟩
  exact validateContextPack_eq_ok.mpr ⟨rfl, hid, Nat.zero_le _, nofun, hbudget, Nat.zero_le _,
    nofun, if_pos hencodable⟩

/-- **Whatever the hash**, an accepted pack with another objective of the same length renders
another text. -/
theorem objective_not_hashed : ¬∃ sha : Sha256, ∀ p q,
    validateContextPack sha p = .ok () → validateContextPack sha q = .ok () → SameHash p q →
      SameText p q := by
  rintro ⟨sha, h⟩
  have hsame := h (bare sha 'a') (bare sha 'b') (accepted_bare sha 'a' (by decide +kernel))
    (accepted_bare sha 'b' (by decide +kernel)) ⟨rfl, rfl, rfl, rfl, rfl⟩
  have htext : unlines (bareFields 'a').lines ≠ unlines (bareFields 'b').lines := by
    decide
  exact htext ((sameText_iff (p := bare sha 'a') (q := bare sha 'b') rfl).mp hsame)

/-- Of two accepted packs of one hash, without items, the one with an objective renders another
text than the one whose fields are their projection. -/
theorem rendered_bare :
    ¬SameText (bare plainSha 'a') ((bare plainSha 'a').withObjective []) := by
  have hp : validateContextPack plainSha (bare plainSha 'a') = .ok () :=
    accepted_bare plainSha 'a' (by decide +kernel)
  have htext : unlines (bareFields 'a').lines ≠ unlines (projectItems []).lines := by
    decide
  exact fun h => htext (((rendered_iff_projected plainSha).2 _ _ hp (accepted_withObjective hp [])
    (sameHash_withObjective _ []) (fun _ => rfl) .nil ⟨.nil, rfl⟩).mp h)

end Altered

end Context

end ArgentTeam
