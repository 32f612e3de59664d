import ArgentTeam.Broker.Exec

/-!
# Idempotent requests

A request is looked up twice before it is created: by the identifier derived from provider,
account, repository, action and idempotency key, and then by the idempotency key alone. Only
the second lookup compares the request with the one it has found, and it compares exactly the
fields that the identifier is derived from with some others. So a request whose derived fields
are those of a persisted one is answered with the persisted one, whatever else it asks for,
and the comparison of the other fields never decides anything (`Broker.equivalent_joined`).
-/

namespace ArgentTeam

open Prog ArgentTeam.Store ArgentTeam.Core

namespace Broker

/-! ### The requests of a run -/

/-- The text a persisted request was digested as. -/
def textOf (r : ExternalActionRequest) : String :=
  joined r.provider r.account r.repository r.action r.idempotencyKey

/-- The text a call digests its request as. -/
def CreateRequest.text (r : CreateRequest) : String :=
  joined r.provider r.account r.repository r.action r.idempotencyKey

theorem SameRequest.refl (r : ExternalActionRequest) : SameRequest r r :=
  ⟨rfl, rfl, rfl, rfl, rfl, rfl, rfl, rfl, rfl⟩

theorem SameRequest.trans {r₁ r₂ r₃ : ExternalActionRequest} (h : SameRequest r₁ r₂)
    (h' : SameRequest r₂ r₃) : SameRequest r₁ r₃ where
  requestId := h'.requestId.trans h.requestId
  provider := h'.provider.trans h.provider
  account := h'.account.trans h.account
  action := h'.action.trans h.action
  repository := h'.repository.trans h.repository
  resourceRef := h'.resourceRef.trans h.resourceRef
  requestedScope := h'.requestedScope.trans h.requestedScope
  parameters := h'.parameters.trans h.parameters
  idempotencyKey := h'.idempotencyKey.trans h.idempotencyKey

theorem SameRequest.textOf {r r' : ExternalActionRequest} (h : SameRequest r r') :
    textOf r' = textOf r := by
  rw [Broker.textOf, h.provider, h.account, h.repository, h.action, h.idempotencyKey, Broker.textOf]

theorem sameRequest_moved (dst : RequestState) (a f e : Option String) (r : ExternalActionRequest) :
    SameRequest r (moved dst a f e r) :=
  ⟨rfl, rfl, rfl, rfl, rfl, rfl, rfl, rfl, rfl⟩

/-- The identifier of a request is derived from its fields. -/
def Derived (b : Broker) (r : ExternalActionRequest) : Prop :=
  r.requestId = requestIdFor b (textOf r)

theorem Derived.same {b : Broker} {r r' : ExternalActionRequest} (h : Derived b r)
    (hsame : SameRequest r r') : Derived b r' := by
  rw [Derived, hsame.requestId, hsame.textOf]
  exact h

def requestTable (w : World) : Table ExternalActionRequest ExternalActionRequest.clash :=
  w.db.jobs.externalActionRequests

instance : OffLog requestTable := ⟨fun w w' _ h => by rw [requestTable, h, requestTable]⟩

instance : Tables.tasks.Apart requestTable := ⟨fun _ _ => rfl⟩
instance : Tables.findings.Apart requestTable := ⟨fun _ _ => rfl⟩
instance : Tables.decisions.Apart requestTable := ⟨fun _ _ => rfl⟩
instance : Tables.ownerApprovals.Apart requestTable := ⟨fun _ _ => rfl⟩
instance : Tables.actionExecutions.Apart requestTable := ⟨fun _ _ => rfl⟩
instance : Tables.agentDispatches.Apart requestTable := ⟨fun _ _ => rfl⟩
instance : Tables.externalActionAudit.Apart requestTable := ⟨fun _ _ => rfl⟩

/-- **Requests only accumulate**: every request is still there, and a new one has a derived
identifier. -/
structure Grows (b : Broker) (t t' : Table ExternalActionRequest ExternalActionRequest.clash) :
    Prop where
  kept : ∀ r ∈ t.rows, ∃ r' ∈ t'.rows, SameRequest r r'
  fresh : ∀ r' ∈ t'.rows, Derived b r' ∨ ∃ r ∈ t.rows, SameRequest r r'

instance {b : Broker} : Std.Refl (Grows b) :=
  ⟨fun _ => ⟨fun r hr => ⟨r, hr, .refl r⟩, fun r hr => Or.inr ⟨r, hr, .refl r⟩⟩⟩

instance {b : Broker} : IsTrans _ (Grows b) := by
  refine ⟨fun t₁ t₂ t₃ h h' => ⟨fun r hr => ?_, fun r hr => ?_⟩⟩
  · obtain ⟨r₂, hr₂, h₂⟩ := h.kept r hr
    obtain ⟨r₃, hr₃, h₃⟩ := h'.kept r₂ hr₂
    exact ⟨r₃, hr₃, h₂.trans h₃⟩
  · rcases h'.fresh r hr with hd | ⟨r₂, hr₂, h₂⟩
    · exact Or.inl hd
    · rcases h.fresh r₂ hr₂ with hd | ⟨r₁, hr₁, h₁⟩
      · exact Or.inl (hd.same h₂)
      · exact Or.inr ⟨r₁, hr₁, h₁.trans h₂⟩

section Growing

variable {b : Broker}

/-- An update that keeps every request it selects what it is. -/
theorem grows_update {t t' : Table ExternalActionRequest ExternalActionRequest.clash}
    {p : ExternalActionRequest → Bool} {f : ExternalActionRequest → ExternalActionRequest}
    (hf : ∀ r, SameRequest r (f r)) (h : t.update? p f = some t') : Grows b t t' := by
  have hpatch : ∀ r, SameRequest r (Table.patch p f r) := by
    intro r
    unfold Table.patch
    split
    · exact hf r
    · exact .refl r
  constructor
  · exact fun r hr => ⟨_, (Table.mem_of_update? h).mpr ⟨r, hr, rfl⟩, hpatch r⟩
  · intro r' hr'
    obtain ⟨r, hr, rfl⟩ := (Table.mem_of_update? h).mp hr'
    exact Or.inr ⟨r, hr, hpatch r⟩

instance {requestId : String} {src dst : RequestState} {n : ℕ} {a f e : Option String} :
    Moves requestTable (Grows b) (transitionRequestLocked requestId src dst n a f e) := by
  have : Moves requestTable (Grows b) (Tables.externalActionRequests.update integrityError
      (fun r => r.requestId = requestId) (moved dst a f e)) :=
    Relvar.moves_update fun _ _ h => grows_update (sameRequest_moved dst a f e) h
  unfold transitionRequestLocked
  repeat' first | infer_instance | refine moves_bind ?_ fun _ => ?_

instance {requestId : String} {src dst : RequestState} {n : ℕ} {a f e : Option String} :
    Moves requestTable (Grows b) (transitionRequest requestId src dst n a f e) :=
  moves_bind inferInstance fun _ => inferInstance

instance {p : Progress} : Moves requestTable (Grows b) (progress p) :=
  Relvar.moves_update fun _ _ h => grows_update p.same h

theorem moves_createExternalActionRequest {new : ExternalActionRequest} (hnew : Derived b new) :
    Moves requestTable (Grows b) (createExternalActionRequest new) := by
  have : Moves requestTable (Grows b)
      (Tables.externalActionRequests.insert integrityError new) := by
    refine Relvar.moves_insert fun w t' h => ⟨fun r hr => ?_, fun r hr => ?_⟩
    · exact ⟨r, (Table.mem_of_insert? h).mpr (Or.inl hr), .refl r⟩
    · rcases (Table.mem_of_insert? h).mp hr with hr | rfl
      · exact Or.inr ⟨r, hr, .refl r⟩
      · exact Or.inl hnew
  have : Moves requestTable (Grows b) (createRequestLocked new) := by
    unfold createRequestLocked
    refine moves_bind inferInstance fun _ => moves_bind inferInstance fun _ => ?_
    refine moves_caseSome (fun _ => inferInstance) (moves_caseSome (fun _ => ?_) ?_)
    all_goals exact moves_bind inferInstance fun _ => inferInstance
  exact moves_bind inferInstance fun _ => inferInstance

instance {r : CreateRequest} : Moves requestTable (Grows b) (createRequest b r) := by
  unfold createRequest
  refine moves_bind inferInstance fun _ => moves_bind inferInstance fun _ => ?_
  refine moves_bind (moves_createExternalActionRequest rfl) fun _ => ?_
  exact moves_bind inferInstance fun _ => inferInstance

/-- **Along every run the requests accumulate.** -/
theorem grows_run (cfg : Config) (w : World) (as : List Action) :
    Grows b (requestTable w) (requestTable (run cfg b w as)) := by
  refine Runs.run_rel (R := fun w w' => Grows b (requestTable w) (requestTable w'))
    (fun w a (_ : True) => ?_) ?_
  · cases a with
    | core c =>
      have hsame : requestTable w = requestTable (Core.step cfg w c) := by
        cases c <;> exact Moves.moves (R := Eq) w
      exact hsame ▸ Std.Refl.refl (requestTable w)
    | supervise s => exact Std.Refl.refl (requestTable w)
    | _ => exact Moves.moves (R := Grows b) w
  · exact Runs.along_of_forall fun _ _ => trivial

end Growing

/-! ### What a call comes to -/

theorem clash_comm (a b : ExternalActionRequest) : a.clash b = b.clash a := by
  simp only [ExternalActionRequest.clash]
  grind

theorem getRequest_eq_some {db : Db} {id : String} {r : ExternalActionRequest} :
    getRequest db id = some r ↔ r ∈ db.jobs.externalActionRequests.rows ∧ r.requestId = id :=
  Table.lookup_eq_some_iff clash_comm fun a b h => by simp [ExternalActionRequest.clash, h]

theorem lookup_key_eq_some {db : Db} {key : String} {r : ExternalActionRequest} :
    db.jobs.externalActionRequests.lookup ExternalActionRequest.idempotencyKey key = some r ↔
      r ∈ db.jobs.externalActionRequests.rows ∧ r.idempotencyKey = key :=
  Table.lookup_eq_some_iff clash_comm fun a b h => by simp [ExternalActionRequest.clash, h]

/-- The error of a key that is reused for another request. -/
def conflict (r : CreateRequest) : Error :=
  .error .idempotencyConflictError "idempotency_key %r reused with a non-equivalent request"
    [r.idempotencyKey]

section Outcomes

variable {b : Broker} {w w' : World} {r : CreateRequest} {v : Validated}
  {e x : ExternalActionRequest} {t : Time}

theorem returns_validate (h : (validate b r w).1 = .ok v) : (validate b r).Returns w v w := by
  have hw : (validate b r w).2 = w := Moves.frame_snd id
  have hr := returns_of_fst h
  rwa [hw] at hr

theorem equivalent_joined (h : equivalent x (newRequest b r v t))
    (hkey : x.idempotencyKey = r.idempotencyKey) : textOf x = r.text := by
  simp only [equivalent, Bool.and_eq_true, decide_eq_true_eq] at h
  obtain ⟨⟨⟨⟨⟨⟨hp, ha⟩, hact⟩, hrepo⟩, -⟩, -⟩, -⟩ := h
  rw [textOf, hp, ha, hact, hrepo, hkey]
  rfl

/-- A request whose identifier is taken is answered with the row that has it. -/
theorem createRequest_taken (hv : (validate b r w).1 = .ok v)
    (hx : x ∈ (requestTable w).rows) (hid : x.requestId = requestIdFor b r.text) :
    (createRequest b r).Returns w x { w with reads := w.reads + 2 } := by
  have hfound : getRequest w.db (requestIdFor b r.text) = some x := getRequest_eq_some.mpr ⟨hx, hid⟩
  simp only [createRequest, createExternalActionRequest, createRequestLocked, returns_bind,
    returns_nowIso, returns_transaction, returns_read, returns_caseSome,
      returns_onlyIf, returns_pure,
    and_assoc, exists_and_left, exists_eq_left']
  refine ⟨v, w, returns_validate hv, _, _, Or.inl ⟨x, hfound, rfl, rfl⟩, (), _, ?_, rfl, rfl⟩
  exact Or.inr ⟨by simp, rfl⟩

/-- A request whose key is taken by another one is refused. -/
theorem createRequest_conflict (hv : (validate b r w).1 = .ok v)
    (hnone : ∀ x ∈ (requestTable w).rows, x.requestId ≠ requestIdFor b r.text)
    (hx : x ∈ (requestTable w).rows) (hkey : x.idempotencyKey = r.idempotencyKey)
    (hne : textOf x ≠ r.text) :
    (createRequest b r).Raises w (conflict r) { w with reads := w.reads + 2 } := by
  have hfree : getRequest w.db (requestIdFor b r.text) = none := by
    by_contra hc
    obtain ⟨y, hy⟩ := Option.ne_none_iff_exists'.mp hc
    exact hnone y ((getRequest_eq_some).mp hy).1 ((getRequest_eq_some).mp hy).2
  have hfound := (lookup_key_eq_some).mpr ⟨hx, hkey⟩
  simp only [createRequest, createExternalActionRequest, createRequestLocked, raises_bind,
    returns_bind, not_raises_nowIso, returns_nowIso, raises_transaction, not_raises_read,
    returns_read, raises_caseSome, raises_require, not_raises_pure, false_or, or_false, and_false,
    exists_false, and_assoc, exists_and_left, exists_eq_left']
  refine Or.inr ⟨v, w, returns_validate hv, Or.inl ⟨hfree, _,
    Or.inl ⟨x, hfound, ?_, rfl, rfl⟩, rfl⟩⟩
  exact fun heq => hne (equivalent_joined heq hkey)

/-- A call that creates its request creates it with the fields it was called with. -/
theorem created (h : (createRequest b r).Returns w e w')
    (hnew : getRequest w.db e.requestId = none) :
    ∃ v t, (validate b r w).1 = .ok v ∧ e = newRequest b r v t ∧ e ∈ (requestTable w').rows := by
  simp only [createRequest, createExternalActionRequest, createRequestLocked, returns_bind,
    returns_nowIso, returns_transaction, returns_read, returns_caseSome,
      returns_onlyIf, returns_pure,
    Relvar.returns_insert, returns_require,
    and_assoc, exists_and_left, exists_eq_left', exists_const] at h
  obtain ⟨v, w₁, hv, ⟨row, _⟩, w₂, hcases, _, w₃, haudit, rfl, rfl⟩ := h
  have hw₁ : w = w₁ := (Moves.frame id hv).symm
  subst hw₁
  have hv' : (validate b r w).1 = .ok v := congrArg Prod.fst hv
  have habsurd : ∀ x, x ∈ (requestTable w).rows → x = row → False := by
    rintro x hx rfl
    exact absurd ((getRequest_eq_some).mpr ⟨hx, rfl⟩) (by rw [hnew]; simp)
  rcases hcases with ⟨x, hx, heq, -⟩ | ⟨-, ⟨x, hx, -, heq, -⟩ | ⟨-, w₄, ⟨t', ht, rfl⟩, heq, rfl⟩⟩
  · exact (habsurd x ((getRequest_eq_some).mp hx).1 (congrArg Prod.fst heq)).elim
  · exact (habsurd x ((lookup_key_eq_some).mp hx).1 (congrArg Prod.fst heq)).elim
  · obtain ⟨rfl, rfl⟩ := Prod.mk.inj heq
    refine ⟨v, _, hv', rfl, ?_⟩
    have hgrow : requestTable w₃ = t' := by
      rcases haudit with ⟨-, haudit⟩ | ⟨hc, -⟩
      · exact Moves.frame requestTable haudit
      · exact absurd rfl hc
    rw [hgrow]
    exact (Table.mem_of_insert? ht).mpr (Or.inr rfl)

end Outcomes

/-! ### Two calls under one key -/

section TwoCalls

variable {b : Broker} {w : World} {r₁ r₂ : CreateRequest} {v₁ v₂ : Validated}
  {e x : ExternalActionRequest}

/-- Two requests that have passed their validation ask for the same. -/
structure FullyEquivalent (r₁ : CreateRequest) (v₁ : Validated) (r₂ : CreateRequest)
    (v₂ : Validated) : Prop where
  provider : r₁.provider = r₂.provider
  account : r₁.account = r₂.account
  action : r₁.action = r₂.action
  repository : r₁.repository = r₂.repository
  resourceRef : r₁.resourceRef = r₂.resourceRef
  requestedScope : r₁.requestedScope = r₂.requestedScope
  parameters : v₁.parameters = v₂.parameters

/-- **The second call is answered as it should be**: it asks for the same as the first, whose
row it is answered with, or it is refused; and either way nothing is written. -/
def Answered (b : Broker) (w : World) (e : ExternalActionRequest) (r₁ : CreateRequest)
    (v₁ : Validated) (r₂ : CreateRequest) (v₂ : Validated) : Prop :=
  (FullyEquivalent r₁ v₁ r₂ v₂ ∧ ∃ e' w', (createRequest b r₂).Returns w e' w' ∧
    SameRequest e e' ∧ w'.db = w.db) ∨
  ∃ w', (createRequest b r₂).Raises w (conflict r₂) w' ∧ w'.db = w.db

/-- **No request is mistaken for the second**: the text the first was digested as is that of
the second only if both ask for the same, and no request under another key has that text. -/
def Unmistaken (w : World) (r₁ : CreateRequest) (v₁ : Validated) (r₂ : CreateRequest)
    (v₂ : Validated) : Prop :=
  (r₁.text = r₂.text → FullyEquivalent r₁ v₁ r₂ v₂) ∧
    ∀ x ∈ (requestTable w).rows, textOf x = r₂.text → x.idempotencyKey = r₂.idempotencyKey

/-- What a second call is answered, in a store whose identifiers are derived and that still
has the first request. -/
theorem answered_iff {t : Time} {e' : ExternalActionRequest}
    (hderived : ∀ x ∈ (requestTable w).rows, Derived b x) (he : e = newRequest b r₁ v₁ t)
    (he' : e' ∈ (requestTable w).rows) (hsame : SameRequest e e')
    (hv : (validate b r₂ w).1 = .ok v₂) (hkey : r₂.idempotencyKey = r₁.idempotencyKey)
    (hdigest : ∀ x ∈ (requestTable w).rows,
      requestIdFor b (textOf x) = requestIdFor b r₂.text → textOf x = r₂.text) :
    Answered b w e r₁ v₁ r₂ v₂ ↔ Unmistaken w r₁ v₁ r₂ v₂ := by
  have htext : textOf e' = r₁.text := by
    rw [hsame.textOf, he]
    rfl
  have hekey : e'.idempotencyKey = r₂.idempotencyKey := by
    rw [hsame.idempotencyKey, he, hkey]
    rfl
  have hid : ∀ x ∈ (requestTable w).rows, x.requestId = requestIdFor b r₂.text ↔
      textOf x = r₂.text := fun x hx =>
    ⟨fun h => hdigest x hx ((hderived x hx).symm.trans h),
      fun h => by rw [← h]; exact hderived x hx⟩
  by_cases htaken : ∃ x ∈ (requestTable w).rows, x.requestId = requestIdFor b r₂.text
  · obtain ⟨x, hx, hxid⟩ := htaken
    have hreturns := createRequest_taken hv hx hxid
    have honly : ∀ y ∈ (requestTable w).rows, textOf y = r₂.text → y = x := fun y hy hytext =>
      Table.eq_of_clash clash_comm hy hx
        (by simp [ExternalActionRequest.clash, hxid, (hid y hy).mpr hytext])
    constructor
    · rintro (⟨hequiv, y, w', hy, hey, -⟩ | ⟨w', hraises, -⟩)
      · obtain rfl : x = y := by
          have := hreturns.symm.trans hy
          simpa using congrArg Prod.fst this
        refine ⟨fun _ => hequiv, fun z hz hztext => ?_⟩
        rw [honly z hz hztext, hey.idempotencyKey, he, hkey]
        rfl
      · have := hreturns.symm.trans hraises
        simp at this
    · rintro ⟨hequiv, honlyKey⟩
      obtain rfl : x = e' := by
        refine Table.eq_of_clash clash_comm hx he' ?_
        simp [ExternalActionRequest.clash, hekey, honlyKey x hx ((hid x hx).mp hxid)]
      have hsametext : r₁.text = r₂.text := htext.symm.trans ((hid x hx).mp hxid)
      exact Or.inl ⟨hequiv hsametext, x, _, hreturns, hsame, rfl⟩
  · have hnone : ∀ x ∈ (requestTable w).rows, x.requestId ≠ requestIdFor b r₂.text :=
      fun x hx hxid => htaken ⟨x, hx, hxid⟩
    have hother : ∀ x ∈ (requestTable w).rows, textOf x ≠ r₂.text := fun x hx htext =>
      hnone x hx ((hid x hx).mpr htext)
    have hraises := createRequest_conflict hv hnone he' hekey (hother e' he')
    refine iff_of_true (Or.inr ⟨_, hraises, rfl⟩) ⟨fun h => ?_, fun x hx h => ?_⟩
    · exact absurd (htext.trans h) (hother e' he')
    · exact absurd h (hother x hx)

/-- **A second call is answered as it should be if and only if no request is mistaken for
it.** In every run from an empty database, a request is created by a first call, and at any
later point a second call carries the same idempotency key and passes validation; no two of
the texts at hand have the same digest. -/
theorem answered_iff_unmistaken (cfg : Config) {before after : List Action} (hw : Fresh w)
    (hv₁ : (validate b r₁ (run cfg b w before)).1 = .ok v₁)
    (he : (createRequest b r₁ (run cfg b w before)).1 = .ok e)
    (hnew : getRequest (run cfg b w before).db e.requestId = none)
    (hv₂ : (validate b r₂ (run cfg b w (before ++ .createRequest r₁ :: after))).1 = .ok v₂)
    (hkey : r₂.idempotencyKey = r₁.idempotencyKey)
    (hdigest : ∀ x ∈ (requestTable (run cfg b w (before ++ .createRequest r₁ :: after))).rows,
      requestIdFor b (textOf x) = requestIdFor b r₂.text → textOf x = r₂.text) :
    Answered b (run cfg b w (before ++ .createRequest r₁ :: after)) e r₁ v₁ r₂ v₂ ↔
      Unmistaken (run cfg b w (before ++ .createRequest r₁ :: after)) r₁ v₁ r₂ v₂ := by
  obtain ⟨v, t, hv, rfl, hmem⟩ := created (returns_of_fst he) hnew
  obtain rfl : v = v₁ := by simpa using hv.symm.trans hv₁
  have hrun : run cfg b w (before ++ .createRequest r₁ :: after) =
      run cfg b (createRequest b r₁ (run cfg b w before)).2 after := by
    rw [run, Runs.run_append]
    rfl
  obtain ⟨e', he', hsame⟩ := (grows_run cfg _ after).kept _ hmem
  have hderived : ∀ x ∈ (requestTable (run cfg b w (before ++ .createRequest r₁ :: after))).rows,
      Derived b x := fun x hx => by
    rcases (grows_run (b := b) cfg w _).fresh x hx with hd | ⟨y, hy, -⟩
    · exact hd
    · rw [requestTable, show w.db = Db.empty from hw] at hy
      exact absurd hy (by simp [Db.empty])
  exact answered_iff hderived rfl (hrun ▸ he') hsame hv₂ hkey hdigest

end TwoCalls

/-! ### A request that is mistaken for another -/

/-- The result that may be deployed is there. -/
def integrated : List Action := leadAtWork.map .core ++ [.supervise finished]

/-- What is left of a request to deploy it. -/
def deployValidated : Validated := ⟨.sensitive, .obj [], .obj []⟩

/-- The row of the request to deploy it to production. -/
def deployed : ExternalActionRequest :=
  newRequest github (deployRequest "prod") deployValidated 3600000005

/-- The deployment is asked for, and nothing was filed under its id before. -/
theorem deployed_integrated :
    (validate github (deployRequest "prod") (run .lenient github ticking integrated)).1 =
        .ok deployValidated ∧
      (createRequest github (deployRequest "prod") (run .lenient github ticking integrated)).1 =
        .ok deployed ∧
      getRequest (run .lenient github ticking integrated).db deployed.requestId = none := by
  decide +kernel

/-- **A request may be answered with another one**: the same key, used for another resource,
is answered with the request for the first. -/
theorem answered_with_another :
    ¬∀ (cfg : Config) (b : Broker) (w : World) (before after : List Action)
      (r₁ r₂ : CreateRequest) (v₁ v₂ : Validated) (e : ExternalActionRequest), Fresh w →
      (validate b r₁ (run cfg b w before)).1 = .ok v₁ →
      (createRequest b r₁ (run cfg b w before)).1 = .ok e →
      getRequest (run cfg b w before).db e.requestId = none →
      (validate b r₂ (run cfg b w (before ++ .createRequest r₁ :: after))).1 = .ok v₂ →
      r₂.idempotencyKey = r₁.idempotencyKey →
      (∀ x ∈ (requestTable (run cfg b w (before ++ .createRequest r₁ :: after))).rows,
        requestIdFor b (textOf x) = requestIdFor b r₂.text → textOf x = r₂.text) →
      Answered b (run cfg b w (before ++ .createRequest r₁ :: after)) e r₁ v₁ r₂ v₂ := by
  intro h
  obtain ⟨hv₁, he, hnone⟩ := deployed_integrated
  have hfacts : (validate github (deployRequest "staging") (run .lenient github ticking
        (integrated ++ [.createRequest (deployRequest "prod")]))).1 = .ok deployValidated ∧
      (∀ x ∈ (requestTable (run .lenient github ticking
          (integrated ++ [.createRequest (deployRequest "prod")]))).rows,
        requestIdFor github (textOf x) = requestIdFor github (deployRequest "staging").text →
          textOf x = (deployRequest "staging").text) ∧
      (createRequest github (deployRequest "staging") (run .lenient github ticking
        (integrated ++ [.createRequest (deployRequest "prod")]))).1 ≠
          .error (conflict (deployRequest "staging")) := by
    decide +kernel
  obtain ⟨hv₂, hdigest, hanswer⟩ := hfacts
  rcases h .lenient github ticking integrated [] (deployRequest "prod") (deployRequest "staging")
    deployValidated deployValidated deployed rfl hv₁ he hnone hv₂ rfl hdigest with
    ⟨hequiv, -⟩ | ⟨w', hraises, -⟩
  · exact absurd hequiv.resourceRef (by decide)
  · exact hanswer (congrArg Prod.fst hraises)

/-- The same call twice. -/
theorem answered_iff_unmistaken_retry :
    Answered github (run .lenient github ticking
        (integrated ++ [.createRequest (deployRequest "prod")])) deployed
        (deployRequest "prod") deployValidated (deployRequest "prod") deployValidated ↔
      Unmistaken (run .lenient github ticking
        (integrated ++ [.createRequest (deployRequest "prod")]))
        (deployRequest "prod") deployValidated (deployRequest "prod") deployValidated := by
  obtain ⟨hv₁, he, hnone⟩ := deployed_integrated
  have hfacts : (validate github (deployRequest "prod") (run .lenient github ticking
        (integrated ++ [.createRequest (deployRequest "prod")]))).1 = .ok deployValidated ∧
      ∀ x ∈ (requestTable (run .lenient github ticking
          (integrated ++ [.createRequest (deployRequest "prod")]))).rows,
        requestIdFor github (textOf x) = requestIdFor github (deployRequest "prod").text →
          textOf x = (deployRequest "prod").text := by
    decide +kernel
  obtain ⟨hv₂, hdigest⟩ := hfacts
  exact answered_iff_unmistaken .lenient rfl hv₁ he hnone hv₂ rfl hdigest

end Broker

end ArgentTeam
