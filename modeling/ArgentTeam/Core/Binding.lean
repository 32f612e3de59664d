import ArgentTeam.Core.Exec

/-!
# Bindings of dispatches

A dispatch is bound to the session and the run that were spawned for it by
`bind_spawn_result`, and every other command leaves the bindings alone. Binding is not
write-once, however: `recover` moves a bound, running dispatch to `RECOVERY_PENDING`,
a status it shares with dispatches that were never bound, and `bind_spawn_result`
accepts that status without looking at the binding. What it takes for a binding to be
overwritten is `Core.Rebinds`; a run without such a step keeps every binding.
-/

namespace ArgentTeam

open Prog Store

/-- The dispatch is bound: it has a session and a run. -/
def AgentDispatch.Bound (d : AgentDispatch) : Prop :=
  d.childSessionId.isSome = true ∧ d.openclawRunId.isSome = true

instance (d : AgentDispatch) : Decidable d.Bound := inferInstanceAs (Decidable (_ ∧ _))

def AgentDispatch.SameBinding (d d' : AgentDispatch) : Prop :=
  d'.id = d.id ∧ d'.childSessionId = d.childSessionId ∧ d'.openclawRunId = d.openclawRunId

instance (d d' : AgentDispatch) : Decidable (d.SameBinding d') :=
  inferInstanceAs (Decidable (_ ∧ _ ∧ _))

namespace Core

def dispatchTable (w : World) : Table AgentDispatch AgentDispatch.clash :=
  w.db.core.agentDispatches

instance : OfCore dispatchTable := ⟨fun w w' h => by rw [dispatchTable, h, dispatchTable]⟩

instance : Tables.tasks.Apart dispatchTable := ⟨fun _ _ => rfl⟩
instance : Tables.findings.Apart dispatchTable := ⟨fun _ _ => rfl⟩
instance : Tables.decisions.Apart dispatchTable := ⟨fun _ _ => rfl⟩
instance : Tables.ownerApprovals.Apart dispatchTable := ⟨fun _ _ => rfl⟩
instance : Tables.actionExecutions.Apart dispatchTable := ⟨fun _ _ => rfl⟩

/-! ### Keeping bindings -/

/-- Every bound dispatch is still there, with its binding. -/
def KeepsBindings (t t' : Table AgentDispatch AgentDispatch.clash) : Prop :=
  ∀ d ∈ t.rows, d.Bound → ∃ d' ∈ t'.rows, d.SameBinding d'

instance : Std.Refl KeepsBindings := ⟨fun _ d hd _ => ⟨d, hd, rfl, rfl, rfl⟩⟩

instance : IsTrans _ KeepsBindings := by
  refine ⟨fun t₁ t₂ t₃ h h' d hd hb => ?_⟩
  obtain ⟨d₁, hd₁, hid, hs, hr⟩ := h d hd hb
  have hb₁ : d₁.Bound := by rwa [AgentDispatch.Bound, hs, hr]
  obtain ⟨d₂, hd₂, hid₂, hs₂, hr₂⟩ := h' d₁ hd₁ hb₁
  exact ⟨d₂, hd₂, hid₂.trans hid, hs₂.trans hs, hr₂.trans hr⟩

/-- An update that keeps the binding of each bound row it selects keeps them all. -/
theorem keepsBindings_update {t t' : Table AgentDispatch AgentDispatch.clash}
    {p : AgentDispatch → Bool} {f : AgentDispatch → AgentDispatch} (h : t.update? p f = some t')
    (hf : ∀ d ∈ t.rows, p d → d.Bound → d.SameBinding (f d)) : KeepsBindings t t' := by
  intro d hd hb
  refine ⟨Table.patch p f d, ?_, ?_⟩
  · rw [(Table.update?_eq_some.mp h).2]
    exact List.mem_map_of_mem hd
  · by_cases hp : p d = true
    · rw [Table.patch, if_pos hp]
      exact hf d hd hp hb
    · rw [Table.patch, if_neg hp]
      exact ⟨rfl, rfl, rfl⟩

instance {d : AgentDispatch} : Moves dispatchTable KeepsBindings (insertDispatch d) := by
  refine Relvar.moves_insert fun w t' ht x hx _ => ⟨x, ?_, rfl, rfl, rfl⟩
  have := (Table.insert?_eq_some.mp ht).2
  simpa [dispatchTable, Tables.agentDispatches, this] using Or.inl hx

variable {id : Uuid}

instance : Moves dispatchTable KeepsBindings (rejectDispatchCas id) :=
  Relvar.moves_update fun _ _ ht => keepsBindings_update ht fun _ _ _ _ => ⟨rfl, rfl, rfl⟩

instance {status : DispatchStatus} :
    Moves dispatchTable KeepsBindings (updateDispatchStatus id status) :=
  Relvar.moves_update fun _ _ ht => keepsBindings_update ht fun _ _ _ _ => ⟨rfl, rfl, rfl⟩

instance {result : Json} :
    Moves dispatchTable KeepsBindings (consumeDispatch id result) :=
  Relvar.moves_update fun _ _ ht => keepsBindings_update ht fun _ _ _ _ => ⟨rfl, rfl, rfl⟩

/-! ### Binding again -/

/-- The call overwrites a binding: it comes from the controller, it is no replay of a
recorded call, the identity it reports is the one the dispatch expects, and it names an
open dispatch that is bound to another pair. -/
def Rebinds (w : World) (dispatchId : String) (s : SpawnResult) (source : String)
    (key : Option String) : Prop :=
  source = roleSource .lead ∧ recorded w.db key "bind_spawn_result" = none ∧
  ∃ d ∈ w.db.getDispatch dispatchId, (d.status = .pending ∨ d.status = .recoveryPending) ∧
    d.Bound ∧ ¬(d.childSessionId = some s.childSessionId ∧ d.openclawRunId = some s.openclawRunId) ∧
    ∃ task ∈ w.db.getTask d.taskId.text, spawnAllowed d task s = true

instance (w : World) (dispatchId : String) (s : SpawnResult) (source : String)
    (key : Option String) : Decidable (Rebinds w dispatchId s source key) := by
  unfold Rebinds
  infer_instance

/-- The command does not bind a dispatch again. -/
def BindsOnce (w : World) : Command → Prop
  | .bindSpawnResult dispatchId s source key => ¬Rebinds w dispatchId s source key
  | _ => True

instance (w : World) (c : Command) : Decidable (BindsOnce w c) := by
  cases c <;> unfold BindsOnce <;> infer_instance

/-- The step that binds: the dispatch it names was not bound, or not to another pair. -/
theorem bindSpawn_keeps {w w' : World} {d : AgentDispatch} {s : SpawnResult} {u : Unit}
    (hd : d ∈ (dispatchTable w).rows)
    (hb : d.Bound → d.childSessionId = some s.childSessionId ∧
      d.openclawRunId = some s.openclawRunId)
    (h : (bindSpawn d s).Returns w u w') : KeepsBindings (dispatchTable w) (dispatchTable w') := by
  simp only [bindSpawn, returns_bind, returns_nowIso, updateDispatchBind, Relvar.returns_update,
    returns_require] at h
  obtain ⟨-, _, ⟨-, rfl⟩, rc, _, ⟨t', ht, -, rfl⟩, -, _, ⟨-, rfl⟩, hemit⟩ := h
  have hsame : t' = dispatchTable w' := (Moves.frame dispatchTable hemit).symm
  rw [← hsame]
  refine keepsBindings_update ht fun x hx hp hxb => ?_
  simp only [Bool.and_eq_true, decide_eq_true_eq] at hp
  obtain rfl := AgentDispatch.eq_of_id hd hx hp.1.symm
  exact ⟨rfl, (hb hxb).1.symm, (hb hxb).2.symm⟩

/-- **A call that does not bind again keeps every binding.** -/
theorem bindSpawnResult_keeps {w : World} {dispatchId source : String} {s : SpawnResult}
    {key : Option String} (h : ¬Rebinds w dispatchId s source key) :
    KeepsBindings (dispatchTable w)
      (dispatchTable (bindSpawnResult dispatchId s source key w).2) := by
  rcases bindSpawnResult_cases w dispatchId s source key with hdb | ⟨hsource, hrec, r, w₁, hr, hdb⟩
  · rw [dispatchTable, dispatchTable, hdb]
    exact Std.Refl.refl _
  have hsame : dispatchTable (bindSpawnResult dispatchId s source key w).2 = dispatchTable w₁ := by
    rw [dispatchTable, hdb, dispatchTable]
  rw [hsame]
  simp only [bindSpawnResultWork, returns_bind, returns_theDispatch, returns_require,
    returns_theTask, returns_ite, returns_read, returns_pure] at hr
  obtain ⟨d, _, ⟨hd, rfl⟩, -, _, ⟨hopen, rfl⟩, task, _, ⟨htask, rfl⟩, hr⟩ := hr
  rcases hr with ⟨-, u, w₂, hreject, -, rfl⟩ | ⟨hallowed, u, w₂, hbind, -, _, ⟨-, rfl⟩, -, rfl⟩
  · exact (inferInstance : Moves dispatchTable KeepsBindings (rejectSpawn d)).of_returns hreject
  · refine bindSpawn_keeps (Table.mem_of_lookup hd).1 (fun hb => ?_) hbind
    by_contra hpair
    exact h ⟨hsource, hrec, d, hd, hopen, hb, hpair, task, htask, by simpa using hallowed⟩

theorem step_keepsBindings (cfg : Config) (w : World) (c : Command) (h : BindsOnce w c) :
    KeepsBindings (dispatchTable w) (dispatchTable (step cfg w c)) := by
  cases c with
  | bindSpawnResult dispatchId s source key => exact bindSpawnResult_keeps h
  | _ => exact Moves.moves w

/-- **Bindings are write-once as long as no call binds again**: in a run in which no
`bind_spawn_result` names an open dispatch that is bound to another pair already, a
dispatch that is bound at some point is bound to the same session and run ever after. -/
theorem binding_write_once (cfg : Config) {w : World} {before after : List Command}
    (hok : Along cfg BindsOnce w (before ++ after)) {d : AgentDispatch}
    (hd : d ∈ (run cfg w before).db.core.agentDispatches.rows) (hb : d.Bound) :
    ∃ d' ∈ (run cfg w (before ++ after)).db.core.agentDispatches.rows, d.SameBinding d' := by
  have hafter : Runs.Along (step cfg) BindsOnce (run cfg w before) after :=
    (Runs.along_append.mp hok).2
  have hkeeps : KeepsBindings (dispatchTable (run cfg w before))
      (dispatchTable (Runs.run (step cfg) (run cfg w before) after)) :=
    Runs.run_rel (R := fun w w' => KeepsBindings (dispatchTable w) (dispatchTable w'))
      (step_keepsBindings cfg) hafter
  rw [run, Runs.run_append]
  exact hkeeps d hd hb

/-! ### A run that binds twice -/

/-- A dispatch of the lead (6), bound to its session. -/
def boundOnce : List Command := opening ++
  [.createDispatch (num 1) (num 3) .lead 0 1 .standard none (roleSource .lead) none none none,
    .bindSpawnResult (num 6) (leadSpawn "session-1" "run-1") (roleSource .lead) none]

/-- The core restarts, and the dispatch is bound to a second session. -/
def boundTwice : List Command :=
  [.recover ownerSource none,
    .bindSpawnResult (num 6) (leadSpawn "session-2" "run-2") (roleSource .lead) none]

/-- **A binding is not write-once** without the condition on the steps: after a restart
the dispatch of the lead is bound to another session. -/
theorem binding_not_write_once :
    ¬∀ (cfg : Config) (w : World) (before after : List Command), Fresh w →
      ∀ d ∈ (run cfg w before).db.core.agentDispatches.rows, d.Bound →
        ∃ d' ∈ (run cfg w (before ++ after)).db.core.agentDispatches.rows, d.SameBinding d' :=
  fun h => absurd (h .lenient ticking boundOnce boundTwice rfl) (by decide +kernel)

/-- A restart alone keeps the binding. -/
theorem binding_write_once_restart :
    ∃ d' ∈ (run .lenient ticking
        (boundOnce ++ [.recover ownerSource none])).db.core.agentDispatches.rows,
      ((run .lenient ticking boundOnce).db.core.agentDispatches.rows.head
        (by decide +kernel)).SameBinding d' :=
  binding_write_once .lenient (by decide +kernel) (List.head_mem _) (by decide +kernel)

end Core

end ArgentTeam
