import ArgentTeam.Core.Exec
import ArgentTeam.Core.GateSteps

/-!
# Restarting on live data

Whenever the store is opened, the closure columns of every approval are computed anew
from its status. Two questions arise. Does the store open at all? It refuses if some
consumed approval is not bound to exactly one execution, so that every path that
consumes an approval has to record one (`Core.Closed`). And does opening it leave the
approvals as they are? Only where the columns the backfill computes are the ones the
gate commands have written (`Core.Settled`), and that fails on two paths: an approved
approval that expires keeps the time it was approved at, which the backfill erases, and
an approval that is consumed is stamped with one reading of the clock while its
execution is stamped with the next.
-/

namespace ArgentTeam

open Prog Store

namespace Core

/-! ### What the backfill needs -/

/-- **The approvals and the executions fit together**: an execution of an approval belongs
to a consumed one, and a consumed approval is bound to exactly one execution, which it
names. -/
structure Closed (c : CoreDb) : Prop where
  executed : ∀ x ∈ c.actionExecutions.rows, ∀ id ∈ x.approvalId,
    ∃ a ∈ c.ownerApprovals.rows, a.id = id ∧ a.status = .consumed
  consumed : ∀ a ∈ c.ownerApprovals.rows, a.status = .consumed →
    ∃ x, executionsOf c a.id = [x] ∧ a.executionId = some x.id
  unconsumed : ∀ a ∈ c.ownerApprovals.rows, a.status ≠ .consumed → a.executionId = none

/-- **The closure columns are settled**: the backfill computes what is already there. -/
def Settled (c : CoreDb) : Prop :=
  ∀ a ∈ c.ownerApprovals.rows, recomputed c a = some (closureOf a)

section Opening

variable {c : CoreDb} {w w' : World} {a : OwnerApproval} {u : Unit}

/-- Where the tables fit together, the backfill computes the closure of every approval,
and it names the execution the approval names. -/
theorem Closed.recomputed (h : Closed c) (ha : a ∈ c.ownerApprovals.rows) :
    ∃ cl, recomputed c a = some cl ∧ cl.executionId = a.executionId := by
  by_cases hstatus : a.status = .consumed
  · obtain ⟨x, hx, hid⟩ := h.consumed a ha hstatus
    exact ⟨_, by rw [Store.recomputed, hstatus, hx], hid.symm⟩
  · rw [h.unconsumed a ha hstatus]
    unfold Store.recomputed
    split
    iterate 4 · exact ⟨_, rfl, rfl⟩
    · exact absurd ‹_› hstatus

/-- The approvals in the middle of the backfill: their keys are what they were. -/
def HalfWay (c c' : CoreDb) : Prop :=
  c'.actionExecutions = c.actionExecutions ∧ ∀ b ∈ c'.ownerApprovals.rows,
    ∃ a ∈ c.ownerApprovals.rows, b.id = a.id ∧ b.executionId = a.executionId

/-- One approval of the backfill goes through. -/
theorem backfill_total (h : Closed c) (ha : a ∈ c.ownerApprovals.rows)
    (hw : HalfWay c w.db.core) : ∃ w', (backfill a).Returns w () w' ∧ HalfWay c w'.db.core := by
  obtain ⟨cl, hcl, hid⟩ := h.recomputed ha
  have hkept : ∀ b ∈ w.db.core.ownerApprovals.rows,
      (Table.patch (fun b => b.id = a.id) (withClosure cl) b).executionId = b.executionId := by
    intro b hb
    by_cases hba : b.id = a.id
    · obtain ⟨a', ha', hba', hexec⟩ := hw.2 b hb
      obtain rfl := OwnerApproval.eq_of_id ha' ha (hba'.symm.trans hba)
      rw [Table.patch_pos (by simpa using hba), hexec]
      exact hid
    · rw [Table.patch_neg (by simpa using hba)]
  have hsame : ∀ b, (Table.patch (fun b => b.id = a.id) (withClosure cl) b).id = b.id ∧
      (Table.patch (fun b => b.id = a.id) (withClosure cl) b).taskId = b.taskId ∧
      (Table.patch (fun b => b.id = a.id) (withClosure cl) b).action = b.action ∧
      (Table.patch (fun b => b.id = a.id) (withClosure cl) b).scope = b.scope ∧
      (Table.patch (fun b => b.id = a.id) (withClosure cl) b).status = b.status := by
    intro b
    unfold Table.patch
    split <;> exact ⟨rfl, rfl, rfl, rfl, rfl⟩
  obtain ⟨approvals, ht⟩ := Table.exists_update? w.db.core.ownerApprovals
    (p := fun b => b.id = a.id) (f := withClosure cl) fun b hb d hd hclash => by
      simpa only [OwnerApproval.clash, hkept b hb, hkept d hd, hsame] using hclash
  refine ⟨Tables.ownerApprovals.set approvals w, ?_, hw.1, fun b hb => ?_⟩
  · simp only [backfill, returns_bind, returns_read, returns_orRaise, Relvar.returns_update,
      returns_pure]
    refine ⟨_, _, ⟨rfl, rfl⟩, cl, _, ⟨?_, rfl⟩, _, _, ⟨approvals, ht, rfl, rfl⟩, trivial, rfl⟩
    rw [← hcl]
    simp only [Store.recomputed, executionsOf, hw.1]
  · obtain ⟨b', hb', rfl⟩ := (Table.mem_of_update? ht).mp hb
    obtain ⟨a', ha', hida, hexec⟩ := hw.2 b' hb'
    exact ⟨a', ha', (hsame b').1.trans hida, (hkept b' hb').trans hexec⟩

/-- **Where the tables fit together, the store opens.** -/
theorem createSchema_total (h : Closed w.db.core) : ∃ w', createSchema.Returns w () w' := by
  obtain ⟨w', hloop, -⟩ := forEach_total (I := fun w' : World => HalfWay w.db.core w'.db.core)
    ⟨rfl, fun b hb => ⟨b, hb, rfl, rfl⟩⟩ fun a (ha : a ∈ w.db.core.ownerApprovals.rows) s hs =>
      backfill_total h ha hs
  refine ⟨w', ?_⟩
  simp only [createSchema, returns_transaction, returns_bind, returns_read]
  exact ⟨_, _, ⟨rfl, rfl⟩, hloop⟩

/-- One settled approval of the backfill stays what it is. -/
theorem backfill_settled (h : recomputed w.db.core a = some (closureOf a))
    (ha : a ∈ w.db.core.ownerApprovals.rows) (hr : (backfill a).Returns w u w') :
    w'.db.core = w.db.core := by
  simp only [backfill, returns_bind, returns_read, returns_orRaise, Relvar.returns_update,
    returns_pure] at hr
  obtain ⟨_, _, ⟨rfl, rfl⟩, cl, _, ⟨hcl, rfl⟩, _, _, ⟨approvals, ht, -, rfl⟩, -, rfl⟩ := hr
  obtain rfl : closureOf a = cl := Option.mem_unique h hcl
  have hrows : approvals.rows = w.db.core.ownerApprovals.rows := by
    rw [(Table.update?_eq_some.mp ht).2]
    refine (List.map_congr_left fun b hb => ?_).trans (List.map_id _)
    by_cases hba : b.id = a.id
    · obtain rfl := OwnerApproval.eq_of_id hb ha hba
      exact Table.patch_pos (by simp)
    · exact Table.patch_neg (by simpa using hba)
  have : approvals = w.db.core.ownerApprovals := Table.ext hrows
  rw [this]
  rfl

/-- **Where the closure columns are settled, opening the store changes no approval.** -/
theorem createSchema_settled (h : Settled w.db.core) (hr : createSchema.Returns w u w') :
    w'.db.core = w.db.core := by
  simp only [createSchema, returns_transaction, returns_bind, returns_read] at hr
  obtain ⟨_, _, ⟨rfl, rfl⟩, hloop⟩ := hr
  refine returns_forEach (R := fun w₁ w₂ : World => w₁.db.core = w.db.core →
    w₂.db.core = w.db.core) (fun _ => id) (fun _ _ _ h h' => h' ∘ h)
    (fun a ha w₁ u w₂ hr heq => ?_) hloop rfl
  rw [← heq] at ha h ⊢
  exact backfill_settled (h a ha) ha hr

end Opening

/-! ### What a command makes of the approvals -/

/-- The approval before and after a gate command closed or decided it, other than by an
execution. Where the closure columns go stale, they do so because an approved approval
expires. -/
inductive Decides (stale : Prop) (ap : OwnerApproval) : OwnerApproval → Prop
  | approve (now : Time) (h : ap.status = .pending) : Decides stale ap (ap.approve now)
  | reject (now : Time) (h : ap.status = .pending) : Decides stale ap (ap.reject now)
  | expire (h : ap.status = .pending) : Decides stale ap ap.expire
  | expireApproved (h : ap.status = .approved) (hstale : stale) : Decides stale ap ap.expire

/-- What a command makes of the approvals and the executions. -/
inductive ApprovalStep (stale : Prop) (c c' : CoreDb) : Prop
  | same (happrovals : c'.ownerApprovals = c.ownerApprovals)
    (hexecutions : c'.actionExecutions = c.actionExecutions)
  | records (h : RecordsExecution c c')
  | parks (h : ParksTask c c')
  | decides (ap : OwnerApproval) (f : OwnerApproval → OwnerApproval) (c₁ : CoreDb)
    (hap : ap ∈ c.ownerApprovals.rows) (hset : SetApproval c c₁ ap f) (hf : Decides stale ap (f ap))
    (hkeeps : c'.ownerApprovals = c₁.ownerApprovals ∧ c'.actionExecutions = c₁.actionExecutions)
  | executes (ap : OwnerApproval) (x : ActionExecution) (now later : Time) (c₁ c₂ : CoreDb)
    (hap : ap ∈ c.ownerApprovals.rows) (hstatus : ap.status = .approved)
    (hrecords : RecordsApproved c c₁ ap x later)
    (hset : SetApproval c₁ c₂ ap (.consumeWith now x.id))
    (hkeeps : c'.ownerApprovals = c₂.ownerApprovals ∧ c'.actionExecutions = c₂.actionExecutions)
    (hlater : later = now ∨ stale)

section Steps

variable {stale : Prop} {c c' c₁ : CoreDb} {ap a : OwnerApproval} {x : ActionExecution}
  {now later : Time}

theorem executionsOf_congr (h : c'.actionExecutions = c.actionExecutions) (id : Uuid) :
    executionsOf c' id = executionsOf c id := by
  rw [executionsOf, h, executionsOf]

theorem recomputed_congr (h : c'.actionExecutions = c.actionExecutions) (a : OwnerApproval) :
    recomputed c' a = recomputed c a := by
  simp only [recomputed, executionsOf_congr h]

theorem executionsOf_insert {executions : Table ActionExecution ActionExecution.clash}
    (hins : c.actionExecutions.insert? x = some executions) (id : Uuid) :
    executionsOf { c with actionExecutions := executions } id =
      executionsOf c id ++ if x.approvalId = some id then [x] else [] := by
  simp only [executionsOf, (Table.insert?_eq_some.mp hins).2, List.filter_append]
  split <;> simp_all

theorem Decides.keeps {ap' : OwnerApproval} (h : Decides stale ap ap') :
    ap.status ≠ .consumed ∧ ap'.status ≠ .consumed ∧ ap'.id = ap.id ∧
      ap'.executionId = ap.executionId := by
  cases h with
  | approve now h => exact ⟨by rw [h]; decide, nofun, rfl, rfl⟩
  | reject now h => exact ⟨by rw [h]; decide, nofun, rfl, rfl⟩
  | expire h | expireApproved h => exact ⟨by rw [h]; decide, nofun, rfl, rfl⟩

/-! #### The tables go on fitting together -/

theorem Closed.congr (h : Closed c) (happrovals : c'.ownerApprovals = c.ownerApprovals)
    (hexecutions : c'.actionExecutions = c.actionExecutions) : Closed c' := by
  constructor
  · rw [happrovals, hexecutions]
    exact h.executed
  · simpa only [happrovals, executionsOf_congr hexecutions] using h.consumed
  · rw [happrovals]
    exact h.unconsumed

theorem Closed.records (h : Closed c) (hr : RecordsExecution c c') : Closed c' := by
  obtain ⟨x, executions, hx, hins, rfl⟩ := hr
  refine ⟨fun y hy id hid => ?_, fun a ha hstatus => ?_, h.unconsumed⟩
  · rcases (Table.mem_of_insert? hins).mp hy with hy | rfl
    · exact h.executed y hy id hid
    · rw [hx] at hid
      exact absurd hid (by simp)
  · obtain ⟨y, hy, hid⟩ := h.consumed a ha hstatus
    exact ⟨y, by rw [executionsOf_insert hins, hy, hx]; rfl, hid⟩

theorem Closed.parks (h : Closed c) (hp : ParksTask c c') : Closed c' := by
  obtain ⟨t, -, -, id, action, scope, role, created, expires, approvals, hins, tasks, -, rfl⟩ := hp
  refine ⟨fun x hx id' hid => ?_, fun a ha hstatus => ?_, fun a ha hstatus => ?_⟩
  · obtain ⟨a, ha, haid⟩ := h.executed x hx id' hid
    exact ⟨a, (Table.mem_of_insert? hins).mpr (Or.inl ha), haid⟩
  · rcases (Table.mem_of_insert? hins).mp ha with ha | rfl
    · exact h.consumed a ha hstatus
    · exact ApprovalStatus.noConfusion hstatus
  · rcases (Table.mem_of_insert? hins).mp ha with ha | rfl
    · exact h.unconsumed a ha hstatus
    · rfl

theorem Closed.decides (h : Closed c) {f : OwnerApproval → OwnerApproval}
    (hap : ap ∈ c.ownerApprovals.rows) (hset : SetApproval c c' ap f)
    (hf : Decides stale ap (f ap)) : Closed c' := by
  obtain ⟨hstatus, hstatus', hid, hexec⟩ := hf.keeps
  have hexecutions : c'.actionExecutions = c.actionExecutions := by
    obtain ⟨approvals, -, rfl⟩ := hset
    rfl
  refine ⟨fun x hx id hxid => ?_, fun a ha hcons => ?_, fun a ha hcons => ?_⟩
  · rw [hexecutions] at hx
    obtain ⟨a, ha, haid, hcons⟩ := h.executed x hx id hxid
    refine ⟨a, (mem_of_setApproval hset hap).mpr (Or.inr ⟨ha, fun he => hstatus ?_⟩), haid, hcons⟩
    rw [← OwnerApproval.eq_of_id ha hap he, hcons]
  · rcases (mem_of_setApproval hset hap).mp ha with rfl | ⟨ha, -⟩
    · exact absurd hcons hstatus'
    · rw [executionsOf_congr hexecutions]
      exact h.consumed a ha hcons
  · rcases (mem_of_setApproval hset hap).mp ha with rfl | ⟨ha, -⟩
    · rw [hexec]
      exact h.unconsumed ap hap hstatus
    · exact h.unconsumed a ha hcons

theorem Closed.executionsOf_approved (h : Closed c) (hap : ap ∈ c.ownerApprovals.rows)
    (hstatus : ap.status ≠ .consumed) : executionsOf c ap.id = [] := by
  refine List.filter_eq_nil_iff.mpr fun x hx hid => hstatus ?_
  obtain ⟨a, ha, haid, hcons⟩ := h.executed x hx ap.id (of_decide_eq_true hid)
  rw [← OwnerApproval.eq_of_id ha hap haid, hcons]

/-- The executions of the approvals once one of them has been executed. -/
theorem Closed.executionsOf_executes (h : Closed c) (hap : ap ∈ c.ownerApprovals.rows)
    (hstatus : ap.status = .approved) (hr : RecordsApproved c c₁ ap x later) :
    executionsOf c₁ a.id = if a.id = ap.id then [x] else executionsOf c a.id := by
  obtain ⟨hxid, -, executions, hins, rfl⟩ := hr
  rw [executionsOf_insert hins, hxid]
  by_cases hid : a.id = ap.id
  · rw [hid, h.executionsOf_approved hap (by rw [hstatus]; decide)]
    simp
  · rw [if_neg hid, if_neg (fun he => hid (Option.some.inj he).symm), List.append_nil]

theorem Closed.executes (h : Closed c) (hap : ap ∈ c.ownerApprovals.rows)
    (hstatus : ap.status = .approved) (hr : RecordsApproved c c₁ ap x later)
    (hset : SetApproval c₁ c' ap (.consumeWith now x.id)) : Closed c' := by
  have hexec := fun {a} => h.executionsOf_executes (a := a) hap hstatus hr
  obtain ⟨hxid, -, executions, hins, rfl⟩ := hr
  have hexecutions : c'.actionExecutions = executions := by
    obtain ⟨approvals, -, rfl⟩ := hset
    rfl
  have hsame := fun id => executionsOf_congr (c := { c with actionExecutions := executions })
    hexecutions id
  refine ⟨fun y hy id hyid => ?_, fun a ha hcons => ?_, fun a ha hcons => ?_⟩
  · rw [hexecutions] at hy
    rcases (Table.mem_of_insert? hins).mp hy with hy | rfl
    · obtain ⟨a, ha, haid, hcons⟩ := h.executed y hy id hyid
      refine ⟨a, (mem_of_setApproval hset hap).mpr (Or.inr ⟨ha, fun he => ?_⟩), haid, hcons⟩
      rw [← OwnerApproval.eq_of_id ha hap he, hcons] at hstatus
      exact ApprovalStatus.noConfusion hstatus
    · rw [hxid] at hyid
      exact ⟨_, (mem_of_setApproval hset hap).mpr (Or.inl rfl), Option.some.inj hyid, rfl⟩
  · rcases (mem_of_setApproval hset hap).mp ha with rfl | ⟨ha, hid⟩
    · exact ⟨x, by rw [hsame]; exact hexec.trans (if_pos rfl), rfl⟩
    · rw [hsame, hexec, if_neg hid]
      exact h.consumed a ha hcons
  · rcases (mem_of_setApproval hset hap).mp ha with rfl | ⟨ha, -⟩
    · exact absurd rfl hcons
    · exact h.unconsumed a ha hcons

/-- **Every command keeps the tables fitting together.** -/
theorem ApprovalStep.closed (h : ApprovalStep stale c c') (hc : Closed c) : Closed c' := by
  cases h with
  | same happrovals hexecutions => exact hc.congr happrovals hexecutions
  | records h => exact hc.records h
  | parks h => exact hc.parks h
  | decides ap f c₁ hap hset hf hkeeps => exact (hc.decides hap hset hf).congr hkeeps.1 hkeeps.2
  | executes ap x now later c₁ c₂ hap hstatus hrecords hset hkeeps hlater =>
    exact (hc.executes hap hstatus hrecords hset).congr hkeeps.1 hkeeps.2

/-! #### The closure columns stay settled -/

theorem Settled.congr (h : Settled c) (happrovals : c'.ownerApprovals = c.ownerApprovals)
    (hexecutions : c'.actionExecutions = c.actionExecutions) : Settled c' := by
  intro a ha
  rw [happrovals] at ha
  rw [recomputed_congr hexecutions]
  exact h a ha

theorem Settled.records (h : Settled c) (hr : RecordsExecution c c') : Settled c' := by
  obtain ⟨x, executions, hx, hins, rfl⟩ := hr
  intro a ha
  rw [← h a ha]
  simp only [recomputed, executionsOf_insert hins, hx, reduceCtorEq, if_false, List.append_nil]

theorem Settled.parks (h : Settled c) (hp : ParksTask c c') : Settled c' := by
  obtain ⟨t, -, -, id, action, scope, role, created, expires, approvals, hins, tasks, -, rfl⟩ := hp
  intro a ha
  rcases (Table.mem_of_insert? hins).mp ha with ha | rfl
  · exact h a ha
  · rfl

theorem closureOf_pending (hstatus : ap.status = .pending)
    (hap : recomputed c ap = some (closureOf ap)) :
    closureOf ap = ⟨⟨ap.taskId.text, ap.action, ap.scope⟩, none, none, none, none⟩ := by
  rw [recomputed, hstatus] at hap
  exact (Option.some.inj hap).symm

/-- Deciding a settled approval settles it again, unless an approved one expires. -/
theorem Decides.settled {ap' : OwnerApproval} (h : Decides stale ap ap') (hstale : ¬stale)
    (hap : recomputed c ap = some (closureOf ap)) : recomputed c ap' = some (closureOf ap') := by
  cases h with
  | approve now h | reject now h | expire h =>
    have hclosure := closureOf_pending h hap
    simp only [closureOf, Closure.mk.injEq] at hclosure
    simp [recomputed, closureOf, OwnerApproval.approve, OwnerApproval.reject,
      OwnerApproval.expire, hclosure]
  | expireApproved h hs => exact absurd hs hstale

theorem Settled.decides (h : Settled c) (hstale : ¬stale) {f : OwnerApproval → OwnerApproval}
    (hap : ap ∈ c.ownerApprovals.rows) (hset : SetApproval c c' ap f)
    (hf : Decides stale ap (f ap)) : Settled c' := by
  have hexecutions : c'.actionExecutions = c.actionExecutions := by
    obtain ⟨approvals, -, rfl⟩ := hset
    rfl
  intro a ha
  rw [recomputed_congr hexecutions]
  rcases (mem_of_setApproval hset hap).mp ha with rfl | ⟨ha, -⟩
  · exact hf.settled hstale (h ap hap)
  · exact h a ha

theorem Settled.executes (h : Settled c) (hc : Closed c) (hap : ap ∈ c.ownerApprovals.rows)
    (hstatus : ap.status = .approved) (hr : RecordsApproved c c₁ ap x now)
    (hset : SetApproval c₁ c' ap (.consumeWith now x.id)) : Settled c' := by
  have hexec := fun {a} => hc.executionsOf_executes (a := a) hap hstatus hr
  obtain ⟨hxid, hxat, executions, hins, rfl⟩ := hr
  have hexecutions : c'.actionExecutions = executions := by
    obtain ⟨approvals, -, rfl⟩ := hset
    rfl
  intro a ha
  rw [recomputed_congr (c := { c with actionExecutions := executions }) hexecutions]
  rcases (mem_of_setApproval hset hap).mp ha with rfl | ⟨ha, hid⟩
  · have hsettled := h ap hap
    have hone : executionsOf { c with actionExecutions := executions } ap.id = [x] :=
      hexec.trans (if_pos rfl)
    simp only [recomputed, hstatus, closureOf, Option.some.injEq, Closure.mk.injEq] at hsettled
    simp [recomputed, closureOf, OwnerApproval.consumeWith, hone, hxat, hsettled]
  · rw [← h a ha]
    simp only [recomputed, hexec, if_neg hid]

/-- **A command that does not leave stale columns keeps them settled.** -/
theorem ApprovalStep.settled (h : ApprovalStep stale c c') (hstale : ¬stale) (hc : Closed c)
    (hs : Settled c) : Settled c' := by
  cases h with
  | same happrovals hexecutions => exact hs.congr happrovals hexecutions
  | records h => exact hs.records h
  | parks h => exact hs.parks h
  | decides ap f c₁ hap hset hf hkeeps =>
    exact (hs.decides hstale hap hset hf).congr hkeeps.1 hkeeps.2
  | executes ap x now later c₁ c₂ hap hstatus hrecords hset hkeeps hlater =>
    obtain rfl := hlater.resolve_right hstale
    exact (hs.executes hc hap hstatus hrecords hset).congr hkeeps.1 hkeeps.2

end Steps

/-! ### Runs -/

def approvalTables (w : World) :
    Table OwnerApproval OwnerApproval.clash × Table ActionExecution ActionExecution.clash :=
  (w.db.core.ownerApprovals, w.db.core.actionExecutions)

instance : OfCore approvalTables := ⟨fun w w' h => by rw [approvalTables, h, approvalTables]⟩

instance : Tables.tasks.Apart approvalTables := ⟨fun _ _ => rfl⟩
instance : Tables.findings.Apart approvalTables := ⟨fun _ _ => rfl⟩
instance : Tables.decisions.Apart approvalTables := ⟨fun _ _ => rfl⟩
instance : Tables.agentDispatches.Apart approvalTables := ⟨fun _ _ => rfl⟩

/-- The owner's call, which is no replay, names an approved approval and its binding. -/
def NamesApproved (w : World) (command approvalId source taskId action scope : String)
    (key : Option String) (p : OwnerApproval → Prop) : Prop :=
  source = ownerSource ∧ recorded w.db key command = none ∧
  ∃ ap ∈ w.db.getApproval approvalId, ap.status = .approved ∧ Names ap taskId action scope ∧ p ap

instance (w : World) (command approvalId source taskId action scope : String)
    (key : Option String) (p : OwnerApproval → Prop) [DecidablePred p] :
    Decidable (NamesApproved w command approvalId source taskId action scope key p) := by
  unfold NamesApproved
  infer_instance

/-- The command leaves stale closure columns behind: it is a rejection or an execution of an
approved approval that has expired, or an execution between two different readings of the
clock. -/
def LeavesStale (w : World) : Command → Prop
  | .reject approvalId source taskId action scope key =>
    NamesApproved w "reject" approvalId source taskId action scope key
      fun ap => ap.expiresAt ≤ w.clock w.reads
  | .executeApproved approvalId source taskId action scope key =>
    NamesApproved w "execute_approved" approvalId source taskId action scope key
      fun ap => ap.expiresAt ≤ w.clock w.reads ∨ w.clock (w.reads + 1) ≠ w.clock w.reads
  | _ => False

instance (w : World) : (c : Command) → Decidable (LeavesStale w c)
  | .reject .. | .executeApproved .. => inferInstanceAs (Decidable (NamesApproved ..))
  | .createProject .. | .createTask .. | .transition .. | .resume .. | .startRole ..
  | .completeRole .. | .failRole .. | .startTaskRun .. | .completeTaskRun .. | .failTaskRun ..
  | .requestAction .. | .approve .. | .addFinding .. | .resolveFinding .. | .recordTestRun ..
  | .recordReview .. | .recordDecision .. | .createDispatch .. | .bindSpawnResult ..
  | .receiveAgentResult .. | .markAgentFailed .. | .recover .. => instDecidableFalse

theorem approvalStep_of_approvalTables {w w' : World} {stale : Prop}
    (h : approvalTables w = approvalTables w') : ApprovalStep stale w.db.core w'.db.core :=
  .same (congrArg Prod.fst h).symm (congrArg Prod.snd h).symm

theorem approvalStep_of_expires {c c' : CoreDb} {ap : OwnerApproval} {stale : Prop}
    (hap : ap ∈ c.ownerApprovals.rows) (h : Expires c c' ap) (hf : Decides stale ap ap.expire) :
    ApprovalStep stale c c' := by
  obtain ⟨c₁, hset, hrelease⟩ := h
  exact .decides ap _ c₁ hap hset hf hrelease.keeps

/-- **What a command makes of the approvals.** -/
theorem approvalStep_step (cfg : Config) (w : World) (c : Command) :
    ApprovalStep (LeavesStale w c) w.db.core (step cfg w c).db.core := by
  generalize hc : (step cfg w c).db.core = c'
  cases c with
  | requestAction taskId action scope actorRole source key =>
    rcases requestAction_core hc with rfl | h | h
    · exact .same rfl rfl
    · exact .records h
    · exact .parks h
  | approve approvalId source taskId action scope key =>
    rcases approve_core hc with rfl | ⟨ap, hap, hstatus, hset | hexp⟩
    · exact .same rfl rfl
    · exact .decides ap _ c' hap hset (.approve _ hstatus) ⟨rfl, rfl⟩
    · exact approvalStep_of_expires hap hexp (.expire hstatus)
  | reject approvalId source taskId action scope key =>
    rcases reject_core hc with rfl | ⟨hsource, hrec, ap, hfound, hcases⟩
    · exact .same rfl rfl
    have hap := (Db.getApproval_eq_some.mp hfound).1
    rcases hcases with ⟨hstatus, c₁, hset, hrelease⟩ |
      ⟨hexp, hnames, ⟨hlive, hexpires⟩ | ⟨-, hrelease⟩⟩
    · exact .decides ap _ c₁ hap hset (.reject _ hstatus) hrelease.keeps
    · refine approvalStep_of_expires hap hexpires ?_
      cases hstatus : ap.status with
      | pending => exact .expire hstatus
      | approved =>
        exact .expireApproved hstatus ⟨hsource, hrec, ap, hfound, hstatus, hnames, hexp⟩
      | rejected | consumed | expired =>
        rw [hstatus] at hlive
        exact Bool.noConfusion hlive
    · exact .same hrelease.keeps.1 hrelease.keeps.2
  | executeApproved approvalId source taskId action scope key =>
    rcases executeApproved_core hc with rfl | ⟨hsource, hrec, ap, hfound, hstatus, hnames, hcases⟩
    · exact .same rfl rfl
    have hap := (Db.getApproval_eq_some.mp hfound).1
    rcases hcases with ⟨-, x, c₁, c₂, hrecords, hset, hrelease⟩ | ⟨hexp, hexpires⟩
    · refine .executes ap x _ _ c₁ c₂ hap hstatus hrecords hset hrelease.keeps ?_
      by_cases hclock : w.clock (w.reads + 1) = w.clock w.reads
      · exact Or.inl hclock
      · exact Or.inr ⟨hsource, hrec, ap, hfound, hstatus, hnames, Or.inr hclock⟩
    · exact approvalStep_of_expires hap hexpires
        (.expireApproved hstatus ⟨hsource, hrec, ap, hfound, hstatus, hnames, Or.inl hexp⟩)
  | _ => exact hc ▸ approvalStep_of_approvalTables (Moves.moves (R := Eq) w)

theorem Closed.empty : Closed Db.empty.core := by
  constructor <;> simp [Db.empty]

theorem Settled.empty : Settled Db.empty.core := by
  simp [Settled, Db.empty]

/-- **Restarting changes no approval**, as long as no command leaves stale closure columns
behind: whatever run of the core leads from an empty database to a state, opening the store
in that state leaves every column of every approval as it is. -/
theorem reopening_keeps_approvals (cfg : Config) {w : World} {cs : List Command} (hw : Fresh w)
    (hok : Along cfg (fun w c => ¬LeavesStale w c) w cs) (w' : World)
    (hr : createSchema.Returns (run cfg w cs) () w') :
    w'.db.core.ownerApprovals.rows = (run cfg w cs).db.core.ownerApprovals.rows := by
  have hinv : Closed (run cfg w cs).db.core ∧ Settled (run cfg w cs).db.core := by
    refine Runs.run_inv (I := fun w => Closed w.db.core ∧ Settled w.db.core)
      (fun w c hI hc => ?_) ?_ hok
    · have hstep := approvalStep_step cfg w c
      exact ⟨hstep.closed hI.1, hstep.settled hc hI.1 hI.2⟩
    · rw [show w.db = Db.empty from hw]
      exact ⟨Closed.empty, Settled.empty⟩
  rw [createSchema_settled hinv.2 hr]

/-! ### The life of an approval -/

inductive LifeStep (a : OwnerApproval) : OwnerApproval → Prop
  | approve (now : Time) (h : a.status = .pending) : LifeStep a (a.approve now)
  | reject (now : Time) (h : a.status = .pending) : LifeStep a (a.reject now)
  | expire (h : a.status.live) : LifeStep a a.expire
  | consume (now : Time) (x : Uuid) (h : a.status = .approved) : LifeStep a (a.consumeWith now x)

section Lives

variable {stale : Prop} {c c' c₁ : CoreDb} {ap a a' : OwnerApproval}

theorem Decides.lives (h : Decides stale a a') : LifeStep a a' := by
  cases h with
  | approve now h => exact .approve now h
  | reject now h => exact .reject now h
  | expire h | expireApproved h => exact .expire (by rw [h]; rfl)

theorem lives_of_setApproval {f : OwnerApproval → OwnerApproval} (hset : SetApproval c c₁ ap f)
    (hap : ap ∈ c.ownerApprovals.rows) (hf : LifeStep ap (f ap)) (ha : a ∈ c.ownerApprovals.rows) :
    ∃ a' ∈ c₁.ownerApprovals.rows, a' = a ∨ LifeStep a a' := by
  by_cases hid : a.id = ap.id
  · obtain rfl := OwnerApproval.eq_of_id ha hap hid
    exact ⟨f a, (mem_of_setApproval hset hap).mpr (.inl rfl), .inr hf⟩
  · exact ⟨a, (mem_of_setApproval hset hap).mpr (.inr ⟨ha, hid⟩), .inl rfl⟩

/-- A command leaves an approval as it is, or takes it one step further. -/
theorem ApprovalStep.lives (h : ApprovalStep stale c c') (ha : a ∈ c.ownerApprovals.rows) :
    ∃ a' ∈ c'.ownerApprovals.rows, a' = a ∨ LifeStep a a' := by
  cases h with
  | same happrovals => exact ⟨a, happrovals ▸ ha, .inl rfl⟩
  | records h =>
    obtain ⟨x, executions, -, -, rfl⟩ := h
    exact ⟨a, ha, .inl rfl⟩
  | parks h =>
    obtain ⟨_, -, -, _, _, _, _, _, _, approvals, hins, _, -, rfl⟩ := h
    refine ⟨a, ?_, .inl rfl⟩
    simp only [(Table.insert?_eq_some.mp hins).2]
    exact List.mem_append_left _ ha
  | decides ap f c₁ hap hset hf hkeeps =>
    rw [hkeeps.1]
    exact lives_of_setApproval hset hap hf.lives ha
  | executes ap x now later c₁ c₂ hap hstatus hrecords hset hkeeps =>
    obtain ⟨-, -, executions, -, rfl⟩ := hrecords
    rw [hkeeps.1]
    exact lives_of_setApproval hset hap (.consume now x.id hstatus) ha

end Lives

/-- **An approval lives by its life cycle**, whatever commands follow and however they end: a
pending one is approved, rejected or expires, an approved one is consumed or expires, and one
that is rejected, consumed or expired stays as it is. -/
theorem approvals_live (cfg : Config) (w : World) (cs : List Command) :
    (∀ a ∈ w.db.core.ownerApprovals.rows, ∃ a' ∈ (run cfg w cs).db.core.ownerApprovals.rows,
      Relation.ReflTransGen LifeStep a a') ∧
    ∀ a ∈ w.db.core.ownerApprovals.rows, a.status.live = false →
      a ∈ (run cfg w cs).db.core.ownerApprovals.rows := by
  have hlives : ∀ a ∈ w.db.core.ownerApprovals.rows,
      ∃ a' ∈ (run cfg w cs).db.core.ownerApprovals.rows, Relation.ReflTransGen LifeStep a a' := by
    intro a ha
    refine Runs.run_always (I := fun w' : World => ∃ a' ∈ w'.db.core.ownerApprovals.rows,
      Relation.ReflTransGen LifeStep a a') ?_ ⟨a, ha, .refl⟩
    rintro w' c ⟨a', ha', hpath⟩
    obtain ⟨a'', ha'', rfl | hstep⟩ := (approvalStep_step cfg w' c).lives ha'
    · exact ⟨a'', ha'', hpath⟩
    · exact ⟨a'', ha'', hpath.tail hstep⟩
  refine ⟨hlives, fun a ha hended => ?_⟩
  obtain ⟨a', ha', hpath⟩ := hlives a ha
  rcases hpath.cases_head with rfl | ⟨b, hstep, -⟩
  · exact ha'
  · cases hstep <;> simp_all [ApprovalStatus.live]

/-! ### A run whose history a restart erases -/

def givenApproval : List Command := leadAtWork ++ [askForDeploy, forDeploy .approve 5]

/-- **A restart may rewrite an approval** without the condition on the steps: an approval
that was given and has expired loses the time it was given at. -/
theorem reopening_rewrites_approval :
    ¬∀ (cfg : Config) (w : World) (cs : List Command), Fresh w →
      ∀ w', createSchema.Returns (run cfg w cs) () w' →
        w'.db.core.ownerApprovals.rows = (run cfg w cs).db.core.ownerApprovals.rows :=
  fun h => absurd (h .lenient (idle 12) (givenApproval ++ [forDeploy .reject 5]) rfl _
    (returns_of_fst (by decide +kernel))) (by decide +kernel)

/-- The same run, with the approval used while the clock stands still. -/
theorem reopening_keeps_approvals_used :
    (createSchema (run .lenient (idle 16)
        (givenApproval ++ [forDeploy .executeApproved 5]))).2.db.core.ownerApprovals.rows =
      (run .lenient (idle 16)
        (givenApproval ++ [forDeploy .executeApproved 5])).db.core.ownerApprovals.rows :=
  reopening_keeps_approvals .lenient (w := idle 16) rfl (by decide) _
    (returns_of_fst (by decide +kernel))

end Core

end ArgentTeam
