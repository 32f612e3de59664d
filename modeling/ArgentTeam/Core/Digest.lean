import ArgentTeam.Core.Ledger

/-!
# What the digest of a command tells

A command that is repeated under its key is recognised by the digest of its arguments. The
digest is taken of a dictionary that every command builds for itself, and `plain_of_digest`
says that none leaves an argument out: two calls of one command with the same digest are the
same call, but for the key, the routing decision, of which the id stands for the whole, and
the decoded form of a detail, of which the text does.
-/

namespace ArgentTeam

namespace Core

theorem riskValue_injective : Function.Injective riskValue := by
  intro a b h
  cases a <;> cases b <;> first | rfl | exact absurd h (by decide)

theorem policyValue_injective : Function.Injective policyValue := by
  intro a b h
  cases a <;> cases b <;> first | rfl | exact absurd h (by decide)

/-- A choice is known from the digest of its argument. -/
theorem sorted_choice_injective : Function.Injective
    fun choice : Option ModelChoice => (choice.elim .null ModelChoice.toJson).sorted := by
  rintro (_ | ⟨p, m, t⟩) (_ | ⟨p', m', t'⟩) h
  · rfl
  · exact Json.noConfusion h
  · exact Json.noConfusion h
  · have hnodup : ((ModelChoice.mk p m t).toJson.entries.map Prod.fst).Nodup := by
      simp [ModelChoice.toJson, Json.dict, Json.entries]
    have hvalues := Json.values_of_sorted (b := (ModelChoice.mk p' m' t').toJson) h rfl hnodup
    simp only [ModelChoice.toJson, Json.dict, Json.entries, Option.elim_some, List.map_cons,
      List.map_nil, Json.sorted_optText, List.cons.injEq, Json.optText_injective.eq_iff,
      and_true] at hvalues
    obtain ⟨rfl, rfl, rfl⟩ := hvalues
    rfl

/-- A routing decision of which only the id is known. -/
def RoutingRecord.ofId (id : String) : RoutingRecord :=
  ⟨id, "", none, none, none, 0, "", "", "", [], "", none, none, none, none, none, none⟩

/-- A detail of which only the text is known. -/
def detailOf (text : String) : String × JsonText := (text, none)

/-- A command without its key, with what the digest of its arguments tells: of a routing
decision its id, of a JSON document its value. -/
def Command.plain : Command → Command
  | .createProject name source _ => .createProject name source none
  | .createTask projectId title source _ description risk policy =>
    .createTask projectId title source none description risk policy
  | .transition taskId toState source _ => .transition taskId toState source none
  | .resume taskId source _ => .resume taskId source none
  | .startRole taskId role source _ => .startRole taskId role source none
  | .completeRole roleRunId source _ => .completeRole roleRunId source none
  | .failRole roleRunId source detail _ => .failRole roleRunId source detail none
  | .startTaskRun taskId source _ => .startTaskRun taskId source none
  | .completeTaskRun taskRunId source _ => .completeTaskRun taskRunId source none
  | .failTaskRun taskRunId source _ => .failTaskRun taskRunId source none
  | .requestAction taskId action scope actorRole source _ =>
    .requestAction taskId action scope actorRole source none
  | .approve approvalId source taskId action scope _ =>
    .approve approvalId source taskId action scope none
  | .reject approvalId source taskId action scope _ =>
    .reject approvalId source taskId action scope none
  | .executeApproved approvalId source taskId action scope _ =>
    .executeApproved approvalId source taskId action scope none
  | .addFinding taskId severity description source _ =>
    .addFinding taskId severity description source none
  | .resolveFinding findingId source _ => .resolveFinding findingId source none
  | .recordTestRun taskId result source detail _ => .recordTestRun taskId result source detail none
  | .recordReview taskId verdict source detail _ =>
    .recordReview taskId verdict source ((detail.map Prod.fst).map detailOf) none
  | .recordDecision taskId decision source detail _ =>
    .recordDecision taskId decision source ((detail.map Prod.fst).map detailOf) none
  | .createDispatch taskId taskRunId role position cycleNo kind choice source parent _ routing =>
    .createDispatch taskId taskRunId role position cycleNo kind choice source parent none
      ((routing.map RoutingRecord.decisionId).map RoutingRecord.ofId)
  | .bindSpawnResult dispatchId spawn source _ => .bindSpawnResult dispatchId spawn source none
  | .receiveAgentResult dispatchId eventMeta result source _ =>
    .receiveAgentResult dispatchId eventMeta.sorted result.sorted source none
  | .markAgentFailed dispatchId reason source _ errorClass errorCode =>
    .markAgentFailed dispatchId reason source none errorClass errorCode
  | .recover source _ => .recover source none

theorem nodup_args (c : Command) : (c.args.entries.map Prod.fst).Nodup := by
  cases c <;> simp [Command.args, requestArgs, gateArgs, Json.dict, Json.entries]

/-- **The digest leaves no argument out.** -/
theorem plain_of_digest {c c' : Command} (hname : c.name = c'.name)
    (h : c.args.sorted = c'.args.sorted) : c.plain = c'.plain := by
  cases c <;> cases c' <;> first
    | (simp [Command.name] at hname; done)
    | have hvalues := Json.values_of_sorted h rfl (nodup_args _)
      simp only [Command.args, requestArgs, gateArgs, Json.dict, Json.entries, List.map_cons,
        List.map_nil, Json.sorted_text, Json.sorted_optText, Json.sorted,
        List.cons.injEq, Json.text_inj, Json.optText_injective.eq_iff,
        riskValue_injective.eq_iff, policyValue_injective.eq_iff, Role.value_injective.eq_iff,
        TaskState.value_injective.eq_iff, TestResult.value_injective.eq_iff,
        SequenceKind.value_injective.eq_iff, sorted_choice_injective.eq_iff, and_true,
        Json.int.injEq, Int.natCast_inj] at hvalues
      simp only [Command.plain, hvalues]
  case bindSpawnResult.bindSpawnResult d spawn source key d' spawn' source' key' =>
    obtain ⟨session, run, provider, model, tier⟩ := spawn
    obtain ⟨session', run', provider', model', tier'⟩ := spawn'
    simp only at hvalues
    simp only [hvalues]

end Core

end ArgentTeam
