import ArgentTeam.Models

/-!
# Policies

The fixed policies a command consults before it touches the store: who may speak
(`trust.py`), what a role may write (`roles.py`), which class an action falls in
(`gates.py`) and which model a role runs on (`routing.py`). All of them are closed
tables that fail closed on what they do not list.
-/

namespace ArgentTeam

/-! ### Trust -/

def ownerSource : String := "owner:authenticated"

def roleSource (role : Role) : String := "role:" ++ role.value

def Role.all : List Role := [.lead, .analyst, .implementer, .qa, .reviewer]

/-- A source is trusted if it is the owner or a known role. -/
def isTrusted (source : String) : Bool :=
  source = ownerSource || Role.all.any fun r => source = roleSource r

/-! ### Permissions -/

def permissions : Role → ArtifactCategory → Permission
  | .lead, .other => .write
  | .lead, _ => .read
  | .analyst, .other => .write
  | .analyst, _ => .read
  | .implementer, _ => .write
  | .qa, .productCode => .read
  | .qa, _ => .write
  | .reviewer, _ => .read

/-- Whether the role has the access the mode asks for; reading is open to all. -/
def hasPermission (role : Role) (category : ArtifactCategory) : Permission → Bool
  | .write => permissions role category = .write
  | .read => true

def permissionDenied (role : Role) (category : ArtifactCategory) : Permission → Error
  | .write => .error .permissionDenied "role %r may not write %s" [role.value, category.value]
  | .read => .error .permissionDenied "role %r may not read %s" [role.value, category.value]

def defaultNextRole : Role → Role
  | .lead => .analyst
  | .analyst => .implementer
  | .implementer => .qa
  | .qa => .reviewer
  | .reviewer => .lead

/-! ### Gates -/

/-- Actions a role may take on its own. -/
def autonomousActions : List String :=
  ["analyze", "implement", "run_tests", "review", "rework", "create_local_artifact",
    "git_local_commit", "create_handoff"]

def ownerApprovalActions : List String :=
  ["deploy_production", "change_secrets", "expose_gateway", "modify_allowlist",
    "promote_stable", "modify_policy", "external_send", "install_software",
    "raise_privileges", "enable_self_improvement", "production_write"]

/-- Actions with an effect outside. -/
def externalActions : List String :=
  ["install_software", "download_dependency", "system_install", "network_fetch",
    "external_send", "deploy_production", "change_secrets", "expose_gateway",
    "modify_allowlist", "promote_stable", "modify_policy", "raise_privileges",
    "enable_self_improvement", "production_write"]

/-- What an autonomous action needs; asked of autonomous actions only. -/
def permissionFor (action : String) : ArtifactCategory × Permission :=
  if action = "implement" ∨ action = "rework" ∨ action = "git_local_commit" then
    (.productCode, .write)
  else if action = "run_tests" then (.testCode, .write)
  else if action = "review" then (.productCode, .read)
  else (.other, .write)

/-- Classify an action; what is not listed is forbidden. -/
def classifyAction (action : String) (policy : ExternalActionsPolicy) : ActionClass :=
  if policy = .forbidden ∧ action ∈ externalActions then .forbidden
  else if action ∈ autonomousActions then .autonomous
  else if action ∈ ownerApprovalActions then .ownerApprovalRequired
  else if action ∈ externalActions then .ownerApprovalRequired
  else .forbidden

/-! ### Model routing -/

/-- The canonical provider, model and thinking tier of a role. -/
def canonicalModel : Role → String × String × String
  | .lead | .reviewer => ("openai", "gpt-5.6-sol", "high")
  | .analyst | .implementer | .qa => ("deepseek", "deepseek-v4-pro", "medium")

/-- Resolve the model of a role: implementer and qa run on the cheap model at low
risk. -/
def resolveModel (role : Role) (risk : RiskClass) : String × String × String :=
  let (provider, model, thinking) := canonicalModel role
  if (role = .implementer ∨ role = .qa) ∧ risk = .low then
    (provider, "deepseek-v4-flash", thinking)
  else (provider, model, thinking)

/-- Whether the role policy allows a model choice; the thinking tier matters for lead
and reviewer only. -/
def validateModelChoice (role : Role) (provider model thinking : Option String)
    (risk : RiskClass) : Bool :=
  match role with
  | .lead | .reviewer =>
    provider = some "openai" && model = some "gpt-5.6-sol" && thinking = some "high"
  | .analyst => provider = some "deepseek" && model = some "deepseek-v4-pro"
  | .implementer | .qa =>
    provider = some "deepseek" &&
      (model = some "deepseek-v4-pro" || model = some "deepseek-v4-flash" && risk = .low)

end ArgentTeam
