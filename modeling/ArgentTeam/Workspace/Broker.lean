import ArgentTeam.Lib.FileTree
import ArgentTeam.Lib.Prog
import ArgentTeam.Models

/-!
# The write broker

The broker plans all patches of a set against the files as they are, and then applies them one
after the other: it stages the new content next to the target, checks once more where the target
leads, and replaces it. Before and after each effect the writer guard may raise, and each call to
the system may fail; which of them do is said by an `Env`. What has been applied is undone when a
check of the broker's own fails, and only then.

The world keeps a record that the code does not: the paths at which a file has been created,
replaced or deleted.
-/

namespace ArgentTeam

namespace Workspace

/-! ### The world -/

/-- The content of a file. -/
abbrev Bytes := List UInt8

structure File where
  content : Bytes
  mode : ℕ
  deriving DecidableEq

/-- A place in the code where a call to the system may fail, or the writer guard may raise. -/
inductive Point
  /-- `os.lstat`, while a patch is planned. -/
  | plan
  /-- `os.lstat`, `open` or `read` in `_snapshot`. -/
  | snapshot
  /-- The guard before `_write_file` has any effect. -/
  | guardBefore
  /-- `os.open` of the staging file. -/
  | openStaging
  /-- `os.write` or `os.close`. -/
  | write
  /-- The guard before `os.replace`. -/
  | guardReplace
  /-- `os.lstat` before `os.replace`. -/
  | lstatTarget
  /-- `os.replace`. -/
  | replace
  /-- The guard after `os.replace`. -/
  | guardAfter
  /-- `os.lstat` after `os.replace`. -/
  | lstatAfter
  /-- `os.lstat` in `_delete_file`. -/
  | lstatDelete
  /-- The guard before `os.unlink`. -/
  | guardUnlink
  /-- `os.unlink`. -/
  | unlink
  /-- The guard after `os.unlink`. -/
  | guardUnlinked
  deriving DecidableEq

/-- What happens around the broker. -/
structure Env where
  entry : Bool
  fails : ℕ → Point → Bool
  staging : ℕ → String
  /-- How many bytes `os.write` writes at most, by the number of the patch: it may write less than
  it is given, and says so only by what it returns. -/
  room : ℕ → ℕ

/-- What is left to do for one patch: a plan of `_plan_patch`. -/
inductive Plan
  /-- `("write", real, content)`. -/
  | write (target : CanonPath) (content : Bytes)
  /-- `("delete", real, None)`. -/
  | delete (target : CanonPath)
  /-- `("skip", real, None)`. -/
  | skip (target : CanonPath)

def Plan.target : Plan → CanonPath
  | write target _ | delete target | skip target => target

/-- The files, and what has been done to them. -/
structure World where
  tree : FileTree File
  touched : List CanonPath := []

/-- What leaves a function of the broker. -/
inductive Stop
  /-- `BrokerError`. -/
  | broker (reason : String)
  | raised
  deriving DecidableEq

/-- A program of the broker. -/
abbrev Cmd (α : Type) := Prog World Stop α

/-! ### Patches -/

/-- The value of `op`. -/
inductive PatchOp
  | write
  | delete
  | other
  deriving DecidableEq

inductive Patch
  | malformed
  /-- A dictionary: a path that is not a text is `none`, and so is a content that is not. -/
  | dict (op : PatchOp) (path : Option PathText) (content : Option String)

structure Entry where
  op : PatchOp
  /-- `path`, where there is one. -/
  path : Option PathText
  error : Option String := none
  deriving DecidableEq

structure BrokerResult where
  applied : List Entry := []
  skipped : List Entry := []
  errors : List Entry := []
  deriving DecidableEq

/-- What the broker is constructed with: where nothing is written, and the decoders. -/
structure Broker where
  denyPaths : List CanonPath
  /-- `base64.b64decode` with `validate`, if it does not raise. -/
  b64decode : String → Option Bytes
  /-- `bytes.decode` with replacement. -/
  decodeUtf8 : Bytes → PyStr
  b64decode_empty : b64decode "" = some []
  decodeUtf8_nil : decodeUtf8 [] = []

/-- A broker that denies one directory; its decoders are only right on short texts. -/
def smallBroker : Broker where
  denyPaths := [["etc"]]
  b64decode s := if s = "" then some [] else none
  decodeUtf8 bytes := bytes.map fun b => .scalar (Char.ofNat b.toNat)
  b64decode_empty := rfl
  decodeUtf8_nil := rfl

def contentDenylist : List String :=
  ["secret", "password", "api_key", "credential", "mail_content", "mail_address",
    "email_address", "recipient"]

/-- The argument `source` of the controller. -/
def controllerSource : String := "role:lead"

namespace Broker

variable (broker : Broker) (env : Env)

/-- `_content_hit` finds a word. -/
def contentHit (content : Bytes) : Bool :=
  contentDenylist.any fun word =>
    PyStr.contains (PyStr.ofString word) (PyStr.lower (broker.decodeUtf8 content))

def isDeniedPath (real : CanonPath) : Bool := broker.denyPaths.any fun dp => Within dp real

def decodeContent (raw : Option String) : Option Bytes := raw.bind broker.b64decode

end Broker

def allowedRoot (tree : FileTree File) (scopeRoot : PathText) : Role → Option CanonPath
  | .implementer => some (tree.realpath (tree.abspath scopeRoot))
  | .qa =>
    some (tree.realpath (PathText.join (tree.realpath (tree.abspath scopeRoot)).text ["tests"]))
  | _ => none

/-- The path of a patch, as `_resolve_target` normalises it. -/
def normTarget (scopeRoot path : PathText) : PathText :=
  PathText.normpath (PathText.join scopeRoot path)

def resolveTarget (tree : FileTree File) (scopeRoot path : PathText) : Except Stop CanonPath :=
  if path.isAbs then .error (.broker "absolute_path")
  else .ok (tree.realpath (normTarget scopeRoot path))

/-- `os.path.islink`: the links on the way are followed, that at the end is not. -/
def isLink (tree : FileTree File) (path : PathText) : Bool :=
  (tree.target? (tree.realpath path.dirname ++ [path.basename])).isSome

/-- Something that is not a directory is on the way: `os.lstat` does not say that there is
nothing. -/
def blocked (tree : FileTree File) (p : CanonPath) : Bool :=
  p.inits.any fun q => q ≠ p && (tree.node q).isSome && !tree.isDir q

/-- A file with one of the two bits. -/
def File.setuid (f : File) : Bool := f.mode &&& 0o6000 ≠ 0

/-- `_check_target_type`; the flag says that `os.lstat` fails. -/
def checkTargetType (tree : FileTree File) (fails : Bool) (target : CanonPath) : Except Stop Unit :=
  if fails then .error (.broker "lstat_failed")
  else
    match tree.node target with
    | none => if blocked tree target then .error (.broker "lstat_failed") else .ok ()
    | some (.link _) => .error (.broker "symlink_target")
    | some .dir | some (.special _) => .error (.broker "special_file")
    | some (.file f) => if f.setuid then .error (.broker "setuid_setgid") else .ok ()

namespace Broker

variable (broker : Broker) (env : Env)

/-- `_plan_patch`; the reason of a `BrokerError` is the error of the entry. -/
def planPatch (tree : FileTree File) (scopeRoot : PathText) (root : CanonPath) (i : ℕ) :
    Patch → Except Stop Plan
  | .malformed => .error (.broker "malformed_patch")
  | .dict .other _ _ => .error (.broker "bad_op")
  | .dict _ none _ | .dict _ (some []) _ | .dict _ (some [""]) _ => .error (.broker "bad_path")
  | .dict op (some path) content => do
    let real ← resolveTarget tree scopeRoot path
    if broker.isDeniedPath real then .error (.broker "deny_path")
    else if ¬Within root real then .error (.broker "scope_denied")
    else if isLink tree (normTarget scopeRoot path) then .error (.broker "symlink_target")
    else if op = .write then
      match broker.decodeContent content with
      | none => .error (.broker "bad_content")
      | some bytes =>
        if broker.contentHit bytes then .error (.broker "content_denylist")
        else do
          checkTargetType tree (env.fails i .plan) real
          pure (.write real bytes)
    else if env.fails i .plan then .error .raised
    else
      match tree.node real with
      | none => if blocked tree real then .error .raised else pure (.skip real)
      | some (.file _) => pure (.delete real)
      | some _ => .error (.broker "not_regular_file")

def errorEntry (reason : String) : Patch → Entry
  | .malformed => ⟨.other, none, some reason⟩
  | .dict op path _ => ⟨op, path, some reason⟩

/-- The loop that plans the patches. -/
def planAll (tree : FileTree File) (scopeRoot : PathText) (root : CanonPath) :
    ℕ → List Patch → Except Stop (List Entry × List Plan)
  | _, [] => .ok ([], [])
  | i, patch :: patches =>
    match broker.planPatch env tree scopeRoot root i patch with
    | .error .raised => .error .raised
    | .error (.broker reason) => do
      let (errors, plans) ← planAll tree scopeRoot root (i + 1) patches
      pure (errorEntry reason patch :: errors, plans)
    | .ok plan => do
      let (errors, plans) ← planAll tree scopeRoot root (i + 1) patches
      pure (errors, plan :: plans)

end Broker

/-! ### Effects -/

/-- The place does not fail. -/
def Env.pass (env : Env) (i : ℕ) (point : Point) : Cmd Unit :=
  Prog.require (env.fails i point = false) .raised

/-- Go on as a function of the files says. -/
def liftTree {α : Type} (f : FileTree File → Except Stop α) : Cmd α := fun w => (f w.tree, w)

def putFile (p : CanonPath) (f : File) : Cmd Unit :=
  Prog.change fun w => { w with tree := w.tree.put p f, touched := p :: w.touched }

def eraseFile (p : CanonPath) : Cmd Unit :=
  Prog.change fun w => { w with tree := w.tree.erase p, touched := p :: w.touched }

/-- `os.open` with `O_CREAT` and `O_EXCL`. -/
def openStaging (env : Env) (i : ℕ) (staging : CanonPath) : Cmd Unit := do
  liftTree fun tree =>
    if (tree.node staging).isSome then .error (.broker "staging_exists")
    else if env.fails i .openStaging ∨ ¬tree.Writable staging then
      .error (.broker "staging_failed")
    else .ok ()
  putFile staging ⟨[], 0o600⟩

/-- `os.replace` of the target by the staging file. -/
def replaceFile (env : Env) (i : ℕ) (staging target : CanonPath) (content : Bytes) :
    Cmd Unit := do
  env.pass i .replace
  liftTree fun tree => if tree.Writable target then .ok () else .error .raised
  eraseFile staging
  putFile target ⟨content.take (env.room i), 0o600⟩

namespace Broker

variable (broker : Broker) (env : Env)

/-- The path leads to a place within the root. -/
def checkWithin (root path : CanonPath) : Cmd Unit :=
  liftTree fun tree =>
    if Within root (tree.realpath path.text) then .ok () else .error (.broker "scope_denied")

/-- What `_write_file` does while the staging file is there. -/
def stage (root : CanonPath) (i : ℕ) (staging target : CanonPath) (content : Bytes) :
    Cmd Unit := do
  env.pass i .write
  putFile staging ⟨content.take (env.room i), 0o600⟩
  env.pass i .guardReplace
  checkWithin root target
  liftTree fun tree =>
    if broker.isDeniedPath (tree.realpath target.text) then .error (.broker "deny_path") else .ok ()
  liftTree fun tree => checkTargetType tree (env.fails i .lstatTarget) target
  replaceFile env i staging target content

/-- `_write_file`. The staging file is a regular file of its own, and so is the target after it
has been replaced: what is checked of it then holds, if `os.lstat` does not fail. -/
def writeFile (root : CanonPath) (i : ℕ) (target : CanonPath) (content : Bytes) : Cmd Unit := do
  checkWithin root target.dropLast
  env.pass i .guardBefore
  openStaging env i (target.dropLast ++ [env.staging i])
  Prog.rescue (broker.stage env root i (target.dropLast ++ [env.staging i]) target content)
    fun stop => do
      eraseFile (target.dropLast ++ [env.staging i])
      Prog.raise stop
  env.pass i .guardAfter
  env.pass i .lstatAfter

def deleteFile (root : CanonPath) (i : ℕ) (target : CanonPath) : Cmd Unit := do
  checkWithin root target.dropLast
  checkWithin root target
  env.pass i .lstatDelete
  liftTree fun tree =>
    match tree.node target with
    | none => .error .raised
    | some (.file _) => .ok ()
    | some _ => .error (.broker "not_regular_file")
  env.pass i .guardUnlink
  env.pass i .unlink
  eraseFile target
  env.pass i .guardUnlinked

end Broker

/-! ### Applying a patch set -/

/-- `_snapshot`: what is there, or nothing where it cannot be read. -/
def snapshot (env : Env) (i : ℕ) (tree : FileTree File) (target : CanonPath) : Option File :=
  if env.fails i .snapshot then none else tree.file? target

def restore (applied : CanonPath × Option File) : Cmd Unit :=
  match applied.2 with
  | none => eraseFile applied.1
  | some f => putFile applied.1 f

/-- `_relpath`, of a path within the root. -/
def relpath (root target : CanonPath) : PathText :=
  if target = root then ["."] else target.drop root.length

namespace Broker

variable (broker : Broker) (env : Env)

def applyPlan (root : CanonPath) (i : ℕ) : Plan → Cmd Unit
  | .write target content => broker.writeFile env root i target content
  | .delete target => deleteFile env root i target
  | .skip _ => pure ()

def planEntry (root : CanonPath) (error : Option String) : Plan → Entry
  | .write target _ => ⟨.write, some (relpath root target), error⟩
  | .delete target | .skip target => ⟨.delete, some (relpath root target), error⟩

/-- The reason of a `BrokerError`, if there is one. -/
def catchBroker (m : Cmd Unit) : Cmd (Option String) :=
  Prog.rescue (do m; pure none) fun stop =>
    match stop with
    | .broker reason => pure (some reason)
    | .raised => Prog.raise .raised

/-- The loop that applies the plans; what has been applied comes with the last one first. -/
def applyAll (root : CanonPath) :
    ℕ → List (CanonPath × Option File) → BrokerResult → List Plan → Cmd BrokerResult
  | _, _, result, [] => pure result
  | i, applied, result, plan :: plans => do
    let before ← Prog.read fun w => snapshot env i w.tree plan.target
    let failed ← catchBroker (broker.applyPlan env root i plan)
    match failed, plan with
    | some reason, _ => do
      Prog.forEach restore applied
      pure { errors := [planEntry root (some reason) plan] }
    | none, .skip _ =>
      applyAll root (i + 1) applied
        { result with skipped := result.skipped ++ [planEntry root none plan] } plans
    | none, _ =>
      applyAll root (i + 1) ((plan.target, before) :: applied)
        { result with applied := result.applied ++ [planEntry root none plan] } plans

def applyPatchSet (scopeRoot : PathText) (patches : List Patch) (role : Role) (source : String) :
    Cmd BrokerResult := do
  Prog.require (source = controllerSource) .raised
  let tree ← Prog.read World.tree
  let root ← Prog.orRaise (allowedRoot tree scopeRoot role) .raised
  Prog.require (env.entry = false) .raised
  let (errors, plans) ← liftTree fun tree => broker.planAll env tree scopeRoot root 0 patches
  if errors ≠ [] then pure { errors := errors }
  else broker.applyAll env root 0 [] {} plans

end Broker

end Workspace

end ArgentTeam
