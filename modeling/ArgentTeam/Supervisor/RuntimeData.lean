import ArgentTeam.Lib.Except
import ArgentTeam.Retrieval.Engine
import ArgentTeam.Supervisor.Trajectory

/-!
# Runtime data that crashes the supervisor

Two files of an agent's run are read, its trajectory and the session that the trajectory names, and
nothing in them is trusted: a line that cannot be decoded, a field of another shape, a time that is
no time are each met where they are read, and a guard around it all turns what is still raised into
a conflict.

The guard lists four exceptions. Two that data can cause are not among them: a value that is nested
too deeply for the decoder, wherever a text is decoded, and a time stamp that is too large an
integer for a float. `guardedObserve_iff` says where in the two files they do harm.
-/

namespace ArgentTeam

namespace Supervisor

/-! ### What is raised -/

inductive DecodeError
  /-- `json.JSONDecodeError`. -/
  | jsonDecode
  /-- Another `ValueError`, such as that of an integer with too many digits. -/
  | value
  /-- `UnicodeDecodeError`. -/
  | unicodeDecode
  /-- `RecursionError`. -/
  | recursion
  deriving DecidableEq

/-- The exceptions that the reading of runtime data ends with. -/
inductive Raised
  | decode (e : DecodeError)
  /-- `OverflowError`. -/
  | overflow

/-- `except (TypeError, AttributeError, ValueError, KeyError)`: the first three exceptions of a
decoder are of the class `ValueError`. -/
def Raised.caught : Raised → Bool
  | decode .jsonDecode | decode .value | decode .unicodeDecode => true
  | decode .recursion | overflow => false

/-- `type(exc).__name__`. -/
def Raised.name : Raised → String
  | decode .jsonDecode => "JSONDecodeError"
  | decode .value => "ValueError"
  | decode .unicodeDecode => "UnicodeDecodeError"
  | decode .recursion => "RecursionError"
  | overflow => "OverflowError"

/-! ### What is read -/

/-- What the reading of a file as text ends with. -/
inductive FileText
  /-- `OSError`. -/
  | ioError
  /-- `UnicodeDecodeError`. -/
  | undecodable
  | text (raw : Retrieval.Text)

/-- What the path of a session file leads to. -/
inductive SessionFile
  /-- Nothing that can be used: the path cannot be resolved, leads out of the directory of the
  sessions, or leads to no file. -/
  | unusable
  /-- The path is none, and `ValueError` is raised: it has a null character, or no encoding. -/
  | badPath
  | file (text : FileText)

/-- The files of the runtime, as one observation sees them. -/
structure RuntimeFiles where
  sessionDir : Bool
  trajectory : Option FileText
  active : Bool
  sessionFile : PyStr → SessionFile

/-- What the library of the language makes of texts and of numbers. -/
structure Decoders where
  loads : PyStr → Except DecodeError Json
  /-- `_sha256(_canonical_json(..))`; `none` where the encoder raises `RecursionError`. -/
  canonicalHash : Json → Option Json
  /-- `_parse_iso`; `none` where it raises `ValueError`. -/
  parseIso : PyStr → Option PyFloat
  /-- `float`, of an integer that is not too large. -/
  round : ℤ → PyFloat
  /-- `float`, of a text; `none` where it raises `ValueError`. -/
  parseFloat : PyStr → Option PyFloat
  /-- The division by `1000.0`. -/
  milli : PyFloat → PyFloat

/-- `<`, of floats. -/
def PyFloat.lt : PyFloat → PyFloat → Bool
  | .nan, _ | _, .nan => false
  | .finite a _, .finite b _ => a < b
  | .inf negative, .finite _ _ => negative
  | .finite _ _, .inf negative => !negative
  | .inf negative, .inf negative' => negative && !negative'

/-- `str.splitlines`, of a text that has been read. -/
def linesOf (raw : Retrieval.Text) : List PyStr :=
  (Retrieval.splitlines [] raw).map fun line => line.map PyChar.scalar

/-! ### The session -/

/-- What the scan for the end of an object knows. -/
structure Scan where
  depth : ℕ := 0
  inStr : Bool := false
  esc : Bool := false

def Scan.step (s : Scan) (ch : PyChar) : Scan :=
  if s.inStr then
    if s.esc then { s with esc := false }
    else if ch = .scalar '\\' then { s with esc := true }
    else if ch = .scalar '"' then { s with inStr := false }
    else s
  else if ch = .scalar '"' then { s with inStr := true }
  else if ch = .scalar '{' then { s with depth := s.depth + 1 }
  else if ch = .scalar '}' then { s with depth := s.depth - 1 }
  else s

/-- The scan, with what it has gone over; `none` at the end of the text. -/
def Scan.object (s : Scan) (read : PyStr) : PyStr → Option PyStr
  | [] => none
  | ch :: text =>
    if s.inStr = false ∧ ch = .scalar '}' ∧ (s.step ch).depth = 0 then some (read ++ [ch])
    else (s.step ch).object (read ++ [ch]) text

/-- `extract_balanced_json`: the text of the first object; `none` where it raises `ValueError`. -/
def balancedObject (text : PyStr) : Option PyStr :=
  Scan.object {} [] (text.dropWhile (· ≠ .scalar '{'))

def assistantText (msg : Row) : Option PyStr :=
  match Json.getD msg "content" .null with
  | .str s => some s
  | .arr blocks =>
    let parts := blocks.filterMap fun b =>
      match b with
      | .obj block =>
        if Json.getD block "type" .null = .text "text" then
          match Json.getD block "text" .null with
          | .str s => some s
          | _ => none
        else none
      | _ => none
    if parts = [] then none else some ([PyChar.scalar '\n'].intercalate parts)
  | _ => none

/-- The message of a decoded line, if it is one of the assistant. -/
def assistantMessage : Json → Option Row
  | .obj row =>
    if Json.getD row "type" .null ≠ .text "message" then none
    else
      match Json.getD row "message" .null with
      | .obj msg => if Json.getD msg "role" .null ≠ .text "assistant" then none else some msg
      | _ => none
  | _ => none

/-- An integer that rounds to no float. -/
def TooLarge (n : ℤ) : Prop := 2 ^ 1024 - 2 ^ 970 ≤ n.natAbs

instance (n : ℤ) : Decidable (TooLarge n) :=
  inferInstanceAs (Decidable (2 ^ 1024 - 2 ^ 970 ≤ n.natAbs))

/-- The times between which the messages of a run are. -/
structure Window where
  start : Option PyFloat
  finish : Option PyFloat

/-- Whether a message of a time is of the run; where a time is not known it is. -/
def Window.holds (w : Window) (ts : Option PyFloat) : Bool :=
  ts.all fun t => w.start.all (fun s => !PyFloat.lt t s) && w.finish.all fun e => !PyFloat.lt e t

namespace Decoders

variable (io : Decoders)

def safeParseIso : Json → Option PyFloat
  | .str s => io.parseIso s
  | _ => none

def safeMsToSeconds : Json → Except Raised (Option PyFloat)
  | .int n => if TooLarge n then .error .overflow else .ok (some (io.milli (io.round n)))
  | .float x => .ok (some (io.milli x))
  | .str s => .ok ((io.parseFloat s).map io.milli)
  | .null | .bool _ | .arr _ | .obj _ => .ok none

/-- What one line of a session adds to the texts of the assistant. -/
def lineText (w : Window) (line : PyStr) : Except Raised (Option PyStr) :=
  if line.strip = [] then .ok none
  else
    match io.loads line with
    | .error .jsonDecode => .ok none
    | .error e => .error (.decode e)
    | .ok value =>
      match assistantMessage value with
      | none => .ok none
      | some msg => do
        let ts ← io.safeMsToSeconds (Json.getD msg "timestamp" .null)
        pure (if w.holds ts then assistantText msg else none)

def assistantTexts (w : Window) : List PyStr → Except Raised (List PyStr)
  | [] => .ok []
  | line :: lines => do
    let text ← io.lineText w line
    let texts ← assistantTexts w lines
    pure (text.toList ++ texts)

/-- The result in the last text, and its hash. -/
def replyResult (last : PyStr) : Except Raised (Option Json × Option Json) :=
  match balancedObject last with
  | none => .ok (none, none)
  | some text =>
    match io.loads text with
    | .error .recursion => .error (.decode .recursion)
    | .error _ => .ok (none, none)
    | .ok result =>
      match io.canonicalHash result with
      | none => .error (.decode .recursion)
      | some hash => .ok (some result, some hash)

/-- The result of a session whose lines are given. -/
def sessionResult (w : Window) (lines : List PyStr) :
    Except Raised (Option Json × Option Json) := do
  let texts ← io.assistantTexts w lines
  match texts.getLast? with
  | none => pure (none, none)
  | some last => io.replyResult last

/-- The times of a run, of its first start row and `finished_at`. -/
def windowOf (started : Row) (finishedAt : Json) : Window :=
  ⟨io.safeParseIso (Json.getD started "ts" .null), io.safeParseIso finishedAt⟩

end Decoders

/-- The path of the session file, where a start row names one by a text that is not empty. -/
def sessionPath (started : Row) : Option PyStr :=
  match Json.getD started "data" .null with
  | .obj data =>
    match Json.getD data "sessionFile" .null with
    | .str path => if path = [] then none else some path
    | _ => none
  | _ => none

namespace Decoders

variable (io : Decoders)

/-- `_extract_result`, of the first start row and `finished_at`. -/
def extractResult (files : RuntimeFiles) (started : Row) (finishedAt : Json) :
    Except Raised (Option Json × Option Json) :=
  match sessionPath started with
  | none => .ok (none, none)
  | some path =>
    match files.sessionFile path with
    | .unusable | .file .ioError => .ok (none, none)
    | .badPath => .error (.decode .value)
    | .file .undecodable => .error (.decode .unicodeDecode)
    | .file (.text raw) => io.sessionResult (io.windowOf started finishedAt) (linesOf raw)

/-! ### The trajectory -/

/-- The rows of a trajectory, or why it is not known what they are. -/
def decodeRows : List PyStr → Except Raised (String ⊕ List Row)
  | [] => .ok (.inr [])
  | line :: lines =>
    if line.strip = [] then decodeRows lines
    else
      match io.loads line with
      | .error .jsonDecode => .ok (.inl "malformed_jsonl")
      | .error e => .error (.decode e)
      | .ok (.obj row) => do
        let rest ← decodeRows lines
        pure (rest.map id (row :: ·))
      | .ok _ => .ok (.inl "malformed_row")

end Decoders

/-- The first start row and `finished_at`, of a trajectory that has passed the checks. -/
def runBounds (rows : List Row) : Row × Json :=
  ((rows.filter (Row.hasType "session.started")).headD [],
    ((rows.filter (Row.hasType "session.ended")).getLast?.map fun e =>
      Json.getD e "ts" .null).getD .null)

/-- The observation before the result has been looked for, which is after all checks. -/
def blindSight (l : RunLookup) (rows : List Row) : RunObservation := observeRows l rows none none

/-- The trajectory has passed the checks: what is refused has no session. -/
def Passes (l : RunLookup) (rows : List Row) : Prop := (blindSight l rows).sessionId ≠ none

instance (l : RunLookup) (rows : List Row) : Decidable (Passes l rows) :=
  inferInstanceAs (Decidable (_ ≠ _))

section Observe

variable (io : Decoders) (files : RuntimeFiles) (l : RunLookup)

/-- The observation of a trajectory whose rows have been decoded. -/
def observeDecoded (rows : List Row) : Except Raised RunObservation :=
  if Passes l rows then do
    let (result, resultHash) ←
      io.extractResult files (runBounds rows).1 (runBounds rows).2
    pure (observeRows l rows result resultHash)
  else .ok (blindSight l rows)

/-- `TrajectoryRunStatusProvider.observe`. -/
def observeFiles : Except Raised RunObservation :=
  if files.sessionDir = false then .ok (observe l .noSessionDir)
  else
    match files.trajectory with
    | none => .ok (observe l (if files.active then .session else .missing))
    | some .ioError => .ok (observe l .ioError)
    | some .undecodable => .error (.decode .unicodeDecode)
    | some (.text raw) => do
      match ← io.decodeRows (linesOf raw) with
      | .inl code => pure (.refused .unknown code)
      | .inr rows => observeDecoded io files l rows

def guardedObserve : Except Raised RunObservation :=
  match observeFiles io files l with
  | .ok obs => .ok obs
  | .error e =>
    if e.caught then
      .ok { RunObservation.refused .conflict "malformed_runtime_data" with
        adapterExceptionType := some e.name }
    else .error e

end Observe

/-! ### What the guard catches -/

/-- A computation returns, or raises what the guard catches. -/
def Survives {α : Type} (x : Except Raised α) : Prop := ∀ e, x = .error e → e.caught = true

section Survives

variable {α β : Type} {x : Except Raised α} {f : α → Except Raised β} {e : Raised}

@[simp]
theorem survives_ok {a : α} : Survives (.ok a : Except Raised α) := fun e h => by cases h

@[simp]
theorem survives_pure {a : α} : Survives (pure a : Except Raised α) := survives_ok

@[simp]
theorem survives_error : Survives (.error e : Except Raised α) ↔ e.caught := by
  constructor
  · intro h
    exact h e rfl
  · rintro h e' he
    obtain rfl := Except.error.inj he
    exact h

theorem survives_bind : Survives (x >>= f) ↔ Survives x ∧ ∀ a, x = .ok a → Survives (f a) := by
  cases x with
  | error e =>
    constructor
    · intro h
      exact ⟨fun e' he => h e' (by cases he; rfl), fun a ha => by cases ha⟩
    · rintro ⟨h, -⟩ e' he
      exact h e' (by cases he; rfl)
  | ok a =>
    constructor
    · intro h
      refine ⟨survives_ok, fun a' ha => ?_⟩
      obtain rfl := Except.ok.inj ha
      exact h
    · rintro ⟨-, h⟩
      exact h a rfl

@[simp]
theorem survives_map {g : α → β} : Survives (g <$> x) ↔ Survives x := by
  cases x with
  | error e => exact (survives_error (α := β)).trans (survives_error).symm
  | ok a => exact iff_of_true survives_ok survives_ok

theorem caught_decode {e : DecodeError} : (Raised.decode e).caught ↔ e ≠ .recursion := by
  cases e <;> decide

end Survives

/-! ### The data that does harm -/

/-- The time stamp of a message is an integer that rounds to no float. -/
def stampTooLarge (msg : Row) : Bool :=
  match Json.getD msg "timestamp" .null with
  | .int n => TooLarge n
  | _ => false

namespace Decoders

variable (io : Decoders)

/-- A line of the trajectory is blank, or a dictionary. -/
def isRow (line : PyStr) : Bool :=
  line.strip = [] ||
    match io.loads line with
    | .ok (.obj _) => true
    | _ => false

/-- Something is raised at a line of the session: its decoder raises, and not for want of JSON, or
it is a message of the assistant with a time that is too large. -/
def trips (line : PyStr) : Bool :=
  line.strip ≠ [] &&
    match io.loads line with
    | .error e => e ≠ .jsonDecode
    | .ok value => (assistantMessage value).any stampTooLarge

/-- The object in the last text of the assistant is not nested too deeply, for the decoder or for
the encoder. -/
def ReplyShallow (last : PyStr) : Prop :=
  ∀ text ∈ balancedObject last, io.loads text ≠ .error .recursion ∧
    ∀ result, io.loads text = .ok result → io.canonicalHash result ≠ none

/-- The first line of the session at which something is raised, if there is one, raises a
`ValueError`; and if there is none, the last text holds no object that is nested too deeply. -/
def SessionShallow (w : Window) (lines : List PyStr) : Prop :=
  (∀ line ∈ lines.find? io.trips, ∃ e, io.loads line = .error e ∧ e ≠ .recursion) ∧
    ∀ texts, io.assistantTexts w lines = .ok texts → ∀ last ∈ texts.getLast?, io.ReplyShallow last

/-- **The data does no harm**: the first line of the trajectory that is no dictionary is not nested
too deeply; and where the trajectory passes the checks and names a session that can be read, nor
does the session do harm. -/
def Shallow (files : RuntimeFiles) (l : RunLookup) : Prop :=
  ∀ raw, files.sessionDir = true → files.trajectory = some (.text raw) →
    (∀ line ∈ (linesOf raw).find? fun line => !io.isRow line,
      io.loads line ≠ .error .recursion) ∧
    ∀ rows, io.decodeRows (linesOf raw) = .ok (.inr rows) → Passes l rows →
      ∀ path ∈ sessionPath (runBounds rows).1, ∀ text,
        files.sessionFile path = .file (.text text) →
          io.SessionShallow (io.windowOf (runBounds rows).1 (runBounds rows).2) (linesOf text)

/-! ### Where it does harm -/

variable {io} {w : Window} {line : PyStr} {lines : List PyStr}

theorem lineText_of_trips (h : io.trips line) :
    ∃ e, io.lineText w line = .error e ∧
      (e.caught ↔ ∃ d, io.loads line = .error d ∧ d ≠ .recursion) := by
  obtain ⟨hstrip, htrips⟩ := Bool.and_eq_true_iff.mp h
  rw [lineText, if_neg (by simpa using hstrip)]
  cases hloads : io.loads line with
  | error d =>
    rw [hloads] at htrips
    cases d with
    | jsonDecode => simp at htrips
    | _ => exact ⟨_, rfl, by simp [caught_decode]⟩
  | ok value =>
    rw [hloads] at htrips
    obtain ⟨msg, hmsg, hstamp⟩ := (Option.any_eq_true _ _).mp htrips
    have hlarge : io.safeMsToSeconds (Json.getD msg "timestamp" .null) = .error .overflow := by
      unfold stampTooLarge at hstamp
      split at hstamp
      next n hn => rw [hn, safeMsToSeconds, if_pos (of_decide_eq_true hstamp)]
      next => cases hstamp
    refine ⟨.overflow, ?_, by simp [Raised.caught]⟩
    simp only [hmsg, hlarge]
    rfl

theorem lineText_of_not_trips (h : io.trips line = false) :
    ∃ text, io.lineText w line = .ok text := by
  rw [lineText]
  split
  next => exact ⟨none, rfl⟩
  next hstrip =>
    have htrips := (Bool.and_eq_false_iff.mp h).resolve_left (by simpa using hstrip)
    cases hloads : io.loads line with
    | error d =>
      rw [hloads] at htrips
      cases d with
      | jsonDecode => exact ⟨none, rfl⟩
      | _ => simp at htrips
    | ok value =>
      rw [hloads] at htrips
      cases hmsg : assistantMessage value with
      | none => exact ⟨none, by simp only [hmsg]⟩
      | some msg =>
        simp only [hmsg, Option.any_some] at htrips ⊢
        have hstamp : ∃ ts, io.safeMsToSeconds (Json.getD msg "timestamp" .null) = .ok ts := by
          unfold stampTooLarge at htrips
          split at htrips
          next n hn =>
            rw [hn, safeMsToSeconds, if_neg (of_decide_eq_false htrips)]
            exact ⟨_, rfl⟩
          next hne =>
            cases hts : Json.getD msg "timestamp" .null with
            | int n => exact absurd hts (hne n)
            | _ => exact ⟨_, rfl⟩
        obtain ⟨ts, hts⟩ := hstamp
        rw [hts]
        exact ⟨_, rfl⟩

/-- **The texts of the assistant** are found unless the first line that raises does harm. -/
theorem survives_assistantTexts : Survives (io.assistantTexts w lines) ↔
    ∀ line ∈ lines.find? io.trips, ∃ d, io.loads line = .error d ∧ d ≠ .recursion := by
  induction lines with
  | nil => simp [assistantTexts]
  | cons line lines ih =>
    rw [assistantTexts, survives_bind]
    cases htrips : io.trips line with
    | true =>
      obtain ⟨e, he, hcaught⟩ := @lineText_of_trips io w line htrips
      rw [List.find?_cons_of_pos htrips, he]
      simp only [survives_error, hcaught, reduceCtorEq, false_implies, implies_true, and_true,
        Option.mem_def, Option.some.injEq, forall_eq']
    | false =>
      obtain ⟨text, htext⟩ := @lineText_of_not_trips io w line htrips
      rw [List.find?_cons_of_neg (by simp [htrips]), ← ih, htext]
      simp only [survives_ok, true_and, Except.ok.injEq, forall_eq', survives_bind, survives_pure,
        implies_true, and_true]

theorem survives_replyResult {last : PyStr} :
    Survives (io.replyResult last) ↔ io.ReplyShallow last := by
  unfold replyResult ReplyShallow
  cases balancedObject last with
  | none => simp
  | some text =>
    simp only [Option.mem_def, Option.some.injEq, forall_eq']
    cases io.loads text with
    | error e => cases e <;> simp [Raised.caught]
    | ok result => cases hhash : io.canonicalHash result <;> simp [hhash, Raised.caught]

theorem survives_sessionResult :
    Survives (io.sessionResult w lines) ↔ io.SessionShallow w lines := by
  rw [sessionResult, survives_bind, survives_assistantTexts, SessionShallow]
  refine and_congr_right fun _ => forall₂_congr fun texts _ => ?_
  cases texts.getLast? with
  | none => simp
  | some last => simpa using survives_replyResult

theorem survives_decodeRows : Survives (io.decodeRows lines) ↔
    ∀ line ∈ lines.find? fun line => !io.isRow line, io.loads line ≠ .error .recursion := by
  induction lines with
  | nil => simp [decodeRows]
  | cons line lines ih =>
    have hstep : Survives (io.decodeRows (line :: lines)) ↔ if io.isRow line then
        Survives (io.decodeRows lines) else io.loads line ≠ .error .recursion := by
      rw [decodeRows]
      by_cases hstrip : line.strip = []
      · simp [hstrip, isRow]
      · rw [if_neg hstrip]
        cases hloads : io.loads line with
        | error d => cases d <;> simp [isRow, hstrip, hloads, Raised.caught]
        | ok value =>
          cases value with
          | obj row => simp [isRow, hstrip, hloads]
          | _ => simp [isRow, hstrip, hloads]
    rw [hstep]
    cases hrow : io.isRow line with
    | true => rw [List.find?_cons_of_neg (by simp [hrow]), ← ih, if_pos rfl]
    | false =>
      rw [List.find?_cons_of_pos (by simp [hrow]), if_neg Bool.false_ne_true]
      simp only [Option.mem_def, Option.some.injEq, forall_eq']

theorem survives_extractResult {files : RuntimeFiles} {started : Row} {finishedAt : Json} :
    Survives (io.extractResult files started finishedAt) ↔
      ∀ path ∈ sessionPath started, ∀ text, files.sessionFile path = .file (.text text) →
        io.SessionShallow (io.windowOf started finishedAt) (linesOf text) := by
  rw [extractResult]
  cases sessionPath started with
  | none => simp
  | some path =>
    simp only [Option.mem_def, Option.some.injEq, forall_eq']
    cases hfile : files.sessionFile path with
    | unusable => simp
    | badPath => simp [Raised.caught]
    | file text =>
      cases text with
      | ioError => simp
      | undecodable => simp [Raised.caught]
      | text raw => simpa [hfile] using survives_sessionResult

end Decoders

section Observe

variable {io : Decoders} {files : RuntimeFiles} {l : RunLookup}

theorem survives_observeDecoded {rows : List Row} : Survives (observeDecoded io files l rows) ↔
    (Passes l rows → ∀ path ∈ sessionPath (runBounds rows).1, ∀ text,
      files.sessionFile path = .file (.text text) →
        io.SessionShallow (io.windowOf (runBounds rows).1 (runBounds rows).2) (linesOf text)) := by
  rw [observeDecoded]
  split
  next hpasses =>
    rw [survives_bind, Decoders.survives_extractResult]
    simp only [hpasses, true_implies, survives_pure, implies_true, and_true]
  next hpasses => simp only [survives_ok, hpasses, false_implies]

/-- **The observation survives** exactly the data that does no harm. -/
theorem survives_observeFiles : Survives (observeFiles io files l) ↔ io.Shallow files l := by
  rw [observeFiles, Decoders.Shallow]
  split
  next hdir => simp [hdir]
  next hdir =>
    rw [Bool.not_eq_false] at hdir
    cases htraj : files.trajectory with
    | none => simp
    | some text =>
      cases text with
      | ioError => simp
      | undecodable => simp [Raised.caught]
      | text raw =>
        simp only [hdir, true_implies, Option.some.injEq, FileText.text.injEq, forall_eq']
        rw [survives_bind, Decoders.survives_decodeRows]
        refine and_congr_right fun _ => ?_
        constructor
        · intro h rows hrows
          exact (survives_observeDecoded).mp (h _ hrows)
        · rintro h (code | rows) hrows
          · exact survives_pure
          · exact (survives_observeDecoded).mpr (h rows hrows)

theorem exists_guardedObserve :
    (∃ obs, guardedObserve io files l = .ok obs) ↔ Survives (observeFiles io files l) := by
  rw [guardedObserve]
  cases observeFiles io files l with
  | ok obs => exact iff_of_true ⟨obs, rfl⟩ survives_ok
  | error e =>
    rw [survives_error]
    cases hcaught : e.caught with
    | true => exact iff_of_true ⟨_, if_pos hcaught⟩ rfl
    | false => simp [hcaught]

variable (io files l)

/-- **Runtime data crashes the supervisor** exactly where a text that is decoded is nested too
deeply, or a time stamp is too large. -/
theorem guardedObserve_iff :
    (∃ obs, guardedObserve io files l = .ok obs) ↔ io.Shallow files l :=
  (exists_guardedObserve).trans survives_observeFiles

end Observe

/-! ### Opening brackets -/

section Brackets

variable {n : ℕ}

/-- A decoder that follows this many brackets, and no more; it is given nothing but brackets. -/
def bracketDecoders (limit : ℕ) : Decoders where
  loads s := if limit < s.length then .error .recursion else .error .jsonDecode
  canonicalHash _ := none
  parseIso _ := none
  round _ := .nan
  parseFloat _ := none
  milli := id

/-- A trajectory of so many opening brackets. -/
def bracketFiles (n : ℕ) : RuntimeFiles where
  sessionDir := true
  trajectory := some (.text (List.replicate n '['))
  active := true
  sessionFile _ := .unusable

theorem splitlines_replicate {line : Retrieval.Text} (h : line ≠ []) :
    Retrieval.splitlines line (List.replicate n '[') = [line ++ List.replicate n '['] := by
  induction n generalizing line with
  | zero => simp [Retrieval.splitlines, h]
  | succ n ih =>
    rw [List.replicate_succ, Retrieval.splitlines, if_neg (by decide), ih (by simp)]
    · simp
    · simp

theorem linesOf_brackets :
    linesOf (List.replicate (n + 1) '[') = [List.replicate (n + 1) (.scalar '[')] := by
  rw [linesOf, List.replicate_succ, Retrieval.splitlines, if_neg (by decide),
    splitlines_replicate (by simp)]
  · simp [List.replicate_succ]
  · simp

theorem strip_brackets :
    PyStr.strip (List.replicate (n + 1) (.scalar '[')) ≠ [] := by
  have hspace : PyStr.isSpace (.scalar '[') = false := by decide
  simp [PyStr.strip, hspace]

theorem not_survives_brackets {l : RunLookup} :
    ¬Survives (observeFiles (bracketDecoders n) (bracketFiles (n + 1)) l) := by
  rw [survives_observeFiles]
  intro h
  obtain ⟨hfirst, -⟩ := h _ rfl rfl
  rw [linesOf_brackets] at hfirst
  have hloads : (bracketDecoders n).loads (List.replicate (n + 1) (.scalar '[')) =
      .error .recursion := if_pos (by simp)
  refine hfirst _ ?_ hloads
  rw [List.find?_cons_of_pos, Option.mem_def]
  simp [Decoders.isRow, strip_brackets, hloads]

def analystLookup : RunLookup where
  dispatchId := "d1"
  agentId := "argent-analyst"
  expectedSessionLabel := "dispatch-d1"
  boundSessionId := none
  boundRunId := none
  expectedProvider := "deepseek"
  expectedModel := "deepseek-chat"
  expectedThinkingTier := "high"

/-- A hundred thousand brackets and one, for a decoder that follows a hundred thousand. -/
theorem brackets_escape : ¬∃ obs,
    guardedObserve (bracketDecoders 100000) (bracketFiles 100001) analystLookup = .ok obs :=
  fun h => not_survives_brackets ((exists_guardedObserve).mp h)

end Brackets

end Supervisor

end ArgentTeam
