import ArgentTeam.Broker.Settle
import ArgentTeam.Lib.Patterns

/-!
# What may be published

The title and the body of a pull request, and the detail a provider gives, are freed of control
characters, searched for what looks like a secret, and cut. The order is fixed: the markers of a
prompt injection are looked for before the control characters go, and the cut comes last.

Which characters are those of words is up to Unicode (`Words`); the patterns are ASCII.
-/

namespace ArgentTeam

namespace Broker

namespace Publication

/-! ### Classes of characters -/

/-- A code point between these. -/
def between (a b : Char) (c : PyChar) : Bool :=
  decide (a.toNat ≤ PyStr.code c) && decide (PyStr.code c ≤ b.toNat)

/-- `[A-Za-z0-9]`. -/
def alnum (c : PyChar) : Bool := between 'A' 'Z' c || between 'a' 'z' c || between '0' '9' c

/-- One of these, in a class. -/
def oneOf (s : String) (c : PyChar) : Bool := s.toList.any fun d => PyStr.code c == d.toNat

/-- `\w`: what it holds of beyond ASCII is left to Unicode. -/
structure Words where
  isWord : PyChar → Bool
  ascii : ∀ c, PyStr.code c < 128 → isWord c = (alnum c || oneOf "_" c)

/-! ### Patterns -/

/-- The characters of a literal. -/
def letters (s : String) : List (Piece PyChar) :=
  s.toList.map fun d => .one fun c => PyStr.code c == d.toNat

/-- GitHub tokens, of so many letters at least. -/
def ghToken (n : ℕ) : Pattern PyChar :=
  ⟨true, letters "gh" ++ .one (oneOf "pousr") :: letters "_" ++ [.many alnum n], true⟩

/-- A fine-grained token. -/
def githubPat : Pattern PyChar :=
  ⟨false, letters "github_pat_" ++ [.many (fun c => alnum c || oneOf "_" c) 20], false⟩

def accessKey : Pattern PyChar :=
  let cls := fun c => between '0' '9' c || between 'A' 'Z' c
  ⟨true, letters "AKIA" ++ List.replicate 15 (.one cls) ++ [.one cls], true⟩

def privateKey : Pattern PyChar :=
  ⟨false, letters "-----BEGIN " ++ .many (fun c => between 'A' 'Z' c || oneOf " " c) 0 ::
    letters "PRIVATE KEY----" ++ letters "-", false⟩

/-- A key that begins with `sk-`. -/
def secretKey : Pattern PyChar := ⟨true, letters "sk-" ++ [.many alnum 20], true⟩

def secretPatterns : List (Pattern PyChar) :=
  [ghToken 20, githubPat, accessKey, privateKey, secretKey]

/-- What follows the word `token`. -/
def tokenMarker : Pattern PyChar :=
  ⟨true, letters "token" ++ [.many (oneOf "=: ") 1] ++
    [.many (fun c => alnum c || oneOf "_-" c) 16], false⟩

/-- What follows the word `Bearer`. -/
def bearerMarker : Pattern PyChar :=
  ⟨true, letters "Bearer" ++ [.many PyStr.isSpace 1] ++
    [.many (fun c => alnum c || oneOf "._-" c) 16], false⟩

def tokenMarkers : List (Pattern PyChar) := [ghToken 16, tokenMarker, bearerMarker]

def promptInjectionMarkers : List PyStr :=
  ["ignore previous instructions", "ignore all previous", "system prompt",
    "you are now"].map PyStr.ofString

/-- What a secret is replaced by. -/
def redacted : PyStr := PyStr.ofString "[REDACTED]"

/-! ### The functions -/

section Functions

variable (W : Words)

/-- One of these replacements after the other. -/
def subAll (ps : List (Pattern PyChar)) (text : PyStr) : PyStr :=
  ps.foldl (fun t p => p.sub W.isWord redacted none 0 t) text

def hasSecretLike (text : PyStr) : Bool := secretPatterns.any fun p => p.search W.isWord none text

def redactSecrets (text : PyStr) : PyStr := subAll W secretPatterns text

/-- `_CONTROL_CHARS_RE.sub`. -/
def stripControl (text : PyStr) : PyStr := text.filter fun c => !isControl c

/-- The detail as it is before it is cut. -/
def redactDetail (text : PyStr) : PyStr := subAll W tokenMarkers (redactSecrets W text)

/-- `sanitize_provider_detail`, for a string. -/
def sanitizeDetail (detail : PyStr) : PyStr := (redactDetail W (stripControl detail)).take 512

/-- `sanitize_publication_text`, for a string. -/
def sanitizePublicationText (text : PyStr) (field : String) (maxLen : ℕ) (rejectOnSecret : Bool) :
    Except String PyStr :=
  let text := stripControl text
  if rejectOnSecret && hasSecretLike W text then
    .error (field ++ " contains secret-like content (rejected)")
  else .ok ((redactSecrets W text).take maxLen)

def maxTitleLen : ℕ := 256

def maxBodyLen : ℕ := 64 * 1024

/-- `validate_pr_title`, for a string. -/
def validatePrTitle (title : PyStr) : Except String PyStr :=
  if title.strip = [] then .error "PR title must be a non-empty string"
  else (sanitizePublicationText W title "PR title" maxTitleLen true).bind fun title =>
    if title.strip = [] then .error "PR title must be non-empty after sanitization" else .ok title

/-- Its lower case has one of the markers. -/
def hasInjectionMarker (text : PyStr) : Bool :=
  promptInjectionMarkers.any fun marker => PyStr.contains marker text.lower

/-- `validate_pr_body`, for a string. -/
def validatePrBody (body : PyStr) : Except String PyStr :=
  if hasInjectionMarker body then
    .error "PR body contains a forbidden prompt-injection marker"
  else sanitizePublicationText W body "PR body" maxBodyLen false

end Functions

/-! ### What the patterns are like -/

variable {W : Words} {p q : Pattern PyChar} {r s t u : PyStr} {c : PyChar} {n : ℕ}

theorem isWord_of_alnum (h : alnum c) : W.isWord c := by
  have hlt : PyStr.code c < 128 := by
    simp only [alnum, between, Bool.or_eq_true, Bool.and_eq_true, decide_eq_true_iff] at h
    have h₁ : 'Z'.toNat = 90 := rfl
    have h₂ : 'z'.toNat = 122 := rfl
    have h₃ : '9'.toNat = 57 := rfl
    omega
  rw [W.ascii c hlt, h, Bool.true_or]

/-- A pattern that can be replaced without a trace, and looked for in what is left. -/
structure Tame (W : Words) (p : Pattern PyChar) : Prop where
  long : redacted.length < p.least
  leaves : p.Leaves W.isWord alnum
  searched : p.Searched W.isWord alnum redacted

theorem searched_of (hlong : redacted.length < p.least)
    (hopen : p.parts.all (fun q => !q.cls (.scalar '[')) = true)
    (hclose : p.parts.all (fun q => !q.cls (.scalar ']')) = true)
    (hstart : p.opens = true → ∃ cls ps, p.parts = .one cls :: ps ∧ ∀ c, cls c = true →
      alnum c = true) : p.Searched W.isWord alnum redacted where
  clear x hx := {
    ne := by decide
    first := by
      rintro a ⟨⟩
      exact ⟨hx.not_mem hopen, W.ascii _ (by decide)⟩
    last := by
      rintro a ⟨⟩
      exact ⟨hx.not_mem hclose, W.ascii _ (by decide)⟩
    length := hlong.le.trans hx.least_le }
  start hopens x hx := by
    obtain ⟨cls, ps, hparts, hcls⟩ := hstart hopens
    obtain ⟨a, x, rfl, ha, -⟩ := Spells.one_iff.mp (hparts ▸ hx)
    exact ⟨hcls a ha, isWord_of_alnum (hcls a ha)⟩

theorem alnum_of_code {d : Char} (hd : alnum (.scalar d))
    (h : (PyStr.code c == d.toNat) = true) : alnum c := by
  have hcode : PyStr.code c = PyStr.code (.scalar d) := beq_iff_eq.mp h
  simpa only [alnum, between, hcode] using hd

theorem tame_ghToken (hn : 16 ≤ n) : Tame W (ghToken n) := by
  have hlong : redacted.length < (ghToken n).least := by
    have hlength : redacted.length = 10 := by decide
    have hleast : (ghToken n).least = 1 + (1 + (1 + (1 + (n + 0)))) := rfl
    omega
  exact ⟨hlong, Pattern.leaves_of_closes rfl fun _ => isWord_of_alnum,
    searched_of hlong rfl rfl
      fun _ => ⟨_, _, rfl, fun _ => alnum_of_code (d := 'g') (by decide)⟩⟩

theorem tame_githubPat : Tame W githubPat where
  long := by decide
  leaves := Pattern.leaves_of_run rfl rfl fun _ h => by simp [h]
  searched := searched_of (by decide) (by decide) (by decide) fun h => by cases h

theorem tame_accessKey : Tame W accessKey where
  long := by decide
  leaves := Pattern.leaves_of_closes rfl fun _ => isWord_of_alnum
  searched := searched_of (by decide) (by decide) (by decide)
    fun _ => ⟨_, _, rfl, fun _ => alnum_of_code (d := 'A') (by decide)⟩

theorem isWord_dash (h : (PyStr.code c == '-'.toNat) = true) : W.isWord c = false := by
  have hcode : PyStr.code c = PyStr.code (.scalar '-') := beq_iff_eq.mp h
  rw [PyStr.code_injective hcode, W.ascii _ (by decide)]
  decide

theorem tame_privateKey : Tame W privateKey where
  long := by decide
  leaves := Pattern.leaves_of_last rfl fun _ => isWord_dash
  searched := searched_of (by decide) (by decide) (by decide) fun h => by cases h

theorem tame_secretKey : Tame W secretKey where
  long := by decide
  leaves := Pattern.leaves_of_closes rfl fun _ => isWord_of_alnum
  searched := searched_of (by decide) (by decide) (by decide)
    fun _ => ⟨_, _, rfl, fun _ => alnum_of_code (d := 's') (by decide)⟩

theorem tame_tokenMarker : Tame W tokenMarker where
  long := by decide
  leaves := Pattern.leaves_of_run rfl rfl fun _ h => by simp [h]
  searched := searched_of (by decide) (by decide) (by decide)
    fun _ => ⟨_, _, rfl, fun _ => alnum_of_code (d := 't') (by decide)⟩

theorem tame_bearerMarker : Tame W bearerMarker where
  long := by decide
  leaves := Pattern.leaves_of_run rfl rfl fun _ h => by simp [h]
  searched := searched_of (by decide) (by decide) (by decide)
    fun _ => ⟨_, _, rfl, fun _ => alnum_of_code (d := 'B') (by decide)⟩

theorem tame_of_mem (h : p ∈ secretPatterns ++ tokenMarkers) : Tame W p := by
  simp only [secretPatterns, tokenMarkers, List.mem_append, List.mem_cons, List.not_mem_nil,
    or_false] at h
  obtain (rfl | rfl | rfl | rfl | rfl) | rfl | rfl | rfl := h
  exacts [tame_ghToken (by decide), tame_githubPat, tame_accessKey, tame_privateKey, tame_secretKey,
    tame_ghToken le_rfl, tame_tokenMarker, tame_bearerMarker]

theorem enters_of_mem (h : p ∈ ghToken 20 :: accessKey :: privateKey :: secretKey :: tokenMarkers) :
    p.Enters W.isWord := by
  simp only [tokenMarkers, List.mem_cons, List.not_mem_nil, or_false] at h
  obtain rfl | rfl | rfl | rfl | rfl | rfl | rfl := h
  exacts [Pattern.enters_of_opens rfl, Pattern.enters_of_opens rfl,
    Pattern.enters_of_head rfl fun _ => isWord_dash, Pattern.enters_of_opens rfl,
    Pattern.enters_of_opens rfl, Pattern.enters_of_opens rfl, Pattern.enters_of_opens rfl]

/-- What has to end at a boundary ends with a letter or a digit. -/
theorem getLast?_isWord (h : p ∈ secretPatterns ++ tokenMarkers) (hcloses : p.closes)
    {x : PyStr} (hx : Spells p.parts x) : x.getLast?.any W.isWord := by
  have hany : ∀ {cls : PyChar → Bool}, x.getLast?.any cls = true →
      (∀ c, cls c = true → alnum c = true) → x.getLast?.any W.isWord = true := fun hlast hcls => by
    obtain ⟨a, ha, hcls'⟩ := Option.any_eq_true _ _ |>.mp hlast
    rw [ha]
    exact isWord_of_alnum (hcls a hcls')
  simp only [secretPatterns, tokenMarkers, List.mem_append, List.mem_cons, List.not_mem_nil,
    or_false] at h
  obtain (rfl | rfl | rfl | rfl | rfl) | rfl | rfl | rfl := h
  · exact hany (hx.getLast?_any (by decide)) fun _ => id
  · cases hcloses
  · refine hany (hx.getLast?_any (by decide)) fun c hc => ?_
    simp only [Piece.cls, alnum, Bool.or_eq_true] at hc ⊢
    exact hc.elim .inr fun h => .inl (.inl h)
  · cases hcloses
  · exact hany (hx.getLast?_any (by decide)) fun _ => id
  · exact hany (hx.getLast?_any (by decide)) fun _ => id
  · cases hcloses
  · cases hcloses

end Publication

end Broker

end ArgentTeam
