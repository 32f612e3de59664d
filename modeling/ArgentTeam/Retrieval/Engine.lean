import ArgentTeam.Lib.FileTree
import ArgentTeam.Lib.Quota
import ArgentTeam.Lib.TextOrder

/-!
# The retrieval engine

A request names a root, and asks for one file, for the files of a walk that a query matches, or for
the files of a directory. The root is checked against the lists of the policy; what the reference,
the walk or the directory leads to is checked against the root.

The trees of files are those of `FileTree`; a `Disk` says besides in which order the system lists a
directory, whether a link leads to a directory as the system follows it, and which files can be
read. Of the kinds of requests those that look into the store are left out, as they read no files.
-/

namespace ArgentTeam

namespace Retrieval

/-! ### Requests and policies -/

/-- The kinds of requests in `_FILESYSTEM_TYPES`, of the enumeration `RetrievalType`. -/
inductive RetrievalType
  | exactRef
  | fileExcerpt
  | symbolOrTextMatch
  | artifactLookup
  deriving DecidableEq

def RetrievalType.value : RetrievalType → String
  | exactRef => "EXACT_REF"
  | fileExcerpt => "FILE_EXCERPT"
  | symbolOrTextMatch => "SYMBOL_OR_TEXT_MATCH"
  | artifactLookup => "ARTIFACT_LOOKUP"

/-- The codes of a `RetrievalError`. -/
inductive Code
  | rootDenied
  | pathTraversal
  | symlinkEscape
  | invalidRequest
  | forbiddenPattern
  | notFound
  deriving DecidableEq

/-- What leaves the engine. -/
inductive Raised
  /-- `RetrievalError`. -/
  | retrieval (code : Code)
  /-- `OSError`. -/
  | os
  /-- `re.error`. -/
  | regex
  deriving DecidableEq

def maxResultsHard : ℕ := 500

def maxBytesHard : ℕ := 4194304

def maxExcerptBytesHard : ℕ := 131072

def maxFilesScanned : ℕ := 200

def maxMatchResultsPerFile : ℕ := 16

def truncationMarker : List Char := "\n[TRUNCATED]".toList

/-- A decoded text, which holds no lone surrogate. -/
abbrev Text := List Char

def Text.str (s : Text) : PyStr := s.map .scalar

/-- `len(s.encode("utf-8"))`. -/
def Text.bytes (s : Text) : ℕ := (s.map fun c => c.utf8Size).sum

structure RetrievalItem where
  ref : CanonPath
  sourceType : RetrievalType
  location : CanonPath
  content : Text
  contentHash : PyStr
  truncated : Bool
  metadata : List (String × PyStr) := []
  deriving DecidableEq

def RetrievalItem.size (item : RetrievalItem) : ℕ := item.content.bytes

structure RetrievalResult where
  items : List RetrievalItem
  truncated : Bool
  totalBytes : ℕ
  provenance : RetrievalType
  deriving DecidableEq

/-- `RetrievalRequest`; only lookups in the store use its task. -/
structure RetrievalRequest where
  jobId : PyStr
  dispatchId : PyStr
  sourceType : RetrievalType
  authorizedRoot : String := ""
  reference : String := ""
  query : PyStr := []
  revision : PyStr := []
  excerptOffset : ℤ := 0
  excerptLength : ℤ := 0
  maxResults : Option ℤ := none
  maxBytes : Option ℤ := none
  maxExcerptBytes : Option ℤ := none

structure RetrievalPolicy where
  maxResultsDefault : ℤ := 50
  maxBytesDefault : ℤ := 262144
  maxExcerptBytesDefault : ℤ := 16384
  /-- `allowed_roots`: canonical absolute roots. -/
  allowedRoots : List CanonPath := []
  /-- `denied_roots`: canonical absolute roots. -/
  deniedRoots : List CanonPath := []
  forbiddenPatterns : List PyStr := []

/-! ### The files -/

abbrev Bytes := List UInt8

/-- The files, and what the system says of them. -/
structure Disk where
  tree : FileTree Bytes
  /-- The names in a directory, as `os.scandir` lists them. -/
  listing : CanonPath → List String
  leadsToDir : CanonPath → Bool
  opens : CanonPath → Bool
  height : ℕ
  mem_listing : ∀ p n, n ∈ listing p ↔ (tree.node (p ++ [n])).isSome = true
  nodup : ∀ p, (listing p).Nodup
  height_le : ∀ p, tree.node p = some .dir → p.length ≤ height

/-- Names in the order of their code points. -/
def sorted (names : List String) : List String :=
  names.insertionSort fun a b => PyStr.le (PyStr.ofString a) (PyStr.ofString b)

/-- A path as it is written, at its separators. -/
def pathText (s : String) : PathText := (s.toList.splitOn '/').map String.ofList

/-- A path from the root, as it is written. -/
def pathString (p : CanonPath) : PyStr :=
  List.intercalate [.scalar '/'] (p.text.map PyStr.ofString)

namespace Disk

variable (disk : Disk)

/-- `os.path.getsize`, where it does not raise. The path has been resolved: a link that is left in
it leads nowhere. -/
def getsize (p : CanonPath) : Option ℕ :=
  match disk.tree.node p with
  | some (.file bytes) => some bytes.length
  | some .dir | some (.special _) => some 0
  | some (.link _) | none => none

/-- The content of what is there, if it can be opened and read. -/
def read (p : CanonPath) : Option Bytes :=
  match disk.tree.node p with
  | some (.file bytes) | some (.special bytes) => if disk.opens p then some bytes else none
  | some .dir | some (.link _) | none => none

/-- `os.path.isfile`, of a path that has been resolved. -/
def isFile (p : CanonPath) : Bool := (disk.tree.file? p).isSome

/-- `entry.is_dir`, which follows links. -/
def isDirEntry (p : CanonPath) : Bool :=
  match disk.tree.node p with
  | some .dir => true
  | some (.link _) => disk.leadsToDir p
  | some (.file _) | some (.special _) | none => false

/-- `dirnames`, sorted. -/
def dirnames (dir : CanonPath) : List String :=
  sorted ((disk.listing dir).filter fun n => disk.isDirEntry (dir ++ [n]))

/-- `filenames`, sorted. -/
def filenames (dir : CanonPath) : List String :=
  sorted ((disk.listing dir).filter fun n => !disk.isDirEntry (dir ++ [n]))

/-- `os.walk`: links to directories are listed, and not followed. -/
def walk : ℕ → CanonPath → List (CanonPath × List String)
  | 0, _ => []
  | n + 1, dir =>
    if disk.tree.isDir dir then
      (dir, disk.filenames dir) :: (disk.dirnames dir).flatMap fun name =>
        if (disk.tree.target? (dir ++ [name])).isSome then [] else walk n (dir ++ [name])
    else []

/-- The files of the walk, each with its directory. -/
def walkFiles (root : CanonPath) : List (CanonPath × String) :=
  (disk.walk (disk.height + 1) root).flatMap fun e => e.2.map fun name => (e.1, name)

/-- Where a name in a directory leads. -/
def resolve (dir : CanonPath) (name : String) : CanonPath :=
  disk.tree.realpath (PathText.join dir.text [name])

def rootOf (request : RetrievalRequest) : CanonPath :=
  disk.tree.realpath (disk.tree.abspath (pathText request.authorizedRoot))

/-- Where the reference of a request leads, from a root. -/
def target (root : CanonPath) (request : RetrievalRequest) : CanonPath :=
  disk.tree.realpath (PathText.join root.text (PathText.normpath (pathText request.reference)))

end Disk

/-! ### A disk that is given by what is on it -/

section Entries

variable {entries : List (CanonPath × FileNode Bytes)} {p : CanonPath} {n : String}

/-- The names in a directory, among these entries. -/
def listingOf (entries : List (CanonPath × FileNode Bytes)) (p : CanonPath) : List String :=
  (entries.filterMap fun e => if e.1.dropLast = p then e.1.getLast? else none).dedup

/-- How deep these entries lie. -/
def heightOf (entries : List (CanonPath × FileNode Bytes)) : ℕ :=
  (entries.map fun e => e.1.length).max?.getD 0

theorem mem_listingOf :
    n ∈ listingOf entries p ↔ (FileTree.entryAt entries (p ++ [n])).isSome := by
  have hne : p ++ [n] ≠ [] := by simp
  rw [listingOf, List.mem_dedup, List.mem_filterMap, FileTree.entryAt, if_neg hne,
    Option.isSome_map, List.find?_isSome]
  refine exists_congr fun e => and_congr_right fun _ => ?_
  rw [decide_eq_true_eq]
  constructor
  · intro h
    split at h
    next hp =>
      rw [← hp]
      exact (List.dropLast_append_getLast? n h).symm
    · cases h
  · intro h
    rw [h, List.dropLast_concat, if_pos rfl, List.getLast?_concat]

theorem length_le_heightOf {node : FileNode Bytes} (h : (p, node) ∈ entries) :
    p.length ≤ heightOf entries :=
  List.le_max?_getD_of_mem (List.mem_map.mpr ⟨_, h, rfl⟩)

def Disk.ofEntries (entries : List (CanonPath × FileNode Bytes)) (h : FileTree.WellFormed entries)
    (leadsToDir opens : CanonPath → Bool) : Disk where
  tree := FileTree.ofEntries entries h
  listing := listingOf entries
  leadsToDir := leadsToDir
  opens := opens
  height := heightOf entries
  mem_listing _ _ := mem_listingOf
  nodup _ := List.nodup_dedup _
  height_le p hdir := by
    rcases eq_or_ne p [] with rfl | hp
    · exact Nat.zero_le _
    · exact length_le_heightOf (FileTree.exists_of_entryAt hp hdir)

end Entries

/-! ### Matches -/

/-- Where `str.splitlines` splits. -/
def isLineEnd (c : Char) : Bool :=
  c.toNat ∈ [0xA, 0xB, 0xC, 0xD, 0x1C, 0x1D, 0x1E, 0x85, 0x2028, 0x2029]

/-- `str.splitlines`, with what has been read of the first line. -/
def splitlines (line : Text) : Text → List Text
  | [] => if line = [] then [] else [line]
  | '\r' :: '\n' :: s => line :: splitlines [] s
  | c :: s => if isLineEnd c then line :: splitlines [] s else splitlines (line ++ [c]) s

/-- The engine: its policy, and what it calls. -/
structure RetrievalEngine where
  policy : RetrievalPolicy
  /-- `re.compile`, and `search` with the result; it raises if there is none. -/
  compile : PyStr → Option (PyStr → Bool)
  /-- `bytes.decode` with replacement. -/
  decode : Bytes → Text
  contentHash : Text → PyStr

/-- What a request is limited to: items, bytes of them, and bytes of an excerpt. -/
structure Limits where
  /-- `max_results` and `max_bytes`. -/
  quota : Quota
  excerpt : ℕ

namespace RetrievalEngine

variable (engine : RetrievalEngine) (disk : Disk) (request : RetrievalRequest)

def extractMatches (content : Text) : List Text :=
  match engine.compile request.query with
  | some search => (splitlines [] content).filter fun line => search line.str
  | none => (splitlines [] content).filter fun line => PyStr.contains request.query line.str

/-- The query matches a content; it is searched for as a pattern only if it is not in it. -/
def hits (content : Text) : Except Raised Bool :=
  if PyStr.contains request.query content.str then .ok true
  else
    match engine.compile request.query with
    | some search => .ok (search content.str)
    | none => .error .regex

def shownMatches (content : Text) : Text :=
  List.intercalate ['\n'] ((engine.extractMatches request content).take maxMatchResultsPerFile)

/-! ### Reading -/

/-- The excerpt that `_bounded_read` takes of a content, and whether it leaves something out. -/
def excerpt (size : ℕ) (bytes : Bytes) (maxExcerpt : ℕ) (offset length : ℤ) : Text × Bool :=
  let limit := if 0 < length then min length.toNat maxExcerpt else maxExcerpt
  let truncated := decide (limit < size - offset.toNat)
  (engine.decode ((bytes.drop offset.toNat).take limit) ++
    if truncated then truncationMarker else [], truncated)

def boundedRead (path : CanonPath) (maxExcerpt : ℕ) (offset length : ℤ) :
    Except Raised RetrievalItem :=
  match disk.getsize path, disk.read path with
  | none, _ => .error .os
  | some _, none => .error (.retrieval .notFound)
  | some size, some bytes =>
    let content := engine.excerpt size bytes maxExcerpt offset length
    .ok { ref := path, sourceType := .fileExcerpt, location := path, content := content.1
          contentHash := engine.contentHash content.1, truncated := content.2 }

/-! ### Checks -/

def checkForbidden (text : PyStr) : List PyStr → Except Raised Unit
  | [] => .ok ()
  | pattern :: patterns =>
    match engine.compile pattern with
    | none => .error .regex
    | some search =>
      if search text then .error (.retrieval .forbiddenPattern)
      else checkForbidden text patterns

def validateRoot : Except Raised CanonPath :=
  let real := disk.rootOf request
  if (PyStr.ofString request.authorizedRoot).strip = [] then .error (.retrieval .rootDenied)
  else if engine.policy.deniedRoots.any fun denied => Within denied real then
    .error (.retrieval .rootDenied)
  else if engine.policy.allowedRoots = [] then .error (.retrieval .rootDenied)
  else if engine.policy.allowedRoots.any fun a => Within a real then .ok real
  else .error (.retrieval .rootDenied)

def validateRequest : Except Raised Unit := do
  if request.jobId = [] ∨ request.dispatchId = [] then .error (.retrieval .invalidRequest)
  else do
    engine.checkForbidden (PyStr.ofString request.reference) engine.policy.forbiddenPatterns
    engine.checkForbidden request.query engine.policy.forbiddenPatterns
    let _ ← engine.validateRoot disk request
    .ok ()

def resolveWithin (root : CanonPath) : Except Raised CanonPath :=
  if (PyStr.ofString request.reference).strip = [] then .error (.retrieval .pathTraversal)
  else if (pathText request.reference).isAbs then .error (.retrieval .pathTraversal)
  else if (PathText.normpath (pathText request.reference)).head? = some ".." then
    .error (.retrieval .pathTraversal)
  else if Within root (disk.target root request) then .ok (disk.target root request)
  else .error (.retrieval .symlinkEscape)

def resolveLimit (value : Option ℤ) (default : ℤ) : Except Raised ℕ :=
  let value := value.getD default
  if value ≤ 0 then .error (.retrieval .invalidRequest) else .ok value.toNat

def limits : Except Raised Limits := do
  let results ← resolveLimit request.maxResults engine.policy.maxResultsDefault
  let bytes ← resolveLimit request.maxBytes engine.policy.maxBytesDefault
  let excerpt ← resolveLimit request.maxExcerptBytes engine.policy.maxExcerptBytesDefault
  .ok { quota := ⟨min results maxResultsHard, min bytes maxBytesHard⟩
        excerpt := min excerpt maxExcerptBytesHard }

/-! ### Retrieving -/

def metadata : List (String × PyStr) :=
  if request.revision = [] then [] else [("revision", request.revision)]

def sortKey (item : RetrievalItem) : List PyStr :=
  [PyStr.ofString item.sourceType.value, pathString item.ref, item.content.str, item.contentHash]

def sortedItems (items : List RetrievalItem) : List RetrievalItem :=
  items.insertionSort fun a b => textsLe (sortKey a) (sortKey b)

def retrieveExactOrExcerpt (limits : Limits) : Except Raised RetrievalResult := do
  let root ← engine.validateRoot disk request
  let target ← resolveWithin disk request root
  if ¬disk.isFile target then .error (.retrieval .notFound)
  else do
    let item ← engine.boundedRead disk target limits.excerpt request.excerptOffset
      request.excerptLength
    .ok { items := [{ item with
            sourceType := request.sourceType
            metadata := metadata request }]
          truncated := item.truncated
          totalBytes := item.size
          provenance := request.sourceType }

/-- What `_retrieve_symbol` makes of a file of the walk. -/
def searchFile (limits : Limits) (root : CanonPath) (entry : CanonPath × String) :
    Except Raised (Option RetrievalItem) :=
  let path := disk.resolve entry.1 entry.2
  if ¬Within root path then .ok none
  else if disk.getsize path = none then .ok none
  else do
    let item ← engine.boundedRead disk path limits.excerpt 0 0
    let hit ← engine.hits request item.content
    let shown := engine.shownMatches request item.content
    if ¬hit ∨ shown = [] then .ok none
    else
      .ok (some { ref := path, sourceType := .symbolOrTextMatch, location := path, content := shown
                  contentHash := engine.contentHash shown, truncated := item.truncated
                  metadata := metadata request })

/-- `_retrieve_symbol`; where the inner loop is left, `truncated` is set, and the outer one is left
as well. -/
def retrieveSymbol (limits : Limits) : Except Raised RetrievalResult := do
  let root ← engine.validateRoot disk request
  if request.query = [] then .error (.retrieval .invalidRequest)
  else do
    let found ← Gathered.gather limits.quota (engine.searchFile disk request limits root)
      (some maxFilesScanned) (Gathered.empty RetrievalItem.size) (disk.walkFiles root)
    .ok { items := sortedItems found.items
          truncated := found.truncated
          totalBytes := found.total
          provenance := .symbolOrTextMatch }

/-- The names that `_retrieve_artifact` goes through. -/
def artifactNames (root : CanonPath) : List String :=
  if disk.tree.isDir root then sorted (disk.listing root) else []

/-- What `_retrieve_artifact` makes of a name. -/
def readArtifact (limits : Limits) (root : CanonPath) (name : String) :
    Except Raised (Option RetrievalItem) :=
  let ref := PyStr.ofString request.reference
  let path := disk.resolve root name
  if ¬Within root path then .ok none
  else if ref ≠ [] ∧ ¬PyStr.contains ref (PyStr.ofString name) ∧
      ¬PyStr.contains ref (pathString path) then .ok none
  else if ¬disk.isFile path then .ok none
  else do
    let item ← engine.boundedRead disk path limits.excerpt 0 0
    .ok (some { item with sourceType := .artifactLookup })

def retrieveArtifact (limits : Limits) : Except Raised RetrievalResult := do
  let root ← engine.validateRoot disk request
  let found ← Gathered.gather limits.quota (engine.readArtifact disk request limits root) none
    (Gathered.empty RetrievalItem.size) (artifactNames disk root)
  .ok { items := sortedItems found.items
        truncated := found.truncated
        totalBytes := found.total
        provenance := .artifactLookup }

def execute : Except Raised RetrievalResult := do
  engine.validateRequest disk request
  let limits ← engine.limits request
  match request.sourceType with
  | .exactRef | .fileExcerpt => engine.retrieveExactOrExcerpt disk request limits
  | .symbolOrTextMatch => engine.retrieveSymbol disk request limits
  | .artifactLookup => engine.retrieveArtifact disk request limits

end RetrievalEngine

end Retrieval

end ArgentTeam
