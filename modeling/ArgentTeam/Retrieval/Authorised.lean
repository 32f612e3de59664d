import ArgentTeam.Lib.Except
import ArgentTeam.Retrieval.Engine

/-!
# What is retrieved

Whatever way a file is reached, its path is resolved and checked against the root, and so what is
retrieved lies in the root of the request and in an allowed one. The denied roots are compared with
the root of the request only: one that lies inside of it does not stop anything. And the walk, other
than the lookups, does not ask whether what it reads is a regular file.

Hence what is retrieved is authorised exactly if nothing that the request selects lies in a denied
root or is something else than a file (`retrieval_authorised_iff`).
-/

namespace ArgentTeam

namespace Retrieval

/-! ### What is claimed -/

/-- A path is in the root of a request, in an allowed one, and in no denied one. -/
structure Permitted (policy : RetrievalPolicy) (root p : CanonPath) : Prop where
  inRoot : root <+: p
  allowed : ∃ a ∈ policy.allowedRoots, a <+: p
  denied : ∀ d ∈ policy.deniedRoots, ¬d <+: p

/-- What a request shows of a file with these bytes. -/
def RetrievalEngine.shows (engine : RetrievalEngine) (request : RetrievalRequest) (limits : Limits)
    (bytes : Bytes) : Text :=
  match request.sourceType with
  | .exactRef | .fileExcerpt =>
    (engine.excerpt bytes.length bytes limits.excerpt request.excerptOffset
      request.excerptLength).1
  | .symbolOrTextMatch =>
    engine.shownMatches request (engine.excerpt bytes.length bytes limits.excerpt 0 0).1
  | .artifactLookup => (engine.excerpt bytes.length bytes limits.excerpt 0 0).1

/-- The content of an item was read from the regular file at a path. -/
def ReadFrom (engine : RetrievalEngine) (disk : Disk) (request : RetrievalRequest)
    (item : RetrievalItem) (p : CanonPath) : Prop :=
  item.location = p ∧ ∃ bytes limits, disk.tree.node p = some (.file bytes) ∧
    engine.limits request = .ok limits ∧ item.content = engine.shows request limits bytes

/-- Everything that has been retrieved was read from a file that is authorised. -/
def Authorised (engine : RetrievalEngine) (disk : Disk) (request : RetrievalRequest)
    (result : RetrievalResult) : Prop :=
  ∀ item ∈ result.items, ∃ p, ReadFrom engine disk request item p ∧
    Permitted engine.policy (disk.rootOf request) p

/-! ### What a request selects -/

/-- What a request selects: where its reference leads, or where an entry of the walk or of the
directory leads whose item fits the limits together with all that come before it. -/
def Selects (engine : RetrievalEngine) (disk : Disk) (request : RetrievalRequest)
    (p : CanonPath) : Prop :=
  match request.sourceType with
  | .exactRef | .fileExcerpt => p = disk.target (disk.rootOf request) request
  | .symbolOrTextMatch =>
    ∃ limits, engine.limits request = .ok limits ∧ ∃ item, item.location = p ∧
      Gathered.Admitted limits.quota RetrievalItem.size
        (Gathered.made (engine.searchFile disk request limits (disk.rootOf request))
          (Gathered.reach (some maxFilesScanned) (disk.walkFiles (disk.rootOf request)))) item
  | .artifactLookup =>
    ∃ limits, engine.limits request = .ok limits ∧ ∃ item, item.location = p ∧
      Gathered.Admitted limits.quota RetrievalItem.size
        (Gathered.made (engine.readArtifact disk request limits (disk.rootOf request))
          (Gathered.reach none (RetrievalEngine.artifactNames disk (disk.rootOf request)))) item

/-! ### What is read -/

section Read

variable {engine : RetrievalEngine} {disk : Disk} {request : RetrievalRequest}
  {result : RetrievalResult} {limits : Limits} {item : RetrievalItem} {root p : CanonPath}

/-- What is read, and from where. -/
theorem boundedRead_eq_ok {maxExcerpt : ℕ} {offset length : ℤ}
    (h : engine.boundedRead disk p maxExcerpt offset length = .ok item) :
    item.location = p ∧ (disk.read p).isSome ∧
      ∀ bytes, disk.tree.node p = some (.file bytes) →
        item.content = (engine.excerpt bytes.length bytes maxExcerpt offset length).1 := by
  unfold RetrievalEngine.boundedRead at h
  split at h
  · cases h
  · cases h
  next size bytes hsize hread =>
    rw [Except.ok.injEq] at h
    subst h
    refine ⟨rfl, by rw [hread]; rfl, fun bytes' hnode => ?_⟩
    rw [Disk.getsize, hnode, Option.some.injEq] at hsize
    rw [Disk.read, hnode] at hread
    dsimp only at hread
    split at hread
    · rw [Option.some.injEq] at hread
      rw [← hsize, ← hread]
    · cases hread

theorem validateRoot_eq_ok (h : engine.validateRoot disk request = .ok root) :
    root = disk.rootOf request ∧ (∃ a ∈ engine.policy.allowedRoots, Within a root) ∧
      ∀ d ∈ engine.policy.deniedRoots, ¬Within d root := by
  unfold RetrievalEngine.validateRoot at h
  dsimp only at h
  split_ifs at h with hblank hdenied hempty hallowed
  obtain rfl := Except.ok.inj h
  simp only [List.any_eq_true, decide_eq_true_eq, not_exists, not_and] at hdenied hallowed
  exact ⟨rfl, hallowed, hdenied⟩

theorem resolveWithin_eq_ok (h : RetrievalEngine.resolveWithin disk request root = .ok p) :
    p = disk.target root request ∧ Within root p := by
  unfold RetrievalEngine.resolveWithin at h
  split_ifs at h with hblank habs hup hwithin
  obtain rfl := Except.ok.inj h
  exact ⟨rfl, hwithin⟩

theorem isFile_iff : disk.isFile p ↔ ∃ bytes, disk.tree.node p = some (.file bytes) := by
  rw [Disk.isFile, Option.isSome_iff_exists]
  exact exists_congr fun bytes => FileTree.file?_eq_some

/-- An item is shown of what is in the root. -/
structure Found (engine : RetrievalEngine) (disk : Disk) (request : RetrievalRequest)
    (limits : Limits) (item : RetrievalItem) : Prop where
  within : Within (disk.rootOf request) item.location
  read : (disk.read item.location).isSome = true
  regular : request.sourceType ≠ .symbolOrTextMatch → disk.isFile item.location = true
  content : ∀ bytes, disk.tree.node item.location = some (.file bytes) →
    item.content = engine.shows request limits bytes

theorem found_searchFile {entry : CanonPath × String}
    (htype : request.sourceType = .symbolOrTextMatch)
    (h : engine.searchFile disk request limits (disk.rootOf request) entry = .ok (some item)) :
    Found engine disk request limits item := by
  unfold RetrievalEngine.searchFile at h
  dsimp only at h
  split at h
  · cases h
  next hwithin =>
    split at h
    · cases h
    simp only [Except.bind_eq_ok] at h
    obtain ⟨seen, hread, hit, -, h⟩ := h
    split at h
    · cases h
    obtain rfl := Option.some.inj (Except.ok.inj h)
    obtain ⟨-, hsome, hcontent⟩ := boundedRead_eq_ok hread
    refine ⟨not_not.mp hwithin, hsome, fun hne => absurd htype hne, fun bytes hnode => ?_⟩
    rw [RetrievalEngine.shows, htype]
    dsimp only
    rw [hcontent bytes hnode]

theorem found_readArtifact {name : String} (htype : request.sourceType = .artifactLookup)
    (h : engine.readArtifact disk request limits (disk.rootOf request) name = .ok (some item)) :
    Found engine disk request limits item := by
  unfold RetrievalEngine.readArtifact at h
  dsimp only at h
  split at h
  · cases h
  next hwithin =>
    split at h
    · cases h
    split at h
    · cases h
    next hfile =>
      rw [Except.bind_eq_ok] at h
      obtain ⟨seen, hread, h⟩ := h
      obtain rfl := Option.some.inj (Except.ok.inj h)
      obtain ⟨hlocation, hsome, hcontent⟩ := boundedRead_eq_ok hread
      rw [← hlocation] at hwithin hsome hfile hcontent
      refine ⟨not_not.mp hwithin, hsome, fun _ => not_not.mp hfile, fun bytes hnode => ?_⟩
      rw [RetrievalEngine.shows, htype]
      exact hcontent bytes hnode

/-! ### What is retrieved -/

theorem mem_sortedItems {items : List RetrievalItem} :
    item ∈ RetrievalEngine.sortedItems items ↔ item ∈ items :=
  List.mem_insertionSort _

/-- What a request for one file comes to. -/
theorem retrieveExactOrExcerpt_eq_ok
    (htype : request.sourceType = .exactRef ∨ request.sourceType = .fileExcerpt)
    (h : engine.retrieveExactOrExcerpt disk request limits = .ok result) :
    ∃ item, result.items = [item] ∧
      item.location = disk.target (disk.rootOf request) request ∧
      Found engine disk request limits item := by
  unfold RetrievalEngine.retrieveExactOrExcerpt at h
  simp only [Except.bind_eq_ok] at h
  obtain ⟨root, hroot, p, hp, h⟩ := h
  obtain ⟨rfl, -, -⟩ := validateRoot_eq_ok hroot
  obtain ⟨rfl, hwithin⟩ := resolveWithin_eq_ok hp
  split_ifs at h with hfile
  rw [Except.bind_eq_ok] at h
  obtain ⟨seen, hread, h⟩ := h
  obtain rfl := Except.ok.inj h
  obtain ⟨hlocation, hsome, hcontent⟩ := boundedRead_eq_ok hread
  have hshows : ∀ bytes, engine.shows request limits bytes =
      (engine.excerpt bytes.length bytes limits.excerpt request.excerptOffset
        request.excerptLength).1 := fun bytes => by
    rcases htype with htype | htype <;> rw [RetrievalEngine.shows, htype]
  refine ⟨_, rfl, hlocation, ?_⟩
  rw [← hlocation] at hwithin hsome hfile hcontent
  exact ⟨hwithin, hsome, fun _ => hfile, fun bytes hnode =>
    (hcontent bytes hnode).trans (hshows bytes).symm⟩

/-- What a search comes to. -/
theorem retrieveSymbol_eq_ok (h : engine.retrieveSymbol disk request limits = .ok result) :
    item ∈ result.items ↔ Gathered.Admitted limits.quota RetrievalItem.size
      (Gathered.made (engine.searchFile disk request limits (disk.rootOf request))
        (Gathered.reach (some maxFilesScanned) (disk.walkFiles (disk.rootOf request)))) item := by
  unfold RetrievalEngine.retrieveSymbol at h
  rw [Except.bind_eq_ok] at h
  obtain ⟨root, hroot, h⟩ := h
  obtain ⟨rfl, -, -⟩ := validateRoot_eq_ok hroot
  split_ifs at h
  rw [Except.bind_eq_ok] at h
  obtain ⟨found, hfound, h⟩ := h
  obtain rfl := Except.ok.inj h
  exact (mem_sortedItems).trans (Gathered.mem_gather hfound)

/-- What a lookup in a directory comes to. -/
theorem retrieveArtifact_eq_ok (h : engine.retrieveArtifact disk request limits = .ok result) :
    item ∈ result.items ↔ Gathered.Admitted limits.quota RetrievalItem.size
      (Gathered.made (engine.readArtifact disk request limits (disk.rootOf request))
        (Gathered.reach none
          (RetrievalEngine.artifactNames disk (disk.rootOf request)))) item := by
  unfold RetrievalEngine.retrieveArtifact at h
  simp only [Except.bind_eq_ok] at h
  obtain ⟨root, hroot, found, hfound, h⟩ := h
  obtain ⟨rfl, -, -⟩ := validateRoot_eq_ok hroot
  obtain rfl := Except.ok.inj h
  exact (mem_sortedItems).trans (Gathered.mem_gather hfound)

/-- **What is retrieved lies in the root, and where the request selects.** -/
theorem retrieved_of_execute (h : engine.execute disk request = .ok result) :
    ∃ limits, engine.limits request = .ok limits ∧
      (∃ a ∈ engine.policy.allowedRoots, Within a (disk.rootOf request)) ∧
      (∀ d ∈ engine.policy.deniedRoots, ¬Within d (disk.rootOf request)) ∧
      (∀ item ∈ result.items, Found engine disk request limits item) ∧
      ∀ p, Selects engine disk request p ↔ ∃ item ∈ result.items, item.location = p := by
  unfold RetrievalEngine.execute at h
  simp only [Except.bind_eq_ok] at h
  obtain ⟨_, hvalid, limits, hlimits, h⟩ := h
  have hroot : (∃ a ∈ engine.policy.allowedRoots, Within a (disk.rootOf request)) ∧
      ∀ d ∈ engine.policy.deniedRoots, ¬Within d (disk.rootOf request) := by
    unfold RetrievalEngine.validateRequest at hvalid
    split_ifs at hvalid
    simp only [Except.bind_eq_ok] at hvalid
    obtain ⟨_, -, _, -, root, hroot, -⟩ := hvalid
    obtain ⟨rfl, hroot⟩ := validateRoot_eq_ok hroot
    exact hroot
  refine ⟨limits, hlimits, hroot.1, hroot.2, ?_⟩
  have hone : ∀ limits', engine.limits request = .ok limits' ↔ limits' = limits := fun limits' => by
    rw [hlimits, Except.ok.injEq, eq_comm]
  cases htype : request.sourceType with
  | exactRef | fileExcerpt =>
    rw [htype] at h
    obtain ⟨item, hitems, hlocation, hfound⟩ := retrieveExactOrExcerpt_eq_ok (by simp [htype]) h
    rw [hitems]
    refine ⟨fun item' hmem => List.mem_singleton.mp hmem ▸ hfound, fun p => ?_⟩
    simp [Selects, htype, hlocation, eq_comm]
  | symbolOrTextMatch =>
    rw [htype] at h
    refine ⟨fun item hmem => ?_, fun p => ?_⟩
    · obtain ⟨entry, -, hmake⟩ := ((retrieveSymbol_eq_ok h).mp hmem).exists_make
      exact found_searchFile htype hmake
    · simp only [Selects, htype, hone, exists_eq_left, ← retrieveSymbol_eq_ok h]
      exact exists_congr fun item => and_comm
  | artifactLookup =>
    rw [htype] at h
    refine ⟨fun item hmem => ?_, fun p => ?_⟩
    · obtain ⟨name, -, hmake⟩ := ((retrieveArtifact_eq_ok h).mp hmem).exists_make
      exact found_readArtifact htype hmake
    · simp only [Selects, htype, hone, exists_eq_left, ← retrieveArtifact_eq_ok h]
      exact exists_congr fun item => and_comm

/-- Nothing more is needed of what is retrieved than that it is a file, and in no denied root. -/
theorem authorised_of_clear (h : engine.execute disk request = .ok result)
    (hclear : ∀ item ∈ result.items, disk.isFile item.location = true ∧
      ∀ d ∈ engine.policy.deniedRoots, ¬d <+: item.location) :
    Authorised engine disk request result := by
  obtain ⟨limits, hlimits, ⟨a, ha, hwithin⟩, -, hfound, -⟩ := retrieved_of_execute h
  intro item hmem
  obtain ⟨hfile, hdenied⟩ := hclear item hmem
  obtain ⟨bytes, hnode⟩ := (isFile_iff).mp hfile
  have hin := (hfound item hmem).within
  exact ⟨_, ⟨rfl, bytes, limits, hnode, hlimits, (hfound item hmem).content bytes hnode⟩,
    hin.isPrefix, ⟨a, ha, (hwithin.trans hin).isPrefix⟩, hdenied⟩

/-- Where no denied root lies in the root of a request, and a walk would come upon nothing but
directories, links and regular files, whatever is retrieved is authorised. -/
theorem authorised_of_apart (h : engine.execute disk request = .ok result)
    (hapart : ∀ d ∈ engine.policy.deniedRoots, d ≠ [] ∧ ¬disk.rootOf request <+: d)
    (hplain : request.sourceType = .symbolOrTextMatch → ∀ p bytes, disk.rootOf request <+: p →
      disk.tree.node p ≠ some (.special bytes)) : Authorised engine disk request result := by
  obtain ⟨limits, -, -, hdenied, hfound, -⟩ := retrieved_of_execute h
  refine authorised_of_clear h fun item hmem => ?_
  have hin := (hfound item hmem).within.isPrefix
  constructor
  · by_cases htype : request.sourceType = .symbolOrTextMatch
    · have hread := (hfound item hmem).read
      rw [isFile_iff]
      unfold Disk.read at hread
      split at hread
      next bytes hnode => exact ⟨bytes, hnode⟩
      next bytes hnode => exact absurd hnode (hplain htype _ bytes hin)
      all_goals cases hread
    · exact (hfound item hmem).regular htype
  · intro d hd hprefix
    obtain ⟨hne, hout⟩ := hapart d hd
    rcases List.prefix_or_prefix_of_prefix hprefix hin with hover | hinside
    · exact hdenied d hd (.inr ⟨hne, hover⟩)
    · exact hout hinside

end Read

/-- **What is retrieved is authorised** exactly if nothing that the request selects lies in a denied
root, or is something else than a regular file. -/
theorem retrieval_authorised_iff (engine : RetrievalEngine) (disk : Disk)
    (request : RetrievalRequest) (result : RetrievalResult)
    (h : engine.execute disk request = .ok result) :
    Authorised engine disk request result ↔
      ∀ p, Selects engine disk request p →
        disk.isFile p = true ∧ ∀ d ∈ engine.policy.deniedRoots, ¬d <+: p := by
  obtain ⟨-, -, -, -, -, hselects⟩ := retrieved_of_execute h
  constructor
  · intro hauthorised p hp
    obtain ⟨item, hmem, rfl⟩ := (hselects p).mp hp
    obtain ⟨_, ⟨rfl, bytes, _, hnode, -, -⟩, hpermitted⟩ := hauthorised item hmem
    exact ⟨(isFile_iff).mpr ⟨bytes, hnode⟩, hpermitted.denied⟩
  · intro hclear
    exact authorised_of_clear h fun item hmem => hclear _ ((hselects _).mpr ⟨item, hmem, rfl⟩)

/-! ### A denied root inside of an allowed one -/

/-- A key, in a directory of the project. -/
def nestedDisk : Disk :=
  Disk.ofEntries [(["work"], .dir), (["work", "private"], .dir),
    (["work", "private", "key"], .file [107, 101, 121])] (by decide) (fun _ => false) fun _ => true

/-- An engine that denies that directory; it only searches for words, and decodes one byte at a
time. -/
def nestedEngine : RetrievalEngine where
  policy := { allowedRoots := [["work"]], deniedRoots := [["work", "private"]] }
  compile pattern := some (PyStr.contains pattern)
  decode bytes := bytes.map fun b => Char.ofNat b.toNat
  contentHash := Text.str

def keyRequest : RetrievalRequest where
  jobId := PyStr.ofString "job"
  dispatchId := PyStr.ofString "dispatch"
  sourceType := .exactRef
  authorizedRoot := "/work"
  reference := "private/key"

def keyResult : RetrievalResult where
  items := [{ ref := ["work", "private", "key"], sourceType := .exactRef
              location := ["work", "private", "key"], content := ['k', 'e', 'y']
              contentHash := PyStr.ofString "key", truncated := false }]
  truncated := false
  totalBytes := 3
  provenance := .exactRef

theorem execute_keyRequest : nestedEngine.execute nestedDisk keyRequest = .ok keyResult := by
  decide +kernel

theorem retrieval_authorised_key : Authorised nestedEngine nestedDisk keyRequest keyResult ↔
    ∀ p, Selects nestedEngine nestedDisk keyRequest p →
      nestedDisk.isFile p = true ∧ ∀ d ∈ nestedEngine.policy.deniedRoots, ¬d <+: p :=
  retrieval_authorised_iff nestedEngine nestedDisk keyRequest keyResult execute_keyRequest

theorem denied_file_retrieved : ¬∀ engine disk request result,
    engine.execute disk request = .ok result → Authorised engine disk request result := by
  intro h
  obtain ⟨p, ⟨hlocation, -⟩, hpermitted⟩ :=
    h nestedEngine nestedDisk keyRequest keyResult execute_keyRequest _ (List.mem_singleton.mpr rfl)
  refine hpermitted.denied ["work", "private"] (List.mem_singleton.mpr rfl) ?_
  rw [← hlocation]
  exact ⟨["key"], rfl⟩

end Retrieval

end ArgentTeam
