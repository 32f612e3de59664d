import ArgentTeam.Lib.FileStat
import ArgentTeam.Lib.JoinedOrder
import ArgentTeam.Retrieval.Engine
import ArgentTeam.Workspace.Scope

/-!
# The hash that is expected of a scope

Before the broker applies a patch set, the supervisor computes what the hash of the scope will be;
after a crash it takes the patch set as applied if the hash is that. The one hash is of the files
in the order of their paths, which are compared name by name; the other is of a dictionary from the
texts of paths, in the order of these texts, that is changed under the name each patch gives.

So two things are needed (`predicts_iff`): under each name the last patch does what the last patch
does whose path leads to the same file (`Foreseen`), and no directory has a sibling whose name goes
on with a character in front of the separator, if there are files in the one, and the other is a
file or has one (`Aligned`).
-/

namespace ArgentTeam

namespace Workspace

/-! ### What is hashed -/

/-- `_sha256`. -/
abbrev Digest := PyStr → PyStr

/-- A digit of `bytes.hex`. -/
def hexDigit (n : ℕ) : PyChar := .scalar (Nat.digitChar n)

def hex (bytes : Bytes) : PyStr :=
  bytes.flatMap fun b => [hexDigit (b.toNat / 16), hexDigit (b.toNat % 16)]

/-- `str` of a relative path. -/
def relText (r : CanonPath) : PyStr := PyStr.joined (.scalar '/') (r.map PyStr.ofString)

/-- The line of a file. -/
def part (sha : Digest) (e : CanonPath × Bytes) : PyStr :=
  relText e.1 ++ .scalar ':' :: sha (hex e.2)

def hashParts (sha : Digest) (files : List (CanonPath × Bytes)) : PyStr :=
  sha (PyStr.joined (.scalar '\n') (files.map (part sha)))

/-- Names without a separator in them. -/
def Plain (r : CanonPath) : Prop := ∀ n ∈ r, '/' ∉ n.toList

instance (r : CanonPath) : Decidable (Plain r) := inferInstanceAs (Decidable (∀ n ∈ r, _))

/-- What is in a tree, as the system lists it. A name is a text: those that are no UTF-8, of which
`_sha256` raises, are left out. -/
structure Listing (tree : FileTree File) where
  paths : List CanonPath
  mem_paths : ∀ p, p ∈ paths ↔ (tree.node p).isSome = true
  nodup : paths.Nodup
  plain : ∀ p ∈ paths, Plain p

/-- `read_bytes` of a path, if it `is_file`. -/
def readBytes (tree : FileTree File) (p : CanonPath) : Option Bytes :=
  (tree.read p).map File.content

section Listing

variable {tree : FileTree File}

/-- The order of paths. -/
def partsLe (p q : CanonPath) : Bool := textsLe (p.map PyStr.ofString) (q.map PyStr.ofString)

/-- `sorted(root.rglob("*"))`: links to directories are not followed. -/
def Listing.rglob (listing : Listing tree) (root : CanonPath) : List CanonPath :=
  (listing.paths.filter fun p => root <+: p ∧ p ≠ root).insertionSort fun p q => partsLe p q

/-- The files below a root, by their relative paths. -/
def Listing.files (listing : Listing tree) (root : CanonPath) : List (CanonPath × Bytes) :=
  (listing.rglob root).filterMap fun p =>
    (readBytes tree p).map fun bytes => (p.drop root.length, bytes)

def scopedHash (sha : Digest) (listing : Listing tree) (scopeRoot : PathText) : PyStr :=
  hashParts sha (listing.files (tree.realpath scopeRoot))

/-- A patch, with its path as a text. -/
inductive TextPatch
  | malformed
  /-- A dictionary: a path that is not a text is `none`, and so is a content that is not. -/
  | dict (op : PatchOp) (path : Option String) (content : Option String)

namespace TextPatch

/-- The patch, as the broker takes it. -/
def patch : TextPatch → Patch
  | malformed => .malformed
  | dict op path content => .dict op (path.map Retrieval.pathText) content

/-- What `predicted_hash` does about a patch. -/
def named (broker : Broker) : TextPatch → Option (CanonPath × Option Bytes)
  | dict .write (some path) content =>
    if (Retrieval.pathText path).isAbs then none
    else (broker.decodeContent content).map fun bytes =>
      (PathText.normpath (Retrieval.pathText path), some bytes)
  | dict .delete (some path) _ =>
    if (Retrieval.pathText path).isAbs then none
    else some (PathText.normpath (Retrieval.pathText path), none)
  | _ => none

end TextPatch

/-- The dictionary `files` of `predicted_hash`. -/
def predictedFiles (broker : Broker) (listing : Listing tree) (scopeRoot : PathText)
    (patches : List TextPatch) : Dict CanonPath Bytes :=
  Dict.changeAll
    (Dict.changeAll {}
      ((listing.files (tree.realpath scopeRoot)).map fun e => (e.1, some e.2)))
    (patches.filterMap (TextPatch.named broker))

/-- `sorted(files.items())`: no two keys are the same. -/
def byText (files : Dict CanonPath Bytes) : List (CanonPath × Bytes) :=
  files.entries.insertionSort fun a b => PyStr.le (relText a.1) (relText b.1)

def predictedHash (sha : Digest) (broker : Broker) (listing : Listing tree) (scopeRoot : PathText)
    (patches : List TextPatch) : PyStr :=
  hashParts sha (byText (predictedFiles broker listing scopeRoot patches))

end Listing

/-! ### What is expected, and what happens -/

section Outcome

variable (broker : Broker) (env : Env) (tree : FileTree File) (scopeRoot : PathText)

/-- What the broker does about a patch with a plan: `os.write` may not write everything, and what
is to be deleted is skipped if it was not there at the beginning. -/
def TextPatch.deed (i : ℕ) : TextPatch → Option (CanonPath × Option Bytes)
  | .dict .write (some path) content =>
    (broker.decodeContent content).map fun bytes =>
      (tree.realpath (normTarget scopeRoot (Retrieval.pathText path)),
        some (bytes.take (env.room i)))
  | .dict .delete (some path) _ =>
    if (tree.file? (tree.realpath (normTarget scopeRoot (Retrieval.pathText path)))).isSome then
      some (tree.realpath (normTarget scopeRoot (Retrieval.pathText path)), none)
    else none
  | _ => none

/-- What the broker does about the patches, from a number on. -/
def deeds : ℕ → List TextPatch → List (CanonPath × Option Bytes)
  | _, [] => []
  | i, patch :: patches =>
    (patch.deed broker env tree scopeRoot i).toList ++ deeds (i + 1) patches

variable (patches : List TextPatch)

/-- What can be read under a name afterwards: what the last patch makes of the file that the name
leads to, or else what could be read before. -/
def outcome (r : CanonPath) : Option Bytes :=
  ((tree.leads (tree.realpath scopeRoot ++ r)).bind fun q =>
    lastFor q (deeds broker env tree scopeRoot 0 patches)).getD
      (readBytes tree (tree.realpath scopeRoot ++ r))

/-- **The outcome is foreseen**: the last patch under a name says what the last one does whose path
leads to the same file; where there is no such patch, nothing changes. -/
def Foreseen : Prop :=
  ∀ r ≠ [], (lastFor r (patches.filterMap (TextPatch.named broker))).getD
    (readBytes tree (tree.realpath scopeRoot ++ r)) = outcome broker env tree scopeRoot patches r

/-- **The orders are aligned**: there are no files, one in a directory and the other at or below a
sibling, whose name is that of the directory and then a character in front of the separator. -/
def Aligned : Prop :=
  ∀ r r', (outcome broker env tree scopeRoot patches r).isSome = true →
    (outcome broker env tree scopeRoot patches r').isSome = true →
      ¬PyStr.Overtakes (.scalar '/') (r.map PyStr.ofString) (r'.map PyStr.ofString)

end Outcome

/-! ### What the hash tells apart -/

section Hash

variable {r r' : CanonPath} {files files' : List (CanonPath × Bytes)} {path : String}

theorem scalar_notMem_ofString {c : Char} {s : String} :
    PyChar.scalar c ∉ PyStr.ofString s ↔ c ∉ s.toList := by
  simp [PyStr.ofString]

theorem ofString_injective : Function.Injective PyStr.ofString := fun _ _ h =>
  String.toList_inj.mp (List.map_injective_iff.mpr (fun _ _ => PyChar.scalar.inj) h)

theorem notMem_of_plain (h : Plain r) : ∀ s ∈ r.map PyStr.ofString, PyChar.scalar '/' ∉ s := by
  intro s hs
  obtain ⟨n, hn, rfl⟩ := List.mem_map.mp hs
  exact (scalar_notMem_ofString).mpr (h n hn)

theorem relText_injective (hr : Plain r) (hr' : Plain r') (hne : r ≠ []) (hne' : r' ≠ [])
    (h : relText r = relText r') : r = r' :=
  List.map_injective_iff.mpr ofString_injective
    (PyStr.joined_injective (notMem_of_plain hr) (notMem_of_plain hr') (by simpa using hne)
      (by simpa using hne') h)

theorem hexDigit_injective {m n : ℕ} (hm : m < 16) (hn : n < 16) (h : hexDigit m = hexDigit n) :
    m = n := by
  have hall : ∀ a b : Fin 16, hexDigit a = hexDigit b → a = b := by decide
  exact congrArg Fin.val (hall ⟨m, hm⟩ ⟨n, hn⟩ h)

theorem hex_injective : Function.Injective hex := by
  intro bytes bytes' h
  induction bytes generalizing bytes' with
  | nil =>
    cases bytes' with
    | nil => rfl
    | cons b bytes' => cases h
  | cons b bytes ih =>
    cases bytes' with
    | nil => cases h
    | cons b' bytes' =>
      simp only [hex, List.flatMap_cons, List.cons_append, List.nil_append, List.cons.injEq] at h
      obtain ⟨hhigh, hlow, hrest⟩ := h
      have hb := b.toNat_lt
      have hb' := b'.toNat_lt
      have h16 := hexDigit_injective (by omega) (by omega) hhigh
      have h1 := hexDigit_injective (by omega) (by omega) hlow
      rw [UInt8.toNat_inj.mp (by omega : b.toNat = b'.toNat), ih hrest]

/-- A digest that keeps the text, between two characters that are in no name. -/
def marked : Digest := fun s => .surrogate 0 :: s ++ [.surrogate 0]

theorem surrogate_notMem_relText : PyChar.surrogate 0 ∉ relText r := by
  induction r with
  | nil => simp [relText]
  | cons n r ih =>
    have hn : PyChar.surrogate 0 ∉ PyStr.ofString n := by simp [PyStr.ofString]
    rcases eq_or_ne r [] with rfl | hne
    · simpa [relText] using hn
    · rw [relText, List.map_cons, PyStr.joined_cons (by simpa using hne), List.mem_append,
        List.mem_cons, not_or, not_or]
      exact ⟨hn, PyChar.noConfusion, ih⟩

theorem surrogate_notMem_hex {bytes : Bytes} : PyChar.surrogate 0 ∉ hex bytes := by
  simp [hex, hexDigit]

/-- What is in front of the first of a character, and what is behind it. -/
theorem append_cons_inj {c : PyChar} {u u' v v' : PyStr} (hu : c ∉ u) (hu' : c ∉ u')
    (h : u ++ c :: v = u' ++ c :: v') : u = u' ∧ v = v' := by
  induction u generalizing u' with
  | nil =>
    cases u' with
    | nil => exact ⟨rfl, (List.cons.inj h).2⟩
    | cons d u' => exact absurd ((List.cons.inj h).1 ▸ List.mem_cons_self) hu'
  | cons d u ih =>
    cases u' with
    | nil => exact absurd ((List.cons.inj h).1 ▸ List.mem_cons_self) hu
    | cons d' u' =>
      rw [List.mem_cons, not_or] at hu hu'
      obtain ⟨rfl, hrest⟩ := List.cons.inj h
      obtain ⟨rfl, rfl⟩ := ih hu.2 hu'.2 hrest
      exact ⟨rfl, rfl⟩

/-- A line and what is behind it. -/
theorem part_append {e e' : CanonPath × Bytes} {s s' : PyStr} (hr : Plain e.1) (hr' : Plain e'.1)
    (hne : e.1 ≠ []) (hne' : e'.1 ≠ []) (h : part marked e ++ s = part marked e' ++ s') :
    e = e' ∧ s = s' := by
  have hform : ∀ (e : CanonPath × Bytes) s, part marked e ++ s =
      (relText e.1 ++ [.scalar ':']) ++ .surrogate 0 :: (hex e.2 ++ .surrogate 0 :: s) := by
    intro e s
    simp [part, marked]
  have hname : ∀ r, PyChar.surrogate 0 ∉ relText r ++ [.scalar ':'] := by
    intro r hmem
    rcases List.mem_append.mp hmem with hmem | hmem
    · exact surrogate_notMem_relText hmem
    · exact PyChar.noConfusion (List.mem_singleton.mp hmem)
  rw [hform, hform] at h
  obtain ⟨htext, hrest⟩ := append_cons_inj (hname _) (hname _) h
  obtain ⟨hbytes, hs⟩ := append_cons_inj surrogate_notMem_hex surrogate_notMem_hex hrest
  have hkey := relText_injective hr hr' hne hne' (List.append_cancel_right htext)
  exact ⟨Prod.ext hkey (hex_injective hbytes), hs⟩

/-- The files have names, without separators. -/
def Named (files : List (CanonPath × Bytes)) : Prop := ∀ e ∈ files, Plain e.1 ∧ e.1 ≠ []

theorem joined_part_ne_nil {e : CanonPath × Bytes} :
    PyStr.joined (.scalar '\n') ((e :: files).map (part marked)) ≠ [] := by
  rcases eq_or_ne files [] with rfl | hne
  · simp [part]
  · rw [List.map_cons, PyStr.joined_cons (by simpa using hne)]
    simp [part]

theorem joined_part_injective (h : Named files) (h' : Named files')
    (heq : PyStr.joined (.scalar '\n') (files.map (part marked)) =
      PyStr.joined (.scalar '\n') (files'.map (part marked))) : files = files' := by
  induction files generalizing files' with
  | nil =>
    cases files' with
    | nil => rfl
    | cons e' files' => exact absurd heq.symm joined_part_ne_nil
  | cons e files ih =>
    cases files' with
    | nil => exact absurd heq joined_part_ne_nil
    | cons e' files' =>
      obtain ⟨hplain, hne⟩ := h e List.mem_cons_self
      obtain ⟨hplain', hne'⟩ := h' e' List.mem_cons_self
      have hform : ∀ (e : CanonPath × Bytes) (files : List (CanonPath × Bytes)),
          PyStr.joined (.scalar '\n') ((e :: files).map (part marked)) = part marked e ++
            if files = [] then [] else
              .scalar '\n' :: PyStr.joined (.scalar '\n') (files.map (part marked)) := by
        intro e files
        split
        next hnil => simp [hnil]
        next hcons => rw [List.map_cons, PyStr.joined_cons (by simpa using hcons)]
      rw [hform, hform] at heq
      obtain ⟨rfl, hrest⟩ := part_append hplain hplain' hne hne' heq
      split at hrest
      next hnil =>
        split at hrest
        next hnil' => rw [hnil, hnil']
        · cases hrest
      · split at hrest
        · cases hrest
        · rw [ih (fun x hx => h x (List.mem_cons_of_mem _ hx))
            (fun x hx => h' x (List.mem_cons_of_mem _ hx)) (List.cons.inj hrest).2]

/-- **What the hash tells apart**: by every digest the hashes are the same only if the files are,
in their order. -/
theorem hashParts_inj (h : Named files) (h' : Named files') :
    (∀ sha, hashParts sha files = hashParts sha files') ↔ files = files' := by
  constructor
  · intro hall
    have hmarked := (List.cons.inj (hall marked)).2
    exact joined_part_injective h h' (List.append_cancel_right hmarked)
  · rintro rfl sha
    rfl

end Hash

/-! ### The files of a scope -/

section Files

variable {tree : FileTree File} {listing : Listing tree} {root r r' : CanonPath} {bytes : Bytes}
  {d : Dict CanonPath Bytes}

theorem partsLe_append : partsLe (root ++ r) (root ++ r') = partsLe r r' := by
  induction root with
  | nil => rfl
  | cons n root ih => simpa [partsLe, textsLe] using ih

variable {p : CanonPath}

theorem mem_rglob : p ∈ listing.rglob root ↔
    (tree.node p).isSome ∧ root <+: p ∧ p ≠ root := by
  rw [Listing.rglob, List.mem_insertionSort, List.mem_filter, listing.mem_paths, decide_eq_true_eq]

theorem isSome_node_of_readBytes (h : readBytes tree p = some bytes) :
    (tree.node p).isSome := by
  obtain ⟨f, hf, -⟩ := Option.map_eq_some_iff.mp h
  exact FileTree.isSome_node_of_read hf

/-- **The files below a root** are those that can be read there. -/
theorem mem_files : (r, bytes) ∈ listing.files root ↔
    r ≠ [] ∧ readBytes tree (root ++ r) = some bytes := by
  rw [Listing.files, List.mem_filterMap]
  constructor
  · rintro ⟨p, hp, hread⟩
    obtain ⟨-, ⟨s, rfl⟩, hne⟩ := (mem_rglob).mp hp
    obtain ⟨b, hb, heq⟩ := Option.map_eq_some_iff.mp hread
    rw [List.drop_left] at heq
    obtain ⟨rfl, rfl⟩ := Prod.mk.inj heq
    exact ⟨by simpa using hne, hb⟩
  · rintro ⟨hne, hread⟩
    have hmem : root ++ r ∈ listing.rglob root :=
      (mem_rglob).mpr ⟨isSome_node_of_readBytes hread, List.prefix_append _ _, by simpa using hne⟩
    refine ⟨root ++ r, hmem, ?_⟩
    rw [hread, List.drop_left]
    rfl

theorem named_files : Named (listing.files root) := by
  rintro ⟨r, bytes⟩ he
  obtain ⟨hne, hread⟩ := (mem_files).mp he
  have hplain := listing.plain _ ((listing.mem_paths _).mpr (isSome_node_of_readBytes hread))
  exact ⟨fun n hn => hplain n (List.mem_append_right _ hn), hne⟩

/-- They are in the order of their paths. -/
theorem pairwise_files : (listing.files root).Pairwise fun a b => partsLe a.1 b.1 = true := by
  have htotal : Std.Total fun p q : CanonPath => partsLe p q = true :=
    ⟨fun _ _ => textsLe_total _ _⟩
  have htrans : IsTrans CanonPath fun p q => partsLe p q = true := ⟨fun _ _ _ => textsLe_trans⟩
  have hsorted : (listing.rglob root).Pairwise fun p q => partsLe p q = true :=
    List.pairwise_insertionSort _ _
  refine List.Pairwise.filterMap (R := fun p q => p ∈ listing.rglob root ∧ q ∈ listing.rglob root ∧
    partsLe p q = true) _ (fun p q h e he e' he' => ?_) (List.Pairwise.and_mem.mp hsorted)
  obtain ⟨hp, hq, hle⟩ := h
  obtain ⟨-, ⟨s, rfl⟩, -⟩ := (mem_rglob).mp hp
  obtain ⟨-, ⟨s', rfl⟩, -⟩ := (mem_rglob).mp hq
  obtain ⟨_, -, rfl⟩ := Option.map_eq_some_iff.mp he
  obtain ⟨_, -, rfl⟩ := Option.map_eq_some_iff.mp he'
  rwa [List.drop_left, List.drop_left, ← partsLe_append]

/-- None comes twice. -/
theorem nodup_files : ((listing.files root).map Prod.fst).Nodup := by
  have hnodup : (listing.rglob root).Nodup :=
    (List.perm_insertionSort _ _).nodup_iff.mpr (listing.nodup.filter _)
  rw [Listing.files, List.map_filterMap]
  rw [List.Nodup, List.pairwise_filterMap]
  refine (List.Pairwise.and_mem.mp hnodup).imp ?_
  rintro p q ⟨hp, hq, hne⟩ r hr r' hr' rfl
  obtain ⟨-, ⟨s, rfl⟩, -⟩ := (mem_rglob).mp hp
  obtain ⟨-, ⟨s', rfl⟩, -⟩ := (mem_rglob).mp hq
  simp only [Option.map_map, Function.comp_def, Option.map_eq_some_iff, List.drop_left] at hr hr'
  obtain ⟨_, -, rfl⟩ := hr
  obtain ⟨_, -, rfl⟩ := hr'
  exact hne rfl

theorem mem_byText : (r, bytes) ∈ byText d ↔ d.get? r = some bytes := by
  rw [byText, List.mem_insertionSort, Dict.mem_entries_iff]

theorem pairwise_byText :
    (byText d).Pairwise fun a b => PyStr.le (relText a.1) (relText b.1) = true := by
  have htotal : Std.Total fun a b : CanonPath × Bytes =>
      PyStr.le (relText a.1) (relText b.1) = true := ⟨fun _ _ => PyStr.le_total _ _⟩
  have htrans : IsTrans (CanonPath × Bytes) fun a b =>
      PyStr.le (relText a.1) (relText b.1) = true := ⟨fun _ _ _ => PyStr.le_trans⟩
  exact List.pairwise_insertionSort _ _

theorem nodup_byText : (byText d).Nodup :=
  (List.perm_insertionSort _ _).nodup_iff.mpr d.nodup_entries

theorem eq_of_mem_files {a b : CanonPath × Bytes} (ha : a ∈ listing.files root)
    (hb : b ∈ listing.files root) (h : a.1 = b.1) : a = b := by
  have hab := ((mem_files).mp ha).2.symm.trans (h ▸ ((mem_files).mp hb).2)
  exact Prod.ext h (Option.some.inj hab)

theorem le_relText_iff (hr' : Plain r') (h : partsLe r r') :
    PyStr.le (relText r) (relText r') ↔
      ¬PyStr.Overtakes (.scalar '/') (r.map PyStr.ofString) (r'.map PyStr.ofString) :=
  PyStr.le_joined_iff (notMem_of_plain hr') h

/-- **Where the two orders agree** on the files of a scope. -/
theorem agree_iff : (∀ a ∈ listing.files root, ∀ b ∈ listing.files root,
      partsLe a.1 b.1 → PyStr.le (relText a.1) (relText b.1)) ↔
    ∀ r r', (readBytes tree (root ++ r)).isSome →
      (readBytes tree (root ++ r')).isSome →
        ¬PyStr.Overtakes (.scalar '/') (r.map PyStr.ofString) (r'.map PyStr.ofString) := by
  constructor
  · intro hagree r r' hr hr' hover
    obtain ⟨bytes, hbytes⟩ := Option.isSome_iff_exists.mp hr
    obtain ⟨bytes', hbytes'⟩ := Option.isSome_iff_exists.mp hr'
    obtain ⟨pre, s, rest, c, u, rest', hss, -, hts, -⟩ := id hover
    have hmem : (r, bytes) ∈ listing.files root :=
      (mem_files).mpr ⟨by rintro rfl; simp at hss, hbytes⟩
    have hmem' : (r', bytes') ∈ listing.files root :=
      (mem_files).mpr ⟨by rintro rfl; simp at hts, hbytes'⟩
    have hle : partsLe r r' = true := PyStr.textsLe_of_overtakes hover
    exact (le_relText_iff (named_files _ hmem').1 hle).mp (hagree _ hmem _ hmem' hle) hover
  · rintro haligned ⟨r, bytes⟩ hmem ⟨r', bytes'⟩ hmem' hle
    refine (le_relText_iff (named_files _ hmem').1 hle).mpr (haligned r r' ?_ ?_)
    · rw [((mem_files).mp hmem).2]
      rfl
    · rw [((mem_files).mp hmem').2]
      rfl

theorem mem_files_iff_mem_byText (hd : Named d.entries) :
    (∀ e, e ∈ listing.files root ↔ e ∈ byText d) ↔
      ∀ r ≠ [], d.get? r = readBytes tree (root ++ r) := by
  constructor
  · intro hmem r hr
    ext bytes
    rw [← mem_byText, ← hmem, mem_files]
    exact ⟨And.right, fun hread => ⟨hr, hread⟩⟩
  · rintro hget ⟨r, bytes⟩
    rw [mem_files, mem_byText]
    constructor
    · rintro ⟨hr, hread⟩
      rwa [hget r hr]
    · intro hbytes
      have hr : r ≠ [] := (hd _ (Dict.mem_entries_iff.mpr hbytes)).2
      exact ⟨hr, hget r hr ▸ hbytes⟩

/-- **Where a sorted dictionary lists the files of a scope**: it has the same under each name, and
the orders are the same. -/
theorem files_eq_byText_iff (hd : Named d.entries) :
    listing.files root = byText d ↔
      (∀ r ≠ [], d.get? r = readBytes tree (root ++ r)) ∧
        ∀ r r', (readBytes tree (root ++ r)).isSome →
          (readBytes tree (root ++ r')).isSome →
            ¬PyStr.Overtakes (.scalar '/') (r.map PyStr.ofString) (r'.map PyStr.ofString) := by
  have hparts : ∀ a ∈ listing.files root, ∀ b ∈ listing.files root, partsLe a.1 b.1 = true →
      partsLe b.1 a.1 = true → a = b := fun a ha b hb hab hba =>
    eq_of_mem_files ha hb (List.map_injective_iff.mpr ofString_injective (textsLe_antisymm hab hba))
  have htexts : ∀ a ∈ listing.files root, ∀ b ∈ listing.files root,
      PyStr.le (relText a.1) (relText b.1) = true → PyStr.le (relText b.1) (relText a.1) = true →
        a = b := by
    intro a ha b hb hab hba
    obtain ⟨hplain, hne⟩ := named_files a ha
    obtain ⟨hplain', hne'⟩ := named_files b hb
    exact eq_of_mem_files ha hb
      (relText_injective hplain hplain' hne hne' (PyStr.le_antisymm hab hba))
  rw [eq_iff_of_pairwise pairwise_files pairwise_byText (nodup_files.of_map _) nodup_byText hparts
    htexts fun a => PyStr.le_refl _, mem_files_iff_mem_byText hd, agree_iff]

end Files

/-! ### The dictionary -/

section Predicted

variable {broker : Broker} {tree : FileTree File} {listing : Listing tree} {scopeRoot : PathText}
  {patches : List TextPatch} {r : CanonPath} {path : String} {o : Option Bytes}

theorem plain_splitOn {l : List Char} : ∀ part ∈ l.splitOn '/', '/' ∉ part := by
  induction l with
  | nil => simp
  | cons c l ih =>
    rw [List.splitOn_cons_eq_if_modifyHead]
    split
    · exact List.forall_mem_cons.mpr ⟨List.not_mem_nil, ih⟩
    next hc =>
      obtain ⟨part, parts, heq⟩ := List.exists_cons_of_ne_nil (List.splitOn_ne_nil '/' l)
      rw [heq] at ih ⊢
      rw [List.modifyHead_cons]
      refine List.forall_mem_cons.mpr ⟨?_, fun p hp => ih p (List.mem_cons_of_mem _ hp)⟩
      rw [List.mem_cons, not_or]
      exact ⟨fun h => hc (beq_iff_eq.mpr h.symm), ih part List.mem_cons_self⟩

theorem plain_pathText : Plain (Retrieval.pathText path) := by
  intro n hn
  obtain ⟨part, hpart, rfl⟩ := List.mem_map.mp hn
  rw [String.toList_ofList]
  exact plain_splitOn part hpart

/-- Normalising makes up no names. -/
theorem mem_foldl_push {absolute : Bool} {p names : List String} {n : String}
    (h : n ∈ p.foldl (PathText.push absolute) names) : n ∈ names ∨ n ∈ p := by
  induction p generalizing names with
  | nil => exact .inl h
  | cons part p ih =>
    rcases ih h with hn | hn
    · unfold PathText.push at hn
      split at hn
      · exact .inl hn
      · split at hn
        · rcases List.mem_append.mp hn with hn | hn
          · exact .inl hn
          · rw [List.mem_singleton.mp hn]
            exact .inr List.mem_cons_self
        · exact .inl (List.mem_of_mem_dropLast hn)
    · exact .inr (List.mem_cons_of_mem _ hn)

/-- The keys of the patches have names, without separators. -/
theorem plain_named {patch : TextPatch} (h : patch.named broker = some (r, o)) :
    Plain r ∧ r ≠ [] := by
  have hkey : ∃ path, (Retrieval.pathText path).isAbs = false ∧
      r = PathText.normpath (Retrieval.pathText path) := by
    unfold TextPatch.named at h
    split at h
    · split at h
      · cases h
      next hrel =>
        obtain ⟨_, -, heq⟩ := Option.map_eq_some_iff.mp h
        exact ⟨_, Bool.eq_false_iff.mpr hrel, (Prod.mk.inj heq).1.symm⟩
    · split at h
      · cases h
      next hrel =>
        exact ⟨_, Bool.eq_false_iff.mpr hrel, (Prod.mk.inj (Option.some.inj h)).1.symm⟩
    · cases h
  obtain ⟨path, hrel, rfl⟩ := hkey
  simp only [PathText.normpath, hrel, Bool.false_eq_true, if_false]
  split
  · exact ⟨by simp [Plain], by simp⟩
  next hne =>
    refine ⟨fun n hn => ?_, hne⟩
    rcases mem_foldl_push hn with hn | hn
    · cases hn
    · exact plain_pathText n hn

/-- **What is under a key** is what the last patch under this name says. -/
theorem get?_predictedFiles : (predictedFiles broker listing scopeRoot patches).get? r =
    (lastFor r (patches.filterMap (TextPatch.named broker))).getD
      (if r = [] then none else readBytes tree (tree.realpath scopeRoot ++ r)) := by
  have hfiles : lastFor r (listing.files (tree.realpath scopeRoot)) =
      if r = [] then none else readBytes tree (tree.realpath scopeRoot ++ r) := by
    ext bytes
    rw [lastFor_eq_some_iff nodup_files, mem_files]
    split
    next hr => simp [hr]
    next hr => simp [hr]
  rw [predictedFiles, Dict.get?_changeAll, Dict.get?_changeAll, lastFor_map, hfiles]
  congr 1
  split
  · rfl
  · cases readBytes tree (tree.realpath scopeRoot ++ r) <;> rfl

/-- The keys have names, without separators. -/
theorem named_predictedFiles : Named (predictedFiles broker listing scopeRoot patches).entries := by
  rintro ⟨r, bytes⟩ he
  rw [Dict.mem_entries_iff, get?_predictedFiles] at he
  cases hlast : lastFor r (patches.filterMap (TextPatch.named broker)) with
  | some o =>
    obtain ⟨patch, -, hpatch⟩ := List.mem_filterMap.mp (mem_of_lastFor hlast)
    exact plain_named hpatch
  | none =>
    rw [hlast, Option.getD_none] at he
    split at he
    · cases he
    next hr =>
      have hmem : (r, bytes) ∈ listing.files (tree.realpath scopeRoot) := mem_files.mpr ⟨hr, he⟩
      exact named_files _ hmem

end Predicted

/-! ### The files afterwards -/

section After

variable {broker : Broker} {env : Env} {tree : FileTree File} {scopeRoot : PathText}
  {root : CanonPath} {patches : List TextPatch} {source : String} {result : BrokerResult}
  {after : World} {i : ℕ} {plan : Plan} {plans : List Plan}

theorem deed_eq_of_planPatch {patch : TextPatch}
    (h : broker.planPatch env tree scopeRoot root i patch.patch = .ok plan) :
    patch.deed broker env tree scopeRoot i =
      (plan.change env i).map fun c => (c.1, c.2.map File.content) := by
  obtain ⟨heffect, hplanned⟩ := planned_of_planPatch h
  have htype := hplanned.type
  unfold TextPatch.deed
  split
  next path content =>
    obtain ⟨bytes, hbytes, heq⟩ := Option.map_eq_some_iff.mp heffect
    rw [hbytes]
    cases plan with
    | write target written =>
      cases heq
      rfl
    | delete | skip => cases heq
  next path content =>
    have heq := Option.some.inj heffect
    cases plan with
    | write target written => cases heq
    | delete target =>
      cases heq
      exact if_pos htype
    | skip target =>
      cases heq
      refine if_neg ?_
      rw [FileTree.file?, show tree.node _ = none from htype]
      exact Bool.false_ne_true
  next hwrite hdelete =>
    -- there is no plan for anything else
    cases patch with
    | malformed => cases heffect
    | dict op path content =>
      cases path with
      | none => cases op <;> cases heffect
      | some path =>
        cases op with
        | write => exact (hwrite _ _ rfl).elim
        | delete => exact (hdelete _ _ rfl).elim
        | other => cases heffect

theorem deeds_eq_of_planAll
    (h : broker.planAll env tree scopeRoot root i (patches.map TextPatch.patch) = .ok ([], plans)) :
    deeds broker env tree scopeRoot i patches =
      ((changes env i plans).map Prod.snd).map fun c => (c.1, c.2.map File.content) := by
  induction patches generalizing i plans with
  | nil =>
    cases h
    rfl
  | cons patch patches ih =>
    rw [List.map_cons, Broker.planAll] at h
    split at h
    · cases h
    · cases hrest : broker.planAll env tree scopeRoot root (i + 1)
          (patches.map TextPatch.patch) with
      | error stop =>
        rw [hrest] at h
        cases h
      | ok rest =>
        rw [hrest] at h
        cases h
    next plan hplan =>
      cases hrest : broker.planAll env tree scopeRoot root (i + 1)
          (patches.map TextPatch.patch) with
      | error stop =>
        rw [hrest] at h
        cases h
      | ok rest =>
        obtain ⟨errors, plans'⟩ := rest
        rw [hrest] at h
        cases h
        rw [deeds, deed_eq_of_planPatch hplan, ih hrest, changes]
        cases plan.change env i <;> rfl

/-- **What is read afterwards**, if the broker has reported no error. -/
theorem readBytes_after
    (h : broker.applyPatchSet env scopeRoot (patches.map TextPatch.patch) .implementer source
      { tree := tree } = (.ok result, after)) (herrors : result.errors = []) :
    FileTree.SameDirs tree after.tree ∧ readBytes after.tree p =
      ((tree.leads p).bind fun q => lastFor q (deeds broker env tree scopeRoot 0 patches)).getD
        (readBytes tree p) := by
  obtain ⟨root, plans, hagreed, htree, hslots⟩ := executed_of_applyPatchSet h herrors
  rw [execAll] at htree
  have hset : ∀ e ∈ (changes env 0 plans).map Prod.snd, tree.Settable e := by
    intro e he
    obtain ⟨c, hc, rfl⟩ := List.mem_map.mp he
    exact (hslots c hc).settable
  have hdeeds := deeds_eq_of_planAll (agreed_eq_some.mp hagreed).2.2
  refine ⟨htree ▸ FileTree.sameDirs_setAll, ?_⟩
  rw [readBytes, htree, FileTree.read_setAll hset, hdeeds, readBytes]
  cases tree.leads p with
  | none => rfl
  | some q =>
    rw [Option.bind_some, Option.bind_some, lastFor_map]
    cases lastFor q ((changes env 0 plans).map Prod.snd) <;> rfl

/-- **Where the expected hash is that of the files afterwards.** -/
theorem predicts_iff {before : Listing tree} {listing : Listing after.tree}
    (h : broker.applyPatchSet env scopeRoot (patches.map TextPatch.patch) .implementer source
      { tree := tree } = (.ok result, after)) (herrors : result.errors = []) :
    (∀ sha, predictedHash sha broker before scopeRoot patches =
        scopedHash sha listing scopeRoot) ↔
      Foreseen broker env tree scopeRoot patches ∧ Aligned broker env tree scopeRoot patches := by
  have hroot : after.tree.realpath scopeRoot = tree.realpath scopeRoot :=
    (readBytes_after (p := []) h herrors).1.realpath scopeRoot
  have hafter : ∀ r, readBytes after.tree (tree.realpath scopeRoot ++ r) =
      outcome broker env tree scopeRoot patches r := fun r => (readBytes_after h herrors).2
  have hhash : (∀ sha, predictedHash sha broker before scopeRoot patches =
      scopedHash sha listing scopeRoot) ↔
      byText (predictedFiles broker before scopeRoot patches) =
        listing.files (tree.realpath scopeRoot) := by
    rw [← hroot]
    exact hashParts_inj (fun e he => named_predictedFiles e ((List.mem_insertionSort _).mp he))
      named_files
  rw [hhash, eq_comm, files_eq_byText_iff named_predictedFiles, Aligned, Foreseen]
  simp only [hafter]
  refine and_congr (forall₂_congr fun r hr => ?_) Iff.rfl
  rw [get?_predictedFiles, if_neg hr]

end After

/-! ### A directory and its sibling -/

section Siblings

variable {entries : List (CanonPath × FileNode File)}

/-- The listing of a tree that is given by what is in it. -/
def Listing.ofEntries (h : FileTree.WellFormed entries)
    (hnodup : ([] :: entries.map Prod.fst).Nodup) (hplain : ∀ e ∈ entries, Plain e.1) :
    Listing (.ofEntries entries h) where
  paths := [] :: entries.map Prod.fst
  mem_paths := by
    intro p
    show p ∈ [] :: entries.map Prod.fst ↔ (FileTree.entryAt entries p).isSome = true
    rw [FileTree.entryAt, List.mem_cons]
    split
    next hp => simp [hp]
    next hp => simp [hp]
  nodup := hnodup
  plain := by
    intro p hp
    rcases List.mem_cons.mp hp with rfl | hp
    · exact fun n hn => absurd hn List.not_mem_nil
    · obtain ⟨e, he, rfl⟩ := List.mem_map.mp hp
      exact hplain e he

end Siblings

/-- A file in a directory, and one next to the directory. -/
def siblingEntries : List (CanonPath × FileNode File) :=
  [(["scope"], .dir), (["scope", "a"], .dir), (["scope", "a", "b"], .file ⟨[], 0o644⟩),
    (["scope", "a-b"], .file ⟨[], 0o644⟩)]

/-- The tree of these files. -/
def siblings : FileTree File := .ofEntries siblingEntries (by decide)

def siblingListing : Listing siblings := .ofEntries (by decide) (by decide) (by decide)

theorem applyPatchSet_siblings :
    smallBroker.applyPatchSet (calmEnv ".argent-staging-0") ["", "scope"] [] .implementer
      controllerSource { tree := siblings } = (.ok {}, { tree := siblings }) := by
  rw [Broker.applyPatchSet]
  rfl

/-- The empty patch set is not recognised: by every digest, the two hashes are those of different
texts. -/
theorem siblings_unrecognised :
    smallBroker.applyPatchSet (calmEnv ".argent-staging-0") ["", "scope"]
        (List.map TextPatch.patch []) .implementer controllerSource { tree := siblings } =
      (.ok {}, { tree := siblings }) ∧
    (∀ sha, ∃ s s', s ≠ s' ∧
      predictedHash sha smallBroker siblingListing ["", "scope"] [] = sha s ∧
        scopedHash sha siblingListing ["", "scope"] = sha s') ∧
    ¬∀ sha, predictedHash sha smallBroker siblingListing ["", "scope"] [] =
      scopedHash sha siblingListing ["", "scope"] := by
  have hpredicted : byText (predictedFiles smallBroker siblingListing ["", "scope"] []) =
      [(["a-b"], []), (["a", "b"], [])] := by decide
  have hscoped : siblingListing.files (siblings.realpath ["", "scope"]) =
      [(["a", "b"], []), (["a-b"], [])] := by decide
  have hdiffer : ∀ sha, PyStr.joined (.scalar '\n')
      (List.map (part sha) [(["a-b"], []), (["a", "b"], [])]) ≠
        PyStr.joined (.scalar '\n') (List.map (part sha) [(["a", "b"], []), (["a-b"], [])]) := by
    intro sha h
    simp [part, relText, PyStr.joined, PyStr.ofString, List.intercalate] at h
  refine ⟨applyPatchSet_siblings, fun sha => ⟨_, _, hdiffer sha, ?_, ?_⟩, fun hall => ?_⟩
  · rw [predictedHash, hpredicted, hashParts]
  · rw [scopedHash, hscoped, hashParts]
  · have hmarked := hall marked
    rw [predictedHash, scopedHash, hpredicted, hscoped] at hmarked
    exact hdiffer marked (List.append_cancel_right (List.cons.inj hmarked).2)

/-! ### A file that is written -/

/-- What is listed when there is a file at a path. -/
def Listing.put {tree : FileTree File} (listing : Listing tree) {p : CanonPath} {f : File}
    (h : tree.Writable p) (hplain : Plain p) : Listing (tree.put p f) where
  paths := p :: listing.paths.filter (· ≠ p)
  mem_paths q := by
    rw [FileTree.node_put h, List.mem_cons, List.mem_filter, listing.mem_paths]
    by_cases hq : q = p <;> simp [hq]
  nodup := List.nodup_cons.mpr ⟨by simp, listing.nodup.filter _⟩
  plain := by
    intro q hq
    rcases List.mem_cons.mp hq with rfl | hq
    · exact hplain
    · exact listing.plain q (List.mem_filter.mp hq).1

def writesNew : List TextPatch := [.dict .write (some "new") (some "")]

def written : Except Stop BrokerResult × World :=
  smallBroker.applyPatchSet (calmEnv ".argent-staging-0") ["", "scope"]
    (writesNew.map TextPatch.patch) .implementer controllerSource { tree := siblings }

theorem written_eq :
    written = (.ok { applied := [⟨.write, some ["new"], none⟩] }, written.2) := by
  refine Prod.ext ?_ rfl
  decide +kernel

theorem tree_written : written.2.tree = siblings.put ["scope", "new"] ⟨[], 0o600⟩ := by
  obtain ⟨root, plans, hagreed, htree, -⟩ := executed_of_applyPatchSet written_eq rfl
  have hchanges : (agreed smallBroker (calmEnv ".argent-staging-0") siblings ["", "scope"]
      (writesNew.map TextPatch.patch) .implementer controllerSource).map
        (fun r => changes (calmEnv ".argent-staging-0") 0 r.2) =
      some [(0, ["scope", "new"], some ⟨[], 0o600⟩)] := by
    decide +kernel
  rw [hagreed, Option.map_some, Option.some.injEq] at hchanges
  rw [htree, execAll, hchanges]
  rfl

/-- The two hashes, when a file is written next to these. -/
theorem predicts_written : ∃ listing : Listing written.2.tree,
    (∀ sha, predictedHash sha smallBroker siblingListing ["", "scope"] writesNew =
        scopedHash sha listing ["", "scope"]) ↔
      Foreseen smallBroker (calmEnv ".argent-staging-0") siblings ["", "scope"] writesNew ∧
        Aligned smallBroker (calmEnv ".argent-staging-0") siblings ["", "scope"] writesNew :=
  ⟨tree_written ▸ siblingListing.put (p := ["scope", "new"]) (by decide) (by decide),
    predicts_iff written_eq rfl⟩

end Workspace

end ArgentTeam
