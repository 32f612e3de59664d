import ArgentTeam.Lib.JoinedOrder
import ArgentTeam.Lib.JsonRoundTrip
import ArgentTeam.Scheduler.Concurrency

/-!
# Path roots that are stored

The path roots of a footprint are resolved segment by segment before they are stored, as a JSON
list, and once more when two footprints are compared. The first resolution strips the path as a
whole and refuses what leaves the repository. The second one strips what the first has left, and
that need not be without blanks at its ends: a segment is taken as it is, and the first or the last
one may begin or end with blanks. To strip these can make another path of a root, or leave nothing
of it, and a pair of surrogates is one character when it is read back.

So two lists conflict exactly if some roots overlap after the blanks at their ends have gone
(`conflict_iff`), and that is what was declared where this makes no difference (`kept_iff`).
-/

namespace ArgentTeam

namespace Scheduler

open JsonText

/-! ### Storing -/

def maxPathRoots : ℕ := 64

def maxRootLen : ℕ := 512

/-- `path.replace("\\", "/")`. -/
def slashed (path : PyStr) : PyStr := path.map fun c => if c = .scalar '\\' then slash else c

/-- One segment of a root; `none` where the root leaves the repository. -/
def rootSegment (out : List PyStr) (seg : PyStr) : Option (List PyStr) :=
  if seg = [] ∨ seg = PyStr.ofString "." then some out
  else if seg = PyStr.ofString ".." then if out = [] then none else some out.dropLast
  else some (out ++ [seg])

/-- The segments of a root, resolved. -/
def rootSegments (path : PyStr) : Option (List PyStr) :=
  ((slashed path.strip).splitOn slash).foldlM rootSegment []

section Stored

variable (isAlpha : PyChar → Bool)

/-- A path that begins with a slash, a backslash or the letter of a drive. -/
def isAbsolute : PyStr → Bool
  | [] => false
  | [c] => c = slash || c = .scalar '\\'
  | c :: d :: _ => c = slash || c = .scalar '\\' || (isAlpha c && d = .scalar ':')

/-- `_validate_rel_root`; `none` for a `ValueError`. -/
def validateRelRoot (path : PyStr) : Option PyStr :=
  if path.strip = [] ∨ isAbsolute isAlpha path.strip = true then none
  else do
    let out ← rootSegments path
    let norm := PyStr.joined slash out
    if norm = [] ∨ norm = PyStr.ofString ".." ∨ (PyStr.ofString "../").startsWith norm = true then
      none
    else some norm

/-- What is stored of a root; `none` for a `ValueError`. -/
def storedRoot (path : PyStr) : Option PyStr := do
  let norm ← validateRelRoot isAlpha path
  if norm.length ≤ maxRootLen then some norm else none

/-- `serialize_footprint_paths`, of a list; `none` for a `ValueError`. -/
def serializeFootprintPaths (roots : List PyStr) : Option (List Char) :=
  if maxPathRoots < roots.length then none
  else do
    let out ← roots.mapM (storedRoot isAlpha)
    some (Json.arr (out.map Json.str)).dumps

/-- `json.loads`: a list can be followed, whatever the depth. -/
def footprintDecoder (float : List Char → PyFloat) (depth : ℕ) : Decoder := .plain float (depth + 1)

def parseFootprintList (d : Decoder) (raw : List Char) : Except Fault (List PyStr) :=
  if raw = [] then .ok []
  else match loads d raw with
    | .ok (.arr items) => .ok (items.filterMap fun
      | .str s => if s.strip ≠ [] then some s else none
      | _ => none)
    | .ok _ | .error .value => .ok []
    | .error .recursion => .error .recursion

end Stored

/-! ### Blanks at the ends -/

/-- The last segment without the blanks behind it. -/
def trimLast : List PyStr → List PyStr
  | [] => []
  | [s] => [(s.reverse.dropWhile PyStr.isSpace).reverse]
  | s :: t :: ss => s :: trimLast (t :: ss)

/-- The segments without the blanks at the two ends. -/
def trimEnds : List PyStr → List PyStr
  | [] => []
  | s :: ss => trimLast (s.dropWhile PyStr.isSpace :: ss)

/-- What is left of a root: its surrogates are put together, the blanks at its ends go, and what
that makes a segment empty, `.` or `..` is resolved. -/
def leftOf (segs : List PyStr) : List PyStr :=
  (trimEnds (segs.map joinPairs)).foldl resolveSegment []

section Blanks

variable {s t : PyStr} {ss : List PyStr}

theorem isSpace_slash : PyStr.isSpace slash = false := by decide

theorem dropWhile_append_slash (s t : PyStr) : (s ++ slash :: t).dropWhile PyStr.isSpace =
    s.dropWhile PyStr.isSpace ++ slash :: t := by
  have hslash : (slash :: t).dropWhile PyStr.isSpace = slash :: t :=
    List.dropWhile_cons_of_neg (by simp [isSpace_slash])
  induction s with
  | nil => exact hslash
  | cons c s ih =>
    rw [List.cons_append, List.dropWhile_cons, List.dropWhile_cons]
    split
    · exact ih
    · rfl

theorem rstrip_append_slash (s t : PyStr) :
    ((s ++ slash :: t).reverse.dropWhile PyStr.isSpace).reverse =
      s ++ slash :: (t.reverse.dropWhile PyStr.isSpace).reverse := by
  have hreverse : (s ++ slash :: t).reverse = t.reverse ++ slash :: s.reverse := by simp
  rw [hreverse, dropWhile_append_slash]
  simp

theorem lstrip_joined (s : PyStr) (ss : List PyStr) :
    (PyStr.joined slash (s :: ss)).dropWhile PyStr.isSpace =
      PyStr.joined slash (s.dropWhile PyStr.isSpace :: ss) := by
  rcases eq_or_ne ss [] with rfl | hne
  · simp
  · rw [PyStr.joined_cons hne, PyStr.joined_cons hne, dropWhile_append_slash]

theorem rstrip_joined (hne : ss ≠ []) :
    ((PyStr.joined slash ss).reverse.dropWhile PyStr.isSpace).reverse =
      PyStr.joined slash (trimLast ss) := by
  induction ss with
  | nil => exact absurd rfl hne
  | cons s ss ih =>
    rcases ss with - | ⟨t, ss⟩
    · simp [trimLast]
    · have htrim : trimLast (t :: ss) ≠ [] := by
        rcases ss with - | ⟨u, ss⟩ <;> simp [trimLast]
      rw [PyStr.joined_cons (by simp), rstrip_append_slash, ih (by simp), trimLast,
        PyStr.joined_cons htrim]

theorem strip_joined (hne : ss ≠ []) :
    (PyStr.joined slash ss).strip = PyStr.joined slash (trimEnds ss) := by
  rcases ss with - | ⟨s, ss⟩
  · exact absurd rfl hne
  · rw [PyStr.strip, lstrip_joined, rstrip_joined (by simp), trimEnds]

theorem trimLast_ne_nil (hne : ss ≠ []) : trimLast ss ≠ [] := by
  rcases ss with - | ⟨s, - | ⟨t, ss⟩⟩
  · exact absurd rfl hne
  · simp [trimLast]
  · simp [trimLast]

theorem trimEnds_ne_nil (hne : ss ≠ []) : trimEnds ss ≠ [] := by
  rcases ss with - | ⟨s, ss⟩
  · exact absurd rfl hne
  · exact trimLast_ne_nil (by simp)

variable {c : PyChar}

theorem mem_of_mem_dropWhile (h : c ∈ s.dropWhile PyStr.isSpace) : c ∈ s :=
  (List.dropWhile_sublist _).subset h

theorem slash_notMem_trimLast (h : ∀ s ∈ ss, slash ∉ s) : ∀ s ∈ trimLast ss, slash ∉ s := by
  induction ss with
  | nil => exact nofun
  | cons s ss ih =>
    rw [List.forall_mem_cons] at h
    rcases ss with - | ⟨t, ss⟩
    · simp only [trimLast, List.mem_singleton, forall_eq, List.mem_reverse]
      intro hmem
      exact h.1 (List.mem_reverse.mp (mem_of_mem_dropWhile hmem))
    · rw [trimLast, List.forall_mem_cons]
      exact ⟨h.1, ih h.2⟩

theorem slash_notMem_trimEnds (h : ∀ s ∈ ss, slash ∉ s) : ∀ s ∈ trimEnds ss, slash ∉ s := by
  rcases ss with - | ⟨s, ss⟩
  · exact nofun
  · rw [List.forall_mem_cons] at h
    refine slash_notMem_trimLast (List.forall_mem_cons.mpr ⟨fun hmem => ?_, h.2⟩)
    exact h.1 (mem_of_mem_dropWhile hmem)

end Blanks

/-! ### Segments -/

/-- A segment that a root keeps. -/
structure Segment (s : PyStr) : Prop where
  nonempty : s ≠ []
  /-- It is not `.`. -/
  dot : s ≠ PyStr.ofString "."
  /-- It is not `..`. -/
  dots : s ≠ PyStr.ofString ".."
  slash : slash ∉ s
  backslash : PyChar.scalar '\\' ∉ s

section Segments

variable {s t : PyStr} {ss ts out : List PyStr} {path : PyStr}

theorem slash_notMem_splitOn (s : PyStr) : ∀ seg ∈ s.splitOn slash, slash ∉ seg := by
  induction s with
  | nil => simp
  | cons c s ih =>
    rw [List.splitOn_cons_eq_if_modifyHead]
    split
    next => exact List.forall_mem_cons.mpr ⟨List.not_mem_nil, ih⟩
    next hc =>
      rcases hsplit : s.splitOn slash with - | ⟨t, ts⟩
      · exact absurd hsplit (List.splitOn_ne_nil _ _)
      · rw [hsplit, List.forall_mem_cons] at ih
        rw [List.modifyHead_cons, List.forall_mem_cons]
        refine ⟨fun hmem => ?_, ih.2⟩
        rcases List.mem_cons.mp hmem with rfl | hmem
        · simp at hc
        · exact ih.1 hmem

theorem mem_joined (hs : s ∈ ss) (hc : c ∈ s) : c ∈ PyStr.joined slash ss := by
  induction ss with
  | nil => cases hs
  | cons t ss ih =>
    rcases eq_or_ne ss [] with rfl | hne
    · rw [List.mem_singleton.mp hs] at hc
      rwa [PyStr.joined_singleton]
    · rw [PyStr.joined_cons hne]
      rcases List.mem_cons.mp hs with rfl | hs
      · exact List.mem_append_left _ hc
      · exact List.mem_append_right _ (List.mem_cons_of_mem _ (ih hs))

theorem mem_of_mem_splitOn {seg : PyStr} (hseg : seg ∈ s.splitOn slash)
    (hc : c ∈ seg) : c ∈ s := by
  have hmem := mem_joined hseg hc
  rwa [PyStr.joined, List.intercalate_splitOn] at hmem

theorem backslash_notMem_slashed (path : PyStr) : PyChar.scalar '\\' ∉ slashed path := by
  intro hmem
  obtain ⟨c, -, hc⟩ := List.mem_map.mp hmem
  split at hc
  · exact absurd hc (by decide)
  next hne => exact hne hc

theorem slashed_eq_self (h : PyChar.scalar '\\' ∉ path) : slashed path = path := by
  refine (List.map_congr_left fun c hc => ?_).trans (List.map_id path)
  rw [if_neg (by rintro rfl; exact h hc), id_eq]

/-- A segment is kept only if there is something in it. -/
theorem segments_of_foldlM (hss : ∀ s ∈ ss, slash ∉ s ∧ PyChar.scalar '\\' ∉ s)
    (hout : ∀ s ∈ out, Segment s) (h : ss.foldlM rootSegment out = some ts) :
    ∀ s ∈ ts, Segment s := by
  induction ss generalizing out with
  | nil =>
    cases h
    exact hout
  | cons s ss ih =>
    rw [List.forall_mem_cons] at hss
    rw [List.foldlM_cons, Option.bind_eq_bind, Option.bind_eq_some_iff] at h
    obtain ⟨out', hout', h⟩ := h
    refine ih hss.2 ?_ h
    unfold rootSegment at hout'
    split at hout'
    · cases hout'
      exact hout
    next hplain =>
      split at hout'
      · split at hout'
        · cases hout'
        · cases hout'
          exact fun t ht => hout t (List.dropLast_subset _ ht)
      next hdots =>
        cases hout'
        rw [not_or] at hplain
        refine List.forall_mem_append.mpr ⟨hout, ?_⟩
        simpa using Segment.mk hplain.1 hplain.2 hdots hss.1.1 hss.1.2

theorem segments_of_rootSegments (h : rootSegments path = some ts) : ∀ s ∈ ts, Segment s := by
  refine segments_of_foldlM (fun s hs => ⟨slash_notMem_splitOn _ s hs, fun hmem => ?_⟩)
    (by simp) h
  exact backslash_notMem_slashed _ (mem_of_mem_splitOn hs hmem)

/-- Segments without a slash between them: what a path is resolved to. -/
structure Plain (ss : List PyStr) : Prop where
  nonempty : ∀ s ∈ ss, s ≠ []
  slash : ∀ s ∈ ss, slash ∉ s

theorem plain_of_segments (h : ∀ s ∈ ss, Segment s) : Plain ss :=
  ⟨fun s hs => (h s hs).nonempty, fun s hs => (h s hs).slash⟩

theorem plain_resolve (hss : ∀ s ∈ ss, slash ∉ s) (hout : Plain out) :
    Plain (ss.foldl resolveSegment out) := by
  induction ss generalizing out with
  | nil => exact hout
  | cons s ss ih =>
    rw [List.forall_mem_cons] at hss
    refine ih hss.2 ?_
    unfold resolveSegment
    split
    · exact hout
    next hplain =>
      split
      · exact ⟨fun t ht => hout.nonempty t (List.dropLast_subset _ ht),
          fun t ht => hout.slash t (List.dropLast_subset _ ht)⟩
      · rw [not_or] at hplain
        exact ⟨List.forall_mem_append.mpr ⟨hout.nonempty, by simpa using hplain.1⟩,
          List.forall_mem_append.mpr ⟨hout.slash, by simpa using hss.1⟩⟩

theorem plain_nil : Plain [] := ⟨by simp, by simp⟩

/-- There is no slash at the end of joined segments. -/
theorem joined_concat (hss : Plain ss) (hne : ss ≠ []) :
    ∃ u c, PyStr.joined slash ss = u ++ [c] ∧ c ≠ slash := by
  induction ss with
  | nil => exact absurd rfl hne
  | cons s ss ih =>
    have hs := hss.nonempty s List.mem_cons_self
    rcases eq_or_ne ss [] with rfl | hrest
    · refine ⟨s.dropLast, s.getLast hs, ?_, ?_⟩
      · rw [PyStr.joined_singleton, List.dropLast_append_getLast]
      · intro heq
        exact hss.slash s List.mem_cons_self (heq ▸ List.getLast_mem hs)
    · obtain ⟨u, c, hu, hc⟩ := ih ⟨fun t ht => hss.nonempty t (List.mem_cons_of_mem _ ht),
        fun t ht => hss.slash t (List.mem_cons_of_mem _ ht)⟩ hrest
      exact ⟨s ++ slash :: u, c, by rw [PyStr.joined_cons hrest, hu]; simp, hc⟩

theorem dropSlashes_joined (hss : Plain ss) :
    ((PyStr.joined slash ss).reverse.dropWhile (· = slash)).reverse = PyStr.joined slash ss := by
  rcases eq_or_ne ss [] with rfl | hne
  · rfl
  · obtain ⟨u, c, hu, hc⟩ := joined_concat hss hne
    rw [hu, List.reverse_append, List.reverse_singleton, List.singleton_append,
      List.dropWhile_cons_of_neg (by simpa using hc)]
    simp

theorem joined_ne_nil (hss : Plain ss) (hne : ss ≠ []) : PyStr.joined slash ss ≠ [] := by
  obtain ⟨u, c, hu, -⟩ := joined_concat hss hne
  rw [hu]
  simp

theorem joined_append (hne : ss ≠ []) (hne' : ts ≠ []) :
    PyStr.joined slash (ss ++ ts) = PyStr.joined slash ss ++ slash :: PyStr.joined slash ts := by
  induction ss with
  | nil => exact absurd rfl hne
  | cons s ss ih =>
    rcases eq_or_ne ss [] with rfl | hrest
    · rw [List.singleton_append, PyStr.joined_cons hne', PyStr.joined_singleton]
    · rw [List.cons_append, PyStr.joined_cons (by simp [hrest]), ih hrest,
        PyStr.joined_cons hrest, List.append_assoc, List.cons_append]

/-- **Prefixes of texts are prefixes of segments.** -/
theorem isPrefix_joined (hss : Plain ss) (hts : Plain ts) (hne : ss ≠ []) :
    isPrefix (PyStr.joined slash ss) (PyStr.joined slash ts) ↔ ss <+: ts := by
  rw [isPrefix, Bool.and_eq_true, Bool.or_eq_true, decide_eq_true_eq, decide_eq_true_eq,
    and_iff_right (joined_ne_nil hss hne), PyStr.startsWith_iff]
  constructor
  · rintro (heq | ⟨t, ht⟩)
    · rcases eq_or_ne ts [] with rfl | hne'
      · exact absurd heq (joined_ne_nil hss hne)
      · exact (PyStr.joined_injective hss.slash hts.slash hne hne' heq) ▸ List.prefix_refl ss
    · rw [List.append_assoc, List.singleton_append] at ht
      have hsplit := congrArg (List.splitOn slash) ht
      rw [List.splitOn_append_cons_self, PyStr.joined,
        List.splitOn_intercalate slash hss.slash hne] at hsplit
      rcases eq_or_ne ts [] with rfl | hne'
      · exact absurd ht (by simp)
      · rw [PyStr.joined, List.splitOn_intercalate slash hts.slash hne'] at hsplit
        exact ⟨_, hsplit⟩
  · rintro ⟨rest, rfl⟩
    rcases eq_or_ne rest [] with rfl | hrest
    · exact .inl (by rw [List.append_nil])
    · refine .inr ⟨PyStr.joined slash rest, ?_⟩
      rw [joined_append hne hrest, List.append_assoc, List.singleton_append]

/-! ### The second resolution -/

theorem joinPairs_joined (hne : ss ≠ []) :
    joinPairs (PyStr.joined slash ss) = PyStr.joined slash (ss.map joinPairs) := by
  induction ss with
  | nil => exact absurd rfl hne
  | cons s ss ih =>
    rcases eq_or_ne ss [] with rfl | hrest
    · simp
    · rw [PyStr.joined_cons hrest, List.map_cons, PyStr.joined_cons (by simpa using hrest),
        ← ih hrest]
      exact joinPairs_append_scalar s _ '/'

theorem slash_notMem_map_joinPairs (h : ∀ s ∈ ss, Segment s) :
    ∀ s ∈ ss.map joinPairs, slash ∉ s := by
  rw [List.forall_mem_map]
  exact fun s hs hmem => (h s hs).slash (mem_of_mem_joinPairs (by decide) hmem)

theorem backslash_notMem_joined (h : ∀ s ∈ ss, Segment s) :
    PyChar.scalar '\\' ∉ joinPairs (PyStr.joined slash ss) := by
  intro hmem
  have hjoined := mem_of_mem_joinPairs (by decide) hmem
  clear hmem
  induction ss with
  | nil => cases hjoined
  | cons s ss ih =>
    rw [List.forall_mem_cons] at h
    rcases eq_or_ne ss [] with rfl | hrest
    · exact h.1.backslash (by simpa using hjoined)
    · rw [PyStr.joined_cons hrest] at hjoined
      rcases List.mem_append.mp hjoined with hs | hmem
      · exact h.1.backslash hs
      · rcases List.mem_cons.mp hmem with heq | hmem
        · exact absurd heq (by decide)
        · exact ih h.2 hmem

theorem plain_leftOf (h : ∀ s ∈ ss, Segment s) : Plain (leftOf ss) :=
  plain_resolve (slash_notMem_trimEnds (slash_notMem_map_joinPairs h)) plain_nil

/-- **What is compared** is what is left of a root. -/
theorem normRel_stored (h : ∀ s ∈ ss, Segment s) (hne : ss ≠ []) :
    normRel (joinPairs (PyStr.joined slash ss)) = PyStr.joined slash (leftOf ss) := by
  have hmap : ss.map joinPairs ≠ [] := by simpa using hne
  have hsplit : ((joinPairs (PyStr.joined slash ss)).strip).splitOn slash =
      trimEnds (ss.map joinPairs) := by
    rw [joinPairs_joined hne, strip_joined hmap]
    exact List.splitOn_intercalate slash (slash_notMem_trimEnds (slash_notMem_map_joinPairs h))
      (trimEnds_ne_nil hmap)
  have hslashed := slashed_eq_self (backslash_notMem_joined h)
  rw [slashed] at hslashed
  rw [normRel, hslashed]
  simp only [hsplit]
  exact dropSlashes_joined (plain_leftOf h)

theorem leftOf_of_strip (h : ∀ s ∈ ss, Segment s) (hne : ss ≠ [])
    (hstrip : (joinPairs (PyStr.joined slash ss)).strip = []) : leftOf ss = [] := by
  by_contra hleft
  have hslashed := slashed_eq_self (backslash_notMem_joined h)
  rw [slashed] at hslashed
  have hnorm := normRel_stored h hne
  rw [normRel, hslashed, hstrip] at hnorm
  exact joined_ne_nil (plain_leftOf h) hleft hnorm.symm

end Segments

/-! ### Two lists -/

/-- Some roots of two lists overlap: one is an ancestor of the other, or they are the same. -/
def RootsOverlap (as bs : List (List PyStr)) : Prop :=
  ∃ a ∈ as, ∃ b ∈ bs, a ≠ [] ∧ a <+: b ∨ b ≠ [] ∧ b <+: a

instance (as bs : List (List PyStr)) : Decidable (RootsOverlap as bs) :=
  inferInstanceAs (Decidable (∃ a ∈ as, _))

section Accepted

variable (isAlpha : PyChar → Bool)

/-- A list of roots that is accepted, with what it is resolved to and what is stored of it. -/
structure AcceptedRoots where
  roots : List PyStr
  segments : List (List PyStr)
  text : List Char
  resolved : roots.mapM rootSegments = some segments
  accepted : serializeFootprintPaths isAlpha roots = some text

variable {isAlpha} {path norm : PyStr} {segs : List PyStr} {roots out : List PyStr}

theorem storedRoot_eq_some (h : storedRoot isAlpha path = some norm) :
    ∃ segs, rootSegments path = some segs ∧ norm = PyStr.joined slash segs ∧ segs ≠ [] := by
  unfold storedRoot at h
  obtain ⟨norm', hvalid, h⟩ := Option.bind_eq_some_iff.mp h
  split at h
  · cases h
    unfold validateRelRoot at hvalid
    split at hvalid
    · cases hvalid
    · obtain ⟨segs, hsegs, hnorm⟩ := Option.bind_eq_some_iff.mp hvalid
      simp only at hnorm
      split at hnorm
      · cases hnorm
      next hbad =>
        cases hnorm
        refine ⟨segs, hsegs, rfl, ?_⟩
        rintro rfl
        exact hbad (.inl rfl)
  · cases h

/-- What is stored of accepted roots are their segments, joined. -/
theorem stored_of_mapM (h : roots.mapM (storedRoot isAlpha) = some out) :
    ∃ segs, roots.mapM rootSegments = some segs ∧ out = segs.map (PyStr.joined slash) ∧
      ∀ a ∈ segs, a ≠ [] ∧ ∀ s ∈ a, Segment s := by
  induction roots generalizing out with
  | nil =>
    cases h
    exact ⟨[], rfl, rfl, nofun⟩
  | cons path roots ih =>
    rw [List.mapM_cons] at h
    obtain ⟨norm, hnorm, h⟩ := Option.bind_eq_some_iff.mp h
    obtain ⟨norms, hnorms, h⟩ := Option.bind_eq_some_iff.mp h
    cases h
    obtain ⟨a, ha, rfl, hne⟩ := storedRoot_eq_some hnorm
    obtain ⟨as, has, rfl, hall⟩ := ih hnorms
    refine ⟨a :: as, ?_, rfl, List.forall_mem_cons.mpr ⟨⟨hne, segments_of_rootSegments ha⟩, hall⟩⟩
    rw [List.mapM_cons, ha, has]
    rfl

theorem serialize_eq_some {text : List Char}
    (h : serializeFootprintPaths isAlpha roots = some text) :
    ∃ segs, roots.mapM rootSegments = some segs ∧
      text = (Json.arr (segs.map fun a => Json.str (PyStr.joined slash a))).dumps ∧
      ∀ a ∈ segs, a ≠ [] ∧ ∀ s ∈ a, Segment s := by
  unfold serializeFootprintPaths at h
  split at h
  · cases h
  · obtain ⟨out, hout, h⟩ := Option.bind_eq_some_iff.mp h
    cases h
    obtain ⟨segs, hsegs, rfl, hall⟩ := stored_of_mapM hout
    exact ⟨segs, hsegs, by rw [List.map_map]; rfl, hall⟩

namespace AcceptedRoots

variable {A B : AcceptedRoots isAlpha} {float : List Char → PyFloat} {depth : ℕ}

theorem text_eq (A : AcceptedRoots isAlpha) :
    A.text = (Json.arr (A.segments.map fun a => Json.str (PyStr.joined slash a))).dumps ∧
      ∀ a ∈ A.segments, a ≠ [] ∧ ∀ s ∈ a, Segment s := by
  obtain ⟨segs, hsegs, htext, hall⟩ := serialize_eq_some A.accepted
  cases A.resolved.symm.trans hsegs
  exact ⟨htext, hall⟩

def readBack (A : AcceptedRoots isAlpha) : List PyStr :=
  (A.segments.map fun a => joinPairs (PyStr.joined slash a)).filter fun s => s.strip ≠ []

theorem parse_text (A : AcceptedRoots isAlpha) (float : List Char → PyFloat) (depth : ℕ) :
    parseFootprintList (footprintDecoder float depth) A.text = .ok A.readBack := by
  have hreadable : Readable (depth + 1)
      (Json.arr (A.segments.map fun a => Json.str (PyStr.joined slash a))) :=
    .arr (List.forall_mem_map.mpr fun a _ => .str)
  have hloads := @loads_write (footprintDecoder float depth) .plain
    (Decoder.faithful_plain float (depth + 1)) _ hreadable
  rw [write_plain, ← A.text_eq.1, reread, rereadList_eq_map, List.map_map] at hloads
  have hne : A.text ≠ [] := by
    rw [A.text_eq.1, Json.dumps]
    simp
  rw [parseFootprintList, if_neg hne, hloads]
  simp only [readBack, Except.ok.injEq]
  induction A.segments with
  | nil => rfl
  | cons a as ih =>
    simp only [List.map_cons, Function.comp_apply, reread, List.filterMap_cons, List.filter_cons]
    by_cases hstrip : (joinPairs (PyStr.joined slash a)).strip = []
    · simpa [hstrip] using ih
    · simpa [hstrip] using ih

theorem mem_normRoots {r : PyStr} : r ∈ normRoots A.readBack ↔
    ∃ a ∈ A.segments, leftOf a ≠ [] ∧ r = PyStr.joined slash (leftOf a) := by
  have hall := A.text_eq.2
  simp only [normRoots, readBack, List.mem_filter, List.mem_map, decide_eq_true_eq]
  constructor
  · rintro ⟨⟨_, ⟨⟨a, ha, rfl⟩, -⟩, rfl⟩, hne⟩
    rw [normRel_stored (hall a ha).2 (hall a ha).1] at hne ⊢
    exact ⟨a, ha, fun hnil => hne (by rw [hnil]; rfl), rfl⟩
  · rintro ⟨a, ha, hne, rfl⟩
    have hnorm := normRel_stored (hall a ha).2 (hall a ha).1
    refine ⟨⟨_, ⟨⟨a, ha, rfl⟩, fun hstrip => ?_⟩, hnorm⟩,
      joined_ne_nil (plain_leftOf (hall a ha).2) hne⟩
    exact hne (leftOf_of_strip (hall a ha).2 (hall a ha).1 hstrip)

def left (A : AcceptedRoots isAlpha) : List (List PyStr) := A.segments.map leftOf

/-- **Two lists that are stored conflict** exactly if what is left of some roots overlaps. -/
theorem conflict_iff :
    pathRootsConflict A.readBack B.readBack ↔ RootsOverlap A.left B.left := by
  have hplainA : ∀ a ∈ A.segments, Plain (leftOf a) := fun a ha => plain_leftOf (A.text_eq.2 a ha).2
  have hplainB : ∀ b ∈ B.segments, Plain (leftOf b) := fun b hb => plain_leftOf (B.text_eq.2 b hb).2
  simp only [pathRootsConflict, List.any_eq_true, Bool.or_eq_true, mem_normRoots, RootsOverlap,
    left, List.mem_map]
  constructor
  · rintro ⟨_, ⟨a, ha, hane, rfl⟩, _, ⟨b, hb, hbne, rfl⟩, hprefix⟩
    refine ⟨_, ⟨a, ha, rfl⟩, _, ⟨b, hb, rfl⟩, hprefix.imp (fun h => ⟨hane, ?_⟩) fun h => ⟨hbne, ?_⟩⟩
    · exact (isPrefix_joined (hplainA a ha) (hplainB b hb) hane).mp h
    · exact (isPrefix_joined (hplainB b hb) (hplainA a ha) hbne).mp h
  · rintro ⟨_, ⟨a, ha, rfl⟩, _, ⟨b, hb, rfl⟩, ⟨hane, hprefix⟩ | ⟨hbne, hprefix⟩⟩
    · have hbne : leftOf b ≠ [] := fun hnil => hane (List.prefix_nil.mp (hnil ▸ hprefix))
      exact ⟨_, ⟨a, ha, hane, rfl⟩, _, ⟨b, hb, hbne, rfl⟩,
        .inl ((isPrefix_joined (hplainA a ha) (hplainB b hb) hane).mpr hprefix)⟩
    · have hane : leftOf a ≠ [] := fun hnil => hbne (List.prefix_nil.mp (hnil ▸ hprefix))
      exact ⟨_, ⟨a, ha, hane, rfl⟩, _, ⟨b, hb, hbne, rfl⟩,
        .inr ((isPrefix_joined (hplainB b hb) (hplainA a ha) hbne).mpr hprefix)⟩

/-- An overlap is lost: some roots that were declared overlap, and nothing that is left does. -/
def Lost (A B : AcceptedRoots isAlpha) : Prop :=
  RootsOverlap A.segments B.segments ∧ ¬RootsOverlap A.left B.left

/-- An overlap is invented: some of what is left overlaps, and no roots that were declared do. -/
def Invented (A B : AcceptedRoots isAlpha) : Prop :=
  RootsOverlap A.left B.left ∧ ¬RootsOverlap A.segments B.segments

/-- No root begins or ends with a blank once it is resolved, or has surrogates that go together. -/
def Clean (A : AcceptedRoots isAlpha) : Prop :=
  ∀ a ∈ A.segments, (PyStr.joined slash a).strip = PyStr.joined slash a ∧
    joinPairs (PyStr.joined slash a) = PyStr.joined slash a

/-- Two lists that are stored and read back conflict exactly if some of their roots overlap. -/
def Kept (float : List Char → PyFloat) (depth : ℕ) (A B : AcceptedRoots isAlpha) : Prop :=
  ∃ rootsA rootsB, parseFootprintList (footprintDecoder float depth) A.text = .ok rootsA ∧
    parseFootprintList (footprintDecoder float depth) B.text = .ok rootsB ∧
      (pathRootsConflict rootsA rootsB = true ↔ RootsOverlap A.segments B.segments)

theorem kept_iff_left : Kept float depth A B ↔
    (RootsOverlap A.left B.left ↔ RootsOverlap A.segments B.segments) := by
  rw [← conflict_iff]
  constructor
  · rintro ⟨rootsA, rootsB, hA, hB, h⟩
    cases (parse_text A float depth).symm.trans hA
    cases (parse_text B float depth).symm.trans hB
    exact h
  · exact fun h => ⟨_, _, parse_text A float depth, parse_text B float depth, h⟩

theorem resolve_segments {a : List PyStr} (h : ∀ s ∈ a, Segment s) (done : List PyStr) :
    a.foldl resolveSegment done = done ++ a := by
  induction a generalizing done with
  | nil => simp
  | cons s a ih =>
    rw [List.forall_mem_cons] at h
    have hplain : ¬(s = [] ∨ s = PyStr.ofString ".") := not_or.mpr ⟨h.1.nonempty, h.1.dot⟩
    rw [List.foldl_cons, resolveSegment, if_neg hplain, if_neg h.1.dots, ih h.2,
      List.append_assoc, List.singleton_append]

theorem Clean.left_eq (h : A.Clean) : A.left = A.segments := by
  refine (List.map_congr_left fun a ha => ?_).trans (List.map_id _)
  obtain ⟨hne, hsegments⟩ := A.text_eq.2 a ha
  obtain ⟨hstrip, hpairs⟩ := h a ha
  have hplain := plain_of_segments hsegments
  have hmap : a.map joinPairs = a := by
    rw [joinPairs_joined hne] at hpairs
    exact PyStr.joined_injective (slash_notMem_map_joinPairs hsegments) hplain.slash
      (by simpa using hne) hne hpairs
  have htrim : trimEnds a = a := by
    rw [strip_joined hne] at hstrip
    exact PyStr.joined_injective (slash_notMem_trimEnds hplain.slash) hplain.slash
      (trimEnds_ne_nil hne) hne hstrip
  rw [leftOf, hmap, htrim, resolve_segments hsegments, List.nil_append, id_eq]

/-- **What was declared is kept** exactly if the blanks at the ends of the resolved roots, and the
surrogates that go together, neither lose an overlap nor invent one. Where there are none of them,
it is. -/
theorem kept_iff (float : List Char → PyFloat) (depth : ℕ) (A B : AcceptedRoots isAlpha) :
    (Kept float depth A B ↔ ¬Lost A B ∧ ¬Invented A B) ∧
      (A.Clean → B.Clean → Kept float depth A B) := by
  constructor
  · rw [kept_iff_left, Lost, Invented]
    tauto
  · intro hA hB
    rw [kept_iff_left, hA.left_eq, hB.left_eq]

end AcceptedRoots

/-! ### A directory whose name is a blank and a dot -/

/-- The root `./src`, which is resolved to `src`. -/
def sourceRoots : AcceptedRoots fun _ => false where
  roots := [PyStr.ofString "./src"]
  segments := [[PyStr.ofString "src"]]
  text := "[\"src\"]".toList
  resolved := by decide
  accepted := by decide

theorem kept_sourceRoots : AcceptedRoots.Kept (fun _ => .nan) 0 sourceRoots sourceRoots :=
  have hclean : sourceRoots.Clean := by
    unfold AcceptedRoots.Clean
    decide
  (AcceptedRoots.kept_iff (fun _ => .nan) 0 sourceRoots sourceRoots).2 hclean hclean

/-- The root `./ .`, which is resolved to ` .`. -/
def blankRoots : AcceptedRoots fun _ => false where
  roots := [PyStr.ofString "./ ."]
  segments := [[PyStr.ofString " ."]]
  text := "[\" .\"]".toList
  resolved := by decide
  accepted := by decide

/-- It does not conflict with itself. -/
theorem blankRoots_lost :
    ¬AcceptedRoots.Kept (fun _ => .nan) 0 blankRoots blankRoots := by
  rw [AcceptedRoots.kept_iff_left]
  decide

end Accepted

end Scheduler

end ArgentTeam
