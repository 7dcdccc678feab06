import Gentest.Lib.LexicalPath
import Gentest.Lib.Sorting
import Mathlib.Algebra.GroupWithZero.Nat
import Mathlib.Data.List.MinMax

/-!
# Visible paths of definitions

Sources that are given below a symbolic link have a visible and a canonical path, and each
pair of directories on the two is an alias. `remap_to_visible_source_path` takes the first
alias for every path, since a relative path with `..` counts as one below the alias.
-/

namespace Gentest.Codegen

open LexicalPath Sorting

-- ---------------------------------------------------------------------------
-- File systems
-- ---------------------------------------------------------------------------

structure FileName where
  text : String
  proper : text ∉ ["", ".", ".."] ∧ '/' ∉ text.toList
  deriving DecidableEq

/-- What `std::filesystem` says about absolute paths without `.` and `..`. -/
structure FileSystem where
  /-- The path without symbolic links, after `weakly_canonical`. -/
  resolve : List FileName → List FileName
  /-- Whether `weakly_canonical` reports an error. -/
  failing : List FileName → Bool := fun _ => false
  isDirectory : List FileName → Bool
  /-- Links are followed from the root on. -/
  resolve_append : ∀ path more, resolve (path ++ more) = resolve (resolve path ++ more)

def FileSystem.weaklyCanonical (fs : FileSystem) (path : List FileName) : Option (List FileName) :=
  if fs.failing path then none else some (fs.resolve path)

/-- A normal path as it is spelled; behind a separator at its end there has to be a directory. -/
structure SpelledPath where
  names : List FileName
  trailing : Bool := false
  deriving DecidableEq

def FileSystem.denotes (fs : FileSystem) (path : SpelledPath) : Option (List FileName) :=
  if path.trailing && !fs.isDirectory (fs.resolve path.names) then none else some (fs.resolve path.names)

-- ---------------------------------------------------------------------------
-- The code
-- ---------------------------------------------------------------------------

structure SourcePathAlias where
  canonicalPrefix : List FileName
  visiblePrefix : List FileName
  deriving DecidableEq

/-- `generic_string().size()`, in bytes. -/
def pathSize (path : List FileName) : Nat :=
  if path = [] then 1 else (path.map fun name => name.text.utf8ByteSize + 1).sum

def aliasChain (visible canonical : List FileName) : List SourcePathAlias :=
  if visible = canonical then []
  else { canonicalPrefix := canonical, visiblePrefix := visible } :: aliasChain visible.dropLast canonical.dropLast
termination_by visible.length + canonical.length
decreasing_by
  rename_i hne
  have hlength : visible.length + canonical.length ≠ 0 := by
    intro hzero
    rw [Nat.add_eq_zero_iff, List.length_eq_zero_iff, List.length_eq_zero_iff] at hzero
    exact hne (hzero.1.trans hzero.2.symm)
  rw [List.length_dropLast, List.length_dropLast]
  omega

def collectedAliases (fs : FileSystem) (sources : List (List FileName)) : List SourcePathAlias :=
  sources.flatMap fun visible => (fs.weaklyCanonical visible).elim [] (aliasChain visible)

/-- The outcomes of `build_source_path_aliases`; the sort leaves open where aliases of one
size go. -/
def BuildSourcePathAliases (fs : FileSystem) (sources : List (List FileName)) (aliases : List SourcePathAlias) : Prop :=
  ∃ sorted : List SourcePathAlias, sorted.Perm (collectedAliases fs sources) ∧
    sorted.Pairwise (fun a b => pathSize b.canonicalPrefix ≤ pathSize a.canonicalPrefix) ∧ aliases = unique sorted

/-- `visible / rel` in normal form, which ends in a separator behind `.` and `..`. -/
def joinNormal (visible : List FileName) (rel : List (Step FileName)) : SpelledPath where
  names := walk visible rel
  trailing := match rel.getLast? with
    | some (.name _) => false
    | _ => true

def remapToVisibleSourcePath (path : List FileName) : List SourcePathAlias → SpelledPath
  | [] => { names := path }
  | entry :: aliases =>
    let rel := relative path entry.canonicalPrefix
    if rel ≠ [] then joinNormal entry.visiblePrefix rel
    else if path = entry.canonicalPrefix then { names := entry.visiblePrefix }
    else remapToVisibleSourcePath path aliases

/-- The remapped path denotes the file, however the aliases are sorted. -/
def Remapped (fs : FileSystem) (sources : List (List FileName)) (path : List FileName) : Prop :=
  ∀ aliases, BuildSourcePathAliases fs sources aliases →
    fs.denotes (remapToVisibleSourcePath path aliases) = some path

-- ---------------------------------------------------------------------------
-- The condition
-- ---------------------------------------------------------------------------

def FileSystem.Linked (fs : FileSystem) (source : List FileName) : Prop :=
  fs.failing source = false ∧ fs.resolve source ≠ source

/-- A source behind a link with the longest canonical path. -/
def Longest (fs : FileSystem) (sources : List (List FileName)) (source : List FileName) : Prop :=
  source ∈ sources ∧ fs.Linked source ∧
    ∀ other ∈ sources, fs.Linked other → pathSize (fs.resolve other) ≤ pathSize (fs.resolve source)

/-- Going up from a source on both its paths, to where `path` leaves the canonical one, ends
in one directory; and `path` is a directory if it stands on the canonical path. -/
def Corresponds (fs : FileSystem) (source path : List FileName) : Prop :=
  let canonical := fs.resolve source
  let shared := common path canonical
  fs.resolve (source.take (source.length - (canonical.length - shared))) = canonical.take shared ∧
    (path <+: canonical → fs.isDirectory path = true)

-- ---------------------------------------------------------------------------
-- The first alias
-- ---------------------------------------------------------------------------

variable {fs : FileSystem} {sources : List (List FileName)} {source path visible canonical link target : List FileName}
  {aliases : List SourcePathAlias} {entry : SourcePathAlias}

theorem pathSize_concat (path : List FileName) (name : FileName) :
    pathSize (path ++ [name]) = (path.map fun name => name.text.utf8ByteSize + 1).sum + (name.text.utf8ByteSize + 1) := by
  rw [pathSize, if_neg (by simp)]
  simp

theorem pathSize_dropLast_lt (h : path ≠ []) : pathSize path.dropLast < pathSize path := by
  obtain ⟨front, name, rfl⟩ : ∃ front name, path = front ++ [name] := ⟨_, _, (List.dropLast_concat_getLast h).symm⟩
  have hname : 0 < name.text.utf8ByteSize := by
    rw [Nat.pos_iff_ne_zero]
    intro hzero
    exact name.proper.1 (by simp [String.utf8ByteSize_eq_zero_iff.mp hzero])
  rw [List.dropLast_concat, pathSize_concat, pathSize]
  split
  · omega
  · omega

theorem pathSize_dropLast_le (path : List FileName) : pathSize path.dropLast ≤ pathSize path := by
  by_cases h : path = []
  · rw [h]
    exact Nat.le_refl _
  · exact Nat.le_of_lt (pathSize_dropLast_lt h)

theorem aliasChain_of_ne (h : visible ≠ canonical) :
    aliasChain visible canonical =
      { canonicalPrefix := canonical, visiblePrefix := visible } ::
        aliasChain visible.dropLast canonical.dropLast := by
  rw [aliasChain, if_neg h]

theorem size_le_of_mem_aliasChain (h : entry ∈ aliasChain visible canonical) :
    pathSize entry.canonicalPrefix ≤ pathSize canonical := by
  fun_induction aliasChain visible canonical with
  | case1 => cases h
  | case2 visible canonical _ ih =>
    obtain rfl | h := List.mem_cons.mp h
    · exact Nat.le_refl _
    · exact (ih h).trans (pathSize_dropLast_le canonical)

theorem eq_of_mem_aliasChain (hroot : canonical ≠ []) (h : entry ∈ aliasChain visible canonical)
    (hsize : pathSize canonical ≤ pathSize entry.canonicalPrefix) :
    entry = { canonicalPrefix := canonical, visiblePrefix := visible } := by
  rw [aliasChain] at h
  split at h
  · cases h
  · obtain h | h := List.mem_cons.mp h
    · exact h
    · have hle := size_le_of_mem_aliasChain h
      have hlt := pathSize_dropLast_lt hroot
      omega

theorem mem_collectedAliases :
    entry ∈ collectedAliases fs sources ↔
      ∃ source ∈ sources, fs.failing source = false ∧ entry ∈ aliasChain source (fs.resolve source) := by
  simp only [collectedAliases, List.mem_flatMap, FileSystem.weaklyCanonical]
  refine exists_congr fun source => and_congr_right fun _ => ?_
  cases hfailing : fs.failing source with
  | true => simp
  | false => simp

theorem own_mem_collectedAliases (hmem : source ∈ sources) (h : fs.Linked source) :
    { canonicalPrefix := fs.resolve source, visiblePrefix := source } ∈ collectedAliases fs sources := by
  refine mem_collectedAliases.mpr ⟨source, hmem, h.1, ?_⟩
  rw [aliasChain_of_ne fun heq => h.2 heq.symm]
  exact List.mem_cons_self

theorem head_unique (entries : List SourcePathAlias) : (unique entries).head? = entries.head? := by
  fun_induction unique entries with
  | case1 entry entries ih => rw [ih]; rfl
  | case2 => rfl
  | case3 => rfl

theorem head_of_built (hroot : ∀ source ∈ sources, fs.resolve source ≠ [])
    (h : BuildSourcePathAliases fs sources aliases) :
    (aliases = [] ∧ ∀ source ∈ sources, ¬fs.Linked source) ∨
      ∃ source others, Longest fs sources source ∧
        aliases = { canonicalPrefix := fs.resolve source, visiblePrefix := source } :: others := by
  obtain ⟨sorted, hperm, hsorted, rfl⟩ := h
  have hhead := head_unique sorted
  cases sorted with
  | nil =>
    refine .inl ⟨rfl, fun source hmem hlinked => ?_⟩
    have hown := own_mem_collectedAliases hmem hlinked
    rw [List.perm_nil.mp hperm.symm] at hown
    cases hown
  | cons first rest =>
    obtain ⟨source, hmem, hfailing, hfirst⟩ := mem_collectedAliases.mp (hperm.mem_iff.mp List.mem_cons_self)
    have hmax : ∀ other ∈ sources, fs.Linked other → pathSize (fs.resolve other) ≤ pathSize first.canonicalPrefix := by
      intro other hother hlinked
      obtain heq | hbehind := List.mem_cons.mp (hperm.mem_iff.mpr (own_mem_collectedAliases hother hlinked))
      · rw [← heq]
      · exact (List.pairwise_cons.mp hsorted).1 _ hbehind
    have hlinked : fs.Linked source := by
      refine ⟨hfailing, fun heq => ?_⟩
      rw [heq, aliasChain, if_pos rfl] at hfirst
      cases hfirst
    have hown := eq_of_mem_aliasChain (hroot source hmem) hfirst (hmax source hmem hlinked)
    obtain ⟨others, hothers⟩ := List.head?_eq_some_iff.mp (hhead.trans List.head?_cons)
    refine .inr ⟨source, others, ⟨hmem, hlinked, fun other hother hlinkedOther => ?_⟩, ?_⟩
    · have hle := hmax other hother hlinkedOther
      rw [hown] at hle
      exact hle
    · rw [hothers, hown]

theorem size_le_of_longest (h : Longest fs sources source) (hentry : entry ∈ collectedAliases fs sources) :
    pathSize entry.canonicalPrefix ≤ pathSize (fs.resolve source) := by
  obtain ⟨other, hother, hfailing, hchain⟩ := mem_collectedAliases.mp hentry
  refine (size_le_of_mem_aliasChain hchain).trans (h.2.2 other hother ⟨hfailing, fun heq => ?_⟩)
  rw [heq, aliasChain, if_pos rfl] at hchain
  cases hchain

theorem exists_built (h : Longest fs sources source) :
    ∃ others, BuildSourcePathAliases fs sources
      ({ canonicalPrefix := fs.resolve source, visiblePrefix := source } :: others) := by
  have hown := own_mem_collectedAliases h.1 h.2.1
  generalize hentry : ({ canonicalPrefix := fs.resolve source, visiblePrefix := source } : SourcePathAlias) = own at hown
  let longer : SourcePathAlias → SourcePathAlias → Bool := fun a b =>
    pathSize b.canonicalPrefix < pathSize a.canonicalPrefix
  let rest := insertion.sort longer ((collectedAliases fs sources).erase own)
  have hperm : (own :: rest).Perm (collectedAliases fs sources) :=
    ((insertion.perm longer _).cons own).trans (List.perm_cons_erase hown).symm
  have hrest : rest.Pairwise fun a b => pathSize b.canonicalPrefix ≤ pathSize a.canonicalPrefix := by
    refine (insertion.sorted longer _ ?_ ?_).imp fun hle => by simpa [longer] using hle
    · intro a b c hab hbc
      simp only [longer, decide_eq_false_iff_not, Nat.not_lt] at *
      exact hbc.trans hab
    · intro a b
      simp only [longer, decide_eq_false_iff_not, Nat.not_lt]
      exact Nat.le_total _ _
  obtain ⟨others, hothers⟩ := List.head?_eq_some_iff.mp (head_unique (own :: rest))
  refine ⟨others, own :: rest, hperm, List.pairwise_cons.mpr ⟨fun other hother => ?_, hrest⟩, hothers.symm⟩
  rw [← hentry]
  exact size_le_of_longest h (hperm.mem_iff.mp (List.mem_cons_of_mem _ hother))

-- ---------------------------------------------------------------------------
-- The remapped path
-- ---------------------------------------------------------------------------

theorem joinNormal_relative (visible path canonical : List FileName) :
    joinNormal visible (relative path canonical) =
      { names := visible.take (visible.length - (canonical.length - common path canonical)) ++
          path.drop (common path canonical)
        trailing := (path.drop (common path canonical)).isEmpty } := by
  have htrailing : (joinNormal visible (relative path canonical)).trailing =
      (path.drop (common path canonical)).isEmpty := by
    rw [joinNormal, relative]
    split
    · rename_i heq
      rw [heq, common_self]
      simp
    · rename_i hne
      cases hdrop : (path.drop (common path canonical)) using List.reverseRecOn with
      | nil =>
        have hups : canonical.length - common path canonical ≠ 0 := by
          intro hzero
          have hnil := relative_ne_nil path canonical
          rw [relative, if_neg hne, hzero, hdrop] at hnil
          exact hnil rfl
        obtain ⟨ups, hups⟩ := Nat.exists_eq_succ_of_ne_zero hups
        rw [hups, List.replicate_succ']
        simp
      | append_singleton front name => simp [← List.append_assoc]
  rw [← htrailing, ← walk_relative]
  rfl

theorem remap_cons (path : List FileName) (entry : SourcePathAlias) (others : List SourcePathAlias) :
    remapToVisibleSourcePath path (entry :: others) =
      joinNormal entry.visiblePrefix (relative path entry.canonicalPrefix) := by
  rw [remapToVisibleSourcePath, if_pos (relative_ne_nil _ _)]

theorem denotes_eq_some {names : List FileName} {trailing : Bool} :
    fs.denotes { names, trailing } = some path ↔
      fs.resolve names = path ∧ (trailing = true → fs.isDirectory path = true) := by
  rw [FileSystem.denotes]
  split
  · rename_i hfile
    rw [Bool.and_eq_true, Bool.not_eq_true'] at hfile
    refine ⟨nofun, fun h => ?_⟩
    have hdirectory := h.2 hfile.1
    rw [← h.1, hfile.2] at hdirectory
    cases hdirectory
  · rename_i hdirectory
    rw [Option.some_inj]
    refine ⟨fun h => ⟨h, fun htrailing => ?_⟩, And.left⟩
    rw [htrailing, Bool.true_and, Bool.not_eq_true', Bool.not_eq_false, h] at hdirectory
    exact hdirectory

theorem denotes_remap_iff (source path : List FileName) (others : List SourcePathAlias) :
    fs.denotes (remapToVisibleSourcePath path
        ({ canonicalPrefix := fs.resolve source, visiblePrefix := source } :: others)) = some path ↔
      fs.resolve (source.take (source.length - ((fs.resolve source).length - common path (fs.resolve source))) ++
          path.drop (common path (fs.resolve source))) = path ∧
        (path <+: fs.resolve source → fs.isDirectory path = true) := by
  rw [remap_cons, joinNormal_relative, denotes_eq_some, List.isEmpty_iff, drop_common_eq_nil_iff]

theorem resolve_of_corresponds (hpath : fs.resolve path = path) (h : Corresponds fs source path) :
    fs.resolve (source.take (source.length - ((fs.resolve source).length - common path (fs.resolve source))) ++
      path.drop (common path (fs.resolve source))) = path := by
  rw [fs.resolve_append, h.1, ← take_common, List.take_append_drop, hpath]

theorem remapped_of_corresponds (hroot : ∀ source ∈ sources, fs.resolve source ≠ []) (hpath : fs.resolve path = path)
    (h : ∀ source, Longest fs sources source → Corresponds fs source path) : Remapped fs sources path := by
  intro aliases hbuilt
  obtain ⟨rfl, -⟩ | ⟨source, others, hlongest, rfl⟩ := head_of_built hroot hbuilt
  · exact congrArg some hpath
  · exact (denotes_remap_iff source path others).mpr
      ⟨resolve_of_corresponds hpath (h source hlongest), (h source hlongest).2⟩

-- ---------------------------------------------------------------------------
-- One link
-- ---------------------------------------------------------------------------

/-- `link` is the only symbolic link of the file system, and leads to `target`. -/
structure OnlyLink (fs : FileSystem) (link target : List FileName) : Prop where
  resolve_link : fs.resolve link = target
  resolve_other : ∀ path, ¬link <+: path → fs.resolve path = path
  not_through : ∀ path, ¬link <+: fs.resolve path

/-- Sources below the link, given by what stands behind it; none goes through the link
twice. -/
structure BelowLink (fs : FileSystem) (link target : List FileName) (tails : List (List FileName)) : Prop where
  nonempty : tails ≠ []
  below : ∀ tail ∈ tails, tail ≠ []
  once : ∀ tail ∈ tails, ¬link <+: target ++ tail
  readable : ∀ tail ∈ tails, fs.failing (link ++ tail) = false

/-- A path below the target; or one that leaves the target's path where the link's path has
the same directory, counted from the end. -/
def BranchesAlike (link target path : List FileName) : Prop :=
  target <+: path ∨
    link.take (link.length - (target.length - common path target)) = target.take (common path target)

/-- No longest source itself, and no other file on the way to one. -/
def NoSourceOf (fs : FileSystem) (target : List FileName) (tails : List (List FileName)) (path : List FileName) : Prop :=
  ∀ tail ∈ tails, (∀ other ∈ tails, pathSize (target ++ other) ≤ pathSize (target ++ tail)) →
    path <+: target ++ tail → fs.isDirectory path = true

theorem OnlyLink.not_prefix_target (h : OnlyLink fs link target) : ¬link <+: target := by
  rw [← h.resolve_link]
  exact h.not_through link

theorem OnlyLink.resolve_below (h : OnlyLink fs link target) {tail : List FileName} (honce : ¬link <+: target ++ tail) :
    fs.resolve (link ++ tail) = target ++ tail := by
  rw [fs.resolve_append, h.resolve_link, h.resolve_other _ honce]

theorem OnlyLink.target_prefix_resolve (h : OnlyLink fs link target) (tail : List FileName) :
    target <+: fs.resolve (target ++ tail) := by
  by_cases hthrough : link <+: target ++ tail
  · obtain ⟨more, hmore⟩ := hthrough
    have hlonger : target.length < link.length := by
      by_contra hle
      exact h.not_prefix_target (List.prefix_of_prefix_length_le ⟨more, hmore⟩ (List.prefix_append _ _) (by omega))
    have hshorter : more.length < tail.length := by
      have hlength := congrArg List.length hmore
      rw [List.length_append, List.length_append] at hlength
      omega
    rw [← hmore, fs.resolve_append, h.resolve_link]
    exact h.target_prefix_resolve more
  · rw [h.resolve_other _ hthrough]
    exact List.prefix_append _ _
termination_by tail.length
decreasing_by omega

theorem prefix_below_of_canonical (h : OnlyLink fs link target) {tail : List FileName} (honce : ¬link <+: target ++ tail)
    (k : Nat) : fs.resolve (link ++ tail.take k) = target ++ tail.take k := by
  refine h.resolve_below fun hthrough => honce (hthrough.trans ?_)
  exact (List.prefix_append_right_inj target).mpr (List.take_prefix k tail)

theorem corresponds_iff_branchesAlike (h : OnlyLink fs link target) {tail : List FileName}
    (honce : ¬link <+: target ++ tail) :
    fs.resolve ((link ++ tail).take
        ((link ++ tail).length - ((target ++ tail).length - common path (target ++ tail)))) =
      (target ++ tail).take (common path (target ++ tail)) ↔ BranchesAlike link target path := by
  by_cases hbelow : target <+: path
  · refine iff_of_true ?_ (.inl hbelow)
    obtain ⟨rest, rfl⟩ := hbelow
    have hle := common_le_right rest tail
    rw [common_append, List.length_append, List.length_append, List.take_length_add_append]
    have hdepth : link.length + tail.length - (target.length + tail.length - (target.length + common rest tail)) =
        link.length + common rest tail := by omega
    rw [hdepth, List.take_length_add_append]
    exact prefix_below_of_canonical h honce _
  · have hlt := common_lt_of_not_prefix hbelow
    have hdepth : link.length + tail.length - (target.length + tail.length - common path target) =
        link.length - (target.length - common path target) := by omega
    have hlink : link ≠ [] := by
      rintro rfl
      exact h.not_prefix_target List.nil_prefix
    have hshorter : link.length - (target.length - common path target) < link.length := by
      have hpos := List.length_pos_iff.mpr hlink
      omega
    rw [common_append_of_diverging hbelow, List.length_append, List.length_append, hdepth,
      List.take_append_of_le_length (Nat.le_of_lt hshorter), List.take_append_of_le_length (Nat.le_of_lt hlt),
      h.resolve_other _ fun hstarts => ?_]
    · exact ⟨.inr, fun halike => halike.resolve_left hbelow⟩
    · have hle := hstarts.length_le
      rw [List.length_take] at hle
      omega

theorem longest_iff (h : OnlyLink fs link target) {tails : List (List FileName)} (hbelow : BelowLink fs link target tails)
    {tail : List FileName} (htail : tail ∈ tails) :
    Longest fs (tails.map (link ++ ·)) (link ++ tail) ↔
      ∀ other ∈ tails, pathSize (target ++ other) ≤ pathSize (target ++ tail) := by
  have hresolve : ∀ other ∈ tails, fs.resolve (link ++ other) = target ++ other :=
    fun other hother => h.resolve_below (hbelow.once other hother)
  have hlinked : ∀ other ∈ tails, fs.Linked (link ++ other) := by
    intro other hother
    refine ⟨hbelow.readable other hother, fun heq => hbelow.once other hother ?_⟩
    rw [← hresolve other hother, heq]
    exact List.prefix_append _ _
  constructor
  · intro hlongest other hother
    have hle := hlongest.2.2 (link ++ other) (List.mem_map_of_mem hother) (hlinked other hother)
    rwa [hresolve other hother, hresolve tail htail] at hle
  · intro hmax
    refine ⟨List.mem_map_of_mem htail, hlinked tail htail, fun source hsource _ => ?_⟩
    obtain ⟨other, hother, rfl⟩ := List.mem_map.mp hsource
    rw [hresolve other hother, hresolve tail htail]
    exact hmax other hother

theorem remapped_iff_branchesAlike (h : OnlyLink fs link target) {tails : List (List FileName)}
    (hbelow : BelowLink fs link target tails) (hpath : fs.resolve path = path) :
    Remapped fs (tails.map (link ++ ·)) path ↔ BranchesAlike link target path ∧ NoSourceOf fs target tails path := by
  have hresolve : ∀ other ∈ tails, fs.resolve (link ++ other) = target ++ other :=
    fun other hother => h.resolve_below (hbelow.once other hother)
  constructor
  · intro hremapped
    have hfirst : ∀ tail ∈ tails, (∀ other ∈ tails, pathSize (target ++ other) ≤ pathSize (target ++ tail)) →
        fs.resolve ((link ++ tail).take
            ((link ++ tail).length - ((target ++ tail).length - common path (target ++ tail))) ++
          path.drop (common path (target ++ tail))) = path ∧
          (path <+: target ++ tail → fs.isDirectory path = true) := by
      intro tail htail hmax
      obtain ⟨others, hbuilt⟩ := exists_built ((longest_iff h hbelow htail).mpr hmax)
      have hdenotes := (denotes_remap_iff _ _ _).mp (hremapped _ hbuilt)
      rwa [hresolve tail htail] at hdenotes
    refine ⟨?_, fun tail htail hmax => (hfirst tail htail hmax).2⟩
    obtain ⟨tail, htail, hmax⟩ : ∃ tail ∈ tails,
        ∀ other ∈ tails, pathSize (target ++ other) ≤ pathSize (target ++ tail) := by
      cases hlongest : tails.argmax fun tail => pathSize (target ++ tail) with
      | none => exact absurd (List.argmax_eq_none.mp hlongest) hbelow.nonempty
      | some tail => exact ⟨tail, List.argmax_mem hlongest, fun other hother =>
          List.le_of_mem_argmax (f := fun tail => pathSize (target ++ tail)) hother hlongest⟩
    have hnames := (hfirst tail htail hmax).1
    rw [← corresponds_iff_branchesAlike h (hbelow.once tail htail)]
    by_cases hthrough : link <+: (link ++ tail).take
        ((link ++ tail).length - ((target ++ tail).length - common path (target ++ tail))) ++
          path.drop (common path (target ++ tail))
    · obtain ⟨more, hmore⟩ := hthrough
      rw [corresponds_iff_branchesAlike h (hbelow.once tail htail)]
      refine .inl ?_
      rw [← hnames, ← hmore, fs.resolve_append, h.resolve_link]
      exact h.target_prefix_resolve more
    · rw [h.resolve_other _ hthrough] at hnames
      conv at hnames => rhs; rw [← List.take_append_drop (common path (target ++ tail)) path]
      have hfront := List.append_cancel_right hnames
      rw [hfront, take_common]
      exact h.resolve_other _ fun hstarts => hbelow.once tail htail (hstarts.trans (List.take_prefix _ _))
  · rintro ⟨halike, hsource⟩
    refine remapped_of_corresponds ?_ hpath ?_
    · intro source hsource
      obtain ⟨tail, htail, rfl⟩ := List.mem_map.mp hsource
      intro hnil
      rw [hresolve tail htail, List.append_eq_nil_iff] at hnil
      exact hbelow.below tail htail hnil.2
    · intro source hlongest
      obtain ⟨tail, htail, rfl⟩ := List.mem_map.mp hlongest.1
      have hmax := (longest_iff h hbelow htail).mp hlongest
      rw [Corresponds, hresolve tail htail]
      exact ⟨(corresponds_iff_branchesAlike h (hbelow.once tail htail)).mpr halike, hsource tail htail hmax⟩

/-- Remapping keeps the file where the visible and the canonical directories correspond; where
the link is the only one, exactly there. -/
theorem remapping_preserves_file (fs : FileSystem) :
    (∀ (sources : List (List FileName)) (path : List FileName),
      (∀ source ∈ sources, fs.resolve source ≠ []) → fs.resolve path = path →
        (∀ source, Longest fs sources source → Corresponds fs source path) → Remapped fs sources path) ∧
      ∀ (link target : List FileName) (tails : List (List FileName)) (path : List FileName),
        OnlyLink fs link target → BelowLink fs link target tails → fs.resolve path = path →
          (Remapped fs (tails.map (link ++ ·)) path ↔
            BranchesAlike link target path ∧ NoSourceOf fs target tails path) :=
  ⟨fun _ _ => remapped_of_corresponds, fun _ _ _ _ h hbelow hpath => remapped_iff_branchesAlike h hbelow hpath⟩

-- ---------------------------------------------------------------------------
-- `/link`, which leads to `/real/deep`
-- ---------------------------------------------------------------------------

def linkName : FileName := ⟨"link", by decide⟩

def realName : FileName := ⟨"real", by decide⟩

def deepName : FileName := ⟨"deep", by decide⟩

def sourceName : FileName := ⟨"a.cpp", by decide⟩

def headerName : FileName := ⟨"m.hpp", by decide⟩

def resolveLink : List FileName → List FileName
  | [] => []
  | name :: rest => if name = linkName then realName :: deepName :: rest else name :: rest

def linkedFileSystem : FileSystem where
  resolve := resolveLink
  isDirectory path := path = [] || path = [realName] || path = [realName, deepName]
  resolve_append path more := by
    cases path with
    | nil => rfl
    | cons name rest =>
      rw [List.cons_append, resolveLink, resolveLink]
      split
      · have hreal : realName ≠ linkName := by decide
        rw [List.cons_append, resolveLink, if_neg hreal]
        rfl
      · rename_i hother
        rw [List.cons_append, resolveLink, if_neg hother]

theorem linkedFileSystem_onlyLink : OnlyLink linkedFileSystem [linkName] [realName, deepName] where
  resolve_link := rfl
  resolve_other path h := by
    cases path with
    | nil => rfl
    | cons name rest =>
      exact if_neg fun heq : name = linkName => h (List.cons_prefix_cons.mpr ⟨heq.symm, List.nil_prefix⟩)
  not_through path h := by
    cases path with
    | nil => exact absurd h (by decide)
    | cons name rest =>
      change [linkName] <+: (if name = linkName then realName :: deepName :: rest else name :: rest) at h
      split at h
      · exact absurd (List.cons_prefix_cons.mp h).1 (by decide)
      · rename_i hother
        exact hother (List.cons_prefix_cons.mp h).1.symm

theorem linkedFileSystem_below :
    BelowLink linkedFileSystem [linkName] [realName, deepName] [[sourceName]] where
  nonempty := by decide
  below := by decide
  once := by decide
  readable := by decide

/-- `/real/m.hpp` becomes `/m.hpp`. -/
theorem sibling_not_remapped : ¬Remapped linkedFileSystem [[linkName, sourceName]] [realName, headerName] := by
  intro h
  have hbranches := (remapped_iff_branchesAlike linkedFileSystem_onlyLink linkedFileSystem_below rfl).mp h
  exact absurd hbranches.1 (by unfold BranchesAlike; decide)

/-- `/m.hpp` shares nothing with the target, and the link is no deeper. -/
theorem unrelated_remapped : Remapped linkedFileSystem [[linkName, sourceName]] [headerName] :=
  ((remapping_preserves_file linkedFileSystem).2 [linkName] [realName, deepName] [[sourceName]] [headerName]
    linkedFileSystem_onlyLink linkedFileSystem_below rfl).mpr
      ⟨by unfold BranchesAlike; decide, by unfold NoSourceOf; decide⟩

end Gentest.Codegen
