import PlexManager.Core.DownloadContent

/-!
# Remapped content is proven

A path other than the one that the client names is strictly below a live mount, at the
content's position below a directory there, and a file that the client lists is found
under it with its size, and none with another size. The path of the client itself is
taken where it exists and the save path offers nothing else. It offers nothing also
when the content is the save path, and is then taken beside a directory under a mount.

## Theorems

* `remapDownloadContent_proven`: Where each answer lies.
* `save_path_kept`: Content that is its own save path.
-/

namespace PlexManager

namespace PathVisibility

open PosixPath

variable {fs : FileSystem} {mounts : List DownloadMount} {content savePath directory : Text}
  {remainder comps : List Text} {files : List (Text × Nat)}

/-! ### The proof -/

/-- The components of a listed file that is the content or lies under it. -/
def Listed (remainder : List Text) (file : Text × Nat) : Prop :=
  named (split file.1) ≠ [] ∧ remainder <+: named (split file.1)

/-- A listed file under the content is there with its size, and none with another. -/
def Exhibits (fs : FileSystem) (directory : Text) (remainder : List Text)
    (files : List (Text × Nat)) : Prop :=
  (∃ file ∈ files, Listed remainder file ∧
    fs.getsize (joinAll directory (named (split file.1))) = some file.2) ∧
  ∀ file ∈ files, Listed remainder file → ∀ actual,
    fs.getsize (joinAll directory (named (split file.1))) = some actual → actual = file.2

theorem proves_iff (witnessed : Bool) :
    proves fs directory remainder witnessed files = true ↔
      (witnessed = true ∨ ∃ file ∈ files, Listed remainder file ∧
        fs.getsize (joinAll directory (named (split file.1))) = some file.2) ∧
      ∀ file ∈ files, Listed remainder file → ∀ actual,
        fs.getsize (joinAll directory (named (split file.1))) = some actual → actual = file.2 := by
  induction files generalizing witnessed with
  | nil => simp [proves]
  | cons file files ih =>
    have hlist : (named (split file.1) = [] ∨
        (named (split file.1)).take remainder.length ≠ remainder) ↔ ¬ Listed remainder file := by
      rw [Listed, List.prefix_iff_eq_take, not_and_or, Classical.not_not, eq_comm (a := remainder)]
    rw [proves]
    by_cases hskip : Listed remainder file
    · rw [if_neg (fun h => hlist.mp h hskip)]
      cases hsize : fs.getsize (joinAll directory (named (split file.1))) with
      | none => simp [ih, hsize]
      | some actual =>
        by_cases hsame : actual = file.2
        · simp [ih, hsize, hskip, hsame]
        · simp [hsize, hskip, hsame]
    · rw [if_pos (hlist.mpr hskip)]
      simp [ih, hskip]

theorem provesContent_iff :
    provesContent fs directory remainder files = true ↔ Exhibits fs directory remainder files := by
  rw [provesContent, proves_iff, Exhibits]
  simp only [Bool.false_eq_true, false_or]

/-! ### The position of the content -/

theorem mem_named {c : Text} (h : c ∈ named comps) :
    c ∈ comps ∧ c ≠ [] ∧ c ≠ ['.'] ∧ c ≠ ['.', '.'] := by
  simpa [named, and_assoc] using h

theorem commonPrefix_append (as bs : List Text) : commonPrefix as (as ++ bs) = as.length := by
  induction as with
  | nil => rfl
  | cons a as ih => rw [List.cons_append, commonPrefix, if_pos rfl, ih, List.length_cons]

theorem commonPrefix_cases (as bs : List Text) : commonPrefix as bs < as.length ∨ as <+: bs := by
  induction as generalizing bs with
  | nil => exact Or.inr List.nil_prefix
  | cons a as ih =>
    cases bs with
    | nil => exact Or.inl (Nat.zero_lt_succ _)
    | cons b bs =>
      rw [commonPrefix, List.length_cons, List.cons_prefix_cons]
      by_cases hab : a = b
      · simp only [hab, if_true, true_and]
        exact (ih bs).imp Nat.succ_lt_succ id
      · simp [hab]

-- A remainder is what of the content's place lies strictly below the save path.
theorem relativeComponents_iff (remainder : List Text) :
    relativeComponents fs content savePath = some remainder ↔
      place fs content = place fs savePath ++ remainder ∧ remainder ≠ [] := by
  have hname := location_abspath fs.absolute (normpath content)
  unfold relativeComponents
  rcases commonPrefix_cases (place fs savePath) (place fs content) with hshort | ⟨rest, hrest⟩
  · rcases Nat.exists_eq_succ_of_ne_zero (Nat.sub_ne_zero_of_lt hshort) with ⟨n, hn⟩
    dsimp only
    rw [hn, if_pos (Or.inr (by simp [List.replicate_succ]))]
    refine ⟨nofun, fun h => ?_⟩
    rw [h.1, commonPrefix_append] at hshort
    omega
  · have hrest' : ∀ v ∈ rest, v ≠ [] ∧ v ≠ ['.'] ∧ v ≠ ['.', '.'] := fun v hv =>
      hname v (by rw [← place, ← hrest]; exact List.mem_append_right _ hv)
    have hnamed : named rest = rest := by
      simpa [named, List.filter_eq_self, and_assoc] using hrest'
    dsimp only
    rw [← hrest, commonPrefix_append, Nat.sub_self, List.drop_left]
    simp only [List.replicate_zero, List.nil_append, List.append_cancel_left_eq, hnamed]
    cases rest with
    | nil => simp [eq_comm]
    | cons v rest =>
      have hhead := (hrest' v List.mem_cons_self).2.2
      simp only [reduceCtorEq, List.head?_cons, Option.some.injEq, hhead, or_self, if_false]
      exact ⟨fun h => ⟨h, h ▸ List.cons_ne_nil v rest⟩, And.left⟩

/-! ### Under a mount -/

theorem components_of_isUnder {path : Text} (mount : DownloadMount)
    (h : isUnder (normpath path) mount.path = true) :
    components mount.path <+: components path := by
  have hhead := mount.absolute
  have hmount : location mount.path = components mount.path := by
    rw [← location_normpath, mount.normal]
    rw [mount.normal]
    rintro heq
    rw [heq] at hhead
    exact absurd hhead (by decide)
  rw [isUnder, mount.normal, Bool.or_eq_true, decide_eq_true_eq, List.isPrefixOf_iff_prefix] at h
  have htext : (normpath path).head? = some '/' ∧
    location mount.path <+: location (normpath path) := by
    rcases h with h | ⟨rest, h⟩
    · rw [h]
      exact ⟨hhead, List.prefix_rfl⟩
    · rw [← h, List.append_assoc, List.singleton_append, location_append_sep]
      refine ⟨?_, List.prefix_append _ _⟩
      rw [List.head?_append, hhead]
      rfl
  rw [← hmount, ← location_normpath fun heq => absurd (heq ▸ htext.1) (by decide)]
  exact htext.2

theorem components_joinAll (hne : directory ≠ []) (hsep : ∀ c ∈ comps, '/' ∉ c)
    (hname : ∀ c ∈ comps, c ≠ [] ∧ c ≠ ['.'] ∧ c ≠ ['.', '.']) :
    components (joinAll directory comps) = components directory ++ comps := by
  induction comps generalizing directory with
  | nil => exact (List.append_nil _).symm
  | cons c comps ih =>
    have hc := List.mem_cons_self (a := c) (l := comps)
    rw [joinAll, List.foldl_cons, ← joinAll,
      ih (pathJoin_ne_nil hne c) (fun d hd => hsep d (List.mem_cons_of_mem c hd))
        fun d hd => hname d (List.mem_cons_of_mem c hd),
      components_pathJoin hne (hsep c hc) (hname c hc), List.append_assoc, List.singleton_append]

theorem exists_joinAll (hne : directory ≠ []) (h : fs.exists (joinAll directory comps) = true) :
    fs.exists directory = true := by
  induction comps generalizing directory with
  | nil => exact h
  | cons c comps ih => exact fs.above directory c hne (ih (pathJoin_ne_nil hne c) h)

theorem joinAll_ne_nil (hne : directory ≠ []) (comps : List Text) :
    joinAll directory comps ≠ [] := by
  induction comps generalizing directory with
  | nil => exact hne
  | cons c comps ih => exact ih (pathJoin_ne_nil hne c)

theorem mem_liveMounts {path : Text} (h : path ∈ liveMounts fs mounts) :
    ∃ mount ∈ mounts, mount.path = path ∧ isLiveMount fs path = true := by
  simp only [liveMounts, List.mem_filter, List.mem_map, Bool.and_eq_true] at h
  rcases h with ⟨⟨mount, hmount, rfl⟩, -, hlive⟩
  exact ⟨mount, hmount, rfl, hlive⟩

theorem contentIsMounted_spec (h : contentIsMounted fs content mounts = true) :
    liveMounts fs mounts = [] ∨ ∃ mount ∈ mounts, isLiveMount fs mount.path = true ∧
      components mount.path <+: components content := by
  unfold contentIsMounted at h
  dsimp only at h
  split at h
  · next hnone => exact Or.inl (List.map_eq_nil_iff.mp hnone)
  rcases List.any_eq_true.mp h with ⟨path, hlive, hunder⟩
  rcases List.mem_map.mp hlive with ⟨path, hpath, rfl⟩
  rcases mem_liveMounts hpath with ⟨mount, hmount, rfl, hlive⟩
  rw [mount.normal] at hunder
  exact Or.inr ⟨mount, hmount, hlive, components_of_isUnder mount hunder⟩

theorem remapToVisible_under (h : remapToVisible fs savePath mounts fs.isdir false false =
    some directory) :
    fs.isdir directory = true ∧ directory ≠ [] ∧
      ∃ mount ∈ mounts, isLiveMount fs mount.path = true ∧
      components mount.path <+: components directory := by
  unfold remapToVisible at h
  by_cases hempty : savePath = []
  · rw [if_pos hempty] at h
    exact nomatch h
  rw [if_neg hempty] at h
  simp only [Bool.false_and, Bool.false_eq_true, if_false, Option.or_none] at h
  by_cases hunder : (liveMounts fs mounts).any (isUnder (normpath savePath)) = true
  · rw [if_pos hunder] at h
    rcases List.any_eq_true.mp hunder with ⟨path, hlive, hunder⟩
    rcases mem_liveMounts hlive with ⟨mount, hmount, rfl, hlive⟩
    split at h
    · next hdir =>
      cases h
      exact ⟨hdir, hempty, mount, hmount, hlive, components_of_isUnder mount hunder⟩
    · exact nomatch h
  · rw [if_neg hunder] at h
    split at h
    · exact nomatch h
    rcases List.exists_of_findSome?_eq_some h with ⟨suffix, hsuf, hfind⟩
    rcases List.mem_map.mp (List.mem_of_find?_eq_some hfind) with ⟨path, hlive, rfl⟩
    rcases mem_liveMounts hlive with ⟨mount, hmount, rfl, hlive⟩
    have hcomps : ∀ c ∈ suffix, c ∈ named (split (normpath savePath)) := fun c hc =>
      ((List.mem_tails _ _).mp (List.mem_filter.mp hsuf).1).subset hc
    have hne : mount.path ≠ [] := fun heq => absurd (heq ▸ mount.absolute) (by decide)
    have hjoin := components_joinAll hne
      (fun c hc => sep_notMem_of_mem_split (mem_named (hcomps c hc)).1)
      fun c hc => (mem_named (hcomps c hc)).2
    refine ⟨List.find?_some hfind, fun heq => ?_, mount, hmount, hlive, ?_⟩
    · rw [heq] at hjoin
      have hnil := (List.append_eq_nil_iff.mp hjoin.symm).2
      exact of_decide_eq_true (List.mem_filter.mp hsuf).2 hnil
    · rw [hjoin]
      exact List.prefix_append _ _

/-! ### The answers -/

/-- The content at a directory that a live mount has: its position there is the one below
    the save path, and the listed files prove it. -/
structure Remapped (fs : FileSystem) (mounts : List DownloadMount) (content savePath : Text)
    (files : List (Text × Nat)) (directory : Text) (remainder : List Text) : Prop where
  position : place fs content = place fs savePath ++ remainder ∧ remainder ≠ []
  isdir : fs.isdir directory = true ∧ directory ≠ []
  mounted : ∃ mount ∈ mounts, isLiveMount fs mount.path = true ∧
    components mount.path <+: components directory
  proof : Exhibits fs directory remainder files

theorem Remapped.below (h : Remapped fs mounts content savePath files directory remainder) :
    ∃ mount ∈ mounts, isLiveMount fs mount.path = true ∧
      components mount.path <+: components (joinAll directory remainder) ∧
      components mount.path ≠ components (joinAll directory remainder) := by
  rcases h.mounted with ⟨mount, hmount, hlive, hpre⟩
  have hname : ∀ c ∈ remainder, '/' ∉ c ∧ c ≠ [] ∧ c ≠ ['.'] ∧ c ≠ ['.', '.'] := fun c hc => by
    have hmem : c ∈ place fs content := h.position.1 ▸ List.mem_append_right _ hc
    exact ⟨sep_notMem_of_mem_split (List.mem_filter.mp hmem).1,
      location_abspath fs.absolute (normpath content) c hmem⟩
  refine ⟨mount, hmount, hlive, ?_⟩
  rw [components_joinAll h.isdir.2 (fun c hc => (hname c hc).1) fun c hc => (hname c hc).2]
  refine ⟨hpre.trans (List.prefix_append _ _), fun heq => h.position.2 ?_⟩
  have hlen := hpre.length_le
  rw [heq, List.length_append] at hlen
  exact List.eq_nil_of_length_eq_zero (by omega)

theorem Remapped.exists (h : Remapped fs mounts content savePath files directory remainder) :
    fs.exists (joinAll directory remainder) = true := by
  rcases h.proof.1 with ⟨file, -, hlist, hsize⟩
  rcases hlist.2 with ⟨rest, hrest⟩
  suffices hlonger : fs.exists (joinAll (joinAll directory remainder) rest) = true from
    exists_joinAll (joinAll_ne_nil h.isdir.2 remainder) hlonger
  rw [joinAll, joinAll, ← List.foldl_append, hrest, FileSystem.exists, ← Option.isSome_map]
  exact congrArg Option.isSome hsize

-- What the save path leads to: an answer is a remapped path, and where there is none the
-- content is not below it, or nothing under a mount is known to be it.
theorem remapSavePath_spec :
    match remapSavePath fs content savePath files mounts with
    | .inl answer => ∀ result, answer = some result → ∃ directory remainder,
        Remapped fs mounts content savePath files directory remainder ∧
        result = joinAll directory remainder
    | .inr () =>
        (¬ ∃ remainder, place fs content = place fs savePath ++ remainder ∧ remainder ≠ []) ∨
        (remapToVisible fs savePath mounts fs.isdir false false = none ∧
          ∀ remainder, place fs content = place fs savePath ++ remainder →
            ∀ mount ∈ liveMounts fs mounts, ¬ Exhibits fs mount remainder files) := by
  unfold remapSavePath
  cases hpos : relativeComponents fs content savePath with
  | none =>
    refine Or.inl fun ⟨remainder, hremainder⟩ => ?_
    rw [(relativeComponents_iff remainder).mpr hremainder] at hpos
    exact nomatch hpos
  | some remainder =>
    have hlow := (relativeComponents_iff remainder).mp hpos
    cases remainder with
    | nil => exact absurd rfl hlow.2
    | cons c comps =>
      dsimp only
      -- The save path is remapped first, and failing that each live mount is tried.
      cases hvisible : remapToVisible fs savePath mounts fs.isdir false false with
      | some directory =>
        rcases remapToVisible_under hvisible with ⟨hdir, hne, hmounted⟩
        intro result hres
        split at hres
        · next hpf =>
          cases hres
          exact ⟨directory, c :: comps,
            ⟨hlow, ⟨hdir, hne⟩, hmounted, provesContent_iff.mp hpf⟩, rfl⟩
        · exact nomatch hres
      | none =>
        dsimp only
        cases hroot : (liveMounts fs mounts).find? fun mount =>
            provesContent fs mount (c :: comps) files with
        | some path =>
          intro result hres
          cases hres
          have hpf : provesContent fs path (c :: comps) files = true :=
            List.find?_some (p := fun mount => provesContent fs mount (c :: comps) files) hroot
          rcases mem_liveMounts (List.mem_of_find?_eq_some hroot) with ⟨mount, hmount, rfl, hlive⟩
          have hne : mount.path ≠ [] := fun heq => absurd (heq ▸ mount.absolute) (by decide)
          exact ⟨mount.path, c :: comps,
            ⟨hlow, ⟨(Bool.and_eq_true_iff.mp hlive).1, hne⟩,
              ⟨mount, hmount, hlive, List.prefix_rfl⟩,
            provesContent_iff.mp hpf⟩, rfl⟩
        | none =>
          refine Or.inr ⟨rfl, fun remainder hremainder mount hmount hexhibits => ?_⟩
          have hsame : remainder = c :: comps :=
            List.append_cancel_left (hremainder.symm.trans hlow.1)
          have hnone := List.find?_eq_none.mp hroot mount hmount
          exact hnone (provesContent_iff.mpr (hsame ▸ hexhibits))

/-- A host where all directories lead to one of two, and `/downloads` is a mount. -/
def twinned : FileSystem where
  stat path := if path.isPrefixOf "/srv/dl/movies".toList ||
    path.isPrefixOf "/downloads/movies".toList then some (true, 0) else none
  ismount path := path = "/downloads".toList
  cwd := ['/']
  absolute := rfl
  above path component _ h := by
    have hext : path <+: pathJoin path component := by
      unfold pathJoin
      split <;> exact List.prefix_append _ _
    split at h
    · next hbelow =>
      rw [Bool.or_eq_true, List.isPrefixOf_iff_prefix, List.isPrefixOf_iff_prefix] at hbelow
      rw [if_pos]
      · rfl
      · rw [Bool.or_eq_true, List.isPrefixOf_iff_prefix, List.isPrefixOf_iff_prefix]
        exact hbelow.imp hext.trans hext.trans
    · exact nomatch h

def downloads : DownloadMount := ⟨"/downloads".toList, by decide +kernel, by decide +kernel⟩

/-- Where an answer lies. One other than the content is remapped. The content itself is
    there, and it is under a live mount, or none is live, or there is no save path with the
    content strictly below it, or no directory was found for the save path and no mount is
    proven to be it. -/
theorem remapDownloadContent_proven (fs : FileSystem) (mounts : List DownloadMount)
    (content savePath : Text) (files : List (Text × Nat)) (result : Text)
    (h : remapDownloadContent fs content savePath files mounts = some result) :
    (result ≠ content → ∃ directory remainder,
      Remapped fs mounts content savePath files directory remainder ∧
      result = joinAll directory remainder ∧
      ∃ mount ∈ mounts, isLiveMount fs mount.path = true ∧
        components mount.path <+: components result ∧ components mount.path ≠ components result) ∧
    (result = content → fs.exists content = true ∧
      ((∃ mount ∈ mounts, isLiveMount fs mount.path = true ∧
          components mount.path <+: components content) ∨
        liveMounts fs mounts = [] ∨ savePath = [] ∨
        (¬ ∃ remainder, place fs content = place fs savePath ++ remainder ∧ remainder ≠ []) ∨
        (remapToVisible fs savePath mounts fs.isdir false false = none ∧
          ∀ remainder, place fs content = place fs savePath ++ remainder →
            ∀ mount ∈ liveMounts fs mounts, ¬ Exhibits fs mount remainder files))) := by
  have hverbatim : (if fs.exists content then some content else none) = some result →
      result = content ∧ fs.exists content = true := by
    intro h
    split at h
    · next hexists => exact ⟨(Option.some.inj h).symm, hexists⟩
    · exact nomatch h
  unfold remapDownloadContent at h
  split at h
  · exact nomatch h
  split at h
  · next hfast =>
    -- The content is seen as it is.
    rw [Bool.and_eq_true] at hfast
    have hsame := Option.some.inj h
    refine ⟨fun hne => absurd hsame.symm hne, fun _ => ⟨hfast.1, ?_⟩⟩
    rcases contentIsMounted_spec hfast.2 with hnone | hmounted
    · exact Or.inr (Or.inl hnone)
    · exact Or.inl hmounted
  · dsimp only at h
    have hspec := @remapSavePath_spec fs mounts content savePath files
    split at h
    · next hnone =>
      rcases hverbatim h with ⟨hsame, hexists⟩
      exact ⟨fun hne => absurd hsame hne, fun _ => ⟨hexists, Or.inr (Or.inr (Or.inl hnone))⟩⟩
    split at h
    · next answer hans =>
      rw [hans] at hspec
      rcases hspec result h with ⟨directory, remainder, hremap, rfl⟩
      refine ⟨fun _ => ⟨directory, remainder, hremap, rfl, hremap.below⟩, fun hsame => ?_⟩
      rcases hremap.below with ⟨mount, hmount, hlive, hlow, -⟩
      exact ⟨hsame ▸ hremap.exists, Or.inl ⟨mount, hmount, hlive, hsame ▸ hlow⟩⟩
    · next hans =>
      rw [hans] at hspec
      rcases hverbatim h with ⟨hsame, hexists⟩
      exact ⟨fun hne => absurd hsame hne,
        fun _ => ⟨hexists, Or.inr (Or.inr (Or.inr hspec))⟩⟩

/-- The save path is the source of the mount, and the one listed file proves it. -/
theorem remapDownloadContent_proven_movies :
    ∃ directory remainder,
      Remapped twinned [downloads] "/srv/dl/movies".toList "/srv/dl".toList [("movies".toList, 0)]
        directory remainder ∧
      "/downloads/movies".toList = joinAll directory remainder ∧
      ∃ mount ∈ [downloads], isLiveMount twinned mount.path = true ∧
        components mount.path <+: components "/downloads/movies".toList ∧
        components mount.path ≠ components "/downloads/movies".toList :=
  (remapDownloadContent_proven _ _ _ _ _ _ (by decide +kernel)).1 (by decide +kernel)

/-- The content of a torrent is its save path, and `/downloads/movies` is a directory. -/
theorem save_path_kept :
    let path := "/srv/dl/movies".toList
    remapDownloadContent twinned path path [] [downloads] = some path ∧
      isLiveMount twinned downloads.path = true ∧ isUnder path downloads.path = false ∧
      remapToVisible twinned path [downloads] twinned.isdir false false =
        some "/downloads/movies".toList := by
  decide +kernel

end PathVisibility

end PlexManager
