/-!
# Paths of a POSIX system as texts

A path is a text, and two texts may name one place. Normalization works on the
components between the separators: it drops the empty ones and `.`, and lets
`..` take away the one before it. What it leaves of the separators at the front
is one, or two where there were exactly two.

Once two paths are normalized and begin with one separator, containment is a
prefix relation of their components, and it can be read off the texts: the one
text followed by a separator is a prefix of the other. The root alone is
different. It is a separator already, and followed by another one it is a prefix
of nothing that is normalized.

## Theorems

* `split_join`, `location_join`: Joining and splitting are inverse.
* `abspath_eq`: What a normalized absolute path looks like.
* `append_sep_prefix_iff`: Containment of texts is containment of components.
-/

namespace PosixPath

/-- `text.split('/')`. -/
def split : List Char → List (List Char)
  | [] => [[]]
  | c :: cs =>
      if c = '/' then [] :: split cs
      else
        match split cs with
        | [] => [[c]]
        | w :: ws => (c :: w) :: ws

/-- `'/'.join(components)`. -/
def join : List (List Char) → List Char
  | [] => []
  | [w] => w
  | w :: v :: ws => w ++ '/' :: join (v :: ws)

/-- The separators that normalization keeps at the front. -/
def initialSlashes : List Char → Nat
  | '/' :: '/' :: '/' :: _ => 1
  | '/' :: '/' :: _ => 2
  | '/' :: _ => 1
  | _ => 0

/-- One more component of a path, on a stack of those before it. -/
def push (rooted : Bool) (stack : List (List Char)) (comp : List Char) : List (List Char) :=
  if comp = [] ∨ comp = ['.'] then stack
  else if comp ≠ ['.', '.'] ∨ (rooted = false ∧ stack = []) ∨ stack.head? = some ['.', '.'] then
    comp :: stack
  else stack.tail

def components (path : List Char) : List (List Char) :=
  ((split path).foldl (push (initialSlashes path ≠ 0)) []).reverse

def normpath (path : List Char) : List Char :=
  let text := List.replicate (initialSlashes path) '/' ++ join (components path)
  if text = [] then ['.'] else text

/-- `os.path.join` of a directory and a relative path. -/
def pathJoin (directory path : List Char) : List Char :=
  if directory = [] ∨ directory.getLast? = some '/' then directory ++ path
  else directory ++ '/' :: path

/-- `os.path.abspath` in a working directory. -/
def abspath (cwd path : List Char) : List Char :=
  normpath (if path.head? = some '/' then path else pathJoin cwd path)

/-- The components of a text that name a place. -/
def location (text : List Char) : List (List Char) := (split text).filter (· ≠ [])

/-! ### Splitting and joining -/

/-- Components as normalization leaves them: none is empty or has a separator. -/
def Clean (comps : List (List Char)) : Prop := ∀ w ∈ comps, w ≠ [] ∧ '/' ∉ w

theorem split_ne_nil (text : List Char) : split text ≠ [] := by
  cases text with
  | nil => simp [split]
  | cons c cs =>
    simp only [split]
    split
    · simp
    · split <;> simp

variable {comps : List (List Char)} {w : List Char} {more : List (List Char)}
  {path directory cwd : List Char}

theorem sep_notMem_of_mem_split {text : List Char} (h : w ∈ split text) : '/' ∉ w := by
  induction text generalizing w with
  | nil =>
    simp only [split, List.mem_singleton] at h
    simp [h]
  | cons c cs ih =>
    simp only [split] at h
    split at h
    · rcases List.mem_cons.mp h with rfl | h
      · simp
      · exact ih h
    rename_i hc
    cases hs : split cs with
    | nil => exact absurd hs (split_ne_nil cs)
    | cons v vs =>
      rw [hs] at h
      rcases List.mem_cons.mp h with rfl | h
      · have hv := ih (w := v) (by simp [hs])
        simp only [List.mem_cons, not_or]
        exact ⟨fun heq => hc heq.symm, hv⟩
      · exact ih (by simp [hs, h])

theorem split_append_sep (path rest : List Char) :
    split (path ++ '/' :: rest) = split path ++ split rest := by
  induction path with
  | nil => simp [split]
  | cons c cs ih =>
    by_cases hc : c = '/'
    · simp [split, hc, ih]
    · rw [List.cons_append, split, if_neg hc, ih, split, if_neg hc]
      cases hs : split cs with
      | nil => exact absurd hs (split_ne_nil cs)
      | cons v vs => rfl

theorem split_component (hw : '/' ∉ w) : split w = [w] := by
  induction w with
  | nil => rfl
  | cons c cs ih =>
    simp only [List.mem_cons, not_or] at hw
    have hc : c ≠ '/' := fun heq => hw.1 heq.symm
    rw [split, if_neg hc, ih hw.2]

theorem split_join (hne : comps ≠ []) (h : Clean comps) : split (join comps) = comps := by
  induction comps with
  | nil => exact absurd rfl hne
  | cons w ws ih =>
    have hw : '/' ∉ w := (h w List.mem_cons_self).2
    cases ws with
    | nil => exact split_component hw
    | cons v vs =>
      have hrest : Clean (v :: vs) := fun u hu => h u (List.mem_cons_of_mem w hu)
      rw [join, split_append_sep, split_component hw, ih (by simp) hrest]
      rfl

theorem location_append_sep (path rest : List Char) :
    location (path ++ '/' :: rest) = location path ++ location rest := by
  rw [location, split_append_sep, List.filter_append]
  rfl

theorem join_append (hne : comps ≠ []) (hmore : more ≠ []) :
    join (comps ++ more) = join comps ++ '/' :: join more := by
  induction comps with
  | nil => exact absurd rfl hne
  | cons w ws ih =>
    cases ws with
    | nil =>
      cases more with
      | nil => exact absurd rfl hmore
      | cons v vs => rfl
    | cons v vs =>
      have hrest := ih (by simp)
      simp only [List.cons_append, join, List.append_assoc] at hrest ⊢
      rw [hrest]

theorem location_join (hne : comps ≠ []) (h : Clean comps) :
    location ('/' :: join comps) = comps := by
  have hspl : split ('/' :: join comps) = [] :: comps := by
    rw [split, if_pos rfl, split_join hne h]
  rw [location, hspl, List.filter_cons_of_neg (by simp)]
  exact List.filter_eq_self.mpr fun w hw => by simpa using (h w hw).1

/-! ### Normal forms -/

theorem push_clean {rooted : Bool} {stack : List (List Char)} {comp : List Char}
    (hstack : Clean stack) (hcomp : '/' ∉ comp) : Clean (push rooted stack comp) := by
  unfold push
  split
  · exact hstack
  rename_i hkeep
  split
  · intro w hw
    rcases List.mem_cons.mp hw with rfl | hw
    · exact ⟨fun heq => hkeep (Or.inl heq), hcomp⟩
    · exact hstack w hw
  · exact fun w hw => hstack w (List.mem_of_mem_tail hw)

theorem components_clean (path : List Char) : Clean (components path) := by
  have hfold : ∀ (ws : List (List Char)) (rooted : Bool) (stack : List (List Char)),
      Clean stack → (∀ w ∈ ws, '/' ∉ w) → Clean (ws.foldl (push rooted) stack) := by
    intro ws rooted
    induction ws with
    | nil => exact fun _ h _ => h
    | cons w ws ih =>
      intro stack hstack hws
      exact ih (push rooted stack w) (push_clean hstack (hws w List.mem_cons_self))
        fun v hv => hws v (List.mem_cons_of_mem w hv)
  intro w hw
  exact hfold _ _ [] (fun v hv => absurd hv (by simp)) (fun v => sep_notMem_of_mem_split) w
    (List.mem_reverse.mp hw)

theorem initialSlashes_of_head (h : path.head? = some '/') :
    initialSlashes path = 1 ∨ initialSlashes path = 2 := by
  unfold initialSlashes
  split
  · exact Or.inl rfl
  · exact Or.inr rfl
  · exact Or.inl rfl
  · rename_i hno
    cases path with
    | nil => exact absurd h (by simp)
    | cons c cs =>
      simp only [List.head?_cons, Option.some.injEq] at h
      subst h
      exact absurd rfl (hno cs)

theorem initialSlashes_ne_zero (path : List Char) :
    initialSlashes path ≠ 0 ↔ path.head? = some '/' := by
  constructor
  · intro h
    unfold initialSlashes at h
    split at h
    · rfl
    · rfl
    · rfl
    · exact absurd rfl h
  · intro h
    rcases initialSlashes_of_head h with h | h <;> omega

theorem pathJoin_ne_nil (hne : directory ≠ []) (path : List Char) :
    pathJoin directory path ≠ [] := by
  unfold pathJoin
  split <;> simp [hne]

/-- A name that is joined to a path is one more component. -/
theorem components_pathJoin (hne : directory ≠ []) (hsep : '/' ∉ w)
    (hname : w ≠ [] ∧ w ≠ ['.'] ∧ w ≠ ['.', '.']) :
    components (pathJoin directory w) = components directory ++ [w] := by
  have hrooted : decide (initialSlashes (pathJoin directory w) ≠ 0) =
      decide (initialSlashes directory ≠ 0) := by
    rw [decide_eq_decide, initialSlashes_ne_zero, initialSlashes_ne_zero, pathJoin]
    cases directory with
    | nil => exact absurd rfl hne
    | cons c cs => split <;> rfl
  have hpush (rooted : Bool) (stack : List (List Char)) : push rooted stack w = w :: stack := by
    rw [push, if_neg (by simp [hname]), if_pos (Or.inl hname.2.2)]
  unfold components
  rw [hrooted, pathJoin]
  by_cases hend : directory.getLast? = some '/'
  · rcases List.getLast?_eq_some_iff.mp hend with ⟨front, rfl⟩
    -- The separator at the end stands before an empty component.
    rw [if_pos (Or.inr hend), List.append_assoc, List.singleton_append, split_append_sep,
      split_append_sep, split_component hsep]
    have hnil (rooted : Bool) (stack : List (List Char)) : push rooted stack [] = stack :=
      if_pos (Or.inl rfl)
    simp only [List.foldl_append, List.foldl_cons, List.foldl_nil, split, hpush, hnil,
      List.reverse_cons]
  · rw [if_neg (by simp [hne, hend]), split_append_sep, split_component hsep]
    simp only [List.foldl_append, List.foldl_cons, List.foldl_nil, hpush, List.reverse_cons]

/-- Below the root nothing is left of the dots. -/
theorem components_rooted (h : path.head? = some '/') :
    ∀ v ∈ components path, v ≠ ['.'] ∧ v ≠ ['.', '.'] := by
  have hrooted : decide (initialSlashes path ≠ 0) = true :=
    decide_eq_true ((initialSlashes_ne_zero path).mpr h)
  have hfold (ws stack : List (List Char)) (hstack : ∀ v ∈ stack, v ≠ ['.'] ∧ v ≠ ['.', '.']) :
      ∀ v ∈ ws.foldl (push true) stack, v ≠ ['.'] ∧ v ≠ ['.', '.'] := by
    induction ws generalizing stack with
    | nil => exact hstack
    | cons w ws ih =>
      refine ih _ fun v hv => ?_
      rw [push] at hv
      split at hv
      · exact hstack v hv
      rename_i hkeep
      split at hv
      · rename_i hname
        rcases List.mem_cons.mp hv with rfl | hv
        · refine ⟨fun heq => hkeep (Or.inr heq), fun heq => ?_⟩
          rcases hname with hname | hname | hname
          · exact hname heq
          · exact nomatch hname.1
          · exact (hstack _ (List.mem_of_mem_head? hname)).2 rfl
        · exact hstack v hv
      · exact hstack v (List.mem_of_mem_tail hv)
  intro v hv
  rw [components, hrooted, List.mem_reverse] at hv
  exact hfold _ [] (fun _ h => absurd h List.not_mem_nil) v hv

/-- The text of a normalized path has its components. -/
theorem location_normpath (h : normpath path ≠ ['.']) :
    location (normpath path) = components path := by
  have hslashes (n : Nat) (text : List Char) :
      location (List.replicate n '/' ++ text) = location text := by
    induction n with
    | zero => rfl
    | succ n ih =>
      rw [List.replicate_succ, List.cons_append, ← ih]
      exact location_append_sep [] _
  unfold normpath at h ⊢
  by_cases htext : List.replicate (initialSlashes path) '/' ++ join (components path) = []
  · exact absurd (if_pos htext) h
  rw [if_neg htext, hslashes]
  by_cases hnone : components path = []
  · rw [hnone]
    rfl
  · rw [location, split_join hnone (components_clean path)]
    exact List.filter_eq_self.mpr fun w hw => by simpa using (components_clean path w hw).1

theorem normpath_rooted (h : path.head? = some '/') :
    normpath path = '/' :: join (components path) ∨
      normpath path = '/' :: '/' :: join (components path) := by
  unfold normpath
  rcases initialSlashes_of_head h with hone | htwo
  · exact Or.inl (by simp [hone])
  · exact Or.inr (by simp [htwo, List.replicate])

theorem abspath_rooted (hcwd : cwd.head? = some '/') (path : List Char) :
    ∃ full : List Char, full.head? = some '/' ∧ abspath cwd path = normpath full := by
  unfold abspath
  split
  · rename_i h
    exact ⟨path, h, rfl⟩
  refine ⟨pathJoin cwd path, ?_, rfl⟩
  cases cwd with
  | nil => exact absurd hcwd (by simp)
  | cons c cs =>
    simp only [List.head?_cons, Option.some.injEq] at hcwd
    subst hcwd
    unfold pathJoin
    split <;> rfl

/-- An absolute path is normalized to its components after one separator, or
    after two. -/
theorem abspath_eq (hcwd : cwd.head? = some '/') (path : List Char) :
    ∃ comps, Clean comps ∧
      (abspath cwd path = '/' :: join comps ∨ abspath cwd path = '/' :: '/' :: join comps) := by
  rcases abspath_rooted hcwd path with ⟨full, hfull, heq⟩
  exact ⟨components full, components_clean full, heq ▸ normpath_rooted hfull⟩

theorem location_abspath (hcwd : cwd.head? = some '/') (path : List Char) :
    ∀ v ∈ location (abspath cwd path), v ≠ [] ∧ v ≠ ['.'] ∧ v ≠ ['.', '.'] := by
  rcases abspath_rooted hcwd path with ⟨full, hfull, heq⟩
  have htext : normpath full ≠ ['.'] := by
    rcases normpath_rooted hfull with h | h <;> rw [h] <;> simp
  rw [heq, location_normpath htext]
  exact fun v hv => ⟨(components_clean full v hv).1, components_rooted hfull v hv⟩

/-- A text after which a separator still fits in front of another: containment
    of places below the root. -/
theorem append_sep_prefix_iff (hne : comps ≠ []) (h : Clean comps) (hmore : Clean more) :
    ('/' :: join comps) ++ ['/'] <+: '/' :: join more ↔ comps <+: more ∧ comps ≠ more := by
  rw [List.cons_append, List.cons_prefix_cons]
  constructor
  · rintro ⟨_, rest, hrest⟩
    have hne' : more ≠ [] := by
      rintro rfl
      exact absurd hrest (by simp [join])
    have hspl : comps ++ split rest = more := by
      rw [← split_join hne' hmore, ← hrest, List.append_assoc, List.singleton_append,
        split_append_sep, split_join hne h]
    refine ⟨⟨split rest, hspl⟩, ?_⟩
    rintro rfl
    have hlen := congrArg List.length hspl
    rw [List.length_append] at hlen
    exact split_ne_nil rest (List.eq_nil_of_length_eq_zero (by omega))
  · rintro ⟨⟨rest, rfl⟩, hdiff⟩
    have hrest : rest ≠ [] := by
      rintro rfl
      exact hdiff (by simp)
    rw [join_append hne hrest]
    exact ⟨rfl, ⟨join rest, by simp⟩⟩

end PosixPath
