import PlexManager.Core.ImportMarkers
import PlexManager.Theory.HardCutoff

/-!
# Markers that follow one another

Two markers with one separator between them are both in the path, but the first match
takes the separator, and the second is not found: of a run of such markers every second
one is hidden. In the path it can be the one that shows a split, and in the title it can
be the one that explains a marker of the path.

## Theorems

* `isMultiPart_exact`: When a split is recognised.
* `isMultiPart_hides`: A second part that is not.
-/

namespace PlexManager

namespace ImportValidation

open SourceMapping

/-- A text has a marker with a number: one of the words and the number between
    separators, or the ends of the text. -/
def Carries (t : TextTables) (words : List String) (text : String) (n : Nat) : Prop :=
  ∃ before c rest taken, '/' :: text.toList = before ++ c :: rest ∧ isBoundary t c = true ∧
    numbered t words rest = some (n, taken)

/-- The numbers of the markers at the characters that `finditer` passes over. -/
def hiddenFrom (t : TextTables) (words : List String) : Nat → List Char → List Nat
  | _, [] => []
  | taken + 1, c :: rest =>
      ((markerAt t words c rest).map Prod.fst).toList ++ hiddenFrom t words taken rest
  | 0, c :: rest =>
      match markerAt t words c rest with
      | some (_, taken) => hiddenFrom t words taken rest
      | none => hiddenFrom t words 0 rest

def hidden (t : TextTables) (words : List String) (text : String) : List Nat :=
  hiddenFrom t words 0 ('/' :: text.toList)

/-- The path has a disk marker, or a part marker with a number that no part marker of
    the title has. -/
def IsSplit (t : TextTables) (relativePath expectedTitle : String) : Prop :=
  (∃ n, Carries t diskWords relativePath n) ∨
    ∃ n, Carries t partWords relativePath n ∧ ¬ Carries t partWords expectedTitle n

/-- There is a disk marker, or a marker of the path is found that the title does not
    explain; or else the path hides such a marker just where another one is found that
    the title explains by a marker it hides. -/
def SplitSeen (t : TextTables) (relativePath expectedTitle : String) : Prop :=
  (∃ n, Carries t diskWords relativePath n) ∨
    (∃ n ∈ finditer t partWords relativePath, ¬ Carries t partWords expectedTitle n) ∨
    ((∃ n ∈ hidden t partWords relativePath, ¬ Carries t partWords expectedTitle n) ↔
      ∃ n ∈ finditer t partWords relativePath,
        n ∈ hidden t partWords expectedTitle ∧ n ∉ finditer t partWords expectedTitle)

theorem markerAt_eq_some {t : TextTables} {words : List String} {c : Char} {rest : List Char}
    {found : Nat × Nat} :
    markerAt t words c rest = some found ↔
      isBoundary t c = true ∧ numbered t words rest = some found := by
  unfold markerAt
  split
  · simp [*]
  · simp [*]

variable (t : TextTables) (words : List String)

theorem mem_scan (n taken : Nat) (text : List Char) :
    (n ∈ finditerFrom t words taken text ∨ n ∈ hiddenFrom t words taken text) ↔
      ∃ before c rest taken', text = before ++ c :: rest ∧
        markerAt t words c rest = some (n, taken') := by
  have hcons : ∀ (c : Char) (rest : List Char),
      (∃ before c' rest' taken', c :: rest = before ++ c' :: rest' ∧
        markerAt t words c' rest' = some (n, taken')) ↔
      (∃ taken', markerAt t words c rest = some (n, taken')) ∨
        ∃ before c' rest' taken', rest = before ++ c' :: rest' ∧
          markerAt t words c' rest' = some (n, taken') := by
    intro c rest
    constructor
    · rintro ⟨before, c', rest', taken', htext, hmark⟩
      cases before with
      | nil =>
        obtain ⟨rfl, rfl⟩ := List.cons.inj htext
        exact .inl ⟨taken', hmark⟩
      | cons b before =>
        exact .inr ⟨before, c', rest', taken', (List.cons.inj htext).2, hmark⟩
    · rintro (⟨taken', hmark⟩ | ⟨before, c', rest', taken', rfl, hmark⟩)
      · exact ⟨[], c, rest, taken', rfl, hmark⟩
      · exact ⟨c :: before, c', rest', taken', rfl, hmark⟩
  induction text generalizing taken with
  | nil => simp [finditerFrom, hiddenFrom]
  | cons c rest ih =>
    rw [hcons]
    -- What begins among the characters that a marker has taken is hidden.
    cases taken with
    | succ taken =>
      have hrest := ih taken
      rw [finditerFrom, hiddenFrom, List.mem_append]
      simp only [← hrest]
      cases hmark : markerAt t words c rest with
      | none => simp
      | some found =>
        obtain ⟨m, len⟩ := found
        simp only [Option.map_some, Option.toList_some, List.mem_singleton,
          Option.some.injEq, Prod.mk.injEq, exists_eq_right']
        tauto
    | zero =>
      rw [finditerFrom, hiddenFrom]
      cases hmark : markerAt t words c rest with
      | none =>
        simp only [← ih 0, reduceCtorEq, exists_false, false_or]
      | some found =>
        obtain ⟨m, len⟩ := found
        simp only [← ih len, List.mem_cons, Option.some.injEq, Prod.mk.injEq,
          exists_eq_right']
        tauto

theorem carries_iff (text : String) (n : Nat) :
    Carries t words text n ↔ n ∈ finditer t words text ∨ n ∈ hidden t words text := by
  rw [finditer, hidden, mem_scan]
  simp only [markerAt_eq_some, Carries]

theorem search_iff (text : String) : search t words text = true ↔ ∃ n, Carries t words text n := by
  rw [search, List.any_eq_true]
  constructor
  · rintro ⟨suffix, hsuf, hgot⟩
    rw [List.mem_tails] at hsuf
    rcases hsuf with ⟨before, htext⟩
    cases suffix with
    | nil => exact nomatch hgot
    | cons c rest =>
      rcases Option.isSome_iff_exists.mp hgot with ⟨⟨n, taken⟩, hmark⟩
      exact ⟨n, before, c, rest, taken, htext.symm, markerAt_eq_some.mp hmark⟩
  · rintro ⟨n, before, c, rest, taken, htext, hmark⟩
    refine ⟨c :: rest, (List.mem_tails _ _).mpr ⟨before, htext.symm⟩, ?_⟩
    show (markerAt t words c rest).isSome = true
    rw [markerAt_eq_some.mpr hmark]
    rfl

theorem isMultiPart_iff (relativePath expectedTitle : String) :
    isMultiPart t relativePath expectedTitle = true ↔
      (∃ n, Carries t diskWords relativePath n) ∨
        ∃ n ∈ finditer t partWords relativePath, n ∉ finditer t partWords expectedTitle := by
  rw [← search_iff, isMultiPart]
  by_cases hdisk : search t diskWords relativePath = true
  · simp [hdisk]
  · simp [hdisk]

/-- A split is recognised exactly where no hidden marker makes the difference. -/
theorem isMultiPart_exact (t : TextTables) (relativePath expectedTitle : String) :
    (isMultiPart t relativePath expectedTitle = true ↔ IsSplit t relativePath expectedTitle) ↔
      SplitSeen t relativePath expectedTitle := by
  rw [isMultiPart_iff, IsSplit, SplitSeen]
  by_cases hdisk : ∃ n, Carries t diskWords relativePath n
  · simp only [hdisk, true_or]
  simp only [hdisk, false_or]
  by_cases hgot : ∃ n ∈ finditer t partWords relativePath, ¬ Carries t partWords expectedTitle n
  · -- The marker that is found is one of the path, and neither found nor hidden in the title.
    rcases hgot with ⟨n, hn, hnone⟩
    have hspl : ∃ n, Carries t partWords relativePath n ∧ ¬ Carries t partWords expectedTitle n :=
      ⟨n, (carries_iff t partWords relativePath n).mpr (.inl hn), hnone⟩
    have hseen : ∃ n ∈ finditer t partWords relativePath, n ∉ finditer t partWords expectedTitle :=
      ⟨n, hn, fun h => hnone ((carries_iff t partWords expectedTitle n).mpr (.inl h))⟩
    exact iff_of_true (iff_of_true hseen hspl) (.inl ⟨n, hn, hnone⟩)
  · simp only [hgot, false_or]
    have hread : (∃ n ∈ finditer t partWords relativePath,
        n ∉ finditer t partWords expectedTitle) ↔
        ∃ n ∈ finditer t partWords relativePath,
          n ∈ hidden t partWords expectedTitle ∧ n ∉ finditer t partWords expectedTitle := by
      constructor
      · rintro ⟨n, hn, hnot⟩
        have htitle : Carries t partWords expectedTitle n :=
          Classical.byContradiction fun h => hgot ⟨n, hn, h⟩
        rcases (carries_iff t partWords expectedTitle n).mp htitle with h | h
        · exact absurd h hnot
        · exact ⟨n, hn, h, hnot⟩
      · rintro ⟨n, hn, -, hnot⟩
        exact ⟨n, hn, hnot⟩
    have hspl : (∃ n, Carries t partWords relativePath n ∧
        ¬ Carries t partWords expectedTitle n) ↔
        ∃ n ∈ hidden t partWords relativePath, ¬ Carries t partWords expectedTitle n := by
      constructor
      · rintro ⟨n, hpath, hnone⟩
        rcases (carries_iff t partWords relativePath n).mp hpath with h | h
        · exact absurd ⟨n, h, hnone⟩ hgot
        · exact ⟨n, h, hnone⟩
      · rintro ⟨n, hn, hnone⟩
        exact ⟨n, (carries_iff t partWords relativePath n).mpr (.inr hn), hnone⟩
    rw [hread, hspl]
    exact .comm

/-- Of two parts that share a separator the second is hidden: with the first in the
    title, the file passes for the whole. -/
theorem isMultiPart_hides :
    ¬ ∀ (t : TextTables) (relativePath expectedTitle : String),
      (isMultiPart t relativePath expectedTitle = true ↔
        IsSplit t relativePath expectedTitle) := by
  intro h
  have hseen := (h ascii "Movie.Part.1.Part.2.mkv" "Movie Part 1").mpr (.inr ⟨2, ?_, ?_⟩)
  · exact absurd hseen (by decide +kernel)
  · exact (carries_iff ascii partWords _ 2).mpr (.inr (by decide +kernel))
  · intro hcarries
    exact absurd ((carries_iff ascii partWords _ 2).mp hcarries) (by decide +kernel)

end ImportValidation

end PlexManager
