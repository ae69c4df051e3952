import PlexManager.Core.Naming
import PlexManager.Lib.Json

/-!
# What an episode token denotes

The name of an episode file is read again: a season, and then one episode, all episodes
of a range, or those of an enumeration. A range is written only for numbers without a
gap, and there the last number is the first one and how many follow; for different
numbers in order that is the only way it can be. So what is read is what was written, in
whatever order it was given.

## Theorems

* `episodeToken_denotes`: A token denotes its season and its episodes.
-/

namespace PlexManager

namespace Naming

/-! ### Reading -/

def readNumber (s : Text) : Option (Nat × Text) :=
  if s.takeWhile Char.isDigit = [] then none
  else some (Nat.ofDigitChars 10 (s.takeWhile Char.isDigit) 0, s.dropWhile Char.isDigit)

/-- `S` and a number, which may have a sign. -/
def readSeason : Text → Option (Int × Text)
  | 'S' :: '-' :: s => (readNumber s).map fun (n, rest) => (-(n : Int), rest)
  | 'S' :: s => (readNumber s).map fun (n, rest) => ((n : Int), rest)
  | _ => none

def readEpisodes : Nat → Text → Option (List Nat)
  | _, [] => some []
  | fuel + 1, 'E' :: s => do
      let (episode, rest) ← readNumber s
      return episode :: (← readEpisodes fuel rest)
  | _, _ => none

/-- What follows the first episode: the last one of a range, or others. -/
def readRest (first : Nat) : Text → Option (List Nat)
  | '-' :: 'E' :: s =>
      match readNumber s with
      | some (last, []) => some (List.range' first (last + 1 - first))
      | _ => none
  | s => (readEpisodes s.length s).map (first :: ·)

def readToken (s : Text) : Option (Int × List Nat) := do
  let (season, rest) ← readSeason s
  match rest with
  | 'E' :: rest => do
      let (first, rest) ← readNumber rest
      return (season, ← readRest first rest)
  | _ => none

/-- No digit goes on with a number that is written. -/
def Stops (r : Text) : Prop := r.head?.any Char.isDigit = false

variable {r : Text}

theorem readNumber_append {digits : Text} {n : Nat} (hne : digits ≠ [])
    (hdig : ∀ c ∈ digits, c.isDigit = true) (hval : Nat.ofDigitChars 10 digits 0 = n)
    (hr : Stops r) : readNumber (digits ++ r) = some (n, r) := by
  have hstop : r.takeWhile Char.isDigit = [] ∧ r.dropWhile Char.isDigit = r := by
    cases r with
    | nil => exact ⟨rfl, rfl⟩
    | cons c r =>
      have hc : c.isDigit = false := hr
      simp [hc]
  have htake : (digits ++ r).takeWhile Char.isDigit = digits := by
    rw [List.takeWhile_append_of_pos hdig, hstop.1, List.append_nil]
  have hdrop : (digits ++ r).dropWhile Char.isDigit = r := by
    rw [List.dropWhile_append_of_pos hdig, hstop.2]
  rw [readNumber, htake, if_neg hne, hval, hdrop]

theorem readNumber_toDigits (n : Nat) (hr : Stops r) :
    readNumber (Nat.toDigits 10 n ++ r) = some (n, r) :=
  readNumber_append Nat.toDigits_ne_nil (fun _ hc => JsonText.isDigit_of_mem hc)
    Nat.ofDigitChars_ten_toDigits hr

theorem readNumber_twoDigits (n : Nat) (hr : Stops r) :
    readNumber (twoDigits n ++ r) = some (n, r) := by
  unfold twoDigits
  by_cases hn : n < 10
  · rw [if_pos hn]
    refine readNumber_append nofun (fun c hc => ?_) ?_ hr
    · rcases List.mem_cons.mp hc with rfl | hc
      · rfl
      · exact JsonText.isDigit_of_mem hc
    · rw [Nat.ofDigitChars_cons]
      exact Nat.ofDigitChars_ten_toDigits
  · rw [if_neg hn]
    exact readNumber_toDigits n hr

theorem readSeason_twoPlaces (season : Int) (hr : Stops r) :
    readSeason ('S' :: twoPlaces season ++ r) = some (season, r) := by
  unfold twoPlaces
  by_cases hneg : season < 0
  · rw [if_pos hneg]
    simp only [List.cons_append, readSeason, readNumber_toDigits _ hr, Option.map_some]
    have habs : -(season.natAbs : Int) = season := by omega
    rw [habs]
  rw [if_neg hneg]
  -- The first character is a digit, and so it is no sign.
  have hhead : ∀ s, twoDigits season.natAbs ++ r ≠ '-' :: s := by
    intro s heq
    have hread := readNumber_twoDigits season.natAbs hr
    rw [heq] at hread
    exact nomatch hread
  have hpl : readSeason ('S' :: (twoDigits season.natAbs ++ r)) =
      (readNumber (twoDigits season.natAbs ++ r)).map fun (n, rest) => ((n : Int), rest) := by
    cases hs : twoDigits season.natAbs ++ r with
    | nil => rfl
    | cons c s =>
      have hc : c ≠ '-' := fun heq => hhead s (heq ▸ hs)
      unfold readSeason
      split
      · rename_i heq
        exact absurd (List.cons.inj (List.cons.inj heq).2).1 hc
      · rename_i heq
        rw [(List.cons.inj heq).2]
      · rename_i hno
        exact absurd rfl (hno (c :: s))
  rw [List.cons_append, hpl, readNumber_twoDigits _ hr, Option.map_some]
  exact congrArg (fun n => some (n, r)) (by omega : (season.natAbs : Int) = season)

/-- `E` and a number for each episode. -/
def enumeration (episodes : List Nat) : Text :=
  episodes.flatMap fun episode => 'E' :: twoDigits episode

variable (episodes : List Nat)

theorem stops_enumeration : Stops (enumeration episodes) := by
  cases episodes <;> rfl

theorem length_le_enumeration : episodes.length ≤ (enumeration episodes).length := by
  induction episodes with
  | nil => exact Nat.le_refl 0
  | cons episode episodes ih =>
    simp only [enumeration, List.flatMap_cons, List.length_append, List.length_cons] at ih ⊢
    omega

theorem readEpisodes_enumeration (fuel : Nat)
    (hfuel : episodes.length ≤ fuel) :
    readEpisodes fuel (enumeration episodes) = some episodes := by
  induction episodes generalizing fuel with
  | nil => cases fuel <;> rfl
  | cons episode episodes ih =>
    cases fuel with
    | zero => simp at hfuel
    | succ fuel =>
      show readEpisodes (fuel + 1) ('E' :: (twoDigits episode ++ enumeration episodes)) = _
      rw [readEpisodes, readNumber_twoDigits _ (stops_enumeration episodes)]
      simp only [bind, Option.bind, ih fuel (by simpa using hfuel)]
      rfl

/-! ### Ranges -/

-- In order, the last number is the first one and how many follow, or more; and if it is no
-- more, they are a range.
theorem range_of_contiguous (first : Nat) (others : List Nat)
    (hsort : (first :: others).Pairwise (· < ·)) :
    first + others.length ≤ others.getLastD first ∧
      (others.getLastD first = first + others.length →
        first :: others = List.range' first (others.length + 1)) := by
  induction others generalizing first with
  | nil => simp
  | cons second others ih =>
    rcases List.pairwise_cons.mp hsort with ⟨hfst, hrest⟩
    rcases ih second hrest with ⟨hle, hrange⟩
    have hlt := hfst second List.mem_cons_self
    have hlast : (second :: others).getLastD first = others.getLastD second := by
      rw [List.getLastD_cons]
    rw [hlast, List.length_cons]
    refine ⟨by omega, fun heq => ?_⟩
    have hnext : second = first + 1 := by omega
    rw [hrange (by omega), List.range'_succ (n := others.length + 1), hnext]

/-! ### Tokens -/

theorem sorted_of_nodup {episodes : List Nat} (hdist : episodes.Nodup) :
    episodes.mergeSort.Pairwise (· < ·) := by
  have hle : episodes.mergeSort.Pairwise (· ≤ ·) := by
    refine (List.pairwise_mergeSort (fun a b c hab hbc => ?_) (fun a b => ?_) episodes).imp
      fun h => of_decide_eq_true h
    · simp only [decide_eq_true_eq] at *
      omega
    · simp only [Bool.or_eq_true, decide_eq_true_eq]
      omega
  have hne : episodes.mergeSort.Nodup := (List.mergeSort_perm episodes _).nodup_iff.mpr hdist
  exact hle.imp₂ (fun a b hab hneq => by omega) hne

theorem readToken_episodeToken (season : Int) (episodes : List Nat) (hne : episodes ≠ [])
    (hdist : episodes.Nodup) :
    ∃ token, episodeToken season episodes = some token ∧
      readToken token = some (season, episodes.mergeSort) := by
  have hsort := sorted_of_nodup hdist
  have hbeg : ∀ (first : Nat) (r : Text), Stops r →
      readToken ('S' :: twoPlaces season ++ 'E' :: twoDigits first ++ r) =
        (readRest first r).map fun read => (season, read) := by
    intro first r hr
    have hseas : Stops ('E' :: twoDigits first ++ r) := rfl
    rw [List.append_assoc, readToken, readSeason_twoPlaces season hseas]
    simp only [List.cons_append, bind, Option.bind, readNumber_twoDigits first hr]
    cases readRest first r <;> rfl
  unfold episodeToken
  cases hord : episodes.mergeSort with
  | nil =>
    have hlen := (List.mergeSort_perm episodes fun a b => decide (a ≤ b)).length_eq
    rw [hord] at hlen
    exact absurd (List.length_eq_zero_iff.mp hlen.symm) hne
  | cons first others =>
    rw [hord] at hsort
    cases others with
    | nil =>
      refine ⟨_, rfl, ?_⟩
      have hread := hbeg first [] rfl
      rw [List.append_nil] at hread
      exact hread
    | cons second others =>
      rcases range_of_contiguous first (second :: others) hsort with ⟨hle, hrange⟩
      simp only []
      -- Numbers without a gap are written as a range, any others one by one.
      by_cases hgap : (second :: others).getLastD first - first = (second :: others).length
      · rw [if_pos hgap]
        refine ⟨_, rfl, ?_⟩
        have hread := readNumber_twoDigits ((second :: others).getLastD first) (r := []) rfl
        rw [List.append_nil] at hread
        have hcnt : (second :: others).getLastD first + 1 - first =
            (second :: others).length + 1 := by omega
        rw [hbeg first ('-' :: 'E' :: twoDigits ((second :: others).getLastD first)) rfl]
        simp only [readRest, hread, hcnt, ← hrange (by omega), Option.map_some]
      · rw [if_neg hgap]
        refine ⟨_, rfl, ?_⟩
        have hlist := readEpisodes_enumeration (second :: others) _
          (length_le_enumeration (second :: others))
        have hread := hbeg first (enumeration (second :: others)) (stops_enumeration _)
        rw [List.append_assoc] at hread
        have hrest : readRest first (enumeration (second :: others)) =
            (readEpisodes (enumeration (second :: others)).length
              (enumeration (second :: others))).map (first :: ·) := rfl
        rw [hrest, hlist] at hread
        exact hread

/-- What is read of a token is the season and the set of its episodes. Their order makes
    no difference, and two files of one title and season that have one name have the same
    episodes. -/
theorem episodeToken_denotes (season : Int) (episodes : List Nat) (hne : episodes ≠ [])
    (hdistinct : episodes.Nodup) :
    (∃ token read, episodeToken season episodes = some token ∧
        readToken token = some (season, read) ∧ ∀ e, e ∈ read ↔ e ∈ episodes) ∧
      (∀ others, others.Perm episodes →
        episodeToken season others = episodeToken season episodes) ∧
      ∀ others, others ≠ [] → others.Nodup → ∀ (title ext token token' : Text),
        episodeToken season episodes = some token → episodeToken season others = some token' →
        episodeFilename title token ext = episodeFilename title token' ext →
          ∀ e, e ∈ others ↔ e ∈ episodes := by
  have hmem : ∀ (ns : List Nat) (e : Nat), e ∈ ns.mergeSort ↔ e ∈ ns := fun ns e =>
    (List.mergeSort_perm ns _).mem_iff
  rcases readToken_episodeToken season episodes hne hdistinct with ⟨token, htok, hread⟩
  refine ⟨⟨token, _, htok, hread, hmem episodes⟩, ?_, ?_⟩
  · intro others hperm
    have hsame : others.mergeSort = episodes.mergeSort := by
      refine @List.Perm.eq_of_pairwise _ (· < ·) _ _ ?_ ?_ (sorted_of_nodup hdistinct) ?_
      · intro a b _ _ hab hba
        omega
      · exact sorted_of_nodup (hperm.nodup_iff.mpr hdistinct)
      · exact (List.mergeSort_perm others _).trans
          (hperm.trans (List.mergeSort_perm episodes _).symm)
    rw [episodeToken, episodeToken, hsame]
  · intro others hne' hdistinct' title ext token₁ token₂ h₁ h₂ hname e
    rcases readToken_episodeToken season others hne' hdistinct' with ⟨token', htok', hread'⟩
    obtain rfl : token = token₁ := Option.some.inj (htok.symm.trans h₁)
    obtain rfl : token' = token₂ := Option.some.inj (htok'.symm.trans h₂)
    have hsame : token = token' := by
      simpa [episodeFilename] using hname
    rw [hsame, hread', Option.some.injEq, Prod.mk.injEq] at hread
    rw [← hmem others, ← hmem episodes, hread.2]

theorem episodeToken_denotes_gap :
    ∃ token read, episodeToken 2 [6, 4] = some token ∧ readToken token = some (2, read) ∧
      ∀ e, e ∈ read ↔ e ∈ [6, 4] :=
  (episodeToken_denotes 2 [6, 4] (by decide) (by decide)).1

end Naming

end PlexManager
