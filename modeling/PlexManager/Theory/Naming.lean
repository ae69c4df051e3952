import Mathlib.Data.List.Chain
import PlexManager.Core.Naming
import PlexManager.Lib.Json

/-!
# Names that are safe to write

A cleaned title has none of the characters that are replaced, no run of one separator and
no space or dot at its ends. It may have nothing at all: a title of dropped characters,
spaces and dots is cleaned to the empty text, and then the file is placed in the library
root. With a year there is always something left.

The device name is looked for before the ends are trimmed, so one behind a space or a dot
comes to the front afterwards. And the underscore that is written after a device name makes
a run with one that stood behind the dot. In these two cases, and in no others, cleaning a
cleaned title again changes it or finds a device name.

## Theorems

* `cleanTitle_stable_iff`: When a cleaned title is clean.
* `pathsSafe_iff`: When the paths are safe.
-/

namespace PlexManager

namespace Naming

/-! ### Device names -/

def isWord (c : Char) : Bool := c.toLower.isAlphanum

variable {c : Char} {name : Text}

theorem word_of_mem_deviceName (h : isDeviceName name = true) (hc : c ∈ name) :
    isWord c = true := by
  have hdig : ∀ {d : Char}, (decide ('1' ≤ d) && decide (d ≤ '9')) = true →
      d.isAlphanum = true := by
    intro d hd
    simp only [Bool.and_eq_true, decide_eq_true_eq, Char.le_def] at hd
    have hlow : ('1' : Char).val.toNat = 49 := rfl
    have hhigh : ('9' : Char).val.toNat = 57 := rfl
    simp only [Char.isAlphanum, Char.isDigit, Bool.or_eq_true, Bool.and_eq_true, decide_eq_true_eq,
      ge_iff_le, UInt32.le_iff_toNat_le] at hd ⊢
    have hval : d.val.toNat = d.toNat := rfl
    exact .inr ⟨by simpa using by omega, by simpa using by omega⟩
  have hall : (name.map Char.toLower).all Char.isAlphanum = true := by
    unfold isDeviceName at h
    split at h
    · rename_i heq; rw [heq]; decide
    · rename_i heq; rw [heq]; decide
    · rename_i heq; rw [heq]; decide
    · rename_i heq; rw [heq]; decide
    · rename_i d heq
      rw [heq]
      simpa using hdig h
    · rename_i d heq
      rw [heq]
      simpa using hdig h
    · simp at h
  exact List.all_eq_true.mp hall _ (List.mem_map_of_mem hc)

theorem not_trimmed_of_word (h : isWord c = true) : isTrimmed c = false := by
  by_contra htrim
  simp only [isTrimmed, Bool.not_eq_false, Bool.or_eq_true, beq_iff_eq] at htrim
  rcases htrim with rfl | rfl <;> exact absurd h (by decide)

theorem takeWhile_of_deviceName (h : isDeviceName name = true) (tail : Text) :
    (name ++ '.' :: tail).takeWhile (· ≠ '.') = name ∧
      (name ++ '.' :: tail).dropWhile (· ≠ '.') = '.' :: tail := by
  have hword : ∀ c ∈ name, decide (c ≠ '.') = true := by
    intro c hc
    have hne : c ≠ '.' := fun hdot =>
      absurd (word_of_mem_deviceName h (hdot ▸ hc)) (by decide)
    simpa using hne
  rw [List.takeWhile_append_of_pos hword, List.dropWhile_append_of_pos hword]
  simp

theorem startsReserved_iff {s : Text} : startsReserved s = true ↔
    ∃ name, isDeviceName name = true ∧ name ++ ['.'] <+: s := by
  refine ⟨fun h => ?_, fun ⟨name, hname, tail, heq⟩ => ?_⟩
  · simp only [startsReserved, Bool.and_eq_true, Bool.not_eq_true'] at h
    refine ⟨_, h.1, ?_⟩
    have hdot := List.head?_dropWhile_not (· ≠ '.') s
    cases hrest : s.dropWhile (· ≠ '.') with
    | nil => exact absurd (hrest ▸ h.2) nofun
    | cons c tail =>
      rw [hrest] at hdot
      obtain rfl : c = '.' := by simpa using hdot
      refine ⟨tail, ?_⟩
      rw [List.append_assoc, List.singleton_append, ← hrest, List.takeWhile_append_dropWhile]
  · rw [List.append_assoc, List.singleton_append] at heq
    have hpart := takeWhile_of_deviceName hname tail
    rw [← heq, startsReserved, hpart.1, hpart.2, hname]
    rfl

-- A dot, or what is in no device name, decides whether there is one in front of it.
theorem startsReserved_append (p x : Text) (hc : isWord c = false) :
    startsReserved (p ++ c :: x) = startsReserved (p ++ [c]) := by
  have hpre : p ++ [c] <+: p ++ c :: x := ⟨x, by simp⟩
  rw [Bool.eq_iff_iff, startsReserved_iff, startsReserved_iff]
  refine ⟨fun ⟨name, hname, h⟩ => ⟨name, hname, ?_⟩, fun ⟨name, hname, h⟩ =>
    ⟨name, hname, h.trans hpre⟩⟩
  rcases List.prefix_or_prefix_of_prefix h hpre with hle | hle
  · exact hle
  · rcases List.prefix_concat_iff.mp hle with heq | hin
    · exact ⟨[], by rw [heq, List.append_nil]⟩
    · have hmem : c ∈ name := hin.subset (by simp)
      exact absurd (word_of_mem_deviceName hname hmem) (by simp [hc])

theorem startsReserved_concat (p : Text) (hc : c ≠ '.') :
    startsReserved (p ++ [c]) = startsReserved p := by
  rw [Bool.eq_iff_iff, startsReserved_iff, startsReserved_iff]
  refine ⟨fun ⟨name, hname, h⟩ => ⟨name, hname, ?_⟩, fun ⟨name, hname, h⟩ =>
    ⟨name, hname, h.trans ⟨[c], rfl⟩⟩⟩
  rcases List.prefix_concat_iff.mp h with heq | hin
  · exact absurd (List.append_inj_right' heq rfl) (by simpa using fun hdot => hc hdot.symm)
  · exact hin

/-! ### Texts with the same ends, words and dots -/

/-- The characters that are replaced, and what they are replaced by. -/
def isOther (c : Char) : Bool := c ∈ [':', '\\', '/', '*', '|', '-', '+', '!']

inductive Alike : Text → Text → Prop
  | nil : Alike [] []
  | cons (c : Char) {x y : Text} (h : Alike x y) : Alike (c :: x) (c :: y)
  | run (c : Char) {x y : Text} (hc : isSeparator c = true) (h : Alike x (c :: y)) :
      Alike x (c :: c :: y)
  | other (a b : Char) (x y : Text) (ha : isOther a = true) (hb : isOther b = true) :
      Alike (a :: x) (b :: y)
  | colon (x y : Text) : Alike (' ' :: '-' :: x) (':' :: y)

variable (s : Text) {v : Text}

theorem alike_refl : Alike s s := by
  induction s with
  | nil => exact .nil
  | cons c s ih => exact .cons c ih

theorem alike_collapse : Alike (collapse s) s := by
  fun_induction collapse s with
  | case1 a b s h ih =>
    rcases h with ⟨rfl, ha⟩
    exact .run a ha ih
  | case2 a b s h ih => exact .cons a ih
  | case3 s hs => exact alike_refl s

/-- What is left of a title without the characters that are dropped. -/
def kept (s : Text) : Text := s.filter fun c => goodCharacters c ≠ []

theorem alike_kept : Alike ((spaceColons s).flatMap goodCharacters) (kept s) := by
  fun_induction spaceColons s with
  | case1 s ih => exact .colon _ _
  | case2 c s hne ih =>
    rw [List.flatMap_cons]
    by_cases hdrop : goodCharacters c = []
    · simpa [kept, hdrop] using ih
    have hkept : kept (c :: s) = c :: kept s := List.filter_cons_of_pos (by simpa using hdrop)
    rw [hkept]
    unfold goodCharacters at hdrop ⊢
    split
    all_goals first
      | exact absurd rfl hdrop
      | exact .other _ _ _ _ rfl rfl
      | exact .cons _ ih
  | case3 => exact .nil

theorem not_word_of_other (h : isOther c = true) :
    isTrimmed c = false ∧ isWord c = false ∧ c ≠ '.' ∧ c ≠ '_' := by
  simp only [isOther, List.mem_cons, List.not_mem_nil, or_false, decide_eq_true_eq] at h
  rcases h with rfl | rfl | rfl | rfl | rfl | rfl | rfl | rfl <;> decide

theorem not_word_of_separator (h : isSeparator c = true) : isWord c = false := by
  simp only [isSeparator, Bool.or_eq_true, beq_iff_eq] at h
  rcases h with ((rfl | rfl) | rfl) | rfl <;> decide

namespace Alike

variable {x y : Text}

theorem dropWhile (q : Char → Bool) (hq : ∀ c, isOther c = true → q c = false) (h : Alike x y) :
    Alike (x.dropWhile q) (y.dropWhile q) := by
  induction h with
  | nil => exact .nil
  | cons c h ih =>
    by_cases hc : q c = true
    · simpa [hc] using ih
    · simpa [hc] using Alike.cons c h
  | run c hsep h ih =>
    by_cases hc : q c = true
    · simpa [hc] using ih
    · simp only [List.dropWhile_cons, hc] at ih ⊢
      exact .run c hsep ih
  | other a b x y ha hb =>
    simpa [hq a ha, hq b hb] using Alike.other a b x y ha hb
  | colon x y =>
    by_cases hspace : q ' ' = true
    · simpa [hspace, hq '-' rfl, hq ':' rfl] using Alike.other '-' ':' x y rfl rfl
    · simpa [hspace, hq ':' rfl] using Alike.colon x y

theorem any_untrimmed (h : Alike x y) : x.any (!isTrimmed ·) = y.any (!isTrimmed ·) := by
  induction h with
  | nil => rfl
  | cons c h ih => simp only [List.any_cons, ih]
  | run c hsep h ih => simp [ih]
  | other a b x y ha hb => simp [(not_word_of_other ha).1, (not_word_of_other hb).1]
  | colon x y => simp [isTrimmed]

theorem startsReserved (h : Alike x y) (p : Text) :
    startsReserved (p ++ x) = startsReserved (p ++ y) := by
  induction h generalizing p with
  | nil => rfl
  | cons c h ih => simpa using ih (p ++ [c])
  | run c hsep h ih =>
    have hc := not_word_of_separator hsep
    rw [ih p, startsReserved_append p _ hc, startsReserved_append p (c :: _) hc]
  | other a b x y ha hb =>
    -- Neither text goes on with a device name, so what stands in front decides.
    rcases not_word_of_other ha with ⟨-, ha, hadot, -⟩
    rcases not_word_of_other hb with ⟨-, hb, hbdot, -⟩
    rw [startsReserved_append p x ha, startsReserved_append p y hb,
      startsReserved_concat p hadot, startsReserved_concat p hbdot]
  | colon x y =>
    rw [startsReserved_append p _ (by decide), startsReserved_append p y (by decide),
      startsReserved_concat p (by decide), startsReserved_concat p (by decide)]

theorem afterName (h : Alike x y) (hword : ∀ c ∈ y.takeWhile (· ≠ '.'), isWord c = true) :
    Alike (x.dropWhile (· ≠ '.')) (y.dropWhile (· ≠ '.')) := by
  induction h with
  | nil => exact .nil
  | cons c h ih =>
    by_cases hc : c = '.'
    · simpa [hc] using Alike.cons '.' h
    · have hgo : decide (c ≠ '.') = true := by simpa using hc
      simp only [List.takeWhile_cons, List.dropWhile_cons, hgo, reduceIte] at hword ⊢
      exact ih fun d hd => hword d (List.mem_cons_of_mem c hd)
  | run c hsep h ih =>
    by_cases hc : c = '.'
    · subst hc
      simpa using Alike.run '.' hsep (by simpa using ih nofun)
    · -- A name has no separator in it.
      exact absurd (hword c (by simp [hc])) (by simp [not_word_of_separator hsep])
  | other a b x y ha hb =>
    exact absurd (hword b (by simp [(not_word_of_other hb).2.2.1]))
      (by simp [(not_word_of_other hb).2.1])
  | colon x y => exact absurd (hword ':' (by simp)) (by decide)

theorem head_underscore (h : Alike x y) : x.head? = some '_' ↔ y.head? = some '_' := by
  induction h with
  | nil => rfl
  | cons c h ih => simp
  | run c hsep h ih => simpa using ih
  | other a b x y ha hb => simp [(not_word_of_other ha).2.2.2, (not_word_of_other hb).2.2.2]
  | colon x y => simp

theorem head_trimmed (h : Alike x y)
    (hresv : Naming.startsReserved (y.dropWhile isTrimmed) = true) :
    x.head?.any isTrimmed = y.head?.any isTrimmed := by
  induction h with
  | nil | cons c h ih => rfl
  | run c hsep h ih =>
    refine ih ?_
    by_cases hc : isTrimmed c = true
    · simpa [hc] using hresv
    · simp only [List.dropWhile_cons, hc] at hresv ⊢
      have hword := not_word_of_separator hsep
      exact ((startsReserved_append [] _ hword).trans
        (startsReserved_append [] (c :: _) hword).symm).trans hresv
  | other a b x y ha hb => simp [(not_word_of_other ha).1, (not_word_of_other hb).1]
  | colon x y =>
    have hnone := startsReserved_append [] y (c := ':') (by decide)
    exact absurd (hnone.symm.trans hresv) (by decide)

end Alike

/-- A device name comes to the front when the ends are trimmed, or its guard and what is
    behind it make a run. -/
def exposed (s : Text) : Bool :=
  let body := s.dropWhile isTrimmed
  startsReserved body &&
    if s.head?.any isTrimmed then (body.dropWhile (· ≠ '.')).any (!isTrimmed ·)
    else decide (((body.dropWhile (· ≠ '.')).dropWhile (· = '.')).head? = some '_')

theorem Alike.exposed {x y : Text} (h : Alike x y) : exposed x = exposed y := by
  have hbody := h.dropWhile isTrimmed fun c hc => (not_word_of_other hc).1
  have hsame : Naming.startsReserved (x.dropWhile isTrimmed) = _ := hbody.startsReserved []
  rw [List.nil_append] at hsame
  simp only [Naming.exposed, hsame]
  cases hresv : Naming.startsReserved (y.dropWhile isTrimmed) with
  | false => rfl
  | true =>
    have hname : isDeviceName ((y.dropWhile isTrimmed).takeWhile (· ≠ '.')) = true := by
      simp only [Naming.startsReserved, Bool.and_eq_true] at hresv
      exact hresv.1
    have haft := hbody.afterName fun c hc => word_of_mem_deviceName hname hc
    have hdots := haft.dropWhile (· = '.') fun c hc => by simp [(not_word_of_other hc).2.2.1]
    rw [h.head_trimmed hresv, haft.any_untrimmed, decide_eq_decide.mpr hdots.head_underscore]

/-! ### What is left of a title -/

/-- No two separators of a kind stand next to each other. -/
def Tidy (s : Text) : Prop := s.IsChain fun a b => ¬ (a = b ∧ isSeparator a = true)

theorem Tidy.part {s : Text} (h : Tidy s) (hpart : v <:+: s) : Tidy v := by
  rcases hpart with ⟨a, b, rfl⟩
  exact (List.isChain_append.mp (List.isChain_append.mp h).1).2.1

theorem collapse_sublist : (collapse s).Sublist s := by
  fun_induction collapse s with
  | case1 a b s h ih => exact ih.cons a
  | case2 a b s h ih => exact ih.cons_cons a
  | case3 s hs => exact List.Sublist.refl s

theorem head?_collapse : (collapse s).head? = s.head? := by
  fun_induction collapse s with
  | case1 a b s h ih => simp [ih, h.1]
  | case2 a b s h ih | case3 s hs => rfl

theorem tidy_collapse : Tidy (collapse s) := by
  fun_induction collapse s with
  | case1 a b s h ih => exact ih
  | case2 a b s h ih =>
    refine List.isChain_cons.mpr ⟨fun c hc => ?_, ih⟩
    rw [head?_collapse] at hc
    obtain rfl : b = c := by simpa using hc
    exact h
  | case3 s hs =>
    rcases s with _ | ⟨a, _ | ⟨b, s⟩⟩
    · exact List.IsChain.nil
    · exact List.IsChain.singleton a
    · exact absurd rfl (hs a b s)

theorem collapse_of_tidy {s : Text} (h : Tidy s) : collapse s = s := by
  fun_induction collapse s with
  | case1 a b s hrun ih => exact absurd hrun (List.isChain_cons_cons.mp h).1
  | case2 a b s hne ih => rw [ih (List.isChain_cons_cons.mp h).2]
  | case3 s hs => rfl

theorem goodCharacters_of_mem_collapsed {s : Text} (h : c ∈ collapsed s) :
    goodCharacters c = [c] := by
  rcases List.mem_flatMap.mp ((collapse_sublist _).subset h) with ⟨d, -, hd⟩
  unfold goodCharacters at hd
  split at hd
  all_goals first
    | exact absurd hd List.not_mem_nil
    | rw [List.mem_singleton.mp hd]
  all_goals first
    | rfl
    | (unfold goodCharacters; split <;> first | contradiction | rfl)

theorem alike_collapsed : exposed (collapsed s) = exposed (kept s) ∧
    (collapsed s).any (!isTrimmed ·) = (kept s).any (!isTrimmed ·) :=
  ⟨(alike_collapse _).exposed.trans (alike_kept s).exposed,
    (alike_collapse _).any_untrimmed.trans (alike_kept s).any_untrimmed⟩

theorem strip_part : strip s <:+: s :=
  (List.rdropWhile_prefix _ _).isInfix.trans (List.dropWhile_suffix _).isInfix

theorem first_strip : ∀ c ∈ (strip s).head?, isTrimmed c = false := by
  intro c hc
  rcases List.head?_eq_some_iff.mp hc with ⟨r, hr⟩
  have hpre : strip s <+: s.dropWhile isTrimmed := List.rdropWhile_prefix _ _
  rcases hr ▸ hpre with ⟨e, he⟩
  have hfst := List.head?_dropWhile_not isTrimmed s
  rw [← he] at hfst
  simpa using hfst

theorem strip_strip : strip (strip s) = strip s := by
  have hfr : (strip s).dropWhile isTrimmed = strip s := by
    cases hs : strip s with
    | nil => rfl
    | cons c r => exact List.dropWhile_cons_of_neg (by simp [first_strip s c (by simp [hs])])
  rw [strip, hfr]
  exact List.rdropWhile_idempotent _ _

theorem strip_eq_nil_iff : strip s = [] ↔ s.any (!isTrimmed ·) = false := by
  rw [strip, List.rdropWhile_eq_nil_iff, List.any_eq_false]
  refine ⟨fun h c hc => ?_, fun h c hc => by simpa using h c ((List.dropWhile_suffix _).subset hc)⟩
  rw [← List.takeWhile_append_dropWhile (l := s)] at hc
  rcases List.mem_append.mp hc with hfr | hrest
  · simpa using List.mem_takeWhile_imp hfr
  · simpa using h c hrest

theorem rdropWhile_append {b : Text} (a : Text) (h : b.any (!isTrimmed ·) = true) :
    (a ++ b).rdropWhile isTrimmed = a ++ b.rdropWhile isTrimmed := by
  have hne : (b.reverse.dropWhile isTrimmed).isEmpty = false := by
    by_contra hempty
    have hnil : b.reverse.dropWhile isTrimmed = [] := by simpa using hempty
    rcases List.any_eq_true.mp h with ⟨c, hc, huntrimmed⟩
    have htrimmed := List.dropWhile_eq_nil_iff.mp hnil c (List.mem_reverse.mpr hc)
    simp [htrimmed] at huntrimmed
  rw [List.rdropWhile, List.reverse_append, List.dropWhile_append, hne]
  simp [List.rdropWhile]

/-! ### Cleaning once and twice -/

theorem goodCharacters_of_mem_cleanTitle {s : Text} (h : c ∈ cleanTitle s) :
    goodCharacters c = [c] := by
  have hgrd := (strip_part _).subset h
  unfold guardReserved at hgrd
  split at hgrd
  · simp only [List.mem_append, List.mem_cons] at hgrd
    rcases hgrd with hname | rfl | htail
    · exact goodCharacters_of_mem_collapsed ((List.takeWhile_prefix _).subset hname)
    · rfl
    · exact goodCharacters_of_mem_collapsed
        ((List.dropWhile_suffix _).subset (List.mem_of_mem_tail htail))
  · exact goodCharacters_of_mem_collapsed hgrd

theorem length_guardReserved : (guardReserved s).length = s.length := by
  unfold guardReserved
  split
  · rename_i h
    rcases startsReserved_iff.mp h with ⟨name, hname, tail, heq⟩
    rw [List.append_assoc, List.singleton_append] at heq
    have hpart := takeWhile_of_deviceName hname tail
    rw [← heq, hpart.1, hpart.2]
    simp
  · rfl

section

variable (hgood : ∀ c ∈ v, goodCharacters c = [c])
include hgood

theorem replaced_eq_self : (spaceColons v).flatMap goodCharacters = v := by
  fun_induction spaceColons v with
  | case1 s ih => exact absurd (hgood ':' (by simp)) (by decide)
  | case2 c s hne ih =>
    rw [List.flatMap_cons, hgood c (by simp), ih fun d hd => hgood d (List.mem_cons_of_mem c hd)]
    rfl
  | case3 => rfl

theorem cleanTitle_eq_self (htidy : Tidy v)
    (hfree : startsReserved v = false) (htrim : strip v = v) : cleanTitle v = v := by
  rw [cleanTitle, collapsed, replaced_eq_self hgood, collapse_of_tidy htidy, guardReserved, hfree]
  exact htrim

-- A run that is collapsed makes a text shorter, and nothing makes it longer again.
theorem tidy_of_cleanTitle_eq_self (h : cleanTitle v = v) : Tidy v := by
  have hle : v.length ≤ (collapse v).length := by
    calc v.length = (cleanTitle v).length := by rw [h]
      _ ≤ (guardReserved (collapsed v)).length := (strip_part _).length_le
      _ = (collapse v).length := by rw [length_guardReserved, collapsed, replaced_eq_self hgood]
  rw [← (collapse_sublist v).eq_of_length_le hle]
  exact tidy_collapse v

end

theorem rdropWhile_cons (hc : isTrimmed c = false) (l : Text) :
    (c :: l).rdropWhile isTrimmed = c :: l.rdropWhile isTrimmed := by
  rw [List.rdropWhile, List.reverse_cons, List.dropWhile_append]
  split
  · rename_i hempty
    have hnil : l.rdropWhile isTrimmed = [] := by simpa [List.rdropWhile] using hempty
    simp [hc, hnil]
  · simp [List.rdropWhile]

theorem startsReserved_words {p : Text} (h : ∀ c ∈ p, isWord c = true) :
    startsReserved p = false := by
  by_contra hres
  rcases startsReserved_iff.mp (by simpa using hres) with ⟨name, -, hpre⟩
  exact absurd (h '.' (hpre.subset (by simp))) (by decide)

-- The dot behind a name stays where something behind it does.
theorem startsReserved_rdropWhile (b : Text) : startsReserved (b.rdropWhile isTrimmed) =
    (startsReserved b && (b.dropWhile (· ≠ '.')).any (!isTrimmed ·)) := by
  have hpre : b.rdropWhile isTrimmed <+: b := List.rdropWhile_prefix _ _
  cases hb : startsReserved b with
  | false =>
    by_contra h
    rcases startsReserved_iff.mp (by simpa using h) with ⟨name, hname, hin⟩
    exact absurd (startsReserved_iff.mpr ⟨name, hname, hin.trans hpre⟩) (by simp [hb])
  | true =>
    rcases startsReserved_iff.mp hb with ⟨name, hname, tail, heq⟩
    rw [List.append_assoc, List.singleton_append] at heq
    subst heq
    rw [(takeWhile_of_deviceName hname tail).2, Bool.true_and]
    cases hany : ('.' :: tail).any (!isTrimmed ·) with
    | false =>
      have hall : ∀ c ∈ ('.' :: tail).reverse, isTrimmed c = true := by
        intro c hc
        simpa using List.any_eq_false.mp hany c (List.mem_reverse.mp hc)
      rw [List.rdropWhile, List.reverse_append, List.dropWhile_append_of_pos hall]
      refine startsReserved_words fun c hc => word_of_mem_deviceName hname ?_
      exact (List.rdropWhile_prefix isTrimmed name).subset hc
    | true =>
      have htail : tail.any (!isTrimmed ·) = true := by simpa [isTrimmed] using hany
      refine startsReserved_iff.mpr ⟨name, hname, tail.rdropWhile isTrimmed, ?_⟩
      rw [rdropWhile_append name hany, List.append_assoc]
      exact congrArg (name ++ ·) (rdropWhile_append ['.'] htail).symm

theorem head_rdropWhile (l : Text) :
    (l.rdropWhile isTrimmed).head? = some '_' ↔ l.head? = some '_' := by
  refine ⟨fun h => ?_, fun h => ?_⟩
  · rcases List.head?_eq_some_iff.mp h with ⟨w, hw⟩
    rcases hw ▸ List.rdropWhile_prefix isTrimmed l with ⟨e, he⟩
    simp [← he]
  · rcases List.head?_eq_some_iff.mp h with ⟨w, rfl⟩
    rw [rdropWhile_cons rfl]
    rfl

theorem exposed_of_deviceName {tail : Text} (hname : isDeviceName name = true)
    (h : Tidy (name ++ '.' :: tail)) :
    (∀ rest, (name ++ rest).dropWhile isTrimmed = name ++ rest) ∧
      exposed (name ++ '.' :: tail) = decide (tail.head? = some '_') := by
  have hpart := takeWhile_of_deviceName hname tail
  have hres : startsReserved (name ++ '.' :: tail) = true :=
    startsReserved_iff.mpr ⟨name, hname, tail, by simp⟩
  have hdots : tail.dropWhile (· = '.') = tail := by
    cases tail with
    | nil => rfl
    | cons c r =>
      have hrun := (List.isChain_cons_cons.mp (List.isChain_append.mp h).2.1).1
      have hne : c ≠ '.' := fun hdot => hrun ⟨hdot.symm, rfl⟩
      exact List.dropWhile_cons_of_neg (by simpa using hne)
  cases name with
  | nil => exact absurd hname (by decide)
  | cons c name =>
    have hfst := not_trimmed_of_word (word_of_mem_deviceName hname List.mem_cons_self)
    have hbody : ∀ rest, (c :: name ++ rest).dropWhile isTrimmed = c :: name ++ rest := fun rest =>
      List.dropWhile_cons_of_neg (by simp [hfst])
    simp only [exposed, hbody, hres, hpart.2, Bool.true_and]
    simp [hfst, hdots]

-- The underscore of the guard makes a run with one behind the dot.
theorem tidy_guarded_iff {tail : Text} (hname : isDeviceName name = true)
    (h : Tidy (name ++ '.' :: tail)) :
    Tidy (name ++ '_' :: tail.rdropWhile isTrimmed) ↔ tail.head? ≠ some '_' := by
  rcases List.isChain_append.mp h with ⟨hfr, hback, -⟩
  have htail : Tidy (tail.rdropWhile isTrimmed) :=
    Tidy.part (List.isChain_cons.mp hback).2 (List.rdropWhile_prefix _ _).isInfix
  have hjoin : ∀ c ∈ name.getLast?, ¬ (c = '_' ∧ isSeparator c = true) := fun c hc hsep =>
    absurd (word_of_mem_deviceName hname (List.mem_of_getLast? hc)) (by simp [hsep.1, isWord])
  rw [ne_eq, ← head_rdropWhile tail]
  refine ⟨fun htidy hhead => ?_, fun hhead => ?_⟩
  · have hrun := (List.isChain_cons.mp (List.isChain_append.mp htidy).2.1).1 '_' hhead
    exact hrun ⟨rfl, rfl⟩
  · refine List.isChain_append.mpr ⟨hfr, List.isChain_cons.mpr ⟨fun c hc hsep => ?_, htail⟩,
      fun c hc d hd => ?_⟩
    · exact hhead (hsep.1 ▸ hc)
    · obtain rfl : '_' = d := by simpa using hd
      exact hjoin c hc

/-- A cleaned title is clean, with no device name in front of a dot, if and only if nothing is
    exposed in what is kept of the title. -/
theorem cleanTitle_stable_iff :
    (cleanTitle (cleanTitle s) = cleanTitle s ∧ startsReserved (cleanTitle s) = false) ↔
      exposed (kept s) = false := by
  rw [← (alike_collapsed s).1]
  have htidy : Tidy (collapsed s) := tidy_collapse _
  have hcln : cleanTitle s = strip (guardReserved (collapsed s)) := rfl
  have hmem := fun c => goodCharacters_of_mem_cleanTitle (s := s) (c := c)
  generalize collapsed s = t at htidy hcln
  cases hres : startsReserved t with
  | false =>
    -- Without a guard the result is a part of what was collapsed.
    have hcln : cleanTitle s = strip t := by
      rw [hcln, guardReserved, hres]
      rfl
    have hpart : cleanTitle s <:+: t := hcln ▸ strip_part t
    have hfree : startsReserved (cleanTitle s) = _ :=
      (congrArg startsReserved hcln).trans (startsReserved_rdropWhile _)
    have hsame : exposed t = startsReserved (cleanTitle s) := by
      rw [hfree, exposed]
      split
      · rfl
      rename_i hhead
      have hbody : t.dropWhile isTrimmed = t := by
        cases t with
        | nil => rfl
        | cons c r => exact List.dropWhile_cons_of_neg (by simpa using hhead)
      rw [hbody, hres]
      rfl
    rw [hsame]
    refine and_iff_right_of_imp fun hfree => ?_
    refine cleanTitle_eq_self hmem (htidy.part hpart) hfree ?_
    rw [hcln]
    exact strip_strip t
  | true =>
    rcases startsReserved_iff.mp hres with ⟨name, hname, tail, heq⟩
    rw [List.append_assoc, List.singleton_append] at heq
    subst heq
    -- The guard writes an underscore for the dot, and nothing is trimmed in front of it.
    have hexposed := exposed_of_deviceName hname htidy
    have hgrd : cleanTitle s = name ++ '_' :: tail.rdropWhile isTrimmed := by
      have hparts := takeWhile_of_deviceName hname tail
      rw [hcln, guardReserved, if_pos hres, hparts.1, hparts.2, strip, hexposed.1,
        List.tail_cons, rdropWhile_append name rfl, rdropWhile_cons rfl]
    have hfree : startsReserved (cleanTitle s) = false := by
      rw [hgrd, startsReserved_append name _ (by decide), startsReserved_concat name (by decide)]
      exact startsReserved_words fun c hc => word_of_mem_deviceName hname hc
    have htrim : strip (cleanTitle s) = cleanTitle s := by rw [hcln, strip_strip]
    have htidied := hgrd ▸ tidy_guarded_iff hname htidy
    rw [hexposed.2, decide_eq_false_iff_not, ← ne_eq, ← htidied]
    exact ⟨fun h => tidy_of_cleanTitle_eq_self hmem h.1,
      fun h => ⟨cleanTitle_eq_self hmem h hfree htrim, hfree⟩⟩

/-- A device name behind a space is not seen, and comes to the front. -/
theorem cleanTitle_exposes : ¬ ∀ s : Text,
    cleanTitle (cleanTitle s) = cleanTitle s ∧ startsReserved (cleanTitle s) = false := by
  intro h
  exact absurd (h " con.x".toList) (by decide +kernel)

/-! ### Paths -/

/-- A directory that a library may be given. -/
structure SafeDirectory (part : Text) : Prop where
  ne_nil : part ≠ []
  ne_dots : part ≠ ['.'] ∧ part ≠ ['.', '.']
  good : ∀ c ∈ part, c ∉ ['/', '\\', ':', '<', '>', '?', '*', '|', '"']
  first : ∀ c ∈ part.head?, isTrimmed c = false
  last : ∀ c ∈ part.getLast?, isTrimmed c = false

/-- A movie is two components and an episode is three, and the directories of both are safe. -/
def PathsSafe (title : Text) (year : Option Int) (season : Int) (episodes : List Nat)
    (ext : Text) : Prop :=
  ((plexMovieRelativePath title year ext).length = 2 ∧
    ∀ part ∈ (plexMovieRelativePath title year ext).dropLast, SafeDirectory part) ∧
  ∃ path, plexTvEpisodeRelativePath title year season episodes ext = some path ∧
    path.length = 3 ∧ ∀ part ∈ path.dropLast, SafeDirectory part

theorem cleanTitle_eq_nil_iff : cleanTitle s = [] ↔ (kept s).any (!isTrimmed ·) = false := by
  rw [cleanTitle, strip_eq_nil_iff, ← (alike_collapsed s).2]
  unfold guardReserved
  split
  · rename_i h
    rcases startsReserved_iff.mp h with ⟨name, hname, hpre⟩
    cases name with
    | nil => exact absurd hname (by decide)
    | cons c r =>
      have hleft := not_trimmed_of_word (word_of_mem_deviceName hname List.mem_cons_self)
      have hright : (collapsed s).any (!isTrimmed ·) = true :=
        List.any_eq_true.mpr ⟨c, hpre.subset (by simp), by simp [hleft]⟩
      rw [hright]
      simp [isTrimmed]
  · rfl

theorem safeDirectory_cleanTitle {s : Text} (h : cleanTitle s ≠ []) :
    SafeDirectory (cleanTitle s) where
  ne_nil := h
  ne_dots := by
    have hfst := first_strip (guardReserved (collapsed s))
    refine ⟨fun hdot => ?_, fun hdot => ?_⟩
    · exact absurd (hfst '.' (by rw [← cleanTitle, hdot]; rfl)) (by decide)
    · exact absurd (hfst '.' (by rw [← cleanTitle, hdot]; rfl)) (by decide)
  good := by
    intro c hc hbad
    have hgood := goodCharacters_of_mem_cleanTitle hc
    simp only [List.mem_cons, List.not_mem_nil, or_false] at hbad
    rcases hbad with rfl | rfl | rfl | rfl | rfl | rfl | rfl | rfl | rfl <;>
      exact absurd hgood (by decide)
  first := first_strip _
  last := by
    intro c hc
    have hlast := List.rdropWhile_last_not isTrimmed _ h
    rw [List.getLast?_eq_some_getLast h] at hc
    cases hc
    exact Bool.not_eq_true _ ▸ hlast

theorem SafeDirectory.component {w : Text} (h : SafeDirectory w) : '/' ∉ w ∧ w ≠ [] ∧ w ≠ ['.'] :=
  ⟨fun hsep => h.good '/' hsep (by simp), h.ne_nil, h.ne_dots.1⟩

theorem component_file {a ext : Text} (hne : a ≠ []) (ha : '/' ∉ a) (hext : '/' ∉ ext) :
    '/' ∉ a ++ '.' :: ext ∧ a ++ '.' :: ext ≠ [] ∧ a ++ '.' :: ext ≠ ['.'] := by
  refine ⟨by simp [ha, hext], by simp, ?_⟩
  cases a with
  | nil => exact absurd rfl hne
  | cons c a => simp

theorem parts_eq_filter {ws : List Text} (h : ∀ w ∈ ws, '/' ∉ w) :
    parts ws = ws.filter fun part => part ≠ [] && part ≠ ['.'] := by
  rw [parts]
  congr 1
  calc ws.flatMap PosixPath.split = ws.flatMap fun w => [w] :=
        List.flatMap_congr fun w hw => PosixPath.split_component (h w hw)
    _ = ws := List.flatMap_singleton' ws

theorem parts_eq_self {ws : List Text} (h : ∀ w ∈ ws, '/' ∉ w ∧ w ≠ [] ∧ w ≠ ['.']) :
    parts ws = ws := by
  rw [parts_eq_filter fun w hw => (h w hw).1]
  exact List.filter_eq_self.mpr fun w hw => by simp [(h w hw).2]

theorem sep_notMem_cleanTitle : '/' ∉ cleanTitle s := fun h =>
  absurd (goodCharacters_of_mem_cleanTitle h) (by decide)

theorem isDigit_of_mem_twoDigits {n : Nat} (h : c ∈ twoDigits n) : c.isDigit = true := by
  unfold twoDigits at h
  split at h
  · rcases List.mem_cons.mp h with rfl | h
    · rfl
    · exact JsonText.isDigit_of_mem h
  · exact JsonText.isDigit_of_mem h

theorem safeDirectory_season (n : Nat) : SafeDirectory ("Season ".toList ++ twoDigits n) where
  ne_nil := by simp
  ne_dots := by simp
  good := by
    intro c hc hbad
    have hpl : c ∈ "Season ".toList ∨ c.isDigit = true :=
      (List.mem_append.mp hc).imp_right isDigit_of_mem_twoDigits
    simp only [List.mem_cons, List.not_mem_nil, or_false] at hbad
    rcases hbad with rfl | rfl | rfl | rfl | rfl | rfl | rfl | rfl | rfl <;>
      exact absurd hpl (by decide)
  first := by simp [isTrimmed]
  last := by
    intro c hc
    have hne : twoDigits n ≠ [] := by
      unfold twoDigits
      split
      · simp
      · exact Nat.toDigits_ne_nil
    rw [List.getLast?_append_of_ne_nil _ hne] at hc
    have hdig := isDigit_of_mem_twoDigits (List.mem_of_getLast? hc)
    by_contra htrim
    simp only [isTrimmed, Bool.not_eq_false, Bool.or_eq_true, beq_iff_eq] at htrim
    rcases htrim with rfl | rfl <;> exact absurd hdig (by decide)

theorem episodeToken_plain {season : Int} (hseas : 0 ≤ season) {episodes : List Nat}
    (hne : episodes ≠ []) : ∃ token, episodeToken season episodes = some token ∧ '/' ∉ token := by
  have hdig : ∀ n, '/' ∉ twoDigits n := fun n h =>
    absurd (isDigit_of_mem_twoDigits h) (by decide)
  have hput : '/' ∉ twoPlaces season := by
    rw [twoPlaces, if_neg (by omega)]
    exact hdig _
  unfold episodeToken
  split
  · rename_i heq
    exact absurd (heq ▸ List.mergeSort_perm episodes _).symm.eq_nil hne
  · exact ⟨_, rfl, by simp [hput, hdig]⟩
  · dsimp only
    split
    · exact ⟨_, rfl, by simp [hput, hdig]⟩
    · exact ⟨_, rfl, by simp [hput, hdig]⟩

/-- The paths of a title are safe if and only if there is a year, or a character of the title
    that is neither dropped nor trimmed. -/
theorem pathsSafe_iff (title : Text) (year : Option Int) (season : Int) (episodes : List Nat)
    (ext : Text) (hseason : 0 ≤ season) (hne : episodes ≠ []) (hext : '/' ∉ ext) :
    PathsSafe title year season episodes ext ↔
      year.isSome = true ∨ ∃ c ∈ title, goodCharacters c ≠ [] ∧ isTrimmed c = false := by
  have hleft : (year.isSome = true ∨ ∃ c ∈ title, goodCharacters c ≠ [] ∧ isTrimmed c = false) ↔
      cleanTitle (stem title year) ≠ [] := by
    rw [ne_eq, cleanTitle_eq_nil_iff, Bool.not_eq_false, kept, List.any_filter]
    cases year with
    | none => simp [stem]
    | some n => simp [stem, goodCharacters, isTrimmed]
  rw [hleft]
  have hstem := sep_notMem_cleanTitle (stem title year)
  -- An empty component is no component, so without a title only the file is left.
  refine ⟨fun ⟨⟨hlen, _⟩, _⟩ hnil => ?_, fun hsome => ⟨?_, ?_⟩⟩
  · have hpart : plexMovieRelativePath title year ext = _ := parts_eq_filter (by simp [hstem, hext])
    rw [hpart, hnil, List.filter_cons_of_neg (by simp)] at hlen
    have hle := List.length_filter_le (fun part => part ≠ [] && part ≠ ['.']) [[] ++ '.' :: ext]
    rw [hlen] at hle
    simp at hle
  · have hsafe := safeDirectory_cleanTitle hsome
    have hpart : plexMovieRelativePath title year ext = _ :=
      parts_eq_self fun w hw => by
        simp only [List.mem_cons, List.not_mem_nil, or_false] at hw
        rcases hw with rfl | rfl
        · exact hsafe.component
        · exact component_file hsome hstem hext
    rw [hpart]
    simpa using hsafe
  · rcases episodeToken_plain hseason hne with ⟨token, htok, hpl⟩
    have hput : twoPlaces season = twoDigits season.natAbs := if_neg (by omega)
    have hsafe := safeDirectory_cleanTitle hsome
    have hdir := safeDirectory_season season.natAbs
    have hfile := component_file (a := cleanTitle title ++ " - ".toList ++ token) (by simp)
      (by simp [sep_notMem_cleanTitle, hpl]) hext
    have hpart : parts (seasonDirs title year season ++ [episodeFilename title token ext]) = _ :=
      parts_eq_self fun w hw => by
        simp only [seasonDirs, hput, List.cons_append, List.nil_append, List.mem_cons,
          List.not_mem_nil, or_false] at hw
        rcases hw with rfl | rfl | rfl
        · exact hsafe.component
        · exact hdir.component
        · exact hfile
    refine ⟨seasonDirs title year season ++ [episodeFilename title token ext], ?_, rfl,
      fun w hw => ?_⟩
    · rw [plexTvEpisodeRelativePath, htok]
      exact congrArg some hpart
    · have hcas : w = cleanTitle (stem title year) ∨ w = "Season ".toList ++ twoPlaces season := by
        simpa [seasonDirs] using hw
      rcases hcas with rfl | rfl
      · exact hsafe
      · rw [hput]
        exact hdir

theorem pathsSafe_of_year : PathsSafe [] (some 1999) 1 [2] "mkv".toList :=
  (pathsSafe_iff [] (some 1999) 1 [2] "mkv".toList (by decide) (by decide) (by decide +kernel)).mpr
    (.inl rfl)

/-- A title of question marks is put in the library root. -/
theorem not_pathsSafe_dropped : ¬ ∀ (title : Text) (year : Option Int) (season : Int)
    (episodes : List Nat) (ext : Text), 0 ≤ season → episodes ≠ [] → (∀ n ∈ episodes, 0 < n) →
    '/' ∉ ext → PathsSafe title year season episodes ext := by
  intro h
  have hsafe := h "???".toList none 1 [1] "mkv".toList (by decide) (by decide) (by decide)
    (by decide +kernel)
  exact absurd hsafe.1.1 (by decide +kernel)

end Naming

end PlexManager
