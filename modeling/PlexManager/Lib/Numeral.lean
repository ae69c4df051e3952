import PlexManager.Lib.Json
import PlexManager.Lib.TextCodec

/-!
# Whole numbers as they are read

A whole number is read from decimal digits of any script, with a sign, with blanks around
it and with single underscores between its digits. Rows of digits that are too long are
refused. What is written in plain digits is read back.

## Main definitions

* `readNat`, `readInt`: What is read.

## Theorems

* `decimal_digits`: Plain digits stand for what they always do.
* `readInt_renderInt`: A number that is written is read back.
-/

namespace TextCodec

/-- `sys.get_int_max_str_digits`. -/
def maxStrDigits : Nat := 4300

/-- Digits, and single underscores between them. -/
def readNat (s : Text) : Option Nat :=
  if (s.splitOn '_').any List.isEmpty then none
  else if maxStrDigits < (s.filter (· ≠ '_')).length then none
  else decimal (s.filter (· ≠ '_'))

/-- `int` of a text. -/
def readInt (s : Text) : Option Int :=
  match strip s with
  | '-' :: digits => (readNat digits).map fun n : Nat => -(n : Int)
  | '+' :: digits => (readNat digits).map fun n : Nat => (n : Int)
  | digits => (readNat digits).map fun n : Nat => (n : Int)

theorem decimalDigit_of_isDigit {c : Char} (h : c.isDigit = true) :
    decimalDigit c = some (c.toNat - '0'.toNat) := by
  have hrange : 48 ≤ c.toNat ∧ c.toNat ≤ 57 := by
    simpa [Char.isDigit, UInt32.le_iff_toNat_le] using h
  have hzero : (decide (0x30 ≤ c.toNat) && decide (c.toNat < 0x30 + 10)) = true := by
    simp only [Bool.and_eq_true, decide_eq_true_eq]
    omega
  have hzeros : zeros = 0x30 :: zeros.tail := rfl
  unfold decimalDigit
  rw [hzeros, List.find?_cons]
  simp only [hzero, Option.map_some]
  rfl

theorem foldl_digits (s : Text) (n : Nat) (h : ∀ c ∈ s, c.isDigit = true) :
    ∃ digits, s.mapM decimalDigit = some digits ∧
      digits.foldl (fun n d => 10 * n + d) n = Nat.ofDigitChars 10 s n := by
  induction s generalizing n with
  | nil => exact ⟨[], rfl, by simp⟩
  | cons c s ih =>
    have hc := decimalDigit_of_isDigit (h c List.mem_cons_self)
    rcases ih (10 * n + (c.toNat - '0'.toNat)) fun d hd => h d (List.mem_cons_of_mem c hd) with
      ⟨digits, hdig, hfold⟩
    refine ⟨(c.toNat - '0'.toNat) :: digits, ?_, ?_⟩
    · rw [List.mapM_cons, hc, hdig]
      rfl
    · rw [List.foldl_cons, hfold, Nat.ofDigitChars_cons]

variable {s : Text}

theorem decimal_digits (hne : s ≠ []) (h : ∀ c ∈ s, c.isDigit = true) :
    decimal s = some (Nat.ofDigitChars 10 s 0) := by
  rcases foldl_digits s 0 h with ⟨digits, hdig, hfold⟩
  have hnil : s.isEmpty = false := by
    rw [List.isEmpty_eq_false_iff]
    exact hne
  unfold decimal
  rw [hnil, if_neg Bool.false_ne_true, hdig, Option.map_some, hfold]

theorem readNat_digits (hne : s ≠ []) (h : ∀ c ∈ s, c.isDigit = true)
    (hlen : s.length ≤ maxStrDigits) : readNat s = some (Nat.ofDigitChars 10 s 0) := by
  have hunderscore : '_' ∉ s := fun hmem => absurd (h '_' hmem) (by decide)
  have hfilt : s.filter (· ≠ '_') = s := by
    refine List.filter_eq_self.mpr fun c hc => ?_
    rw [decide_eq_true_eq]
    exact fun heq => hunderscore (heq ▸ hc)
  have hany : (s.splitOn '_').any List.isEmpty = false := by
    rw [List.splitOn_eq_singleton hunderscore]
    simpa using hne
  unfold readNat
  rw [hany, if_neg Bool.false_ne_true, hfilt, if_neg (Nat.not_lt.mpr hlen),
    decimal_digits hne h]

theorem not_isSpace_of_isDigit {c : Char} (h : c.isDigit = true) : isSpace c = false := by
  have hrange : 48 ≤ c.toNat ∧ c.toNat ≤ 57 := by
    simpa [Char.isDigit, UInt32.le_iff_toNat_le] using h
  simp only [isSpace, Bool.or_eq_false_iff, Bool.and_eq_false_iff, decide_eq_false_iff_not]
  omega

/-- What has no blank at either end is left as it is. -/
theorem strip_eq_self (hhead : ∀ c, s.head? = some c → isSpace c = false)
    (hlast : ∀ c, s.getLast? = some c → isSpace c = false) : strip s = s := by
  have hfr : s.dropWhile isSpace = s := by
    cases s with
    | nil => rfl
    | cons c s => rw [List.dropWhile_cons, hhead c rfl, if_neg Bool.false_ne_true]
  unfold strip
  rw [hfr]
  rcases List.eq_nil_or_concat s with rfl | ⟨init, c, rfl⟩
  · rfl
  · have hc := hlast c (by simp)
    rw [List.concat_eq_append, List.rdropWhile_concat_neg]
    rw [hc]
    exact Bool.false_ne_true

theorem strip_strip (s : Text) : strip (strip s) = strip s := by
  refine strip_eq_self (fun c hc => ?_) (fun c hc => ?_)
  · -- what is left of the end is a prefix, so it starts with the same character
    rcases List.rdropWhile_prefix (p := isSpace) (l := s.dropWhile isSpace) with ⟨rest, hrest⟩
    have hhead : (s.dropWhile isSpace).head? = some c := by
      rw [← hrest]
      cases hstrip : List.rdropWhile isSpace (s.dropWhile isSpace) with
      | nil =>
        unfold strip at hc
        rw [hstrip] at hc
        exact nomatch hc
      | cons d ds =>
        unfold strip at hc
        rw [hstrip] at hc
        exact hc
    have hnot := List.head?_dropWhile_not (p := isSpace) s
    rw [hhead] at hnot
    exact (Bool.not_eq_true _).mp (by simpa using hnot)
  · have hne : strip s ≠ [] := by
      intro hnil
      rw [hnil] at hc
      exact nomatch hc
    have hlast := List.rdropWhile_last_not (p := isSpace) (l := s.dropWhile isSpace) hne
    rw [List.getLast?_eq_some_getLast hne] at hc
    cases hc
    exact (Bool.not_eq_true _).mp hlast

theorem readInt_renderInt {n : Int} (hlen : (Nat.toDigits 10 n.natAbs).length ≤ maxStrDigits) :
    readInt (JsonText.renderInt n) = some n := by
  have hne : Nat.toDigits 10 n.natAbs ≠ [] := Nat.toDigits_ne_nil
  have hdig : ∀ c ∈ Nat.toDigits 10 n.natAbs, c.isDigit = true :=
    fun c hc => Nat.isDigit_of_mem_toDigits (by omega) (Nat.le_refl 10) hc
  have hread : readNat (Nat.toDigits 10 n.natAbs) = some n.natAbs := by
    rw [readNat_digits hne hdig hlen, Nat.ofDigitChars_ten_toDigits]
  have hlast : ∀ c, (Nat.toDigits 10 n.natAbs).getLast? = some c → isSpace c = false :=
    fun c hc => not_isSpace_of_isDigit (hdig c (List.mem_of_getLast? hc))
  by_cases hneg : n < 0
  · have hrender : JsonText.renderInt n = '-' :: Nat.toDigits 10 n.natAbs := if_pos hneg
    have hstrip : strip ('-' :: Nat.toDigits 10 n.natAbs) = '-' :: Nat.toDigits 10 n.natAbs := by
      refine strip_eq_self ?_ ?_
      · intro c hc
        cases hc
        decide
      · intro c hc
        rw [List.getLast?_cons, List.getLast?_eq_some_getLast hne] at hc
        exact hlast c (by rw [List.getLast?_eq_some_getLast hne]; exact hc)
    unfold readInt
    rw [hrender, hstrip]
    change (readNat (Nat.toDigits 10 n.natAbs)).map (fun m : Nat => -(m : Int)) = some n
    rw [hread, Option.map_some]
    congr 1
    omega
  · have hrender : JsonText.renderInt n = Nat.toDigits 10 n.natAbs := if_neg hneg
    have hstrip : strip (Nat.toDigits 10 n.natAbs) = Nat.toDigits 10 n.natAbs :=
      strip_eq_self (fun c hc => not_isSpace_of_isDigit (hdig c (List.mem_of_head? hc))) hlast
    unfold readInt
    rw [hrender, hstrip]
    -- No digit is a sign.
    split
    · rename_i digits heq
      exact absurd (hdig '-' (heq ▸ List.mem_cons_self)) (by decide)
    · rename_i digits heq
      exact absurd (hdig '+' (heq ▸ List.mem_cons_self)) (by decide)
    · rw [hread, Option.map_some]
      congr 1
      omega

end TextCodec
