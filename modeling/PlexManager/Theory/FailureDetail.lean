import PlexManager.Core.FailureDetail

/-!
# What the cut does to the verdict

A text is short enough, or its head is all that is kept, or a message is kept behind a
shorter head. The verdict on the text that is stored looks for a message in what is kept,
and the ellipsis joins nothing, since no message has one.

In the first two cases the verdict is that on the whole text. In the third it is so where
one of the two parts has a message. The message behind the head is taken from the place
where the lower-cased text has it. Where a character before it becomes several, that place
lies further on in the text than the message does, and the end of the message is cut off
with the rest.

## Theorems

* `capFailureDetail_faithful_iff`: The cut keeps the verdict exactly where the text is
  unsevered.
* `unsevered_of_single`: A text is, if no character of it becomes several.
* `severed`: One that does, before a message of the host.
-/

namespace PlexManager

namespace FailureDetail

variable {L : Lowering} {text : List Char} {pattern : String}

/-! ### Looking for a message -/

theorem isPrefixOf_separated {p b : List Char} {sep : Char} (hsep : sep ∉ p) (hne : p ≠ [])
    (a : List Char) : p.isPrefixOf (a ++ sep :: b) = p.isPrefixOf a := by
  induction a generalizing p with
  | nil =>
    cases p with
    | nil => exact absurd rfl hne
    | cons c p =>
      have hc : (c == sep) = false := beq_eq_false_iff_ne.mpr fun h => hsep (h ▸ List.mem_cons_self)
      simp only [List.nil_append, List.isPrefixOf, hc, Bool.false_and]
  | cons d a ih =>
    cases p with
    | nil => exact absurd rfl hne
    | cons c p =>
      simp only [List.cons_append, List.isPrefixOf]
      cases p with
      | nil => simp only [List.isPrefixOf]
      | cons c' p => rw [ih (fun h => hsep (List.mem_cons_of_mem c h)) nofun]

-- A pattern does not reach over a character that it does not have.
theorem occursIn_separated {p b : List Char} {sep : Char} (hsep : sep ∉ p) (hne : p ≠ [])
    (a : List Char) : occursIn p (a ++ sep :: b) = (occursIn p a || occursIn p b) := by
  induction a with
  | nil =>
    have hpre := isPrefixOf_separated hsep hne [] (b := b)
    rw [List.nil_append] at hpre ⊢
    rw [occursIn, occursIn, hpre]
    cases p <;> rfl
  | cons d a ih =>
    rw [List.cons_append, occursIn, occursIn, ih, Bool.or_assoc]
    rw [← List.cons_append, isPrefixOf_separated hsep hne]

theorem find_of_occursIn {p : List Char} (h : occursIn p text = true) :
    ∃ i, find p text = some i ∧ (text.drop i).take p.length = p := by
  induction text with
  | nil =>
    have hp : p = [] := List.isEmpty_iff.mp h
    exact ⟨0, by rw [hp]; rfl, by rw [hp]; rfl⟩
  | cons c rest ih =>
    by_cases hpre : p.isPrefixOf (c :: rest) = true
    · refine ⟨0, if_pos hpre, ?_⟩
      exact (List.prefix_iff_eq_take.mp (List.isPrefixOf_iff_prefix.mp hpre)).symm
    · rw [occursIn, Bool.or_eq_true] at h
      obtain ⟨i, hi, htake⟩ := ih (h.resolve_left hpre)
      exact ⟨i + 1, (if_neg hpre).trans (congrArg _ hi), htake⟩

/-- The text has `p` at the place `i`, and at none before it. -/
def FirstAt (p text : List Char) (i : Nat) : Prop :=
  p <+: text.drop i ∧ ∀ j < i, ¬ p <+: text.drop j

theorem find_eq_some_iff {p : List Char} {i : Nat} : find p text = some i ↔ FirstAt p text i := by
  induction text generalizing i with
  | nil =>
    cases p with
    | nil =>
      cases i with
      | zero => simp [find, FirstAt]
      | succ i => exact ⟨nofun, fun h => absurd List.nil_prefix (h.2 0 (Nat.succ_pos i))⟩
    | cons c p => simp [find, FirstAt]
  | cons c rest ih =>
    by_cases hpre : p <+: c :: rest
    · rw [find, if_pos (List.isPrefixOf_iff_prefix.mpr hpre)]
      constructor
      · rintro ⟨⟩
        exact ⟨hpre, fun j hj => absurd hj (Nat.not_lt_zero j)⟩
      · rintro ⟨-, hfirst⟩
        cases i with
        | zero => rfl
        | succ i => exact absurd hpre (hfirst 0 (Nat.succ_pos i))
    · rw [find, if_neg (by rw [List.isPrefixOf_iff_prefix]; exact hpre), Option.map_eq_some_iff]
      -- the place is not the first one, and the others are those of the rest
      cases i with
      | zero => exact ⟨by simp, fun h => absurd h.1 hpre⟩
      | succ i =>
        simp only [Nat.add_right_cancel_iff, exists_eq_right, ih, FirstAt, List.drop_succ_cons]
        refine and_congr_right fun _ => ?_
        constructor
        · intro hfirst j hj
          cases j with
          | zero => exact hpre
          | succ j => exact hfirst j (Nat.lt_of_succ_lt_succ hj)
        · exact fun hfirst j hj => hfirst (j + 1) (Nat.succ_lt_succ hj)

theorem occursIn_self (p : List Char) : occursIn p p = true := by
  cases p with
  | nil => rfl
  | cons c p =>
    rw [occursIn, List.isPrefixOf_iff_prefix.mpr (List.prefix_refl _), Bool.true_or]

theorem pattern_spec : ∀ pattern ∈ environmentalFailurePatterns, pattern.toList ≠ [] ∧
    '…' ∉ pattern.toList ∧ pattern.length < maxFailureDetailChars - 1 := by decide

/-! ### The verdict -/

/-- One of the messages of the host is in the text. -/
def Environmental (L : Lowering) (text : List Char) : Prop :=
  ∃ pattern ∈ environmentalFailurePatterns, occursIn pattern.toList (L.lower text) = true

theorem classifyFailureText_eq_iff : classifyFailureText L text = .environmental ↔
    Environmental L text := by
  unfold classifyFailureText
  by_cases hnil : text.isEmpty = true
  · rw [if_pos hnil]
    refine ⟨nofun, ?_⟩
    rintro ⟨pattern, hmem, hin⟩
    rw [List.isEmpty_iff.mp hnil] at hin
    exact absurd (List.isEmpty_iff.mp hin) (pattern_spec pattern hmem).1
  · rw [if_neg hnil, Environmental, ← List.any_eq_true]
    split
    · exact ⟨fun _ => ‹_›, fun _ => rfl⟩
    · exact ⟨nofun, fun h => absurd h ‹_›⟩

theorem classifyFailureText_congr {text' : List Char} :
    classifyFailureText L text' = classifyFailureText L text ↔
      (Environmental L text' ↔ Environmental L text) := by
  rw [← classifyFailureText_eq_iff, ← classifyFailureText_eq_iff]
  cases classifyFailureText L text' <;> cases classifyFailureText L text <;> decide

theorem environmental_separated (a b : List Char) :
    Environmental L (a ++ '…' :: b) ↔ Environmental L a ∨ Environmental L b := by
  have hlow : L.lower (a ++ '…' :: b) = L.lower a ++ '…' :: L.lower b := by
    simp only [Lowering.lower, List.flatMap_append, List.flatMap_cons, L.ellipsis,
      List.singleton_append]
  unfold Environmental
  rw [hlow, ← exists_or]
  refine exists_congr fun pattern => ?_
  rw [← and_or_left]
  refine and_congr_right fun hmem => ?_
  have hspec := pattern_spec pattern hmem
  rw [occursIn_separated hspec.2.1 hspec.1, Bool.or_eq_true]

theorem lower_split (n : Nat) (text : List Char) :
    L.lower text = L.lower (text.take n) ++ L.lower (text.drop n) := by
  simp only [Lowering.lower, ← List.flatMap_append, List.take_append_drop]

theorem Environmental.of_take {n : Nat} (h : Environmental L (text.take n)) :
    Environmental L text := by
  obtain ⟨pattern, hmem, hin⟩ := h
  refine ⟨pattern, hmem, ?_⟩
  rw [lower_split n text]
  exact occursIn_append_right _ _ _ hin

theorem length_le_lower (text : List Char) : text.length ≤ (L.lower text).length := by
  induction text with
  | nil => exact Nat.zero_le _
  | cons c rest ih =>
    have hpos := List.length_pos_iff.mpr (L.nonempty c)
    simp only [Lowering.lower, List.flatMap_cons, List.length_append, List.length_cons] at ih ⊢
    omega

-- Lower-casing a head makes at least the head of what lower-casing makes.
theorem occursIn_of_take {p : List Char} {n : Nat} (h : occursIn p ((L.lower text).take n) = true) :
    occursIn p (L.lower (text.take n)) = true := by
  by_cases hlen : n ≤ text.length
  · have hle : n ≤ (L.lower (text.take n)).length := by
      have hgrown := length_le_lower (L := L) (text.take n)
      rw [List.length_take] at hgrown
      omega
    rw [lower_split n text, List.take_append_of_le_length hle] at h
    rw [← List.take_append_drop n (L.lower (text.take n))]
    exact occursIn_append_right _ _ _ h
  · rw [List.take_of_length_le (by omega)]
    rw [← List.take_append_drop n (L.lower text)]
    exact occursIn_append_right _ _ _ h

/-! ### The cut -/

theorem lostPattern_eq_some (h : lostPattern L text = some pattern) :
    pattern ∈ environmentalFailurePatterns ∧ occursIn pattern.toList (L.lower text) = true := by
  unfold lostPattern at h
  have hgot := List.find?_some h
  exact ⟨List.mem_of_find?_eq_some h, (Bool.and_eq_true_iff.mp hgot).2⟩

theorem environmental_take (h : lostPattern L text = none) :
    Environmental L (text.take maxFailureDetailChars) ↔ Environmental L text := by
  refine ⟨.of_take, ?_⟩
  rintro ⟨pattern, hmem, hin⟩
  have hkept := List.find?_eq_none.mp h pattern hmem
  rw [hin, Bool.and_true, Bool.not_eq_true, Bool.not_eq_false'] at hkept
  exact ⟨pattern, hmem, occursIn_of_take hkept⟩

theorem length_preserved_le (L : Lowering) (text : List Char) (pattern : String) :
    (preserved L text pattern).length ≤ pattern.length := List.length_take_le _ _

theorem capFailureDetail_lost (hlong : ¬ text.length ≤ maxFailureDetailChars)
    (h : lostPattern L text = some pattern) :
    capFailureDetail L text =
      text.take (maxFailureDetailChars - 1 - (preserved L text pattern).length) ++
        '…' :: preserved L text pattern := by
  have hshort := (pattern_spec pattern (lostPattern_eq_some h).1).2.2
  have hkept := length_preserved_le L text pattern
  unfold capFailureDetail
  rw [if_neg hlong, h]
  exact if_neg (by omega)

theorem length_capFailureDetail_le (L : Lowering) (text : List Char) :
    (capFailureDetail L text).length ≤ maxFailureDetailChars := by
  by_cases hlong : text.length ≤ maxFailureDetailChars
  · rw [capFailureDetail, if_pos hlong]
    exact hlong
  cases h : lostPattern L text with
  | none =>
    rw [capFailureDetail, if_neg hlong, h]
    exact List.length_take_le _ _
  | some pattern =>
    have hshort := (pattern_spec pattern (lostPattern_eq_some h).1).2.2
    have hkept := length_preserved_le L text pattern
    rw [capFailureDetail_lost hlong h, List.length_append, List.length_take, List.length_cons]
    omega

/-- The lower-cased text has the message, and would not with its end cut off. -/
def Lost (L : Lowering) (text : List Char) (pattern : String) : Prop :=
  occursIn pattern.toList (L.lower text) = true ∧
    occursIn pattern.toList ((L.lower text).take maxFailureDetailChars) = false

/-- A text is short enough; or for the first of the messages that would be lost, at the place
    that it has in the lower-cased text, one is in the characters that the text itself has
    there, or in the head that is left room for. -/
def Unsevered (L : Lowering) (text : List Char) : Prop :=
  text.length ≤ maxFailureDetailChars ∨ ∀ before pattern after i,
    environmentalFailurePatterns = before ++ pattern :: after →
    (∀ earlier ∈ before, ¬ Lost L text earlier) → Lost L text pattern →
    FirstAt pattern.toList (L.lower text) i →
    Environmental L (text.take (maxFailureDetailChars - 1 -
        ((text.drop i).take pattern.length).length)) ∨
      Environmental L ((text.drop i).take pattern.length)

theorem lostPattern_eq_some_iff : lostPattern L text = some pattern ↔
    Lost L text pattern ∧ ∃ before after, environmentalFailurePatterns = before ++
      pattern :: after ∧
      ∀ earlier ∈ before, ¬ Lost L text earlier := by
  have hlost (p : String) : (!occursIn p.toList ((L.lower text).take maxFailureDetailChars) &&
      occursIn p.toList (L.lower text)) = true ↔ Lost L text p := by
    rw [Bool.and_eq_true, Bool.not_eq_true', and_comm, Lost]
  rw [lostPattern, List.find?_eq_some_iff_append, hlost]
  refine and_congr_right fun _ => exists_congr fun before => exists_congr fun after =>
    and_congr_right fun _ => forall₂_congr fun earlier _ => ?_
  rw [Bool.not_eq_true', ← Bool.not_eq_true, hlost]

theorem unsevered_iff : Unsevered L text ↔
    text.length ≤ maxFailureDetailChars ∨ ∀ pattern, lostPattern L text = some pattern →
      Environmental L
          (text.take (maxFailureDetailChars - 1 - (preserved L text pattern).length)) ∨
        Environmental L (preserved L text pattern) := by
  refine or_congr_right ⟨fun h pattern hpat => ?_, fun h before pattern after i hsplit hfirst
    hlost hat => ?_⟩
  · obtain ⟨hlost, before, after, hsplit, hfirst⟩ := lostPattern_eq_some_iff.mp hpat
    obtain ⟨i, hi, -⟩ := find_of_occursIn hlost.1
    have hkept := h before pattern after i hsplit hfirst hlost (find_eq_some_iff.mp hi)
    rwa [preserved, hi]
  · have hkept := h pattern (lostPattern_eq_some_iff.mpr ⟨hlost, before, after, hsplit, hfirst⟩)
    rwa [preserved, find_eq_some_iff.mpr hat] at hkept

/-- What is stored is no longer than it may be, is the text where that is short enough, and
    has its verdict. -/
def Faithful (L : Lowering) (text : List Char) : Prop :=
  (capFailureDetail L text).length ≤ maxFailureDetailChars ∧
    (text.length ≤ maxFailureDetailChars → capFailureDetail L text = text) ∧
    classifyFailureText L (capFailureDetail L text) = classifyFailureText L text

/-- The cut is faithful exactly where the text is unsevered. -/
theorem capFailureDetail_faithful_iff (L : Lowering) (text : List Char) :
    Faithful L text ↔ Unsevered L text := by
  have hsame (h : text.length ≤ maxFailureDetailChars) : capFailureDetail L text = text := by
    rw [capFailureDetail, if_pos h]
  unfold Faithful
  rw [and_iff_right (length_capFailureDetail_le L text), and_iff_right hsame,
    classifyFailureText_congr, unsevered_iff]
  by_cases hlong : text.length ≤ maxFailureDetailChars
  · rw [hsame hlong]
    exact iff_of_true Iff.rfl (.inl hlong)
  cases h : lostPattern L text with
  | none =>
    rw [capFailureDetail, if_neg hlong, h]
    exact iff_of_true (environmental_take h) (.inr nofun)
  | some pattern =>
    -- the text has this message, so it is for what is kept to have one
    have htext : Environmental L text := ⟨pattern, lostPattern_eq_some h⟩
    rw [capFailureDetail_lost hlong h, environmental_separated, iff_true_right htext]
    constructor
    · intro hkept
      refine .inr fun pattern' h' => ?_
      obtain rfl := Option.some.inj h'
      exact hkept
    · exact fun hun => hun.resolve_left hlong pattern rfl

-- Where every character becomes one, a place in what they become is one in the text.
theorem unsevered_of_single (h : ∀ c ∈ text, (L.char c).length = 1) : Unsevered L text := by
  have hlow : ∀ part : List Char, (∀ c ∈ part, c ∈ text) →
      L.lower part = part.map fun c => (L.char c).headD c := by
    intro part hpart
    induction part with
    | nil => rfl
    | cons c part ih =>
      obtain ⟨d, hd⟩ := List.length_eq_one_iff.mp (h c (hpart c List.mem_cons_self))
      have hrest := ih fun c' hc' => hpart c' (List.mem_cons_of_mem c hc')
      rw [List.map_cons, ← hrest, hd]
      exact congrArg (· ++ part.flatMap L.char) hd
  refine unsevered_iff.mpr (.inr fun pattern hlost => .inr ?_)
  obtain ⟨hmem, hin⟩ := lostPattern_eq_some hlost
  obtain ⟨i, hi, htake⟩ := find_of_occursIn hin
  refine ⟨pattern, hmem, ?_⟩
  have hpart : ∀ c ∈ preserved L text pattern, c ∈ text :=
    fun c hc => List.mem_of_mem_drop (List.mem_of_mem_take hc)
  rw [hlow _ hpart, preserved, hi, Option.getD_some, List.map_take, List.map_drop,
    ← hlow text fun _ hc => hc, ← String.length_toList, htake]
  exact occursIn_self _

/-! ### A message cut off -/

/-- The capital of the dotted letter becomes the letter and its dot. -/
def dotted : Lowering where
  char c := if c = 'İ' then ['i', '\u0307'] else [c.toLower]
  nonempty c := by
    split <;> exact nofun
  ellipsis := by decide

def dottedText : List Char := 'İ' :: (List.replicate 300 'x' ++ "permission denied".toList)

/-- The first letter of the message is lost, and with it the verdict. -/
theorem severed : ¬ Faithful dotted dottedText := by
  have hclass : classifyFailureText dotted (capFailureDetail dotted dottedText) ≠
      classifyFailureText dotted dottedText := by decide +kernel
  exact fun h => hclass h.2.2

end FailureDetail

end PlexManager
