import PlexManager.Core.DownloadState

/-!
# Whose fault a failed download was

A download can fail because the release is bad or because the host is: a full
disk, a read-only mount, a missing staging directory. Only the first may put
the release on the blocklist. The judgement is made on the text of the failure
alone, by looking for the messages of the operating system in it.

Looking for a pattern anywhere in the text makes the verdict monotone: text
added on either side never takes an environmental verdict back. The queue
relies on that when it stores a verdict as the enriched text and classifies the
text again later.
-/

namespace PlexManager

theorem occursIn_append_right (pattern text more : List Char)
    (h : occursIn pattern text = true) : occursIn pattern (text ++ more) = true := by
  induction text with
  | nil =>
    simp only [occursIn, List.isEmpty_iff] at h
    rw [h]
    cases more with
    | nil => rfl
    | cons c rest => simp [occursIn]
  | cons c rest ih =>
    simp only [occursIn, Bool.or_eq_true] at h
    simp only [List.cons_append, occursIn, Bool.or_eq_true]
    rcases h with h | h
    · refine .inl ?_
      rw [List.isPrefixOf_iff_prefix] at h ⊢
      exact h.trans (List.prefix_append (c :: rest) more)
    · exact .inr (ih h)

theorem contains_append_right (s t pattern : String) (h : contains (lower s) pattern = true) :
    contains (lower (s ++ t)) pattern = true := by
  unfold contains at h ⊢
  rw [show (lower (s ++ t)).toList = (lower s).toList ++ (lower t).toList by simp [lower]]
  exact occursIn_append_right _ _ _ h

inductive FailureClass where
  | environmental
  | releaseFault
  deriving DecidableEq, Repr

/-- `ENVIRONMENTAL_FAILURE_PATTERNS`: lower-case messages of the host. -/
def environmentalFailurePatterns : List String :=
  ["permission denied", "read-only file system", "no space left on device",
    "disk quota exceeded", "no such file or directory", "input/output error", "i/o error",
    "missingfiles"]

/-- The verdict on a failure text; without one, or with an empty one, the
    release is at fault. -/
def classifyFailureDetail (detail : Option String) : FailureClass :=
  match detail with
  | none => .releaseFault
  | some text =>
      if text.isEmpty then .releaseFault
      else if environmentalFailurePatterns.any fun pattern => contains (lower text) pattern then
        .environmental
      else .releaseFault

theorem classify_environmental_iff (text : String) :
    classifyFailureDetail (some text) = .environmental ↔
      ∃ pattern ∈ environmentalFailurePatterns, contains (lower text) pattern = true := by
  simp only [classifyFailureDetail]
  by_cases hnil : text.isEmpty = true
  · -- No pattern occurs in the empty text.
    have htext : text = "" := by simpa using hnil
    subst htext
    decide
  rw [if_neg hnil]
  by_cases hany : (environmentalFailurePatterns.any fun pattern =>
      contains (lower text) pattern) = true
  · simp only [hany, if_true, true_iff]
    exact List.any_eq_true.mp hany
  · simp only [hany, if_false, reduceCtorEq, false_iff, Bool.false_eq_true]
    intro h
    exact hany (List.any_eq_true.mpr h)

/-- An environmental verdict survives text added after it. -/
theorem classify_append (text more : String)
    (h : classifyFailureDetail (some text) = .environmental) :
    classifyFailureDetail (some (text ++ more)) = .environmental := by
  rw [classify_environmental_iff] at h ⊢
  rcases h with ⟨pattern, hmem, hin⟩
  exact ⟨pattern, hmem, contains_append_right text more pattern hin⟩

end PlexManager
