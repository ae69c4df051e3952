import PlexManager.Core.FailureClassification

/-!
# The text of a failure, cut to size

The reason that is stored with a failed download has at most three hundred characters.
Where the cut would lose a message of the host, the message is put behind a shorter head.
The message is looked for in the lower-cased text, and taken out of the text itself at the
place where it was found.

Lower-casing is a parameter here, since a character of Unicode may become several.
-/

namespace PlexManager

namespace FailureDetail

/-- What `str.lower` makes of a character on its own. The ellipsis is no letter. -/
structure Lowering where
  char : Char → List Char
  nonempty : ∀ c, char c ≠ []
  ellipsis : char '…' = ['…']

def Lowering.lower (L : Lowering) (text : List Char) : List Char := text.flatMap L.char

/-- The lower-casing that the queue goes by. -/
def Lowering.plain : Lowering where
  char := lowerChar
  nonempty c := by
    unfold lowerChar
    split
    · exact nofun
    · split <;> exact nofun
  ellipsis := by decide

/-- `classify_failure_detail`, for any lower-casing. -/
def classifyFailureText (L : Lowering) (detail : List Char) : FailureClass :=
  if detail.isEmpty then .releaseFault
  else if environmentalFailurePatterns.any fun pattern =>
      occursIn pattern.toList (L.lower detail) then
    .environmental
  else .releaseFault

theorem classifyFailureDetail_eq (text : String) :
    classifyFailureDetail (some text) = classifyFailureText .plain text.toList := by
  have hlow : Lowering.plain.lower text.toList = (lower text).toList := by
    simp only [Lowering.lower, Lowering.plain, lower, String.toList_ofList]
  have hnil : text.toList.isEmpty = text.isEmpty := by
    rw [Bool.eq_iff_iff, List.isEmpty_iff, String.isEmpty_iff, String.toList_eq_nil_iff]
  simp only [classifyFailureDetail, classifyFailureText, contains, hlow, hnil]
  rfl

def find (pattern : List Char) : List Char → Option Nat
  | [] => if pattern.isEmpty then some 0 else none
  | c :: rest =>
      if pattern.isPrefixOf (c :: rest) then some 0 else (find pattern rest).map (· + 1)

def maxFailureDetailChars : Nat := 300

/-- The first of the messages that the text has, but not its head. -/
def lostPattern (L : Lowering) (text : List Char) : Option String :=
  environmentalFailurePatterns.find? fun pattern =>
    !occursIn pattern.toList ((L.lower text).take maxFailureDetailChars) &&
      occursIn pattern.toList (L.lower text)

/-- The characters of the text at the place where its lower-casing has the message. -/
def preserved (L : Lowering) (text : List Char) (pattern : String) : List Char :=
  (text.drop ((find pattern.toList (L.lower text)).getD 0)).take pattern.length

def capFailureDetail (L : Lowering) (text : List Char) : List Char :=
  if text.length ≤ maxFailureDetailChars then text
  else match lostPattern L text with
    | none => text.take maxFailureDetailChars
    | some pattern =>
        let kept := preserved L text pattern
        let headRoom := maxFailureDetailChars - 1 - kept.length
        if headRoom = 0 then kept.take maxFailureDetailChars
        else text.take headRoom ++ '…' :: kept

end FailureDetail

end PlexManager
