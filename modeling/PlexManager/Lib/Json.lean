import Mathlib.Data.List.Sort
import Mathlib.Data.String.Basic

/-!
# JSON as it is written and read

A value is written without blanks, and in ASCII: every other character is escaped, as two
halves if it is beyond the basic plane. It is read with blanks anywhere between its parts.
Numbers with a fraction are left out, and half characters that stand alone.

What is written is read back. A reader has to be told how deep it may go, and the length
of the text is always enough: every part that is read begins with a character that is
read before it. A number ends where something stands that cannot belong to it, and that
is all a value asks of what follows it.

The members of an object are kept in the order they were put in. Two objects with the
same members are the same all the same, and to write them with their keys in order is to
write them in the same way.

## Main definitions

* `Json`, `WellFormed`: Values, and values with every key once.
* `escape`, `quote`, `render`: What is written.
* `unescaped`, `scanString`, `scanInt`, `value`, `loads`: What is read.
* `sortKeys`, `Same`: Values with their keys in order, and values that are the same.

## Theorems

* `unescaped_escape`, `scanString_quote`, `scanInt_renderInt`: Characters, strings and
  numbers are read back.
* `value_render`: So are values, in front of anything that ends them.
* `loads_render`: What is written is read back.
* `render_injective`: No two values are written in the same way.
* `sortKeys_sortKeys`, `wellFormed_sortKeys`: What is in order stays so.
-/

namespace JsonText

inductive Json where
  | null
  | bool (b : Bool)
  | int (n : Int)
  | str (s : String)
  | arr (items : List Json)
  | obj (members : List (String × Json))

mutual

/-- Every key of every object is there once. -/
def WellFormed : Json → Prop
  | .null | .bool _ | .int _ | .str _ => True
  | .arr items => WellFormedItems items
  | .obj members => (members.map Prod.fst).Nodup ∧ WellFormedMembers members

def WellFormedItems : List Json → Prop
  | [] => True
  | v :: vs => WellFormed v ∧ WellFormedItems vs

def WellFormedMembers : List (String × Json) → Prop
  | [] => True
  | (_, v) :: ms => WellFormed v ∧ WellFormedMembers ms

end

/-! ### Writing -/

/-- `\uXXXX`. -/
def hex4 (n : Nat) : List Char :=
  [Nat.digitChar (n / 4096 % 16), Nat.digitChar (n / 256 % 16), Nat.digitChar (n / 16 % 16),
    Nat.digitChar (n % 16)]

def shortEscapes : List (Char × Char) :=
  [('"', '"'), ('\\', '\\'), ('\n', 'n'), ('\r', 'r'), ('\t', 't'), ('\x0c', 'f'), ('\x08', 'b')]

def shortEscape (c : Char) : Option Char := (shortEscapes.find? fun p => p.1 = c).map Prod.snd

def escape (c : Char) : List Char :=
  match shortEscape c with
  | some e => ['\\', e]
  | none =>
      if 0x20 ≤ c.toNat ∧ c.toNat ≤ 0x7E then [c]
      else if c.toNat < 0x10000 then '\\' :: 'u' :: hex4 c.toNat
      else '\\' :: 'u' :: hex4 (0xD800 + (c.toNat - 0x10000) / 1024) ++
        '\\' :: 'u' :: hex4 (0xDC00 + (c.toNat - 0x10000) % 1024)

def quote (s : String) : List Char := '"' :: (s.toList.flatMap escape ++ ['"'])

def renderInt (n : Int) : List Char :=
  if n < 0 then '-' :: Nat.toDigits 10 n.natAbs else Nat.toDigits 10 n.natAbs

mutual

/-- `json.dumps` with the separators `,` and `:`. -/
def render : Json → List Char
  | .null => "null".toList
  | .bool true => "true".toList
  | .bool false => "false".toList
  | .int n => renderInt n
  | .str s => quote s
  | .arr [] => ['[', ']']
  | .arr (v :: vs) => '[' :: (render v ++ renderItems vs)
  | .obj [] => ['\x7b', '\x7d']
  | .obj ((k, v) :: ms) => '\x7b' :: (quote k ++ ':' :: (render v ++ renderMembers ms))

/-- The rest of a list. -/
def renderItems : List Json → List Char
  | [] => [']']
  | v :: vs => ',' :: (render v ++ renderItems vs)

/-- The rest of an object. -/
def renderMembers : List (String × Json) → List Char
  | [] => ['\x7d']
  | (k, v) :: ms => ',' :: (quote k ++ ':' :: (render v ++ renderMembers ms))

end

/-! ### Reading -/

def isSpace (c : Char) : Bool := c = ' ' || c = '\t' || c = '\n' || c = '\r'

def skipSpace (s : List Char) : List Char := s.dropWhile isSpace

def hexValue (c : Char) : Option Nat :=
  if '0' ≤ c ∧ c ≤ '9' then some (c.toNat - '0'.toNat)
  else if 'a' ≤ c ∧ c ≤ 'f' then some (c.toNat - 'a'.toNat + 10)
  else if 'A' ≤ c ∧ c ≤ 'F' then some (c.toNat - 'A'.toNat + 10)
  else none

def readHex4 : List Char → Option (Nat × List Char)
  | a :: b :: c :: d :: rest => do
      let a ← hexValue a
      let b ← hexValue b
      let c ← hexValue c
      let d ← hexValue d
      some (a * 4096 + b * 256 + c * 16 + d, rest)
  | _ => none

def isHigh (n : Nat) : Bool := 0xD800 ≤ n && n ≤ 0xDBFF

def isLow (n : Nat) : Bool := 0xDC00 ≤ n && n ≤ 0xDFFF

/-- The character a long escape stands for, or one with the other half after it. -/
def unicodeEscape (s : List Char) : Option (Char × List Char) := do
  let (n, rest) ← readHex4 s
  if isHigh n then
    match rest with
    | '\\' :: 'u' :: rest => do
        let (m, rest) ← readHex4 rest
        if isLow m then some (Char.ofNat (0x10000 + (n - 0xD800) * 1024 + (m - 0xDC00)), rest)
        else none
    | _ => none
  else if isLow n then none
  else some (Char.ofNat n, rest)

def simpleEscape (c : Char) : Option Char :=
  ((('/', '/') :: shortEscapes).find? fun p => p.2 = c).map Prod.fst

/-- The first character of what is between two quotes. -/
def unescaped : List Char → Option (Char × List Char)
  | [] => none
  | c :: rest =>
      if c = '\\' then
        match rest with
        | [] => none
        | e :: rest =>
            if e = 'u' then unicodeEscape rest else (simpleEscape e).map fun c => (c, rest)
      else if c.toNat < 0x20 then none
      else some (c, rest)

/-- What is read up to a quote. -/
def scanString : Nat → List Char → Option (List Char × List Char)
  | 0, _ => none
  | _ + 1, [] => none
  | n + 1, c :: s =>
      if c = '"' then some ([], s)
      else do
        let (a, rest) ← unescaped (c :: s)
        let (as, rest) ← scanString n rest
        some (a :: as, rest)

/-- Whether a character can go on with a number. -/
def goesOn (c : Char) : Bool := c.isDigit || c = '.' || c = 'e' || c = 'E'

def scanNat (s : List Char) : Option (Nat × List Char) :=
  let digits := s.takeWhile Char.isDigit
  let rest := s.dropWhile Char.isDigit
  if digits = [] ∨ (digits.head? = some '0' ∧ digits ≠ ['0']) ∨ rest.head?.any goesOn = true then
    none
  else some (Nat.ofDigitChars 10 digits 0, rest)

def scanInt : List Char → Option (Int × List Char)
  | [] => none
  | c :: s =>
      if c = '-' then (scanNat s).map fun r => (-(r.1 : Int), r.2)
      else (scanNat (c :: s)).map fun r => ((r.1 : Int), r.2)

/-- What is there in front, if it is there. -/
def literal (name : List Char) (v : Json) (s : List Char) : Option (Json × List Char) :=
  if name <+: s then some (v, s.drop name.length) else none

/-- `dict`: of two members with one key the last counts, in the first place. -/
def put (members : List (String × Json)) (m : String × Json) : List (String × Json) :=
  if members.any fun m' => m'.1 = m.1 then members.map fun m' => if m'.1 = m.1 then m else m'
  else members ++ [m]

def ofPairs (members : List (String × Json)) : List (String × Json) := members.foldl put []

mutual

def value : Nat → List Char → Option (Json × List Char)
  | 0, _ => none
  | _ + 1, [] => none
  | n + 1, c :: s =>
      if c = '"' then (scanString (s.length + 1) s).map fun r => (.str (String.ofList r.1), r.2)
      else if c = '[' then
        if (skipSpace s).head? = some ']' then some (.arr [], (skipSpace s).tail)
        else (items n (skipSpace s)).map fun r => (.arr r.1, r.2)
      else if c = '\x7b' then
        if (skipSpace s).head? = some '\x7d' then some (.obj [], (skipSpace s).tail)
        else (members n (skipSpace s)).map fun r => (.obj (ofPairs r.1), r.2)
      else ((literal "null".toList .null (c :: s)).or
        (literal "true".toList (.bool true) (c :: s))).or
        ((literal "false".toList (.bool false) (c :: s)).or
          ((scanInt (c :: s)).map fun r => (.int r.1, r.2)))

def items : Nat → List Char → Option (List Json × List Char)
  | 0, _ => none
  | n + 1, s => do
      let (v, rest) ← value n s
      match skipSpace rest with
      | [] => none
      | c :: rest =>
          if c = ']' then some ([v], rest)
          else if c = ',' then do
            let (vs, rest) ← items n (skipSpace rest)
            some (v :: vs, rest)
          else none

def members : Nat → List Char → Option (List (String × Json) × List Char)
  | 0, _ => none
  | _ + 1, [] => none
  | n + 1, c :: s =>
      if c = '"' then do
        let (k, rest) ← scanString (s.length + 1) s
        match skipSpace rest with
        | [] => none
        | c :: rest =>
            if c = ':' then do
              let (v, rest) ← value n (skipSpace rest)
              match skipSpace rest with
              | [] => none
              | c :: rest =>
                  if c = '\x7d' then some ([(String.ofList k, v)], rest)
                  else if c = ',' then do
                    let (ms, rest) ← members n (skipSpace rest)
                    some ((String.ofList k, v) :: ms, rest)
                  else none
            else none
      else none

end

def loads (s : List Char) : Option Json :=
  match value (s.length + 1) (skipSpace s) with
  | some (v, rest) => if skipSpace rest = [] then some v else none
  | none => none

/-! ### Characters -/

theorem hexValue_digitChar : ∀ d < 16, hexValue (Nat.digitChar d) = some d := by decide

variable {c : Char} {n : Nat} {r : List Char}

theorem readHex4_hex4 (h : n < 0x10000) (r : List Char) : readHex4 (hex4 n ++ r) = some (n, r) := by
  have hdig : ∀ m, hexValue (Nat.digitChar (m % 16)) = some (m % 16) :=
    fun m => hexValue_digitChar _ (Nat.mod_lt m (by decide))
  have hsum : n / 4096 % 16 * 4096 + n / 256 % 16 * 256 + n / 16 % 16 * 16 + n % 16 = n := by
    omega
  simp only [hex4, List.cons_append, List.nil_append, readHex4, hdig]
  change some (n / 4096 % 16 * 4096 + n / 256 % 16 * 256 + n / 16 % 16 * 16 + n % 16, r) = _
  rw [hsum]

/-- A character is no half of another. -/
theorem not_surrogate (c : Char) : isHigh c.toNat = false ∧ isLow c.toNat = false := by
  have hval := c.valid
  change c.toNat < 0xD800 ∨ 0xDFFF < c.toNat ∧ c.toNat < 0x110000 at hval
  constructor
  · simp only [isHigh, Bool.and_eq_false_iff, decide_eq_false_iff_not]
    omega
  · simp only [isLow, Bool.and_eq_false_iff, decide_eq_false_iff_not]
    omega

theorem toNat_lt (c : Char) : c.toNat < 0x110000 := by
  have hval := c.valid
  change c.toNat < 0xD800 ∨ 0xDFFF < c.toNat ∧ c.toNat < 0x110000 at hval
  omega

theorem unicodeEscape_hex4 (h : c.toNat < 0x10000) (r : List Char) :
    unicodeEscape (hex4 c.toNat ++ r) = some (c, r) := by
  have hhalf := not_surrogate c
  simp only [unicodeEscape, readHex4_hex4 h, bind, Option.bind, hhalf.1, hhalf.2,
    Bool.false_eq_true, if_false, Char.ofNat_toNat]

theorem unicodeEscape_halves {m : Nat} (hn : n < 0x10000) (hm : m < 0x10000)
    (hhigh : isHigh n = true) (hlow : isLow m = true) (r : List Char) :
    unicodeEscape (hex4 n ++ ('\\' :: 'u' :: (hex4 m ++ r))) =
      some (Char.ofNat (0x10000 + (n - 0xD800) * 1024 + (m - 0xDC00)), r) := by
  simp only [unicodeEscape, readHex4_hex4 hn, bind, Option.bind, hhigh, if_true,
    readHex4_hex4 hm, hlow]

/-- The two halves of a character beyond the basic plane. -/
theorem halves (n : Nat) (h : ¬n < 0x10000) (hlt : n < 0x110000) :
    ∃ high low, high = 0xD800 + (n - 0x10000) / 1024 ∧ low = 0xDC00 + (n - 0x10000) % 1024 ∧
      isHigh high = true ∧ isLow low = true ∧ high < 0x10000 ∧ low < 0x10000 ∧
      0x10000 + (high - 0xD800) * 1024 + (low - 0xDC00) = n := by
  refine ⟨_, _, rfl, rfl, ?_, ?_, ?_, ?_, ?_⟩
  · simp only [isHigh, Bool.and_eq_true, decide_eq_true_eq]
    omega
  · simp only [isLow, Bool.and_eq_true, decide_eq_true_eq]
    omega
  · omega
  · omega
  · omega

theorem simpleEscape_shortEscape {e : Char} (h : shortEscape c = some e) :
    simpleEscape e = some c ∧ e ≠ 'u' := by
  have hall : ∀ p ∈ shortEscapes, simpleEscape p.2 = some p.1 ∧ p.2 ≠ 'u' := by decide
  rcases Option.map_eq_some_iff.mp h with ⟨p, hfind, rfl⟩
  have hkey : p.1 = c := by simpa using List.find?_some hfind
  exact hkey ▸ hall p (List.mem_of_find?_eq_some hfind)

theorem ne_of_shortEscape_none (h : shortEscape c = none) : c ≠ '"' ∧ c ≠ '\\' := by
  constructor
  · rintro rfl
    exact absurd h (by decide)
  · rintro rfl
    exact absurd h (by decide)

theorem unescaped_escape (c : Char) (r : List Char) : unescaped (escape c ++ r) = some (c, r) := by
  unfold escape
  cases hshort : shortEscape c with
  | some e =>
    have hread := simpleEscape_shortEscape hshort
    simp only [List.cons_append, List.nil_append, unescaped, if_true, if_neg hread.2, hread.1,
      Option.map_some]
  | none =>
    have hne := ne_of_shortEscape_none hshort
    by_cases hprint : 0x20 ≤ c.toNat ∧ c.toNat ≤ 0x7E
    · have hcontrol : ¬c.toNat < 0x20 := by omega
      simp only [if_pos hprint, List.cons_append, List.nil_append, unescaped, if_neg hne.2,
        if_neg hcontrol]
    · by_cases hbasic : c.toNat < 0x10000
      · simp only [if_neg hprint, if_pos hbasic, List.cons_append, unescaped, if_true,
          unicodeEscape_hex4 hbasic]
      · simp only [if_neg hprint, if_neg hbasic, List.cons_append, List.append_assoc, unescaped,
          if_true]
        rcases halves c.toNat hbasic (toNat_lt c) with
          ⟨high, low, hhigh, hlow, hishigh, hislow, hhighlt, hlowlt, hsum⟩
        rw [← hhigh, ← hlow, unicodeEscape_halves hhighlt hlowlt hishigh hislow, hsum,
          Char.ofNat_toNat]

/-- What is written for a character does not begin with a quote. -/
theorem escape_cons (c : Char) : ∃ a as, escape c = a :: as ∧ a ≠ '"' := by
  unfold escape
  cases hshort : shortEscape c with
  | some e => exact ⟨_, _, rfl, by decide⟩
  | none =>
    by_cases hprint : 0x20 ≤ c.toNat ∧ c.toNat ≤ 0x7E
    · exact ⟨c, [], if_pos hprint, (ne_of_shortEscape_none hshort).1⟩
    by_cases hbasic : c.toNat < 0x10000
    · simp only [if_neg hprint, if_pos hbasic]
      exact ⟨_, _, rfl, by decide⟩
    · simp only [if_neg hprint, if_neg hbasic]
      exact ⟨_, _, rfl, by decide⟩

/-! ### Strings and numbers -/

theorem scanString_escape (cs : List Char) (hn : cs.length < n) (r : List Char) :
    scanString n (cs.flatMap escape ++ '"' :: r) = some (cs, r) := by
  induction cs generalizing n with
  | nil =>
    rcases n with _ | n
    · exact absurd hn (by omega)
    · rfl
  | cons c cs ih =>
    rcases n with _ | n
    · exact absurd hn (by omega)
    rcases escape_cons c with ⟨a, as, heq, hne⟩
    have hread := unescaped_escape c (cs.flatMap escape ++ '"' :: r)
    have hlen : cs.length < n := by
      rw [List.length_cons] at hn
      omega
    rw [List.flatMap_cons, List.append_assoc]
    rw [heq, List.cons_append] at hread ⊢
    simp only [scanString, if_neg hne, hread, bind, Option.bind, ih hlen]

theorem length_le_escape (cs : List Char) : cs.length ≤ (cs.flatMap escape).length := by
  induction cs with
  | nil => exact Nat.le_refl 0
  | cons c cs ih =>
    rcases escape_cons c with ⟨a, as, heq, -⟩
    rw [List.flatMap_cons, heq]
    simp only [List.length_cons, List.length_append]
    omega

theorem scanString_quote (s : String) (r : List Char) :
    scanString ((s.toList.flatMap escape ++ '"' :: r).length + 1)
      (s.toList.flatMap escape ++ '"' :: r) = some (s.toList, r) := by
  refine scanString_escape s.toList ?_ r
  have hle := length_le_escape s.toList
  simp only [List.length_append, List.length_cons]
  omega

/-- What cannot go on with a number. -/
def Ends (r : List Char) : Prop := r.head?.any goesOn = false

theorem ends_nil : Ends [] := rfl

theorem ends_cons (h : goesOn c = false) : Ends (c :: r) := h

theorem isDigit_of_mem (h : c ∈ Nat.toDigits 10 n) : c.isDigit = true :=
  Nat.isDigit_of_mem_toDigits (by decide) (by decide) h

/-- A number has no zero in front but zero itself. -/
theorem toDigits_head (n : Nat) :
    (Nat.toDigits 10 n).head? = some '0' → Nat.toDigits 10 n = ['0'] := by
  induction n using Nat.strong_induction_on with
  | _ n ih =>
    intro hhead
    by_cases hlt : n < 10
    · have hone : Nat.toDigits 10 n = [n.digitChar] := Nat.toDigits_of_lt_base hlt
      rw [hone, List.head?_cons, Option.some.injEq] at hhead
      rw [hone, hhead]
    have hmore : Nat.toDigits 10 n = Nat.toDigits 10 (n / 10) ++ [(n % 10).digitChar] :=
      Nat.toDigits_of_base_le (by decide) (by omega)
    have hne : Nat.toDigits 10 (n / 10) ≠ [] := Nat.toDigits_ne_nil
    rw [hmore, List.head?_append_of_ne_nil _ hne] at hhead
    -- the number in front would be zero, and so this one below ten
    have hzero := ih (n / 10) (by omega) hhead
    have hval : Nat.ofDigitChars 10 (Nat.toDigits 10 (n / 10)) 0 = 0 := by rw [hzero]; rfl
    rw [Nat.ofDigitChars_ten_toDigits] at hval
    omega

theorem scanNat_toDigits (n : Nat) (hr : Ends r) :
    scanNat (Nat.toDigits 10 n ++ r) = some (n, r) := by
  have hall : ∀ c ∈ Nat.toDigits 10 n, c.isDigit = true := fun c hc => isDigit_of_mem hc
  have hstop : r.takeWhile Char.isDigit = [] ∧ r.dropWhile Char.isDigit = r := by
    cases r with
    | nil => exact ⟨rfl, rfl⟩
    | cons c r =>
      have hdig : c.isDigit = false := by
        have hgoes : goesOn c = false := hr
        simp only [goesOn, Bool.or_eq_false_iff] at hgoes
        exact hgoes.1.1.1
      exact ⟨List.takeWhile_cons_of_neg (by simp [hdig]),
        List.dropWhile_cons_of_neg (by simp [hdig])⟩
  have htake : (Nat.toDigits 10 n ++ r).takeWhile Char.isDigit = Nat.toDigits 10 n := by
    rw [List.takeWhile_append_of_pos hall, hstop.1, List.append_nil]
  have hdrop : (Nat.toDigits 10 n ++ r).dropWhile Char.isDigit = r := by
    rw [List.dropWhile_append_of_pos hall, hstop.2]
  have hgood : ¬(Nat.toDigits 10 n = [] ∨
      ((Nat.toDigits 10 n).head? = some '0' ∧ Nat.toDigits 10 n ≠ ['0']) ∨
      r.head?.any goesOn = true) := by
    rintro (hnil | ⟨hhead, hne⟩ | hgoes)
    · exact Nat.toDigits_ne_nil hnil
    · exact hne (toDigits_head n hhead)
    · exact absurd (hgoes.symm.trans hr) (by decide)
  simp only [scanNat, htake, hdrop, if_neg hgood, Nat.ofDigitChars_ten_toDigits]

/-- A number begins with a digit or a sign. -/
theorem renderInt_cons (n : Int) : ∃ c s, renderInt n = c :: s ∧ (c = '-' ∨ c.isDigit = true) := by
  unfold renderInt
  by_cases hneg : n < 0
  · rw [if_pos hneg]
    exact ⟨_, _, rfl, .inl rfl⟩
  rw [if_neg hneg]
  cases hdig : Nat.toDigits 10 n.natAbs with
  | nil => exact absurd hdig Nat.toDigits_ne_nil
  | cons c s =>
    refine ⟨c, s, rfl, .inr (isDigit_of_mem (n := n.natAbs) ?_)⟩
    rw [hdig]
    exact List.mem_cons_self

theorem scanInt_renderInt (n : Int) (hr : Ends r) : scanInt (renderInt n ++ r) = some (n, r) := by
  unfold renderInt
  by_cases hneg : n < 0
  · have habs : -(n.natAbs : Int) = n := by omega
    simp only [if_pos hneg, List.cons_append, scanInt, if_true, scanNat_toDigits _ hr,
      Option.map_some, habs]
  have habs : (n.natAbs : Int) = n := by omega
  rw [if_neg hneg]
  have hread := scanNat_toDigits n.natAbs hr
  cases hdig : Nat.toDigits 10 n.natAbs with
  | nil => exact absurd hdig Nat.toDigits_ne_nil
  | cons c s =>
    have hdigit : c.isDigit = true := by
      refine isDigit_of_mem (n := n.natAbs) ?_
      rw [hdig]
      exact List.mem_cons_self
    have hne : c ≠ '-' := by
      rintro rfl
      exact absurd hdigit (by decide)
    rw [hdig, List.cons_append] at hread
    simp only [List.cons_append, scanInt, if_neg hne, hread, Option.map_some, habs]

/-! ### Values -/

theorem skipSpace_cons (h : isSpace c = false) (s : List Char) :
    skipSpace (c :: s) = c :: s := List.dropWhile_cons_of_neg (by simp [h])

theorem literal_append (name : List Char) (v : Json) (r : List Char) :
    literal name v (name ++ r) = some (v, r) := by
  rw [literal, if_pos (List.prefix_append name r), List.drop_left]

theorem literal_cons_ne {a : Char} (h : a ≠ c) (name : List Char) (v : Json) (s : List Char) :
    literal (a :: name) v (c :: s) = none := by
  rw [literal, if_neg]
  rw [List.cons_prefix_cons]
  exact fun hpre => h hpre.1

def Begins (c : Char) : Prop := isSpace c = false ∧ c ≠ ']' ∧ c ≠ '\x7d'

instance (c : Char) : Decidable (Begins c) := inferInstanceAs (Decidable (_ ∧ _))

theorem begins_of_number (h : c = '-' ∨ c.isDigit = true) : Begins c ∧ c ≠ '"' ∧
    c ≠ '[' ∧ c ≠ '\x7b' ∧ c ≠ 'n' ∧ c ≠ 't' ∧ c ≠ 'f' := by
  have hne : ∀ a : Char, a ≠ '-' → a.isDigit = false → c ≠ a := by
    rintro a hminus hdig rfl
    rcases h with h | h
    · exact hminus h
    · exact nomatch hdig.symm.trans h
  refine ⟨⟨?_, ?_, ?_⟩, ?_, ?_, ?_, ?_, ?_, ?_⟩
  · simp only [isSpace, Bool.or_eq_false_iff, decide_eq_false_iff_not]
    exact ⟨⟨⟨hne _ (by decide) (by decide), hne _ (by decide) (by decide)⟩,
      hne _ (by decide) (by decide)⟩, hne _ (by decide) (by decide)⟩
  all_goals exact hne _ (by decide) (by decide)

variable (ms : List (String × Json)) (v : Json)

theorem render_cons : ∃ c s, render v = c :: s ∧ Begins c := by
  cases v with
  | null => exact ⟨'n', "ull".toList, rfl, by decide⟩
  | bool b =>
    cases b with
    | true => exact ⟨'t', "rue".toList, rfl, by decide⟩
    | false => exact ⟨'f', "alse".toList, rfl, by decide⟩
  | int n =>
    rcases renderInt_cons n with ⟨c, s, heq, hc⟩
    exact ⟨c, s, heq, (begins_of_number hc).1⟩
  | str s => exact ⟨'"', _, rfl, by decide⟩
  | arr items =>
    cases items with
    | nil | cons v vs => exact ⟨'[', _, rfl, by decide⟩
  | obj members =>
    cases members with
    | nil | cons m ms => exact ⟨'\x7b', _, rfl, by decide⟩

theorem renderItems_cons (vs : List Json) : ∃ c s, renderItems vs = c :: s ∧ goesOn c = false := by
  cases vs with
  | nil => exact ⟨']', [], rfl, by decide⟩
  | cons v vs => exact ⟨',', _, rfl, by decide⟩

theorem renderMembers_cons : ∃ c s, renderMembers ms = c :: s ∧ goesOn c = false := by
  cases ms with
  | nil => exact ⟨'\x7d', [], rfl, by decide⟩
  | cons m ms => exact ⟨',', _, rfl, by decide⟩

theorem skipSpace_render (s : List Char) : skipSpace (render v ++ s) = render v ++ s := by
  rcases render_cons v with ⟨c, t, heq, hbegins⟩
  rw [heq, List.cons_append, skipSpace_cons hbegins.1]

theorem render_length_pos : 0 < (render v).length := by
  rcases render_cons v with ⟨c, t, heq, -⟩
  rw [heq, List.length_cons]
  omega

/-- With every key there once, nothing is put in the place of another. -/
theorem ofPairs_of_nodup {members : List (String × Json)}
    (h : (members.map Prod.fst).Nodup) : ofPairs members = members := by
  have hfold : ∀ (ms front : List (String × Json)), ((front ++ ms).map Prod.fst).Nodup →
      ms.foldl put front = front ++ ms := by
    intro ms
    induction ms with
    | nil => exact fun front _ => (List.append_nil front).symm
    | cons m ms ih =>
      intro front hnd
      have hnew : ¬(front.any fun m' => m'.1 = m.1) = true := by
        simp only [List.any_eq_true, decide_eq_true_eq, not_exists, not_and]
        intro m' hmem heq
        rw [List.map_append, List.map_cons] at hnd
        exact (List.nodup_append.mp hnd).2.2 _ (List.mem_map_of_mem hmem) _ List.mem_cons_self heq
      have hput : put front m = front ++ [m] := if_neg hnew
      rw [List.foldl_cons, hput, ih]
      · rw [List.append_assoc]
        rfl
      · rwa [List.append_assoc]
  exact hfold members [] h

/-- A value is read back, in front of anything that ends it. -/
def Reads (v : Json) : Prop :=
  ∀ n r, (render v).length ≤ n → Ends r → value n (render v ++ r) = some (v, r)

theorem reads_int (i : Int) : Reads (.int i) := by
  intro n r hn hr
  rcases renderInt_cons i with ⟨c, s, heq, hc⟩
  rcases begins_of_number hc with ⟨-, hquote, hbracket, hbrace, hnull, htrue, hfalse⟩
  have hread := scanInt_renderInt i hr
  change (renderInt i).length ≤ n at hn
  change value n (renderInt i ++ r) = _
  rw [heq] at hn hread ⊢
  rcases n with _ | n
  · simp at hn
  rw [List.cons_append] at hread ⊢
  simp only [value, if_neg hquote, if_neg hbracket, if_neg hbrace, hread]
  have hnone : ∀ (a : Char) (name : List Char) (v : Json), a ≠ c →
      literal (a :: name) v (c :: (s ++ r)) = none :=
    fun a name v h => literal_cons_ne h name v _
  change ((literal ('n' :: "ull".toList) _ _).or (literal ('t' :: "rue".toList) _ _)).or
    ((literal ('f' :: "alse".toList) _ _).or _) = _
  rw [hnone 'n' _ _ hnull.symm, hnone 't' _ _ htrue.symm, hnone 'f' _ _ hfalse.symm]
  rfl

theorem reads_str (s : String) : Reads (.str s) := by
  intro n r hn _
  rcases n with _ | n
  · simp [render, quote] at hn
  · change value (n + 1) ('"' :: (s.toList.flatMap escape ++ ['"']) ++ r) = _
    rw [List.cons_append, List.append_assoc]
    simp only [List.cons_append, List.nil_append, value, if_true, scanString_quote, Option.map_some,
      String.ofList_toList]

theorem reads_literal : Reads .null ∧ ∀ b, Reads (.bool b) := by
  refine ⟨?_, ?_⟩
  · intro n r hn _
    rcases n with _ | n
    · exact absurd hn (by decide)
    change value (n + 1) ('n' :: ("ull".toList ++ r)) = _
    have hread := literal_append "null".toList .null r
    change literal "null".toList .null ('n' :: ("ull".toList ++ r)) = _ at hread
    simp only [value, hread, show ('n' : Char) ≠ '"' by decide, show ('n' : Char) ≠ '[' by decide,
      show ('n' : Char) ≠ '\x7b' by decide, if_false, Option.some_or]
  · intro b n r hn _
    rcases n with _ | n
    · cases b with
      | true | false => exact absurd hn (by decide)
    cases b with
    | true =>
      change value (n + 1) ('t' :: ("rue".toList ++ r)) = _
      have hread := literal_append "true".toList (.bool true) r
      change literal "true".toList (.bool true) ('t' :: ("rue".toList ++ r)) = _ at hread
      have hnull : literal "null".toList .null ('t' :: ("rue".toList ++ r)) = none :=
        literal_cons_ne (by decide) "ull".toList _ _
      simp only [value, hnull, hread, show ('t' : Char) ≠ '"' by decide,
        show ('t' : Char) ≠ '[' by decide, show ('t' : Char) ≠ '\x7b' by decide, if_false,
        Option.none_or, Option.some_or]
    | false =>
      change value (n + 1) ('f' :: ("alse".toList ++ r)) = _
      have hread := literal_append "false".toList (.bool false) r
      change literal "false".toList (.bool false) ('f' :: ("alse".toList ++ r)) = _ at hread
      have hnull : literal "null".toList .null ('f' :: ("alse".toList ++ r)) = none :=
        literal_cons_ne (by decide) "ull".toList _ _
      have htrue : literal "true".toList (.bool true) ('f' :: ("alse".toList ++ r)) = none :=
        literal_cons_ne (by decide) "rue".toList _ _
      simp only [value, hnull, htrue, hread, show ('f' : Char) ≠ '"' by decide,
        show ('f' : Char) ≠ '[' by decide, show ('f' : Char) ≠ '\x7b' by decide, if_false,
        Option.none_or, Option.some_or]

mutual

theorem value_render : (v : Json) → WellFormed v → Reads v
  | .null, _ => reads_literal.1
  | .bool b, _ => reads_literal.2 b
  | .int i, _ => reads_int i
  | .str s, _ => reads_str s
  | .arr [], _ => by
      intro n r hn _
      rcases n with _ | n
      · exact absurd hn (by decide)
      · rfl
  | .arr (v :: vs), h => by
      intro n r hn _
      rcases n with _ | n
      · simp [render] at hn
      have hitem := items_render vs h.2 v (value_render v h.1) n r (by
        rw [render, List.length_cons] at hn
        omega)
      rcases render_cons v with ⟨c, t, heq, hbegins⟩
      -- No value begins with the bracket that would end the list.
      have hopen : ¬(skipSpace (render v ++ (renderItems vs ++ r))).head? = some ']' := by
        rw [skipSpace_render, heq, List.cons_append, List.head?_cons, Option.some.injEq]
        exact hbegins.2.1
      rw [render, List.cons_append, List.append_assoc]
      simp only [value, show ('[' : Char) ≠ '"' by decide, if_false, if_true, if_neg hopen]
      rw [skipSpace_render, hitem]
      rfl
  | .obj [], _ => by
      intro n r hn _
      rcases n with _ | n
      · exact absurd hn (by decide)
      · rfl
  | .obj ((k, v) :: ms), h => by
      intro n r hn _
      rcases n with _ | n
      · simp [render] at hn
      have hmembers := members_render ms h.2.2 k v (value_render v h.2.1) n r (by
        rw [render, List.length_cons] at hn
        omega)
      have hskip : skipSpace (quote k ++ ':' :: (render v ++ (renderMembers ms ++ r))) =
          quote k ++ ':' :: (render v ++ (renderMembers ms ++ r)) :=
        skipSpace_cons (by decide) _
      have hopen : ¬(skipSpace (quote k ++ ':' :: (render v ++ (renderMembers ms ++ r)))).head? =
          some '\x7d' := by
        rw [hskip]
        change ¬some '"' = some '\x7d'
        decide
      have hpair : ofPairs ((k, v) :: ms) = (k, v) :: ms := ofPairs_of_nodup h.1
      rw [render, List.cons_append, List.append_assoc, List.cons_append, List.append_assoc]
      simp only [value, show ('\x7b' : Char) ≠ '"' by decide, show ('\x7b' : Char) ≠ '[' by decide,
        if_false, if_true, if_neg hopen]
      rw [hskip, hmembers, Option.map_some, hpair]

theorem items_render : (vs : List Json) → WellFormedItems vs → ∀ v, Reads v → ∀ n r,
    (render v ++ renderItems vs).length ≤ n →
      items n (render v ++ (renderItems vs ++ r)) = some (v :: vs, r)
  | vs, h, v, hread, n, r, hn => by
      have hpos := render_length_pos v
      rw [List.length_append] at hn
      rcases n with _ | n
      · omega
      have hends : Ends (renderItems vs ++ r) := by
        rcases renderItems_cons vs with ⟨c, s, heq, hgoes⟩
        rw [heq]
        exact ends_cons hgoes
      cases vs with
      | nil =>
        have hlen : (render v).length ≤ n := by
          rw [renderItems, List.length_singleton] at hn
          omega
        simp only [items, hread n _ hlen hends, bind, Option.bind]
        rfl
      | cons v' vs' =>
        rw [renderItems, List.length_cons] at hn
        have hlen : (render v).length ≤ n := by omega
        have hrest := items_render vs' h.2 v' (value_render v' h.1) n r (by omega)
        simp only [items, hread n _ hlen hends, bind, Option.bind]
        rw [renderItems, List.cons_append, skipSpace_cons (by decide), List.append_assoc]
        simp only [show (',' : Char) ≠ ']' by decide, if_false, if_true]
        rw [skipSpace_render, hrest]

theorem members_render : (ms : List (String × Json)) → WellFormedMembers ms → ∀ k v, Reads v →
    ∀ n r, (quote k ++ ':' :: (render v ++ renderMembers ms)).length ≤ n →
      members n (quote k ++ ':' :: (render v ++ (renderMembers ms ++ r))) = some ((k, v) :: ms, r)
  | ms, h, k, v, hread, n, r, hn => by
      have hpos := render_length_pos v
      rw [List.length_append, List.length_cons, List.length_append] at hn
      rcases n with _ | n
      · omega
      have hends : Ends (renderMembers ms ++ r) := by
        rcases renderMembers_cons ms with ⟨c, s, heq, hgoes⟩
        rw [heq]
        exact ends_cons hgoes
      have hkey := scanString_quote k (':' :: (render v ++ (renderMembers ms ++ r)))
      rw [quote, List.cons_append, List.append_assoc, List.singleton_append]
      simp only [members, if_true, hkey, bind, Option.bind]
      rw [skipSpace_cons (by decide)]
      simp only [if_true, skipSpace_render]
      cases ms with
      | nil =>
        have hlen : (render v).length ≤ n := by
          omega
        rw [hread n _ hlen hends, String.ofList_toList]
        rfl
      | cons m ms' =>
        rcases m with ⟨k', v'⟩
        rw [renderMembers, List.length_cons] at hn
        have hlen : (render v).length ≤ n := by omega
        have hrest := members_render ms' h.2 k' v' (value_render v' h.1) n r (by omega)
        have hquote : ∀ s, skipSpace (quote k' ++ s) = quote k' ++ s :=
          fun s => skipSpace_cons (by decide) _
        rw [hread n _ hlen hends]
        simp only [renderMembers, List.cons_append, List.append_assoc]
        rw [skipSpace_cons (by decide)]
        simp only [show (',' : Char) ≠ '\x7d' by decide, if_false, if_true, hquote, hrest,
          String.ofList_toList]

end

/-- What is written is read back, with blanks after it or none. -/
theorem loads_render {v : Json} (h : WellFormed v) (hr : skipSpace r = []) :
    loads (render v ++ r) = some v := by
  have hends : Ends r := by
    cases r with
    | nil => exact ends_nil
    | cons c r =>
      refine ends_cons ?_
      by_cases hspace : isSpace c = true
      · simp only [isSpace, Bool.or_eq_true, decide_eq_true_eq] at hspace
        rcases hspace with ((rfl | rfl) | rfl) | rfl
        all_goals decide
      · rw [skipSpace_cons (by simpa using hspace)] at hr
        exact nomatch hr
  have hlen : (render v).length ≤ (render v ++ r).length + 1 := by
    rw [List.length_append]
    omega
  rw [loads, skipSpace_render, value_render v h _ r hlen hends]
  exact if_pos hr

theorem render_injective {v w : Json} (hv : WellFormed v) (hw : WellFormed w)
    (h : render v = render w) : v = w := by
  have hread := loads_render hv (r := []) rfl
  rw [h, loads_render hw rfl] at hread
  exact (Option.some.inj hread).symm

/-! ### Keys in order -/

def byKey (members : List (String × Json)) : List (String × Json) :=
  members.insertionSort fun a b => a.1 ≤ b.1

mutual

/-- What `sort_keys=True` makes of a value. -/
def sortKeys : Json → Json
  | .null => .null
  | .bool b => .bool b
  | .int n => .int n
  | .str s => .str s
  | .arr items => .arr (sortItems items)
  | .obj members => .obj (byKey (sortMembers members))

def sortItems : List Json → List Json
  | [] => []
  | v :: vs => sortKeys v :: sortItems vs

def sortMembers : List (String × Json) → List (String × Json)
  | [] => []
  | (k, v) :: ms => (k, sortKeys v) :: sortMembers ms

end

/-- `a == b`: the order of the members of an object is of no account. -/
def Same (v w : Json) : Prop := sortKeys v = sortKeys w

section Order

instance : Std.Total fun a b : String × Json => a.1 ≤ b.1 := ⟨fun a b => le_total a.1 b.1⟩

instance : IsTrans (String × Json) fun a b => a.1 ≤ b.1 := ⟨fun _ _ _ h h' => le_trans h h'⟩

theorem pairwise_byKey : (byKey ms).Pairwise fun a b => a.1 ≤ b.1 :=
  List.pairwise_insertionSort _ ms

theorem perm_byKey : (byKey ms).Perm ms :=
  List.perm_insertionSort _ ms

end Order

theorem sortMembers_eq_map : sortMembers ms = ms.map fun m => (m.1, sortKeys m.2) := by
  induction ms with
  | nil => rfl
  | cons m ms ih => rw [sortMembers, ih, List.map_cons]

theorem wellFormedMembers_iff : WellFormedMembers ms ↔ ∀ m ∈ ms, WellFormed m.2 := by
  induction ms with
  | nil => simp [WellFormedMembers]
  | cons m ms ih => simp [WellFormedMembers, ih]

theorem keys_sortMembers : (sortMembers ms).map Prod.fst = ms.map Prod.fst := by
  rw [sortMembers_eq_map, List.map_map]
  rfl

mutual

theorem wellFormed_sortKeys : (v : Json) → WellFormed v → WellFormed (sortKeys v)
  | .null, h | .bool _, h | .int _, h | .str _, h => h
  | .arr items, h => wellFormed_sortItems items h
  | .obj members, h => by
      refine ⟨?_, ?_⟩
      · have hperm := (perm_byKey (sortMembers members)).map Prod.fst
        rw [keys_sortMembers] at hperm
        exact hperm.nodup_iff.mpr h.1
      · have hall := (wellFormedMembers_iff _).mp (wellFormed_sortMembers members h.2)
        exact (wellFormedMembers_iff _).mpr fun m hm => hall m ((perm_byKey _).subset hm)

theorem wellFormed_sortItems :
    (vs : List Json) → WellFormedItems vs → WellFormedItems (sortItems vs)
  | [], h => h
  | v :: vs, h => ⟨wellFormed_sortKeys v h.1, wellFormed_sortItems vs h.2⟩

theorem wellFormed_sortMembers : (ms : List (String × Json)) → WellFormedMembers ms →
    WellFormedMembers (sortMembers ms)
  | [], h => h
  | (_, v) :: ms, h => ⟨wellFormed_sortKeys v h.1, wellFormed_sortMembers ms h.2⟩

end

mutual

/-- What is in order stays as it is. -/
theorem sortKeys_sortKeys : (v : Json) → sortKeys (sortKeys v) = sortKeys v
  | .null | .bool _ | .int _ | .str _ => rfl
  | .arr items => by rw [sortKeys, sortKeys, sortItems_sortItems items]
  | .obj members => by
      have hmap : sortMembers (byKey (sortMembers members)) = byKey (sortMembers members) := by
        rw [sortMembers_eq_map]
        refine (List.map_congr_left fun m hm => ?_).trans (List.map_id _)
        exact Prod.ext rfl (sortMembers_sortMembers members m ((perm_byKey _).subset hm))
      rw [sortKeys, sortKeys, hmap]
      exact congrArg Json.obj (List.Pairwise.insertionSort_eq (pairwise_byKey _))

theorem sortItems_sortItems : (vs : List Json) → sortItems (sortItems vs) = sortItems vs
  | [] => rfl
  | v :: vs => by
      simp only [sortItems, sortKeys_sortKeys v, sortItems_sortItems vs]

theorem sortMembers_sortMembers : (ms : List (String × Json)) → ∀ m ∈ sortMembers ms,
    sortKeys m.2 = m.2
  | [], m, hm => nomatch hm
  | (k, v) :: ms, m, hm => by
      rw [sortMembers] at hm
      rcases List.mem_cons.mp hm with rfl | hm
      · exact sortKeys_sortKeys v
      · exact sortMembers_sortMembers ms m hm

end

end JsonText
