import Mathlib.Data.List.DropRight
import Mathlib.Data.List.Infix

/-!
# Texts that stand for bytes

Three ways of writing bytes as characters, as far as they are read: hexadecimal
in either case, base32 in upper case with its padding, and text in which some
bytes are escaped with a percent sign. What is read from the last is decoded as
UTF-8, where every sequence of bytes that is no character, taken as long as it
could still have become one, is replaced by U+FFFD.

Base32 has five bits to a digit. The digits are read as one row of bits, of
which the bytes are the first so many groups of eight, so that what is left over
by a padded end falls away.

## Theorems

* `hex_of_unhex`: What is read from hexadecimal is written as its lower case.
* `unhex_hex`: What is written is read back.
* `unquoteToBytes_append`: A separator comes between the bytes on its two sides.
* `unquoteToBytes_eq_cons`, `mem_unquoteToBytes`: Where an ASCII byte comes from.
-/

namespace TextCodec

abbrev Text := List Char
abbrev Bytes := List UInt8

variable (s : Text) (bytes : Bytes) (c : Char)

/-- A character below U+0080. -/
def isAscii : Bool := c.toNat < 128

/-! ### Blanks and decimal digits -/

/-- `str.isspace` of a character. -/
def isSpace : Bool :=
  let n := c.toNat
  (0x09 ≤ n && n ≤ 0x0D) || (0x1C ≤ n && n ≤ 0x20) || n = 0x85 || n = 0xA0 || n = 0x1680 ||
    (0x2000 ≤ n && n ≤ 0x200A) || n = 0x2028 || n = 0x2029 || n = 0x202F || n = 0x205F ||
    n = 0x3000

def strip : Text := (s.dropWhile isSpace).rdropWhile isSpace

/-- The zeros of the scripts. Nine digits follow on each. -/
def zeros : List Nat :=
  [0x30, 0x660, 0x6F0, 0x7C0, 0x966, 0x9E6, 0xA66, 0xAE6, 0xB66, 0xBE6, 0xC66, 0xCE6, 0xD66,
   0xDE6, 0xE50, 0xED0, 0xF20, 0x1040, 0x1090, 0x17E0, 0x1810, 0x1946, 0x19D0, 0x1A80,
   0x1A90, 0x1B50, 0x1BB0, 0x1C40, 0x1C50, 0xA620, 0xA8D0, 0xA900, 0xA9D0, 0xA9F0, 0xAA50,
   0xABF0, 0xFF10, 0x104A0, 0x10D30, 0x11066, 0x110F0, 0x11136, 0x111D0, 0x112F0, 0x11450,
   0x114D0, 0x11650, 0x116C0, 0x11730, 0x118E0, 0x11950, 0x11C50, 0x11D50, 0x11DA0, 0x11F50,
   0x16A60, 0x16AC0, 0x16B50, 0x1D7CE, 0x1D7D8, 0x1D7E2, 0x1D7EC, 0x1D7F6, 0x1E140, 0x1E2F0,
   0x1E4F0, 0x1E950, 0x1FBF0]

def decimalDigit : Option Nat :=
  (zeros.find? fun z => z ≤ c.toNat && c.toNat < z + 10).map (c.toNat - ·)

/-- The number a row of decimal digits stands for. -/
def decimal : Option Nat :=
  if s.isEmpty then none
  else (s.mapM decimalDigit).map fun digits => digits.foldl (fun n d => 10 * n + d) 0

/-! ### Hexadecimal -/

def hexDigits : Text := "0123456789abcdef".toList

def hexDigit : Option Nat := hexDigits.idxOf? c.toLower

/-- The digit of a value. -/
def hexChar (n : Nat) : Char := hexDigits.getD n '0'

def hex : Text :=
  bytes.flatMap fun b => [hexChar (b.toNat / 16), hexChar (b.toNat % 16)]

/-- `bytes.fromhex` on text without blanks. -/
def unhex : Text → Option Bytes
  | [] => some []
  | [_] => none
  | high :: low :: rest =>
      match hexDigit high, hexDigit low, unhex rest with
      | some m, some n, some bytes => some (UInt8.ofNat (16 * m + n) :: bytes)
      | _, _, _ => none

variable {c : Char} {n : Nat} {b : UInt8}

theorem hexDigit_lt (h : hexDigit c = some n) : n < 16 :=
  (List.idxOf?_eq_some_iff.mp h).1

theorem hexChar_of_hexDigit (h : hexDigit c = some n) : hexChar n = c.toLower := by
  rcases List.idxOf?_eq_some_iff.mp h with ⟨hn, hget, -⟩
  rw [hexChar, List.getD_eq_getElem?_getD, List.getElem?_eq_getElem hn, hget, Option.getD_some]

theorem hexDigit_hexChar : ∀ n < 16, hexDigit (hexChar n) = some n := by decide

theorem hex_cons (b : UInt8) (bytes : Bytes) :
    hex (b :: bytes) = hexChar (b.toNat / 16) :: hexChar (b.toNat % 16) :: hex bytes := rfl

theorem length_hex : (hex bytes).length = 2 * bytes.length := by
  induction bytes with
  | nil => rfl
  | cons b bytes ih =>
    rw [hex_cons, List.length_cons, List.length_cons, List.length_cons, ih]
    omega

/-- The inversion of one step of the reader. -/
theorem unhex_cons_cons {high low : Char} {rest : Text} {bytes : Bytes}
    (h : unhex (high :: low :: rest) = some bytes) :
    ∃ m n more, hexDigit high = some m ∧ hexDigit low = some n ∧ unhex rest = some more ∧
      bytes = UInt8.ofNat (16 * m + n) :: more := by
  rw [unhex] at h
  split at h
  · rename_i m n more hhigh hlow hrest
    exact ⟨m, n, more, hhigh, hlow, hrest, (Option.some.inj h).symm⟩
  · exact nomatch h

theorem hex_of_unhex : ∀ (s : Text) (bytes : Bytes), unhex s = some bytes →
    hex bytes = s.map Char.toLower
  | [], bytes, h => by
      cases h
      rfl
  | [_], _, h => nomatch h
  | high :: low :: rest, bytes, h => by
      rcases unhex_cons_cons h with ⟨m, n, more, hhigh, hlow, hrest, rfl⟩
      have hm := hexDigit_lt hhigh
      have hn := hexDigit_lt hlow
      have hbyte : (UInt8.ofNat (16 * m + n)).toNat = 16 * m + n := by
        rw [UInt8.toNat_ofNat']
        omega
      rw [hex_cons, hbyte, hex_of_unhex rest more hrest, show (16 * m + n) / 16 = m by omega,
        show (16 * m + n) % 16 = n by omega, hexChar_of_hexDigit hhigh, hexChar_of_hexDigit hlow]
      rfl

theorem length_of_unhex (h : unhex s = some bytes) : s.length = 2 * bytes.length := by
  rw [← length_hex, hex_of_unhex s bytes h, List.length_map]

theorem hexDigit_of_unhex : ∀ (s : Text) (bytes : Bytes), unhex s = some bytes →
    ∀ c ∈ s, (hexDigit c).isSome = true
  | [], _, _ => by simp
  | [_], _, h => nomatch h
  | high :: low :: rest, bytes, h => by
      rcases unhex_cons_cons h with ⟨m, n, more, hhigh, hlow, hrest, -⟩
      intro c hc
      rcases List.mem_cons.mp hc with rfl | hc
      · rw [hhigh, Option.isSome_some]
      · rcases List.mem_cons.mp hc with rfl | hc
        · rw [hlow, Option.isSome_some]
        · exact hexDigit_of_unhex rest more hrest c hc

theorem unhex_hex : unhex (hex bytes) = some bytes := by
  induction bytes with
  | nil => rfl
  | cons b bytes ih =>
    have hb := UInt8.toNat_lt b
    rw [hex_cons, unhex, hexDigit_hexChar _ (by omega), hexDigit_hexChar _ (by omega), ih]
    dsimp only
    rw [Nat.div_add_mod, UInt8.ofNat_toNat]

theorem unhex_isSome : ∀ s : Text, s.length % 2 = 0 →
    (∀ c ∈ s, (hexDigit c).isSome = true) → ∃ bytes, unhex s = some bytes
  | [], _, _ => ⟨[], rfl⟩
  | [_], heven, _ => absurd heven nofun
  | high :: low :: rest, heven, hdig => by
      rcases unhex_isSome rest (by simp only [List.length_cons] at heven; omega)
        fun c hc => hdig c (List.mem_cons_of_mem _ (List.mem_cons_of_mem _ hc)) with ⟨more, hmore⟩
      rcases Option.isSome_iff_exists.mp (hdig high List.mem_cons_self) with ⟨m, hm⟩
      rcases Option.isSome_iff_exists.mp
        (hdig low (List.mem_cons_of_mem _ List.mem_cons_self)) with ⟨n, hn⟩
      exact ⟨_, by rw [unhex, hm, hn, hmore]⟩

/-! ### Base32 -/

def b32Digits : Text := "ABCDEFGHIJKLMNOPQRSTUVWXYZ234567".toList

def b32Bits (c : Char) : Option (List Bool) :=
  (b32Digits.idxOf? c).map fun n => [n.testBit 4, n.testBit 3, n.testBit 2, n.testBit 1,
    n.testBit 0]

def bytesOfBits : List Bool → Bytes
  | a :: b :: c :: d :: e :: f :: g :: h :: rest =>
      UInt8.ofNat ([a, b, c, d, e, f, g, h].foldl (fun n bit => 2 * n + bit.toNat) 0) ::
        bytesOfBits rest
  | _ => []

/-- `base64.b32decode`, with nothing where it raises. -/
def b32decode : Option Bytes :=
  if s.length % 8 ≠ 0 then none
  else
    let digits := s.rdropWhile (· = '=')
    if s.length - digits.length ∉ [0, 1, 3, 4, 6] then none
    else (digits.mapM b32Bits).map fun bits => bytesOfBits bits.flatten

theorem length_bytesOfBits (bits : List Bool) : (bytesOfBits bits).length = bits.length / 8 := by
  induction bits using bytesOfBits.induct with
  | case1 a b c d e f g h rest ih =>
    rw [bytesOfBits, List.length_cons, ih]
    simp only [List.length_cons]
    omega
  | case2 bits hshort =>
    have hlt : bits.length < 8 := by
      match bits, hshort with
      | [], _ | [_], _ | [_, _], _ | [_, _, _], _ | [_, _, _, _], _ | [_, _, _, _, _], _
      | [_, _, _, _, _, _], _ | [_, _, _, _, _, _, _], _ => simp
      | a :: b :: c :: d :: e :: f :: g :: h :: rest, hshort =>
        exact absurd rfl (hshort a b c d e f g h rest)
    rw [bytesOfBits.eq_2 bits hshort, List.length_nil]
    omega

theorem length_b32Bits (digits : Text) (bits : List (List Bool))
    (h : digits.mapM b32Bits = some bits) : bits.flatten.length = 5 * digits.length := by
  induction digits generalizing bits with
  | nil =>
    cases h
    rfl
  | cons c digits ih =>
    rw [List.mapM_cons, Option.bind_eq_bind, Option.bind_eq_some_iff] at h
    rcases h with ⟨row, hrow, hrest⟩
    rw [Option.bind_eq_bind, Option.bind_eq_some_iff] at hrest
    rcases hrest with ⟨more, hmore, heq⟩
    have hfive : row.length = 5 := by
      rcases Option.map_eq_some_iff.mp hrow with ⟨n, -, rfl⟩
      rfl
    rw [← Option.some.inj heq, List.flatten_cons, List.length_append, ih more hmore, hfive,
      List.length_cons]
    omega

/-- What is decoded has the bytes of all whole digits but the padding. -/
theorem length_b32decode (h : b32decode s = some bytes) :
    s.length % 8 = 0 ∧ ∃ padding ≤ 6, bytes.length = 5 * (s.length - padding) / 8 := by
  unfold b32decode at h
  split at h
  · exact nomatch h
  rename_i height
  dsimp only at h
  split at h
  · exact nomatch h
  rename_i hpadding
  rcases Option.map_eq_some_iff.mp h with ⟨bits, hbits, rfl⟩
  have hle := (List.rdropWhile_prefix (fun c => decide (c = '=')) (l := s)).length_le
  refine ⟨by omega, s.length - (s.rdropWhile (· = '=')).length, ?_, ?_⟩
  · simp only [List.mem_cons, List.not_mem_nil, or_false, not_not] at hpadding
    omega
  · rw [length_bytesOfBits, length_b32Bits _ _ hbits]
    omega

/-! ### Percent-encoding -/

/-- Text as the bytes that were escaped in it and the characters that were not. -/
def tokens : Text → List (UInt8 ⊕ Char)
  | '%' :: high :: low :: rest =>
      match hexDigit high, hexDigit low with
      | some m, some n => .inl (UInt8.ofNat (16 * m + n)) :: tokens rest
      | _, _ => .inr '%' :: tokens (high :: low :: rest)
  | c :: rest => .inr c :: tokens rest
  | [] => []

def unquoteToBytes : Bytes :=
  (tokens s).flatMap fun
    | .inl b => [b]
    | .inr c => String.utf8EncodeChar c

-- Only an ASCII character has an ASCII byte, and no other.
theorem utf8EncodeChar_of_ascii (h : b ∈ String.utf8EncodeChar c)
    (hb : b.toNat < 128) : c.toNat = b.toNat ∧ String.utf8EncodeChar c = [b] := by
  have hv : c.toNat = c.val.toNat := rfl
  unfold String.utf8EncodeChar at h ⊢
  dsimp only at h ⊢
  split at h
  · rename_i hle
    rw [if_pos hle]
    obtain rfl := List.mem_singleton.mp h
    rw [UInt8.toNat_ofNat'] at hb ⊢
    exact ⟨by omega, rfl⟩
  · exfalso
    split at h
    · simp only [List.mem_cons, List.not_mem_nil, or_false] at h
      rcases h with rfl | rfl
      · rw [UInt8.toNat_ofNat'] at hb; omega
      · rw [UInt8.toNat_ofNat'] at hb; omega
    split at h
    · simp only [List.mem_cons, List.not_mem_nil, or_false] at h
      rcases h with rfl | rfl | rfl
      · rw [UInt8.toNat_ofNat'] at hb; omega
      · rw [UInt8.toNat_ofNat'] at hb; omega
      · rw [UInt8.toNat_ofNat'] at hb; omega
    · simp only [List.mem_cons, List.not_mem_nil, or_false] at h
      rcases h with rfl | rfl | rfl | rfl
      · rw [UInt8.toNat_ofNat'] at hb; omega
      · rw [UInt8.toNat_ofNat'] at hb; omega
      · rw [UInt8.toNat_ofNat'] at hb; omega
      · rw [UInt8.toNat_ofNat'] at hb; omega

theorem tokens_cons_of_ne (h : c ≠ '%') (rest : Text) :
    tokens (c :: rest) = .inr c :: tokens rest := by
  rw [tokens.eq_2]
  rintro high low rest' rfl
  exact absurd rfl h

theorem tokens_percent (rest : Text) :
    (∃ high low m n rest', rest = high :: low :: rest' ∧ hexDigit high = some m ∧
      hexDigit low = some n ∧
      tokens ('%' :: rest) = .inl (UInt8.ofNat (16 * m + n)) :: tokens rest') ∨
    tokens ('%' :: rest) = .inr '%' :: tokens rest := by
  match rest with
  | [] | [_] => exact .inr rfl
  | high :: low :: rest' =>
    cases hhigh : hexDigit high with
    | none => exact .inr (by rw [tokens, hhigh])
    | some m =>
      cases hlow : hexDigit low with
      | none => exact .inr (by rw [tokens, hhigh, hlow])
      | some n =>
        exact .inl ⟨high, low, m, n, rest', rfl, hhigh, hlow, by rw [tokens, hhigh, hlow]⟩

-- Neither a percent sign nor a digit takes part in an escape of what stands
-- before it.
theorem tokens_append (hc : hexDigit c = none) (hne : c ≠ '%') (s t : Text) :
    tokens (s ++ c :: t) = tokens s ++ .inr c :: tokens t := by
  induction hn : s.length using Nat.strong_induction_on generalizing s with
  | _ n ih =>
    match s, hn with
    | [], _ => exact tokens_cons_of_ne hne t
    | d :: rest, hn =>
      rw [List.length_cons] at hn
      by_cases hd : d = '%'
      · subst hd
        match rest, hn with
        | [], _ =>
          rcases tokens_percent (c :: t) with ⟨_, _, _, _, _, heq, hdig, -⟩ | h
          · injection heq with heq
            rw [heq, hdig] at hc
            exact nomatch hc
          · rw [List.cons_append, List.nil_append, h, tokens_cons_of_ne hne]
            rfl
        | [e], hn =>
          have hrest : tokens (e :: c :: t) = tokens [e] ++ .inr c :: tokens t :=
            ih 1 (by rw [List.length_singleton] at hn; omega) [e] rfl
          rcases tokens_percent (e :: c :: t) with ⟨_, _, _, _, _, heq, -, hdig, -⟩ | h
          · injection heq with _ heq
            injection heq with heq
            rw [heq, hdig] at hc
            exact nomatch hc
          · rw [List.cons_append, List.singleton_append, h, hrest]
            rfl
        | high :: low :: rest', hn =>
          rw [List.length_cons, List.length_cons] at hn
          have hrest := ih rest'.length (by omega) rest' rfl
          have hall := ih (rest'.length + 2) (by omega) (high :: low :: rest') rfl
          -- Two digits go with the percent sign, and otherwise it stands for itself.
          cases hhigh : hexDigit high with
          | none =>
            rw [List.cons_append, tokens.eq_def, tokens.eq_def ('%' :: _)]
            simp only [List.cons_append, hhigh] at hall ⊢
            rw [hall]
          | some m =>
            cases hlow : hexDigit low with
            | none =>
              rw [List.cons_append, tokens.eq_def, tokens.eq_def ('%' :: _)]
              simp only [List.cons_append, hhigh, hlow] at hall ⊢
              rw [hall]
            | some n =>
              rw [List.cons_append, tokens.eq_def, tokens.eq_def ('%' :: _)]
              simp only [List.cons_append, hhigh, hlow]
              rw [hrest]
      · rw [List.cons_append, tokens_cons_of_ne hd, tokens_cons_of_ne hd,
          ih rest.length (by omega) rest rfl, List.cons_append]

theorem unquoteToBytes_append (hc : hexDigit c = none) (hne : c ≠ '%') (s t : Text) :
    unquoteToBytes (s ++ c :: t) =
      unquoteToBytes s ++ (String.utf8EncodeChar c ++ unquoteToBytes t) := by
  rw [unquoteToBytes, tokens_append hc hne, List.flatMap_append, List.flatMap_cons]
  rfl

/-- The first byte is that of an escape, or belongs to the first character. -/
theorem unquoteToBytes_cons (c : Char) (rest : Text) :
    (∃ high low m n rest', c = '%' ∧ rest = high :: low :: rest' ∧ hexDigit high = some m ∧
      hexDigit low = some n ∧
      unquoteToBytes (c :: rest) = UInt8.ofNat (16 * m + n) :: unquoteToBytes rest') ∨
    unquoteToBytes (c :: rest) = String.utf8EncodeChar c ++ unquoteToBytes rest := by
  by_cases hc : c = '%'
  · subst hc
    rcases tokens_percent rest with ⟨high, low, m, n, rest', heq, hhigh, hlow, h⟩ | h
    · refine .inl ⟨high, low, m, n, rest', rfl, heq, hhigh, hlow, ?_⟩
      rw [unquoteToBytes, h]
      rfl
    · right
      rw [unquoteToBytes, h]
      rfl
  · right
    rw [unquoteToBytes, tokens_cons_of_ne hc]
    rfl

theorem toNat_of_hexDigits {high low : Char} {m : Nat} (hhigh : hexDigit high = some m)
    (hlow : hexDigit low = some n) : (UInt8.ofNat (16 * m + n)).toNat = 16 * m + n := by
  have hm := hexDigit_lt hhigh
  have hn := hexDigit_lt hlow
  rw [UInt8.toNat_ofNat']
  omega

theorem unquoteToBytes_eq_nil {s : Text} (h : unquoteToBytes s = []) : s = [] := by
  cases s with
  | nil => rfl
  | cons c rest =>
    rcases unquoteToBytes_cons c rest with ⟨_, _, _, _, _, -, -, -, -, hcons⟩ | hcons
    · rw [hcons] at h
      exact nomatch h
    · rw [hcons, List.append_eq_nil_iff] at h
      exact absurd h.1 String.utf8EncodeChar_ne_nil

/-- Where an ASCII byte comes first, its character does, or its escape. -/
theorem unquoteToBytes_eq_cons {s : Text} {bytes : Bytes} (hb : b.toNat < 128)
    (h : unquoteToBytes s = b :: bytes) :
    (∃ c rest, s = c :: rest ∧ c.toNat = b.toNat ∧ unquoteToBytes rest = bytes) ∨
    ∃ high low rest, s = '%' :: high :: low :: rest ∧ hexDigit high = some (b.toNat / 16) ∧
      hexDigit low = some (b.toNat % 16) ∧ unquoteToBytes rest = bytes := by
  cases s with
  | nil => exact nomatch h
  | cons c rest =>
    rcases unquoteToBytes_cons c rest with
      ⟨high, low, m, n, rest', rfl, rfl, hhigh, hlow, hcons⟩ | hcons
    · rw [hcons] at h
      injection h with hbyte hrest
      have hval := toNat_of_hexDigits hhigh hlow
      have hn := hexDigit_lt hlow
      rw [hbyte] at hval
      refine .inr ⟨high, low, rest', rfl, ?_, ?_, hrest⟩
      · rw [hhigh]
        congr 1
        omega
      · rw [hlow]
        congr 1
        omega
    · rw [hcons] at h
      have hmem : b ∈ String.utf8EncodeChar c := by
        cases hchar : String.utf8EncodeChar c with
        | nil => exact absurd hchar String.utf8EncodeChar_ne_nil
        | cons first more =>
          rw [hchar, List.cons_append] at h
          injection h with hfst
          rw [hfst]
          exact List.mem_cons_self
      have hascii := utf8EncodeChar_of_ascii hmem hb
      rw [hascii.2, List.singleton_append] at h
      injection h with _ hrest
      exact .inl ⟨c, rest, rfl, hascii.1, hrest⟩

/-- Where an ASCII byte comes, its character or its escape does. -/
theorem mem_unquoteToBytes (hb : b.toNat < 128) (s : Text)
    (h : b ∈ unquoteToBytes s) : (∃ c ∈ s, c.toNat = b.toNat) ∨
      ∃ u high low v, s = u ++ '%' :: high :: low :: v ∧ hexDigit high = some (b.toNat / 16) ∧
        hexDigit low = some (b.toNat % 16) := by
  induction hn : s.length using Nat.strong_induction_on generalizing s with
  | _ n ih =>
    cases s with
    | nil => exact absurd h List.not_mem_nil
    | cons c rest =>
      rw [List.length_cons] at hn
      -- What is found in the rest is found in the whole.
      have hlift : ∀ front s', c :: rest = front ++ s' → s'.length < n →
          b ∈ unquoteToBytes s' → (∃ d ∈ c :: rest, d.toNat = b.toNat) ∨
          ∃ u high low v, c :: rest = u ++ '%' :: high :: low :: v ∧
            hexDigit high = some (b.toNat / 16) ∧ hexDigit low = some (b.toNat % 16) := by
        intro front s' heq hlt hmem
        rcases ih s'.length hlt s' hmem rfl with
          ⟨d, hd, hdb⟩ | ⟨u, high, low, v, rfl, hhigh, hlow⟩
        · exact .inl ⟨d, by rw [heq]; exact List.mem_append_right front hd, hdb⟩
        · exact .inr ⟨front ++ u, high, low, v, by rw [heq, List.append_assoc], hhigh, hlow⟩
      rcases unquoteToBytes_cons c rest with
        ⟨high, low, m, n', rest', rfl, rfl, hhigh, hlow, hcons⟩ | hcons
      · rw [hcons] at h
        rcases List.mem_cons.mp h with rfl | h
        · have hval := toNat_of_hexDigits hhigh hlow
          have hn' := hexDigit_lt hlow
          refine .inr ⟨[], high, low, rest', rfl, ?_, ?_⟩
          · rw [hhigh, hval]
            congr 1
            omega
          · rw [hlow, hval]
            congr 1
            omega
        · rw [List.length_cons, List.length_cons] at hn
          exact hlift ['%', high, low] rest' rfl (by omega) h
      · rw [hcons] at h
        rcases List.mem_append.mp h with h | h
        · exact .inl ⟨c, List.mem_cons_self, (utf8EncodeChar_of_ascii h hb).1⟩
        · exact hlift [c] rest rfl (by omega) h

/-- How far a character of several bytes has been read: what it comes to so far,
    how many bytes are to come, and between which bounds the next one is. -/
structure Utf8State where
  codePoint : Nat := 0
  toCome : Nat := 0
  lower : Nat := 0x80
  upper : Nat := 0xBF
  deriving DecidableEq, Repr

def replacement : Char := Char.ofNat 0xFFFD

/-- The first byte of a character. -/
def utf8Start (b : Nat) : Text × Utf8State :=
  if b < 0x80 then ([Char.ofNat b], {})
  else if 0xC2 ≤ b ∧ b ≤ 0xDF then ([], { codePoint := b - 0xC0, toCome := 1 })
  else if 0xE0 ≤ b ∧ b ≤ 0xEF then
    ([], { codePoint := b - 0xE0
           toCome := 2
           lower := if b = 0xE0 then 0xA0 else 0x80
           upper := if b = 0xED then 0x9F else 0xBF })
  else if 0xF0 ≤ b ∧ b ≤ 0xF4 then
    ([], { codePoint := b - 0xF0
           toCome := 3
           lower := if b = 0xF0 then 0x90 else 0x80
           upper := if b = 0xF4 then 0x8F else 0xBF })
  else ([replacement], {})

/-- One byte more. A byte that does not go on with a character begins another. -/
def utf8Next (state : Utf8State) (b : Nat) : Text × Utf8State :=
  if state.toCome = 0 then utf8Start b
  else if state.lower ≤ b ∧ b ≤ state.upper then
    let codePoint := 64 * state.codePoint + (b - 0x80)
    if state.toCome = 1 then ([Char.ofNat codePoint], {})
    else ([], { codePoint, toCome := state.toCome - 1 })
  else
    let (text, state) := utf8Start b
    (replacement :: text, state)

/-- What a character that breaks off leaves behind. -/
def Utf8State.broken (state : Utf8State) : Text :=
  if state.toCome = 0 then [] else [replacement]

/-- The characters of tokens. One that was not escaped and is not ASCII ends the
    bytes before it. -/
def decodeTokens (state : Utf8State) : List (UInt8 ⊕ Char) → Text
  | [] => state.broken
  | .inl b :: rest =>
      let (text, state) := utf8Next state b.toNat
      text ++ decodeTokens state rest
  | .inr c :: rest =>
      if isAscii c then
        let (text, state) := utf8Next state c.toNat
        text ++ decodeTokens state rest
      else state.broken ++ c :: decodeTokens {} rest

def unquote : Text := decodeTokens {} (tokens s)

example : unquote "caf%C3%A9 %E2%82 %zz".toList = ['c', 'a', 'f', 'é', ' ', replacement, ' ', '%',
    'z', 'z'] := by decide

end TextCodec
