import PlexManager.Core.TorrentSource

/-!
# What the client is handed can be found again

A value of a `btih` parameter denotes a hash in hexadecimal or in base32, in
either case. `normalizeBtih` accepts exactly the values that do once two letters
are read as ASCII ones: the dotless `ı` and the long `ſ`, whose upper case is
`I` and `S`.

Whatever is posted is the text that was to be handed over, or the body the walk
of a URL led to. A body has its hash or is refused. A text is posted as long as
its values agree, and they do if there are none.

## Theorems

* `add_trackable_iff`: When a call keeps the promise.
-/

namespace PlexManager

namespace TorrentSource

open Effects TextCodec Url

/-! ### Values -/

/-- A value denotes a hash, in hexadecimal or in base32. -/
def Denotes (value : Text) (digest : Digest) : Prop :=
  unhex value = some digest.toList ∨ b32decode (value.map Char.toUpper) = some digest.toList

/-- Not ASCII, with an upper case of one ASCII letter. -/
def isLookalike (c : Char) : Bool := c = 'ı' || c = 'ſ'

/-- The ASCII letter that has the same upper case. -/
def plain (c : Char) : Char := if c = 'ı' then 'i' else if c = 'ſ' then 's' else c

variable {value : Text} {c : Char} {α β ε : Type} {bytes : Bytes} {digest : Digest} {P : Op → Prop}
  {f : α → Except ε β} {xs : List α}

theorem plain_eq_self (h : isLookalike c = false) : plain c = c := by
  simp only [isLookalike, Bool.or_eq_false_iff, decide_eq_false_iff_not] at h
  rw [plain, if_neg h.1, if_neg h.2]

theorem map_plain_eq_self (h : value.any isLookalike = false) : value.map plain = value := by
  induction value with
  | nil => rfl
  | cons c value ih =>
    rw [List.any_cons, Bool.or_eq_false_iff] at h
    rw [List.map_cons, plain_eq_self h.1, ih h.2]

theorem lookalike_of_hexDigit
    (h : (hexDigit c).isSome = true ∨ (hexDigit (plain c)).isSome = true) :
    isLookalike c = false := by
  by_contra hc
  simp only [isLookalike, Bool.not_eq_false, Bool.or_eq_true, decide_eq_true_eq] at hc
  rcases hc with rfl | rfl
  · exact absurd h (by decide)
  · exact absurd h (by decide)

theorem lookalike_of_b32Bits (h : (b32Bits c.toUpper).isSome = true) : isLookalike c = false := by
  by_contra hc
  simp only [isLookalike, Bool.not_eq_false, Bool.or_eq_true, decide_eq_true_eq] at hc
  rcases hc with rfl | rfl
  · exact absurd h (by decide)
  · exact absurd h (by decide)

/-! ### Upper case -/

theorem length_upper (c : Char) : 1 ≤ (upper c).length := by
  unfold upper
  split <;> simp

-- A character that stays one character is upper-cased like its plain letter.
theorem upper_of_length (h : (upper c).length = 1) : upper c = [(plain c).toUpper] := by
  unfold upper at h ⊢
  split <;> first | exact absurd h (by decide) | rfl | skip
  rename_i hi hs _ _ _ _ _ _ _
  rw [plain, if_neg hi, if_neg hs]

theorem upper_of_b32Bits (h : (b32Bits (plain c).toUpper).isSome = true) :
    upper c = [(plain c).toUpper] := by
  apply upper_of_length
  unfold upper
  split <;> first | exact absurd h (by decide) | rfl

theorem length_flatMap_upper (value : Text) : value.length ≤ (value.flatMap upper).length := by
  induction value with
  | nil => exact Nat.le_refl 0
  | cons c value ih =>
    have hc := length_upper c
    rw [List.flatMap_cons, List.length_append, List.length_cons]
    omega

theorem flatMap_upper_of_length (h : (value.flatMap upper).length = value.length) :
    value.flatMap upper = (value.map plain).map Char.toUpper := by
  induction value with
  | nil => rfl
  | cons c value ih =>
    have hc := length_upper c
    have hrest := length_flatMap_upper value
    rw [List.flatMap_cons, List.length_append, List.length_cons] at h
    rw [List.flatMap_cons, upper_of_length (by omega), ih (by omega)]
    rfl

theorem flatMap_upper_of_b32Bits
    (h : ∀ c ∈ (value.map plain).map Char.toUpper, (b32Bits c).isSome = true) :
    value.flatMap upper = (value.map plain).map Char.toUpper := by
  induction value with
  | nil => rfl
  | cons c value ih =>
    simp only [List.map_cons, List.mem_cons, forall_eq_or_imp] at h
    rw [List.flatMap_cons, upper_of_b32Bits h.1, ih h.2]
    rfl

/-! ### What is accepted of a value -/

theorem isSome_of_mapM {f : α → Option β} {ys : List β}
    (h : xs.mapM f = some ys) : ∀ x ∈ xs, (f x).isSome = true := by
  induction xs generalizing ys with
  | nil => simp
  | cons x xs ih =>
    rw [List.mapM_cons, Option.bind_eq_bind, Option.bind_eq_some_iff] at h
    rcases h with ⟨y, hy, hrest⟩
    rw [Option.bind_eq_bind, Option.bind_eq_some_iff] at hrest
    rcases hrest with ⟨more, hmore, -⟩
    intro x' hx'
    rcases List.mem_cons.mp hx' with rfl | hx'
    · rw [hy, Option.isSome_some]
    · exact ih hmore x' hx'

theorem b32decode_twenty {s : Text} (h : b32decode s = some bytes)
    (hlength : bytes.length = 20) : s.length = 32 ∧ ∀ c ∈ s, (b32Bits c).isSome = true := by
  rcases length_b32decode s bytes h with ⟨height, padding, hpadding, hbyte⟩
  have hlen : s.length = 32 := by omega
  refine ⟨hlen, ?_⟩
  unfold b32decode at h
  split at h
  · exact nomatch h
  dsimp only at h
  split at h
  · exact nomatch h
  rename_i hmem
  rcases Option.map_eq_some_iff.mp h with ⟨bits, hbits, rfl⟩
  have hbef := List.rdropWhile_prefix (fun c => decide (c = '=')) (l := s)
  rw [length_bytesOfBits, length_b32Bits _ _ hbits] at hlength
  have hle := hbef.length_le
  rw [hbef.eq_of_length (by omega)] at hbits
  intro c hc
  exact isSome_of_mapM hbits c hc

theorem exists_digest (h : bytes.length = 20) : ∃ digest : Digest, digest.toList = bytes :=
  ⟨⟨bytes.toArray, by rwa [List.size_toArray]⟩, rfl⟩

theorem length_digest (digest : Digest) : digest.toList.length = 20 := digest.length_toList

theorem hex_injective {d d' : Digest} (h : d.hex = d'.hex) : d = d' := by
  have hbyte : some d.toList = some d'.toList := by
    rw [← unhex_hex d.toList, ← unhex_hex d'.toList]
    exact congrArg unhex h
  exact Vector.toList_inj.mp (Option.some.inj hbyte)

theorem toLower_hexChar : ∀ n < 16, (hexChar n).toLower = hexChar n := by decide

theorem toLower_hex (bytes : Bytes) : (hex bytes).map Char.toLower = hex bytes := by
  induction bytes with
  | nil => rfl
  | cons b bytes ih =>
    have hb := UInt8.toNat_lt b
    rw [hex_cons, List.map_cons, List.map_cons, toLower_hexChar _ (by omega),
      toLower_hexChar _ (by omega), ih]

theorem isHexBtih_iff (value : Text) : isHexBtih value = true ↔
    ∃ digest : Digest, unhex value = some digest.toList := by
  constructor
  · intro h
    simp only [isHexBtih, Bool.and_eq_true, decide_eq_true_eq, List.all_eq_true] at h
    rcases unhex_isSome value (by omega) h.2 with ⟨bytes, hbyte⟩
    have hlen := length_of_unhex value bytes hbyte
    have htwenty : bytes.length = 20 := by omega
    rcases exists_digest htwenty with ⟨digest, rfl⟩
    exact ⟨digest, hbyte⟩
  · rintro ⟨digest, h⟩
    have hlen := length_of_unhex value _ h
    have hdig := hexDigit_of_unhex value _ h
    simp only [isHexBtih, Bool.and_eq_true, decide_eq_true_eq, List.all_eq_true]
    exact ⟨by rw [hlen, length_digest], hdig⟩

-- A hexadecimal value has no lookalikes, so that reading them as plain letters
-- makes no new ones.
theorem map_plain_of_unhex
    (h : unhex (value.map plain) = some bytes) : value.map plain = value := by
  apply map_plain_eq_self
  rw [List.any_eq_false]
  intro c hc
  have hdig := hexDigit_of_unhex _ _ h (plain c) (List.mem_map_of_mem hc)
  simp [lookalike_of_hexDigit (.inr hdig)]

theorem any_lookalike_of_denotes (h : Denotes value digest) : value.any isLookalike = false := by
  rw [List.any_eq_false]
  intro c hc
  rcases h with hunhex | hdec
  · have hdigit := hexDigit_of_unhex _ _ hunhex c hc
    simp [lookalike_of_hexDigit (.inl hdigit)]
  · have hdig := (b32decode_twenty hdec (length_digest digest)).2
    simp [lookalike_of_b32Bits (hdig c.toUpper (List.mem_map_of_mem hc))]

-- `normalizeBtih` accepts the values that denote a hash once lookalikes are read as plain
-- letters.
theorem normalizeBtih_ok_iff (value hash : Text) : normalizeBtih value = .ok hash ↔
    ∃ digest : Digest, Denotes (value.map plain) digest ∧ hash = digest.hex := by
  constructor
  · intro h
    unfold normalizeBtih at h
    split at h
    · rename_i hlen
      split at h
      · exact nomatch h
      rename_i decoded hdec
      split at h
      · exact nomatch h
      rename_i htwenty
      rw [ne_eq, not_not] at htwenty
      rcases exists_digest htwenty with ⟨digest, rfl⟩
      -- Thirty-two characters make thirty-two digits, so none has grown.
      have hflat := (b32decode_twenty hdec htwenty).1
      rw [flatMap_upper_of_length (by omega)] at hdec
      exact ⟨digest, .inr hdec, (Except.ok.inj h).symm⟩
    · split at h
      · rename_i hhex
        rcases (isHexBtih_iff value).mp hhex with ⟨digest, hdig⟩
        have hpl := map_plain_eq_self (any_lookalike_of_denotes (.inl hdig))
        refine ⟨digest, .inl (by rw [hpl]; exact hdig), ?_⟩
        rw [← Except.ok.inj h]
        exact (hex_of_unhex _ _ hdig).symm
      · exact nomatch h
  · rintro ⟨digest, hdenotes, rfl⟩
    rcases hdenotes with hunhex | hdec
    · have hpl := map_plain_of_unhex hunhex
      rw [hpl] at hunhex
      have hlen := length_of_unhex _ _ hunhex
      rw [length_digest] at hlen
      rw [normalizeBtih, if_neg (by omega), if_pos ((isHexBtih_iff value).mpr ⟨digest, hunhex⟩),
        ← hex_of_unhex _ _ hunhex]
      rfl
    · rcases b32decode_twenty hdec (length_digest digest) with ⟨hlen, hdigits⟩
      rw [List.length_map, List.length_map] at hlen
      rw [normalizeBtih, if_pos hlen, flatMap_upper_of_b32Bits hdigits, hdec]
      dsimp only
      rw [if_neg (by rw [length_digest]; decide)]
      rfl

-- What denotes a hash is accepted for it, whichever way it is spelled.
theorem normalizeBtih_of_denotes (h : Denotes value digest) :
    normalizeBtih value = .ok digest.hex := by
  have hpl := map_plain_eq_self (any_lookalike_of_denotes h)
  exact (normalizeBtih_ok_iff value _).mpr ⟨digest, by rwa [hpl], rfl⟩

theorem normalizeBtih_error {e : QbittorrentError}
    (h : normalizeBtih value = .error e) : ∃ message, e = .source message := by
  unfold normalizeBtih at h
  split at h
  · split at h
    · exact ⟨_, (Except.error.inj h).symm⟩
    · split at h
      · exact ⟨_, (Except.error.inj h).symm⟩
      · exact nomatch h
  · split at h
    · exact nomatch h
    exact ⟨_, (Except.error.inj h).symm⟩

/-! ### What is accepted of a magnet -/

theorem ok_of_mapM {ys : List β} (h : xs.mapM f = .ok ys) : ∀ x ∈ xs, ∃ y ∈ ys, f x = .ok y := by
  induction xs generalizing ys with
  | nil => simp
  | cons x xs ih =>
    rw [List.mapM_cons] at h
    cases hx : f x with
    | error e => rw [hx] at h; exact nomatch h
    | ok y =>
      cases hrest : xs.mapM f with
      | error e => rw [hx, hrest] at h; exact nomatch h
      | ok more =>
        rw [hx, hrest] at h
        rw [← Except.ok.inj h]
        intro x' hx'
        rcases List.mem_cons.mp hx' with rfl | hx'
        · exact ⟨y, List.mem_cons_self, hx⟩
        · rcases ih hrest x' hx' with ⟨y', hy', hfx'⟩
          exact ⟨y', List.mem_cons_of_mem _ hy', hfx'⟩

theorem mapM_eq_of_const {y : β}
    (h : ∀ x ∈ xs, f x = .ok y) : xs.mapM f = .ok (xs.map fun _ => y) := by
  induction xs with
  | nil => rfl
  | cons x xs ih =>
    rw [List.mapM_cons, h x List.mem_cons_self, ih fun x' hx' => h x' (List.mem_cons_of_mem _ hx')]
    rfl

theorem error_of_mapM {e : ε} (h : xs.mapM f = .error e) : ∃ x ∈ xs, f x = .error e := by
  induction xs with
  | nil => exact nomatch h
  | cons x xs ih =>
    rw [List.mapM_cons] at h
    cases hx : f x with
    | error e' =>
      rw [hx] at h
      rw [← Except.error.inj h]
      exact ⟨x, List.mem_cons_self, hx⟩
    | ok y =>
      cases hrest : xs.mapM f with
      | error e' =>
        rw [hx, hrest] at h
        rcases ih (hrest.trans (congrArg _ (Except.error.inj h))) with ⟨x', hx', hfx'⟩
        exact ⟨x', List.mem_cons_of_mem _ hx', hfx'⟩
      | ok more =>
        rw [hx, hrest] at h
        exact nomatch h

section Magnet

variable (netlocOk : Text → Bool) (text : Text)

theorem infoHashFromMagnet_error {e : QbittorrentError}
    (h : infoHashFromMagnet netlocOk text = .error e) : ∃ message, e = .source message := by
  unfold infoHashFromMagnet at h
  cases hhash : (btihValues netlocOk text).mapM normalizeBtih with
  | error e' =>
    rw [hhash] at h
    rcases error_of_mapM hhash with ⟨value, -, hval⟩
    rw [← Except.error.inj h]
    exact normalizeBtih_error hval
  | ok hashes =>
    rw [hhash] at h
    cases hashes with
    | nil => exact nomatch h
    | cons hash rest =>
      simp only [bind, Except.bind] at h
      split at h
      · exact ⟨_, (Except.error.inj h).symm⟩
      · exact nomatch h

theorem infoHashFromMagnet_ok_iff (infoHash : Option Text) :
    infoHashFromMagnet netlocOk text = .ok infoHash ↔
      (btihValues netlocOk text = [] ∧ infoHash = none) ∨
      (btihValues netlocOk text ≠ [] ∧ ∃ digest : Digest, infoHash = some digest.hex ∧
        ∀ value ∈ btihValues netlocOk text, Denotes (value.map plain) digest) := by
  unfold infoHashFromMagnet
  generalize btihValues netlocOk text = values
  constructor
  · intro h
    cases hhashes : values.mapM normalizeBtih with
    | error e => rw [hhashes] at h; exact nomatch h
    | ok hashes =>
      rw [hhashes] at h
      cases hashes with
      | nil =>
        cases values with
        | nil => exact .inl ⟨rfl, (Except.ok.inj h).symm⟩
        | cons value values =>
          rcases ok_of_mapM hhashes value List.mem_cons_self with ⟨hash, hmem, -⟩
          exact absurd hmem List.not_mem_nil
      | cons hash rest =>
        simp only [bind, Except.bind] at h
        split at h
        · exact nomatch h
        rename_i hsame
        -- Every value is accepted for the first hash.
        have hok : ∀ value ∈ values, normalizeBtih value = .ok hash := by
          intro value hval
          rcases ok_of_mapM hhashes value hval with ⟨hash', hmem, hhash'⟩
          rcases List.mem_cons.mp hmem with rfl | hmem
          · exact hhash'
          · simp only [List.any_eq_true, decide_eq_true_eq, not_exists, not_and,
              not_not] at hsame
            rwa [hsame hash' hmem] at hhash'
        cases values with
        | nil => exact nomatch hhashes
        | cons value values =>
          rcases (normalizeBtih_ok_iff value hash).mp (hok value List.mem_cons_self) with
            ⟨digest, -, rfl⟩
          refine .inr ⟨List.cons_ne_nil _ _, digest, (Except.ok.inj h).symm, ?_⟩
          intro value' hval'
          rcases (normalizeBtih_ok_iff value' _).mp (hok value' hval') with
            ⟨digest', hdig', hhex⟩
          rwa [hex_injective hhex]
  · rintro (⟨rfl, rfl⟩ | ⟨hne, digest, rfl, hall⟩)
    · rfl
    · rw [mapM_eq_of_const fun value hval =>
        (normalizeBtih_ok_iff value _).mpr ⟨digest, hall value hval, rfl⟩]
      cases values with
      | nil => exact absurd rfl hne
      | cons value values => simp [bind, Except.bind, pure, Except.pure]

end Magnet

/-! ### What is promised of a call -/

/-- What ends the walk of a URL: a magnet, a body, neither, or an exception. -/
abbrev Walk := Except QbittorrentError (Option Text × Option Bytes)

section Add

variable (netlocOk : Text → Bool) (sha1 : Bytes → Digest) (depth : Nat)

/-- A form that is posted has a hash: that of its body, or the one all values of
    its magnet denote. -/
inductive Derived (form : AddForm) (digest : Digest) : Prop where
  | magnet (text : Text) (hurls : form.urls = some text) (htorrents : form.torrents = none)
      (hsome : btihValues netlocOk text ≠ [])
      (hall : ∀ value ∈ btihValues netlocOk text, Denotes value digest)
  | body (data : Bytes) (hurls : form.urls = none) (htorrents : form.torrents = some data)
      (hhash : infoHashFromTorrent sha1 depth data = some digest)

variable (walk : Walk) (source : Text) {text : Text}

def handedOver : Option Text :=
  match (urlsplit netlocOk source).map SplitResult.scheme with
  | none => none
  | some scheme =>
      if scheme = "magnet".toList ∨ scheme = [] then some source
      else if scheme = "http".toList ∨ scheme = "https".toList then
        match walk with
        | .ok (some magnet, _) => some magnet
        | _ => none
      else none

/-- Whatever the client answers, what is posted has a hash, which the result
    carries. Values that denote no hash, or not all the same one, are refused
    before anything is asked, and all that denote a hash are read as that hash. -/
structure Trackable (savePath category : Text) : Prop where
  added : ∀ st trace result st',
    (add netlocOk sha1 depth (fun _ => Run.ofExcept walk) source savePath category st).Runs trace
      (result, st') →
    ∀ form, Op.request (.torrentsAdd form) ∈ trace →
      ∃ digest, Derived netlocOk sha1 depth form digest ∧
        ∀ r, result = .ok r → r.torrentHash = digest.hex
  refused : ∀ text, handedOver netlocOk walk source = some text →
    btihValues netlocOk text ≠ [] →
    (¬ ∃ digest, ∀ value ∈ btihValues netlocOk text, Denotes value digest) →
    ∀ st trace result st',
      (add netlocOk sha1 depth (fun _ => Run.ofExcept walk) source savePath category st).Runs trace
        (result, st') →
      trace = [] ∧ ∃ message, result = .error (.source message)
  spelled : ∀ value digest, Denotes value digest → normalizeBtih value = .ok digest.hex

/-! ### The first half of the call -/

def submissionOf (text : Text) (infoHash : Option Text) : Submission :=
  { urls := some text, torrents := none, infoHash }

theorem submitText_eq (text : Text) : submitText netlocOk text =
    Run.ofExcept ((infoHashFromMagnet netlocOk text).map (submissionOf text)) := by
  unfold submitText
  cases infoHashFromMagnet netlocOk text with
  | ok infoHash | error e => rfl

theorem readSource_of_text (h : handedOver netlocOk walk source = some text) :
    readSource netlocOk sha1 depth (fun _ => Run.ofExcept walk) source =
      Run.ofExcept ((infoHashFromMagnet netlocOk text).map (submissionOf text)) := by
  rw [← submitText_eq]
  unfold handedOver at h
  unfold readSource
  cases hsch : (urlsplit netlocOk source).map (·.scheme) with
  | none =>
    rw [hsch] at h
    exact nomatch h
  | some scheme =>
    rw [hsch] at h
    dsimp only at h ⊢
    split at h
    · rename_i htext
      cases h
      rcases htext with rfl | rfl
      · rw [if_pos rfl]
      · rw [if_neg (by decide), if_neg (by decide), if_neg (by decide)]
    · rename_i hmag
      rw [not_or] at hmag
      rw [if_neg hmag.1]
      split at h
      · rename_i hhttp
        rw [if_pos hhttp]
        split at h
        · rename_i magnet _
          cases h
          rfl
        · exact nomatch h
      · exact nomatch h

theorem readSource_of_body (h : handedOver netlocOk walk source = none) : ∃ r,
    readSource netlocOk sha1 depth (fun _ => Run.ofExcept walk) source = Run.ofExcept r ∧
      ∀ s, r = .ok s → ∃ data digest, infoHashFromTorrent sha1 depth data = some digest ∧
        s = { urls := none, torrents := some data, infoHash := some digest.hex } := by
  unfold handedOver at h
  unfold readSource
  cases hsch : (urlsplit netlocOk source).map (·.scheme) with
  | none => exact ⟨.error unsupportedUrl, rfl, fun s hs => nomatch hs⟩
  | some scheme =>
    rw [hsch] at h
    dsimp only at h ⊢
    split at h
    · exact nomatch h
    rename_i hmag
    rw [not_or] at hmag
    rw [if_neg hmag.1]
    split at h
    · rename_i hhttp
      rw [if_pos hhttp]
      split at h
      · exact nomatch h
      rename_i hnone
      match walk, hnone with
      | .ok (some magnet, body), hnone => exact absurd rfl (hnone magnet body)
      | .ok (none, none), _ => exact ⟨.error unresolvable, rfl, fun s hs => nomatch hs⟩
      | .error e, _ => exact ⟨.error e, rfl, fun s hs => nomatch hs⟩
      | .ok (none, some data), _ =>
        cases hdig : infoHashFromTorrent sha1 depth data with
        | none =>
          refine ⟨.error unresolvable, ?_, fun s hs => nomatch hs⟩
          funext st
          simp [bind, Run.ofExcept, Program.bind, hdig, Run.raise]
        | some digest =>
          refine ⟨.ok _, ?_, fun s hs => ⟨data, digest, hdig, (Except.ok.inj hs).symm⟩⟩
          funext st
          simp [bind, Run.ofExcept, Program.bind, hdig, pure]
    · rename_i hhttp
      rw [if_neg hhttp, if_pos hmag.2]
      exact ⟨.error unsupportedUrl, rfl, fun s hs => nomatch hs⟩

/-! ### The second half of the call -/

variable (savePath category : Text) {r : ClientRequest} {trace : List Op}

def PostsOnly (form : AddForm) (op : Op) : Prop :=
  ∀ other, op = .request (.torrentsAdd other) → other = form

theorem asks_login (P : Op → Prop) (h : P .login) : login.Asks P :=
  (Run.asks_perform h).bind fun _ => (Run.asks_ofExcept _).bind fun _ => Run.asks_modifyRecord _

theorem asks_send (h : P (.request r)) : (send r).Asks P := by
  refine (Run.asks_perform h).bind fun answer => ?_
  cases answer with
  | none => exact Run.asks_raise _
  | some response => exact Run.asks_pure _

theorem asks_request (hlogin : P .login) (h : P (.request r)) : (request r).Asks P := by
  have hrest : Run.Asks P (send r >>= fun response =>
      if response.statusCode = 403 then do
        .modifyRecord fun _ => false
        login
        send r
      else pure response : AddRun Response) := by
    refine (asks_send h).bind fun response => Run.Asks.ite ?_ (Run.asks_pure _)
    exact (Run.asks_modifyRecord _).bind fun _ => (asks_login P hlogin).bind fun _ => asks_send h
  refine Run.asks_record.bind fun loggedIn => ?_
  cases loggedIn with
  | false => exact (asks_login P hlogin).bind fun _ => hrest
  | true => exact hrest

theorem asks_requirePayloadValidationSupport (hlogin : P .login)
    (h : P (.request .webapiVersion)) : requirePayloadValidationSupport.Asks P := by
  refine (asks_request hlogin h).bind fun response => ?_
  refine Run.Asks.ite (Run.asks_raise _) ?_
  split
  · exact Run.asks_raise _
  · exact Run.Asks.ite (Run.asks_raise _) (Run.asks_pure _)

theorem asks_submit (s : Submission) :
    (submit savePath category s).Asks (PostsOnly (s.form savePath category)) := by
  have hlogin : PostsOnly (s.form savePath category) .login := fun _ h => nomatch h
  have hver : PostsOnly (s.form savePath category) (.request .webapiVersion) :=
    fun _ h => nomatch h
  have hadd : PostsOnly (s.form savePath category)
      (.request (.torrentsAdd (s.form savePath category))) := by
    intro other h
    injection h with h
    injection h with h
    exact h.symm
  refine (asks_requirePayloadValidationSupport hlogin hver).bind fun _ => ?_
  refine (asks_request hlogin hadd).bind fun response => ?_
  refine Run.Asks.ite (Run.asks_raise _) ?_
  split
  · exact Run.asks_pure _
  · exact Run.asks_pure _

theorem submit_result {s : Submission} {st : Bool} {r : AddResult} {st' : Bool}
    (h : (submit savePath category s st).Runs trace (.ok r, st')) :
    r.torrentHash = (s.infoHash.map fun hash => hash.map Char.toLower).getD [] := by
  rcases Run.runs_bind.mp h with ⟨_, _, _, _, -, h, -⟩ | ⟨_, _, -, h⟩
  · rcases Run.runs_bind.mp h with ⟨_, response, _, _, -, h, -⟩ | ⟨_, _, -, h⟩
    · split at h
      · exact nomatch (Program.runs_ret.mp h).2
      split at h
      · rename_i hash hhash
        rw [hhash]
        rcases (Program.runs_ret.mp h).2 with h
        injection h with h
        rw [Except.ok.inj h]
        rfl
      · rename_i hhash
        rw [hhash]
        rcases (Program.runs_ret.mp h).2 with h
        injection h with h
        rw [Except.ok.inj h]
        rfl
    · exact nomatch h
  · exact nomatch h

theorem runs_send (r : ClientRequest) (response : Response) (st : Bool) :
    (send r st).Runs [.request r] (.ok response, st) := by
  refine Program.Runs.call (show Ans (.request r) from some response) ?_
  exact Program.Runs.ret _

-- Someone who is logged in, and is not turned away, asks once.
theorem runs_request (r : ClientRequest) {response : Response} (h : response.statusCode ≠ 403) :
    (request r true).Runs [.request r] (.ok response, true) := by
  refine Run.runs_bind.mpr (.inl ⟨[], true, true, _, .ret _, ?_, rfl⟩)
  refine Run.runs_bind.mpr (.inl ⟨_, response, true, [], runs_send r response true, ?_, rfl⟩)
  rw [if_neg h]
  exact .ret _

def supported : Response := { statusCode := 200, text := "2.11.0".toList }

def accepted : Response := { statusCode := 200, text := "Ok.".toList }

theorem runs_requirePayloadValidationSupport :
    (requirePayloadValidationSupport true).Runs [.request .webapiVersion] (.ok (), true) := by
  refine Run.runs_bind.mpr (.inl ⟨_, supported, true, [],
    runs_request .webapiVersion (by decide), ?_, rfl⟩)
  exact .ret _

theorem submit_posts (s : Submission) : ∃ r,
    (submit savePath category s true).Runs
      [.request .webapiVersion, .request (.torrentsAdd (s.form savePath category))]
      (.ok r, true) := by
  have hadd : (request (.torrentsAdd (s.form savePath category)) true).Runs
      [.request (.torrentsAdd (s.form savePath category))] (.ok accepted, true) :=
    runs_request _ (by decide)
  cases hhash : s.infoHash with
  | none =>
    refine ⟨{ torrentHash := [], created := true }, Run.runs_bind.mpr (.inl
      ⟨_, _, _, _, runs_requirePayloadValidationSupport,
        Run.runs_bind.mpr (.inl ⟨_, _, _, [], hadd, ?_, rfl⟩), rfl⟩)⟩
    rw [if_neg (by decide), hhash]
    exact .ret _
  | some hash =>
    refine ⟨{ torrentHash := hash.map Char.toLower, created := true, payloadPending := true },
      Run.runs_bind.mpr (.inl ⟨_, _, _, _, runs_requirePayloadValidationSupport,
        Run.runs_bind.mpr (.inl ⟨_, _, _, [], hadd, ?_, rfl⟩), rfl⟩)⟩
    rw [if_neg (by decide), hhash]
    exact .ret _

/-! ### When a call keeps the promise -/

theorem add_runs {r : Except QbittorrentError Submission}
    (hread : readSource netlocOk sha1 depth (fun _ => Run.ofExcept walk) source = Run.ofExcept r)
    {st : Bool} {result : Except QbittorrentError AddResult × Bool} :
    (add netlocOk sha1 depth (fun _ => Run.ofExcept walk) source savePath category st).Runs trace
        result ↔
      (∃ s, r = .ok s ∧ (submit savePath category s st).Runs trace result) ∨
      ∃ e, r = .error e ∧ trace = [] ∧ result = (.error e, st) := by
  unfold add
  rw [hread]
  cases r with
  | ok s => simp [bind, Run.ofExcept, Program.bind]
  | error e => simp [bind, Run.ofExcept, Program.bind, Program.runs_ret]

/-- A text has values, and none of them passes for one that denotes a hash only
    because a letter of it looks like another. -/
def Clear (text : Text) : Prop :=
  btihValues netlocOk text ≠ [] ∧
    ((∃ value ∈ btihValues netlocOk text, value.any isLookalike = true) →
      ¬ ∃ digest, ∀ value ∈ btihValues netlocOk text, Denotes (value.map plain) digest)

-- What is accepted of a clear text is accepted as it stands.
theorem Clear.denotes (h : Clear netlocOk text)
    (hall : ∀ value ∈ btihValues netlocOk text, Denotes (value.map plain) digest) :
    ∀ value ∈ btihValues netlocOk text, Denotes value digest := by
  intro value hval
  have hnone : value.any isLookalike = false := by
    by_contra hlook
    exact h.2 ⟨value, hval, Bool.not_eq_false _ ▸ hlook⟩ ⟨digest, hall⟩
  have hdenotes := hall value hval
  rwa [map_plain_eq_self hnone] at hdenotes

theorem clear_of_trackable (h : Trackable netlocOk sha1 depth walk source savePath category)
    (htext : handedOver netlocOk walk source = some text) : Clear netlocOk text := by
  have hread := readSource_of_text netlocOk sha1 depth walk source htext
  have hacc : ∀ infoHash, infoHashFromMagnet netlocOk text = .ok infoHash →
      btihValues netlocOk text ≠ [] ∧
        ∀ value ∈ btihValues netlocOk text, value.any isLookalike = false := by
    intro infoHash hhash
    rcases submit_posts savePath category (submissionOf text infoHash) with ⟨r, hposts⟩
    have hrun := (add_runs netlocOk sha1 depth walk source savePath category hread).mpr
      (.inl ⟨_, by rw [hhash]; rfl, hposts⟩)
    rcases h.added _ _ _ _ hrun _ (List.mem_cons_of_mem _ List.mem_cons_self) with
      ⟨digest, hderived, -⟩
    cases hderived with
    | magnet text' hurls _ hsome hall =>
      cases hurls
      exact ⟨hsome, fun value hval => any_lookalike_of_denotes (hall value hval)⟩
    | body _ hurls => exact nomatch hurls
  refine ⟨fun hnil => ?_, ?_⟩
  · exact (hacc none ((infoHashFromMagnet_ok_iff netlocOk text none).mpr
      (.inl ⟨hnil, rfl⟩))).1 hnil
  · rintro ⟨value, hval, hlook⟩ ⟨digest, hall⟩
    have hnone := (hacc (some digest.hex) ((infoHashFromMagnet_ok_iff netlocOk text _).mpr
      (.inr ⟨List.ne_nil_of_mem hval, digest, rfl, hall⟩))).2 value hval
    rw [hlook] at hnone
    exact nomatch hnone

theorem trackable_of_clear
    (h : ∀ text, handedOver netlocOk walk source = some text → Clear netlocOk text) :
    Trackable netlocOk sha1 depth walk source savePath category := by
  refine ⟨?_, ?_, fun value digest hdenotes => normalizeBtih_of_denotes hdenotes⟩
  · intro st trace result st' hrun form hform
    cases htext : handedOver netlocOk walk source with
    | none =>
      -- Without a text there is a body, whose hash is computed.
      rcases readSource_of_body netlocOk sha1 depth walk source htext with ⟨r, hread, hbody⟩
      rcases (add_runs netlocOk sha1 depth walk source savePath category hread).mp hrun with
        ⟨s, hs, hsubmit⟩ | ⟨e, -, rfl, -⟩
      · rcases hbody s hs with ⟨data, digest, hdig, rfl⟩
        obtain rfl := (asks_submit savePath category _ st).runs hsubmit _ hform form rfl
        refine ⟨digest, .body data rfl rfl hdig, ?_⟩
        rintro r rfl
        rw [submit_result savePath category hsubmit]
        exact toLower_hex digest.toList
      · exact absurd hform List.not_mem_nil
    | some text =>
      have hread := readSource_of_text netlocOk sha1 depth walk source htext
      rcases (add_runs netlocOk sha1 depth walk source savePath category hread).mp hrun with
        ⟨s, hs, hsubmit⟩ | ⟨e, -, rfl, -⟩
      -- A text is a magnet link, and its hash is what it names.
      · cases hhash : infoHashFromMagnet netlocOk text with
        | error e => rw [hhash] at hs; exact nomatch hs
        | ok infoHash =>
          rw [hhash] at hs
          obtain rfl := Except.ok.inj hs
          have hclr := h text htext
          rcases (infoHashFromMagnet_ok_iff netlocOk text infoHash).mp hhash with
            ⟨hnil, -⟩ | ⟨hsome, digest, rfl, hall⟩
          · exact absurd hnil hclr.1
          · obtain rfl := (asks_submit savePath category _ st).runs hsubmit _ hform form rfl
            refine ⟨digest, .magnet text rfl rfl hsome (hclr.denotes netlocOk hall), ?_⟩
            rintro r rfl
            rw [submit_result savePath category hsubmit]
            exact toLower_hex digest.toList
      · exact absurd hform List.not_mem_nil
  · intro text htext hsome hnone st trace result st' hrun
    have hread := readSource_of_text netlocOk sha1 depth walk source htext
    rcases (add_runs netlocOk sha1 depth walk source savePath category hread).mp hrun with
      ⟨s, hs, -⟩ | ⟨e, he, rfl, hres⟩
    · cases hhash : infoHashFromMagnet netlocOk text with
      | error e => rw [hhash] at hs; exact nomatch hs
      | ok infoHash =>
        rcases (infoHashFromMagnet_ok_iff netlocOk text infoHash).mp hhash with
          ⟨hnil, -⟩ | ⟨-, digest, -, hall⟩
        · exact absurd hnil hsome
        · exact absurd ⟨digest, (h text htext).denotes netlocOk hall⟩ hnone
    · refine ⟨rfl, ?_⟩
      cases hhash : infoHashFromMagnet netlocOk text with
      | ok infoHash => rw [hhash] at he; exact nomatch he
      | error e' =>
        rw [hhash] at he
        obtain rfl := Except.error.inj he
        rcases infoHashFromMagnet_error netlocOk text hhash with ⟨message, rfl⟩
        exact ⟨message, congrArg Prod.fst hres⟩

/-- A call keeps the promise if and only if the text it hands over, if it does,
    is clear. -/
theorem add_trackable_iff :
    Trackable netlocOk sha1 depth walk source savePath category ↔
      ∀ text, handedOver netlocOk walk source = some text → Clear netlocOk text :=
  ⟨fun h _ htext => clear_of_trackable netlocOk sha1 depth walk source savePath category h htext,
    trackable_of_clear netlocOk sha1 depth walk source savePath category⟩

end Add

/-- A magnet without a value is posted, and so is one whose value only looks like
    base32. -/
theorem add_untrackable :
    (¬ Trackable (fun _ => true) (fun _ => Vector.replicate 20 0) 0 (.ok (none, none))
      "magnet:?dn=x".toList [] []) ∧
    ¬ Trackable (fun _ => true) (fun _ => Vector.replicate 20 0) 0 (.ok (none, none))
      "magnet:?xt=urn:btih:AAAAAAAAAAAAAAAAAAAAAAAAAAAAAAAı".toList [] [] := by
  constructor
  · intro h
    have htext : handedOver (fun _ => true) (.ok (none, none)) "magnet:?dn=x".toList =
        some "magnet:?dn=x".toList := by decide
    exact (clear_of_trackable _ _ _ _ _ _ _ h htext).1 (by decide)
  · intro h
    have htext : handedOver (fun _ => true) (.ok (none, none))
        "magnet:?xt=urn:btih:AAAAAAAAAAAAAAAAAAAAAAAAAAAAAAAı".toList =
        some "magnet:?xt=urn:btih:AAAAAAAAAAAAAAAAAAAAAAAAAAAAAAAı".toList := by decide
    have hvals : btihValues (fun _ => true)
        "magnet:?xt=urn:btih:AAAAAAAAAAAAAAAAAAAAAAAAAAAAAAAı".toList =
        ["AAAAAAAAAAAAAAAAAAAAAAAAAAAAAAAı".toList] := by decide
    have hacc : normalizeBtih "AAAAAAAAAAAAAAAAAAAAAAAAAAAAAAAı".toList =
        .ok "0000000000000000000000000000000000000008".toList := by decide
    rcases (normalizeBtih_ok_iff _ _).mp hacc with ⟨digest, hdig, -⟩
    have hclr := clear_of_trackable _ _ _ _ _ _ _ h htext
    rw [Clear, hvals] at hclr
    exact hclr.2 ⟨_, List.mem_cons_self, by decide⟩
      ⟨digest, fun value hval => by rwa [List.mem_singleton.mp hval]⟩

end TorrentSource

end PlexManager
