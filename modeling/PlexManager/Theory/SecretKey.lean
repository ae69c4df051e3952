import PlexManager.Core.SecretKey

/-!
# One first key

Whoever returns a key returns what the file of that name holds. There are two ways to
come by it. A process that has read a key by name adopts it, and a process whose
temporary file was linked to the name has written it there. So it is enough that a file
which holds a key stays where it is and as it is.

Nothing overwrites it, since a file is only ever given the name when the name is free,
and nothing is written to it, since only its maker writes to a file and stops when the
key is whole. What may remove it is the recovery of a partial file. It looks at the file
and then removes whatever has the name. If that is what it has looked at, it is no key.
If the file was finished in between, or replaced, it may be one. In the same way a
process that has opened a partial file may be overtaken by its replacement and read a
key that nobody else will find.

So the agreement is shown for processes that act by name: what is read is what the name
leads to when it is read, and what the recovery removes is what it has read. With hard
links nothing is removed, and nothing needs to be assumed.

## Theorems

* `first_key_shared`: All calls return what the file holds, and it stays there.
* `first_key_differs`: Without either half of the condition two calls may return
  different keys.
-/

namespace PlexManager

namespace SecretKey

open Effects Interleaving

/-! ### The key in the file -/

def keyHeld (F : Fernet) (s : Fs) : Option Bytes :=
  match s.entries .final with
  | none => none
  | some i =>
      if isValidFernetKey F (s.inodes i).content then some (strip (s.inodes i).content) else none

variable {F : Fernet} {hardlinks : Bool}

variable {s t : Fs} {tmp rounds : Nat} {name : Name} {op : Op} {raw : Bytes} {key content : Bytes}
  {pid ino : Nat} {entry : Option Nat}

theorem keyHeld_eq {i : Nat} (hname : s.entries .final = some i)
    (hval : isValidFernetKey F (s.inodes i).content = true) :
    keyHeld F s = some (strip (s.inodes i).content) := by
  unfold keyHeld
  rw [hname]
  exact if_pos hval

theorem exists_of_keyHeld (h : keyHeld F s = some key) :
    ∃ i, s.entries .final = some i ∧ isValidFernetKey F (s.inodes i).content = true ∧
      strip (s.inodes i).content = key := by
  unfold keyHeld at h
  split at h
  · exact nomatch h
  rename_i i hi
  split at h
  · exact ⟨i, hi, ‹_›, Option.some.inj h⟩
  · exact nomatch h

theorem length_strip_le (raw : Bytes) : (strip raw).length ≤ raw.length := by
  have hfr : (raw.dropWhile isSpace).length ≤ raw.length :=
    (List.dropWhile_sublist isSpace).length_le
  have hback : ((raw.dropWhile isSpace).reverse.dropWhile isSpace).length ≤
      (raw.dropWhile isSpace).reverse.length := (List.dropWhile_sublist isSpace).length_le
  unfold strip
  rw [List.length_reverse]
  rw [List.length_reverse] at hback
  omega

theorem not_valid_of_short (h : raw.length < fernetKeyLength) : isValidFernetKey F raw = false := by
  have hle := length_strip_le raw
  have hne : ((strip raw).length == fernetKeyLength) = false := by
    rw [beq_eq_false_iff_ne]
    omega
  unfold isValidFernetKey
  rw [hne, Bool.false_and]

theorem dropWhile_eq_self {p : UInt8 → Bool} (h : ∀ b ∈ raw, p b = false) :
    raw.dropWhile p = raw := by
  cases raw with
  | nil => rfl
  | cons b rest => rw [List.dropWhile_cons, h b List.mem_cons_self, if_neg Bool.false_ne_true]

theorem strip_minted (h : F.Mints key) : strip key = key := by
  unfold strip
  rw [dropWhile_eq_self h.2.1, dropWhile_eq_self, List.reverse_reverse]
  intro b hb
  exact h.2.1 b (List.mem_reverse.mp hb)

theorem valid_minted (h : F.Mints key) : isValidFernetKey F key = true := by
  unfold isValidFernetKey
  rw [strip_minted h, h.2.2, Bool.and_true, beq_iff_eq]
  exact h.1

/-! ### What a process relies on -/

/-- What a process relies on while the others move. Its own files are not written to and
    not given the name, its temporary file keeps its name or loses it, and a key in the
    file stays there. With hard links any file that has the name keeps it. -/
structure Kept (F : Fernet) (hardlinks : Bool) (pid : Nat) (s t : Fs) : Prop where
  inodes : s.nextInode ≤ t.nextInode
  names : s.nextTemp ≤ t.nextTemp
  maker : ∀ i < s.nextInode, (t.inodes i).maker = (s.inodes i).maker
  content : ∀ i < s.nextInode, (s.inodes i).maker = some pid →
    (t.inodes i).content = (s.inodes i).content
  temp : ∀ n < s.nextTemp,
    t.entries (.temp n) = s.entries (.temp n) ∨ t.entries (.temp n) = none
  unnamed : ∀ i < s.nextInode, (s.inodes i).maker = some pid → t.entries .final = some i →
    s.entries .final = some i
  key : ∀ i, s.entries .final = some i → isValidFernetKey F (s.inodes i).content = true →
    t.entries .final = some i ∧ (t.inodes i).content = (s.inodes i).content
  linked : hardlinks = true → ∀ i, s.entries .final = some i → t.entries .final = some i

theorem Kept.refl (pid : Nat) (s : Fs) : Kept F hardlinks pid s s where
  inodes := Nat.le_refl _
  names := Nat.le_refl _
  maker _ _ := rfl
  content _ _ _ := rfl
  temp _ _ := .inl rfl
  unnamed _ _ _ h := h
  key _ h _ := ⟨h, rfl⟩
  linked _ _ h := h

theorem Kept.trans {u : Fs} (hst : Kept F hardlinks pid s t)
    (htu : Kept F hardlinks pid t u) : Kept F hardlinks pid s u where
  inodes := Nat.le_trans hst.inodes htu.inodes
  names := Nat.le_trans hst.names htu.names
  maker i hi := by
    have hlt : i < t.nextInode := Nat.lt_of_lt_of_le hi hst.inodes
    rw [htu.maker i hlt, hst.maker i hi]
  content i hi hmine := by
    have hlt : i < t.nextInode := Nat.lt_of_lt_of_le hi hst.inodes
    have hstill : (t.inodes i).maker = some pid := by rw [hst.maker i hi, hmine]
    rw [htu.content i hlt hstill, hst.content i hi hmine]
  temp n hn := by
    have hlt : n < t.nextTemp := Nat.lt_of_lt_of_le hn hst.names
    rcases htu.temp n hlt with hsame | hnone
    · rw [hsame]
      exact hst.temp n hn
    · exact .inr hnone
  unnamed i hi hmine hname := by
    have hlt : i < t.nextInode := Nat.lt_of_lt_of_le hi hst.inodes
    have hstill : (t.inodes i).maker = some pid := by rw [hst.maker i hi, hmine]
    exact hst.unnamed i hi hmine (htu.unnamed i hlt hstill hname)
  key i hname hval := by
    rcases hst.key i hname hval with ⟨hname', hcont⟩
    have hval' : isValidFernetKey F (t.inodes i).content = true := by rw [hcont, hval]
    rcases htu.key i hname' hval' with ⟨hname'', hcont'⟩
    exact ⟨hname'', hcont'.trans hcont⟩
  linked hlink i hname := htu.linked hlink i (hst.linked hlink i hname)

theorem Kept.keyHeld (h : Kept F hardlinks pid s t)
    (hkey : keyHeld F s = some key) : keyHeld F t = some key := by
  rcases exists_of_keyHeld hkey with ⟨i, hname, hval, hstrip⟩
  rcases h.key i hname hval with ⟨hname', hcont⟩
  have hval' : isValidFernetKey F (t.inodes i).content = true := by rw [hcont, hval]
  rw [keyHeld_eq hname' hval', hcont, hstrip]

theorem Kept.of_eq (hents : t.entries = s.entries) (hinodes : t.inodes = s.inodes)
    (hino : t.nextInode = s.nextInode)
    (hnextTemp : t.nextTemp = s.nextTemp) : Kept F hardlinks pid s t where
  inodes := Nat.le_of_eq hino.symm
  names := Nat.le_of_eq hnextTemp.symm
  maker i _ := by rw [hinodes]
  content i _ _ := by rw [hinodes]
  temp n _ := by
    rw [hents]
    exact .inl rfl
  unnamed i _ _ h := by rwa [hents] at h
  key i h _ := by
    rw [hents, hinodes]
    exact ⟨h, rfl⟩
  linked _ i h := by rwa [hents]

theorem Fs.Sound.of_eq (h : s.Sound) (hents : t.entries = s.entries)
    (hino : t.nextInode = s.nextInode) (hnextTemp : t.nextTemp = s.nextTemp) : t.Sound where
  entries name i := by
    rw [hents, hino]
    exact h.entries name i
  temps n := by
    rw [hents, hnextTemp]
    exact h.temps n

/-! ### What the operations do -/

theorem entries_enter (s : Fs) (name m : Name) (entry : Option Nat) :
    (s.enter name entry).entries m = if m = name then entry else s.entries m := rfl

theorem entries_enter_self (s : Fs) (name : Name) (entry : Option Nat) :
    (s.enter name entry).entries name = entry := if_pos rfl

theorem entries_enter_of_ne (s : Fs) {m : Name} (entry : Option Nat) (h : m ≠ name) :
    (s.enter name entry).entries m = s.entries m := if_neg h

theorem inodes_create (s : Fs) (maker : Nat) (name : Name) (i : Nat) (hi : i < s.nextInode) :
    (s.create maker name).inodes i = s.inodes i := by
  have hne : i ≠ s.nextInode := by omega
  exact if_neg hne

theorem Kept.enter (hfin : name ≠ .final)
    (htemp : ∀ n < s.nextTemp, name = .temp n → entry = none) :
    Kept F hardlinks pid s (s.enter name entry) where
  inodes := Nat.le_refl _
  names := Nat.le_refl _
  maker _ _ := rfl
  content _ _ _ := rfl
  temp n hn := by
    rw [entries_enter]
    by_cases heq : Name.temp n = name
    · rw [if_pos heq]
      exact .inr (htemp n hn heq.symm)
    · rw [if_neg heq]
      exact .inl rfl
  unnamed i _ _ h := by rwa [entries_enter, if_neg hfin.symm] at h
  key i h _ := by
    rw [entries_enter, if_neg hfin.symm]
    exact ⟨h, rfl⟩
  linked _ i h := by rwa [entries_enter, if_neg hfin.symm]

theorem Fs.Sound.enter (h : s.Sound) (hent : ∀ i, entry = some i → i < s.nextInode)
    (hname : ∀ n, s.nextTemp ≤ n → name = .temp n → entry = none) : (s.enter name entry).Sound where
  entries m i hi := by
    rw [entries_enter] at hi
    by_cases heq : m = name
    · rw [if_pos heq] at hi
      exact hent i hi
    · rw [if_neg heq] at hi
      exact h.entries m i hi
  temps n hn := by
    rw [entries_enter]
    by_cases heq : Name.temp n = name
    · rw [if_pos heq]
      exact hname n hn heq.symm
    · rw [if_neg heq]
      exact h.temps n hn

theorem Kept.create_final {maker : Nat}
    (hfree : s.entries .final = none) : Kept F hardlinks pid s (s.create maker .final) where
  inodes := Nat.le_succ _
  names := Nat.le_refl _
  maker i hi := by rw [inodes_create s maker .final i hi]
  content i hi _ := by rw [inodes_create s maker .final i hi]
  temp n _ := .inl rfl
  unnamed i hi _ h := by
    have hnew : s.nextInode = i := Option.some.inj h
    omega
  key i h _ := by
    rw [hfree] at h
    exact nomatch h
  linked _ i h := by
    rw [hfree] at h
    exact nomatch h

theorem Fs.Sound.created (h : s.Sound) (maker : Nat) {next : Nat} (hnext : s.nextTemp ≤ next)
    (hname : ∀ n, next ≤ n → name ≠ .temp n) :
    Fs.Sound { s.create maker name with nextTemp := next } where
  entries m i hi := by
    change (s.enter name (some s.nextInode)).entries m = some i at hi
    change i < s.nextInode + 1
    rw [entries_enter] at hi
    by_cases heq : m = name
    · rw [if_pos heq] at hi
      have hnew : s.nextInode = i := Option.some.inj hi
      omega
    · rw [if_neg heq] at hi
      have hold := h.entries m i hi
      omega
  temps n hn := by
    change (s.enter name (some s.nextInode)).entries (.temp n) = none
    rw [entries_enter, if_neg (hname n hn).symm]
    exact h.temps n (Nat.le_trans hnext hn)

theorem Kept.mkstemp {maker : Nat} (hsound : s.Sound) :
    Kept F hardlinks pid s
      { s.create maker (.temp s.nextTemp) with nextTemp := s.nextTemp + 1 } where
  inodes := Nat.le_succ _
  names := Nat.le_succ _
  maker i hi := by rw [inodes_create s maker _ i hi]
  content i hi _ := by rw [inodes_create s maker _ i hi]
  temp n hn := by
    have hne : Name.temp n ≠ .temp s.nextTemp := by
      intro heq
      have := Name.temp.inj heq
      omega
    exact .inl (if_neg hne)
  unnamed i _ _ h := h
  key i h _ := by
    have hlt : i < s.nextInode := hsound.entries .final i h
    exact ⟨h, by rw [inodes_create s maker _ i hlt]⟩
  linked _ _ h := h

/-- Whatever is not done to a file by its maker, nor to the name `secret.key` once it is
    given. -/
def Op.Gentle : Op → Prop
  | .write _ _ | .unlink .final | .link _ .final | .link _ (.temp _) => False
  | _ => True

variable {c : Choice} {s' : Fs} {p p' : Process}

theorem exec_link {source : Nat} {r : Except OsError Unit}
    (h : exec F hardlinks pid (.link source name) c (s, p) = some (r, s', p')) :
    ((∃ e, r = .error e) ∧ s' = s ∧ p' = p ∧ (r = .error .unsupported → hardlinks = false)) ∨
      ∃ i, s.entries (.temp source) = some i ∧ s.entries name = none ∧ hardlinks = true ∧
        r = .ok () ∧ s' = s.enter name (some i) ∧ p' = p := by
  simp only [exec] at h
  split at h
  · cases h
    exact .inl ⟨⟨_, rfl⟩, rfl, rfl, nofun⟩
  split at h
  · cases h
    exact .inl ⟨⟨_, rfl⟩, rfl, rfl, nofun⟩
  rename_i i hi
  split at h
  · cases h
    exact .inl ⟨⟨_, rfl⟩, rfl, rfl, nofun⟩
  rename_i hfree
  split at h
  · cases h
    exact .inr ⟨i, hi, by simpa using hfree, ‹_›, rfl, rfl, rfl⟩
  · cases h
    exact .inl ⟨⟨_, rfl⟩, rfl, rfl, fun _ => Bool.not_eq_true _ ▸ ‹_›⟩

theorem exec_unlink {r : Except OsError Unit}
    (h : exec F hardlinks pid (.unlink name) c (s, p) = some (r, s', p')) :
    s' = s ∨ s' = s.enter name none := by
  simp only [exec] at h
  split at h
  · cases h
    exact .inl rfl
  split at h
  · cases h
    exact .inr rfl
  · cases h
    exact .inl rfl

theorem kept_of_gentle (hop : op.Gentle)
    {a : op.Answer} (hs : s.Sound) (hexec : exec F hardlinks pid op c (s, p) = some (a, s', p')) :
    s'.Sound ∧ ∀ id, Kept F hardlinks id s s' := by
  have hlock : ∀ lock, s' = { s with lock := lock } →
      s'.Sound ∧ ∀ id, Kept F hardlinks id s s' := by
    rintro lock rfl
    exact ⟨hs.of_eq rfl rfl rfl, fun id => .of_eq rfl rfl rfl rfl⟩
  have hsame : s' = s → s'.Sound ∧ ∀ id, Kept F hardlinks id s s' := hlock s.lock
  cases op with
  | mkstemp =>
    simp only [exec] at hexec
    split at hexec
    · cases hexec
      exact hsame rfl
    · cases hexec
      refine ⟨hs.created pid (Nat.le_succ _) ?_, fun id => .mkstemp hs⟩
      rintro n hn ⟨⟩
      exact Nat.lt_irrefl _ hn
  | createExclusive =>
    simp only [exec] at hexec
    split at hexec
    · cases hexec
      exact hsame rfl
    rename_i hfree
    split at hexec
    · cases hexec
      exact hsame rfl
    · cases hexec
      have hnone : s.entries .final = none := by simpa using hfree
      refine ⟨hs.created pid (Nat.le_refl _) ?_, fun id => .create_final hnone⟩
      exact fun n _ h => nomatch h
  | write ino bytes => exact hop.elim
  | link source target =>
    cases target with
    | final | temp n => exact hop.elim
    | probe n =>
      rcases exec_link hexec with ⟨-, rfl, -, -⟩ | ⟨i, hi, -, -, -, rfl, -⟩
      · exact hsame rfl
      · refine ⟨hs.enter ?_ nofun, fun id => .enter nofun nofun⟩
        rintro _ ⟨⟩
        exact hs.entries _ i hi
  | unlink name =>
    rcases exec_unlink hexec with rfl | rfl
    · exact hsame rfl
    · refine ⟨hs.enter nofun fun _ _ _ => rfl, fun id => .enter ?_ fun _ _ _ => rfl⟩
      rintro rfl
      exact hop
  | _ =>
    -- the others leave the names and the files alone
    simp only [exec] at hexec
    repeat' split at hexec
    all_goals cases hexec
    all_goals exact hlock _ rfl

theorem Kept.reap
    (hbrk : ∀ i, s.entries .final = some i → isValidFernetKey F (s.inodes i).content = false) :
    Kept F false pid s (s.enter .final none) where
  inodes := Nat.le_refl _
  names := Nat.le_refl _
  maker _ _ := rfl
  content _ _ _ := rfl
  temp n _ := .inl (entries_enter_of_ne s none nofun)
  unnamed i _ _ h := by
    exact nomatch h
  key i h hval := by
    rw [hbrk i h] at hval
    exact nomatch hval
  linked h := nomatch h

theorem Kept.append {id : Nat} {bytes : Bytes} (hmaker : (s.inodes ino).maker = some pid)
    (hbrk : isValidFernetKey F (s.inodes ino).content = false) (hid : id ≠ pid) :
    Kept F hardlinks id s (s.append ino bytes) where
  inodes := Nat.le_refl _
  names := Nat.le_refl _
  maker i _ := by
    by_cases heq : i = ino
    · change (if i = ino then _ else _ : Inode).maker = _
      rw [if_pos heq]
    · change (if i = ino then _ else _ : Inode).maker = _
      rw [if_neg heq]
  content i _ hmine := by
    have hne : i ≠ ino := by
      rintro rfl
      rw [hmaker] at hmine
      exact hid (Option.some.inj hmine).symm
    change (if i = ino then _ else _ : Inode).content = _
    rw [if_neg hne]
  temp _ _ := .inl rfl
  unnamed _ _ _ h := h
  key i h hval := by
    have hne : i ≠ ino := by
      rintro rfl
      rw [hbrk] at hval
      exact nomatch hval
    refine ⟨h, ?_⟩
    change (if i = ino then _ else _ : Inode).content = _
    rw [if_neg hne]
  linked _ _ h := h

theorem Kept.link {id : Nat} (hmaker : (s.inodes ino).maker = some pid)
    (hfree : s.entries .final = none) (hid : id ≠ pid) :
    Kept F hardlinks id s (s.enter .final (some ino)) where
  inodes := Nat.le_refl _
  names := Nat.le_refl _
  maker _ _ := rfl
  content _ _ _ := rfl
  temp _ _ := .inl (entries_enter_of_ne s (some ino) nofun)
  unnamed i _ hmine h := by
    have hnew : ino = i := Option.some.inj h
    rw [← hnew, hmaker] at hmine
    exact absurd (Option.some.inj hmine).symm hid
  key i h _ := by
    rw [hfree] at h
    exact nomatch h
  linked _ i h := by
    rw [hfree] at h
    exact nomatch h

/-! ### Acting by name -/

def ReadsByName : Op → Fs × Process → Prop
  | .read ino, (s, _) => s.entries .final = some ino
  | _, _ => True

/-- The recovery removes what it has read. -/
def ReapsByName : Op → Fs × Process → Prop
  | .unlink .final, (s, p) =>
      (s.entries .final).all fun i => p.seen = some (i, (s.inodes i).content)
  | _, _ => True

def ByName (op : Op) (x : Fs × Process) : Prop := ReadsByName op x ∧ ReapsByName op x

instance (op : Op) (x : Fs × Process) : Decidable (ReadsByName op x) := by
  unfold ReadsByName
  split <;> infer_instance

instance (op : Op) (x : Fs × Process) : Decidable (ReapsByName op x) := by
  unfold ReapsByName
  split <;> infer_instance

instance (op : Op) (x : Fs × Process) : Decidable (ByName op x) :=
  inferInstanceAs (Decidable (_ ∧ _))

def Allowed (hardlinks : Bool) (op : Op) (_ : Choice) (x : Fs × Process) : Prop :=
  hardlinks = false → ByName op x

def pact (F : Fernet) (hardlinks : Bool) : Pact Fs where
  Inv := Fs.Sound
  Rely := Kept F hardlinks
  refl := Kept.refl
  trans _ _ _ _ := Kept.trans

abbrev View := Sight Fs Process

/-- What a part of the program may be relied on for. -/
abbrev Does {A : Type} (F : Fernet) (hardlinks : Bool) (pid : Nat) (v : View) (x : Step A)
    (Q : A → View → Prop) (E : View → Prop) : Prop :=
  SpecAmong (exec F hardlinks) (Allowed hardlinks) (pact F hardlinks) pid () v x
    (fun a _ v' => Q a v') (fun _ _ v' => E v')

/-- A part that leaves everything as its own process relies on it. -/
abbrev Quietly {A : Type} (F : Fernet) (hardlinks : Bool) (pid : Nat) (v : View) (x : Step A)
    (Q : A → View → Prop) : Prop :=
  Does F hardlinks pid v x (fun a v' => Kept F hardlinks pid v.left v'.left ∧ Q a v')
    fun v' => Kept F hardlinks pid v.left v'.left

section Rules

variable {pid : Nat} {v : View} {A B : Type} {x : Step A} {f : A → Step B}
  {Q : A → View → Prop} {R : B → View → Prop} {E : View → Prop} {S : B → View → Prop}

theorem Quietly.pure {a : A} (h : Q a v) : Quietly F hardlinks pid v (Pure.pure a) Q :=
  Spec.pure ⟨.refl pid v.left, h⟩

theorem Quietly.raise {e : KeyError} : Quietly F hardlinks pid v (Run.raise e) Q :=
  Spec.raise (.refl pid v.left)

theorem Quietly.bind (hx : Quietly F hardlinks pid v x Q)
    (hf : ∀ a v', Kept F hardlinks pid v.left v'.left → Q a v' →
      Quietly F hardlinks pid v' (f a) R) : Quietly F hardlinks pid v (x >>= f) R := by
  refine Spec.bind hx ?_
  intro a _ v' hQ
  refine .mono (hf a v' hQ.1 hQ.2) ?_ ?_
  · exact fun b _ v'' hR => ⟨hQ.1.trans hR.1, hR.2⟩
  · exact fun _ _ v'' hE => hQ.1.trans hE

theorem Quietly.discard (hx : Quietly F hardlinks pid v x fun _ _ => True) :
    Quietly F hardlinks pid v (Functor.discard x) fun _ _ => True :=
  Spec.discard hx

theorem Quietly.orRaise {r : Except OsError A} (h : ∀ a, r = .ok a → Q a v) :
    Quietly F hardlinks pid v (SecretKey.orRaise r) Q := by
  cases r with
  | ok a => exact .pure (h a rfl)
  | error e => exact .raise

theorem Quietly.andFinally {last : Step Unit} (hx : Quietly F hardlinks pid v x Q)
    (hstable : ∀ a v' v'', Kept F hardlinks pid v'.left v''.left → Q a v' → Q a v'')
    (hlast : ∀ v', Quietly F hardlinks pid v' last fun _ _ => True) :
    Quietly F hardlinks pid v (Run.andFinally x last) Q := by
  refine Spec.andFinally hx ?_ ?_
  · intro a _ v' hQ
    refine .mono (hlast v') ?_ ?_
    · exact fun _ _ v'' h => ⟨hQ.1.trans h.1, hstable a v' v'' h.1 hQ.2⟩
    · exact fun _ _ v'' h => hQ.1.trans h
  · intro _ _ v' hE
    refine .mono (hlast v') ?_ ?_
    · exact fun _ _ v'' h => hE.trans h.1
    · exact fun _ _ v'' h => hE.trans h

theorem Does.bind (hx : Does F hardlinks pid v x Q E)
    (hf : ∀ a v', Q a v' → Does F hardlinks pid v' (f a) S E) :
    Does F hardlinks pid v (x >>= f) S E :=
  Spec.bind hx fun a _ v' hQ => hf a v' hQ

theorem Quietly.seq (hx : Quietly F hardlinks pid v x Q)
    (hf : ∀ a v', Kept F hardlinks pid v.left v'.left → Q a v' →
      Does F hardlinks pid v' (f a) S fun _ => True) :
    Does F hardlinks pid v (x >>= f) S fun _ => True :=
  .seq hx (fun _ _ _ _ => trivial) fun a _ v' hQ => hf a v' hQ.1 hQ.2

theorem Quietly.does {S : A → View → Prop} (hx : Quietly F hardlinks pid v x Q)
    (h : ∀ a v', Kept F hardlinks pid v.left v'.left → Q a v' → S a v') (hE : ∀ v', E v') :
    Does F hardlinks pid v x S E :=
  .mono hx (fun a _ v' hQ => h a v' hQ.1 hQ.2) fun _ _ v' _ => hE v'

theorem quietly_perform {S : op.Answer → View → Prop}
    (h : ∀ s c a s' own, s.Sound → Kept F hardlinks pid v.left s →
      Allowed hardlinks op c (s, v.own) → exec F hardlinks pid op c (s, v.own) = some (a, s', own) →
      (s'.Sound ∧ ∀ id, Kept F hardlinks id s s') ∧ S a ⟨own, s', s⟩) :
    Quietly F hardlinks pid v (Run.perform op) S := by
  refine .operate ?_
  intro s c a s' own hs hkept hmay hexec
  rcases h s c a s' own hs hkept hmay hexec with ⟨⟨hs', hmove⟩, hS⟩
  exact ⟨hs', fun id _ => hmove id, .trans hkept (hmove pid), hS⟩

theorem quietly_gentle (hop : op.Gentle) {S : op.Answer → View → Prop}
    (h : ∀ s c a s' own, s.Sound → Kept F hardlinks pid v.left s →
      Allowed hardlinks op c (s, v.own) → exec F hardlinks pid op c (s, v.own) = some (a, s', own) →
      S a ⟨own, s', s⟩) : Quietly F hardlinks pid v (Run.perform op) S := by
  refine quietly_perform ?_
  intro s c a s' own hs hkept hmay hexec
  exact ⟨kept_of_gentle hop hs hexec, h s c a s' own hs hkept hmay hexec⟩

theorem quietly_gentle_true (hop : op.Gentle) :
    Quietly F hardlinks pid v (Run.perform op) fun _ _ => True :=
  quietly_gentle hop fun _ _ _ _ _ _ _ _ _ => trivial

end Rules

/-! ### Reading -/

section Reading

variable {pid : Nat} {v : View}

theorem spec_openFile : Quietly F hardlinks pid v (openFile .final) fun r v' =>
    ∀ ino, r = .ok ino → v'.left.entries .final = some ino := by
  have hop : Op.Gentle (.openFile .final) := trivial
  refine quietly_gentle hop ?_
  intro s c a s' own _ _ _ hexec ino hino
  subst hino
  simp only [exec] at hexec
  split at hexec
  · cases hexec
  split at hexec
  · cases hexec
  cases hexec
  assumption

theorem spec_readFile (hname : v.left.entries .final = some ino) :
    Quietly F hardlinks pid v (readFile ino) fun r v' => ∀ raw, r = .ok raw →
      v'.left.entries .final = some ino ∧ (v'.left.inodes ino).content = raw ∧
        v'.own.seen = some (ino, raw) := by
  have hop : Op.Gentle (.read ino) := trivial
  refine quietly_gentle hop ?_
  intro s c a s' own _ hkept hmay hexec raw hraw
  subst hraw
  have hstill : s.entries .final = some ino := by
    cases hardlinks with
    | true => exact hkept.linked rfl ino hname
    | false => exact (hmay rfl).1
  simp only [exec] at hexec
  split at hexec
  · cases hexec
  cases hexec
  exact ⟨hstill, rfl, rfl⟩

theorem spec_readValidKeyOnce : Quietly F hardlinks pid v (readValidKeyOnce F) fun r v' =>
    ∀ key, r = some key → keyHeld F v'.left = some key := by
  refine .bind spec_openFile ?_
  intro r v₁ _ hopen
  cases r with
  | error e =>
    cases e with
    | missing => exact .pure nofun
    | taken | unsupported | other => exact .raise
  | ok ino =>
    refine .bind (spec_readFile (hopen ino rfl)) ?_
    intro r v₂ _ hread
    refine .bind (.orRaise (Q := fun raw v' =>
      v'.left.entries .final = some ino ∧ (v'.left.inodes ino).content = raw) ?_) ?_
    · exact fun raw hraw => ⟨(hread raw hraw).1, (hread raw hraw).2.1⟩
    · intro raw v₃ _ hraw
      refine .pure ?_
      intro key hkey
      by_cases hval : isValidFernetKey F raw = true
      · rw [if_pos hval] at hkey
        rw [← hraw.2] at hval hkey
        rw [keyHeld_eq hraw.1 hval]
        exact hkey
      · rw [if_neg hval] at hkey
        exact nomatch hkey

theorem spec_readValidKeyWithin (n : Nat) :
    Quietly F hardlinks pid v (readValidKeyWithin F n) fun r v' =>
      ∀ key, r = some key → keyHeld F v'.left = some key := by
  induction n generalizing v with
  | zero => exact .pure nofun
  | succ n ih =>
    refine .bind spec_readValidKeyOnce ?_
    intro r v₁ _ hread
    cases r with
    | none => exact ih
    | some key => exact .pure hread

theorem spec_readValidKey : Quietly F hardlinks pid v (readValidKey F) fun r v' =>
    ∀ key, r = some key → keyHeld F v'.left = some key :=
  spec_readValidKeyWithin _

theorem spec_adoptKey : Quietly F hardlinks pid v (adoptKey F) fun key v' =>
    keyHeld F v'.left = some key := by
  refine .bind spec_readValidKey ?_
  intro r v₁ _ hread
  cases r with
  | none => exact .raise
  | some key => exact .pure (hread key rfl)

end Reading

/-! ### Clearing away -/

section Clearing

variable {pid : Nat} {v : View}

theorem spec_reapKeyTempfile (now : Int) (n : Nat) :
    Quietly F hardlinks pid v (reapKeyTempfile now n) fun _ _ => True := by
  refine .bind (quietly_gentle_true trivial) ?_
  intro r v₁ _ _
  cases r with
  | error e => exact .pure trivial
  | ok mtime =>
    change Quietly F hardlinks pid v₁ (if now - mtime ≤ staleKeyTempfileSeconds then _ else _) _
    split
    · exact .pure trivial
    · exact .discard (quietly_gentle_true trivial)

theorem spec_reapStaleKeyTempfiles :
    Quietly F hardlinks pid v reapStaleKeyTempfiles fun _ _ => True := by
  refine .bind (quietly_gentle_true trivial) ?_
  intro now v₁ _ _
  refine .bind (quietly_gentle_true trivial) ?_
  intro r v₂ _ _
  cases r with
  | error e => exact .pure trivial
  | ok candidates =>
    refine .post (.forM
      candidates _ (.refl pid v₂.left) ?_) (fun _ _ _ h => ⟨h, trivial⟩)
    intro n _ _ v₃ hkept
    refine .mono (spec_reapKeyTempfile now n) ?_ ?_
    · exact fun _ _ v₄ h => hkept.trans h.1
    · exact fun _ _ v₄ h => hkept.trans h

theorem spec_reapStalePublishLock :
    Quietly F hardlinks pid v reapStalePublishLock fun _ _ => True := by
  refine .bind (quietly_gentle_true trivial) ?_
  intro now v₁ _ _
  refine .bind (quietly_gentle_true trivial) ?_
  intro r v₂ _ _
  cases r with
  | error e => exact .pure trivial
  | ok mtime =>
    change Quietly F hardlinks pid v₂ (if now - mtime ≤ stalePublishLockSeconds then _ else _) _
    split
    · exact .pure trivial
    · exact .discard (quietly_gentle_true trivial)

-- The recovery removes what it has read, and that was no key.
theorem spec_unlinkPartial (hseen : v.own.seen = some (ino, raw))
    (hbrk : isValidFernetKey F raw = false) :
    Quietly F false pid v (unlink .final) fun _ _ => True := by
  refine quietly_perform ?_
  intro s c a s' own hs _ hmay hexec
  refine ⟨?_, trivial⟩
  have hname : (s.entries .final).all fun i => v.own.seen = some (i, (s.inodes i).content) :=
    (hmay rfl).2
  have hread : ∀ i, s.entries .final = some i →
      isValidFernetKey F (s.inodes i).content = false := by
    intro i hi
    rw [hi, Option.all_some, decide_eq_true_eq, hseen] at hname
    have hraw : raw = (s.inodes i).content := congrArg Prod.snd (Option.some.inj hname)
    rw [← hraw]
    exact hbrk
  rcases exec_unlink hexec with rfl | rfl
  · exact ⟨hs, fun id => .refl id s'⟩
  · exact ⟨hs.enter nofun nofun, fun id => .reap hread⟩

theorem spec_reapStalePartialFinal :
    Quietly F false pid v (reapStalePartialFinal F) fun _ _ => True := by
  refine .bind (quietly_gentle_true trivial) ?_
  intro now v₁ _ _
  refine .bind (quietly_gentle_true trivial) ?_
  intro r v₂ _ _
  cases r with
  | error e => exact .pure trivial
  | ok mtime =>
    by_cases hyoung : now - mtime ≤ stalePartialFinalSeconds
    · simp only [if_pos hyoung]
      exact .pure trivial
    simp only [if_neg hyoung]
    refine .bind spec_openFile ?_
    intro r v₃ _ hopen
    cases r with
    | error e => exact .pure trivial
    | ok ino =>
      refine .bind (spec_readFile (hopen ino rfl)) ?_
      intro r v₄ _ hread
      cases r with
      | error e => exact .pure trivial
      | ok raw =>
        by_cases hval : isValidFernetKey F raw = true
        · simp only [if_pos hval]
          exact .pure trivial
        · simp only [if_neg hval]
          have hseen := (hread raw rfl).2.2
          exact .discard (spec_unlinkPartial hseen (Bool.not_eq_true _ ▸ hval))

end Clearing

/-! ### Writing -/

structure Mine (pid : Nat) (s : Fs) (ino : Nat) (content : Bytes) : Prop where
  made : ino < s.nextInode
  maker : (s.inodes ino).maker = some pid
  content : (s.inodes ino).content = content

theorem Mine.kept (h : Mine pid s ino content)
    (hkept : Kept F hardlinks pid s t) : Mine pid t ino content where
  made := Nat.lt_of_lt_of_le h.made hkept.inodes
  maker := by rw [hkept.maker ino h.made, h.maker]
  content := by rw [hkept.content ino h.made h.maker, h.content]

theorem Mine.append (h : Mine pid s ino content)
    (bytes : Bytes) : Mine pid (s.append ino bytes) ino (content ++ bytes) where
  made := h.made
  maker := by
    change (if ino = ino then _ else _ : Inode).maker = _
    rw [if_pos rfl]
    exact h.maker
  content := by
    change (if ino = ino then _ else _ : Inode).content = _
    rw [if_pos rfl]
    exact congrArg (· ++ bytes) h.content

/-- A temporary name that a process has drawn, which leads to its file or nowhere. -/
def Drawn (s : Fs) (tmp ino : Nat) : Prop :=
  tmp < s.nextTemp ∧ (s.entries (.temp tmp) = some ino ∨ s.entries (.temp tmp) = none)

theorem Drawn.kept (h : Drawn s tmp ino) (hkept : Kept F hardlinks pid s t) : Drawn t tmp ino := by
  refine ⟨Nat.lt_of_lt_of_le h.1 hkept.names, ?_⟩
  rcases hkept.temp tmp h.1 with hsame | hnone
  · rw [hsame]
    exact h.2
  · exact .inr hnone

section Writing

variable {pid ino : Nat} {key : Bytes} {T : Fs → Prop} {v : View}

variable (hlength : key.length = fernetKeyLength)
  (hkept : ∀ s t, T s → Kept F hardlinks pid s t → T t)
  (happend : ∀ s bytes, T s → T (s.append ino bytes))
include hlength hkept happend

theorem spec_write {done rest : Bytes} (hkey : done ++ rest = key) (hrest : 0 < rest.length)
    (hmine : Mine pid v.left ino done) (hT : T v.left) :
    Does F hardlinks pid v (write ino rest) (fun r v' => ∀ n, r = .ok n →
      0 < n ∧ Mine pid v'.left ino (done ++ rest.take n) ∧ T v'.left) fun _ => True := by
  refine .operate ?_
  intro s c a s' own hs hrely _ hexec
  have hnow := hmine.kept hrely
  have hTnow := hkept v.left s hT hrely
  -- A proper part of a key is too short for one.
  have hbrk : isValidFernetKey F (s.inodes ino).content = false := by
    refine not_valid_of_short ?_
    have hsum : done.length + rest.length = key.length := by rw [← hkey, List.length_append]
    rw [hnow.content]
    omega
  simp only [exec] at hexec
  split at hexec
  · cases hexec
    exact ⟨hs, fun id _ => .refl id s, nofun⟩
  split at hexec
  · rename_i hwrit
    cases hexec
    refine ⟨hs.of_eq rfl rfl rfl, fun id hid => .append hnow.maker hbrk hid, ?_⟩
    rintro n hn
    cases hn
    exact ⟨hwrit.1, hnow.append _, happend s _ hTnow⟩
  · exact nomatch hexec

theorem spec_writeAll (n : Nat) {done rest : Bytes}
    (hkey : done ++ rest = key) (hmine : Mine pid v.left ino done) (hT : T v.left) :
    Does F hardlinks pid v (writeAll ino n rest)
      (fun _ v' => Mine pid v'.left ino key ∧ T v'.left) fun _ => True := by
  induction n generalizing done rest v with
  | zero =>
    cases rest with
    | nil =>
      rw [List.append_nil] at hkey
      exact .pure ⟨hkey ▸ hmine, hT⟩
    | cons b rest => exact .raise trivial
  | succ n ih =>
    cases rest with
    | nil =>
      rw [List.append_nil] at hkey
      exact .pure ⟨hkey ▸ hmine, hT⟩
    | cons b rest =>
      refine Does.bind (spec_write hlength hkept happend hkey (Nat.succ_pos _) hmine hT) ?_
      intro r v₁ hwr
      cases r with
      | error e => exact .raise trivial
      | ok written =>
        rcases hwr written rfl with ⟨-, hmine₁, hT₁⟩
        have hspl : done ++ (b :: rest).take written ++ (b :: rest).drop written = key := by
          rw [List.append_assoc, List.take_append_drop, hkey]
        exact ih hspl hmine₁ hT₁

theorem spec_writeKey (hmine : Mine pid v.left ino []) (hT : T v.left) :
    Does F hardlinks pid v (writeKey ino key)
      (fun _ v' => Mine pid v'.left ino key ∧ T v'.left) fun _ => True := by
  have hfsync : Op.Gentle (.fsync ino) := trivial
  have hclose : Op.Gentle (.close ino) := trivial
  have haft : ∀ (op : Op) (hop : op.Gentle) (answer : op.Answer → Except OsError Unit) (v : View),
      Quietly F hardlinks pid v (.perform op >>= fun a => orRaise (answer a))
        fun _ _ => True := by
    intro op hop answer v
    refine .bind (quietly_gentle_true hop) ?_
    exact fun a _ _ _ => .orRaise fun _ _ => trivial
  refine .andFinally (R := fun _ _ v' => Mine pid v'.left ino key ∧ T v'.left)
    (F := fun _ _ _ => True) ?_ ?_ ?_
  · refine Does.bind (spec_writeAll hlength hkept happend _ (List.nil_append key) hmine hT) ?_
    intro _ v₁ hwrit
    refine Quietly.does (haft _ hfsync id v₁) ?_ fun _ => trivial
    exact fun _ v₂ hrely _ => ⟨hwrit.1.kept hrely, hkept _ _ hwrit.2 hrely⟩
  · intro _ _ v₁ hwrit
    refine Quietly.does (haft _ hclose id v₁) ?_ fun _ => trivial
    exact fun _ v₂ hrely _ => ⟨hwrit.1.kept hrely, hkept _ _ hwrit.2 hrely⟩
  · intro _ _ v₁ _
    exact Quietly.does (haft _ hclose id v₁) (fun _ _ _ _ => trivial) fun _ => trivial

end Writing

/-! ### Publishing -/

section Publishing

variable {pid : Nat} {key : Bytes} {v : View} {ino : Nat}

/-- A part that gives what the file holds, and may raise anything. -/
abbrev Publishes (F : Fernet) (hardlinks : Bool) (pid : Nat) (v : View) (x : Step Bytes) : Prop :=
  Does F hardlinks pid v x (fun key v' => keyHeld F v'.left = some key) fun _ => True

theorem spec_createExclusive : Quietly F hardlinks pid v createExclusive fun r v' =>
    ∀ ino, r = .ok ino → Mine pid v'.left ino [] := by
  have hop : Op.Gentle .createExclusive := trivial
  refine quietly_gentle hop ?_
  intro s c a s' own _ _ _ hexec ino hino
  subst hino
  simp only [exec] at hexec
  split at hexec
  · cases hexec
  split at hexec
  · cases hexec
  cases hexec
  have hnew : ∀ field : Inode → Option Nat, field ((s.create pid .final).inodes s.nextInode) =
        field { content := [], mtime := s.now, maker := some pid } :=
    fun field => congrArg field (if_pos rfl)
  refine ⟨Nat.lt_succ_self _, hnew Inode.maker, ?_⟩
  exact congrArg Inode.content (if_pos rfl)

theorem spec_commitKeyExclusive (hmint : F.Mints key) :
    Does F hardlinks pid v (commitKeyExclusive key) (fun _ _ => True) fun _ => True := by
  refine Quietly.seq spec_createExclusive ?_
  intro r v₁ _ hcre
  cases r with
  | error e =>
    cases e with
    | taken => exact .pure trivial
    | missing | unsupported | other => exact .raise trivial
  | ok ino =>
    refine Does.bind (spec_writeKey hmint.1 (fun _ _ _ _ => trivial)
      (fun _ _ _ => trivial) (hcre ino rfl) trivial) ?_
    exact fun _ _ _ => .pure trivial

theorem spec_commitUnderLock (hmint : F.Mints key) :
    Does F false pid v
      (Run.andFinally (do reapStalePartialFinal F; discard (commitKeyExclusive key))
        (discard rmdirLock)) (fun _ _ => True) fun _ => True := by
  have hlast : ∀ v', Does F false pid v' (discard rmdirLock) (fun _ _ => True) fun _ => True :=
    fun v' => Quietly.does (.discard (quietly_gentle_true trivial))
      (fun _ _ _ _ => trivial) fun _ => trivial
  refine .andFinally (R := fun _ _ _ => True) (F := fun _ _ _ => True) ?_
    (fun _ _ v' _ => hlast v') fun _ _ v' _ => hlast v'
  refine Quietly.seq spec_reapStalePartialFinal ?_
  intro _ v₁ _ _
  exact .discard (spec_commitKeyExclusive hmint)

theorem spec_publishRounds (hmint : F.Mints key) (deadline : Int) (n : Nat) :
    Publishes F false pid v (publishRounds F key deadline n) := by
  induction n generalizing v with
  | zero => exact .raise trivial
  | succ n ih =>
    have hagain : ∀ (e : KeyError) (v' : View), Publishes F false pid v' (do
        let now ← clock
        if deadline ≤ now then .raise e else publishRounds F key deadline n) := by
      intro e v'
      refine Quietly.seq (quietly_gentle_true trivial) ?_
      intro now v'' _ _
      by_cases hlate : deadline ≤ now
      · simp only [if_pos hlate]
        exact .raise trivial
      · simp only [if_neg hlate]
        exact ih
    refine Quietly.seq spec_readValidKeyOnce ?_
    intro r v₁ _ hread
    cases r with
    | some existing => exact .pure (hread existing rfl)
    | none =>
      refine Quietly.seq (quietly_gentle_true trivial) ?_
      intro r v₂ _ _
      cases r with
      | error e =>
        cases e with
        | missing | unsupported | other => exact .raise trivial
        | taken =>
          refine Quietly.seq spec_readValidKey ?_
          intro r v₃ _ hadopt
          cases r with
          | some adopted => exact .pure (hadopt adopted rfl)
          | none =>
            refine Quietly.seq spec_reapStalePublishLock ?_
            exact fun _ v₄ _ _ => hagain .unbreakablePublishLock v₄
      | ok _ =>
        refine Does.bind (spec_commitUnderLock hmint) ?_
        intro _ v₃ _
        refine Quietly.seq spec_readValidKey ?_
        intro r v₄ _ hcom
        cases r with
        | some committed => exact .pure (hcom committed rfl)
        | none => exact hagain .corruptKey v₄

/-! ### Hard links -/

-- Only a file system without hard links says so.
theorem spec_probeHardlinkCapability (tmp : Nat) :
    Quietly F hardlinks pid v (probeHardlinkCapability tmp) fun capable _ =>
      capable = false → hardlinks = false := by
  have hlink : Op.Gentle (.link tmp (.probe tmp)) := trivial
  refine .bind (Q := fun r _ => r = .error .unsupported → hardlinks = false)
    (quietly_gentle hlink ?_) ?_
  · intro s c a s' own _ _ _ hexec hunsup
    rcases exec_link hexec with ⟨-, -, -, hno⟩ | ⟨i, -, -, -, hok, -⟩
    · exact hno hunsup
    · exact nomatch hok.symm.trans hunsup
  · intro r v₁ _ hprobe
    cases r with
    | error e =>
      cases e with
      | unsupported => exact .pure fun _ => hprobe rfl
      | taken | missing | other => exact .raise
    | ok _ =>
      refine .bind (.discard (quietly_gentle_true trivial)) ?_
      exact fun _ v₂ _ _ => .pure nofun

theorem spec_acquirePublishLock (deadline : Int) (n : Nat) :
    Quietly F hardlinks pid v (acquirePublishLock F deadline n) fun r v' =>
      ∀ key, r = some key → keyHeld F v'.left = some key := by
  induction n generalizing v with
  | zero => exact .raise
  | succ n ih =>
    refine .bind (quietly_gentle_true trivial) ?_
    intro r v₁ _ _
    cases r with
    | ok _ => exact .pure nofun
    | error e =>
      cases e with
      | missing | unsupported | other => exact .raise
      | taken =>
        refine .bind spec_readValidKey ?_
        intro r v₂ _ hadopt
        cases r with
        | some adopted => exact .pure hadopt
        | none =>
          refine .bind spec_reapStalePublishLock ?_
          intro _ v₃ _ _
          refine .bind (quietly_gentle_true trivial) ?_
          intro now v₄ _ _
          by_cases hlate : deadline ≤ now
          · simp only [if_pos hlate]
            exact .raise
          · simp only [if_neg hlate]
            exact ih

theorem spec_recoverUnderLock (tmp : Nat) :
    Quietly F hardlinks pid v (recoverUnderLock F tmp) fun r v' =>
      ∀ key, r = some key → keyHeld F v'.left = some key := by
  refine .bind (spec_probeHardlinkCapability tmp) ?_
  intro capable v₁ _ hprobe
  cases capable with
  | true =>
    refine .bind spec_adoptKey ?_
    intro existing v₂ _ hadopt
    refine .pure ?_
    rintro _ ⟨⟩
    exact hadopt
  | false =>
    obtain rfl := hprobe rfl
    refine .bind spec_reapStalePartialFinal ?_
    exact fun _ v₂ _ _ => .pure nofun

/-- The whole key is in a file that the temporary name leads to. -/
def Ready (pid tmp ino : Nat) (key : Bytes) (s : Fs) : Prop :=
  Mine pid s ino key ∧ Drawn s tmp ino

theorem Ready.kept (h : Ready pid tmp ino key s)
    (hkept : Kept F hardlinks pid s t) : Ready pid tmp ino key t :=
  ⟨h.1.kept hkept, h.2.kept hkept⟩

theorem spec_link (hmint : F.Mints key) (hrdy : Ready pid tmp ino key v.left) :
    Does F hardlinks pid v (link tmp .final) (fun r v' =>
      (r = .ok () → keyHeld F v'.left = some key) ∧
      (r = .error .unsupported → hardlinks = false) ∧
      ((∃ e, r = .error e) → Ready pid tmp ino key v'.left)) fun _ => True := by
  refine .operate ?_
  intro s c a s' own hs hrely _ hexec
  have hnow := hrdy.kept hrely
  rcases exec_link hexec with ⟨⟨e, rfl⟩, rfl, -, hno⟩ | ⟨i, hi, hnone, -, rfl, rfl, -⟩
  · exact ⟨hs, fun id _ => .refl id s', nofun, hno, fun _ => hnow⟩
  obtain rfl : i = ino := by
    rcases hnow.2.2 with hsame | hgone
    · exact Option.some.inj (hi.symm.trans hsame)
    · exact nomatch hi.symm.trans hgone
  refine ⟨hs.enter ?_ nofun, fun id hid => .link hnow.1.maker hnone hid, fun _ => ?_, nofun, nofun⟩
  · rintro _ ⟨⟩
    exact hs.entries _ i hi
  · have hname : (s.enter .final (some i)).entries .final = some i :=
      entries_enter_self s .final (some i)
    have hbyte : ((s.enter .final (some i)).inodes i).content = key := hnow.1.content
    rw [keyHeld_eq hname (by rw [hbyte]; exact valid_minted hmint), hbyte,
      strip_minted hmint]

theorem spec_linkKey {taken : Step Bytes} (hmint : F.Mints key)
    (hrdy : Ready pid tmp ino key v.left)
    (htaken : ∀ v' : View, Ready pid tmp ino key v'.left → Publishes F hardlinks pid v' taken) :
    Publishes F hardlinks pid v (linkKey F rounds tmp key taken) := by
  refine Does.bind (spec_link hmint hrdy) ?_
  intro r v₁ hlink
  cases r with
  | ok _ => exact .pure (hlink.1 rfl)
  | error e =>
    cases e with
    | taken => exact htaken v₁ (hlink.2.2 ⟨_, rfl⟩)
    | unsupported =>
      obtain rfl := hlink.2.1 rfl
      refine Quietly.seq (quietly_gentle_true trivial) ?_
      exact fun start v₁ _ _ => spec_publishRounds hmint _ rounds
    | missing | other => exact .raise trivial

theorem publishes_adoptKey : Publishes F hardlinks pid v (adoptKey F) :=
  Quietly.does spec_adoptKey (fun _ _ _ h => h) fun _ => trivial

theorem spec_recoverInvalidFinal (hmint : F.Mints key) (hrdy : Ready pid tmp ino key v.left) :
    Publishes F hardlinks pid v (recoverInvalidFinalAfterLinkExists F rounds tmp key) := by
  refine Quietly.seq (quietly_gentle_true trivial) ?_
  intro start v₁ hrely₁ _
  refine Quietly.seq (spec_acquirePublishLock _ rounds) ?_
  intro r v₂ hrely₂ hacquire
  cases r with
  | some adopted => exact .pure (hacquire adopted rfl)
  | none =>
    refine Quietly.seq (.andFinally (spec_recoverUnderLock tmp) ?_ ?_) ?_
    · exact fun _ _ _ hrely hheld key hkey => hrely.keyHeld (hheld key hkey)
    · exact fun _ => .discard (quietly_gentle_true trivial)
    · intro r v₃ hrely₃ hrecover
      cases r with
      | some existing => exact .pure (hrecover existing rfl)
      | none =>
        have hrdy₃ := ((hrdy.kept hrely₁).kept hrely₂).kept hrely₃
        exact spec_linkKey hmint hrdy₃ fun _ _ => publishes_adoptKey

theorem spec_publishKeyFile (hmint : F.Mints key) (hmine : Mine pid v.left ino [])
    (hdrawn : Drawn v.left tmp ino) :
    Publishes F hardlinks pid v (publishKeyFile F rounds tmp ino key) := by
  refine Does.bind (spec_writeKey (T := fun s => Drawn s tmp ino) hmint.1
    (fun _ _ hT hkept => hT.kept hkept) (fun _ _ hT => hT) hmine hdrawn) ?_
  intro _ v₁ hwrit
  refine spec_linkKey hmint hwrit ?_
  intro v₂ hrdy₂
  refine Quietly.seq spec_readValidKey ?_
  intro r v₃ hrely hread
  cases r with
  | some existing => exact .pure (hread existing rfl)
  | none => exact spec_recoverInvalidFinal hmint (hrdy₂.kept hrely)

theorem spec_mkstemp : Quietly F hardlinks pid v mkstemp fun r v' =>
    ∀ p, r = .ok p → Mine pid v'.left p.2 [] ∧ Drawn v'.left p.1 p.2 := by
  have hop : Op.Gentle .mkstemp := trivial
  refine quietly_gentle hop ?_
  intro s c a s' own _ _ _ hexec p hp
  subst hp
  simp only [exec] at hexec
  split at hexec
  · cases hexec
  cases hexec
  refine ⟨⟨Nat.lt_succ_self _, ?_, ?_⟩, Nat.lt_succ_self _, .inl ?_⟩
  · exact congrArg Inode.maker (if_pos rfl)
  · exact congrArg Inode.content (if_pos rfl)
  · exact entries_enter_self s (.temp s.nextTemp) (some s.nextInode)

theorem spec_generateKey : Quietly F hardlinks pid v generateKey fun key _ => F.Mints key := by
  have hop : Op.Gentle .generateKey := trivial
  refine quietly_gentle hop ?_
  intro s c a s' own _ _ _ hexec
  simp only [exec] at hexec
  split at hexec
  · cases hexec
    assumption
  · exact nomatch hexec

theorem spec_generateKeyFile (rounds : Nat) :
    Publishes F hardlinks pid v (generateKeyFile F rounds) := by
  refine Quietly.seq spec_generateKey ?_
  intro key v₁ _ hmint
  refine Quietly.seq (quietly_gentle_true trivial) ?_
  intro r v₂ _ _
  refine Quietly.seq (.orRaise (Q := fun _ _ => True) fun _ _ => trivial) ?_
  intro _ v₃ _ _
  refine Quietly.seq spec_reapStaleKeyTempfiles ?_
  intro _ v₄ _ _
  refine Quietly.seq spec_mkstemp ?_
  intro r v₅ _ hmade
  refine Quietly.seq (.orRaise (Q := fun p v' =>
    Mine pid v'.left p.2 [] ∧ Drawn v'.left p.1 p.2) fun p hp => hmade p hp) ?_
  rintro ⟨tmp, ino⟩ v₆ _ ⟨hmine, hdrawn⟩
  have hlast : ∀ v', Quietly F hardlinks pid v' (discard (unlink (.temp tmp))) fun _ _ => True :=
    fun v' => .discard (quietly_gentle_true trivial)
  refine .andFinally (spec_publishKeyFile hmint hmine hdrawn) ?_ ?_
  · intro _ _ v₇ hheld
    exact Quietly.does (hlast v₇) (fun _ _ hrely _ => hrely.keyHeld hheld) fun _ => trivial
  · intro _ _ v₇ _
    exact Quietly.does (hlast v₇) (fun _ _ _ _ => trivial) fun _ => trivial

theorem spec_ensureSecretKey (rounds : Nat) :
    Publishes F hardlinks pid v (ensureSecretKey F rounds) := by
  refine Quietly.seq spec_readValidKeyOnce ?_
  intro r v₁ _ hread
  cases r with
  | some existing => exact .pure (hread existing rfl)
  | none => exact spec_generateKeyFile rounds

end Publishing

/-! ### All processes -/

/-- The operation that a step carries out is as a condition asks. -/
def Acts (P : Op → Fs × Process → Prop) (w : World) : Action → Prop
  | .act i _ => match w.actors[i]? with
    | none => True
    | some t => match t.upcoming with
      | none => True
      | some op => P op (w.shared, t.own)
  | .arrive _ _ | .tick _ => True

instance (P : Op → Fs × Process → Prop) [∀ op x, Decidable (P op x)] (w : World) (a : Action) :
    Decidable (Acts P w a) := by
  unfold Acts
  split
  · split
    · infer_instance
    · split <;> infer_instance
  · infer_instance
  · infer_instance

abbrev ActsByName (w : World) (a : Action) : Prop := Acts ByName w a

abbrev asserted (F : Fernet) (hardlinks : Bool) : Outline Fs Call :=
  (pact F hardlinks).outline (exec F hardlinks) (fun _ => Allowed hardlinks)
    fun _ r v => ∀ key, r.1 = .ok key → keyHeld F v.left = some key

theorem permits_of_actsByName {w : World} {i : Nat}
    (hname : hardlinks = false → ActsByName w (.act i c)) (t : Call) (ht : w.actors[i]? = some t) :
    t.Permits (fun _ => Allowed hardlinks) w.shared c := by
  intro op hop hno
  have hacts := hname hno
  unfold ActsByName Acts at hacts
  simp only [ht, hop] at hacts
  exact hacts

-- A step keeps what is asserted, and is as one more process would rely on.
theorem holds_step {w w' : World} {a : Action} (h : (asserted F hardlinks).Holds w)
    (hname : hardlinks = false → ActsByName w a) (hstep : step F hardlinks w a = some w') :
    (asserted F hardlinks).Holds w' ∧ ∃ pid, Kept F hardlinks pid w.shared w'.shared := by
  cases a with
  | arrive pid rounds =>
    simp only [step] at hstep
    split at hstep
    · exact nomatch hstep
    rename_i hnobody
    cases hstep
    refine ⟨?_, pid, .refl pid w.shared⟩
    refine Pact.joins h ?_ ?_
    · intro u hu heq
      exact hnobody (List.any_eq_true.mpr ⟨u, hu, decide_eq_true heq⟩)
    · refine Safe.mono _ _ (spec_ensureSecretKey rounds) ?_
      rintro ⟨r, _⟩ v' hend key hkey
      subst hkey
      exact hend
  | act i c =>
    have hperm := permits_of_actsByName hname
    refine ⟨Pact.sound.act h hperm hstep, ?_⟩
    rcases Pact.moves h hperm hstep with ⟨t, -, hmove⟩
    exact ⟨t.id + 1, hmove (t.id + 1) (Nat.succ_ne_self _)⟩
  | tick seconds =>
    cases hstep
    have hkept : ∀ pid, Kept F hardlinks pid w.shared
        { w.shared with now := w.shared.now + seconds } := fun pid => .of_eq rfl rfl rfl rfl
    exact ⟨Pact.event h (h.shared.of_eq rfl rfl rfl) hkept, 0, hkept 0⟩

def World.initial (s : Fs) : World := { shared := s, actors := [] }

theorem holds_initial (h : s.Sound) : (asserted F hardlinks).Holds (World.initial s) where
  shared := h
  locals _ ht := nomatch ht
  apart := List.Pairwise.nil
  account := rfl

/-- In every run whose processes act by name, which nothing is asked of where there are
    hard links, all calls return the key that the file holds. No step takes the name from
    a file that holds a key, nor writes to it, and with hard links none takes it from any
    file. -/
theorem first_key_shared (F : Fernet) (hardlinks : Bool) (s : Fs) (as : List Action) (w : World)
    (hsound : s.Sound)
    (hname : hardlinks = false → Transition.StepsMeet (step F hardlinks) ActsByName (.initial s) as)
    (hrun : Transition.run (step F hardlinks) (.initial s) as = some w) :
    (∀ t ∈ w.actors, ∀ key, keyReturned t = some key → keyHeld F w.shared = some key) ∧
      ∀ a w', step F hardlinks w a = some w' → (hardlinks = false → ActsByName w a) →
        ∀ i, w.shared.entries .final = some i →
          (isValidFernetKey F (w.shared.inodes i).content = true →
            w'.shared.entries .final = some i ∧
              (w'.shared.inodes i).content = (w.shared.inodes i).content) ∧
          (hardlinks = true → w'.shared.entries .final = some i) := by
  -- Without hard links the invariant needs the publishers to act by name.
  have hhold : (asserted F hardlinks).Holds w := by
    cases hardlinks with
    | true =>
      refine Transition.invariant_of_run (fun w a w' h hstep => ?_) _ w as
        (holds_initial hsound) hrun
      exact (holds_step h nofun hstep).1
    | false =>
      refine Transition.invariant_of_meeting_run (fun w a w' h hacts hstep => ?_) _ w as
        (holds_initial hsound) (hname rfl) hrun
      exact (holds_step h (fun _ => hacts) hstep).1
  refine ⟨?_, ?_⟩
  · intro t ht key hkey
    unfold keyReturned at hkey
    split at hkey
    · rename_i k u hend
      rcases Pact.ended hhold ht hend with ⟨left, found, hrely, hheld⟩
      obtain rfl := Option.some.inj hkey
      exact hrely.keyHeld (hheld k rfl)
    · exact nomatch hkey
  · intro a w' hstep hacts i hi
    rcases (holds_step hhold hacts hstep).2 with ⟨pid, hkept⟩
    exact ⟨hkept.key i hi, fun hlink => hkept.linked hlink i hi⟩

/-! ### Runs -/

/-- Keys of the right length in the letters of base64. -/
def sampleFernet : Fernet where
  accepts key := key.length == fernetKeyLength &&
    key.all fun b => (65 ≤ b && b ≤ 90) || b == 61

/-- Zeros, but for the first letter. -/
def sampleKey (letter : UInt8) : Bytes := letter :: (List.replicate 42 65 ++ [61])

def advance (i : Nat) (letter : UInt8) (n : Nat) : List Action :=
  List.replicate n (.act i { key := sampleKey letter, written := fernetKeyLength })

/-- A directory in which nothing has a name, or only an old file that is no key. -/
def sampleDirectory (crashed : Bool) : Fs where
  entries name := if crashed && name = .final then some 0 else none
  inodes _ := { content := [], mtime := 0, maker := none }
  lock := none
  nextInode := 1
  nextTemp := 0
  now := 100

theorem sound_sampleDirectory (crashed : Bool) : (sampleDirectory crashed).Sound where
  entries name i h := by
    change (if crashed && name = .final then some 0 else none) = some i at h
    split at h
    · cases h
      exact Nat.zero_lt_one
    · exact nomatch h
  temps n _ := by
    change (if crashed && Name.temp n = .final then some 0 else none) = none
    simp

/-- Two processes find a broken file. One removes it and publishes, and the other adopts
    what it finds. -/
theorem first_key_shared_recovered :
    ∃ w, Transition.run (step sampleFernet false) (.initial (sampleDirectory true))
        ([.arrive 0 5, .arrive 1 5] ++ advance 0 65 118 ++ advance 1 66 51 ++ advance 0 65 200 ++
          advance 1 66 100) = some w ∧
      w.actors.map keyReturned = [some (sampleKey 65), some (sampleKey 65)] ∧
      ∀ t ∈ w.actors, ∀ key, keyReturned t = some key →
        keyHeld sampleFernet w.shared = some key := by
  refine Transition.exists_run_and (by decide +kernel) fun w hw _ => ?_
  exact (first_key_shared sampleFernet false _ _ w (sound_sampleDirectory true)
    (fun _ => by decide +kernel) hw).1

/-- The first process looks at the broken file and is paused before it removes it. The
    second one waits until the lock is old, publishes and returns. The first one goes on,
    removes the key and publishes its own. -/
def pausedReaper : List Action :=
  [.arrive 0 5, .arrive 1 5] ++ advance 0 65 118 ++ [.tick 31] ++ advance 1 66 239 ++
    advance 0 65 239

/-- The first process creates the file and is paused before it writes. The second one
    opens the file and is paused. The third one waits until both the file and the lock are
    old, removes them, publishes and returns. Then the first one writes, and the second one
    reads what was written. -/
def overtakenReader : List Action :=
  [.arrive 0 5] ++ advance 0 65 16 ++ [.arrive 1 5] ++ advance 1 67 1 ++ [.tick 31, .arrive 2 5] ++
    advance 2 66 239 ++ advance 0 65 1 ++ advance 1 67 1

/-- Without hard links two calls may return different keys: where the recovery removes
    something else than it has read, though everything is read by name, and where
    something is read that has lost the name, though the recovery removes what it has
    read. -/
theorem first_key_differs :
    ((sampleDirectory true).Sound ∧
      Transition.StepsMeet (step sampleFernet false) (Acts ReadsByName)
        (.initial (sampleDirectory true)) pausedReaper ∧
      (Transition.run (step sampleFernet false) (.initial (sampleDirectory true)) pausedReaper).map
          (fun w => w.actors.map keyReturned) = some [some (sampleKey 65), some (sampleKey 66)]) ∧
    ((sampleDirectory false).Sound ∧
      Transition.StepsMeet (step sampleFernet false) (Acts ReapsByName)
        (.initial (sampleDirectory false)) overtakenReader ∧
      (Transition.run (step sampleFernet false) (.initial (sampleDirectory false))
        overtakenReader).map (fun w => w.actors.map keyReturned) =
          some [none, some (sampleKey 65), some (sampleKey 66)]) := by
  refine ⟨⟨sound_sampleDirectory true, ?_, ?_⟩, sound_sampleDirectory false, ?_, ?_⟩
  all_goals decide +kernel

end SecretKey

end PlexManager
