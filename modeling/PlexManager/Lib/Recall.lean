import Mathlib.Data.List.Perm.Subperm
import PlexManager.Lib.Program

/-!
# Programs that remember

A program that is served by something that does not change gets the same answer to the
same question, whenever it asks. So another program that keeps the answers may take them
from its memory, and ask for nothing twice. That it ends in the same way, and asks for
nothing that the first one does not ask for, is shown along the construction of both:
`Recalls` is what holds of two parts, and it is kept by sequencing.

What is remembered is a whole answer, of which the other program may use less. So there may be
answers that cannot be remembered and do not stop the other program: with one of these the
program that remembers ends, and it ends well only without.

What two programs in different monads have to do with each other is a `Simulation`. What
is written once for any monad is related to itself as soon as the parts that it uses are.

## Theorems

* `Run.served_bind`: What two parts do, one after another.
* `Simulation.foldlM`: Folds are related as their rounds are.
* `Recalls.bind`, `Denotes.bind`: The rules of sequencing.
-/

namespace Effects

variable {Op : Type} {Ans : Op → Type} {ε σ τ α β γ δ : Type}

/-! ### Service -/

/-- What a program asks for one after another, and what it ends with, if every answer is
    one that may be given. -/
inductive Program.Served (ok : (op : Op) → Ans op → Prop) :
    Program Op Ans α → List Op → α → Prop where
  | ret (a : α) : Served ok (.ret a) [] a
  | call {op : Op} {next : Ans op → Program Op Ans α} (answer : Ans op) {trace : List Op} {a : α}
      (hok : ok op answer) (h : Served ok (next answer) trace a) :
      Served ok (.call op next) (op :: trace) a

/-- What a program asks for, and what it ends with, if it is told what to answer. -/
def Program.serve (answer : (op : Op) → Ans op) : Program Op Ans α → List Op × α
  | .ret a => ([], a)
  | .call op next =>
      (op :: ((next (answer op)).serve answer).1, ((next (answer op)).serve answer).2)

variable {ok : (op : Op) → Ans op → Prop}

theorem Program.served_serve {answer : (op : Op) → Ans op} (hok : ∀ op, ok op (answer op))
    (p : Program Op Ans α) : p.Served ok (p.serve answer).1 (p.serve answer).2 := by
  induction p with
  | ret a => exact Served.ret a
  | call op next ih => exact Served.call (answer op) (hok op) (ih (answer op))

variable {trace : List Op} {R : α → β → Prop} {a : α} {x : Run Op Ans ε σ α} {st : σ} {b : β}
  {r : Except ε β × σ} {q : Except ε α} {d : Except ε β}

theorem Program.served_ret {b : α} :
    (Program.ret a : Program Op Ans α).Served ok trace b ↔ trace = [] ∧ b = a := by
  constructor
  · intro h
    cases h
    exact ⟨rfl, rfl⟩
  · intro h
    rw [h.1, h.2]
    exact Served.ret a

theorem Program.served_call {op : Op} {next : Ans op → Program Op Ans α} :
    (Program.call op next).Served ok trace a ↔
      ∃ answer rest, ok op answer ∧ (next answer).Served ok rest a ∧ trace = op :: rest := by
  constructor
  · intro h
    cases h with
    | call answer hok h => exact ⟨answer, _, hok, h, rfl⟩
  · rintro ⟨answer, rest, hok, h, rfl⟩
    exact Served.call answer hok h

theorem Program.served_bind {p : Program Op Ans α}
    {f : α → Program Op Ans β} : (p.bind f).Served ok trace b ↔
      ∃ before a after, p.Served ok before a ∧ (f a).Served ok after b ∧
        trace = before ++ after := by
  constructor
  · intro h
    induction p generalizing trace with
    | ret a => exact ⟨[], a, trace, Served.ret a, h, rfl⟩
    | call op next ih =>
      rcases served_call.mp h with ⟨answer, rest, hok, hrest, rfl⟩
      rcases ih answer hrest with ⟨before, a, after, hp, hf, rfl⟩
      exact ⟨op :: before, a, after, Served.call answer hok hp, hf, rfl⟩
  · rintro ⟨before, a, after, hp, hf, rfl⟩
    induction hp with
    | ret a => exact hf
    | call answer hok _ ih => exact Served.call answer hok (ih hf)

namespace Run

/-- A run of two parts stops in the first, or goes on with the second. -/
theorem served_bind {f : α → Run Op Ans ε σ β} : Program.Served ok ((x >>= f) st) trace r ↔
      (∃ before a st' after, (x st).Served ok before (.ok a, st') ∧
        (f a st').Served ok after r ∧ trace = before ++ after) ∨
      ∃ e st', (x st).Served ok trace (.error e, st') ∧ r = (.error e, st') := by
  refine Program.served_bind.trans ⟨?_, ?_⟩
  · rintro ⟨before, ⟨q, st'⟩, after, hx, hf, rfl⟩
    cases q with
    | ok a => exact .inl ⟨before, a, st', after, hx, hf, rfl⟩
    | error e =>
      rcases Program.served_ret.mp hf with ⟨rfl, rfl⟩
      exact .inr ⟨e, st', by rwa [List.append_nil], rfl⟩
  · rintro (⟨before, a, st', after, hx, hf, rfl⟩ | ⟨e, st', hx, rfl⟩)
    · exact ⟨before, _, after, hx, hf, rfl⟩
    · exact ⟨trace, _, [], hx, Program.Served.ret _, (List.append_nil _).symm⟩

theorem served_pure {r : Except ε α × σ} :
    Program.Served ok ((pure a : Run Op Ans ε σ α) st) trace r ↔ trace = [] ∧ r = (.ok a, st) :=
  Program.served_ret

theorem served_ofExcept {r : Except ε α × σ} :
    Program.Served ok ((ofExcept q : Run Op Ans ε σ α) st) trace r ↔ trace = [] ∧ r = (q, st) :=
  Program.served_ret

/-- Making something else of what a part gives asks for nothing. -/
theorem served_map {f : α → β}
    (h : Program.Served ok ((do let a ← x; pure (f a) : Run Op Ans ε σ β) st) trace r) :
    ∃ r₀, (x st).Served ok trace r₀ ∧ r = (r₀.1.map f, r₀.2) := by
  rcases served_bind.mp h with ⟨before, a, st', after, hx, hf, rfl⟩ | ⟨e, st', hx, rfl⟩
  · rcases served_pure.mp hf with ⟨rfl, rfl⟩
    rw [List.append_nil]
    exact ⟨_, hx, rfl⟩
  · exact ⟨_, hx, rfl⟩

theorem served_bind_record {f : σ → Run Op Ans ε σ β} :
    Program.Served ok ((record >>= f) st) trace r ↔ Program.Served ok (f st st) trace r := .rfl

end Run

/-! ### Simulations -/

/-- Two ends that are alike: both raise the same, or the results are related. -/
def SameEnd (R : α → β → Prop) : Except ε α → Except ε β → Prop
  | .ok a, .ok b => R a b
  | .error e, .error e' => e = e'
  | _, _ => False

theorem SameEnd.mono {R' : α → β → Prop} {r : Except ε α} {r' : Except ε β} (h : SameEnd R r r')
    (himp : ∀ a b, R a b → R' a b) : SameEnd R' r r' := by
  cases r with
  | ok a => cases r' with
    | ok b => exact himp a b h
    | error e => exact h
  | error e => cases r' with
    | ok b | error e' => exact h

theorem SameEnd.eq {r r' : Except ε α} (h : SameEnd Eq r r') : r = r' := by
  cases r with
  | ok a => cases r' with
    | ok b => exact congrArg Except.ok h
    | error e => exact False.elim h
  | error e => cases r' with
    | ok b => exact False.elim h
    | error e' => exact congrArg Except.error h

theorem sameEnd_rfl {R : α → α → Prop} {r : Except ε α} (h : ∀ a, r = .ok a → R a a) :
    SameEnd R r r := by
  cases r with
  | ok a => exact h a rfl
  | error e => exact rfl

/-- How the programs of two monads are related, and that sequencing keeps it. -/
structure Simulation (m n : Type → Type) [Monad m] [Monad n] where
  Rel : {α β : Type} → m α → n β → (α → β → Prop) → Prop
  pure : ∀ {α β : Type} {R : α → β → Prop} {a : α} {b : β}, R a b →
    Rel (Pure.pure a) (Pure.pure b) R
  bind : ∀ {α β γ δ : Type} {R : α → β → Prop} {S : γ → δ → Prop} {x : m α} {y : n β}
    {f : α → m γ} {g : β → n δ}, Rel x y R → (∀ a b, R a b → Rel (f a) (g b) S) →
    Rel (x >>= f) (y >>= g) S

theorem Simulation.foldlM {m n : Type → Type} [Monad m] [Monad n] (S : Simulation m n)
    {f : α → γ → m α} {g : β → γ → n β} (xs : List γ) (hbeg : R a b)
    (hround : ∀ c ∈ xs, ∀ a b, R a b → S.Rel (f a c) (g b c) R) :
    S.Rel (xs.foldlM f a) (xs.foldlM g b) R := by
  induction xs generalizing a b with
  | nil => exact S.pure hbeg
  | cons c cs ih =>
    refine S.bind (hround c List.mem_cons_self a b hbeg) fun a b hab => ?_
    exact ih hab fun c' hc' => hround c' (List.mem_cons_of_mem c hc')

/-! ### Memories -/

/-- What a record remembers: the lookups whose answers it has, and what each is asked with. An
    answer to an `Unfit` request cannot be remembered. -/
structure Memory (σ K Op : Type) where
  request : K → Op
  Valid : K → Prop
  Knows : σ → List K → Prop
  Unfit : Op → Prop

variable {K : Type} {M : Memory σ K Op} {f : α → Run Op Ans ε σ γ} {known : List K}
  {trace' : List Op} {S : γ → δ → Prop}

/-- What becomes of a program that remembers, beside one that does not: it asks only for
    what it did not know, for each thing once, and for nothing that the other does not. -/
structure Recalled (M : Memory σ K Op) (known : List K) (trace trace' : List Op)
    (r : Except ε α × σ) (asked : List K) : Prop where
  trace_eq : trace = asked.map M.request
  nodup : (known ++ asked).Nodup
  valid : ∀ k ∈ asked, M.Valid k
  subset : trace ⊆ trace'
  knows : ∀ a, r.1 = .ok a → M.Knows r.2 (known ++ asked)
  fit : ∀ a, r.1 = .ok a → ∀ op ∈ trace, ¬ M.Unfit op

/-- A program that remembers ended with an answer that it cannot remember. -/
def Choked (M : Memory σ K Op) (trace : List Op) (r : Except ε α × σ) : Prop :=
  (∃ e, r.1 = .error e) ∧ ∃ op ∈ trace, M.Unfit op

/-- One program remembers what another asks anew, and ends in the same way if it does not
    choke. -/
def Recalls (ok : (op : Op) → Ans op → Prop) (M : Memory σ K Op) (x : Run Op Ans ε σ α)
    (y : Run Op Ans ε τ β) (R : α → β → Prop) : Prop :=
  ∀ st known plain trace r trace' r', M.Knows st known → known.Nodup →
    (x st).Served ok trace r → (y plain).Served ok trace' r' →
    (SameEnd R r.1 r'.1 ∨ Choked M trace r) ∧ ∃ asked, Recalled M known trace trace' r asked

variable {r : Except ε α × σ}

theorem recalled_nil
    (hnd : known.Nodup) (h : M.Knows r.2 known) : Recalled M known [] trace' r [] where
  trace_eq := rfl
  nodup := by rwa [List.append_nil]
  valid := by simp
  subset := by simp
  knows := fun _ _ => by rwa [List.append_nil]
  fit := by simp

theorem Recalled.cons {known asked : List K} {k : K} {after after' : List Op}
    (h : Recalled M (known ++ [k]) after after' r asked) (hk : M.Valid k)
    (hfit : ¬ M.Unfit (M.request k)) :
    Recalled M known (M.request k :: after) (M.request k :: after') r (k :: asked) where
  trace_eq := by rw [List.map_cons, h.trace_eq]
  nodup := by
    rw [List.append_cons]
    exact h.nodup
  valid := by
    intro k' hk'
    rcases List.mem_cons.mp hk' with rfl | hk'
    · exact hk
    · exact h.valid k' hk'
  subset := by
    intro op hop
    rcases List.mem_cons.mp hop with rfl | hop
    · exact List.mem_cons_self
    · exact List.mem_cons_of_mem _ (h.subset hop)
  knows := fun a ha => by
    rw [List.append_cons]
    exact h.knows a ha
  fit := fun a ha op hop => by
    rcases List.mem_cons.mp hop with rfl | hop
    · exact hfit
    · exact h.fit a ha op hop

theorem recalled_failed {k : K} {e : ε}
    (hnd : known.Nodup) (hnew : k ∉ known) (hk : M.Valid k) (hmem : M.request k ∈ trace')
    (hr : r.1 = .error e) : Recalled M known [M.request k] trace' r [k] where
  trace_eq := rfl
  nodup := by
    rw [List.nodup_append]
    refine ⟨hnd, by simp, ?_⟩
    rintro a ha b hb rfl
    exact hnew (List.mem_singleton.mp hb ▸ ha)
  valid := by
    intro k' hk'
    rw [List.mem_singleton.mp hk']
    exact hk
  subset := by
    intro op hop
    rw [List.mem_singleton.mp hop]
    exact hmem
  knows := fun a ha => by
    rw [hr] at ha
    cases ha
  fit := fun a ha => by
    rw [hr] at ha
    cases ha

theorem Recalled.mono {asked : List K} {trace'' : List Op}
    (h : Recalled M known trace trace' r asked) (hsub : trace' ⊆ trace'') :
    Recalled M known trace trace'' r asked :=
  { h with subset := fun _ hop => hsub (h.subset hop) }

/-- What is asked in a first part that fails is all that is asked. -/
theorem Recalled.failed {asked : List K} {e : ε} {r' : Except ε γ × σ}
    (h : Recalled M known trace trace' r asked) (hr' : r'.1 = .error e) :
    Recalled M known trace trace' r' asked where
  trace_eq := h.trace_eq
  nodup := h.nodup
  valid := h.valid
  subset := h.subset
  knows := fun a ha => by
    rw [hr'] at ha
    cases ha
  fit := fun a ha => by
    rw [hr'] at ha
    cases ha

theorem Recalled.append {asked asked' : List K} {before before' after after' : List Op}
    {st : σ} {r' : Except ε γ × σ} (h : Recalled M known before before' ((.ok a : Except ε α),
    st) asked)
    (h' : Recalled M (known ++ asked) after after' r' asked') :
    Recalled M known (before ++ after) (before' ++ after') r' (asked ++ asked') where
  trace_eq := by rw [List.map_append, h.trace_eq, h'.trace_eq]
  nodup := by
    rw [← List.append_assoc]
    exact h'.nodup
  valid := by
    intro k hk
    rcases List.mem_append.mp hk with hk | hk
    · exact h.valid k hk
    · exact h'.valid k hk
  subset := by
    intro op hop
    rcases List.mem_append.mp hop with hop | hop
    · exact List.mem_append_left _ (h.subset hop)
    · exact List.mem_append_right _ (h'.subset hop)
  knows := fun c hc => by
    rw [← List.append_assoc]
    exact h'.knows c hc
  fit := fun c hc op hop => by
    rcases List.mem_append.mp hop with hop | hop
    · exact h.fit a rfl op hop
    · exact h'.fit c hc op hop

theorem recalled_silent {e : ε}
    (hnd : known.Nodup) (hr : r.1 = .error e) : Recalled M known [] trace' r [] where
  trace_eq := rfl
  nodup := by rwa [List.append_nil]
  valid := by simp
  subset := by simp
  knows := fun a ha => by
    rw [hr] at ha
    cases ha
  fit := fun a ha => by
    rw [hr] at ha
    cases ha

theorem Recalls.pure (h : R a b) :
    Recalls ok M (Pure.pure a : Run Op Ans ε σ α) (Pure.pure b : Run Op Ans ε τ β) R := by
  intro st known plain trace r trace' r' hknow hnd hx hy
  rcases Run.served_pure.mp hx with ⟨rfl, rfl⟩
  rcases Run.served_pure.mp hy with ⟨rfl, rfl⟩
  exact ⟨.inl h, [], recalled_nil hnd hknow⟩

theorem Recalls.ofExcept {q' : Except ε β} (h : SameEnd R q q') :
    Recalls ok M (Run.ofExcept q : Run Op Ans ε σ α) (Run.ofExcept q' : Run Op Ans ε τ β) R := by
  intro st known plain trace r trace' r' hknow hnd hx hy
  rcases Run.served_ofExcept.mp hx with ⟨rfl, rfl⟩
  rcases Run.served_ofExcept.mp hy with ⟨rfl, rfl⟩
  exact ⟨.inl h, [], recalled_nil hnd hknow⟩

theorem Choked.after {before after : List Op} (h : Choked M after r) :
    Choked M (before ++ after) r := by
  rcases h with ⟨herr, op, hop, hunfit⟩
  exact ⟨herr, op, List.mem_append_right _ hop, hunfit⟩

theorem not_choked {st : σ} : ¬ Choked M trace ((.ok a : Except ε α), st) := by
  rintro ⟨⟨e, herr⟩, -⟩
  cases herr

theorem Recalls.bind {y : Run Op Ans ε τ β} {g : β → Run Op Ans ε τ δ} (hxy : Recalls ok M x y R)
    (hfg : ∀ a b, R a b → Recalls ok M (f a) (g b) S) : Recalls ok M (x >>= f) (y >>= g) S := by
  intro st known plain trace r trace' r' hknow hnd hx hy
  rcases Run.served_bind.mp hx with ⟨before, a, st₁, after, hx₁, hx₂, rfl⟩ | ⟨e, st₁, hx₁, rfl⟩
  · rcases Run.served_bind.mp hy with ⟨before', b, plain₁, after', hy₁, hy₂, rfl⟩ |
      ⟨e, plain₁, hy₁, rfl⟩
    · -- Both first parts went well: the second ones begin with what the first has learnt.
      rcases hxy st known plain _ _ _ _ hknow hnd hx₁ hy₁ with ⟨hab | hchoked, asked, h₁⟩
      · rcases hfg a b hab st₁ (known ++ asked) plain₁ _ _ _ _ (h₁.knows a rfl) h₁.nodup hx₂ hy₂
          with ⟨hend, asked', h₂⟩
        exact ⟨hend.imp_right Choked.after, asked ++ asked', h₁.append h₂⟩
      · exact absurd hchoked not_choked
    · rcases hxy st known plain _ _ _ _ hknow hnd hx₁ hy₁ with ⟨hab | hchoked, -⟩
      · exact False.elim hab
      · exact absurd hchoked not_choked
  · rcases Run.served_bind.mp hy with ⟨before', b, plain₁, after', hy₁, hy₂, rfl⟩ |
      ⟨e', plain₁, hy₁, rfl⟩
    · -- The other program goes on, so that this one has choked.
      rcases hxy st known plain _ _ _ _ hknow hnd hx₁ hy₁ with ⟨hab | hchoked, asked, h₁⟩
      · exact False.elim hab
      · refine ⟨.inr ⟨⟨e, rfl⟩, hchoked.2⟩, asked, ?_⟩
        exact (h₁.failed rfl).mono (List.subset_append_left _ _)
    · rcases hxy st known plain _ _ _ _ hknow hnd hx₁ hy₁ with ⟨hend, asked, h₁⟩
      refine ⟨?_, asked, h₁.failed rfl⟩
      exact hend.imp_right fun hchoked => ⟨⟨e, rfl⟩, hchoked.2⟩

/-- Remembering is a simulation. -/
def recalling (ok : (op : Op) → Ans op → Prop) (M : Memory σ K Op) :
    Simulation (Run Op Ans ε σ) (Run Op Ans ε τ) where
  Rel := Recalls ok M
  pure := Recalls.pure
  bind := Recalls.bind

/-- Among requests for different things, there are no more of one than things that it is a
    request for. -/
theorem count_map_le [DecidableEq K] [DecidableEq Op] {asked ks : List K} {request : K → Op}
    {op : Op}
    (hnd : asked.Nodup) (h : ∀ k ∈ asked, request k = op → k ∈ ks) :
    (asked.map request).count op ≤ ks.length := by
  have hcnt : (asked.map request).count op = (asked.filter fun k => request k = op).length := by
    rw [List.count_eq_countP, List.countP_map, List.countP_eq_length_filter]
    rfl
  rw [hcnt]
  refine (List.subperm_of_subset (hnd.filter _) ?_).length_le
  intro k hk
  rw [List.mem_filter, decide_eq_true_eq] at hk
  exact h k hk.1 hk.2

/-! ### Meanings -/

/-- However a program is served, it ends like a value that is known beforehand, and its
    record goes on as it may. -/
def Denotes (ok : (op : Op) → Ans op → Prop) (Step : σ → σ → Prop) (x : Run Op Ans ε σ α)
    (d : Except ε β) (R : α → β → Prop) : Prop :=
  ∀ st trace r, (x st).Served ok trace r → SameEnd R r.1 d ∧ Step st r.2

variable {Step : σ → σ → Prop}

theorem Denotes.ofExcept (hrefl : ∀ st, Step st st) (h : SameEnd R q d) :
    Denotes ok Step (Run.ofExcept q : Run Op Ans ε σ α) d R := by
  intro st trace r hx
  rcases Run.served_ofExcept.mp hx with ⟨rfl, rfl⟩
  exact ⟨h, hrefl st⟩

theorem Denotes.bind (htrans : ∀ st st' st'', Step st st' → Step st' st'' → Step st st'')
    {g : β → Except ε δ} (hx : Denotes ok Step x d R)
    (hf : ∀ a b, R a b → Denotes ok Step (f a) (g b) S) :
    Denotes ok Step (x >>= f) (d >>= g) S := by
  intro st trace r h
  rcases Run.served_bind.mp h with ⟨before, a, st₁, after, h₁, h₂, rfl⟩ | ⟨e, st₁, h₁, rfl⟩
  · rcases hx st _ _ h₁ with ⟨hend, hstep⟩
    cases d with
    | ok b =>
      rcases hf a b hend st₁ _ _ h₂ with ⟨hend', hstep'⟩
      exact ⟨hend', htrans _ _ _ hstep hstep'⟩
    | error e => exact False.elim hend
  · rcases hx st _ _ h₁ with ⟨hend, hstep⟩
    cases d with
    | ok b => exact False.elim hend
    | error e' => exact ⟨hend, hstep⟩

/-- What is known beforehand may be put in another way. -/
theorem Denotes.map {S : α → γ → Prop} {f : β → γ} (hx : Denotes ok Step x d R)
    (hf : ∀ a b, R a b → S a (f b)) : Denotes ok Step x (d.map f) S := by
  intro st trace r h
  rcases hx st trace r h with ⟨hend, hstep⟩
  refine ⟨?_, hstep⟩
  rcases r with ⟨q, st'⟩
  cases q with
  | ok a => cases d with
    | ok b => exact hf a b hend
    | error e => exact hend
  | error e => cases d with
    | ok b | error e' => exact hend

/-- To be known beforehand is a simulation. -/
def denoting (ok : (op : Op) → Ans op → Prop) (hrefl : ∀ st, Step st st)
    (htrans : ∀ st st' st'', Step st st' → Step st' st'' → Step st st'') :
    Simulation (Run Op Ans ε σ) (Except ε) where
  Rel := Denotes ok Step
  pure := fun h => Denotes.ofExcept hrefl h
  bind := Denotes.bind htrans

end Effects
