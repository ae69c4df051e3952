import PlexManager.Lib.Transition

/-!
# Programs that can be cut short

A program that works on things it does not own, a disk or a service or a
daemon, is a tree: it asks for an operation, and what it does next depends on
the answer. What an operation does to the world, and which answers it may give,
is the business of a `Machine`, whose `Choice` carries whatever the environment
decides about one call: a fault, an answer, a time. The machine runs such a
program one call at a time, and between any two calls the process may die or
something else may happen in the world.

A `Run` is a program with a record of its own that it rewrites as it goes and
that is still there when it raises, like the fields of an object. `Spec` is
what a run may be relied on for: from a view of the world, whatever the
environment chooses, every call keeps the invariant of a `Contract` and moves
only as the contract's guarantee allows, and the run ends as the postcondition
says. The rules below compose such facts along the constructs programs are
written with.

Because the invariant is owed at every call and not only at the end, nothing is
left to say about crashes: `Keeps.reachable` says that it holds in every state
a system reaches, and `Keeps.guarantee` that every step it takes from there is
allowed.

## Main definitions

* `Program`, `Run`: Programs, and programs with a record and exceptions.
* `Program.Runs`, `Program.feed`: What a program asks for and ends with.
* `Machine`, `System`, `Machine.step`: What runs a program, and its steps.
* `Run.Asks`: The operations a run may ask for.
* `Contract`, `Safe`, `Spec`: What a program owes and what may be relied on.
* `Gives`: What a run ends with, whatever is answered.
* `Terms`, `Machine.under`: What is asked of the environment, and a machine where it is met.
* `Keeps`, `KeepsUnder`: A machine whose program and events keep a contract, on terms.

## Theorems

* `Program.runs_bind`, `Run.runs_bind`: The runs of a program in two parts.
* `Safe.bind`, `Safe.mono`: Safety composes and weakens.
* `Spec.bind`, `Spec.next`, `Spec.bind_record`, `Spec.perform`, `Spec.tryCatch`, `Spec.attempt`,
  `Spec.andFinally`, `Spec.forM`, `Spec.foldlM`: The rules.
* `Spec.of_asks`: What its operations preserve, a run preserves.
* `KeepsUnder.run`: The invariant holds along every run on the terms.
* `Keeps.reachable`: The invariant holds in every reachable state.
* `Keeps.guarantee`: Every step from a reachable state is allowed.
-/

namespace Effects

/-- A program that asks for operations and goes on with their answers. -/
inductive Program (Op : Type) (Ans : Op → Type) (α : Type) where
  | ret (a : α)
  | call (op : Op) (next : Ans op → Program Op Ans α)

variable {Op : Type} {Ans : Op → Type} {ε σ τ α β : Type}

def Program.bind : Program Op Ans α → (α → Program Op Ans β) → Program Op Ans β
  | .ret a, f => f a
  | .call op next, f => .call op fun a => (next a).bind f

/-- A program with a record that it may rewrite, and that may raise. The record
    is there however the program ends. -/
def Run (Op : Type) (Ans : Op → Type) (ε σ α : Type) : Type :=
  σ → Program Op Ans (Except ε α × σ)

def Program.Asks (P : Op → Prop) : Program Op Ans α → Prop
  | .ret _ => True
  | .call op next => P op ∧ ∀ a, (next a).Asks P

theorem Program.Asks.bind {P : Op → Prop} (p : Program Op Ans α) (f : α → Program Op Ans β)
    (hp : p.Asks P) (hf : ∀ a, (f a).Asks P) : (p.bind f).Asks P := by
  induction p with
  | ret a => exact hf a
  | call op next ih => exact ⟨hp.1, fun a => ih a (hp.2 a)⟩

variable {x : Run Op Ans ε σ α} {a : α} {trace : List Op} {op : Op} {p : Program Op Ans α}

theorem Program.Asks.mono {P P' : Op → Prop} (hp : p.Asks P)
    (h : ∀ op, P op → P' op) : p.Asks P' := by
  induction p with
  | ret a => trivial
  | call op next ih => exact ⟨h op hp.1, fun a => ih a (hp.2 a)⟩

/-- What a program asks for one after another, and what it ends with, for some
    answers. -/
inductive Program.Runs : Program Op Ans α → List Op → α → Prop where
  | ret (a : α) : Runs (.ret a) [] a
  | call {op : Op} {next : Ans op → Program Op Ans α} (answer : Ans op) {trace : List Op} {a : α}
      (h : Runs (next answer) trace a) : Runs (.call op next) (op :: trace) a

theorem Program.runs_ret {b : α} :
    (Program.ret a : Program Op Ans α).Runs trace b ↔ trace = [] ∧ b = a := by
  constructor
  · intro h
    cases h
    exact ⟨rfl, rfl⟩
  · rintro ⟨rfl, rfl⟩
    exact Runs.ret _

/-- What a program ends with if it is given some answers, one after another. Answers that
    are too few give nothing. -/
def Program.feed {A : Type} : Program Op (fun _ => A) α → List A → Option α
  | .ret a, _ => some a
  | .call _ next, answer :: answers => (next answer).feed answers
  | .call _ _, [] => none

theorem Program.feed_bind {A : Type} {p : Program Op (fun _ => A) α}
    {f : α → Program Op (fun _ => A) β} {answers : List A} {b : β}
    (h : (p.bind f).feed answers = some b) :
    ∃ a rest, p.feed answers = some a ∧ (f a).feed rest = some b := by
  induction p generalizing answers with
  | ret a => exact ⟨a, answers, rfl, h⟩
  | call op next ih =>
    cases answers with
    | nil => contradiction
    | cons answer answers => exact ih answer h

theorem Program.runs_bind {f : α → Program Op Ans β} {b : β} : (p.bind f).Runs trace b ↔
      ∃ before a after, p.Runs before a ∧ (f a).Runs after b ∧ trace = before ++ after := by
  constructor
  · intro h
    induction p generalizing trace with
    | ret a => exact ⟨[], a, trace, Runs.ret a, h, rfl⟩
    | call op next ih =>
      cases h with
      | call answer h =>
        rcases ih answer h with ⟨before, a, after, hp, hf, rfl⟩
        exact ⟨op :: before, a, after, Runs.call answer hp, hf, rfl⟩
  · rintro ⟨before, a, after, hp, hf, rfl⟩
    induction hp with
    | ret a => exact hf
    | call answer _ ih => exact Runs.call answer (ih hf)

theorem Program.Asks.runs {P : Op → Prop} (hp : p.Asks P)
    (h : p.Runs trace a) : ∀ op ∈ trace, P op := by
  induction h with
  | ret a => simp
  | call answer _ ih =>
    intro op hop
    rcases List.mem_cons.mp hop with rfl | hop
    · exact hp.1
    · exact ih (hp.2 answer) op hop

namespace Run

instance : Monad (Run Op Ans ε σ) where
  pure a := fun st => .ret (.ok a, st)
  bind x f := fun st => (x st).bind fun
    | (.ok a, st') => f a st'
    | (.error e, st') => .ret (.error e, st')

def perform (op : Op) : Run Op Ans ε σ (Ans op) :=
  fun st => .call op fun a => .ret (.ok a, st)

def ofExcept (r : Except ε α) : Run Op Ans ε σ α := fun st => .ret (r, st)

def raise (e : ε) : Run Op Ans ε σ α := ofExcept (.error e)

/-- Go on from an exception with the record as it was left. -/
def tryCatch (x : Run Op Ans ε σ α) (handler : ε → Run Op Ans ε σ α) : Run Op Ans ε σ α :=
  fun st => (x st).bind fun
    | (.ok a, st') => .ret (.ok a, st')
    | (.error e, st') => handler e st'

/-- Go on with what a part ended with, whether it raised or not. -/
def attempt (x : Run Op Ans ε σ α) : Run Op Ans ε σ (Except ε α) :=
  fun st => (x st).bind fun r => .ret (.ok r.1, r.2)

/-- Something is done after a part in any case, and then the part's end is its own
    again. -/
def andFinally (x : Run Op Ans ε σ α) (last : Run Op Ans ε σ Unit) : Run Op Ans ε σ α := do
  let r ← attempt x
  last
  ofExcept r

def record : Run Op Ans ε σ σ := fun st => .ret (.ok st, st)

def modifyRecord (f : σ → σ) : Run Op Ans ε σ Unit := fun st => .ret (.ok (), f st)

/-- A part of a program that works on a record of its own. -/
def within (own : τ) (x : Run Op Ans ε τ α) : Run Op Ans ε σ α :=
  fun st => (x own).bind fun r => .ret (r.1, st)

theorem ofExcept_ok_bind (a : α) (f : α → Run Op Ans ε σ β) : ofExcept (.ok a) >>= f = f a := rfl

theorem bind_apply (x : Run Op Ans ε σ α) (f : α → Run Op Ans ε σ β) (st : σ) :
    (x >>= f) st = (x st).bind fun
      | (.ok a, st') => f a st'
      | (.error e, st') => .ret (.error e, st') := rfl

/-- A run of two parts stops in the first, or goes on with the second. -/
theorem runs_bind {f : α → Run Op Ans ε σ β} {st : σ}
    {r : Except ε β × σ} : Program.Runs ((x >>= f) st) trace r ↔
      (∃ before a st' after, (x st).Runs before (.ok a, st') ∧ (f a st').Runs after r ∧
        trace = before ++ after) ∨
      ∃ e st', (x st).Runs trace (.error e, st') ∧ r = (.error e, st') := by
  refine Program.runs_bind.trans ⟨?_, ?_⟩
  · rintro ⟨before, ⟨q, st'⟩, after, hx, hf, rfl⟩
    cases q with
    | ok a => exact .inl ⟨before, a, st', after, hx, hf, rfl⟩
    | error e =>
      rcases Program.runs_ret.mp hf with ⟨rfl, rfl⟩
      exact .inr ⟨e, st', by rwa [List.append_nil], rfl⟩
  · rintro (⟨before, a, st', after, hx, hf, rfl⟩ | ⟨e, st', hx, rfl⟩)
    · exact ⟨before, _, after, hx, hf, rfl⟩
    · exact ⟨trace, _, [], hx, Program.Runs.ret _, (List.append_nil _).symm⟩

/-- However it is started, a run asks only for some of the operations. -/
def Asks (P : Op → Prop) (x : Run Op Ans ε σ α) : Prop := ∀ st, (x st).Asks P

section Asks

variable {P : Op → Prop}

theorem asks_pure (a : α) : Asks P (Pure.pure a : Run Op Ans ε σ α) := fun _ => trivial

theorem asks_raise (e : ε) : Asks P (raise e : Run Op Ans ε σ α) := fun _ => trivial

theorem asks_ofExcept (r : Except ε α) : Asks P (ofExcept r : Run Op Ans ε σ α) :=
  fun _ => trivial

theorem asks_record : Asks P (record : Run Op Ans ε σ σ) := fun _ => trivial

theorem asks_modifyRecord (f : σ → σ) : Asks P (modifyRecord f : Run Op Ans ε σ Unit) :=
  fun _ => trivial

theorem asks_perform (h : P op) : Asks P (perform op : Run Op Ans ε σ (Ans op)) :=
  fun _ => ⟨h, fun _ => trivial⟩

theorem Asks.bind {f : α → Run Op Ans ε σ β} (hx : Asks P x)
    (hf : ∀ a, Asks P (f a)) : Asks P (x >>= f) := by
  intro st
  refine (hx st).bind _ _ ?_
  rintro ⟨r, st'⟩
  cases r with
  | ok a => exact hf a st'
  | error e => trivial

theorem Asks.tryCatch {handler : ε → Run Op Ans ε σ α} (hx : Asks P x)
    (hh : ∀ e, Asks P (handler e)) : Asks P (tryCatch x handler) := by
  intro st
  refine (hx st).bind _ _ ?_
  rintro ⟨r, st'⟩
  cases r with
  | ok a => trivial
  | error e => exact hh e st'

theorem Asks.attempt (hx : Asks P x) : Asks P (attempt x) :=
  fun st => (hx st).bind _ _ fun _ => trivial

theorem Asks.discard (hx : Asks P x) : Asks P (Functor.discard x) :=
  hx.bind fun _ => asks_pure _

theorem Asks.forM {xs : List β} {f : β → Run Op Ans ε σ PUnit} (h : ∀ b ∈ xs, Asks P (f b)) :
    Asks P (xs.forM f) := by
  induction xs with
  | nil => exact asks_pure _
  | cons b bs ih =>
    refine (h b List.mem_cons_self).bind fun _ => ih ?_
    exact fun b' hb' => h b' (List.mem_cons_of_mem b hb')

theorem Asks.mono {P' : Op → Prop} (hx : Asks P x)
    (h : ∀ op, P op → P' op) : Asks P' x := fun st => (hx st).mono h

theorem Asks.ite {c : Prop} [Decidable c] {y : Run Op Ans ε σ α} (hx : Asks P x)
    (hy : Asks P y) : Asks P (if c then x else y) := by
  by_cases hc : c
  · rw [if_pos hc]
    exact hx
  · rw [if_neg hc]
    exact hy

end Asks

end Run

/-- What carries out the operations of a program, what else can happen in the
    world, and the program itself with what starting it does. -/
structure Machine (Op : Type) (Ans : Op → Type) (World Choice Event : Type) where
  exec : (op : Op) → Choice → World → Option (Ans op × World)
  event : Event → World → Option World
  boot : World → World
  main : Program Op Ans Unit

/-- The world, and what is left of the program while it runs. -/
structure System (Op : Type) (Ans : Op → Type) (World : Type) where
  world : World
  running : Option (Program Op Ans Unit)

inductive Action (Choice Event : Type) where
  | start
  | advance (choice : Choice)
  | crash
  | event (e : Event)

variable {World View Choice Event : Type}

/-- One step: a run starts, makes its next call or dies, or something happens
    beside it. -/
def Machine.step (M : Machine Op Ans World Choice Event) (s : System Op Ans World) :
    Action Choice Event → Option (System Op Ans World)
  | .start => match s.running with
    | none => some { world := M.boot s.world, running := some M.main }
    | some _ => none
  | .advance choice => match s.running with
    | some (.call op next) => (M.exec op choice s.world).map fun r =>
        { world := r.2, running := some (next r.1) }
    | some (.ret _) => some { s with running := none }
    | none => none
  | .crash => some { s with running := none }
  | .event e => (M.event e s.world).map fun w => { s with world := w }

/-- What is owed to a world: an invariant of all of it, and a guarantee about
    how the part of it the program alone moves may change. -/
structure Contract (World View : Type) where
  view : World → View
  Inv : World → Prop
  Guarantee : View → View → Prop

/-- From a view of the world, and whatever happens outside it, every call a
    program makes keeps the contract, and the program ends as `Q` says. -/
def Safe (M : Machine Op Ans World Choice Event) (C : Contract World View)
    (Q : α → View → Prop) : Program Op Ans α → View → Prop
  | .ret a, v => Q a v
  | .call op next, v => ∀ w, C.Inv w → C.view w = v → ∀ c a w', M.exec op c w = some (a, w') →
      C.Guarantee v (C.view w') ∧ C.Inv w' ∧ Safe M C Q (next a) (C.view w')

def Ends (Q : α → σ → View → Prop) (E : ε → σ → View → Prop) (r : Except ε α × σ) (v : View) :
    Prop :=
  match r.1 with
  | .ok a => Q a r.2 v
  | .error e => E e r.2 v

variable (M : Machine Op Ans World Choice Event) (C : Contract World View)

/-- A run is safe from a record and a view, ends normally in `Q` and raises
    in `E`. -/
def Spec (st : σ) (v : View)
    (x : Run Op Ans ε σ α) (Q : α → σ → View → Prop) (E : ε → σ → View → Prop) : Prop :=
  Safe M C (Ends Q E) (x st) v

section Rules

variable {M : Machine Op Ans World Choice Event} {C : Contract World View} {Q : α → View → Prop}

theorem Safe.bind {R : β → View → Prop} (p : Program Op Ans α)
    (f : α → Program Op Ans β) (v : View) (hp : Safe M C Q p v)
    (hf : ∀ a v', Q a v' → Safe M C R (f a) v') : Safe M C R (p.bind f) v := by
  induction p generalizing v with
  | ret a => exact hf a v hp
  | call op next ih =>
    intro w hinv hview c a w' hexec
    rcases hp w hinv hview c a w' hexec with ⟨hmove, hinv', hrest⟩
    exact ⟨hmove, hinv', ih a (C.view w') hrest⟩

theorem Safe.mono {R : α → View → Prop} (p : Program Op Ans α) (v : View)
    (hp : Safe M C Q p v) (h : ∀ a v', Q a v' → R a v') : Safe M C R p v := by
  induction p generalizing v with
  | ret a => exact h a v hp
  | call op next ih =>
    intro w hinv hview c a w' hexec
    rcases hp w hinv hview c a w' hexec with ⟨hmove, hinv', hrest⟩
    exact ⟨hmove, hinv', ih a (C.view w') hrest⟩

variable {st : σ} {v : View} {Q : α → σ → View → Prop} {E : ε → σ → View → Prop}
  {R : β → σ → View → Prop} {f : α → Run Op Ans ε σ β} {P : Op → Prop} {I : View → Prop}
  {E' : ε → σ → View → Prop}

theorem Spec.pure (h : Q a st v) :
    Spec M C st v (Pure.pure a : Run Op Ans ε σ α) Q E := h

theorem Spec.raise {e : ε} (h : E e st v) :
    Spec M C st v (Run.raise e : Run Op Ans ε σ α) Q E := h

theorem Spec.ofExcept {r : Except ε α} (hok : ∀ a, r = .ok a → Q a st v)
    (herr : ∀ e, r = .error e → E e st v) :
    Spec M C st v (Run.ofExcept r : Run Op Ans ε σ α) Q E := by
  cases r with
  | ok a => exact hok a rfl
  | error e => exact herr e rfl

theorem Spec.record {Q : σ → σ → View → Prop} (h : Q st st v) :
    Spec M C st v (Run.record : Run Op Ans ε σ σ) Q E := h

theorem Spec.modifyRecord {Q : Unit → σ → View → Prop} {f : σ → σ} (h : Q () (f st) v) :
    Spec M C st v (Run.modifyRecord f : Run Op Ans ε σ Unit) Q E := h

/-- What every operation a program may ask for preserves, the program preserves. -/
theorem Safe.of_asks (p : Program Op Ans α) (v : View) (hp : p.Asks P) (hI : I v)
    (hkeep : ∀ op, P op → ∀ w c a w', C.Inv w → I (C.view w) → M.exec op c w = some (a, w') →
      C.Guarantee (C.view w) (C.view w') ∧ C.Inv w' ∧ I (C.view w')) :
    Safe M C (fun _ => I) p v := by
  induction p generalizing v with
  | ret a => exact hI
  | call op next ih =>
    rintro w hinv rfl c a w' hexec
    rcases hkeep op hp.1 w c a w' hinv hI hexec with ⟨hmove, hinv', hI'⟩
    exact ⟨hmove, hinv', ih a (C.view w') (hp.2 a) hI'⟩

theorem Spec.of_asks (hx : x.Asks P) (hI : I v)
    (hkeep : ∀ op, P op → ∀ w c a w', C.Inv w → I (C.view w) → M.exec op c w = some (a, w') →
      C.Guarantee (C.view w) (C.view w') ∧ C.Inv w' ∧ I (C.view w')) :
    Spec M C st v x (fun _ _ => I) (fun _ _ => I) := by
  refine Safe.mono (x st) v (Safe.of_asks (x st) v (hx st) hI hkeep) ?_
  rintro ⟨r, st'⟩ v' hI'
  cases r with
  | ok a | error e => exact hI'

/-- The rule of sequencing. What the first part raises is raised. -/
theorem Spec.bind (hx : Spec M C st v x Q E)
    (hf : ∀ a st' v', Q a st' v' → Spec M C st' v' (f a) R E) : Spec M C st v (x >>= f) R E := by
  refine Safe.bind (x st) _ v hx ?_
  rintro ⟨r, st'⟩ v' hend
  cases r with
  | ok a => exact hf a st' v' hend
  | error e => exact hend

theorem Spec.mono {Q' : α → σ → View → Prop}
    (hx : Spec M C st v x Q E) (hQ : ∀ a st' v', Q a st' v' → Q' a st' v')
    (hE : ∀ e st' v', E e st' v' → E' e st' v') : Spec M C st v x Q' E' := by
  refine Safe.mono (x st) v hx ?_
  rintro ⟨r, st'⟩ v' hend
  cases r with
  | ok a => exact hQ a st' v' hend
  | error e => exact hE e st' v' hend

/-- Sequencing, where what the first part raises is known more precisely. -/
theorem Spec.post {Q' : α → σ → View → Prop} (hx : Spec M C st v x Q E)
    (hQ : ∀ a st' v', Q a st' v' → Q' a st' v') : Spec M C st v x Q' E :=
  hx.mono hQ fun _ _ _ hE => hE

theorem Spec.seq (hx : Spec M C st v x Q E') (hE : ∀ e st' v', E' e st' v' → E e st' v')
    (hf : ∀ a st' v', Q a st' v' → Spec M C st' v' (f a) R E) : Spec M C st v (x >>= f) R E :=
  .bind (hx.mono (fun _ _ _ hQ => hQ) hE) hf

/-- Of what is raised nothing is asked. -/
theorem Spec.anyhow (hx : Spec M C st v x Q E) : Spec M C st v x Q fun _ _ _ => True :=
  hx.mono (fun _ _ _ hQ => hQ) fun _ _ _ _ => trivial

theorem Spec.go (hx : Spec M C st v x Q E)
    (hf : ∀ a st' v', Q a st' v' → Spec M C st' v' (f a) R fun _ _ _ => True) :
    Spec M C st v (x >>= f) R fun _ _ _ => True :=
  .bind hx.anyhow hf

/-- Sequencing backwards: the first part ends where the second may begin. -/
theorem Spec.next {x : Run Op Ans ε σ α} {f : α → Run Op Ans ε σ β} {R : β → σ → View → Prop}
    (hx : Spec M C st v x (fun a st' v' => Spec M C st' v' (f a) R E) E) :
    Spec M C st v (x >>= f) R E :=
  .bind hx fun _ _ _ h => h

/-- What a part gives may be thrown away. -/
theorem Spec.discard {R : Unit → σ → View → Prop}
    (hx : Spec M C st v x (fun _ => R ()) E) : Spec M C st v (Functor.discard x) R E :=
  .bind hx fun _ _ _ h => h

theorem Spec.bind_record {f : σ → Run Op Ans ε σ β}
    (h : Spec M C st v (f st) R E) : Spec M C st v (Run.record >>= f) R E := by
  refine .bind (Q := fun a st' v' => a = st ∧ st' = st ∧ v' = v) (.record ⟨rfl, rfl, rfl⟩) ?_
  rintro a st' v' ⟨rfl, rfl, rfl⟩
  exact h

theorem Spec.bind_modifyRecord {g : σ → σ} {f : Unit → Run Op Ans ε σ β}
    (h : Spec M C (g st) v (f ()) R E) : Spec M C st v (Run.modifyRecord g >>= f) R E := by
  refine .bind (Q := fun _ st' v' => st' = g st ∧ v' = v) (.modifyRecord ⟨rfl, rfl⟩) ?_
  rintro a st' v' ⟨rfl, rfl⟩
  exact h

/-- The rule of handlers: the handler starts from what was left. -/
theorem Spec.tryCatch {handler : ε → Run Op Ans ε σ α} (hx : Spec M C st v x Q E')
    (hh : ∀ e st' v', E' e st' v' → Spec M C st' v' (handler e) Q E) :
    Spec M C st v (Run.tryCatch x handler) Q E := by
  refine Safe.bind (x st) _ v hx ?_
  rintro ⟨r, st'⟩ v' hend
  cases r with
  | ok a => exact hend
  | error e => exact hh e st' v' hend

/-- The rule of one call: the operation keeps the contract, whatever is chosen
    for it, and its answer and its effect are as `Q` says. -/
theorem Spec.perform {Q : Ans op → σ → View → Prop}
    (h : ∀ w c a w', C.Inv w → C.view w = v → M.exec op c w = some (a, w') →
      C.Guarantee v (C.view w') ∧ C.Inv w' ∧ Q a st (C.view w')) :
    Spec M C st v (Run.perform op : Run Op Ans ε σ (Ans op)) Q E :=
  fun w hinv hview c a w' hexec => h w c a w' hinv hview hexec

theorem Spec.attempt {Q : Except ε α → σ → View → Prop}
    (hx : Spec M C st v x (fun a => Q (.ok a)) (fun e => Q (.error e))) :
    Spec M C st v (Run.attempt x) Q E' := by
  refine Safe.bind (x st) _ v hx ?_
  rintro ⟨r, st'⟩ v' hend
  cases r with
  | ok a | error e => exact hend

/-- The rule of last things: they are done from both ends, and keep either. -/
theorem Spec.andFinally {last : Run Op Ans ε σ Unit} {R : α → σ → View → Prop}
    {F : ε → σ → View → Prop} (hx : Spec M C st v x R F)
    (hok : ∀ a st' v', R a st' v' → Spec M C st' v' last (fun _ => Q a) E)
    (herr : ∀ e st' v', F e st' v' → Spec M C st' v' last (fun _ => E e) E) :
    Spec M C st v (Run.andFinally x last) Q E := by
  refine .bind (Q := fun r st' v' => Ends R F (r, st') v') (.attempt hx) ?_
  intro r st' v' hend
  cases r with
  | ok a => exact .bind (hok a st' v' hend) fun _ _ _ hQ => hQ
  | error e => exact .bind (herr e st' v' hend) fun _ _ _ hE => hE

/-- A part with a record of its own leaves the outer record alone. -/
theorem Spec.within {own : τ} {x : Run Op Ans ε τ α} {Q' : α → τ → View → Prop}
    {E' : ε → τ → View → Prop} (hx : Spec M C own v x Q' E')
    (hQ : ∀ a own' v', Q' a own' v' → Q a st v') (hE : ∀ e own' v', E' e own' v' → E e st v') :
    Spec M C st v (Run.within own x) Q E := by
  refine Safe.bind (x own) _ v hx ?_
  rintro ⟨r, own'⟩ v' hend
  cases r with
  | ok a => exact hQ a own' v' hend
  | error e => exact hE e own' v' hend

/-- The rule of loops over a list: what each round preserves, all preserve. -/
theorem Spec.forM {I : σ → View → Prop} (xs : List β) (f : β → Run Op Ans ε σ PUnit) (hbeg : I st v)
    (hround : ∀ b ∈ xs, ∀ st' v', I st' v' → Spec M C st' v' (f b) (fun _ => I) E) :
    Spec M C st v (xs.forM f) (fun _ => I) E := by
  induction xs generalizing st v with
  | nil => exact hbeg
  | cons b bs ih =>
    refine .bind (hround b List.mem_cons_self st v hbeg) ?_
    intro _ st' v' hI
    exact ih hI fun b' hb' => hround b' (List.mem_cons_of_mem b hb')

/-- The rule of folds: what each round preserves, all preserve. -/
theorem Spec.foldlM {γ : Type} {I : γ → σ → View → Prop} (xs : List β)
    (f : γ → β → Run Op Ans ε σ γ) (start : γ) (hbeg : I start st v)
    (hround : ∀ b ∈ xs, ∀ acc st' v', I acc st' v' → Spec M C st' v' (f acc b) I E) :
    Spec M C st v (xs.foldlM f start) I E := by
  induction xs generalizing st v start with
  | nil => exact hbeg
  | cons b bs ih =>
    refine .bind (hround b List.mem_cons_self start st v hbeg) ?_
    intro acc st' v' hI
    exact ih acc hI fun b' hb' => hround b' (List.mem_cons_of_mem b hb')

end Rules

/-! ### Answers that may be anything -/

section AnyAnswers

variable {A : Type} {answers : List A}

/-- A machine without a world, whose operations may answer anything. -/
def anyAnswers (Op A : Type) : Machine Op (fun _ => A) Unit A Empty where
  exec _ answer _ := some (answer, ())
  event e := nomatch e
  boot w := w
  main := .ret ()

/-- Nothing is owed to such a machine. -/
def noContract : Contract Unit Unit where
  view := id
  Inv _ := True
  Guarantee _ _ := True

/-- Whatever is answered, a run ends as `Q` and `E` say. -/
abbrev Gives (st : σ) (x : Run Op (fun _ => A) ε σ α) (Q : α → σ → Prop) (E : ε → σ → Prop) :
    Prop :=
  Spec (anyAnswers Op A) noContract st () x (fun a st' _ => Q a st') fun e st' _ => E e st'

theorem Gives.perform {st : σ} {Q : A → σ → Prop} {E : ε → σ → Prop}
    (h : ∀ answer, Q answer st) : Gives st (Run.perform op : Run Op (fun _ => A) ε σ A) Q E := by
  refine Spec.perform ?_
  intro _ _ answer _ _ _ _
  exact ⟨trivial, trivial, h answer⟩

theorem Safe.feed {Q : α → Unit → Prop} {p : Program Op (fun _ => A) α}
    (h : Safe (anyAnswers Op A) noContract Q p ()) (hfeed : p.feed answers = some a) : Q a () := by
  induction p generalizing answers with
  | ret b =>
    cases hfeed
    exact h
  | call op next ih =>
    cases answers with
    | nil => contradiction
    | cons answer answers =>
      have hnext := h () trivial rfl answer answer () rfl
      exact ih answer hnext.2.2 hfeed

/-- What a run ends with if it is given some answers. -/
theorem Gives.feed {st : σ} {x : Run Op (fun _ => A) ε σ α} {Q : α → σ → Prop} {E : ε → σ → Prop}
    (h : Gives st x Q E) {r : Except ε α} {st' : σ} (hfeed : (x st).feed answers = some (r, st')) :
    Ends (fun a st' (_ : Unit) => Q a st') (fun e st' _ => E e st') (r, st') () :=
  Safe.feed h hfeed

end AnyAnswers

/-- What is asked of the environment: of the world that a run is started in, of what is
    chosen for a call, and of what happens beside the program. -/
structure Terms (Op World Choice Event : Type) where
  start : World → Prop := fun _ => True
  call : Op → Choice → World → Prop := fun _ _ _ => True
  event : Event → World → Prop := fun _ _ => True

def Terms.Meets (T : Terms Op World Choice Event) (s : System Op Ans World) :
    Action Choice Event → Prop
  | .start => T.start s.world
  | .advance c => match s.running with
    | some (.call op _) => T.call op c s.world
    | some (.ret _) | none => True
  | .crash => True
  | .event e => T.event e s.world

/-- Whether a step is on the terms can be computed if each of the terms can. -/
instance Terms.Meets.decidable (T : Terms Op World Choice Event) [∀ w, Decidable (T.start w)]
    [∀ op c w, Decidable (T.call op c w)] [∀ e w, Decidable (T.event e w)]
    (s : System Op Ans World) : (a : Action Choice Event) → Decidable (T.Meets s a)
  | .start => inferInstanceAs (Decidable (T.start s.world))
  | .advance c => match h : s.running with
    | some (.call op _) =>
        decidable_of_iff (T.call op c s.world) (by simp only [Terms.Meets, h])
    | some (.ret _) => .isTrue (by simp only [Terms.Meets, h])
    | none => .isTrue (by simp only [Terms.Meets, h])
  | .crash => .isTrue trivial
  | .event e => inferInstanceAs (Decidable (T.event e s.world))

open Classical in
/-- The machine in an environment that never breaks the terms. -/
noncomputable def Machine.under (M : Machine Op Ans World Choice Event)
    (T : Terms Op World Choice Event) : Machine Op Ans World Choice Event where
  exec op c w := if T.call op c w then M.exec op c w else none
  event e w := if T.event e w then M.event e w else none
  boot := M.boot
  main := M.main

theorem Machine.under_exec {M : Machine Op Ans World Choice Event} {T : Terms Op World Choice Event}
    {c : Choice} {w : World} {r : Ans op × World}
    (h : (M.under T).exec op c w = some r) : T.call op c w ∧ M.exec op c w = some r := by
  simp only [Machine.under] at h
  split at h
  · exact ⟨‹_›, h⟩
  · simp at h

theorem Machine.under_always : M.under {} = M := by
  simp [Machine.under]

variable {s t : System Op Ans World}

theorem Machine.step_under {M : Machine Op Ans World Choice Event} {T : Terms Op World Choice Event}
    {a : Action Choice Event} (hmeet : T.Meets s a)
    (hstep : M.step s a = some t) : (M.under T).step s a = some t := by
  cases a with
  | start | crash => exact hstep
  | event e =>
    have hterm : T.event e s.world := hmeet
    simpa [Machine.step, Machine.under, if_pos hterm] using hstep
  | advance c =>
    rcases hrun : s.running with _ | p
    · simp [Machine.step, hrun] at hstep
    cases p with
    | ret u => simpa [Machine.step, hrun] using hstep
    | call op next =>
      have hterm : T.call op c s.world := by simpa only [Terms.Meets, hrun] using hmeet
      simpa [Machine.step, Machine.under, hrun, if_pos hterm] using hstep

/-- A machine keeps a contract on terms: in an environment that meets them its program is
    safe wherever it is started, starting it and what happens beside it keep the invariant,
    and what happens beside it is out of view. -/
structure KeepsUnder (M : Machine Op Ans World Choice Event) (T : Terms Op World Choice Event)
    (C : Contract World View) : Prop where
  main : ∀ w, C.Inv w → T.start w →
    Safe (M.under T) C (fun _ _ => True) M.main (C.view (M.boot w))
  boot : ∀ w, C.Inv w → T.start w → C.Inv (M.boot w)
  event : ∀ e w w', C.Inv w → T.event e w → M.event e w = some w' →
    C.Inv w' ∧ C.view w' = C.view w
  stutter : ∀ v, C.Guarantee v v

/-- A machine keeps a contract: its program is safe wherever it is started,
    starting it and what happens beside it keep the invariant, and what happens
    beside it is out of view. -/
structure Keeps : Prop where
  main : ∀ w, C.Inv w → Safe M C (fun _ _ => True) M.main (C.view (M.boot w))
  boot : ∀ w, C.Inv w → C.Inv (M.boot w) ∧ C.Guarantee (C.view w) (C.view (M.boot w))
  event : ∀ e w w', C.Inv w → M.event e w = some w' → C.Inv w' ∧ C.view w' = C.view w
  stutter : ∀ v, C.Guarantee v v

/-- The invariant of a system: that of its world, and that what is left of the
    program is safe. -/
def Sound (s : System Op Ans World) : Prop :=
  C.Inv s.world ∧ ∀ p, s.running = some p → Safe M C (fun _ _ => True) p (C.view s.world)

section Soundness

variable {M : Machine Op Ans World Choice Event} {T : Terms Op World Choice Event}
  {C : Contract World View} {init : System Op Ans World → Prop}

theorem KeepsUnder.step (hM : KeepsUnder M T C) (s t : System Op Ans World)
    (a : Action Choice Event) (hs : Sound (M.under T) C s) (hmeet : T.Meets s a)
    (hstep : M.step s a = some t) :
    Sound (M.under T) C t ∧ (a ≠ .start → C.Guarantee (C.view s.world) (C.view t.world)) := by
  have hstep' := Machine.step_under hmeet hstep
  cases a with
  | start =>
    cases hrun : s.running with
    | some p => simp [Machine.step, hrun] at hstep
    | none =>
      simp only [Machine.step, hrun, Option.some.injEq] at hstep
      subst hstep
      refine ⟨⟨hM.boot s.world hs.1 hmeet, ?_⟩, fun hne => absurd rfl hne⟩
      intro p hp
      cases hp
      exact hM.main s.world hs.1 hmeet
  -- A crash loses what is left of the program, and the world stays.
  | crash =>
    simp only [Machine.step, Option.some.injEq] at hstep
    subst hstep
    exact ⟨⟨hs.1, fun p hp => absurd hp nofun⟩, fun _ => hM.stutter _⟩
  | event e =>
    simp only [Machine.step, Option.map_eq_some_iff] at hstep
    rcases hstep with ⟨w, hw, rfl⟩
    have hev := hM.event e s.world w hs.1 hmeet hw
    refine ⟨⟨hev.1, ?_⟩, ?_⟩
    · intro p hp
      exact hev.2 ▸ hs.2 p hp
    · exact fun _ => hev.2 ▸ hM.stutter _
  | advance choice =>
    cases hrun : s.running with
    | none => simp [Machine.step, hrun] at hstep
    | some p =>
      cases p with
      | ret u =>
        simp only [Machine.step, hrun, Option.some.injEq] at hstep
        subst hstep
        exact ⟨⟨hs.1, fun p hp => absurd hp nofun⟩, fun _ => hM.stutter _⟩
      | call op next =>
        simp only [Machine.step, hrun, Option.map_eq_some_iff] at hstep'
        rcases hstep' with ⟨⟨answer, w⟩, hexec, rfl⟩
        rcases hs.2 _ hrun s.world hs.1 rfl choice answer w hexec with
          ⟨hmove, hinv, hrest⟩
        refine ⟨⟨hinv, ?_⟩, fun _ => hmove⟩
        intro p hp
        cases hp
        exact hrest

theorem KeepsUnder.run (hM : KeepsUnder M T C) {as : List (Action Choice Event)}
    (hs : Sound (M.under T) C s) (hmeet : Transition.StepsMeet M.step T.Meets s as)
    (hrun : Transition.run M.step s as = some t) : Sound (M.under T) C t :=
  Transition.invariant_of_meeting_run
    (fun s a t hs hmeet hstep => (hM.step s t a hs hmeet hstep).1) s t as hs hmeet hrun

theorem Sound.of_rest (hinv : C.Inv s.world) (hrest : s.running = none) : Sound M C s := by
  refine ⟨hinv, fun p hp => ?_⟩
  rw [hrest] at hp
  simp at hp

theorem Keeps.under (hM : Keeps M C) : KeepsUnder M {} C where
  main w hinv _ := by
    rw [Machine.under_always]
    exact hM.main w hinv
  boot w hinv _ := (hM.boot w hinv).1
  event e w w' hinv _ hw := hM.event e w w' hinv hw
  stutter := hM.stutter

theorem Keeps.step (hM : Keeps M C) (s t : System Op Ans World) (a : Action Choice Event)
    (hs : Sound M C s) (hstep : M.step s a = some t) :
    Sound M C t ∧ C.Guarantee (C.view s.world) (C.view t.world) := by
  have hmeet : ({} : Terms Op World Choice Event).Meets s a := by
    cases a with
    | start | crash | event e => trivial
    | advance c =>
      simp only [Terms.Meets]
      split <;> trivial
  have hunder := hM.under.step s t a (by rwa [Machine.under_always]) hmeet hstep
  rw [Machine.under_always] at hunder
  refine ⟨hunder.1, ?_⟩
  by_cases ha : a = .start
  · subst ha
    cases hrun : s.running with
    | some p => simp [Machine.step, hrun] at hstep
    | none =>
      simp only [Machine.step, hrun, Option.some.injEq] at hstep
      exact hstep ▸ (hM.boot s.world hs.1).2
  · exact hunder.2 ha

/-- Wherever the process dies and whatever happens beside it, the invariant
    holds in every state the system reaches. -/
theorem Keeps.reachable (hM : Keeps M C) (hinit : ∀ s, init s → C.Inv s.world ∧ s.running = none)
    (h : Transition.Reachable M.step init s) : Sound M C s := by
  refine h.invariant ?_ fun s a t hs hstep => (hM.step s t a hs hstep).1
  intro s hs
  exact .of_rest (hinit s hs).1 (hinit s hs).2

/-- Every step the system takes from a reachable state is one the contract
    allows. -/
theorem Keeps.guarantee (hM : Keeps M C) (hinit : ∀ s, init s → C.Inv s.world ∧ s.running = none)
    {a : Action Choice Event} (h : Transition.Reachable M.step init s)
    (hstep : M.step s a = some t) : C.Guarantee (C.view s.world) (C.view t.world) :=
  (hM.step s t a (hM.reachable hinit h) hstep).2

end Soundness

end Effects
