import SciChain.Library.Result

namespace SciChain.Library

/-- A program that puts questions to a party outside of it and ends with a value. What it
asks may depend on the answers it got before. -/
inductive Dialogue (Q : Type) (A : Q → Type) (α : Type) where
  | done (value : α)
  | ask (question : Q) (next : A question → Dialogue Q A α)

/-- A question with its answer. -/
structure Exchange (Q : Type) (A : Q → Type) where
  question : Q
  answer : A question

namespace Dialogue

variable {Q : Type} {A : Q → Type} {α β : Type}

def bind : Dialogue Q A α → (α → Dialogue Q A β) → Dialogue Q A β
  | done a, f => f a
  | ask q next, f => ask q (fun r => (next r).bind f)

/-- How a program ends when the question that it asks as the `n`th gets `answers n`. The
count starts at the last argument. -/
def value (answers : ℕ → (q : Q) → A q) : Dialogue Q A α → ℕ → α
  | done a, _ => a
  | ask q next, n => (next (answers n q)).value answers (n + 1)

def exchanges (answers : ℕ → (q : Q) → A q) : Dialogue Q A α → ℕ → List (Exchange Q A)
  | done _, _ => []
  | ask q next, n => ⟨q, answers n q⟩ :: (next (answers n q)).exchanges answers (n + 1)

/-- How a program ends when a question always gets the same answer. -/
def reply (answer : (q : Q) → A q) : Dialogue Q A α → α
  | done a => a
  | ask q next => (next (answer q)).reply answer

/-- As long as the answers are allowed, the program asks only such questions and ends in
such a value. -/
def Every (allowed : (q : Q) → A q → Prop) (asks : Q → Prop) (ends : α → Prop) :
    Dialogue Q A α → Prop
  | done a => ends a
  | ask q next => asks q ∧ ∀ r, allowed q r → (next r).Every allowed asks ends

@[simp] theorem done_bind (a : α) (f : α → Dialogue Q A β) : (done a).bind f = f a := rfl

@[simp] theorem ask_bind (q : Q) (next : A q → Dialogue Q A α) (f : α → Dialogue Q A β) :
    (ask q next).bind f = ask q (fun r => (next r).bind f) := rfl

theorem reply_bind (answer : (q : Q) → A q) (p : Dialogue Q A α) (f : α → Dialogue Q A β) :
    (p.bind f).reply answer = (f (p.reply answer)).reply answer := by
  induction p with
  | done a => rfl
  | ask q next ih => exact ih (answer q)

variable {answers : ℕ → (q : Q) → A q} {allowed : (q : Q) → A q → Prop} {asks : Q → Prop}

@[simp] theorem every_done (ends : α → Prop) (a : α) :
    (done a : Dialogue Q A α).Every allowed asks ends ↔ ends a := Iff.rfl

@[simp] theorem every_ask (ends : α → Prop) (q : Q) (next : A q → Dialogue Q A α) :
    (ask q next).Every allowed asks ends ↔
      asks q ∧ ∀ r, allowed q r → (next r).Every allowed asks ends := Iff.rfl

theorem every_bind (ends : β → Prop) (p : Dialogue Q A α) (f : α → Dialogue Q A β) :
    (p.bind f).Every allowed asks ends ↔
      p.Every allowed asks (fun a => (f a).Every allowed asks ends) := by
  induction p with
  | done a => rfl
  | ask q next ih => simp only [ask_bind, every_ask, ih]

theorem Every.mono {ends ends' : α → Prop} {p : Dialogue Q A α} (h : p.Every allowed asks ends)
    (himp : ∀ a, ends a → ends' a) : p.Every allowed asks ends' := by
  induction p with
  | done a => exact himp a h
  | ask q next ih => exact ⟨h.1, fun r hr => ih r (h.2 r hr)⟩

theorem Every.asks_mono {asks' : Q → Prop} {p : Dialogue Q A α}
    (h : p.Every allowed asks ends) (himp : ∀ q, asks q → asks' q) :
    p.Every allowed asks' ends := by
  induction p with
  | done a => exact h
  | ask q next ih => exact ⟨himp q h.1, fun r hr => ih r (h.2 r hr)⟩

theorem every_of_forall (hasks : ∀ q, asks q) (h : ∀ a, ends a)
    (p : Dialogue Q A α) : p.Every allowed asks ends := by
  induction p with
  | done a => exact h a
  | ask q next ih => exact ⟨hasks q, fun r _ => ih r⟩

/-- A conversation in which every answer is allowed. -/
theorem Every.sound {ends : α → Prop} {p : Dialogue Q A α} (h : p.Every allowed asks ends) {n : ℕ}
    (hanswers : ∀ x ∈ p.exchanges answers n, allowed x.question x.answer) :
    ends (p.value answers n) ∧ ∀ x ∈ p.exchanges answers n, asks x.question := by
  induction p generalizing n with
  | done a => exact ⟨h, nofun⟩
  | ask q next ih =>
    have hfirst := hanswers _ List.mem_cons_self
    obtain ⟨hends, hasks⟩ := ih _ (h.2 _ hfirst)
      (fun x hx => hanswers x (List.mem_cons_of_mem _ hx))
    refine ⟨hends, fun x hx => ?_⟩
    rcases List.mem_cons.mp hx with rfl | hx
    · exact h.1
    · exact hasks x hx

/-- What a party always answers, it answers in every conversation. -/
theorem exchanges_answered {P : (q : Q) → A q → Prop} (h : ∀ n q, P q (answers n q))
    {p : Dialogue Q A α} {x : Exchange Q A} (hx : x ∈ p.exchanges answers n) :
    P x.question x.answer := by
  induction p generalizing n with
  | done a => cases hx
  | ask q next ih =>
    rcases List.mem_cons.mp hx with rfl | hx
    · exact h n q
    · exact ih _ hx

/-- The same up to some question: the next one is such. -/
theorem Every.sound_before {ends : α → Prop} {p : Dialogue Q A α}
    (h : p.Every allowed asks ends) {x : Exchange Q A}
    (hsplit : p.exchanges answers n = before ++ x :: after)
    (hanswers : ∀ y ∈ before, allowed y.question y.answer) : asks x.question := by
  induction p generalizing n before with
  | done a =>
    cases before with
    | nil => cases hsplit
    | cons y before => cases hsplit
  | ask q next ih =>
    cases before with
    | nil =>
      cases hsplit
      exact h.1
    | cons y before =>
      simp only [exchanges, List.cons_append, List.cons.injEq] at hsplit
      obtain ⟨rfl, hrest⟩ := hsplit
      exact ih _ (h.2 _ (hanswers _ List.mem_cons_self)) hrest
        (fun z hz => hanswers z (List.mem_cons_of_mem _ hz))

theorem exchanges_bind (p : Dialogue Q A α) (f : α → Dialogue Q A β) (n : ℕ) :
    (p.bind f).exchanges answers n = p.exchanges answers n ++
      (f (p.value answers n)).exchanges answers (n + (p.exchanges answers n).length) := by
  induction p generalizing n with
  | done a => rfl
  | ask q next ih =>
    simp only [ask_bind, exchanges, value, ih, List.cons_append, List.length_cons]
    rw [Nat.add_right_comm, Nat.add_assoc]

/-- An exchange of a sequence is one of its first part, or stands behind all of them. -/
theorem split_bind {p : Dialogue Q A α}
    (h : (p.bind f).exchanges answers n = before ++ x :: after) :
    (∃ after', p.exchanges answers n = before ++ x :: after') ∨
      ∃ before', before = p.exchanges answers n ++ before' ∧
        (f (p.value answers n)).exchanges answers (n + (p.exchanges answers n).length) =
          before' ++ x :: after := by
  rw [exchanges_bind] at h
  rcases List.append_eq_append_iff.mp h with ⟨before', hbefore, hrest⟩ | ⟨tail, hfirst, hrest⟩
  · exact .inr ⟨before', hbefore, hrest⟩
  · cases tail with
    | nil => exact .inr ⟨[], by rw [hfirst, List.append_nil, List.append_nil], hrest.symm⟩
    | cons y tail =>
      obtain ⟨rfl, -⟩ := List.cons.inj hrest
      exact .inl ⟨tail, hfirst⟩

section Embed

variable {Q' : Type} {A' : Q' → Type}

/-- A program that asks within a larger conversation. -/
def embed (f : Q → Q') : Dialogue Q (fun q => A' (f q)) α → Dialogue Q' A' α
  | done a => done a
  | ask q next => ask (f q) (fun r => (next r).embed f)

theorem every_embed (f : Q → Q') (p : Dialogue Q (fun q => A' (f q)) α) :
    (p.embed f).Every allowed' asks' ends ↔
      p.Every (fun q => allowed' (f q)) (fun q => asks' (f q)) ends := by
  induction p with
  | done a => rfl
  | ask q next ih => simp only [embed, every_ask, ih]

theorem reply_embed (f : Q → Q') (answer : (q : Q') → A' q)
    (p : Dialogue Q (fun q => A' (f q)) α) :
    (p.embed f).reply answer = p.reply (fun q => answer (f q)) := by
  induction p with
  | done a => rfl
  | ask q next ih => exact ih (answer (f q))

end Embed

end Dialogue

/-- A program with a state that asks and may fail. What it has written when it fails stays
written. -/
def Procedure (Q : Type) (A : Q → Type) (σ ε α : Type) := σ → Dialogue Q A (Except ε α × σ)

namespace Procedure

variable {Q : Type} {A : Q → Type} {σ ε δ α β : Type}

/-- What comes after a part of a procedure: nothing, if the part failed. -/
def resume (f : α → Procedure Q A σ ε β) : Except ε α × σ → Dialogue Q A (Except ε β × σ)
  | (.ok a, s) => f a s
  | (.error e, s) => .done (.error e, s)

instance : Monad (Procedure Q A σ ε) where
  pure a := fun s => .done (.ok a, s)
  bind m f := fun s => (m s).bind (resume f)

def ask (q : Q) : Procedure Q A σ ε (A q) := fun s => .ask q (fun r => .done (.ok r, s))

def get : Procedure Q A σ ε σ := fun s => .done (.ok s, s)

def set (s : σ) : Procedure Q A σ ε Unit := fun _ => .done (.ok (), s)

/-- The result of a computation without questions. -/
def lift (x : Except ε α) : Procedure Q A σ ε α := fun s => .done (x, s)

def fail (e : ε) : Procedure Q A σ ε α := lift (.error e)

def mapOutcome (f : Except ε α → Except δ β) : Except ε α × σ → Dialogue Q A (Except δ β × σ)
  | (x, s) => .done (f x, s)

/-- The error type of a part as a part of the caller's. -/
def mapError (f : ε → δ) (m : Procedure Q A σ ε α) : Procedure Q A σ δ α :=
  fun s => (m s).bind (mapOutcome (·.mapError f))

/-- Hands the outcome of a part to the caller, which goes on in either case. -/
def outcome (m : Procedure Q A σ ε α) : Procedure Q A σ δ (Except ε α) :=
  fun s => (m s).bind (mapOutcome .ok)

/-- The outcome when a question always gets the same answer. -/
def reply (answer : (q : Q) → A q) (m : Procedure Q A σ ε α) (s : σ) : Except ε α × σ :=
  (m s).reply answer

/-- As long as the answers are allowed, the procedure asks only such questions and ends
with such an outcome. -/
def Ensures (allowed : (q : Q) → A q → Prop) (asks : Q → Prop) (m : Procedure Q A σ ε α) (s : σ)
    (post : Except ε α → σ → Prop) : Prop :=
  (m s).Every allowed asks (fun o => post o.1 o.2)

/-- The postcondition of the first part of a sequence. -/
def Then (allowed : (q : Q) → A q → Prop) (asks : Q → Prop) (f : α → Procedure Q A σ ε β)
    (post : Except ε β → σ → Prop) : Except ε α → σ → Prop
  | .ok a, s => (f a).Ensures allowed asks s post
  | .error e, s => post (.error e) s

variable {allowed : (q : Q) → A q → Prop} {asks : Q → Prop} {s : σ}

@[simp] theorem ensures_pure (a : α) (post : Except ε α → σ → Prop) :
    (pure a : Procedure Q A σ ε α).Ensures allowed asks s post ↔ post (.ok a) s := Iff.rfl

@[simp] theorem ensures_lift (x : Except ε α) (post : Except ε α → σ → Prop) :
    (lift x : Procedure Q A σ ε α).Ensures allowed asks s post ↔ post x s := Iff.rfl

@[simp] theorem ensures_fail (e : ε) (post : Except ε α → σ → Prop) :
    (fail e : Procedure Q A σ ε α).Ensures allowed asks s post ↔ post (.error e) s := Iff.rfl

@[simp] theorem ensures_get (post : Except ε σ → σ → Prop) :
    (get : Procedure Q A σ ε σ).Ensures allowed asks s post ↔ post (.ok s) s := Iff.rfl

@[simp] theorem ensures_set (t : σ) (post : Except ε Unit → σ → Prop) :
    (set t : Procedure Q A σ ε Unit).Ensures allowed asks s post ↔ post (.ok ()) t := Iff.rfl

@[simp] theorem ensures_ask (q : Q) (post : Except ε (A q) → σ → Prop) :
    (ask q : Procedure Q A σ ε (A q)).Ensures allowed asks s post ↔
      asks q ∧ ∀ r, allowed q r → post (.ok r) s := Iff.rfl

@[simp] theorem ensures_bind (m : Procedure Q A σ ε α) (f : α → Procedure Q A σ ε β)
    (post : Except ε β → σ → Prop) :
    (m >>= f).Ensures allowed asks s post ↔
      m.Ensures allowed asks s (Then allowed asks f post) := by
  refine (Dialogue.every_bind _ (m s) (resume f)).trans ?_
  refine Iff.intro (fun h => h.mono ?_) (fun h => h.mono ?_)
  all_goals
    rintro ⟨x, t⟩ hx
    cases x <;> exact hx

@[simp] theorem ensures_mapError (f : ε → δ) (m : Procedure Q A σ ε α)
    (post : Except δ α → σ → Prop) :
    (m.mapError f).Ensures allowed asks s post ↔
      m.Ensures allowed asks s (fun x t => post (x.mapError f) t) :=
  Dialogue.every_bind _ (m s) _

@[simp] theorem ensures_outcome (m : Procedure Q A σ ε α)
    (post : Except δ (Except ε α) → σ → Prop) :
    (m.outcome : Procedure Q A σ δ (Except ε α)).Ensures allowed asks s post ↔
      m.Ensures allowed asks s (fun x t => post (.ok x) t) :=
  Dialogue.every_bind _ (m s) _

section Reply

variable (answer : (q : Q) → A q) (t : σ)

@[simp] theorem reply_pure (a : α) :
    (pure a : Procedure Q A σ ε α).reply answer t = (.ok a, t) := rfl

@[simp] theorem reply_lift (x : Except ε α) :
    (lift x : Procedure Q A σ ε α).reply answer t = (x, t) := rfl

@[simp] theorem reply_fail (e : ε) :
    (fail e : Procedure Q A σ ε α).reply answer t = (.error e, t) := rfl

@[simp] theorem reply_get : (get : Procedure Q A σ ε σ).reply answer t = (.ok t, t) := rfl

@[simp] theorem reply_ask (q : Q) :
    (ask q : Procedure Q A σ ε (A q)).reply answer t = (.ok (answer q), t) := rfl

variable {answer t}

theorem reply_ask_eq (h : answer q = r) :
    (ask q : Procedure Q A σ ε (A q)).reply answer t = (.ok r, t) := by rw [reply_ask, h]

theorem reply_bind_ok {m : Procedure Q A σ ε α}
    (h : m.reply answer t = (.ok a, u)) : (m >>= f).reply answer t = (f a).reply answer u := by
  refine (Dialogue.reply_bind answer (m t) (resume f)).trans ?_
  rw [show (m t).reply answer = (.ok a, u) from h]
  rfl

theorem reply_bind_error {m : Procedure Q A σ ε α}
    (h : m.reply answer t = (.error e, u)) : (m >>= f).reply answer t = (.error e, u) := by
  refine (Dialogue.reply_bind answer (m t) (resume f)).trans ?_
  rw [show (m t).reply answer = (.error e, u) from h]
  rfl

theorem of_reply_bind_ok {m : Procedure Q A σ ε α} {f : α → Procedure Q A σ ε β}
    (h : (m >>= f).reply answer t = (.ok b, v)) :
    ∃ a u, m.reply answer t = (.ok a, u) ∧ (f a).reply answer u = (.ok b, v) := by
  rcases hm : m.reply answer t with ⟨x, u⟩
  cases x with
  | ok a => exact ⟨a, u, rfl, (reply_bind_ok hm).symm.trans h⟩
  | error e => cases (reply_bind_error hm).symm.trans h

theorem reply_mapError (f : ε → δ) (m : Procedure Q A σ ε α) :
    (m.mapError f).reply answer t =
      ((m.reply answer t).1.mapError f, (m.reply answer t).2) :=
  Dialogue.reply_bind answer (m t) _

theorem reply_outcome (m : Procedure Q A σ ε α) :
    (m.outcome : Procedure Q A σ δ (Except ε α)).reply answer t =
      (.ok (m.reply answer t).1, (m.reply answer t).2) :=
  Dialogue.reply_bind answer (m t) _

end Reply

theorem Ensures.mono {m : Procedure Q A σ ε α} {post post' : Except ε α → σ → Prop}
    (h : m.Ensures allowed asks s post) (himp : ∀ x t, post x t → post' x t) :
    m.Ensures allowed asks s post' := Dialogue.Every.mono h (fun o => himp o.1 o.2)

theorem ensures_of_forall (h : ∀ x t, post x t)
    (m : Procedure Q A σ ε α) : m.Ensures allowed (fun _ => True) s post := by
  unfold Ensures
  exact Dialogue.every_of_forall (fun _ => trivial) (fun o => h o.1 o.2) (m s)

end Procedure
end SciChain.Library
