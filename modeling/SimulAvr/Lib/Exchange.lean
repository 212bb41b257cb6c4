import Mathlib.Logic.Relation

/-!
# A client and a server that exchange bytes

A client is a process that writes to a server and reads what the server writes, over two channels
that deliver in order.  The server is a relation: with some input waiting it takes a step, which
leaves a part of the input and writes some output.  The two run side by side, in any order.

A call is a request of the client together with the reads of the answer.  Where the server answers
every request by steps it cannot avoid, and writes last when it is ready for the next request, the
order does not matter: however the two are interleaved, they get to the end that the calls have one
after the other, they never wait for each other, and they get there after the same number of steps
(`Calls.reaches`).
-/

namespace Exchange

variable {σ ε β α γ : Type}

/-! ### Processes -/

/-- A process that ends with a value or fails, after writing lists of symbols and reading symbols
one by one -/
inductive Process (ε β α : Type) where
  | ret (a : α)
  | fail (e : ε)
  | send (symbols : List β) (next : Process ε β α)
  | recv (next : β → Process ε β α)

namespace Process

/-- A process and, where it does not fail, another one -/
def bind : Process ε β α → (α → Process ε β γ) → Process ε β γ
  | ret a, k => k a
  | fail e, _ => fail e
  | send symbols p, k => send symbols (p.bind k)
  | recv p, k => recv fun b => (p b).bind k

instance : Monad (Process ε β) where
  pure := ret
  bind := bind

/-- A process, and where it fails what is made of the failure -/
def handle : Process ε β α → (ε → Process ε β α) → Process ε β α
  | ret a, _ => ret a
  | fail e, handler => handler e
  | send symbols p, handler => send symbols (p.handle handler)
  | recv p, handler => recv fun b => (p b).handle handler

theorem bind_assoc
    {κ : Type} (p : Process ε β α) (k : α → Process ε β γ) (k' : γ → Process ε β κ) :
  (p.bind k).bind k' = p.bind fun a => (k a).bind k'
  := by
  induction p with
  | ret => rfl
  | fail => rfl
  | send symbols p ih => exact congrArg (send symbols) ih
  | recv p ih => exact congrArg recv (funext ih)

/-- The process `p` reads the symbols and goes on as `q`. -/
inductive Reads : Process ε β α → List β → Process ε β α → Prop
  | nil (p : Process ε β α) : Reads p [] p
  | cons {next : β → Process ε β α} {b : β} {bs : List β} {q : Process ε β α}
      (h : Reads (next b) bs q) : Reads (recv next) (b :: bs) q

theorem Reads.append
    {p q r : Process ε β α} {bs bs' : List β} (h : Reads p bs q) (h' : Reads q bs' r) :
  Reads p (bs ++ bs') r
  := by
  induction h with
  | nil => apply h'
  | cons _ ih => exact (ih h').cons

/-- What follows a process follows its reads. -/
theorem Reads.bind
    {p q : Process ε β α} {bs : List β} (h : Reads p bs q) (k : α → Process ε β γ) :
  Reads (p.bind k) bs (q.bind k)
  := by
  induction h with
  | nil => apply Reads.nil
  | cons _ ih => exact ih.cons

/-- A handler of failures does not change the reads. -/
theorem Reads.handle
    {p q : Process ε β α} {bs : List β} (h : Reads p bs q) (handler : ε → Process ε β α) :
  Reads (p.handle handler) bs (q.handle handler)
  := by
  induction h with
  | nil => apply Reads.nil
  | cons _ ih => exact ih.cons

/-- The process has ended. -/
inductive Ended : Process ε β α → Prop
  | ret (a : α) : Ended (ret a)
  | fail (e : ε) : Ended (fail e)

end Process

open Process

/-! ### The two side by side -/

/-- A server: `serve s input s' rest output` says that with the input waiting it goes from `s` to
`s'`, leaves the rest of the input and writes the output. -/
abbrev Server (σ β : Type) : Type :=
  σ → List β → σ → List β → List β → Prop

/-- A client and a server, with what is under way between them -/
structure Pair (σ ε β α : Type) where
  client : Process ε β α
  toServer : List β
  server : σ
  toClient : List β

/-- A step of one of the two -/
inductive Step (serve : Server σ β) : Pair σ ε β α → Pair σ ε β α → Prop
  | send (symbols : List β) (p : Process ε β α) (input : List β) (s : σ) (output : List β) :
      Step serve ⟨send symbols p, input, s, output⟩ ⟨p, input ++ symbols, s, output⟩
  | recv (next : β → Process ε β α) (input : List β) (s : σ) (b : β) (output : List β) :
      Step serve ⟨recv next, input, s, b :: output⟩ ⟨next b, input, s, output⟩
  | serve {s s' : σ} {input rest new : List β} (h : serve s input s' rest new)
      (p : Process ε β α) (output : List β) :
      Step serve ⟨p, input, s, output⟩ ⟨p, rest, s', output ++ new⟩

/-- A number of steps -/
inductive Steps (serve : Server σ β) : Nat → Pair σ ε β α → Pair σ ε β α → Prop
  | refl (c : Pair σ ε β α) : Steps serve 0 c c
  | head {n : Nat} {c d e : Pair σ ε β α} (h : Step serve c d) (hs : Steps serve n d e) :
      Steps serve (n + 1) c e

/-! ### Answers -/

variable (serve : Server σ β)

/-- The server waits for input. -/
def Waits (s : σ) : Prop :=
  ∀ s' rest output, ¬ serve s [] s' rest output

/-- The server answers the input by `n` steps, none of which it can avoid, of which the first one
takes all of the input and the last one writes, and waits for input after them. -/
inductive Answers : Nat → σ → List β → List β → σ → Prop
  | done {s : σ} (h : Waits serve s) : Answers 0 s [] [] s
  | step {n : Nat} {s s₁ s' : σ} {input new output : List β} (h : serve s input s₁ [] new)
      (hunique : ∀ s₂ rest new', serve s input s₂ rest new' → s₂ = s₁ ∧ rest = [] ∧ new' = new)
      (hnext : Answers n s₁ [] output s') (hwrites : new ++ output ≠ []) :
      Answers (n + 1) s input (new ++ output) s'

/-- The client calls the server, any number of times one after the other, in `n` steps of the two. -/
inductive Calls : Nat → σ → Process ε β α → σ → Process ε β α → Prop
  | nil (s : σ) (p : Process ε β α) : Calls 0 s p s p
  | cons {m n : Nat} {s s₁ s' : σ} {input output : List β} {p q r : Process ε β α}
      (hanswer : Answers serve m s input output s₁) (hreads : Reads p output q)
      (h : Calls n s₁ q s' r) : Calls (1 + (m + output.length) + n) s (send input p) s' r

variable {serve} {s s' : σ}

namespace Answers

variable {n : Nat} {input output : List β}

/-- The server waits after the answer. -/
theorem waits
    (h : Answers serve n s input output s') :
  Waits serve s'
  := by
  induction h with
  | done h => apply h
  | step _ _ _ _ ih => apply ih

/-- An answer without output is no step. -/
theorem eq_done
    (h : Answers serve n s input [] s') :
  n = 0 ∧ input = [] ∧ s' = s
  := by
  generalize houtput : [] = output at h
  cases h with
  | done => exact ⟨rfl, rfl, rfl⟩
  | step _ _ _ hwrites => exact absurd houtput.symm hwrites

end Answers

namespace Calls

variable {m n : Nat} {s₁ : σ} {p q r : Process ε β α}

/-- Calls after others -/
theorem append
    (h : Calls serve m s p s₁ q) (h' : Calls serve n s₁ q s' r) :
  Calls serve (m + n) s p s' r
  := by
  induction h with
  | nil =>
    rw [Nat.zero_add]
    exact h'
  | cons hanswer hreads _ ih =>
    rw [Nat.add_assoc]
    exact (ih h').cons hanswer hreads

/-- What follows a process follows its calls. -/
theorem bind
    (h : Calls serve n s p s' q) (k : α → Process ε β γ) :
  Calls serve n s (p.bind k) s' (q.bind k)
  := by
  induction h with
  | nil => apply Calls.nil
  | cons hanswer hreads _ ih => exact ih.cons hanswer (hreads.bind k)

/-- A handler of failures does not change the calls. -/
theorem handle
    (h : Calls serve n s p s' q) (handler : ε → Process ε β α) :
  Calls serve n s (p.handle handler) s' (q.handle handler)
  := by
  induction h with
  | nil => apply Calls.nil
  | cons hanswer hreads _ ih => exact ih.cons hanswer (hreads.handle handler)

end Calls

/-- The two are `n` steps from the end: the server still has to answer some input, the client to
read what is under way and the answer, and then come the calls that are left. -/
inductive Toward (serve : Server σ β) (t : σ) (r : Process ε β α) : Nat → Pair σ ε β α → Prop
  | mk {m n : Nat} {s s₁ : σ} {input output answer : List β} {p q : Process ε β α}
      (hanswer : Answers serve m s input answer s₁) (hreads : Reads p (output ++ answer) q)
      (hcalls : Calls serve n s₁ q t r) :
      Toward serve t r (m + (output ++ answer).length + n) ⟨p, input, s, output⟩

namespace Toward

variable {t : σ} {r : Process ε β α} {n : Nat} {c d : Pair σ ε β α}

/-- Every step of one of the two leads on. -/
theorem step
    (hr : Ended r) (ht : Toward serve t r n c) (hstep : Step serve c d) :
  ∃ m, n = m + 1 ∧ Toward serve t r m d
  := by
  obtain @⟨_, _, _, _, _, output, answer, _, _, hanswer, hreads, hcalls⟩ := ht
  cases hstep with
  | send =>
    -- the client is ready for a call only when it has read all there was
    generalize hbs : output ++ answer = bs at hreads
    cases hreads
    obtain ⟨rfl, rfl⟩ := List.append_eq_nil_iff.mp hbs
    obtain ⟨rfl, rfl, rfl⟩ := hanswer.eq_done
    cases hcalls with
    | nil => cases hr
    | cons hanswer hreads hcalls =>
      refine ⟨_, ?_, @Toward.mk _ _ _ _ _ _ _ _ _ _ _ _ [] _ _ _ hanswer hreads hcalls⟩
      simp only [List.nil_append, List.length_nil]
      omega
  | recv =>
    cases hreads with
    | cons hreads =>
      refine ⟨_, ?_, .mk hanswer hreads hcalls⟩
      rw [List.cons_append, List.length_cons]
      omega
  | serve h =>
    cases hanswer with
    | done hwaits => exact absurd h (hwaits _ _ _)
    | step _ hunique hnext _ =>
      obtain ⟨rfl, rfl, rfl⟩ := hunique _ _ _ h
      rw [← List.append_assoc] at hreads ⊢
      refine ⟨_, ?_, .mk hnext hreads hcalls⟩
      omega

/-- As long as the end is not reached one of the two can take a step. -/
theorem progress
    (ht : Toward serve t r (n + 1) c) :
  ∃ d, Step serve c d
  := by
  generalize hn : n + 1 = k at ht
  obtain @⟨_, _, _, _, _, output, _, p, _, hanswer, hreads, hcalls⟩ := ht
  cases hanswer with
  | step h _ _ _ => exact ⟨_, .serve h p output⟩
  | done hwaits =>
    cases output with
    | cons b output =>
      cases hreads
      exact ⟨_, .recv _ _ _ b output⟩
    | nil =>
      cases hreads
      cases hcalls with
      | nil => exact absurd hn (Nat.succ_ne_zero n)
      | cons => exact ⟨_, .send _ _ _ _ _⟩

/-- At the end there is nothing under way. -/
theorem eq_end
    (ht : Toward serve t r 0 c) :
  c = ⟨r, [], t, []⟩
  := by
  generalize hn : 0 = k at ht
  obtain @⟨m, n, _, _, _, output, answer, _, _, hanswer, hreads, hcalls⟩ := ht
  have hnil : output ++ answer = [] := List.eq_nil_of_length_eq_zero (by omega)
  obtain ⟨rfl, rfl⟩ := List.append_eq_nil_iff.mp hnil
  obtain ⟨-, rfl, rfl⟩ := hanswer.eq_done
  cases hreads
  cases hcalls with
  | nil => rfl
  | cons => omega

/-- The steps to the end -/
theorem steps
    (hr : Ended r) (ht : Toward serve t r n c) :
  Steps serve n c ⟨r, [], t, []⟩
  := by
  induction n generalizing c with
  | zero =>
    rw [ht.eq_end]
    apply Steps.refl
  | succ n ih =>
    obtain ⟨d, hstep⟩ := ht.progress
    obtain ⟨m, hm, hd⟩ := ht.step hr hstep
    obtain rfl := Nat.succ_inj.mp hm
    exact (ih hd).head hstep

/-- Some steps leave fewer. -/
theorem after
    (hr : Ended r) {k : Nat} (ht : Toward serve t r n c) (h : Steps serve k c d) :
  ∃ m, n = m + k ∧ Toward serve t r m d
  := by
  induction h generalizing n with
  | refl => exact ⟨n, rfl, ht⟩
  | head hstep _ ih =>
    obtain ⟨m, rfl, hd⟩ := ht.step hr hstep
    obtain ⟨m', rfl, he⟩ := ih hd
    exact ⟨m', by omega, he⟩

end Toward

/-- However the steps of a client and a server are interleaved: where the client can get to its end
by calls, in `n` steps, the two take `n` steps at most, from every state on the way they can get to
the end of the calls, and a state from which they cannot go on is the end. -/
theorem Calls.reaches
    {n : Nat} {p r : Process ε β α} (h : Calls serve n s p s' r) (hs : Waits serve s)
    (hr : Ended r) {k : Nat} {c : Pair σ ε β α} (hc : Steps serve k ⟨p, [], s, []⟩ c) :
  k ≤ n ∧ Steps serve (n - k) c ⟨r, [], s', []⟩
    ∧ ((∀ d, ¬ Step serve c d) → c = ⟨r, [], s', []⟩)
  := by
  have hstart : Toward serve s' r n ⟨p, [], s, []⟩ := by
    have hmk := @Toward.mk _ _ _ _ _ _ _ _ _ _ _ _ [] [] _ _ (.done hs) (.nil p) h
    rw [List.append_nil, List.length_nil, Nat.zero_add] at hmk
    exact hmk
  obtain ⟨m, rfl, htoward⟩ := hstart.after hr hc
  rw [Nat.add_sub_cancel]
  refine ⟨Nat.le_add_left _ _, htoward.steps hr, ?_⟩
  intro hstuck
  cases m with
  | zero => exact htoward.eq_end
  | succ m =>
    obtain ⟨d, hstep⟩ := htoward.progress
    exact absurd hstep (hstuck d)

end Exchange
