import ApiTemplate.TxStore.Transition
import Mathlib.Algebra.BigOperators.Group.List.Basic
import Mathlib.Algebra.Order.Field.Rat
import Mathlib.Tactic.Linarith
import Mathlib.Tactic.Ring

/-!
# The token bucket

`TokenBucket` over exact rational time. A call of `acquire` holds the lock of the bucket for its
whole loop, so the iterations of all calls form one sequence: `Limiter.step` takes the lock, runs
one iteration at a reading of the clock, or cancels the task inside. What a single call does under
a clock is `TokenBucket.loop`.
-/

namespace ApiTemplate.Telemetry

open TxStore

structure TokenBucket where
  rate : ℚ
  capacity : ℚ
  tokens : ℚ
  updated : ℚ
  deriving DecidableEq

namespace TokenBucket

/-- `__init__`, with the reading of the clock. -/
def init (rate : ℚ) (capacity : Option ℚ) (now : ℚ) : TokenBucket :=
  let capacity := capacity.getD rate
  { rate, capacity, tokens := capacity, updated := now }

/-- The first two statements of the loop of `acquire`. -/
def refill (b : TokenBucket) (now : ℚ) : TokenBucket :=
  { b with
    tokens := min b.capacity (b.tokens + (now - b.updated) * b.rate)
    updated := now }

/-- One iteration of the loop of `acquire`: the time it sleeps, or `none` where it returns. -/
def iteration (b : TokenBucket) (tokens now : ℚ) : Option ℚ × TokenBucket :=
  let b := b.refill now
  if b.tokens ≥ tokens then (none, { b with tokens := b.tokens - tokens })
  else (some ((tokens - b.tokens) / b.rate), b)

@[simp] theorem refill_rate (b : TokenBucket) (now : ℚ) : (b.refill now).rate = b.rate := rfl

@[simp] theorem refill_capacity (b : TokenBucket) (now : ℚ) :
    (b.refill now).capacity = b.capacity := rfl

@[simp] theorem refill_updated (b : TokenBucket) (now : ℚ) : (b.refill now).updated = now := rfl

theorem refill_tokens_le (b : TokenBucket) (now : ℚ) : (b.refill now).tokens ≤ b.capacity :=
  min_le_left _ _

/-- **What one iteration does.** It grants the amount out of a refill that covers it, or sleeps for
the time in which the deficit flows in. -/
theorem iteration_cases (b : TokenBucket) (tokens now : ℚ) :
    (tokens ≤ (b.refill now).tokens ∧ b.iteration tokens now =
      (none, { b.refill now with tokens := (b.refill now).tokens - tokens })) ∨
    ((b.refill now).tokens < tokens ∧ b.iteration tokens now =
      (some ((tokens - (b.refill now).tokens) / b.rate), b.refill now)) := by
  unfold iteration
  by_cases h : (b.refill now).tokens ≥ tokens
  · exact .inl ⟨h, by simp [h]⟩
  · exact .inr ⟨not_le.mp h, by simp [h]⟩

/-! ## One call -/

/-- The bucket before the `n`-th iteration of a call of `acquire`, under the readings `clock` of
its iterations. It is `none` once the call has returned. -/
def loop (tokens : ℚ) (clock : ℕ → ℚ) (b : TokenBucket) : ℕ → Option TokenBucket
  | 0 => some b
  | n + 1 => (loop tokens clock b n).bind fun b =>
      match b.iteration tokens (clock n) with
      | (none, _) => none
      | (some _, b) => some b

/-- The call returns after finitely many iterations. -/
def Returns (tokens : ℚ) (clock : ℕ → ℚ) (b : TokenBucket) : Prop :=
  ∃ n, b.loop tokens clock n = none

/-- A sleep in the call takes at least as long as it was asked to. -/
def SleepsInFull (tokens : ℚ) (clock : ℕ → ℚ) (b : TokenBucket) : Prop :=
  ∀ n b' d, b.loop tokens clock n = some b' → (b'.iteration tokens (clock n)).1 = some d →
    clock n + d ≤ clock (n + 1)

section

variable {tokens : ℚ} {clock : ℕ → ℚ} {b : TokenBucket}

theorem loop_succ_of_lt {n : ℕ} {b' : TokenBucket} (hb : b.loop tokens clock n = some b')
    (hlt : (b'.refill (clock n)).tokens < tokens) :
    b.loop tokens clock (n + 1) = some (b'.refill (clock n)) := by
  rcases b'.iteration_cases tokens (clock n) with ⟨hle, -⟩ | ⟨-, hit⟩
  · exact absurd hle (not_le.mpr hlt)
  · simp [loop, hb, hit]

theorem loop_succ_of_le {n : ℕ} {b' : TokenBucket} (hb : b.loop tokens clock n = some b')
    (hle : tokens ≤ (b'.refill (clock n)).tokens) : b.loop tokens clock (n + 1) = none := by
  rcases b'.iteration_cases tokens (clock n) with ⟨-, hit⟩ | ⟨hlt, -⟩
  · simp [loop, hb, hit]
  · exact absurd hle (not_le.mpr hlt)

/-- A call that has returned makes no further iteration. -/
theorem loop_none_of_le {n m : ℕ} (h : b.loop tokens clock n = none) (hle : n ≤ m) :
    b.loop tokens clock m = none := by
  induction hle with
  | refl => exact h
  | step _ ih => simp [loop, ih]

/-- A bucket whose capacity is below the amount asked for never grants it: the refill is capped at
each iteration. -/
theorem loop_of_capacity_lt (hc : b.capacity < tokens) (n : ℕ) :
    ∃ b', b.loop tokens clock n = some b' ∧ b'.capacity = b.capacity := by
  induction n with
  | zero => exact ⟨b, rfl, rfl⟩
  | succ n ih =>
    obtain ⟨b', hb, hcap⟩ := ih
    have hlt : (b'.refill (clock n)).tokens < tokens := by
      have := b'.refill_tokens_le (clock n)
      linarith
    exact ⟨b'.refill (clock n), loop_succ_of_lt hb hlt, hcap⟩

/-- After a sleep in full the refill covers the amount, if the capacity does. -/
theorem tokens_le_refill_refill (hr : 0 < b.rate) (hc : tokens ≤ b.capacity) {now now' : ℚ}
    (hsleep : now + (tokens - (b.refill now).tokens) / b.rate ≤ now') :
    tokens ≤ ((b.refill now).refill now').tokens := by
  refine le_min hc ?_
  show tokens ≤ (b.refill now).tokens + (now' - now) * b.rate
  have hd : (tokens - (b.refill now).tokens) / b.rate ≤ now' - now := by linarith
  have := (div_le_iff₀ hr).mp hd
  linarith

/-- **Progress.** Where the capacity covers the amount, a call makes at most two iterations. -/
theorem loop_two (hr : 0 < b.rate) (hc : tokens ≤ b.capacity)
    (hs : b.SleepsInFull tokens clock) : b.loop tokens clock 2 = none := by
  by_cases h : tokens ≤ (b.refill (clock 0)).tokens
  · have h₁ : b.loop tokens clock 1 = none := loop_succ_of_le rfl h
    simp [loop] at h₁ ⊢
    simp [h₁]
  · have h₁ : b.loop tokens clock 1 = some (b.refill (clock 0)) :=
      loop_succ_of_lt rfl (not_le.mp h)
    refine loop_succ_of_le h₁ (tokens_le_refill_refill hr hc (hs 0 b _ rfl ?_))
    rcases b.iteration_cases tokens (clock 0) with ⟨hle, -⟩ | ⟨-, hit⟩
    · exact absurd hle h
    · rw [hit]

/-- For a call of at most two iterations only its two readings matter. -/
theorem sleepsInFull_of_loop_two (h : b.loop tokens clock 2 = none)
    (h₀ : ∀ d, (b.iteration tokens (clock 0)).1 = some d → clock 0 + d ≤ clock 1)
    (h₁ : ∀ b' d, b.loop tokens clock 1 = some b' →
      (b'.iteration tokens (clock 1)).1 = some d → clock 1 + d ≤ clock 2) :
    b.SleepsInFull tokens clock := by
  intro n b' d hb hd
  rcases n with - | - | n
  · cases hb
    exact h₀ d hd
  · exact h₁ b' d hb hd
  · rw [loop_none_of_le h (by omega)] at hb
    cases hb

/-- **A call returns exactly if the bucket can hold the amount it asks for.** -/
theorem returns_iff (hr : 0 < b.rate) (hs : b.SleepsInFull tokens clock) :
    b.Returns tokens clock ↔ tokens ≤ b.capacity := by
  constructor
  · rintro ⟨n, hn⟩
    by_contra hc
    obtain ⟨b', hb, -⟩ := loop_of_capacity_lt (not_le.mp hc) n
    rw [hn] at hb
    cases hb
  · intro hc
    exact ⟨2, loop_two hr hc hs⟩

end

end TokenBucket

/-! ## All calls -/

/-- A bucket with its lock. `inside` is the amount asked for by the task that holds the lock, and
`grants` the completed calls so far as pairs of a reading and an amount, newest first. -/
structure Limiter where
  bucket : TokenBucket
  inside : Option ℚ := none
  grants : List (ℚ × ℚ) := []
  deriving DecidableEq

namespace Limiter

inductive Action
  /-- a task calls `acquire(tokens)` and gets the lock -/
  | enter (tokens : ℚ)
  /-- the task inside runs one iteration at the reading `now` -/
  | iteration (now : ℚ)
  /-- the task inside is cancelled in its sleep -/
  | cancel

/-- The state after one iteration of the task inside. -/
def iterate (s : Limiter) (tokens now : ℚ) : Limiter :=
  match s.bucket.iteration tokens now with
  | (none, b) => { bucket := b, grants := (now, tokens) :: s.grants }
  | (some _, b) => { s with bucket := b }

def step (s : Limiter) : Action → Option Limiter
  | .enter tokens => if s.inside = none then some { s with inside := some tokens } else none
  | .iteration now => s.inside.map fun tokens => s.iterate tokens now
  | .cancel => s.inside.map fun _ => { s with inside := none }

/-- A fresh bucket. -/
def start (rate : ℚ) (capacity : Option ℚ) (now : ℚ) : Limiter :=
  { bucket := .init rate capacity now }

theorem iterate_cases (s : Limiter) (tokens now : ℚ) :
    (tokens ≤ (s.bucket.refill now).tokens ∧ s.iterate tokens now =
      { bucket := { s.bucket.refill now with tokens := (s.bucket.refill now).tokens - tokens }
        grants := (now, tokens) :: s.grants }) ∨
    ((s.bucket.refill now).tokens < tokens ∧
      s.iterate tokens now = { s with bucket := s.bucket.refill now }) := by
  unfold iterate
  rcases s.bucket.iteration_cases tokens now with ⟨hle, hit⟩ | ⟨hlt, hit⟩
  · exact .inl ⟨hle, by rw [hit]⟩
  · exact .inr ⟨hlt, by rw [hit]⟩

/-- What a step can do. -/
theorem step_cases {s s' : Limiter} {a : Action} (h : step s a = some s') :
    (∃ tokens, a = .enter tokens ∧ s.inside = none ∧ s' = { s with inside := some tokens }) ∨
    (∃ tokens now, a = .iteration now ∧ s.inside = some tokens ∧ s' = s.iterate tokens now) ∨
    (a = .cancel ∧ s' = { s with inside := none }) := by
  cases a with
  | enter tokens =>
    by_cases hin : s.inside = none
    · exact .inl ⟨tokens, rfl, hin, by simpa [step, hin] using h.symm⟩
    · simp [step, hin] at h
  | iteration now =>
    obtain ⟨tokens, hin, rfl⟩ := Option.map_eq_some_iff.mp h
    exact .inr (.inl ⟨tokens, now, rfl, hin, rfl⟩)
  | cancel =>
    obtain ⟨tokens, hin, rfl⟩ := Option.map_eq_some_iff.mp h
    exact .inr (.inr ⟨rfl, rfl⟩)

/-- The rate and the capacity are never written. -/
theorem step_config {s s' : Limiter} {a : Action} (h : step s a = some s') :
    s'.bucket.rate = s.bucket.rate ∧ s'.bucket.capacity = s.bucket.capacity := by
  obtain ⟨tokens, -, -, rfl⟩ | ⟨tokens, now, -, -, rfl⟩ | ⟨-, rfl⟩ := step_cases h
  · exact ⟨rfl, rfl⟩
  · rcases s.iterate_cases tokens now with ⟨-, hit⟩ | ⟨-, hit⟩ <;> simp [hit]
  · exact ⟨rfl, rfl⟩

theorem reach_config {ok : Limiter → Action → Prop} {s s' : Limiter} (h : Reach step ok s s') :
    s'.bucket.rate = s.bucket.rate ∧ s'.bucket.capacity = s.bucket.capacity := by
  refine h.invariant
    (P := fun x => x.bucket.rate = s.bucket.rate ∧ x.bucket.capacity = s.bucket.capacity)
    ⟨rfl, rfl⟩ ?_
  intro s₁ a s₂ hP _ hs
  have := step_config hs
  exact ⟨this.1.trans hP.1, this.2.trans hP.2⟩

/-! ## Progress of the Telegram writer -/

/-- **When a call returns.** A bucket with the default capacity, in any state it can reach, serves
`acquire(1.0)` in finitely many iterations exactly if its rate is at least one. -/
theorem acquire_one_returns_iff (rate now : ℚ) (s : Limiter) (clock : ℕ → ℚ) (hr : 0 < rate)
    (hreach : Reachable step (start rate none now) s) (hs : s.bucket.SleepsInFull 1 clock) :
    s.bucket.Returns 1 clock ↔ 1 ≤ rate := by
  have hconfig := reach_config hreach
  have hrate : s.bucket.rate = rate := hconfig.1
  have hcap : s.bucket.capacity = rate := hconfig.2
  rw [TokenBucket.returns_iff (by rw [hrate]; exact hr) hs, hcap]

/-- A bucket of rate two that two calls have emptied serves the next one after a sleep. -/
theorem acquire_one_returns_iff_emptied :
    TokenBucket.Returns 1 (fun n => n) { rate := 2, capacity := 2, tokens := 0, updated := 0 } ↔
      (1 : ℚ) ≤ 2 := by
  have hrun : runActions step (fun _ _ => True) (start 2 none 0)
      [.enter 1, .iteration 0, .enter 1, .iteration 0] =
        some { bucket := { rate := 2, capacity := 2, tokens := 0, updated := 0 }
               grants := [(0, 1), (0, 1)] } := by decide +kernel
  refine acquire_one_returns_iff 2 0 _ _ (by norm_num) (.of_runActions hrun) ?_
  apply TokenBucket.sleepsInFull_of_loop_two
  · norm_num [TokenBucket.loop, TokenBucket.iteration, TokenBucket.refill]
  · intro d hd
    have : d = 1 / 2 := by
      norm_num [TokenBucket.iteration, TokenBucket.refill] at hd
      linarith
    rw [this]
    norm_num
  · intro b d hb hd
    norm_num [TokenBucket.loop, TokenBucket.iteration, TokenBucket.refill] at hb
    subst hb
    norm_num [TokenBucket.iteration, TokenBucket.refill] at hd
    cases hd

/-- A bucket of half a token per second, last refilled to its capacity before reading `n`. -/
def halfFull (n : ℕ) : TokenBucket :=
  { rate := 1 / 2, capacity := 1 / 2, tokens := 1 / 2, updated := (n - 1 : ℕ) }

theorem halfFull_refill (n : ℕ) : (halfFull n).refill n = halfFull (n + 1) := by
  have hpast : ((n - 1 : ℕ) : ℚ) ≤ n := by exact_mod_cast Nat.sub_le n 1
  have hfull : (1 : ℚ) / 2 ≤ 1 / 2 + (n - (n - 1 : ℕ)) * (1 / 2) := by linarith
  unfold halfFull TokenBucket.refill
  simp only [min_eq_left hfull, Nat.add_sub_cancel]

theorem halfFull_iteration (n : ℕ) :
    (halfFull n).iteration 1 n = (some 1, halfFull (n + 1)) := by
  unfold TokenBucket.iteration
  rw [halfFull_refill]
  norm_num [halfFull]

theorem halfFull_loop (n : ℕ) :
    (halfFull 0).loop 1 (fun n => n) n = some (halfFull n) := by
  induction n with
  | zero => rfl
  | succ n ih => simp [TokenBucket.loop, ih, halfFull_iteration]

/-- At half a token per second the bucket never holds the token that is asked for. -/
theorem acquire_one_stalls :
    ¬ ∀ (rate now : ℚ) (s : Limiter) (clock : ℕ → ℚ), 0 < rate →
      Reachable step (start rate none now) s → s.bucket.SleepsInFull 1 clock →
      s.bucket.Returns 1 clock := by
  intro hall
  have hsleep : (halfFull 0).SleepsInFull 1 fun n => n := by
    intro n b d hb hd
    rw [halfFull_loop, Option.some.injEq] at hb
    subst hb
    rw [halfFull_iteration, Option.some.injEq] at hd
    subst hd
    push_cast
    exact le_rfl
  obtain ⟨n, hn⟩ := hall (1 / 2) 0 (start (1 / 2) none 0) (fun n => n) (by norm_num) .refl hsleep
  have hloop := halfFull_loop n
  rw [show halfFull 0 = (start (1 / 2) none 0).bucket from rfl, hn] at hloop
  cases hloop

/-! ## Bounds on what is granted -/

/-- What the grants of a log whose readings lie in `[s, t]` add up to. -/
def granted (s t : ℚ) (log : List (ℚ × ℚ)) : ℚ :=
  ((log.filter fun g => s ≤ g.1 ∧ g.1 ≤ t).map Prod.snd).sum

theorem granted_cons (s t : ℚ) (g : ℚ × ℚ) (log : List (ℚ × ℚ)) :
    granted s t (g :: log) = (if s ≤ g.1 ∧ g.1 ≤ t then g.2 else 0) + granted s t log := by
  unfold granted
  by_cases h : s ≤ g.1 ∧ g.1 ≤ t
  · simp [h]
  · simp [h]

/-- Past the last reading of a log, the end of the window does not matter. -/
theorem granted_congr {s t t' : ℚ} {log : List (ℚ × ℚ)}
    (h : ∀ g ∈ log, g.1 ≤ t ∧ g.1 ≤ t') : granted s t log = granted s t' log := by
  unfold granted
  congr 2
  refine List.filter_congr fun g hg => ?_
  simp [h g hg]

/-- A window that opens after the last reading is empty. -/
theorem granted_of_lt {s t : ℚ} {log : List (ℚ × ℚ)} (h : ∀ g ∈ log, g.1 < s) :
    granted s t log = 0 := by
  unfold granted
  rw [List.filter_eq_nil_iff.mpr, List.map_nil, List.sum_nil]
  intro g hg
  simp [not_le.mpr (h g hg)]

/-- Readings never fall, and every call asks for a positive amount up to the capacity. -/
def Allowed (s : Limiter) : Action → Prop
  | .enter tokens => 0 < tokens ∧ tokens ≤ s.bucket.capacity
  | .iteration now => s.bucket.updated ≤ now
  | .cancel => True

/-- **The invariant of the bucket.** Whatever was granted since `s` and is still in the bucket came
from the capacity at `s` and from what flowed in since. -/
structure Bounded (s : Limiter) : Prop where
  rate_pos : 0 < s.bucket.rate
  nonneg : 0 ≤ s.bucket.tokens
  le_capacity : s.bucket.tokens ≤ s.bucket.capacity
  inside_pos : ∀ tokens, s.inside = some tokens → 0 < tokens
  past : ∀ g ∈ s.grants, g.1 ≤ s.bucket.updated
  since : ∀ t ≤ s.bucket.updated, granted t s.bucket.updated s.grants + s.bucket.tokens ≤
    s.bucket.capacity + s.bucket.rate * (s.bucket.updated - t)
  window : ∀ t t', t ≤ t' → granted t t' s.grants ≤
    s.bucket.capacity + s.bucket.rate * (t' - t)

namespace Bounded

theorem start {rate capacity now : ℚ} (hr : 0 < rate) (hc : 0 ≤ capacity) :
    Bounded (start rate (some capacity) now) where
  rate_pos := hr
  nonneg := hc
  le_capacity := le_rfl
  inside_pos := by intro tokens h; cases h
  past := by intro g hg; cases hg
  since t ht := by
    have : 0 ≤ rate * (now - t) := mul_nonneg hr.le (sub_nonneg.mpr ht)
    show 0 + capacity ≤ capacity + rate * (now - t)
    linarith
  window t t' ht := by
    have := mul_nonneg hr.le (sub_nonneg.mpr ht)
    show 0 ≤ capacity + rate * (t' - t)
    linarith

section

variable {s : Limiter} {now : ℚ}

theorem refill_nonneg (h : Bounded s) (hnow : s.bucket.updated ≤ now) :
    0 ≤ (s.bucket.refill now).tokens := by
  have hflow := mul_nonneg (sub_nonneg.mpr hnow) h.rate_pos.le
  have := h.nonneg
  exact le_min (h.nonneg.trans h.le_capacity) (by linarith)

/-- A refill keeps the bound for the windows that are still open. -/
theorem refill_since (h : Bounded s) (hnow : s.bucket.updated ≤ now) (t : ℚ) (ht : t ≤ now) :
    granted t now s.grants + (s.bucket.refill now).tokens ≤
      s.bucket.capacity + s.bucket.rate * (now - t) := by
  by_cases hopen : t ≤ s.bucket.updated
  · have hgranted : granted t now s.grants = granted t s.bucket.updated s.grants :=
      granted_congr fun g hg => ⟨(h.past g hg).trans hnow, h.past g hg⟩
    have hflow : (s.bucket.refill now).tokens ≤
        s.bucket.tokens + (now - s.bucket.updated) * s.bucket.rate := min_le_right _ _
    have hsince := h.since t hopen
    rw [hgranted]
    linarith
  · have hgranted : granted t now s.grants = 0 :=
      granted_of_lt fun g hg => (h.past g hg).trans_lt (not_le.mp hopen)
    have hcap := s.bucket.refill_tokens_le now
    have := mul_nonneg h.rate_pos.le (sub_nonneg.mpr ht)
    rw [hgranted]
    linarith

/-- A grant out of the refill keeps every window within its bound. -/
theorem grant_window (h : Bounded s) (hnow : s.bucket.updated ≤ now) {tokens : ℚ}
    (hle : tokens ≤ (s.bucket.refill now).tokens) (t t' : ℚ) (ht : t ≤ t') :
    granted t t' ((now, tokens) :: s.grants) ≤
      s.bucket.capacity + s.bucket.rate * (t' - t) := by
  rw [granted_cons]
  by_cases hin : t ≤ now ∧ now ≤ t'
  · have hgranted : granted t t' s.grants = granted t now s.grants :=
      granted_congr fun g hg =>
        ⟨((h.past g hg).trans hnow).trans hin.2, (h.past g hg).trans hnow⟩
    have hsince := h.refill_since hnow t hin.1
    have hrest := mul_le_mul_of_nonneg_left (sub_le_sub_right hin.2 t) h.rate_pos.le
    rw [if_pos hin, hgranted]
    linarith
  · rw [if_neg hin, zero_add]
    exact h.window t t' ht

theorem iterate (h : Bounded s) (hnow : s.bucket.updated ≤ now) {tokens : ℚ}
    (hin : s.inside = some tokens) : Bounded (s.iterate tokens now) := by
  have hpos := h.inside_pos tokens hin
  have hcap := s.bucket.refill_tokens_le now
  rcases s.iterate_cases tokens now with ⟨hle, hit⟩ | ⟨-, hit⟩
  · rw [hit]
    refine ⟨h.rate_pos, ?_, ?_, ?_, ?_, ?_, h.grant_window hnow hle⟩
    · show 0 ≤ (s.bucket.refill now).tokens - tokens
      linarith
    · show (s.bucket.refill now).tokens - tokens ≤ s.bucket.capacity
      linarith
    · intro k hk
      cases hk
    · intro g hg
      rcases List.mem_cons.mp hg with rfl | hg
      · exact le_rfl
      · exact (h.past g hg).trans hnow
    · intro t ht
      have hsince := h.refill_since hnow t ht
      show granted t now ((now, tokens) :: s.grants) + ((s.bucket.refill now).tokens - tokens) ≤
        s.bucket.capacity + s.bucket.rate * (now - t)
      rw [granted_cons, if_pos ⟨ht, le_rfl⟩]
      linarith
  · rw [hit]
    exact ⟨h.rate_pos, h.refill_nonneg hnow, hcap, h.inside_pos,
      fun g hg => (h.past g hg).trans hnow, fun t ht => h.refill_since hnow t ht, h.window⟩

end

theorem step {s s' : Limiter} {a : Action} (h : Bounded s) (hok : Allowed s a)
    (hs : step s a = some s') : Bounded s' := by
  obtain ⟨tokens, rfl, -, rfl⟩ | ⟨tokens, now, rfl, hin, rfl⟩ | ⟨rfl, rfl⟩ := step_cases hs
  · refine { h with inside_pos := ?_ }
    intro k hk
    rw [← Option.some.inj hk]
    exact hok.1
  · exact h.iterate hok hin
  · exact { h with inside_pos := by intro k hk; cases hk }

theorem of_reach {rate capacity now : ℚ} (hr : 0 < rate) (hc : 0 ≤ capacity) {s : Limiter}
    (h : Reach Limiter.step Allowed (.start rate (some capacity) now) s) : Bounded s :=
  h.invariant (start hr hc) fun _ _ _ hb hok hs => hb.step hok hs

end Bounded

/-- **The rate limit.** Under any sequence of calls the bucket stays between empty and full, and no
window grants more than the capacity and what flows in during the window. -/
theorem granted_le (rate capacity now : ℚ) (hr : 0 < rate) (hc : 0 ≤ capacity) (s : Limiter)
    (h : Reach step Allowed (start rate (some capacity) now) s) :
    (0 ≤ s.bucket.tokens ∧ s.bucket.tokens ≤ capacity) ∧
      ∀ t t', t ≤ t' → granted t t' s.grants ≤ capacity + rate * (t' - t) := by
  have hb := Bounded.of_reach hr hc h
  have hconfig := reach_config h
  have hrate : s.bucket.rate = rate := hconfig.1
  have hcap : s.bucket.capacity = capacity := hconfig.2
  refine ⟨⟨hb.nonneg, hb.le_capacity.trans_eq hcap⟩, fun t t' ht => ?_⟩
  have := hb.window t t' ht
  rwa [hrate, hcap] at this

instance (s : Limiter) (a : Action) : Decidable (Allowed s a) :=
  match a with
  | .enter _ => inferInstanceAs (Decidable (_ ∧ _))
  | .iteration _ => inferInstanceAs (Decidable (_ ≤ _))
  | .cancel => inferInstanceAs (Decidable True)

/-- A bucket of two tokens grants both at once, and a third after half a second. -/
theorem granted_le_burst : granted 0 (1 / 2) [(1 / 2, 1), (0, 1), (0, 1)] ≤ 2 + 2 * (1 / 2 - 0) := by
  have hrun : runActions step Allowed (start 2 (some 2) 0)
      [.enter 1, .iteration 0, .enter 1, .iteration 0, .enter 1, .iteration 0,
        .iteration (1 / 2)] =
        some { bucket := { rate := 2, capacity := 2, tokens := 0, updated := 1 / 2 }
               grants := [(1 / 2, 1), (0, 1), (0, 1)] } := by decide +kernel
  exact (granted_le 2 2 0 (by norm_num) (by norm_num) _ (.of_runActions hrun)).2 0 (1 / 2)
    (by norm_num)

end Limiter

end ApiTemplate.Telemetry
