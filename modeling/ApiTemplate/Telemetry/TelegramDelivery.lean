import ApiTemplate.Telemetry.Destinations
import ApiTemplate.Telemetry.RateLimit
import ApiTemplate.Telemetry.Telegram

/-!
# Delivery to Telegram

`_handle_batch`, `_route`, `_bucket` and `_send` of `TelegramWriter`, whose batches have one event.
Each post first takes a token of the global bucket and one of the bucket of its chat; a reply of 429
leads to another attempt. The consumer task is the only one that uses the buckets, so their locks are
free when it asks for them. The clock is rational and never falls.
-/

namespace ApiTemplate.Telemetry

open TxStore

/-! ## Posts between grants -/

/-- Newest first, pairs of a grant and the post it was for: each post comes after its grant, and each
grant after the posts before it. -/
def Alternating : List (ℚ × ℚ) → Prop
  | [] => True
  | x :: xs => x.1 ≤ x.2 ∧ (∀ y ∈ xs, y.2 ≤ x.1) ∧ Alternating xs

/-- How many of the readings lie in a window. -/
def countIn (s t : ℚ) (times : List ℚ) : ℕ := times.countP fun x => decide (s ≤ x ∧ x ≤ t)

theorem countIn_cons (s t x : ℚ) (times : List ℚ) :
    countIn s t (x :: times) = countIn s t times + if s ≤ x ∧ x ≤ t then 1 else 0 := by
  unfold countIn
  rw [List.countP_cons]
  by_cases h : s ≤ x ∧ x ≤ t <;> simp [h]

theorem countIn_of_lt {s t : ℚ} {times : List ℚ} (h : ∀ x ∈ times, x < s) :
    countIn s t times = 0 := by
  unfold countIn
  rw [List.countP_eq_zero]
  intro x hx
  simp [not_le.mpr (h x hx)]

/-- **A window holds at most one post more than it holds grants.** -/
theorem Alternating.countIn_le {pairs : List (ℚ × ℚ)} (h : Alternating pairs) (s t : ℚ) :
    countIn s t (pairs.map Prod.snd) ≤ countIn s t (pairs.map Prod.fst) + 1 := by
  induction pairs with
  | nil => exact Nat.zero_le _
  | cons x pairs ih =>
    obtain ⟨hx, hbefore, hrest⟩ := h
    have hle := ih hrest
    rw [List.map_cons, List.map_cons, countIn_cons, countIn_cons]
    by_cases hpost : s ≤ x.2 ∧ x.2 ≤ t
    · by_cases hgrant : s ≤ x.1
      · rw [if_pos hpost, if_pos ⟨hgrant, hx.trans hpost.2⟩]
        omega
      · -- the grant comes before the window, and so does every earlier post
        have hnone : countIn s t (pairs.map Prod.snd) = 0 := by
          refine countIn_of_lt fun y hy => ?_
          obtain ⟨z, hz, rfl⟩ := List.mem_map.mp hy
          exact (hbefore z hz).trans_lt (not_le.mp hgrant)
        rw [if_pos hpost, hnone]
        omega
    · rw [if_neg hpost]
      omega

/-- Requests end in the order in which they are listed. -/
theorem Alternating.times_pairwise {pairs : List (ℚ × ℚ)} (h : Alternating pairs) :
    (pairs.map Prod.snd).Pairwise (· ≥ ·) := by
  induction pairs with
  | nil => exact .nil
  | cons x pairs ih =>
    obtain ⟨hx, hbefore, hrest⟩ := h
    refine List.Pairwise.cons (fun t ht => ?_) (ih hrest)
    obtain ⟨y, hy, rfl⟩ := List.mem_map.mp ht
    exact (hbefore y hy).trans hx

/-- Grants of one token each add up to their number. -/
theorem granted_ones (s t : ℚ) (times : List ℚ) :
    Limiter.granted s t (times.map fun x => (x, 1)) = countIn s t times := by
  induction times with
  | nil => rfl
  | cons x times ih =>
    rw [List.map_cons, Limiter.granted_cons, countIn_cons, ih]
    split_ifs <;> push_cast <;> ring

/-- Leaving grants out leaves less. -/
theorem granted_sublist {s t : ℚ} {log log' : List (ℚ × ℚ)} (h : log.Sublist log')
    (hpos : ∀ g ∈ log', 0 ≤ g.2) : Limiter.granted s t log ≤ Limiter.granted s t log' := by
  induction h with
  | slnil => exact le_refl _
  | cons g _ ih =>
    have hrest := ih fun x hx => hpos x (List.mem_cons_of_mem g hx)
    have hg := hpos g List.mem_cons_self
    rw [Limiter.granted_cons]
    split_ifs
    · linarith
    · linarith
  | cons_cons g _ ih =>
    have hrest := ih fun x hx => hpos x (List.mem_cons_of_mem g hx)
    rw [Limiter.granted_cons, Limiter.granted_cons]
    linarith

namespace TelegramWriter

/-! ## `_route` -/

/-- The destinations of a writer; the routes are dicts. -/
structure Routes where
  default : TelegramDestination
  system : Option TelegramDestination := none
  serviceRoutes : List (List Char × TelegramDestination) := []
  levelRoutes : List (List Char × TelegramDestination) := []

/-- `_route` -/
def Routes.route (routes : Routes) (event : TelemetryEvent) : TelegramDestination :=
  if event.kind = KIND_SYSTEM then routes.system.getD routes.default
  else
    match Dict.get? routes.serviceRoutes event.service.toList with
    | some dest => dest
    | none =>
      match Dict.get? routes.levelRoutes event.level.toList with
      | some dest => dest
      | none => routes.default

structure Config where
  routes : Routes
  globalRate : ℚ := 25
  perChatRate : ℚ := 1

/-! ## `_send` -/

/-- The body of a request. -/
structure Payload where
  chatId : List Char
  text : String
  parseMode : String := "HTML"
  disableWebPagePreview : Bool := true
  messageThreadId : Option ℤ := none
  deriving DecidableEq

def payload (dest : TelegramDestination) (text : String) : Payload :=
  { chatId := dest.chatId, text, messageThreadId := dest.threadId }

/-- What becomes of a request. -/
inductive Outcome
  | status (code : ℕ)
  /-- `httpx.HTTPError` -/
  | failed
  /-- another exception, which leaves `_send` -/
  | raised
  deriving DecidableEq

/-- A request, with the readings at which its tokens were granted and at which it ended. -/
structure Post where
  payload : Payload
  key : List Char
  globalAt : ℚ
  chatAt : ℚ
  time : ℚ
  outcome : Outcome

/-- A call of `_send`, with its requests from the last to the first. -/
structure SendCall where
  event : TelemetryEvent
  posts : List Post := []

/-- Where the consumer task stands; `retries` are those that are left. -/
inductive Phase
  | idle
  /-- in `acquire` of the global bucket -/
  | globalWait (retries : ℕ)
  /-- before `_bucket(dest)` -/
  | chatCall (retries : ℕ) (globalAt : ℚ)
  /-- in `acquire` of the bucket of the chat -/
  | chatWait (retries : ℕ) (globalAt : ℚ) (key : List Char)
  | posting (retries : ℕ) (globalAt chatAt : ℚ) (key : List Char)
  /-- before the next attempt -/
  | sleeping (retries : ℕ)
  deriving DecidableEq

/-- A bucket, by the key of its chat, or the global one. -/
abbrev Gate : Type := Option (List Char)

/-- The writer and its calls of `_send`, the last one first. -/
structure Sender where
  clock : ℚ
  buckets : Gate → Option Limiter
  phase : Phase := .idle
  calls : List SendCall := []

namespace Sender

inductive Action
  /-- `_handle_batch([event])` -/
  | handle (event : TelemetryEvent)
  /-- one iteration of the loop of `acquire` -/
  | iteration (now : ℚ)
  /-- `_bucket(dest)` -/
  | bucket (now : ℚ)
  | reply (now : ℚ) (outcome : Outcome)
  /-- `asyncio.sleep(retry_after)` returns -/
  | wake (now : ℚ)

/-- The rate and the capacity of a bucket. -/
def rate (cfg : Config) : Gate → ℚ
  | none => cfg.globalRate
  | some _ => cfg.perChatRate

/-- `acquire()` is called; the lock is free. -/
def enter (s : Sender) (gate : Gate) : Gate → Option Limiter :=
  Function.update s.buckets gate ((s.buckets gate).map fun l => { l with inside := some 1 })

/-- One iteration for the task inside a bucket. -/
def iterate (s : Sender) (gate : Gate) (now : ℚ) : Gate → Option Limiter :=
  Function.update s.buckets gate ((s.buckets gate).map fun l => l.iterate 1 now)

/-- The bucket has let the task go. -/
def granted (buckets : Gate → Option Limiter) (gate : Gate) : Bool :=
  (buckets gate).any fun l => l.inside = none

/-- The event of the running call. -/
def current (s : Sender) : Option TelemetryEvent := s.calls.head?.map SendCall.event

/-- A request of the running call has ended. -/
def record (s : Sender) (post : Post) : List SendCall :=
  s.calls.modifyHead fun call => { call with posts := post :: call.posts }

/-- What follows a reply. -/
def afterReply (retries : ℕ) : Outcome → Phase
  | .status code => if code = 429 ∧ 0 < retries then .sleeping (retries - 1) else .idle
  | .failed => .idle
  | .raised => .idle

def step (cfg : Config) (s : Sender) : Action → Option Sender
  | .handle event =>
    match s.phase with
    | .idle =>
      some { s with buckets := s.enter none, phase := .globalWait 2, calls := { event } :: s.calls }
    | _ => none
  | .iteration now =>
    if now < s.clock then none
    else
      match s.phase with
      | .globalWait r =>
        let buckets := s.iterate none now
        some { s with clock := now, buckets,
                      phase := if granted buckets none then .chatCall r now else .globalWait r }
      | .chatWait r g key =>
        let buckets := s.iterate (some key) now
        some { s with clock := now, buckets,
                      phase := if granted buckets (some key) then .posting r g now key
                               else .chatWait r g key }
      | _ => none
  | .bucket now =>
    if now < s.clock then none
    else
      match s.phase, s.current with
      | .chatCall r g, some event =>
        match (cfg.routes.route event).key with
        -- the number of the thread has no text, and the exception leaves `_send`
        | none => some { s with clock := now, phase := .idle }
        | some key =>
          let made := { s with
            clock := now
            buckets := if (s.buckets (some key)).isSome then s.buckets
              else Function.update s.buckets (some key) (some (.start cfg.perChatRate none now)) }
          some { made with buckets := made.enter (some key), phase := .chatWait r g key }
      | _, _ => none
  | .reply now outcome =>
    if now < s.clock then none
    else
      match s.phase, s.current with
      | .posting r globalAt chatAt key, some event =>
        some { s with
          clock := now
          phase := afterReply r outcome
          calls := s.record
            { payload := payload (cfg.routes.route event) (format event), key, globalAt, chatAt,
              time := now, outcome } }
      | _, _ => none
  | .wake now =>
    if now < s.clock then none
    else
      match s.phase with
      | .sleeping r =>
        some { s with clock := now, buckets := s.enter none, phase := .globalWait r }
      | _ => none

/-- The writer is made: the global bucket is full. -/
def start (cfg : Config) (now : ℚ) : Sender where
  clock := now
  buckets gate := if gate = none then some (.start cfg.globalRate none now) else none

/-- All requests, the last one first. -/
def posts (s : Sender) : List Post := s.calls.flatMap SendCall.posts

/-! ## The books of a bucket -/

/-- The token of a bucket that the running attempt has taken. -/
def held : Phase → Gate → Option ℚ
  | .chatCall _ g, none => some g
  | .chatWait _ g _, none => some g
  | .posting _ g _ _, none => some g
  | .posting _ _ c key, some k => if key = k then some c else none
  | _, _ => none

/-- The task is inside the bucket. -/
def waits : Phase → Gate → Bool
  | .globalWait _, none => true
  | .chatWait _ _ key, some k => key = k
  | _, _ => false

end Sender

/-- The token of a bucket that a request has used. -/
def Post.grantAt (post : Post) : Gate → Option ℚ
  | none => some post.globalAt
  | some k => if post.key = k then some post.chatAt else none

/-- The requests that have passed a bucket, as pairs of a grant and a time. -/
def passes (posts : List Post) (gate : Gate) : List (ℚ × ℚ) :=
  posts.filterMap fun post => (post.grantAt gate).map fun g => (g, post.time)

namespace Sender

/-- **The books of a bucket**: each request that has passed it used a token of its own, granted after
the request before, and so does the running attempt if it has been granted one. -/
structure Books (cfg : Config) (s : Sender) (gate : Gate) : Prop where
  alternating : Alternating (passes s.posts gate)
  past : ∀ x ∈ passes s.posts gate, x.2 ≤ s.clock
  holding : ∀ a, held s.phase gate = some a →
    a ≤ s.clock ∧ ∀ x ∈ passes s.posts gate, x.2 ≤ a
  absent : s.buckets gate = none →
    held s.phase gate = none ∧ passes s.posts gate = [] ∧ waits s.phase gate = false
  bucket : ∀ l, s.buckets gate = some l →
    Limiter.Bounded l ∧ l.bucket.rate = rate cfg gate ∧ l.bucket.capacity = rate cfg gate ∧
      l.bucket.updated ≤ s.clock ∧ (∀ g ∈ l.grants, 0 ≤ g.2) ∧
      (((held s.phase gate).toList ++ (passes s.posts gate).map Prod.fst).map
        fun x => (x, (1 : ℚ))).Sublist l.grants ∧
      (waits s.phase gate = true → l.inside = some 1)

section

variable {cfg : Config} {s s' : Sender} {gate : Gate}

/-- Where the clock moves on and a token that is held may be given up, the books stay in order. -/
theorem Books.frame (h : Books cfg s gate) (hclock : s.clock ≤ s'.clock)
    (hbucket : s'.buckets gate = s.buckets gate) (hposts : s'.posts = s.posts)
    (hheld : held s'.phase gate = held s.phase gate ∨ held s'.phase gate = none)
    (hwaits : waits s'.phase gate = true → waits s.phase gate = true) : Books cfg s' gate where
  alternating := hposts ▸ h.alternating
  past x hx := (h.past x (hposts ▸ hx)).trans hclock
  holding a ha := by
    rcases hheld with hsame | hnone
    · obtain ⟨hle, hafter⟩ := h.holding a (hsame ▸ ha)
      exact ⟨hle.trans hclock, hposts ▸ hafter⟩
    · rw [hnone] at ha
      cases ha
  absent hb := by
    obtain ⟨hnone, hpasses, hfree⟩ := h.absent (hbucket ▸ hb)
    refine ⟨?_, hposts ▸ hpasses, ?_⟩
    · rcases hheld with hsame | hnone'
      · exact hsame.trans hnone
      · exact hnone'
    · rw [Bool.eq_false_iff]
      intro hwait
      rw [hwaits hwait] at hfree
      cases hfree
  bucket l hl := by
    obtain ⟨hb, hr, hc, hu, hpos, hsub, hin⟩ := h.bucket l (hbucket ▸ hl)
    refine ⟨hb, hr, hc, hu.trans hclock, hpos, ?_, fun hw => hin (hwaits hw)⟩
    rw [hposts]
    rcases hheld with hsame | hnone
    · rw [hsame]
      exact hsub
    · rw [hnone]
      refine List.Sublist.trans (List.Sublist.map _ ?_) hsub
      exact List.sublist_append_right _ _

/-- The task enters a bucket whose token it does not hold. -/
theorem Books.enter (h : Books cfg s gate) (hclock : s.clock ≤ s'.clock)
    (hbucket : s'.buckets gate = (s.buckets gate).map fun l => { l with inside := some 1 })
    (hmade : s.buckets gate ≠ none) (hposts : s'.posts = s.posts)
    (hheld : held s'.phase gate = none) : Books cfg s' gate where
  alternating := hposts ▸ h.alternating
  past x hx := (h.past x (hposts ▸ hx)).trans hclock
  holding a ha := by
    rw [hheld] at ha
    cases ha
  absent hb := by
    rw [hbucket, Option.map_eq_none_iff] at hb
    exact absurd hb hmade
  bucket l hl := by
    obtain ⟨l₀, hl₀, rfl⟩ := Option.map_eq_some_iff.mp (hbucket ▸ hl)
    obtain ⟨hb, hr, hc, hu, hpos, hsub, -⟩ := h.bucket l₀ hl₀
    refine ⟨{ hb with inside_pos := ?_ }, hr, hc, hu.trans hclock, hpos, ?_, fun _ => rfl⟩
    · intro tokens ht
      rw [← Option.some.inj ht]
      exact one_pos
    · rw [hheld, hposts]
      refine List.Sublist.trans (List.Sublist.map _ ?_) hsub
      exact List.sublist_append_right _ _

/-- One iteration of the loop in a bucket. -/
theorem Books.iterate (h : Books cfg s gate) {now : ℚ} (hnow : s.clock ≤ now)
    (hwait : waits s.phase gate = true) (hfree : held s.phase gate = none)
    (hclock : s'.clock = now)
    (hbucket : s'.buckets gate = (s.buckets gate).map fun l => l.iterate 1 now)
    (hposts : s'.posts = s.posts)
    (hheld : held s'.phase gate = if granted s'.buckets gate then some now else none)
    (hwaits : waits s'.phase gate = true → granted s'.buckets gate = false) :
    Books cfg s' gate where
  alternating := hposts ▸ h.alternating
  past x hx := (h.past x (hposts ▸ hx)).trans (hclock ▸ hnow)
  holding a ha := by
    rw [hheld] at ha
    split at ha
    · obtain rfl := Option.some.inj ha
      exact ⟨hclock.ge, fun x hx => (h.past x (hposts ▸ hx)).trans hnow⟩
    · cases ha
  absent hb := by
    rw [hbucket, Option.map_eq_none_iff] at hb
    rw [(h.absent hb).2.2] at hwait
    cases hwait
  bucket l hl := by
    have hgranted : granted s'.buckets gate = decide (l.inside = none) := by
      unfold granted
      rw [hl]
      rfl
    obtain ⟨l₀, hl₀, rfl⟩ := Option.map_eq_some_iff.mp (hbucket ▸ hl)
    obtain ⟨hb, hr, hc, hu, hpos, hsub, hin⟩ := h.bucket l₀ hl₀
    rw [hfree] at hsub
    have hbound := hb.iterate (hu.trans hnow) (hin hwait)
    rcases l₀.iterate_cases 1 now with ⟨-, hit⟩ | ⟨-, hit⟩
    · rw [hit] at hgranted hbound ⊢
      rw [hheld, hgranted, hposts]
      refine ⟨hbound, hr, hc, hclock.ge, ?_, ?_, fun hw => ?_⟩
      · exact List.forall_mem_cons.mpr ⟨zero_le_one, hpos⟩
      · exact hsub.cons_cons (now, (1 : ℚ))
      · have := hwaits hw
        rw [hgranted] at this
        cases this
    · rw [hit] at hgranted hbound ⊢
      have hstill : granted s'.buckets gate = false := by
        rw [hgranted]
        simp [hin hwait]
      rw [hheld, hstill, hposts]
      exact ⟨hbound, hr, hc, hclock.ge, hpos, hsub, fun _ => hin hwait⟩

theorem passes_cons (post : Post) (posts : List Post) (gate : Gate) :
    passes (post :: posts) gate =
      ((post.grantAt gate).map fun g => (g, post.time)).toList ++ passes posts gate := by
  unfold passes
  rw [List.filterMap_cons]
  cases post.grantAt gate <;> rfl

/-- A request ends: the token it held is used up. -/
theorem Books.reply (h : Books cfg s gate) {post : Post} (hnow : s.clock ≤ post.time)
    (hclock : s'.clock = post.time) (hbucket : s'.buckets gate = s.buckets gate)
    (hposts : s'.posts = post :: s.posts) (hgrant : post.grantAt gate = held s.phase gate)
    (hheld : held s'.phase gate = none) (hwaits : waits s'.phase gate = false) :
    Books cfg s' gate where
  alternating := by
    rw [hposts, passes_cons, hgrant]
    cases ha : held s.phase gate with
    | none => exact h.alternating
    | some a =>
      obtain ⟨hle, hafter⟩ := h.holding a ha
      exact ⟨hle.trans hnow, hafter, h.alternating⟩
  past x hx := by
    rw [hclock]
    rw [hposts, passes_cons] at hx
    rcases List.mem_append.mp hx with hx | hx
    · obtain ⟨a, -, rfl⟩ := Option.map_eq_some_iff.mp (Option.mem_toList.mp hx)
      exact le_refl _
    · exact (h.past x hx).trans hnow
  holding a ha := by
    rw [hheld] at ha
    cases ha
  absent hb := by
    obtain ⟨hnone, hpasses, -⟩ := h.absent (hbucket ▸ hb)
    refine ⟨hheld, ?_, hwaits⟩
    rw [hposts, passes_cons, hgrant, hnone, hpasses]
    rfl
  bucket l hl := by
    obtain ⟨hb, hr, hc, hu, hpos, hsub, -⟩ := h.bucket l (hbucket ▸ hl)
    refine ⟨hb, hr, hc, hclock ▸ hu.trans hnow, hpos, ?_, fun hw => ?_⟩
    · rw [hheld, hposts, passes_cons, hgrant]
      cases ha : held s.phase gate with
      | none =>
        rw [ha] at hsub
        exact hsub
      | some a =>
        rw [ha] at hsub
        exact hsub
    · rw [hwaits] at hw
      cases hw

/-- A bucket that is made is full, and nothing has passed it. -/
theorem Books.made (h : Books cfg s gate) (habsent : s.buckets gate = none)
    (hrate : 0 < rate cfg gate)
    (hbucket : s'.buckets gate = some (.start (rate cfg gate) none s'.clock))
    (hposts : s'.posts = s.posts) (hphase : s'.phase = s.phase) : Books cfg s' gate := by
  obtain ⟨hnone, hpasses, hfree⟩ := h.absent habsent
  refine ⟨?_, ?_, ?_, ?_, ?_⟩
  · rw [hposts, hpasses]
    trivial
  · rw [hposts, hpasses]
    exact fun _ hx => absurd hx List.not_mem_nil
  · rw [hphase, hnone]
    intro a ha
    cases ha
  · intro hb
    rw [hbucket] at hb
    cases hb
  · intro l hl
    obtain rfl := Option.some.inj (hbucket.symm.trans hl)
    rw [hphase, hposts, hnone, hpasses, hfree]
    refine ⟨Limiter.Bounded.start hrate hrate.le, rfl, rfl, le_refl _, ?_, .slnil, ?_⟩
    · exact fun _ hg => absurd hg List.not_mem_nil
    · intro hw
      cases hw

/-! ## Steps -/

/-- What a step can do. -/
theorem step_cases {a : Action} (hs : s.step cfg a = some s') :
    (∃ event, a = .handle event ∧ s.phase = .idle ∧
      s' = { s with
        buckets := s.enter none, phase := .globalWait 2, calls := { event } :: s.calls }) ∨
    (∃ r now, s.phase = .globalWait r ∧ s.clock ≤ now ∧
      s' = { s with
        clock := now, buckets := s.iterate none now
        phase := if granted (s.iterate none now) none then .chatCall r now
                 else .globalWait r }) ∨
    (∃ r g now event, s.phase = .chatCall r g ∧ s.clock ≤ now ∧ s.current = some event ∧
      (cfg.routes.route event).key = none ∧ s' = { s with clock := now, phase := .idle }) ∨
    (∃ r g key now made event, s.phase = .chatCall r g ∧ s.clock ≤ now ∧
      s.current = some event ∧ (cfg.routes.route event).key = some key ∧
      made = { s with
        clock := now
        buckets := if (s.buckets (some key)).isSome then s.buckets
          else Function.update s.buckets (some key) (some (.start cfg.perChatRate none now)) } ∧
      s' = { made with buckets := made.enter (some key), phase := .chatWait r g key }) ∨
    (∃ r g key now, s.phase = .chatWait r g key ∧ s.clock ≤ now ∧
      s' = { s with
        clock := now, buckets := s.iterate (some key) now
        phase := if granted (s.iterate (some key) now) (some key) then .posting r g now key
                 else .chatWait r g key }) ∨
    (∃ r g c key now outcome event post, s.phase = .posting r g c key ∧ s.clock ≤ now ∧
      s.current = some event ∧
      post = { payload := payload (cfg.routes.route event) (format event), key, globalAt := g,
               chatAt := c, time := now, outcome : Post } ∧
      s' = { s with clock := now, phase := afterReply r outcome, calls := s.record post }) ∨
    (∃ r now, s.phase = .sleeping r ∧ s.clock ≤ now ∧
      s' = { s with clock := now, buckets := s.enter none, phase := .globalWait r }) := by
  cases a with
  | handle event =>
    simp only [step] at hs
    split at hs
    · rename_i hphase
      exact .inl ⟨event, rfl, hphase, (Option.some.inj hs).symm⟩
    · cases hs
  | iteration now =>
    simp only [step] at hs
    split at hs
    · cases hs
    · rename_i hnow
      split at hs
      · rename_i r hphase
        exact .inr (.inl ⟨r, now, hphase, not_lt.mp hnow, (Option.some.inj hs).symm⟩)
      · rename_i r g key hphase
        exact .inr (.inr (.inr (.inr (.inl
          ⟨r, g, key, now, hphase, not_lt.mp hnow, (Option.some.inj hs).symm⟩))))
      · cases hs
  | bucket now =>
    simp only [step] at hs
    split at hs
    · cases hs
    · rename_i hnow
      split at hs
      · rename_i r g event hphase hevent
        split at hs
        · rename_i hkey
          exact .inr (.inr (.inl ⟨r, g, now, event, hphase, not_lt.mp hnow, hevent, hkey,
            (Option.some.inj hs).symm⟩))
        · rename_i key hkey
          exact .inr (.inr (.inr (.inl ⟨r, g, key, now, _, event, hphase, not_lt.mp hnow, hevent,
            hkey, rfl, (Option.some.inj hs).symm⟩)))
      · cases hs
  | reply now outcome =>
    simp only [step] at hs
    split at hs
    · cases hs
    · rename_i hnow
      split at hs
      · rename_i r g c key event hphase hevent
        exact .inr (.inr (.inr (.inr (.inr (.inl ⟨r, g, c, key, now, outcome, event, _, hphase,
          not_lt.mp hnow, hevent, rfl, (Option.some.inj hs).symm⟩)))))
      · cases hs
  | wake now =>
    simp only [step] at hs
    split at hs
    · cases hs
    · rename_i hnow
      split at hs
      · rename_i r hphase
        exact .inr (.inr (.inr (.inr (.inr (.inr
          ⟨r, now, hphase, not_lt.mp hnow, (Option.some.inj hs).symm⟩)))))
      · cases hs

theorem held_afterReply (r : ℕ) (outcome : Outcome) (gate : Gate) :
    held (afterReply r outcome) gate = none ∧ waits (afterReply r outcome) gate = false := by
  unfold afterReply
  split
  · split <;> exact ⟨rfl, rfl⟩
  · exact ⟨rfl, rfl⟩
  · exact ⟨rfl, rfl⟩

/-- The request becomes the last one. -/
theorem posts_record {event : TelemetryEvent} (h : s.current = some event) (post : Post) :
    (s.record post).flatMap SendCall.posts = post :: s.posts := by
  unfold current at h
  unfold record posts
  cases hcalls : s.calls with
  | nil =>
    rw [hcalls] at h
    cases h
  | cons call calls => rfl

/-- The books of all buckets, of which the global one exists. -/
def InOrder (cfg : Config) (s : Sender) : Prop :=
  s.buckets none ≠ none ∧ ∀ gate, Books cfg s gate

theorem InOrder.start {now : ℚ} (hg : 0 < cfg.globalRate) :
    InOrder cfg (start cfg now) := by
  refine ⟨Option.some_ne_none _, fun gate => ⟨trivial, ?_, ?_, ?_, ?_⟩⟩
  · exact fun _ hx => absurd hx List.not_mem_nil
  · intro a ha
    cases gate <;> cases ha
  · intro _
    cases gate <;> exact ⟨rfl, rfl, rfl⟩
  · intro l hl
    cases gate with
    | none =>
      obtain rfl : Limiter.start cfg.globalRate none now = l := Option.some.inj hl
      refine ⟨Limiter.Bounded.start hg hg.le, rfl, rfl, le_refl _, ?_, .slnil, ?_⟩
      · exact fun _ h => absurd h List.not_mem_nil
      · intro hw
        cases hw
    | some key => cases hl

/-- The writer asks for a token of the global bucket. -/
theorem InOrder.enterGlobal (h : InOrder cfg s) {r : ℕ} (hheld : ∀ gate, held s.phase gate = none)
    (hbuckets : s'.buckets = s.enter none) (hclock : s.clock ≤ s'.clock)
    (hphase : s'.phase = .globalWait r) (hposts : s'.posts = s.posts) : InOrder cfg s' := by
  have hglobal : s'.buckets none = (s.buckets none).map fun l => { l with inside := some 1 } := by
    rw [hbuckets]
    exact Function.update_self _ _ _
  refine ⟨?_, fun gate => ?_⟩
  · rw [hglobal]
    exact fun hnone => h.1 (Option.map_eq_none_iff.mp hnone)
  · cases gate with
    | none => exact (h.2 none).enter hclock hglobal h.1 hposts (by rw [hphase]; rfl)
    | some k =>
      refine (h.2 (some k)).frame hclock ?_ hposts (.inl ?_) ?_
      · rw [hbuckets]
        exact Function.update_of_ne (Option.some_ne_none k) _ _
      · rw [hphase, hheld]
        rfl
      · rw [hphase]
        intro hw
        cases hw

/-- An iteration in one bucket. -/
theorem InOrder.iterate (h : InOrder cfg s) {g : Gate} {now : ℚ} (hnow : s.clock ≤ now)
    (hwait : waits s.phase g = true) (hfree : held s.phase g = none)
    (hbuckets : s'.buckets = s.iterate g now) (hclock : s'.clock = now)
    (hposts : s'.posts = s.posts)
    (hheld : held s'.phase g = if granted s'.buckets g then some now else none)
    (hwaits : waits s'.phase g = true → granted s'.buckets g = false)
    (hothers : ∀ gate ≠ g, held s'.phase gate = held s.phase gate ∧
      (waits s'.phase gate = true → waits s.phase gate = true)) : InOrder cfg s' := by
  have hbucket : s'.buckets g = (s.buckets g).map fun l => l.iterate 1 now := by
    rw [hbuckets]
    exact Function.update_self _ _ _
  have hother : ∀ gate ≠ g, s'.buckets gate = s.buckets gate := fun gate hne => by
    rw [hbuckets]
    exact Function.update_of_ne hne _ _
  refine ⟨?_, fun gate => ?_⟩
  · by_cases hg : g = none
    · subst hg
      rw [hbucket]
      exact fun hnone => h.1 (Option.map_eq_none_iff.mp hnone)
    · rw [hother none (Ne.symm hg)]
      exact h.1
  · by_cases hgate : gate = g
    · subst hgate
      exact (h.2 gate).iterate hnow hwait hfree hclock hbucket hposts hheld hwaits
    · obtain ⟨hsame, hless⟩ := hothers gate hgate
      exact (h.2 gate).frame (hclock ▸ hnow) (hother gate hgate) hposts (.inl hsame) hless

/-- The bucket of a chat is made, unless there is one. -/
theorem InOrder.makeChat (hc : 0 < cfg.perChatRate) (h : InOrder cfg s) {now : ℚ}
    (hnow : s.clock ≤ now) (key : List Char) :
    InOrder cfg { s with
      clock := now
      buckets := if (s.buckets (some key)).isSome then s.buckets
        else Function.update s.buckets (some key) (some (.start cfg.perChatRate none now)) } := by
  by_cases hsome : (s.buckets (some key)).isSome
  · rw [if_pos hsome]
    exact ⟨h.1, fun gate => (h.2 gate).frame hnow rfl rfl (.inl rfl) id⟩
  · rw [if_neg hsome]
    refine ⟨?_, fun gate => ?_⟩
    · dsimp only
      rw [Function.update_of_ne (Option.some_ne_none key).symm]
      exact h.1
    · by_cases hgate : gate = some key
      · subst hgate
        exact (h.2 (some key)).made (by simpa using hsome) hc (Function.update_self _ _ _) rfl rfl
      · exact (h.2 gate).frame hnow (Function.update_of_ne hgate _ _) rfl (.inl rfl) id

/-- With a token of the global bucket, the writer asks for one of the bucket of the chat. -/
theorem InOrder.enterChat (h : InOrder cfg s) {r : ℕ} {g : ℚ} {key : List Char}
    (hphase : s.phase = .chatCall r g) (hexists : s.buckets (some key) ≠ none) :
    InOrder cfg { s with buckets := s.enter (some key), phase := .chatWait r g key } := by
  refine ⟨?_, fun gate => ?_⟩
  · unfold enter
    dsimp only
    rw [Function.update_of_ne (Option.some_ne_none key).symm]
    exact h.1
  · by_cases hgate : gate = some key
    · subst hgate
      exact (h.2 (some key)).enter (le_refl _) (Function.update_self _ _ _) hexists rfl rfl
    · refine (h.2 gate).frame (le_refl _) (Function.update_of_ne hgate _ _) rfl (.inl ?_) ?_
      · rw [hphase]
        cases gate <;> rfl
      · intro hw
        cases gate with
        | none => cases hw
        | some k =>
          have hk : key = k := of_decide_eq_true hw
          exact absurd (congrArg some hk.symm) hgate

/-- **The books of all buckets stay in order.** -/
theorem InOrder.step (hc : 0 < cfg.perChatRate) (h : InOrder cfg s) {a : Action}
    (hs : s.step cfg a = some s') : InOrder cfg s' := by
  obtain ⟨event, -, hphase, rfl⟩ | ⟨r, now, hphase, hnow, rfl⟩ |
    ⟨r, g, now, event, hphase, hnow, -, -, rfl⟩ |
    ⟨r, g, key, now, made, event, hphase, hnow, -, -, hmade, rfl⟩ |
    ⟨r, g, key, now, hphase, hnow, rfl⟩ |
    ⟨r, g, c, key, now, outcome, event, post, hphase, hnow, hevent, rfl, rfl⟩ |
    ⟨r, now, hphase, hnow, rfl⟩ := step_cases hs
  · refine h.enterGlobal (fun gate => ?_) rfl (le_refl _) rfl rfl
    rw [hphase]
    cases gate <;> rfl
  · refine h.iterate hnow (g := none) ?_ ?_ rfl rfl rfl ?_ ?_ fun gate hne => ?_
    · rw [hphase]
      rfl
    · rw [hphase]
      rfl
    · dsimp only
      split <;> rfl
    · dsimp only
      split
      · intro hw
        cases hw
      · rename_i hgranted
        exact fun _ => by simpa using hgranted
    · obtain ⟨k, rfl⟩ := Option.ne_none_iff_exists'.mp hne
      dsimp only
      rw [hphase]
      split <;> exact ⟨rfl, fun hw => hw⟩
  · refine ⟨h.1, fun gate => (h.2 gate).frame hnow rfl rfl (.inr ?_) ?_⟩
    · cases gate <;> rfl
    · intro hw
      cases gate <;> cases hw
  · have hmake := h.makeChat hc hnow key
    rw [← hmade] at hmake
    refine hmake.enterChat (by rw [hmade]; exact hphase) ?_
    rw [hmade]
    dsimp only
    split
    · rename_i hsome
      exact Option.isSome_iff_ne_none.mp hsome
    · rw [Function.update_self]
      exact Option.some_ne_none _
  · refine h.iterate hnow (g := some key) ?_ ?_ rfl rfl rfl ?_ ?_ fun gate hne => ?_
    · rw [hphase]
      exact decide_eq_true rfl
    · rw [hphase]
      rfl
    · dsimp only
      split
      · exact if_pos rfl
      · rfl
    · dsimp only
      split
      · intro hw
        cases hw
      · rename_i hgranted
        exact fun _ => by simpa using hgranted
    · dsimp only
      rw [hphase]
      cases gate with
      | none => split <;> exact ⟨rfl, fun hw => (by cases hw)⟩
      | some k =>
        have hk : key ≠ k := fun hk => hne (congrArg some hk.symm)
        split
        · exact ⟨if_neg hk, fun hw => (by cases hw)⟩
        · exact ⟨rfl, id⟩
  · refine ⟨h.1, fun gate => ?_⟩
    refine (h.2 gate).reply hnow rfl rfl (posts_record hevent _) ?_
      (held_afterReply r outcome gate).1 (held_afterReply r outcome gate).2
    rw [hphase]
    cases gate <;> rfl
  · refine h.enterGlobal (fun gate => ?_) rfl hnow rfl rfl
    rw [hphase]
    cases gate <;> rfl

/-! ## How often requests are sent -/

theorem passes_global (posts : List Post) : (passes posts none).map Prod.snd = posts.map Post.time := by
  induction posts with
  | nil => rfl
  | cons post posts ih =>
    rw [passes_cons, List.map_append, ih]
    rfl

theorem passes_chat (posts : List Post) (key : List Char) :
    (passes posts (some key)).map Prod.snd = (posts.filter (·.key = key)).map Post.time := by
  induction posts with
  | nil => rfl
  | cons post posts ih =>
    rw [passes_cons, List.map_append, ih, List.filter_cons]
    unfold Post.grantAt
    by_cases hkey : post.key = key
    · simp [hkey]
    · simp [hkey]

/-- What has passed a bucket in a window. -/
theorem Books.window (h : Books cfg s gate) (hrate : 0 < rate cfg gate) {t t' : ℚ} (ht : t ≤ t') :
    (countIn t t' ((passes s.posts gate).map Prod.snd) : ℚ) ≤
      rate cfg gate * (1 + (t' - t)) + 1 := by
  have hposts : (countIn t t' ((passes s.posts gate).map Prod.snd) : ℚ) ≤
      countIn t t' ((passes s.posts gate).map Prod.fst) + 1 := by
    exact_mod_cast h.alternating.countIn_le t t'
  cases hb : s.buckets gate with
  | none =>
    rw [(h.absent hb).2.1]
    have hflow := mul_pos hrate (by linarith : 0 < 1 + (t' - t))
    show ((0 : ℕ) : ℚ) ≤ _
    push_cast
    linarith
  | some l =>
    obtain ⟨hbound, hr, hc, -, hpos, hsub, -⟩ := h.bucket l hb
    have hgrants : (countIn t t' ((passes s.posts gate).map Prod.fst) : ℚ) ≤
        Limiter.granted t t' l.grants := by
      rw [← granted_ones]
      refine granted_sublist (List.Sublist.trans (List.Sublist.map _ ?_) hsub) hpos
      exact List.sublist_append_right _ _
    have hwindow := hbound.window t t' ht
    rw [hr, hc] at hwindow
    calc (countIn t t' ((passes s.posts gate).map Prod.snd) : ℚ)
        ≤ countIn t t' ((passes s.posts gate).map Prod.fst) + 1 := hposts
      _ ≤ Limiter.granted t t' l.grants + 1 := by linarith
      _ ≤ rate cfg gate + rate cfg gate * (t' - t) + 1 := by linarith
      _ = rate cfg gate * (1 + (t' - t)) + 1 := by ring

theorem inOrder_of_reach (hg : 0 < cfg.globalRate) (hc : 0 < cfg.perChatRate) {now : ℚ}
    (h : Reachable (Sender.step cfg) (start cfg now) s) : InOrder cfg s :=
  h.invariant (InOrder.start hg) fun _ _ _ h₁ _ hs => h₁.step hc hs

/-- **The rate of requests.** Whatever is handled, and however replies, retries and the clock go, no
window holds more requests than the global rate allows for it and a burst before it, plus one; and for
each chat, no more than its own rate allows. -/
theorem requests_in_window (hg : 0 < cfg.globalRate) (hc : 0 < cfg.perChatRate) {now : ℚ}
    (h : Reachable (Sender.step cfg) (start cfg now) s) (t t' : ℚ) (ht : t ≤ t') :
    (s.posts.map Post.time).Pairwise (· ≥ ·) ∧
      (countIn t t' (s.posts.map Post.time) : ℚ) ≤ cfg.globalRate * (1 + (t' - t)) + 1 ∧
      ∀ key, (countIn t t' ((s.posts.filter (·.key = key)).map Post.time) : ℚ) ≤
        cfg.perChatRate * (1 + (t' - t)) + 1 := by
  have hbooks := inOrder_of_reach hg hc h
  refine ⟨?_, ?_, ?_⟩
  · rw [← passes_global]
    exact (hbooks.2 none).alternating.times_pairwise
  · rw [← passes_global]
    exact (hbooks.2 none).window hg ht
  · intro key
    rw [← passes_chat]
    exact (hbooks.2 (some key)).window hc ht

/-- Two attempts, and a third that waits for its tokens. -/
def floodedRun : List Action :=
  [.handle { service := "api", level := "ERROR", epoch := 0 }, .iteration 0, .bucket 0,
    .iteration 0, .reply 1 (.status 429), .wake 2, .iteration 2, .bucket 2, .iteration 2,
    .reply 3 (.status 429), .wake 9, .iteration 9]

/-- A chat for the API, and another for the rest. -/
def twoChats : Config where
  globalRate := 1
  routes := { default := { chatId := "-100".toList }
              serviceRoutes := [("api".toList, { chatId := "-200".toList, threadId := some 12 })] }

def flooded : Option Sender :=
  runActions (Sender.step twoChats) (fun _ _ => True) (start twoChats 0) floodedRun

theorem isSome_flooded : flooded.isSome := by decide +kernel

theorem reachable_flooded :
    Reachable (Sender.step twoChats) (start twoChats 0) (flooded.get isSome_flooded) :=
  Reach.of_runActions (Option.some_get isSome_flooded).symm

theorem requests_in_window_flooded :
    countIn 1 3 ((flooded.get isSome_flooded).posts.map Post.time) = 2 ∧
      (countIn 1 3 ((flooded.get isSome_flooded).posts.map Post.time) : ℚ) ≤ 1 * (1 + (3 - 1)) + 1 := by
  have hrun := reachable_flooded
  refine ⟨by decide +kernel, ?_⟩
  generalize flooded.get isSome_flooded = s at hrun ⊢
  have hglobal : (0 : ℚ) < twoChats.globalRate := one_pos
  have hchat : (0 : ℚ) < twoChats.perChatRate := one_pos
  exact (requests_in_window hglobal hchat hrun 1 3 (by norm_num)).2.1

end

end Sender

end TelegramWriter

end ApiTemplate.Telemetry
