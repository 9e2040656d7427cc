import ApiTemplate.Telemetry.TelegramDelivery

/-!
# Attempts to deliver an event

How often and with what `TelegramWriter._send` sends an event, over whole runs of the writer.
-/

namespace ApiTemplate.Telemetry

open TxStore

namespace TelegramWriter

namespace Sender

section

variable {cfg : Config} {s s' : Sender}

/-! ## What is sent for an event -/

/-- The request is the one for the event. -/
def IsFor (cfg : Config) (event : TelemetryEvent) (post : Post) : Prop :=
  post.payload = payload (cfg.routes.route event) (format event) ∧
    (cfg.routes.route event).key = some post.key

/-- **What a call of `_send` has done when it is over.** It has sent the event to its destination up
to three times, and again only after a reply of 429; it has given up before three such replies in no
other case than a chat without a key. -/
structure Delivered (cfg : Config) (call : SendCall) : Prop where
  sent : ∀ post ∈ call.posts, IsFor cfg call.event post
  few : call.posts.length ≤ 3
  retried : ∀ post ∈ call.posts.tail, post.outcome = .status 429
  some_sent : call.posts = [] → (cfg.routes.route call.event).key = none
  last : ∀ post, call.posts.head? = some post → post.outcome = .status 429 → call.posts.length = 3

/-- The retries that are left. -/
def retriesOf : Phase → ℕ
  | .idle => 0
  | .globalWait r => r
  | .chatCall r _ => r
  | .chatWait r _ _ => r
  | .posting r _ _ _ => r
  | .sleeping r => r

/-- The key the task has asked for. -/
def keyOf : Phase → Option (List Char)
  | .chatWait _ _ key => some key
  | .posting _ _ _ key => some key
  | _ => none

/-- What the running call has done: every request was answered 429. -/
structure Attempting (cfg : Config) (phase : Phase) (call : SendCall) : Prop where
  sent : ∀ post ∈ call.posts, IsFor cfg call.event post
  retried : ∀ post ∈ call.posts, post.outcome = .status 429
  left : retriesOf phase + call.posts.length = 2
  key : ∀ key, keyOf phase = some key → (cfg.routes.route call.event).key = some key

/-- The calls before the last are over, and so is the last one when the task is idle. -/
def Log (cfg : Config) (s : Sender) : Prop :=
  match s.phase, s.calls with
  | .idle, calls => ∀ call ∈ calls, Delivered cfg call
  | _, [] => False
  | phase, call :: calls => Attempting cfg phase call ∧ ∀ call ∈ calls, Delivered cfg call

theorem log_iff {phase : Phase} (hphase : s.phase = phase) (hbusy : phase ≠ .idle) :
    s.Log cfg ↔ ∃ call calls, s.calls = call :: calls ∧ Attempting cfg phase call ∧
      ∀ call ∈ calls, Delivered cfg call := by
  unfold Log
  rw [hphase]
  cases hcalls : s.calls with
  | nil =>
    cases phase with
    | idle => exact absurd rfl hbusy
    | _ => simp
  | cons call calls =>
    cases phase with
    | idle => exact absurd rfl hbusy
    | _ =>
      constructor
      · intro h
        exact ⟨call, calls, rfl, h⟩
      · rintro ⟨call', calls', heq, h⟩
        obtain ⟨rfl, rfl⟩ := List.cons.inj heq
        exact h

theorem log_idle (hphase : s.phase = .idle) :
    s.Log cfg ↔ ∀ call ∈ s.calls, Delivered cfg call := by
  unfold Log
  rw [hphase]

/-- The task goes on with the running call. -/
theorem Log.goOn (h : s.Log cfg) {phase phase' : Phase} (hphase : s.phase = phase)
    (hbusy : phase ≠ .idle) (hphase' : s'.phase = phase') (hbusy' : phase' ≠ .idle)
    (hretries : retriesOf phase' = retriesOf phase) (hcalls : s'.calls = s.calls)
    (hkey : ∀ call, s.calls.head? = some call → ∀ key, keyOf phase' = some key →
      keyOf phase = some key ∨ (cfg.routes.route call.event).key = some key) : s'.Log cfg := by
  obtain ⟨call, calls, heq, hat, hrest⟩ := (log_iff hphase hbusy).mp h
  refine (log_iff hphase' hbusy').mpr ⟨call, calls, hcalls.trans heq, ?_, hrest⟩
  refine ⟨hat.sent, hat.retried, hretries ▸ hat.left, fun key hk => ?_⟩
  rcases hkey call (by rw [heq]; rfl) key hk with hsame | hnew
  · exact hat.key key hsame
  · exact hnew

/-- A reply ends the call, or leaves it one retry less. -/
theorem Attempting.reply {call : SendCall} {r : ℕ} {g c : ℚ} {key : List Char}
    (h : Attempting cfg (.posting r g c key) call) {post : Post} (hpost : IsFor cfg call.event post) :
    (afterReply r post.outcome = .idle →
        Delivered cfg { call with posts := post :: call.posts }) ∧
      (afterReply r post.outcome ≠ .idle →
        Attempting cfg (afterReply r post.outcome) { call with posts := post :: call.posts }) := by
  have hleft : r + call.posts.length = 2 := h.left
  have hsent : ∀ p ∈ post :: call.posts, IsFor cfg call.event p :=
    List.forall_mem_cons.mpr ⟨hpost, h.sent⟩
  constructor
  · intro hidle
    refine ⟨hsent, ?_, h.retried, fun hnil => (by cases hnil), fun p hp hstatus => ?_⟩
    · show call.posts.length + 1 ≤ 3
      omega
    · obtain rfl := Option.some.inj hp
      rw [hstatus] at hidle
      have hr : ¬0 < r := by
        intro hmore
        simp [afterReply, hmore] at hidle
      show call.posts.length + 1 = 3
      omega
  · intro hbusy
    cases houtcome : post.outcome with
    | status code =>
      rw [houtcome] at hbusy
      have hmore : code = 429 ∧ 0 < r := by
        by_contra hover
        exact hbusy (if_neg hover)
      have hphase : afterReply r (.status code) = .sleeping (r - 1) := if_pos hmore
      rw [hphase]
      refine ⟨hsent, List.forall_mem_cons.mpr ⟨?_, h.retried⟩, ?_, fun k hk => (by cases hk)⟩
      · rw [houtcome, hmore.1]
      · show r - 1 + (call.posts.length + 1) = 2
        omega
    | failed =>
      rw [houtcome] at hbusy
      exact absurd rfl hbusy
    | raised =>
      rw [houtcome] at hbusy
      exact absurd rfl hbusy

/-- The key is never missing at a later attempt. -/
theorem Attempting.noKey {phase : Phase} {call : SendCall} (h : Attempting cfg phase call)
    (hkey : (cfg.routes.route call.event).key = none) : Delivered cfg call := by
  have hnil : call.posts = [] := by
    refine List.eq_nil_iff_forall_not_mem.mpr fun post hpost => ?_
    rw [(h.sent post hpost).2] at hkey
    cases hkey
  refine ⟨h.sent, ?_, ?_, fun _ => hkey, ?_⟩
  · simp [hnil]
  · simp [hnil]
  · simp [hnil]

theorem Log.step (h : s.Log cfg) {a : Action} (hs : s.step cfg a = some s') : s'.Log cfg := by
  obtain ⟨event, -, hphase, rfl⟩ | ⟨r, now, hphase, -, rfl⟩ |
    ⟨r, g, now, event, hphase, -, hevent, hkey, rfl⟩ |
    ⟨r, g, key, now, made, event, hphase, -, hevent, hkey, hmade, rfl⟩ |
    ⟨r, g, key, now, hphase, -, rfl⟩ |
    ⟨r, g, c, key, now, outcome, event, post, hphase, -, hevent, hpost, rfl⟩ |
    ⟨r, now, hphase, -, rfl⟩ := step_cases hs
  · refine (log_iff rfl (by simp)).mpr ⟨_, _, rfl, ?_, (log_idle hphase).mp h⟩
    refine ⟨?_, ?_, rfl, fun key hk => (by cases hk)⟩
    · exact fun _ hp => absurd hp List.not_mem_nil
    · exact fun _ hp => absurd hp List.not_mem_nil
  · refine h.goOn hphase (by simp) rfl ?_ ?_ rfl ?_
    · split <;> simp
    · split <;> rfl
    · intro call _ key hk
      split at hk <;> cases hk
  · obtain ⟨call, calls, heq, hat, hrest⟩ := (log_iff hphase (by simp)).mp h
    refine (log_idle rfl).mpr ?_
    show ∀ call ∈ s.calls, Delivered cfg call
    rw [heq]
    have hcurrent : call.event = event := by
      unfold current at hevent
      rw [heq] at hevent
      exact Option.some.inj hevent
    exact List.forall_mem_cons.mpr ⟨hat.noKey (hcurrent ▸ hkey), hrest⟩
  · refine h.goOn hphase (by simp) rfl (by simp) rfl (by rw [hmade]) ?_
    intro call hcall k hk
    obtain rfl := Option.some.inj hk
    unfold current at hevent
    rw [hcall] at hevent
    exact .inr (Option.some.inj hevent ▸ hkey)
  · refine h.goOn hphase (by simp) rfl ?_ ?_ rfl ?_
    · split <;> simp
    · split <;> rfl
    · intro call _ k hk
      split at hk <;> exact .inl hk
  · obtain ⟨call, calls, heq, hat, hrest⟩ := (log_iff hphase (by simp)).mp h
    have hcurrent : call.event = event := by
      unfold current at hevent
      rw [heq] at hevent
      exact Option.some.inj hevent
    have hfor : IsFor cfg call.event post := by
      rw [hpost, hcurrent]
      exact ⟨rfl, hcurrent ▸ hat.key key rfl⟩
    obtain ⟨hover, hmore⟩ := hat.reply hfor
    have hrecord : s.record post = { call with posts := post :: call.posts } :: calls := by
      unfold record
      rw [heq]
      rfl
    have houtcome : post.outcome = outcome := by rw [hpost]
    rw [houtcome] at hover hmore
    by_cases hidle : afterReply r outcome = .idle
    · refine (log_idle hidle).mpr ?_
      show ∀ call ∈ s.record post, Delivered cfg call
      rw [hrecord]
      exact List.forall_mem_cons.mpr ⟨hover hidle, hrest⟩
    · exact (log_iff rfl hidle).mpr ⟨_, _, hrecord, hmore hidle, hrest⟩
  · exact h.goOn hphase (by simp) rfl (by simp) rfl rfl fun _ _ key hk => (by cases hk)

/-- **Every event is sent to its destination, and again only when Telegram asks for it.** In every run
the calls of `_send` that are over have each sent their event's text to the destination of its route,
one to three times in a row; every request but the last was answered 429, and the last one too only
if it was the third. The call that is running has had no other answer than 429 so far. -/
theorem calls_delivered {now : ℚ} (h : Reachable (Sender.step cfg) (start cfg now) s) :
    (∀ call ∈ s.calls.tail, Delivered cfg call) ∧
      ∀ call, s.calls.head? = some call →
        if s.phase = .idle then Delivered cfg call else Attempting cfg s.phase call := by
  have hlog : s.Log cfg := by
    refine h.invariant (P := fun s => s.Log cfg) ?_ fun _ _ _ h₁ _ hs => h₁.step hs
    exact (log_idle rfl).mpr fun _ hcall => absurd hcall List.not_mem_nil
  by_cases hidle : s.phase = .idle
  · have hall := (log_idle hidle).mp hlog
    refine ⟨fun call hcall => hall call (List.mem_of_mem_tail hcall), fun call hcall => ?_⟩
    rw [if_pos hidle]
    exact hall call (List.mem_of_mem_head? hcall)
  · obtain ⟨call, calls, heq, hat, hrest⟩ := (log_iff rfl hidle).mp hlog
    rw [heq]
    refine ⟨hrest, fun call' hcall => ?_⟩
    obtain rfl := Option.some.inj hcall
    rw [if_neg hidle]
    exact hat

/-- A third attempt is still to come. -/
theorem calls_delivered_flooded :
    ((flooded.get isSome_flooded).posts.map fun p => (p.time, p.payload.messageThreadId)) =
        [(3, some 12), (1, some 12)] ∧
      ∀ call, (flooded.get isSome_flooded).calls.head? = some call →
        Attempting twoChats (flooded.get isSome_flooded).phase call := by
  have hbusy : (flooded.get isSome_flooded).phase ≠ .idle := by decide +kernel
  have hrun := reachable_flooded
  refine ⟨by decide +kernel, ?_⟩
  generalize flooded.get isSome_flooded = s at hbusy hrun ⊢
  intro call hcall
  have hlast := (calls_delivered hrun).2 call hcall
  rwa [if_neg hbusy] at hlast

end

end Sender

end TelegramWriter

end ApiTemplate.Telemetry
