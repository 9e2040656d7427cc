import ApiTemplate.TxStore.Faults

/-!
# Monitors

A monitor keeps a value about the statements of a trial. It has two: one for what is committed and
one for what the open transaction sees. A commit makes the second the first, a rollback the first
the second, and `record` says what every other statement does to the second.
-/

namespace TxStore

/-- The values of a monitor. -/
structure Seen (γ : Type) where
  committed : γ
  view : γ

section

variable {σ : Schema} {γ : Type} (record : γ → Answered σ → γ)

/-- What the monitor makes of one statement. -/
def Seen.next (v : Seen γ) (e : Answered σ) : Seen γ :=
  match e.1 with
  | .commit => ⟨v.view, v.view⟩
  | .rollback => ⟨v.committed, v.committed⟩
  | _ => ⟨v.committed, record v.view e⟩

/-- What the monitor makes of a trial, when it had `g` at the start of it. -/
def Trial.seen (g : γ) (st : Trial σ) : Seen γ := st.trace.foldl (Seen.next record) ⟨g, g⟩

variable {record} {g : γ} {st : Trial σ}

@[simp] theorem Trial.seen_start (db : Db σ) : (Trial.start db).seen record g = ⟨g, g⟩ := rfl

@[simp] theorem Trial.seen_skip : st.skip.seen record g = st.seen record g := rfl

/-- A statement that answers is seen. -/
theorem Trial.seen_effect_ok {s : Stmt σ} {a : s.Res} (h : (World.exec s st.world).1 = .ok a) :
    (st.effect s).seen record g = (st.seen record g).next record ⟨s, a⟩ := by
  unfold Trial.seen Trial.effect
  dsimp only
  rw [h]
  exact List.foldl_append.trans rfl

theorem Trial.seen_effect_error {s : Stmt σ} {e : σ.Error}
    (h : (World.exec s st.world).1 = .error e) :
    (st.effect s).seen record g = st.seen record g := by
  unfold Trial.seen Trial.effect
  dsimp only
  rw [h]

/-- A flush shows the session to the open transaction, or raises and changes nothing. -/
theorem Trial.effect_flush_cases (record : γ → Answered σ → γ) (g : γ) (st : Trial σ) :
    (∃ db, st.world.view.flush st.world.session = .ok db ∧
      (st.effect .flush).seen record g = (st.seen record g).next record ⟨.flush, ()⟩ ∧
      (st.effect .flush).world = { st.world with view := db, session := {} }) ∨
    ((st.effect .flush).seen record g = st.seen record g ∧ (st.effect .flush).world = st.world) := by
  rcases World.exec_flush_cases st.world with ⟨db, hf, hc⟩ | ⟨e, -, hc⟩
  · exact Or.inl ⟨db, hf, Trial.seen_effect_ok (congrArg Prod.fst hc), congrArg Prod.snd hc⟩
  · exact Or.inr ⟨Trial.seen_effect_error (congrArg Prod.fst hc), congrArg Prod.snd hc⟩

/-- A commit publishes the flushed session, or raises and changes nothing. -/
theorem Trial.effect_commit_cases (record : γ → Answered σ → γ) (g : γ) (st : Trial σ) :
    (∃ db, st.world.view.flush st.world.session = .ok db ∧
      (st.effect .commit).seen record g = ⟨(st.seen record g).view, (st.seen record g).view⟩ ∧
      (st.effect .commit).world = { st.world with committed := db, view := db, session := {} }) ∨
    ((st.effect .commit).seen record g = st.seen record g ∧
      (st.effect .commit).world = st.world) := by
  rcases World.exec_commit_cases st.world with ⟨db, hf, hc⟩ | ⟨e, -, hc⟩
  · exact Or.inl ⟨db, hf, Trial.seen_effect_ok (congrArg Prod.fst hc), congrArg Prod.snd hc⟩
  · exact Or.inr ⟨Trial.seen_effect_error (congrArg Prod.fst hc), congrArg Prod.snd hc⟩

/-- Only a commit changes what is committed, for the monitor as for the database. -/
theorem Trial.effect_of_noCommit (record : γ → Answered σ → γ) (g : γ) (st : Trial σ) {s : Stmt σ}
    (hs : s.isCommit = false) :
    ((st.effect s).seen record g).committed = (st.seen record g).committed ∧
      (st.effect s).world.committed.row = st.world.committed.row := by
  cases s with
  | commit => cases hs
  | flush =>
    rcases Trial.effect_flush_cases record g st with ⟨db, -, hseen, hworld⟩ | ⟨hseen, hworld⟩
    · rw [hseen, hworld]
      exact ⟨rfl, rfl⟩
    · rw [hseen, hworld]
      exact ⟨rfl, rfl⟩
  | query | update | add | assign | emit | rollback =>
    rw [Trial.seen_effect_ok rfl]
    exact ⟨rfl, rfl⟩

end

/-! ## Units of work -/

section

variable {σ : Schema} {α : Type} {K P R : Trial σ → Prop} {body : Prog σ α} {faults : Faults σ}
  {st : Trial σ}

/-- **Units of work.** What all statements but a commit keep, and a commit keeps at the normal ends
of the body, a unit of work keeps, whatever fails. -/
theorem Body.withUow (hbody : Body P body fun _ st => R st)
    (heffect : ∀ s st, s.isCommit = false → K st → K (st.effect s)) (hskip : ∀ st, K st → K st.skip)
    (hcommit : ∀ st, R st → K st → K (st.effect .commit)) (hP : P st) (hK : K st) :
    K (Trial.run faults (withUow body) st).2 := by
  have hrollback : ∀ st, K st → K (Trial.exec faults .rollback st).2 := by
    intro st h
    rcases Trial.exec_state faults .rollback st with he | he
    · rw [he]
      exact heffect _ _ rfl h
    · rw [he]
      exact hskip _ h
  have hend : K (Trial.run faults body st).2 := by
    refine hbody.noCommit.run_invariant ?_ hK
    intro s st hs h
    rcases Trial.exec_state faults s st with he | he
    · rw [he]
      exact heffect _ _ hs h
    · rw [he]
      exact hskip _ h
  unfold TxStore.withUow
  rw [Trial.run, Program.run_onExit]
  rcases hb : Program.run (Trial.exec faults) body st with ⟨r, st₁⟩
  rw [Trial.run, hb] at hend
  cases r with
  | error e => exact hrollback _ (hrollback _ hend)
  | ok a =>
    refine hrollback _ ?_
    rcases Trial.exec_state faults .commit st₁ with he | he
    · rw [he]
      exact hcommit _ (hbody.ends faults st a st₁ hP hb) hend
    · rw [he]
      exact hskip _ hend

end

end TxStore
