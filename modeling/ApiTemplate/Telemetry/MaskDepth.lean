import ApiTemplate.Telemetry.Masking

/-!
# What `mask` leaves behind

A value is redacted when none of its parts leaks: no dict inside it has a sensitive key with a value
of its own, no scalar inside it looks binary. `mask` stops at a depth of 32 and returns what lies
deeper as it is, so its result is redacted exactly when those deeper parts already were.
-/

namespace ApiTemplate.Telemetry

/-! ## Leaks -/

/-- `w` is the value, or lies inside it at some depth. -/
inductive Part (w : Value) : Value → Prop
  | refl : Part w w
  | item {items : List Value} {v : Value} : v ∈ items → Part w v → Part w (.list items)
  | component {items : List Value} {v : Value} : v ∈ items → Part w v → Part w (.tuple items)
  | entry {entries : List (Scalar × Value)} {key : Scalar} {v : Value} :
      (key, v) ∈ entries → Part w v → Part w (.dict entries)

/-- A dict that shows the value of a sensitive key, or a scalar that looks binary. -/
def Leak : Value → Prop
  | .dict entries => ∃ key v, (key, v) ∈ entries ∧ isSensitiveKey key = true ∧ v ≠ .str REDACTED
  | v => looksBinary v = true

/-- Nothing leaks at any depth. -/
def Redacted (v : Value) : Prop := ∀ w, Part w v → ¬Leak w

theorem Redacted.part {v w : Value} (h : Redacted v) (hpart : ∀ u, Part u w → Part u v) :
    Redacted w :=
  fun u hu => h u (hpart u hu)

theorem redacted_scalar_iff (s : Scalar) :
    Redacted (.scalar s) ↔ looksBinary (.scalar s) = false := by
  constructor
  · intro h
    exact Bool.eq_false_iff.mpr (h _ .refl)
  · intro h w hw
    cases hw
    show ¬looksBinary (.scalar s) = true
    rw [h]
    exact Bool.false_ne_true

theorem redacted_list_iff (items : List Value) :
    Redacted (.list items) ↔ ∀ v ∈ items, Redacted v := by
  constructor
  · intro h v hv
    exact h.part fun u hu => .item hv hu
  · intro h w hw
    cases hw with
    | refl => exact Bool.false_ne_true
    | item hv hw => exact h _ hv w hw

theorem redacted_dict_iff (entries : List (Scalar × Value)) :
    Redacted (.dict entries) ↔ ∀ key v, (key, v) ∈ entries →
      (isSensitiveKey key = true → v = .str REDACTED) ∧ Redacted v := by
  constructor
  · intro h key v hv
    refine ⟨fun hkey => ?_, h.part fun u hu => .entry hv hu⟩
    by_contra hne
    exact h _ .refl ⟨key, v, hv, hkey, hne⟩
  · intro h w hw
    cases hw with
    | refl =>
      rintro ⟨key, v, hv, hkey, hne⟩
      exact hne ((h key v hv).1 hkey)
    | entry hv hw => exact (h _ _ hv).2 w hw

theorem redacted_mark : Redacted (.str REDACTED) ∧ Redacted (.str OMITTED) :=
  ⟨(redacted_scalar_iff _).mpr (by decide), (redacted_scalar_iff _).mpr (by decide)⟩

/-! ## The recursion -/

/-- `mask` reaches `w` inside the value after entering `n` containers: it follows every item, and
the entries it neither redacts nor omits. -/
inductive Reached : ℕ → Value → Value → Prop
  | here (v : Value) : Reached 0 v v
  | item {n : ℕ} {items : List Value} {v w : Value} :
      v ∈ items → Reached n v w → Reached (n + 1) (.list items) w
  | component {n : ℕ} {items : List Value} {v w : Value} :
      v ∈ items → Reached n v w → Reached (n + 1) (.tuple items) w
  | entry {n : ℕ} {entries : List (Scalar × Value)} {key : Scalar} {v w : Value} :
      (key, v) ∈ entries → isSensitiveKey key = false → looksBinary v = false →
        Reached n v w → Reached (n + 1) (.dict entries) w

theorem mask_of_deep {depth : ℕ} (h : MAX_DEPTH < depth) (v : Value) : mask depth v = v := by
  rw [mask.eq_def, if_pos h]

theorem redacted_items_iff (depth : ℕ) {items : List Value} {n : ℕ}
    (ih : ∀ v, Redacted (mask (depth + 1) v) ↔ ∀ w, Reached n v w → Redacted w) :
    Redacted (.list (maskItems depth items)) ↔
      ∀ v ∈ items, ∀ w, Reached n v w → Redacted w := by
  rw [redacted_list_iff, maskItems_eq, List.forall_mem_map]
  exact forall₂_congr fun v _ => ih v

theorem redacted_entries_iff (depth : ℕ) {entries : List (Scalar × Value)} {n : ℕ}
    (ih : ∀ v, Redacted (mask (depth + 1) v) ↔ ∀ w, Reached n v w → Redacted w) :
    Redacted (.dict (maskEntries depth entries)) ↔
      ∀ key v, (key, v) ∈ entries → isSensitiveKey key = false → looksBinary v = false →
        ∀ w, Reached n v w → Redacted w := by
  rw [redacted_dict_iff, maskEntries_eq]
  constructor
  · intro h key v hv hkey hbin
    have hmem := List.mem_map_of_mem (f := fun e : Scalar × Value =>
      (e.1, if isSensitiveKey e.1 then .str REDACTED
        else if looksBinary e.2 then .str OMITTED else mask (depth + 1) e.2)) hv
    have hred := (h _ _ hmem).2
    rw [hkey, hbin] at hred
    exact (ih v).mp hred
  · intro h key v' hv'
    obtain ⟨⟨k, v⟩, hv, heq⟩ := List.mem_map.mp hv'
    obtain ⟨rfl, rfl⟩ := Prod.mk.inj heq
    by_cases hkey : isSensitiveKey k = true
    · rw [if_pos hkey]
      exact ⟨fun _ => rfl, redacted_mark.1⟩
    · rw [if_neg hkey]
      refine ⟨fun h => absurd h hkey, ?_⟩
      by_cases hbin : looksBinary v = true
      · rw [if_pos hbin]
        exact redacted_mark.2
      · rw [if_neg hbin]
        exact (ih v).mpr (h k v hv (Bool.eq_false_iff.mpr hkey) (Bool.eq_false_iff.mpr hbin))

/-- The induction is on the levels that remain until the guard, not on the value. -/
theorem redacted_mask_iff_reached (n : ℕ) : ∀ (depth : ℕ) (v : Value), depth + n = MAX_DEPTH + 1 →
    (Redacted (mask depth v) ↔ ∀ w, Reached n v w → Redacted w) := by
  induction n with
  | zero =>
    intro depth v hdepth
    rw [mask_of_deep (by omega)]
    constructor
    · rintro h w ⟨⟩
      exact h
    · intro h
      exact h v (.here v)
  | succ n ih =>
    intro depth v hdepth
    have ih' := fun v => ih (depth + 1) v (by omega)
    rw [mask.eq_def, if_neg (by omega)]
    cases v with
    | scalar s =>
      have hred : Redacted (if looksBinary (.scalar s) then .str OMITTED else .scalar s) := by
        by_cases hbin : looksBinary (.scalar s) = true
        · rw [if_pos hbin]
          exact redacted_mark.2
        · rw [if_neg hbin]
          exact (redacted_scalar_iff s).mpr (Bool.eq_false_iff.mpr hbin)
      exact ⟨fun _ w hw => (by cases hw), fun _ => hred⟩
    | list items =>
      refine (redacted_items_iff depth ih').trans ⟨fun h w hw => ?_, fun h v hv w hw => ?_⟩
      · cases hw with
        | item hv hw => exact h _ hv w hw
      · exact h w (.item hv hw)
    | tuple items =>
      refine (redacted_items_iff depth ih').trans ⟨fun h w hw => ?_, fun h v hv w hw => ?_⟩
      · cases hw with
        | component hv hw => exact h _ hv w hw
      · exact h w (.component hv hw)
    | dict entries =>
      refine (redacted_entries_iff depth ih').trans
        ⟨fun h w hw => ?_, fun h key v hv hkey hbin w hw => ?_⟩
      · cases hw with
        | entry hv hkey hbin hw => exact h _ _ hv hkey hbin w hw
      · exact h w (.entry hv hkey hbin hw)

/-- **`mask` redacts exactly down to its depth limit.** The result is redacted if and only if every
value that lies under 33 nested containers, and under no sensitive key, is redacted already. -/
theorem redacted_mask_iff (v : Value) :
    Redacted (mask 0 v) ↔ ∀ w, Reached (MAX_DEPTH + 1) v w → Redacted w :=
  redacted_mask_iff_reached (MAX_DEPTH + 1) 0 v (Nat.zero_add _)

/-- A value inside `n` nested lists. -/
def nested : ℕ → Value → Value
  | 0, v => v
  | n + 1, v => .list [nested n v]

/-- A password under 33 nested lists stays in the result. -/
theorem not_redacted_mask_nested :
    ¬Redacted (mask 0 (nested 33 (.dict [(.str "password", .str "hunter2")]))) := by
  have hpart : ∀ n v, Part v (nested n v) := by
    intro n v
    induction n with
    | zero => exact .refl
    | succ n ih => exact .item List.mem_cons_self ih
  intro h
  exact h _ (hpart 33 (.dict [(.str "password", .str "hunter2")]))
    ⟨.str "password", .str "hunter2", List.mem_cons_self, by decide, fun heq => by
      injection heq with heq
      exact absurd heq (by decide)⟩

end ApiTemplate.Telemetry
