import ApiTemplate.Telemetry.MaskDepth

/-!
# What `mask` keeps

A value is masked once and for all. Its shape stays, down to the values of sensitive keys, and so
does every scalar that has nothing to hide.
-/

namespace ApiTemplate.Telemetry

/-! ## Positions -/

/-- The value at a position, given by the indexes of the entries and the items on the way. -/
def valueAt : List ℕ → Value → Option Value
  | [], v => some v
  | _ :: _, .scalar _ => none
  | i :: path, .list items => items[i]?.bind (valueAt path)
  | i :: path, .tuple items => items[i]?.bind (valueAt path)
  | i :: path, .dict entries => entries[i]?.bind fun e => valueAt path e.2

/-- The keys on the way to a position, of the dicts that `mask` visits. -/
def keysAt : ℕ → List ℕ → Value → List Scalar
  | _, [], _ => []
  | _, _ :: _, .scalar _ => []
  | depth, i :: path, .list items => (items[i]?.map (keysAt (depth + 1) path)).getD []
  | depth, i :: path, .tuple items => (items[i]?.map (keysAt (depth + 1) path)).getD []
  | depth, i :: path, .dict entries =>
    (entries[i]?.map fun e =>
      if MAX_DEPTH < depth then [] else e.1 :: keysAt (depth + 1) path e.2).getD []

/-- At its depth, the value keeps its shape: a dict its keys in their order, a list or a tuple its
length, as a list. A scalar stays, and so does every value below the depth guard. -/
def KeepsShape (depth : ℕ) (v w : Value) : Prop :=
  if MAX_DEPTH < depth then w = v
  else match v with
    | .dict entries => ∃ entries' : List (Scalar × Value), w = .dict entries' ∧
        entries'.map Prod.fst = entries.map Prod.fst
    | .list items => ∃ items' : List Value, w = .list items' ∧ items'.length = items.length
    | .tuple items => ∃ items' : List Value, w = .list items' ∧ items'.length = items.length
    | .scalar s => w = .scalar s

/-! ## One level -/

section

variable {depth : ℕ}

theorem mask_scalar_of_le (h : depth ≤ MAX_DEPTH) (s : Scalar) :
    mask depth (.scalar s) = if looksBinary (.scalar s) then .str OMITTED else .scalar s := by
  rw [mask.eq_def, if_neg (Nat.not_lt.mpr h)]

theorem mask_scalar_of_not {s : Scalar} (h : looksBinary (.scalar s) = false) :
    mask depth (.scalar s) = .scalar s := by
  by_cases hdepth : depth ≤ MAX_DEPTH
  · rw [mask_scalar_of_le hdepth, h]
    rfl
  · exact mask_of_deep (Nat.lt_of_not_le hdepth) _

theorem mask_list_of_le (h : depth ≤ MAX_DEPTH) (items : List Value) :
    mask depth (.list items) = .list (items.map (mask (depth + 1))) := by
  rw [mask.eq_def, if_neg (Nat.not_lt.mpr h), ← maskItems_eq]

theorem mask_tuple_of_le (h : depth ≤ MAX_DEPTH) (items : List Value) :
    mask depth (.tuple items) = .list (items.map (mask (depth + 1))) := by
  rw [mask.eq_def, if_neg (Nat.not_lt.mpr h), ← maskItems_eq]

theorem mask_dict_of_le (h : depth ≤ MAX_DEPTH) (entries : List (Scalar × Value)) :
    mask depth (.dict entries) = .dict (maskEntries depth entries) := by
  rw [mask.eq_def, if_neg (Nat.not_lt.mpr h)]

theorem looksBinary_mask {v : Value} (h : looksBinary v = false) :
    looksBinary (mask depth v) = false := by
  by_cases hdepth : depth ≤ MAX_DEPTH
  · cases v with
    | scalar s => rwa [mask_scalar_of_not h]
    | list items => rw [mask_list_of_le hdepth]; rfl
    | tuple items => rw [mask_tuple_of_le hdepth]; rfl
    | dict entries => rw [mask_dict_of_le hdepth]; rfl
  · rwa [mask_of_deep (Nat.lt_of_not_le hdepth)]

theorem keepsShape_mask {v : Value} (h : looksBinary v = false) :
    KeepsShape depth v (mask depth v) := by
  unfold KeepsShape
  split_ifs with hdepth
  · exact mask_of_deep hdepth v
  · have hle : depth ≤ MAX_DEPTH := Nat.le_of_not_lt hdepth
    cases v with
    | scalar s => exact mask_scalar_of_not h
    | list items => exact ⟨_, mask_list_of_le hle items, List.length_map _⟩
    | tuple items => exact ⟨_, mask_tuple_of_le hle items, List.length_map _⟩
    | dict entries =>
      refine ⟨_, mask_dict_of_le hle entries, ?_⟩
      rw [maskEntries_eq, List.map_map]
      rfl

/-! ## The whole value -/

/-- The induction is on the levels that remain until the guard. -/
theorem mask_mask_of_levels (n : ℕ) : ∀ (depth : ℕ) (v : Value), depth + n = MAX_DEPTH + 1 →
    mask depth (mask depth v) = mask depth v := by
  induction n with
  | zero =>
    intro depth v hdepth
    rw [mask_of_deep (by omega) v, mask_of_deep (by omega) v]
  | succ n ih =>
    intro depth v hdepth
    have hle : depth ≤ MAX_DEPTH := by omega
    have hnext := fun v => ih (depth + 1) v (by omega)
    have hitems : ∀ items : List Value,
        (items.map (mask (depth + 1))).map (mask (depth + 1)) = items.map (mask (depth + 1)) := by
      intro items
      rw [List.map_map]
      exact List.map_congr_left fun v _ => hnext v
    cases v with
    | scalar s =>
      by_cases hbin : looksBinary (.scalar s) = true
      · rw [mask_scalar_of_le hle, if_pos hbin]
        exact mask_scalar_of_not (by decide)
      · rw [mask_scalar_of_not (Bool.eq_false_iff.mpr hbin),
          mask_scalar_of_not (Bool.eq_false_iff.mpr hbin)]
    | list items => rw [mask_list_of_le hle, mask_list_of_le hle, hitems]
    | tuple items => rw [mask_tuple_of_le hle, mask_list_of_le hle, hitems]
    | dict entries =>
      rw [mask_dict_of_le hle, mask_dict_of_le hle, maskEntries_eq, maskEntries_eq, List.map_map]
      refine congrArg Value.dict (List.map_congr_left fun e _ => Prod.ext rfl ?_)
      show (if isSensitiveKey e.1 then _ else _) = _
      by_cases hkey : isSensitiveKey e.1 = true
      · rw [if_pos hkey, if_pos hkey]
      rw [if_neg hkey]
      by_cases hbin : looksBinary e.2 = true
      · have hmark : looksBinary (.str OMITTED) = false := by decide
        simp only [if_neg hkey, if_pos hbin, hmark, Bool.false_eq_true, if_false]
        exact mask_scalar_of_not hmark
      · have hmask : looksBinary (mask (depth + 1) e.2) = false :=
          looksBinary_mask (Bool.eq_false_iff.mpr hbin)
        simp only [if_neg hkey, if_neg hbin, hmask, Bool.false_eq_true, if_false]
        exact hnext e.2

/-- Only at its own position, a value looks binary. -/
theorem looksBinary_of_valueAt {path : List ℕ} {v w : Value} (h : valueAt path v = some w)
    (hbin : looksBinary w = false) : looksBinary v = false := by
  cases v with
  | scalar s =>
    cases path with
    | nil =>
      obtain rfl := Option.some.inj h
      exact hbin
    | cons i path => cases h
  | list items => rfl
  | tuple items => rfl
  | dict entries => rfl

/-- Under no sensitive key, the result has at a position what `mask` makes of the value there. -/
theorem valueAt_mask {path : List ℕ} {v w : Value} (h : valueAt path v = some w)
    (hkeys : ∀ key ∈ keysAt depth path v, isSensitiveKey key = false)
    (hbin : looksBinary w = false) :
    valueAt path (mask depth v) = some (mask (depth + path.length) w) := by
  induction path generalizing depth v with
  | nil =>
    obtain rfl := Option.some.inj h
    rfl
  | cons i path ih =>
    by_cases hdepth : depth ≤ MAX_DEPTH
    · rw [List.length_cons, Nat.add_comm path.length, ← Nat.add_assoc]
      cases v with
      | scalar s => cases h
      | list items =>
        obtain ⟨v, hv, hw⟩ := Option.bind_eq_some_iff.mp h
        rw [keysAt, hv] at hkeys
        rw [mask_list_of_le hdepth, valueAt, List.getElem?_map, hv]
        exact ih hw hkeys
      | tuple items =>
        obtain ⟨v, hv, hw⟩ := Option.bind_eq_some_iff.mp h
        rw [keysAt, hv] at hkeys
        rw [mask_tuple_of_le hdepth, valueAt, List.getElem?_map, hv]
        exact ih hw hkeys
      | dict entries =>
        obtain ⟨e, he, hw⟩ := Option.bind_eq_some_iff.mp h
        rw [keysAt, he] at hkeys
        simp only [Option.map_some, Option.getD_some, if_neg (Nat.not_lt.mpr hdepth),
          List.forall_mem_cons] at hkeys
        rw [mask_dict_of_le hdepth, valueAt, maskEntries_eq, List.getElem?_map, he]
        simp only [Option.map_some, Option.bind_some, hkeys.1, looksBinary_of_valueAt hw hbin,
          Bool.false_eq_true, if_false]
        exact ih hw hkeys.2
    · rw [mask_of_deep (Nat.lt_of_not_le hdepth), mask_of_deep (by omega), h]

theorem isSome_bind_of_map {α β γ : Type} {items : List α} {f : α → β} {p : β → Option γ}
    {q : α → Option γ} {i : ℕ} (hf : ∀ a, (p (f a)).isSome → (q a).isSome)
    (h : ((items.map f)[i]?.bind p).isSome) : (items[i]?.bind q).isSome := by
  rw [List.getElem?_map] at h
  cases ha : items[i]? with
  | none =>
    rw [ha] at h
    cases h
  | some a =>
    rw [ha] at h
    exact hf a h

/-- Inside of a scalar there is no position. -/
theorem isSome_valueAt_of_scalar {path : List ℕ} {s : Scalar}
    (h : (valueAt path (.scalar s)).isSome) (v : Value) : (valueAt path v).isSome := by
  cases path with
  | nil => rfl
  | cons i path => cases h

/-- The result has no position that the value does not have. -/
theorem isSome_valueAt_of_mask {path : List ℕ} {v : Value}
    (h : (valueAt path (mask depth v)).isSome) : (valueAt path v).isSome := by
  induction path generalizing depth v with
  | nil => rfl
  | cons i path ih =>
    by_cases hdepth : depth ≤ MAX_DEPTH
    · cases v with
      | scalar s =>
        rw [mask_scalar_of_le hdepth] at h
        by_cases hbin : looksBinary (.scalar s) = true
        · rw [if_pos hbin] at h
          cases h
        · rw [if_neg hbin] at h
          cases h
      | list items =>
        rw [mask_list_of_le hdepth] at h
        exact isSome_bind_of_map (fun v => ih) h
      | tuple items =>
        rw [mask_tuple_of_le hdepth] at h
        exact isSome_bind_of_map (fun v => ih) h
      | dict entries =>
        rw [mask_dict_of_le hdepth, maskEntries_eq] at h
        refine isSome_bind_of_map (fun e he => ?_) h
        by_cases hkey : isSensitiveKey e.1 = true
        · rw [if_pos hkey] at he
          exact isSome_valueAt_of_scalar he e.2
        rw [if_neg hkey] at he
        by_cases hbin : looksBinary e.2 = true
        · rw [if_pos hbin] at he
          exact isSome_valueAt_of_scalar he e.2
        · rw [if_neg hbin] at he
          exact ih he
    · rwa [mask_of_deep (Nat.lt_of_not_le hdepth)] at h

end

/-- `mask` is idempotent. Under no sensitive key that it visits, every dict, list and tuple keeps
its shape, and every scalar that does not look binary stays. -/
theorem mask_shape (v : Value) :
    mask 0 (mask 0 v) = mask 0 v ∧
      (∀ path w, valueAt path v = some w →
        (∀ key ∈ keysAt 0 path v, isSensitiveKey key = false) → looksBinary w = false →
          ∃ w', valueAt path (mask 0 v) = some w' ∧ KeepsShape path.length w w') ∧
      ∀ path, (valueAt path (mask 0 v)).isSome → (valueAt path v).isSome := by
  refine ⟨mask_mask_of_levels (MAX_DEPTH + 1) 0 v (Nat.zero_add _), fun path w h hkeys hbin => ?_,
    fun path => isSome_valueAt_of_mask⟩
  have hmask := valueAt_mask h hkeys hbin
  rw [Nat.zero_add] at hmask
  exact ⟨_, hmask, keepsShape_mask hbin⟩

/-- The dict under a sensitive key does not keep its keys. -/
theorem not_keepsShape_token :
    valueAt [0] (.dict [(.str "token", .dict [(.str "a", .scalar (.int 1))])]) =
        some (.dict [(.str "a", .scalar (.int 1))]) ∧
      valueAt [0] (mask 0 (.dict [(.str "token", .dict [(.str "a", .scalar (.int 1))])])) =
        some (.str REDACTED) := by
  refine ⟨rfl, ?_⟩
  rw [mask_dict]
  rfl

end ApiTemplate.Telemetry
