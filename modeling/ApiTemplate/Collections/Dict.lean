import Mathlib.Data.List.Basic

/-!
# Dictionaries

Entries in the order in which their keys were inserted. Setting a key that is there replaces its
value in its place.
-/

namespace Dict

variable {κ α : Type*} [DecidableEq κ]

/-- The value of a key. -/
def get? : List (κ × α) → κ → Option α
  | [], _ => none
  | entry :: d, key => if entry.1 = key then some entry.2 else get? d key

/-- `d[key] = value` -/
def setItem : List (κ × α) → κ → α → List (κ × α)
  | [], key, value => [(key, value)]
  | entry :: d, key, value =>
    if entry.1 = key then (key, value) :: d else entry :: setItem d key value

/-- `{**d, **entries}` -/
def update (d entries : List (κ × α)) : List (κ × α) :=
  entries.foldl (fun d entry => setItem d entry.1 entry.2) d

/-- `d.pop(key, None)`, what is left of `d`. -/
def pop (d : List (κ × α)) (key : κ) : List (κ × α) := d.filter fun entry => entry.1 ≠ key

@[simp] theorem get?_nil (key : κ) : get? ([] : List (κ × α)) key = none := rfl

@[simp]
theorem get?_setItem_self (d : List (κ × α)) (key : κ) (value : α) :
    get? (setItem d key value) key = some value := by
  induction d with
  | nil => exact if_pos rfl
  | cons entry d ih =>
    unfold setItem
    split_ifs with hkey
    · exact if_pos rfl
    · rw [get?, if_neg hkey, ih]

theorem get?_setItem_of_ne (d : List (κ × α)) {key key' : κ} (value : α) (h : key' ≠ key) :
    get? (setItem d key value) key' = get? d key' := by
  induction d with
  | nil => exact if_neg h.symm
  | cons entry d ih =>
    unfold setItem
    split_ifs with hkey
    · rw [get?, get?, if_neg h.symm, if_neg fun hentry => h (hentry.symm.trans hkey)]
    · rw [get?, get?, ih]

@[simp]
theorem get?_pop_self (d : List (κ × α)) (key : κ) : get? (pop d key) key = none := by
  induction d with
  | nil => rfl
  | cons entry d ih =>
    by_cases h : entry.1 = key
    · rwa [pop, List.filter_cons_of_neg (by simpa using h)]
    · rwa [pop, List.filter_cons_of_pos (by simpa using h), get?, if_neg h]

theorem get?_pop_of_ne (d : List (κ × α)) {key key' : κ} (h : key' ≠ key) :
    get? (pop d key) key' = get? d key' := by
  induction d with
  | nil => rfl
  | cons entry d ih =>
    by_cases hkey : entry.1 = key
    · rw [pop, List.filter_cons_of_neg (by simpa using hkey), get?,
        if_neg fun hentry => h (hentry.symm.trans hkey)]
      exact ih
    · rw [pop, List.filter_cons_of_pos (by simpa using hkey), get?, get?]
      exact if_congr Iff.rfl rfl ih

theorem eq_nil_of_get? {d : List (κ × α)} (h : ∀ key, get? d key = none) : d = [] := by
  cases d with
  | nil => rfl
  | cons entry d => exact absurd ((if_pos rfl).symm.trans (h entry.1)) nofun

theorem mem_of_get? {d : List (κ × α)} {key : κ} {value : α} (h : get? d key = some value) :
    (key, value) ∈ d := by
  induction d with
  | nil => cases h
  | cons entry d ih =>
    obtain ⟨key', value'⟩ := entry
    by_cases hkey : key' = key
    · rw [get?, if_pos hkey] at h
      obtain rfl := Option.some.inj h
      rw [hkey]
      exact List.mem_cons_self
    · rw [get?, if_neg hkey] at h
      exact List.mem_cons_of_mem _ (ih h)

theorem get?_of_mem {d : List (κ × α)} (hd : (d.map Prod.fst).Nodup) {entry : κ × α}
    (h : entry ∈ d) : get? d entry.1 = some entry.2 := by
  induction d with
  | nil => exact absurd h List.not_mem_nil
  | cons first d ih =>
    obtain ⟨hfirst, hd⟩ := List.nodup_cons.mp hd
    rw [get?]
    rcases List.mem_cons.mp h with rfl | h
    · exact if_pos rfl
    · have hkey : first.1 ≠ entry.1 := fun hkey => hfirst (by
        rw [hkey]
        exact List.mem_map_of_mem h)
      rw [if_neg hkey, ih hd h]

theorem eq_or_mem_of_mem_setItem {d : List (κ × α)} {key : κ} {value : α} {entry : κ × α}
    (h : entry ∈ setItem d key value) : entry = (key, value) ∨ entry ∈ d := by
  induction d with
  | nil => exact .inl (List.mem_singleton.mp h)
  | cons first d ih =>
    rw [setItem] at h
    split_ifs at h with hkey
    · exact (List.mem_cons.mp h).imp_right (List.mem_cons_of_mem _)
    · rcases List.mem_cons.mp h with rfl | h
      · exact .inr List.mem_cons_self
      · exact (ih h).imp_right (List.mem_cons_of_mem _)

theorem keys_setItem (d : List (κ × α)) (key : κ) (value : α) :
    (setItem d key value).map Prod.fst =
      if key ∈ d.map Prod.fst then d.map Prod.fst else d.map Prod.fst ++ [key] := by
  induction d with
  | nil => rfl
  | cons entry d ih =>
    rw [setItem]
    by_cases hkey : entry.1 = key
    · rw [if_pos hkey, List.map_cons, List.map_cons, hkey, if_pos List.mem_cons_self]
    · rw [if_neg hkey, List.map_cons, List.map_cons, ih]
      by_cases hmem : key ∈ d.map Prod.fst
      · rw [if_pos hmem, if_pos (List.mem_cons_of_mem _ hmem)]
      · rw [if_neg hmem, if_neg fun h => (List.mem_cons.mp h).elim (fun h => hkey h.symm) hmem]
        rfl

theorem nodup_setItem {d : List (κ × α)} (hd : (d.map Prod.fst).Nodup) (key : κ) (value : α) :
    ((setItem d key value).map Prod.fst).Nodup := by
  rw [keys_setItem]
  split_ifs with hmem
  · exact hd
  · exact List.nodup_append.mpr ⟨hd, List.pairwise_singleton _ key, fun k hk k' hk' heq =>
      hmem (List.mem_singleton.mp hk' ▸ heq ▸ hk)⟩

theorem get?_update_of_not_mem (d entries : List (κ × α)) {key : κ}
    (h : ∀ entry ∈ entries, entry.1 ≠ key) : get? (update d entries) key = get? d key := by
  induction entries generalizing d with
  | nil => rfl
  | cons entry entries ih =>
    show get? (update (setItem d entry.1 entry.2) entries) key = get? d key
    rw [ih _ fun entry hentry => h entry (List.mem_cons_of_mem _ hentry),
      get?_setItem_of_ne d entry.2 (h entry List.mem_cons_self).symm]

/-- A key whose entries agree has their value. -/
theorem get?_update_of_forall (d : List (κ × α)) {entries : List (κ × α)} {key : κ} {value : α}
    (hmem : (key, value) ∈ entries)
    (h : ∀ entry ∈ entries, entry.1 = key → entry.2 = value) :
    get? (update d entries) key = some value := by
  induction entries generalizing d with
  | nil => exact absurd hmem List.not_mem_nil
  | cons entry entries ih =>
    show get? (update (setItem d entry.1 entry.2) entries) key = some value
    have hrest : ∀ entry ∈ entries, entry.1 = key → entry.2 = value :=
      fun entry hentry => h entry (List.mem_cons_of_mem _ hentry)
    by_cases hlater : (key, value) ∈ entries
    · exact ih _ hlater hrest
    · obtain rfl : (key, value) = entry := (List.mem_cons.mp hmem).resolve_right hlater
      have hnone : ∀ entry ∈ entries, entry.1 ≠ key := by
        rintro ⟨key', value'⟩ hentry rfl
        exact hlater (hrest _ hentry rfl ▸ hentry)
      rw [get?_update_of_not_mem _ _ hnone, get?_setItem_self]

theorem mem_of_mem_update {d entries : List (κ × α)} {entry : κ × α}
    (h : entry ∈ update d entries) : entry ∈ d ∨ entry ∈ entries := by
  induction entries generalizing d with
  | nil => exact .inl h
  | cons first entries ih =>
    rcases ih (d := setItem d first.1 first.2) h with h | h
    · exact (eq_or_mem_of_mem_setItem h).elim (fun heq => .inr (heq ▸ List.mem_cons_self)) .inl
    · exact .inr (List.mem_cons_of_mem _ h)

theorem setItem_of_not_mem {d : List (κ × α)} {key : κ} (h : key ∉ d.map Prod.fst) (value : α) :
    setItem d key value = d ++ [(key, value)] := by
  induction d with
  | nil => rfl
  | cons entry d ih =>
    rw [List.map_cons, List.mem_cons, not_or] at h
    rw [setItem, if_neg (Ne.symm h.1), ih h.2, List.cons_append]

/-- Entries with new and distinct keys are appended. -/
theorem update_of_nodup {d entries : List (κ × α)} (h : ((d ++ entries).map Prod.fst).Nodup) :
    update d entries = d ++ entries := by
  induction entries generalizing d with
  | nil => exact (List.append_nil d).symm
  | cons entry entries ih =>
    have hnew : entry.1 ∉ d.map Prod.fst := by
      rw [List.map_append, List.map_cons] at h
      exact fun hmem => (List.nodup_append.mp h).2.2 _ hmem _ List.mem_cons_self rfl
    have hset := setItem_of_not_mem hnew entry.2
    show update (setItem d entry.1 entry.2) entries = _
    rw [hset, ih (by rw [List.append_assoc]; exact h), List.append_assoc]
    rfl

end Dict
